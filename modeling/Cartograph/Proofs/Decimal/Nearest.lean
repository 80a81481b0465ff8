import Mathlib
import Cartograph.Proofs.Decimal.Order

/-!
# Integers with 53 binary digits

A number of double precision has 53 binary digits, so of the integers it can be those that have no
more of them, zeros at the end aside (`Short`). Any other integer is rounded to the nearest one of
these (`nearest`), between two of them to the one whose last digit is even.

* `nearest_eq_self_iff`, `nearest_closest`: short integers are left alone, and no short integer is
  closer to an integer than the one it is rounded to;
* `nearest_mono`: rounding keeps the order;
* `rank_lt_iff_nearest`: as numbers, integers are compared as they are rounded.
-/

namespace Cartograph.Decimal

open Float.Model UnpackedFloat

/-- An integer with at most 53 binary digits, zeros at the end aside. -/
def Short (i : Int) : Prop := ∃ m k : Nat, i.natAbs = m * 2 ^ k ∧ m < 2 ^ 53

/-- What the last of 53 binary digits of a natural number stands for. -/
def unit (n : Nat) : Nat := 2 ^ (n.log2 - 52)

/-- The multiple of its unit that is nearest to a natural number, of two the even one. -/
def nearestNat (n : Nat) : Nat := roundDiv n (unit n) * unit n

/-- The short integer that is nearest to an integer. -/
def nearest (i : Int) : Int := if i < 0 then -(nearestNat i.natAbs : Int) else nearestNat i.natAbs

variable {n m : Nat} {i j : Int}

theorem unit_pos (n : Nat) : 0 < unit n := Nat.pow_pos (by decide)

/-! ### Rounded quotients -/

theorem roundDiv_scale {a d c : Nat} (pos : 0 < c) : roundDiv (a * c) (d * c) = roundDiv a d := by
  unfold roundDiv
  dsimp only
  rw [Nat.mul_div_mul_right _ _ pos, Nat.mul_mod_mul_right]
  have less : 2 * (a % d * c) < d * c ↔ 2 * (a % d) < d := by
    rw [← Nat.mul_assoc]
    exact Nat.mul_lt_mul_right pos
  have same : 2 * (a % d * c) = d * c ↔ 2 * (a % d) = d := by
    rw [← Nat.mul_assoc]
    exact Nat.mul_left_inj pos.ne'
  simp only [less, same]

/-- Equal quotients are rounded alike. -/
theorem roundDiv_congr {a b c d : Nat} (posb : 0 < b) (posd : 0 < d) (same : a * d = c * b) :
    roundDiv a b = roundDiv c d := by
  rw [← roundDiv_scale posd, same, Nat.mul_comm b d, roundDiv_scale posb]

/-- A rounded quotient is at most half a unit away. -/
theorem roundDiv_near (a : Nat) {d : Nat} (pos : 0 < d) :
    2 * (roundDiv a d * d) ≤ 2 * a + d ∧ 2 * a ≤ 2 * (roundDiv a d * d) + d := by
  have whole := Nat.div_add_mod a d
  have rest := Nat.mod_lt a pos
  have low : a / d * d = a - a % d := by rw [Nat.mul_comm]; omega
  have high : (a / d + 1) * d = a - a % d + d := by rw [Nat.succ_mul, low]
  unfold roundDiv
  dsimp only
  split_ifs with less tie
  · rw [low]; omega
  · rcases Nat.mod_two_eq_zero_or_one (a / d) with even | odd
    · rw [even, Nat.add_zero, low]; omega
    · rw [odd, high]; omega
  · rw [high]; omega

/-- No multiple of the unit is closer. -/
theorem roundDiv_closest (a k : Nat) {d : Nat} (pos : 0 < d) :
    ((roundDiv a d * d : Nat) - (a : Int)).natAbs ≤ ((k * d : Nat) - (a : Int)).natAbs := by
  obtain ⟨above, below⟩ := roundDiv_near a pos
  rcases Nat.lt_trichotomy k (roundDiv a d) with less | rfl | more
  · have := Nat.mul_le_mul_right d (Nat.succ_le_of_lt less)
    rw [Nat.succ_mul] at this
    omega
  · exact Nat.le_refl _
  · have := Nat.mul_le_mul_right d (Nat.succ_le_of_lt more)
    rw [Nat.succ_mul] at this
    omega

/-! ### Natural numbers -/

theorem leading_eq_of_small (small : n.log2 ≤ 52) : leading n = n * 2 ^ (52 - n.log2) := by
  rw [leading, Nat.sub_eq_zero_of_le small, Nat.pow_zero]
  exact Eq.trans (by rw [Nat.mul_one]) (roundDiv_mul (d := 1) (by decide))

theorem nearestNat_eq_of_small (small : n.log2 ≤ 52) : nearestNat n = n := by
  rw [nearestNat, unit, Nat.sub_eq_zero_of_le small, Nat.pow_zero, Nat.mul_one]
  exact Eq.trans (by rw [Nat.mul_one]) (roundDiv_mul (d := 1) (by decide))

/-- The leading digits stand for the rounded number. -/
theorem leading_mul_unit (n : Nat) : leading n * unit n = nearestNat n * 2 ^ (52 - n.log2) := by
  rcases Nat.le_total n.log2 52 with small | large
  · rw [leading_eq_of_small small, nearestNat_eq_of_small small, unit,
      Nat.sub_eq_zero_of_le small, Nat.pow_zero, Nat.mul_one]
  · rw [nearestNat, leading, Nat.sub_eq_zero_of_le large, Nat.pow_zero, Nat.mul_one, Nat.mul_one]
    rfl

@[simp] theorem nearestNat_zero : nearestNat 0 = 0 := by decide

/-- A short number is a multiple of the units of all smaller ones. -/
theorem unit_dvd_of_short (short : Short n) (large : 2 ^ m ≤ n) : 2 ^ (m - 52) ∣ n := by
  obtain ⟨d, k, same, digits⟩ := short
  rw [Int.natAbs_natCast] at same
  have exponents : m - 52 ≤ k := by
    by_contra less
    have small : n < 2 ^ (53 + k) := by
      rw [same, Nat.pow_add]
      exact Nat.mul_lt_mul_of_pos_right digits (Nat.pow_pos (by decide))
    have : 2 ^ (53 + k) ≤ 2 ^ m := Nat.pow_le_pow_right (by decide) (by omega)
    omega
  rw [same]
  exact Nat.dvd_mul_left_of_dvd (Nat.pow_dvd_pow 2 exponents) d

theorem unit_dvd (short : Short n) : unit n ∣ n := by
  by_cases pos : n = 0
  · subst pos
    exact Nat.dvd_zero _
  · exact unit_dvd_of_short short (Nat.log2_self_le pos)

theorem nearestNat_eq_of_short (short : Short n) : nearestNat n = n := by
  obtain ⟨d, same⟩ := unit_dvd short
  rw [nearestNat]
  conv => lhs; arg 1; arg 1; rw [same, Nat.mul_comm]
  rw [roundDiv_mul (unit_pos n), Nat.mul_comm]
  exact same.symm

theorem nearestNat_bounds (pos : n ≠ 0) :
    2 ^ n.log2 ≤ nearestNat n ∧ nearestNat n ≤ 2 ^ (n.log2 + 1) := by
  obtain ⟨low, high⟩ := leading_bounds pos
  have digits := leading_mul_unit n
  have scale : 0 < 2 ^ (52 - n.log2) := Nat.pow_pos (by decide)
  have first : 2 ^ n.log2 * 2 ^ (52 - n.log2) = 2 ^ 52 * unit n := by
    rw [unit, ← Nat.pow_add, ← Nat.pow_add]
    congr 1
    omega
  constructor
  · refine Nat.le_of_mul_le_mul_right ?_ scale
    rw [first, ← digits]
    exact Nat.mul_le_mul_right _ low
  · refine Nat.le_of_mul_le_mul_right ?_ scale
    rw [Nat.pow_succ, Nat.mul_right_comm, first, ← digits, Nat.mul_right_comm]
    exact Nat.mul_le_mul_right _ high

theorem short_two_pow (k : Nat) : Short (2 ^ k : Nat) :=
  ⟨1, k, by rw [Int.natAbs_natCast, Nat.one_mul], by decide⟩

theorem short_nearestNat (n : Nat) : Short (nearestNat n) := by
  by_cases small : n.log2 < 52
  · rw [nearestNat_eq_of_small (by omega)]
    have : n < 2 ^ 53 := Nat.lt_of_lt_of_le Nat.lt_log2_self
      (Nat.pow_le_pow_right (by decide) (by omega))
    exact ⟨n, 0, by simp, this⟩
  · have pos : n ≠ 0 := by
      rintro rfl
      exact small (by decide)
    rcases Nat.lt_or_eq_of_le (leading_bounds pos).2 with less | carry
    · refine ⟨leading n, n.log2 - 52, ?_, less⟩
      have digits := leading_mul_unit n
      rw [Nat.sub_eq_zero_of_le (Nat.le_of_not_lt small), Nat.pow_zero, Nat.mul_one] at digits
      rw [Int.natAbs_natCast, ← digits, unit]
    · have digits := leading_mul_unit n
      rw [Nat.sub_eq_zero_of_le (Nat.le_of_not_lt small), Nat.pow_zero, Nat.mul_one, carry, unit,
        ← Nat.pow_add] at digits
      rw [← digits]
      exact short_two_pow _

theorem nearestNat_mono (le : n ≤ m) : nearestNat n ≤ nearestNat m := by
  by_cases pos : n = 0
  · rw [pos, nearestNat_zero]
    exact Nat.zero_le _
  have pos' : m ≠ 0 := by omega
  rcases Nat.lt_or_eq_of_le ((Nat.le_log2 pos').2 (Nat.le_trans (Nat.log2_self_le pos) le))
    with less | same
  · calc nearestNat n ≤ 2 ^ (n.log2 + 1) := (nearestNat_bounds pos).2
      _ ≤ 2 ^ m.log2 := Nat.pow_le_pow_right (by decide) less
      _ ≤ nearestNat m := (nearestNat_bounds pos').1
  · unfold nearestNat unit
    rw [same]
    exact Nat.mul_le_mul_right _ (roundDiv_mono le)

/-- No short number is closer. -/
theorem nearestNat_closest (n : Nat) (short : Short m) :
    ((nearestNat n : Nat) - (n : Int)).natAbs ≤ ((m : Int) - n).natAbs := by
  by_cases pos : n = 0
  · rw [pos, nearestNat_zero]
    omega
  by_cases large : 2 ^ n.log2 ≤ m
  · obtain ⟨k, rfl⟩ := unit_dvd_of_short short large
    rw [Nat.mul_comm]
    exact roundDiv_closest n k (unit_pos n)
  · -- The power of two below is closer, and a multiple of the unit.
    have below := Nat.log2_self_le pos
    have closest : ((nearestNat n : Nat) - (n : Int)).natAbs ≤
        ((2 ^ n.log2 : Nat) - (n : Int)).natAbs := by
      obtain ⟨k, same⟩ := unit_dvd_of_short (short_two_pow n.log2) (Nat.le_refl _)
      rw [same, Nat.mul_comm]
      exact roundDiv_closest n k (unit_pos n)
    omega

/-! ### Bits -/

theorem leading_two_pow (k : Nat) : leading (2 ^ k) = 2 ^ 52 := by
  have scale : 2 ^ k * 2 ^ (52 - k) = 2 ^ 52 * 2 ^ (k - 52) := by
    rw [← Nat.pow_add, ← Nat.pow_add]
    congr 1
    omega
  rw [leading, Nat.log2_two_pow, scale]
  exact roundDiv_mul (Nat.pow_pos (by decide))

theorem leading_lt_of_short (short : Short n) : leading n < 2 ^ 53 := by
  have digits := leading_mul_unit n
  rw [nearestNat_eq_of_short short] at digits
  have scale : 2 ^ (n.log2 + 1) * 2 ^ (52 - n.log2) = 2 ^ 53 * unit n := by
    rw [unit, ← Nat.pow_add, ← Nat.pow_add]
    congr 1
    omega
  have less : n * 2 ^ (52 - n.log2) < 2 ^ (n.log2 + 1) * 2 ^ (52 - n.log2) :=
    Nat.mul_lt_mul_of_pos_right Nat.lt_log2_self (Nat.pow_pos (by decide))
  rw [scale, ← digits] at less
  exact Nat.lt_of_mul_lt_mul_right less

/-- Rounding leaves the bits alone. -/
theorem intBits_nearestNat (n : Nat) : intBits (nearestNat n) = intBits n := by
  by_cases pos : n = 0
  · rw [pos, nearestNat_zero]
  obtain ⟨low, high⟩ := nearestNat_bounds pos
  have pos' : nearestNat n ≠ 0 := by
    have := Nat.pow_pos (n := n.log2) (a := 2) (by decide)
    omega
  rw [intBits, if_neg pos', intBits, if_neg pos]
  have digits := leading_mul_unit n
  rcases Nat.lt_or_eq_of_le high with less | carry
  · have place : (nearestNat n).log2 = n.log2 := (Nat.log2_eq_iff pos').2 ⟨low, less⟩
    have digits' := leading_mul_unit (nearestNat n)
    rw [nearestNat_eq_of_short (short_nearestNat n), place, ← digits, unit, place,
      ← unit] at digits'
    rw [place, Nat.mul_right_cancel (unit_pos n) digits']
  · -- The digits carry into the next power of two.
    have full : leading n = 2 ^ 53 := by
      refine Nat.mul_right_cancel (unit_pos n) (digits.trans ?_)
      rw [carry, unit, ← Nat.pow_add, ← Nat.pow_add]
      congr 1
      omega
    rw [carry, Nat.log2_two_pow, leading_two_pow, full]
    omega

/-- Short numbers are told apart by their bits. -/
theorem eq_of_intBits_eq (short : Short n) (short' : Short m) (same : intBits n = intBits m) :
    n = m := by
  have zero : ∀ k : Nat, intBits k = 0 → k = 0 := by
    intro k none
    by_contra pos
    have := (leading_bounds pos).1
    rw [intBits, if_neg pos] at none
    omega
  by_cases pos : n = 0
  · subst pos
    exact (zero m same.symm).symm
  by_cases pos' : m = 0
  · subst pos'
    exact zero n same
  have low := (leading_bounds pos).1
  have low' := (leading_bounds pos').1
  have high := leading_lt_of_short short
  have high' := leading_lt_of_short short'
  rw [intBits, if_neg pos, intBits, if_neg pos'] at same
  have place : n.log2 = m.log2 := by omega
  have digits : leading n = leading m := by omega
  have value := leading_mul_unit n
  have value' := leading_mul_unit m
  rw [nearestNat_eq_of_short short] at value
  rw [nearestNat_eq_of_short short', ← digits, unit, ← place, ← unit, value] at value'
  exact Nat.mul_right_cancel (Nat.pow_pos (by decide)) value'

/-! ### Integers -/

theorem natAbs_nearest (i : Int) : (nearest i).natAbs = nearestNat i.natAbs := by
  unfold nearest
  split <;> simp

theorem nearest_neg (i : Int) : nearest (-i) = -nearest i := by
  unfold nearest
  rw [Int.natAbs_neg]
  rcases Int.lt_trichotomy i 0 with less | rfl | more
  · rw [if_neg (by omega), if_pos less, Int.neg_neg]
  · rfl
  · rw [if_pos (by omega), if_neg (by omega)]

theorem short_iff_natAbs : Short i ↔ Short i.natAbs := by
  unfold Short
  rw [Int.natAbs_natCast]

/-- An integer is rounded to a short one. -/
theorem short_nearest (i : Int) : Short (nearest i) := by
  rw [short_iff_natAbs, natAbs_nearest]
  exact short_nearestNat _

/-- Exactly the short integers are left alone. -/
theorem nearest_eq_self_iff : nearest i = i ↔ Short i := by
  constructor
  · intro same
    exact same ▸ short_nearest i
  · intro short
    unfold nearest
    rw [nearestNat_eq_of_short (short_iff_natAbs.1 short)]
    split <;> omega

/-- Integers of at most 53 binary digits are short. -/
theorem short_of_natAbs_le (small : i.natAbs ≤ 2 ^ 53) : Short i := by
  rcases Nat.lt_or_eq_of_le small with less | same
  · exact ⟨i.natAbs, 0, by simp, less⟩
  · exact ⟨1, 53, by omega, by decide⟩

/-- Rounding keeps the order. -/
theorem nearest_mono (le : i ≤ j) : nearest i ≤ nearest j := by
  unfold nearest
  split
  case isTrue below =>
    split
    case isTrue below' =>
      have := nearestNat_mono (n := j.natAbs) (m := i.natAbs) (by omega)
      omega
    case isFalse => omega
  case isFalse above =>
    have := nearestNat_mono (n := i.natAbs) (m := j.natAbs) (by omega)
    rw [if_neg (by omega)]
    omega

/-- No short integer is closer to an integer than the one it is rounded to. -/
theorem nearest_closest (i : Int) (short : Short j) :
    (nearest i - i).natAbs ≤ (j - i).natAbs := by
  have closest := nearestNat_closest i.natAbs (short_iff_natAbs.1 short)
  unfold nearest
  split <;> omega

/-! ### Comparisons -/

theorem isLE_eq (o : Ordering) : o.isLE = !(some o.swap == some .lt) := by
  cases o <;> rfl

/-- Of two unpacked numbers one is not above the other unless the other one is below it. -/
theorem le_eq_not_lt {u v : UnpackedFloat} (hu : Fits u) (hv : Fits v) : u.le v = !v.lt u := by
  unfold UnpackedFloat.le UnpackedFloat.lt
  cases u with
  | notANumber => exact hu.elim
  | infinity s | zero s =>
    cases v with
    | notANumber => exact hv.elim
    | infinity s' | zero s' | finite s' => cases s <;> cases s' <;> rfl
  | finite s m e pos =>
    cases v with
    | notANumber => exact hv.elim
    | infinity s' | zero s' => cases s <;> cases s' <;> rfl
    | finite s' m' e' pos' =>
      cases s <;> cases s' <;>
        simp only [UnpackedFloat.compare, Option.any_some, isLE_eq, Ordering.swap_then,
          Int.compare_swap, Nat.compare_swap]
      all_goals rfl

/-- A number is at most another if it does not come after it. -/
theorem le_iff_rank {f g : Float} (hf : f.isNaN = false) (hg : g.isNaN = false) :
    f ≤ g ↔ rank f ≤ rank g := by
  have below : f ≤ g ↔ ¬g < f := by
    change decide (f.toModel.unpack.le g.toModel.unpack = true) = true ↔
      ¬decide (g.toModel.unpack.lt f.toModel.unpack = true) = true
    rw [le_eq_not_lt (rank_eq hf).1 (rank_eq hg).1]
    simp
  rw [below, lt_iff_rank hg hf, Int.not_lt]

/-- An integer far below the greatest number. -/
def Moderate (i : Int) : Prop := i.natAbs ≤ 2 ^ 200

theorem intBits_lt (moderate : n ≤ 2 ^ 200) : intBits n < infinityBits := by
  have greatest : intBits (2 ^ 200) = 1222 * 2 ^ 52 + 2 ^ 52 := by
    rw [intBits, if_neg (by decide), Nat.log2_two_pow, leading_two_pow]
  have top : infinityBits = 2047 * 2 ^ 52 := rfl
  have := intBits_mono moderate
  omega

theorem rank_ofInt_of_moderate (moderate : Moderate i) :
    rank (ofInt i) = if i < 0 then -(intBits i.natAbs : Int) else intBits i.natAbs := by
  rw [rank_ofInt, Nat.min_eq_left (intBits_lt moderate).le]

theorem moderate_nearest (moderate : Moderate i) : Moderate (nearest i) := by
  have bound : nearestNat i.natAbs ≤ 2 ^ 200 := by
    rw [← nearestNat_eq_of_short (short_two_pow 200)]
    exact nearestNat_mono moderate
  rwa [Moderate, natAbs_nearest]

theorem nearest_neg_iff : nearest i < 0 ↔ i < 0 := by
  have positive : i < 0 → 0 < nearestNat i.natAbs := fun below =>
    Nat.lt_of_lt_of_le (Nat.pow_pos (by decide)) (nearestNat_bounds (by omega)).1
  unfold nearest
  split <;> omega

/-- An integer is the same number as the one that it is rounded to. -/
theorem ofInt_nearest (moderate : Moderate i) : ofInt (nearest i) = ofInt i := by
  refine ofInt_eq_of_rank_eq ?_
  rw [rank_ofInt_of_moderate (moderate_nearest moderate), rank_ofInt_of_moderate moderate,
    natAbs_nearest, intBits_nearestNat]
  simp only [nearest_neg_iff]

theorem intBits_pos (pos : n ≠ 0) : 0 < intBits n := by
  have := (leading_bounds pos).1
  rw [intBits, if_neg pos]
  omega

/-- Short integers are different numbers. -/
theorem eq_of_rank_ofInt_eq (mi : Moderate i) (mj : Moderate j) (si : Short i) (sj : Short j)
    (same : rank (ofInt i) = rank (ofInt j)) : i = j := by
  rw [rank_ofInt_of_moderate mi, rank_ofInt_of_moderate mj] at same
  have positive : ∀ k : Int, k < 0 → 0 < intBits k.natAbs := fun k below =>
    intBits_pos (by omega)
  have bits : intBits i.natAbs = intBits j.natAbs → i.natAbs = j.natAbs :=
    eq_of_intBits_eq (short_iff_natAbs.1 si) (short_iff_natAbs.1 sj)
  have := positive i
  have := positive j
  split at same <;> split at same <;> omega

/-- As numbers, integers are ordered as they are rounded. -/
theorem rank_lt_iff_nearest (mi : Moderate i) (mj : Moderate j) :
    rank (ofInt i) < rank (ofInt j) ↔ nearest i < nearest j := by
  rw [← ofInt_nearest mi, ← ofInt_nearest mj]
  constructor
  · intro less
    by_contra above
    have := rank_ofInt_mono (Int.not_lt.1 above)
    omega
  · intro less
    refine lt_of_le_of_ne (rank_ofInt_mono less.le) fun same => less.ne ?_
    exact eq_of_rank_ofInt_eq (moderate_nearest mi) (moderate_nearest mj) (short_nearest i)
      (short_nearest j) same

theorem ofInt_lt_iff (mi : Moderate i) (mj : Moderate j) :
    ofInt i < ofInt j ↔ nearest i < nearest j := by
  rw [lt_iff_rank (isNaN_ofInt i) (isNaN_ofInt j), rank_lt_iff_nearest mi mj]

theorem ofInt_le_iff (mi : Moderate i) (mj : Moderate j) :
    ofInt i ≤ ofInt j ↔ nearest i ≤ nearest j := by
  rw [le_iff_rank (isNaN_ofInt i) (isNaN_ofInt j), ← Int.not_lt, rank_lt_iff_nearest mj mi,
    Int.not_lt]

theorem ofInt_beq_iff (mi : Moderate i) (mj : Moderate j) :
    (ofInt i == ofInt j) = true ↔ nearest i = nearest j := by
  have number (k : Int) : ofInt k ≠ Float.nan := by
    simpa using isNaN_ofInt k
  have apart (k : Int) : ofInt k ≠ -0 := by
    have : (-0 : Float) = signed true 0 := by decide +kernel
    rw [this]
    exact ofInt_ne_negativeZero k
  have same : (ofInt i == ofInt j) = true ↔ ofInt i = ofInt j := by
    rw [Float.beq_iff_ne_nan_and_eq]
    simp [number, apart]
  rw [same]
  constructor
  · intro same
    rcases Int.lt_trichotomy (nearest i) (nearest j) with less | equal | more
    · exact absurd ((rank_lt_iff_nearest mi mj).2 less) (by rw [same]; omega)
    · exact equal
    · exact absurd ((rank_lt_iff_nearest mj mi).2 more) (by rw [same]; omega)
  · intro same
    rw [← ofInt_nearest mi, same, ofInt_nearest mj]

end Cartograph.Decimal

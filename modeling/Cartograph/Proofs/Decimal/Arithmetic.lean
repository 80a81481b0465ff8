import Mathlib
import Cartograph.Proofs.Decimal.Nearest

/-!
# Sums, differences and products of integers as numbers

A result is a mantissa with an exponent, which stands for an integer (`Amounts`, and `AmountsTo`
with a sign) and is then cut down to 53 digits. What is cut off decides as it does when the integer
itself is rounded (`Keeps`, `holds_round`), so the result is the number of that integer.

* `ofInt_add`, `ofInt_sub`, `rank_ofInt_mul`: the operands are rounded, the operation is carried out
  on integers, and its result is rounded;
* `truncate_ofInt`: made an integer again, a number is the integer that it was rounded to, or the
  end of the range of words.

All integers here are far below the largest number of double precision (`Moderate`).
-/

namespace Cartograph.Decimal

open Float.Model UnpackedFloat

variable {m n : Nat} {e : Int} {s : Sign}

/-- A mantissa with an exponent, and the natural number that they stand for. -/
def Amounts (m : Nat) (e : Int) (n : Nat) : Prop := m * 2 ^ e.toNat = n * 2 ^ (-e).toNat

theorem log2_mul_two_pow (pos : m ≠ 0) (k : Nat) : (m * 2 ^ k).log2 = m.log2 + k := by
  rw [Nat.log2_eq_iff (Nat.mul_ne_zero pos (Nat.pow_pos (by decide)).ne')]
  constructor
  · rw [Nat.pow_add]
    exact Nat.mul_le_mul_right _ (Nat.log2_self_le pos)
  · rw [Nat.add_right_comm, Nat.pow_add]
    exact Nat.mul_lt_mul_of_pos_right Nat.lt_log2_self (Nat.pow_pos (by decide))

theorem Amounts.pos (h : Amounts m e n) (pos : m ≠ 0) : n ≠ 0 := by
  rintro rfl
  rw [Amounts, Nat.zero_mul] at h
  exact pos ((Nat.mul_eq_zero.1 h).resolve_right (Nat.pow_pos (by decide)).ne')

/-- The first digit of the mantissa stands where that of the number does. -/
theorem Amounts.log2 (h : Amounts m e n) (pos : m ≠ 0) : (m.log2 : Int) + e = n.log2 := by
  have logs := congrArg Nat.log2 h
  rw [log2_mul_two_pow pos, log2_mul_two_pow (h.pos pos)] at logs
  omega

theorem Amounts.mul {m' n' : Nat} {e' : Int} (h : Amounts m e n) (h' : Amounts m' e' n') :
    Amounts (m * m') (e + e') (n * n') := by
  unfold Amounts at *
  have exponents : (e + e').toNat + ((-e).toNat + (-e').toNat) =
      e.toNat + e'.toNat + (-(e + e')).toNat := by omega
  have power (x : Nat) : 0 < 2 ^ x := Nat.pow_pos (by decide)
  refine Nat.eq_of_mul_eq_mul_right (power ((-e).toNat + (-e').toNat)) ?_
  calc m * m' * 2 ^ (e + e').toNat * 2 ^ ((-e).toNat + (-e').toNat)
      = (m * 2 ^ e.toNat) * (m' * 2 ^ e'.toNat) * 2 ^ (-(e + e')).toNat := by
        rw [Nat.mul_assoc (m * m'), ← Nat.pow_add, exponents, Nat.pow_add, Nat.pow_add]
        ring
    _ = n * n' * 2 ^ (-(e + e')).toNat * 2 ^ ((-e).toNat + (-e').toNat) := by
        rw [h, h', Nat.mul_mul_mul_comm, ← Nat.pow_add, Nat.mul_right_comm]

/-- A lower exponent has zeros behind the mantissa. -/
theorem amounts_lower_iff (k : Nat) : Amounts (m * 2 ^ k) (e - k) n ↔ Amounts m e n := by
  unfold Amounts
  -- Both sides are multiplied by the power of two that the other exponent lacks.
  have exponents : k + (e - k).toNat + (-e).toNat = e.toNat + (-(e - k)).toNat := by omega
  have left : m * 2 ^ k * 2 ^ (e - k).toNat * 2 ^ (-e).toNat =
      m * 2 ^ e.toNat * 2 ^ (-(e - k)).toNat := by
    rw [Nat.mul_assoc m, ← Nat.pow_add, Nat.mul_assoc, ← Nat.pow_add, exponents, Nat.pow_add,
      ← Nat.mul_assoc]
  have power (x : Nat) : 0 < 2 ^ x := Nat.pow_pos (by decide)
  rw [← Nat.mul_left_inj (power (-e).toNat).ne', left, Nat.mul_right_comm n,
    Nat.mul_left_inj (power _).ne']

/-! ### Rounding -/

/-- What a shift keeps of the digits that it cuts off: whether they make up half a unit or more, and
    whether they make up neither nothing nor half a unit. -/
structure Keeps (em : ExtendedMantissa) (m k : Nat) : Prop where
  mantissa : em.mantissa = m / 2 ^ k
  roundBit : em.roundBit = decide (2 ^ k ≤ 2 * (m % 2 ^ k))
  stickyBit : em.stickyBit = decide (m % 2 ^ k ≠ 0 ∧ 2 * (m % 2 ^ k) ≠ 2 ^ k)

theorem Keeps.shiftRightOne {em : ExtendedMantissa} {k : Nat} (h : Keeps em m k) :
    Keeps em.shiftRightOne m (k + 1) := by
  have rest := Nat.mod_lt m (Nat.pow_pos (n := k) (a := 2) (by decide))
  have digit := Nat.mod_two_eq_zero_or_one (m / 2 ^ k)
  have split : m % 2 ^ (k + 1) = m % 2 ^ k + 2 ^ k * (m / 2 ^ k % 2) := Nat.mod_pow_succ
  have power : 2 ^ (k + 1) = 2 * 2 ^ k := Nat.pow_succ'
  refine ⟨?_, ?_, ?_⟩
  · change em.mantissa / 2 = _
    rw [h.mantissa, Nat.div_div_eq_div_mul, Nat.pow_succ]
  · change (em.mantissa % 2 != 0) = _
    rw [h.mantissa, split, power]
    rcases digit with zero | one
    · rw [zero]
      simp
      omega
    · rw [one]
      simp
  · change (em.roundBit || em.stickyBit) = _
    rw [h.roundBit, h.stickyBit, split, power, ← Bool.decide_or, decide_eq_decide]
    rcases digit with zero | one
    · rw [zero]
      omega
    · rw [one]
      omega

theorem keeps_shift (m k : Nat) : Keeps (ExtendedMantissa.mk m false false >>> k) m k := by
  induction k with
  | zero =>
    refine ⟨(Nat.div_one m).symm, ?_, ?_⟩
    · rw [Nat.pow_zero, Nat.mod_one]
      rfl
    · rw [Nat.pow_zero, Nat.mod_one]
      rfl
  | succ k ih => exact ih.shiftRightOne

/-- The digits that are cut off decide how the others are rounded. -/
theorem Keeps.roundedMantissa {em : ExtendedMantissa} {k : Nat} (h : Keeps em m k) :
    em.roundedMantissa = roundDiv m (2 ^ k) := by
  have power := Nat.pow_pos (n := k) (a := 2) (by decide)
  obtain ⟨q, above, more⟩ := em
  obtain ⟨rfl, round, sticky⟩ := h
  dsimp only at round sticky
  unfold roundDiv ExtendedMantissa.roundedMantissa
  dsimp only
  cases above <;> cases more
  · rw [eq_comm, decide_eq_false_iff_not] at round
    rw [if_pos (by omega)]
    rfl
  · rw [eq_comm, decide_eq_false_iff_not] at round
    rw [if_pos (by omega)]
    rfl
  · rw [eq_comm, decide_eq_true_iff] at round
    rw [eq_comm, decide_eq_false_iff_not] at sticky
    rw [if_neg (by omega), if_pos (by omega)]
    rfl
  · rw [eq_comm, decide_eq_true_iff] at round sticky
    rw [if_neg (by omega), if_neg (by omega)]
    rfl

/-- The exponent with which 53 digits are left. -/
theorem targetExponent_eq (h : Amounts m e n) (pos : m ≠ 0) :
    Format.binary64.targetExponent (totalExponent m e) = n.log2 - 52 := by
  have place := h.log2 pos
  change max ((m.log2 : Int) + 1 + e - 53) (3 - 1024 - 53) = _
  omega

theorem shiftToTargetExponent_eq (h : Amounts m e n) (pos : m ≠ 0) (low : e ≤ n.log2 - 52) :
    shiftToTargetExponent .binary64 m e .exact =
      (ExtendedMantissa.mk m false false >>> (n.log2 - 52 - e).toNat, (n.log2 : Int) - 52) := by
  unfold shiftToTargetExponent shiftToExponent
  rw [targetExponent_eq h pos]
  refine Prod.ext rfl ?_
  dsimp only
  omega

/-- The digits that are left are the leading ones. -/
theorem roundDiv_eq_leading (h : Amounts m e n) (low : e ≤ n.log2 - 52) :
    roundDiv m (2 ^ (n.log2 - 52 - e).toNat) = leading n := by
  refine roundDiv_congr (Nat.pow_pos (by decide)) (Nat.pow_pos (by decide)) ?_
  have exponents : (n.log2 - 52) + (-e).toNat =
      52 - n.log2 + ((n.log2 - 52 - e).toNat + e.toNat) := by omega
  refine Nat.eq_of_mul_eq_mul_right (Nat.pow_pos (n := e.toNat) (a := 2) (by decide)) ?_
  calc m * 2 ^ (n.log2 - 52) * 2 ^ e.toNat
      = n * (2 ^ (n.log2 - 52) * 2 ^ (-e).toNat) := by
        rw [Nat.mul_right_comm, h, Nat.mul_assoc, Nat.mul_comm (2 ^ (-e).toNat)]
    _ = n * 2 ^ (52 - n.log2) * 2 ^ (n.log2 - 52 - e).toNat * 2 ^ e.toNat := by
        rw [← Nat.pow_add, exponents, Nat.pow_add, Nat.pow_add, Nat.mul_assoc, Nat.mul_assoc]

/-- An unpacked number has 53 digits and the bits of a natural number. -/
structure Holds (u : UnpackedFloat) (s : Sign) (n : Nat) : Prop where
  shape : ∃ m e pos, u = .finite s m e pos ∧ 2 ^ 52 ≤ m ∧ m < 2 ^ 53 ∧ -1074 ≤ e ∧
    (e + 1074) * 2 ^ 52 + m = intBits n

/-- A mantissa of 53 digits is kept. -/
theorem shift_of_full (least : 2 ^ 52 ≤ m) (short : m < 2 ^ 53) (low : -1074 ≤ e) :
    shiftToTargetExponent .binary64 m e .exact = (⟨m, false, false⟩, e) := by
  have place : m.log2 = 52 := (Nat.log2_eq_iff (by omega)).2 ⟨least, short⟩
  have target : Format.binary64.targetExponent (totalExponent m e) = e := by
    change max ((m.log2 : Int) + 1 + e - 53) (3 - 1024 - 53) = _
    omega
  unfold shiftToTargetExponent shiftToExponent
  simp only [target, Int.sub_self]
  exact Prod.ext rfl (Int.add_zero e)

/-- A mantissa that has been rounded up to the next power of two has a digit too many. -/
theorem shift_of_carry (low : -1074 ≤ e) :
    shiftToTargetExponent .binary64 (2 ^ 53) e .exact = (⟨2 ^ 52, false, false⟩, e + 1) := by
  have target : Format.binary64.targetExponent (totalExponent (2 ^ 53) e) = e + 1 := by
    change max (((2 ^ 53 : Nat).log2 : Int) + 1 + e - 53) (3 - 1024 - 53) = _
    rw [Nat.log2_two_pow]
    omega
  have one : (e + 1 - e).toNat = 1 := by omega
  unfold shiftToTargetExponent shiftToExponent
  simp only [target, one]
  rfl

/-- Rounding a mantissa leaves the leading digits of the number that it stands for. -/
theorem holds_roundWithAccuracy (h : Amounts m e n) (pos : m ≠ 0) (low : e ≤ n.log2 - 52) :
    Holds (roundWithAccuracy .binary64 s m e .exact) s n := by
  have bits : intBits n = (n.log2 + 1022) * 2 ^ 52 + leading n := if_neg (h.pos pos)
  obtain ⟨least, most⟩ := leading_bounds (h.pos pos)
  unfold roundWithAccuracy
  rw [shiftToTargetExponent_eq h pos low]
  dsimp only
  rw [(keeps_shift m _).roundedMantissa, roundDiv_eq_leading h low]
  rcases Nat.lt_or_eq_of_le most with short | carry
  · rw [shift_of_full least short (by omega)]
    dsimp only
    rw [dif_neg (by omega)]
    exact ⟨leading n, n.log2 - 52, by omega, rfl, least, short, by omega, by omega⟩
  · rw [carry, shift_of_carry (by omega)]
    dsimp only
    rw [dif_neg (by decide)]
    exact ⟨2 ^ 52, n.log2 - 52 + 1, by decide, rfl, Nat.le_refl _, by decide, by omega, by omega⟩

/-- An exponent that is too high is brought down first. -/
theorem holds_round (h : Amounts m e n) (pos : m ≠ 0) : Holds (round .binary64 s m e) s n := by
  unfold UnpackedFloat.round decreaseExponent
  rw [targetExponent_eq h pos]
  dsimp only
  rw [Nat.shiftLeft_eq]
  refine holds_roundWithAccuracy ((amounts_lower_iff _).2 h) ?_ (by omega)
  exact Nat.mul_ne_zero pos (Nat.pow_pos (by decide)).ne'

/-! ### Results -/

/-- A result with its digits is the number in the place of its bits. -/
theorem Holds.rank_pack {u : UnpackedFloat} (h : Holds u s n) (moderate : n ≤ 2 ^ 200) :
    rank (.ofModel (.pack u)) = s.apply (intBits n) := by
  obtain ⟨m, e, pos, rfl, least, short, low, bits⟩ := h.shape
  have below := intBits_lt moderate
  have top : infinityBits = 2047 * 2 ^ 52 := rfl
  have place : m.log2 = 52 := (Nat.log2_eq_iff (by omega)).2 ⟨least, short⟩
  let E : BitVec 11 := BitVec.ofNat 11 (e + 1023 + 52).toNat
  let M : BitVec 52 := BitVec.ofNat 52 m
  have exponent : E.toNat = (e + 1075).toNat := by
    refine (BitVec.toNat_ofNat ..).trans ?_
    omega
  have mantissa : M.toNat = m - 2 ^ 52 := by
    refine (BitVec.toNat_ofNat ..).trans ?_
    omega
  have packed : UnpackedFloat.pack .binary64 (.finite s m e pos) =
      packComponents .binary64 s E M := by
    unfold UnpackedFloat.pack
    dsimp only
    rw [if_neg, if_pos]
    · rfl
    · rw [place]
      rfl
    · change ¬2 ^ 11 ≤ (e + 1023 + 52).toNat + 1
      omega
  have number : (Float.ofModel (.pack (.finite s m e pos))).isNaN = false := by
    rw [Bool.eq_false_iff]
    intro nan
    have special : UnpackedFloat.pack .binary64 (.finite s m e pos) = packedNaN .binary64 :=
      (isNaN_unpack_iff_of_valid (Float.Model.pack (.finite s m e pos)).valid).1 nan
    have high := congrArg unpackExponent special
    rw [packed, unpackExponent_packComponents, packedNaN, unpackExponent_packComponents] at high
    have greatest : (-1#11).toNat = 2047 := rfl
    have := (congrArg BitVec.toNat high).trans greatest
    omega
  have stands := stands_unpack (UnpackedFloat.pack .binary64 (.finite s m e pos)) number
  have sign := stands.sign
  have size := stands.size
  rw [packed, unpackSign_packComponents, Sign.ofBitVec_toBitVec, ← packed] at sign
  rw [packed, unpackExponent_packComponents, unpackMantissa_packComponents, exponent, mantissa,
    ← packed] at size
  have value : (((e + 1075).toNat * 2 ^ 52 + (m - 2 ^ 52) : Nat) : Int) = intBits n := by omega
  rw [(rank_eq number).2]
  exact (congrArg₂ Sign.apply sign size).trans (congrArg s.apply value)

/-! ### Operands -/

/-- The bits of an integer stand for its leading digits. -/
theorem amounts_of_bits (least : 2 ^ 52 ≤ m) (short : m < 2 ^ 53) (pos : n ≠ 0)
    (bits : (e + 1074) * 2 ^ 52 + m = intBits n) : Amounts m e (nearestNat n) := by
  have leads : Amounts (leading n) (n.log2 - 52) (nearestNat n) := by
    have up : ((n.log2 : Int) - 52).toNat = n.log2 - 52 := by omega
    have down : (-((n.log2 : Int) - 52)).toNat = 52 - n.log2 := by omega
    rw [Amounts, up, down]
    exact leading_mul_unit n
  obtain ⟨low, high⟩ := leading_bounds pos
  rw [intBits, if_neg pos] at bits
  rcases Nat.lt_or_eq_of_le high with less | carry
  · have digits : m = leading n := by omega
    have exponent : e = n.log2 - 52 := by omega
    rw [digits, exponent]
    exact leads
  · have digits : m = 2 ^ 52 := by omega
    have exponent : e - (1 : Nat) = n.log2 - 52 := by omega
    rw [carry] at leads
    rw [← amounts_lower_iff 1, exponent, digits]
    exact leads

/-- The sign of an integer. -/
def signOfInt (i : Int) : Sign := if i < 0 then .negative else .positive

variable {i j : Int}

theorem rank_ofInt_eq_apply (moderate : Moderate i) :
    rank (ofInt i) = (signOfInt i).apply (intBits i.natAbs) := by
  rw [rank_ofInt_of_moderate moderate, signOfInt]
  split <;> rfl

/-- An integer has 53 digits as a number, which do not hang on its sign. -/
theorem unpack_ofInt (moderate : Moderate i) (nonzero : i ≠ 0) : ∃ m e pos,
    (ofInt i).toModel.unpack = .finite (signOfInt i) m e pos ∧ 2 ^ 52 ≤ m ∧
      (∀ s, Holds (.finite s m e pos) s i.natAbs) ∧ Amounts m e (nearest i).natAbs := by
  have positive : 0 < intBits i.natAbs := intBits_pos (by omega)
  have below := intBits_lt moderate
  have top : infinityBits = 2047 * 2 ^ 52 := rfl
  obtain ⟨fits, place⟩ := rank_eq (isNaN_ofInt i)
  rw [rank_ofInt_eq_apply moderate] at place
  generalize (ofInt i).toModel.unpack = u at fits place
  cases u with
  | notANumber => exact fits.elim
  | infinity s | zero s =>
    cases s <;> cases sign : signOfInt i <;>
      simp only [sign, signOf, sizeOf, Sign.apply] at place <;> omega
  | finite s m e pos =>
    obtain ⟨short, low, full, -⟩ := fits
    have same : s = signOfInt i ∧ (e + 1074) * 2 ^ 52 + m = intBits i.natAbs := by
      cases s <;> cases sign : signOfInt i <;>
        simp only [sign, signOf, sizeOf, Sign.apply] at place <;>
        first | exact ⟨rfl, by omega⟩ | omega
    have first : intBits i.natAbs = (i.natAbs.log2 + 1022) * 2 ^ 52 + leading i.natAbs :=
      if_neg (by omega)
    have least : 2 ^ 52 ≤ m := by omega
    refine ⟨m, e, pos, by rw [same.1], least,
      fun s => ⟨m, e, pos, rfl, least, short, low, same.2⟩, ?_⟩
    rw [natAbs_nearest]
    exact amounts_of_bits least short (by omega) same.2

/-! ### Sums and differences -/

/-- A signed mantissa with an exponent, and the integer that they stand for. -/
def AmountsTo (a : Int) (e : Int) (b : Int) : Prop := a * 2 ^ e.toNat = b * 2 ^ (-e).toNat

variable {a b c d : Int}

theorem AmountsTo.natAbs (h : AmountsTo a e b) : Amounts a.natAbs e b.natAbs := by
  have abs := congrArg Int.natAbs h
  rwa [Int.natAbs_mul, Int.natAbs_mul, Int.natAbs_pow, Int.natAbs_pow] at abs

theorem AmountsTo.lt_zero_iff (h : AmountsTo a e b) : a < 0 ↔ b < 0 := by
  have sign (x : Int) (k : Nat) : x * 2 ^ k < 0 ↔ x < 0 := by
    have power : (0 : Int) < 2 ^ k := Int.pow_pos (by decide)
    exact ⟨fun less => neg_of_mul_neg_left less power.le,
      fun less => Int.mul_neg_of_neg_of_pos less power⟩
  rw [← sign a e.toNat, h, sign]

theorem AmountsTo.add (h : AmountsTo a e b) (h' : AmountsTo c e d) :
    AmountsTo (a + c) e (b + d) := by
  unfold AmountsTo at *
  rw [Int.add_mul, Int.add_mul, h, h']

theorem AmountsTo.sub (h : AmountsTo a e b) (h' : AmountsTo c e d) :
    AmountsTo (a - c) e (b - d) := by
  unfold AmountsTo at *
  rw [Int.sub_mul, Int.sub_mul, h, h']

/-- A number with its sign, and with zeros behind its mantissa. -/
theorem Amounts.aligned {low : Int} (h : Amounts m e (nearest i).natAbs) (le : low ≤ e) :
    AmountsTo ((signOfInt i).apply (m <<< (e - low).toNat : Nat)) low (nearest i) := by
  have lowered := (amounts_lower_iff (e - low).toNat).2 h
  have exponent : e - ((e - low).toNat : Int) = low := by omega
  rw [exponent, Amounts] at lowered
  rw [Nat.shiftLeft_eq, AmountsTo]
  have value : ((m * 2 ^ (e - low).toNat : Nat) : Int) * 2 ^ low.toNat =
      (nearest i).natAbs * 2 ^ (-low).toNat := by exact_mod_cast lowered
  have sign : nearest i = (signOfInt i).apply (nearest i).natAbs := by
    have := nearest_neg_iff (i := i)
    unfold signOfInt
    split <;> simp only [Sign.apply] <;> omega
  cases same : signOfInt i with
  | positive =>
    rw [same] at sign
    rw [sign]
    exact value
  | negative =>
    rw [same] at sign
    rw [sign]
    simp only [Sign.apply, Int.neg_mul]
    rw [value]

/-- The number that a signed mantissa is rounded to. -/
theorem pack_normalize (h : AmountsTo a e b) (moderate : Moderate b) :
    Float.ofModel (.pack (UnpackedFloat.normalize .binary64 a e .positive)) = ofInt b := by
  have sign := h.lt_zero_iff
  by_cases zero : a = 0
  · have none : b = 0 := by
      have value := h
      rw [zero, AmountsTo, Int.zero_mul] at value
      exact (Int.mul_eq_zero.1 value.symm).resolve_right (Int.pow_ne_zero (by decide))
    rw [zero, none]
    have : ofInt 0 = .ofModel (.pack (.zero .positive)) := by decide +kernel
    exact this.symm
  · have nonzero : b ≠ 0 := by
      have pos := h.natAbs.pos (by omega)
      omega
    have holds :
        Holds (UnpackedFloat.normalize .binary64 a e .positive) (signOfInt b) b.natAbs := by
      have rounded (s : Sign) : Holds (UnpackedFloat.round .binary64 s a.natAbs e) s b.natAbs :=
        holds_round h.natAbs (by omega)
      unfold UnpackedFloat.normalize signOfInt
      rcases Int.lt_trichotomy a 0 with less | equal | more
      · rw [Int.compare_eq_lt.2 less, if_pos (sign.1 less)]
        have : (-a).toNat = a.natAbs := by omega
        exact this ▸ rounded .negative
      · exact absurd equal zero
      · rw [Int.compare_eq_gt.2 more, if_neg (by omega)]
        have : a.toNat = a.natAbs := by omega
        exact this ▸ rounded .positive
    have place := (holds.rank_pack moderate).trans (rank_ofInt_eq_apply moderate).symm
    exact eq_of_rank_eq place (place ▸ rank_ofInt_ne_zero nonzero)

/-- Packing a number that has been unpacked gives it back. -/
theorem pack_toModel_unpack (f : Float) : Float.ofModel (.pack f.toModel.unpack) = f :=
  Float.ofBits_toBits f

theorem nearest_zero : nearest 0 = 0 := by decide

theorem ofInt_zero : ofInt 0 = .ofModel (.pack (.zero .positive)) := by decide +kernel

theorem unpack_ofInt_zero : (ofInt 0).toModel.unpack = .zero .positive := by
  rw [ofInt_zero]
  exact unpack_packedZero

theorem signOfInt_mul (zi : i ≠ 0) (zj : j ≠ 0) :
    signOfInt i * signOfInt j = signOfInt (nearest i * nearest j) := by
  have positive : ∀ k : Int, 0 < k → 0 < nearest k := by
    intro k above
    have := (nearest_neg_iff (i := -k)).2 (by omega)
    rw [nearest_neg] at this
    omega
  unfold signOfInt
  rcases Int.lt_or_lt_of_ne zi with ni | pi <;> rcases Int.lt_or_lt_of_ne zj with nj | pj
  · rw [if_pos ni, if_pos nj, if_neg]
    · rfl
    · have less := nearest_neg_iff.2 nj
      exact Int.not_lt.2 (Int.mul_pos_of_neg_of_neg (nearest_neg_iff.2 ni) less).le
  · rw [if_pos ni, if_neg (by omega), if_pos]
    · rfl
    · exact Int.mul_neg_of_neg_of_pos (nearest_neg_iff.2 ni) (positive j pj)
  · rw [if_neg (by omega), if_pos nj, if_pos]
    · rfl
    · exact Int.mul_neg_of_pos_of_neg (positive i pi) (nearest_neg_iff.2 nj)
  · rw [if_neg (by omega), if_neg (by omega), if_neg]
    · rfl
    · exact Int.not_lt.2 (Int.mul_pos (positive i pi) (positive j pj)).le

section Operations

variable (mi : Moderate i) (mj : Moderate j)
include mi mj

/-- The sum of two integers as numbers is the number of the sum that they have when rounded. -/
theorem ofInt_add (sum : Moderate (nearest i + nearest j)) :
    ofInt i + ofInt j = ofInt (nearest i + nearest j) := by
  change Float.ofModel (.pack (UnpackedFloat.add .binary64 (ofInt i).toModel.unpack
    (ofInt j).toModel.unpack)) = _
  by_cases zi : i = 0
  · have rest : UnpackedFloat.add .binary64 (ofInt i).toModel.unpack (ofInt j).toModel.unpack =
        (ofInt j).toModel.unpack := by
      by_cases zj : j = 0
      · rw [zi, zj, unpack_ofInt_zero]
        rfl
      · obtain ⟨m, e, pos, unpacked, -⟩ := unpack_ofInt mj zj
        rw [zi, unpack_ofInt_zero, unpacked]
        rfl
    rw [rest, pack_toModel_unpack, zi, nearest_zero, Int.zero_add, ofInt_nearest mj]
  · obtain ⟨m, e, pos, unpacked, -, -, value⟩ := unpack_ofInt mi zi
    by_cases zj : j = 0
    · have rest : UnpackedFloat.add .binary64 (ofInt i).toModel.unpack (ofInt j).toModel.unpack =
          (ofInt i).toModel.unpack := by
        rw [zj, unpack_ofInt_zero, unpacked]
        rfl
      rw [rest, pack_toModel_unpack, zj, nearest_zero, Int.add_zero, ofInt_nearest mi]
    · obtain ⟨m', e', pos', unpacked', -, -, value'⟩ := unpack_ofInt mj zj
      rw [unpacked, unpacked']
      refine pack_normalize ?_ sum
      exact (value.aligned (Int.min_le_left e e')).add (value'.aligned (Int.min_le_right e e'))

/-- The difference of two integers as numbers is the number of the difference that they have when
    rounded. -/
theorem ofInt_sub (difference : Moderate (nearest i - nearest j)) :
    ofInt i - ofInt j = ofInt (nearest i - nearest j) := by
  change Float.ofModel (.pack (UnpackedFloat.sub .binary64 (ofInt i).toModel.unpack
    (ofInt j).toModel.unpack)) = _
  by_cases zj : j = 0
  · have rest : UnpackedFloat.sub .binary64 (ofInt i).toModel.unpack (ofInt j).toModel.unpack =
        (ofInt i).toModel.unpack := by
      by_cases zi : i = 0
      · rw [zi, zj, unpack_ofInt_zero]
        rfl
      · obtain ⟨m, e, pos, unpacked, -⟩ := unpack_ofInt mi zi
        rw [zj, unpack_ofInt_zero, unpacked]
        rfl
    rw [rest, pack_toModel_unpack, zj, nearest_zero, Int.sub_zero, ofInt_nearest mi]
  · obtain ⟨m', e', pos', unpacked', -, holds', value'⟩ := unpack_ofInt mj zj
    by_cases zi : i = 0
    · -- Only the sign is turned.
      have moderate : Moderate (-j) := by rwa [Moderate, Int.natAbs_neg]
      have opposite : -signOfInt j = signOfInt (-j) := by
        unfold signOfInt
        split
        · rw [if_neg (by omega)]
          rfl
        · rw [if_pos (by omega)]
          rfl
      have place :
          rank (.ofModel (.pack (.finite (-signOfInt j) m' e' pos'))) = rank (ofInt (-j)) := by
        rw [(holds' _).rank_pack mj, rank_ofInt_eq_apply moderate, opposite, Int.natAbs_neg]
      rw [zi, unpack_ofInt_zero, unpacked', nearest_zero, Int.zero_sub, ← nearest_neg,
        ofInt_nearest moderate]
      exact eq_of_rank_eq place (place ▸ rank_ofInt_ne_zero (by omega))
    · obtain ⟨m, e, pos, unpacked, -, -, value⟩ := unpack_ofInt mi zi
      rw [unpacked, unpacked']
      refine pack_normalize ?_ difference
      exact (value.aligned (Int.min_le_left e e')).sub (value'.aligned (Int.min_le_right e e'))

/-- The product of two integers as numbers is in the place of the product that they have when
    rounded; it may be the negative zero. -/
theorem rank_ofInt_mul (product : Moderate (nearest i * nearest j)) :
    rank (ofInt i * ofInt j) = rank (ofInt (nearest i * nearest j)) := by
  change rank (.ofModel (.pack (UnpackedFloat.mul .binary64 (ofInt i).toModel.unpack
    (ofInt j).toModel.unpack))) = _
  have none (s : Sign) : rank (.ofModel (.pack (.zero s))) = rank (ofInt 0) := by
    cases s <;> decide +kernel
  by_cases zi : i = 0
  · have zero : ∃ s, UnpackedFloat.mul .binary64 (ofInt i).toModel.unpack (ofInt j).toModel.unpack =
        .zero s := by
      by_cases zj : j = 0
      · exact ⟨_, by rw [zi, zj, unpack_ofInt_zero]; rfl⟩
      · obtain ⟨m, e, pos, unpacked, -⟩ := unpack_ofInt mj zj
        exact ⟨_, by rw [zi, unpack_ofInt_zero, unpacked]; rfl⟩
    obtain ⟨s, zero⟩ := zero
    rw [zero, none, zi, nearest_zero, Int.zero_mul]
  obtain ⟨m, e, pos, unpacked, least, -, value⟩ := unpack_ofInt mi zi
  by_cases zj : j = 0
  · have zero : UnpackedFloat.mul .binary64 (ofInt i).toModel.unpack (ofInt j).toModel.unpack =
        .zero (signOfInt i * .positive) := by
      rw [zj, unpack_ofInt_zero, unpacked]
      rfl
    rw [zero, none, zj, nearest_zero, Int.mul_zero]
  obtain ⟨m', e', pos', unpacked', least', -, value'⟩ := unpack_ofInt mj zj
  have nonzero : m * m' ≠ 0 := Nat.mul_ne_zero (by omega) (by omega)
  have value := value.mul value'
  rw [← Int.natAbs_mul] at value
  have long : 52 ≤ (m * m').log2 := by
    refine (Nat.le_log2 nonzero).2 (Nat.le_trans least ?_)
    exact Nat.le_mul_of_pos_right m (by omega)
  have place := value.log2 nonzero
  have rounded : Holds (roundWithAccuracy .binary64 (signOfInt i * signOfInt j) (m * m') (e + e')
      .exact) (signOfInt i * signOfInt j) _ := holds_roundWithAccuracy value nonzero (by omega)
  rw [unpacked, unpacked', rank_ofInt_eq_apply product]
  refine (rounded.rank_pack product).trans ?_
  congr 1
  exact signOfInt_mul zi zj

end Operations

/-! ### Cutting off -/

theorem truncate_eq_of_rank_eq {f g : Float} (same : rank f = rank g) :
    truncate f = truncate g := by
  by_cases zero : rank f = 0
  · have none : truncate (signed false 0) = 0 ∧ truncate (signed true 0) = 0 := by decide +kernel
    rcases eq_zero_of_rank_eq_zero zero with rfl | rfl <;>
      rcases eq_zero_of_rank_eq_zero (same.symm.trans zero) with rfl | rfl <;> simp [none]
  · rw [eq_of_rank_eq same zero]

/-- The exact value of an integer as a number has the digits that its bits stand for. -/
theorem ofFloat?_ofInt (moderate : Moderate i) (nonzero : i ≠ 0) :
    Dyadic.ofFloat? (ofInt i) = some ⟨decide (i < 0), intBits i.natAbs % 2 ^ 52 + 2 ^ 52,
      (intBits i.natAbs / 2 ^ 52 : Nat) - 1075⟩ := by
  have below := intBits_lt moderate
  have top : infinityBits = 2047 * 2 ^ 52 := rfl
  have first : intBits i.natAbs = (i.natAbs.log2 + 1022) * 2 ^ 52 + leading i.natAbs :=
    if_neg (by omega)
  have low := (leading_bounds (n := i.natAbs) (by omega)).1
  have bits : (ofInt i).toBits.toNat = intBits i.natAbs + if i < 0 then 2 ^ 63 else 0 := by
    rw [ofInt, ofRatio_one, Nat.min_eq_left below.le, (toBits_signed below.le).1]
    simp only [decide_eq_true_eq]
  have sign : ((ofInt i).toBits.toNat / Nat.pow 2 63 == 1) = decide (i < 0) := by
    rw [bits, Nat.pow_eq, Bool.eq_iff_iff, beq_iff_eq, decide_eq_true_iff]
    split <;> omega
  have exponent : (ofInt i).toBits.toNat / Nat.pow 2 52 % Nat.pow 2 11 =
      intBits i.natAbs / 2 ^ 52 := by
    rw [bits, Nat.pow_eq, Nat.pow_eq]
    split <;> omega
  have fraction : (ofInt i).toBits.toNat % Nat.pow 2 52 = intBits i.natAbs % 2 ^ 52 := by
    rw [bits, Nat.pow_eq]
    split <;> omega
  unfold Dyadic.ofFloat?
  dsimp only
  rw [sign, exponent, fraction, if_neg (by omega), if_neg (by omega), Nat.pow_eq]

/-- Nothing is cut off from an integer as a number. -/
theorem truncate_ofInt (moderate : Moderate i) : truncate (ofInt i) = clamp (nearest i) := by
  by_cases zero : i = 0
  · subst zero
    decide +kernel
  have first : intBits i.natAbs = (i.natAbs.log2 + 1022) * 2 ^ 52 + leading i.natAbs :=
    if_neg (by omega)
  have low := (leading_bounds (n := i.natAbs) (by omega)).1
  have value : Amounts (intBits i.natAbs % 2 ^ 52 + 2 ^ 52)
      ((intBits i.natAbs / 2 ^ 52 : Nat) - 1075) (nearestNat i.natAbs) :=
    amounts_of_bits (by omega) (by omega) (by omega) (by omega)
  unfold truncate
  rw [ofFloat?_ofInt moderate zero]
  dsimp only [Dyadic.floorAbs, power, Nat.pow_eq]
  rw [value, Nat.mul_div_cancel _ (Nat.pow_pos (by decide)), nearest]
  simp only [decide_eq_true_eq]

end Cartograph.Decimal

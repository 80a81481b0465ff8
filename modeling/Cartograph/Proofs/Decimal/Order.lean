import Mathlib
import Cartograph.Decimal.Dyadic

/-!
# The order of numbers

Double-precision numbers lie on a line in the order of the bits of their magnitude, with the sign in
front (`rank`): a number is less than another exactly if it comes before it (`lt_iff_rank`), and
apart from the two zeros, which share a place, each place has one number (`eq_of_rank_eq`). What is
not a number has no place.
-/

namespace Cartograph.Decimal

open Float.Model UnpackedFloat

/-! ### Unpacked numbers -/

/-- The sign of an unpacked number. -/
def signOf : UnpackedFloat → Sign
  | .infinity s => s
  | .notANumber => .positive
  | .zero s => s
  | .finite s _ _ _ => s

/-- The bits of the magnitude of an unpacked number: the exponent, counted from the least one there
    is, before the mantissa, whose leading bit carries into it. -/
def sizeOf : UnpackedFloat → Int
  | .infinity _ => 2047 * 2 ^ 52
  | .notANumber => 0
  | .zero _ => 0
  | .finite _ m e _ => (e + 1074) * 2 ^ 52 + m

/-- An unpacked number that double precision has. -/
def Fits : UnpackedFloat → Prop
  | .finite _ m e _ => m < 2 ^ 53 ∧ -1074 ≤ e ∧ (2 ^ 52 ≤ m ∨ e = -1074) ∧
    (e + 1074) * 2 ^ 52 + m < 2047 * 2 ^ 52
  | .notANumber => False
  | _ => True

/-- Of two exponents and mantissas, the bits are in the order of the exponents first. -/
theorem lex_iff {m m' : Nat} {e e' : Int} (short : m < 2 ^ 53) (least : -1074 ≤ e)
    (full : 2 ^ 52 ≤ m ∨ e = -1074) (short' : m' < 2 ^ 53) (least' : -1074 ≤ e')
    (full' : 2 ^ 52 ≤ m' ∨ e' = -1074) :
    (compare e e').then (compare m m') = .lt ↔
      (e + 1074) * 2 ^ 52 + m < (e' + 1074) * 2 ^ 52 + m' := by
  rw [Ordering.then_eq_lt, Int.compare_eq_lt, Int.compare_eq_eq, Nat.compare_eq_lt]
  omega

variable {u v : UnpackedFloat}

/-- Unpacked numbers are compared like their bits. -/
theorem compare_eq_lt_iff (hu : Fits u) (hv : Fits v) :
    u.compare v = some .lt ↔ (signOf u).apply (sizeOf u) < (signOf v).apply (sizeOf v) := by
  cases u with
  | notANumber => exact hu.elim
  | infinity s =>
    cases v with
    | notANumber => exact hv.elim
    | infinity s' => cases s <;> cases s' <;> decide
    | zero s' => cases s <;> cases s' <;> decide
    | finite s' m' e' pos' =>
      obtain ⟨-, least, -, below⟩ := hv
      cases s <;> cases s' <;> simp [UnpackedFloat.compare, signOf, sizeOf, Sign.apply] <;> omega
  | zero s =>
    cases v with
    | notANumber => exact hv.elim
    | infinity s' => cases s <;> cases s' <;> decide
    | zero s' => cases s <;> cases s' <;> decide
    | finite s' m' e' pos' =>
      obtain ⟨-, least, -, -⟩ := hv
      cases s <;> cases s' <;> simp [UnpackedFloat.compare, signOf, sizeOf, Sign.apply] <;> omega
  | finite s m e pos =>
    obtain ⟨short, least, full, below⟩ := hu
    cases v with
    | notANumber => exact hv.elim
    | infinity s' =>
      cases s <;> cases s' <;> simp [UnpackedFloat.compare, signOf, sizeOf, Sign.apply] <;> omega
    | zero s' =>
      cases s <;> cases s' <;> simp [UnpackedFloat.compare, signOf, sizeOf, Sign.apply] <;> omega
    | finite s' m' e' pos' =>
      obtain ⟨short', least', full', below'⟩ := hv
      cases s <;> cases s'
      -- With one sign the exponents decide before the mantissas, for negative numbers the other
      -- way round; with two signs nothing but these counts.
      · simp only [UnpackedFloat.compare, signOf, sizeOf, Sign.apply, Option.some.injEq,
          Ordering.swap_then, Int.compare_swap, Nat.compare_swap, Int.neg_lt_neg_iff]
        exact lex_iff short' least' full' short least full
      · simp [UnpackedFloat.compare, signOf, sizeOf, Sign.apply]; omega
      · simp [UnpackedFloat.compare, signOf, sizeOf, Sign.apply]; omega
      · simpa [UnpackedFloat.compare, signOf, sizeOf, Sign.apply]
          using lex_iff short least full short' least' full'

/-! ### Bits -/

variable (b : BitVec Format.binary64.numBits)

theorem toNat_unpackMantissa : (unpackMantissa b).toNat = b.toNat % 2 ^ 52 := by
  simp [unpackMantissa]

theorem toNat_unpackExponent : (unpackExponent b).toNat = b.toNat / 2 ^ 52 % 2 ^ 11 := by
  simp [unpackExponent, Nat.shiftRight_eq_div_pow]

theorem toNat_unpackSign : (unpackSign b).toNat = b.toNat / 2 ^ 63 := by
  have := b.isLt
  have : b.toNat < 2 ^ 64 := this
  simp [unpackSign, Nat.shiftRight_eq_div_pow]
  omega

/-- An unpacked number is the one with some sign, exponent and mantissa. -/
structure Stands (u : UnpackedFloat) (s : Sign) (e : BitVec 11) (m : BitVec 52) : Prop where
  fits : Fits u
  sign : signOf u = s
  size : sizeOf u = (e.toNat * 2 ^ 52 + m.toNat : Nat)

/-- A number below the least one whose mantissa has its leading bit. -/
theorem stands_small (s : Sign) {m : BitVec 52} (pos : 0 < m.toNat) :
    Stands (.finite s m.toNat (-1074) pos) s 0#11 m := by
  have short := m.isLt
  exact ⟨⟨by omega, by omega, .inr rfl, by omega⟩, rfl, by simp [sizeOf]⟩

/-- A number whose mantissa has its leading bit, which is not stored. -/
theorem stands_full (s : Sign) {e : BitVec 11} {m : BitVec 52} (pos : 0 < (1#1 ++ m).toNat)
    (low : 0 < e.toNat) (high : e.toNat < 2047) :
    Stands (.finite s (1#1 ++ m).toNat (e.toNat - 1075) pos) s e m := by
  have short := m.isLt
  have value : (1#1 ++ m).toNat = 2 ^ 52 + m.toNat := by
    rw [BitVec.toNat_append, ← Nat.shiftLeft_add_eq_or_of_lt short, Nat.shiftLeft_eq]
    rfl
  refine ⟨⟨by omega, by omega, .inl (by omega), by omega⟩, rfl, ?_⟩
  simp only [sizeOf]
  omega

/-- What is not a number apart, unpacked bits stand for their sign, exponent and mantissa. -/
theorem stands_unpack (number : (UnpackedFloat.unpack Format.binary64 b).isNaN = false) :
    Stands (UnpackedFloat.unpack Format.binary64 b) (.ofBitVec (unpackSign b)) (unpackExponent b)
      (unpackMantissa b) := by
  revert number
  unfold UnpackedFloat.unpack
  dsimp only
  split
  case isTrue top =>
    rw [top]
    split
    case isTrue zero =>
      rw [zero]
      exact fun _ => ⟨trivial, rfl, rfl⟩
    case isFalse => exact fun h => absurd h (by simp [UnpackedFloat.isNaN])
  case isFalse top =>
    split
    case isTrue bottom =>
      rw [bottom]
      split
      case isTrue zero =>
        rw [zero]
        exact fun _ => ⟨trivial, rfl, rfl⟩
      case isFalse nonzero => exact fun _ => stands_small _ _
    case isFalse bottom =>
      refine fun _ => stands_full _ _ (Nat.pos_of_ne_zero fun h => bottom ?_) ?_
      · exact BitVec.eq_of_toNat_eq h
      · have : (unpackExponent b).toNat < 2048 := (unpackExponent b).isLt
        have : (unpackExponent b).toNat ≠ 2047 := fun h => top (BitVec.eq_of_toNat_eq h)
        omega

/-! ### Places -/

/-- The place of a number: its bits without the sign, which come after zero or before it. -/
def rank (f : Float) : Int :=
  let bits := f.toBits.toNat
  if bits < 2 ^ 63 then bits else 2 ^ 63 - bits

variable {f g : Float}

theorem apply_ofBitVec (s : BitVec 1) (i : Int) :
    (Sign.ofBitVec s).apply i = if s.toNat = 0 then i else -i := by
  rcases BitVec.eq_zero_or_eq_one s with rfl | rfl
  · rfl
  · rfl

theorem rank_eq (number : f.isNaN = false) :
    Fits f.toModel.unpack ∧ rank f = (signOf f.toModel.unpack).apply (sizeOf f.toModel.unpack) := by
  have stands := stands_unpack f.toBits.toBitVec number
  have sign : signOf f.toModel.unpack = _ := stands.sign
  have size : sizeOf f.toModel.unpack = _ := stands.size
  have bound : f.toBits.toBitVec.toNat < 2 ^ 64 := f.toBits.toBitVec.isLt
  have bits : f.toBits.toNat = f.toBits.toBitVec.toNat := rfl
  refine ⟨stands.fits, ?_⟩
  rw [sign, size, apply_ofBitVec, toNat_unpackSign, toNat_unpackMantissa, toNat_unpackExponent,
    rank, bits]
  split <;> split <;> omega

theorem lt_iff_compare : f < g ↔ f.toModel.unpack.compare g.toModel.unpack = some .lt := by
  change decide (_ = true) = true ↔ _
  rw [decide_eq_true_iff]
  exact beq_iff_eq

/-- A number is less than another if it comes before it. -/
theorem lt_iff_rank (hf : f.isNaN = false) (hg : g.isNaN = false) : f < g ↔ rank f < rank g := by
  obtain ⟨fits, place⟩ := rank_eq hf
  obtain ⟨fits', place'⟩ := rank_eq hg
  rw [place, place', ← compare_eq_lt_iff fits fits', lt_iff_compare]

/-- What is not a number is neither less nor greater. -/
theorem isNaN_of_lt (lt : f < g) : f.isNaN = false ∧ g.isNaN = false := by
  rw [lt_iff_compare] at lt
  change f.toModel.unpack.isNaN = false ∧ g.toModel.unpack.isNaN = false
  generalize f.toModel.unpack = u at lt
  generalize g.toModel.unpack = v at lt
  cases u with
  | notANumber => cases lt
  | infinity | zero | finite =>
    refine ⟨rfl, ?_⟩
    cases v with
    | notANumber => cases lt
    | infinity | zero | finite => rfl

/-- Two numbers with one place are the same, unless they are the two zeros. -/
theorem eq_of_rank_eq (same : rank f = rank g) (nonzero : rank f ≠ 0) : f = g := by
  refine Float.toBits_inj.1 (UInt64.toNat_inj.1 ?_)
  revert same nonzero
  unfold rank
  dsimp only
  split <;> split <;> omega

/-- A number in the place of zero is one of the two zeros. -/
theorem eq_zero_of_rank_eq_zero (zero : rank f = 0) : f = signed false 0 ∨ f = signed true 0 := by
  have plus : (signed false 0).toBits.toNat = 0 := by decide +kernel
  have minus : (signed true 0).toBits.toNat = 2 ^ 63 := by decide +kernel
  have : f.toBits.toNat = 0 ∨ f.toBits.toNat = 2 ^ 63 := by
    revert zero
    unfold rank
    dsimp only
    split <;> omega
  exact this.imp (fun h => Float.toBits_inj.1 (UInt64.toNat_inj.1 (h.trans plus.symm)))
    fun h => Float.toBits_inj.1 (UInt64.toNat_inj.1 (h.trans minus.symm))

/-! ### Rounded integers -/

variable {n : Nat} {negative : Bool}

/-- The bits of a sign and a magnitude are kept: they are not those of what is no number, which are
    not all told apart. -/
theorem toBits_signed (h : n ≤ infinityBits) :
    (signed negative n).toBits.toNat = n + (if negative then 2 ^ 63 else 0) ∧
      (signed negative n).isNaN = false := by
  have small : infinityBits = 2047 * 2 ^ 52 := rfl
  let w : BitVec Format.binary64.numBits :=
    (UInt64.ofNat (n + if negative then Nat.pow 2 63 else 0)).toBitVec
  have value : w.toNat = n + (if negative then 2 ^ 63 else 0) := by
    refine (UInt64.toNat_ofNat').trans (Nat.mod_eq_of_lt ?_)
    split
    · rw [Nat.pow_eq]
      omega
    · omega
  have number : ¬isNaNBits w := by
    intro nan
    obtain ⟨top, nonzero⟩ := of_decide_eq_true nan
    have e := congrArg BitVec.toNat top
    have greatest : (-1#11).toNat = 2047 := rfl
    rw [toNat_unpackExponent, value, greatest] at e
    refine nonzero (BitVec.eq_of_toNat_eq ?_)
    rw [toNat_unpackMantissa, value]
    change _ = 0
    split at e <;> split <;> omega
  have same : (signed negative n).toBits.toBitVec = w :=
    (pack_unpack w).trans (if_neg number)
  constructor
  · exact (congrArg BitVec.toNat same).trans value
  · rw [Bool.eq_false_iff]
    intro nan
    have := (isNaN_unpack_iff_of_valid (signed negative n).toModel.valid).1 nan
    exact number ((same.symm.trans this) ▸ isNaNBits_packedNaN)

theorem rank_signed (h : n ≤ infinityBits) :
    rank (signed negative n) = if negative then -(n : Int) else n := by
  have small : infinityBits < 2 ^ 63 := by decide
  rw [rank, (toBits_signed h).1]
  cases negative with
  | false =>
    simp only [Bool.false_eq_true, if_false, Nat.add_zero]
    rw [if_pos (by omega)]
  | true =>
    simp only [if_true]
    rw [if_neg (by omega)]
    omega

/-- Rounding keeps the order. -/
theorem roundDiv_mono {a c d : Nat} (le : a ≤ c) : roundDiv a d ≤ roundDiv c d := by
  have ha := Nat.div_add_mod a d
  have hc := Nat.div_add_mod c d
  have quotients := Nat.div_le_div_right (c := d) le
  unfold roundDiv
  dsimp only
  rcases Nat.lt_or_eq_of_le quotients with less | same
  · split_ifs <;> omega
  · rw [same] at ha ⊢
    split_ifs <;> omega

theorem roundDiv_mul {a d : Nat} (pos : 0 < d) : roundDiv (a * d) d = a := by
  simp [roundDiv, Nat.mul_div_cancel _ pos, pos]

/-- An integer with 53 binary digits, of which the last may be rounded. -/
def leading (n : Nat) : Nat := roundDiv (n * 2 ^ (52 - n.log2)) (2 ^ (n.log2 - 52))

/-- The bits of an integer, as far as they go. -/
def intBits (n : Nat) : Nat := if n = 0 then 0 else (n.log2 + 1022) * 2 ^ 52 + leading n

theorem scaled_bounds (pos : n ≠ 0) :
    2 ^ 52 * 2 ^ (n.log2 - 52) ≤ n * 2 ^ (52 - n.log2) ∧
      n * 2 ^ (52 - n.log2) ≤ 2 ^ 53 * 2 ^ (n.log2 - 52) := by
  have lower : 52 + (n.log2 - 52) = n.log2 + (52 - n.log2) := by omega
  have upper : 53 + (n.log2 - 52) = n.log2 + 1 + (52 - n.log2) := by omega
  rw [← Nat.pow_add, ← Nat.pow_add, lower, upper, Nat.pow_add, Nat.pow_add 2 (n.log2 + 1)]
  exact ⟨Nat.mul_le_mul_right _ (Nat.log2_self_le pos),
    Nat.mul_le_mul_right _ (Nat.le_of_lt Nat.lt_log2_self)⟩

theorem leading_bounds (pos : n ≠ 0) : 2 ^ 52 ≤ leading n ∧ leading n ≤ 2 ^ 53 := by
  obtain ⟨low, high⟩ := scaled_bounds pos
  have unit : 0 < 2 ^ (n.log2 - 52) := Nat.pow_pos (by decide)
  constructor
  · rw [← roundDiv_mul (a := 2 ^ 52) unit]
    exact roundDiv_mono low
  · rw [← roundDiv_mul (a := 2 ^ 53) unit]
    exact roundDiv_mono high

/-- The bits of a greater integer are not less. -/
theorem intBits_mono {n m : Nat} (le : n ≤ m) : intBits n ≤ intBits m := by
  unfold intBits
  split
  case isTrue => exact Nat.zero_le _
  case isFalse pos =>
    have pos' : m ≠ 0 := by omega
    rw [if_neg pos']
    have bounds := leading_bounds pos
    have bounds' := leading_bounds pos'
    -- The leading digits may round up to the next power of two, but not past it.
    rcases Nat.lt_or_eq_of_le ((Nat.le_log2 pos').2 (Nat.le_trans (Nat.log2_self_le pos) le))
      with less | same
    · omega
    · have : leading n ≤ leading m := by
        unfold leading
        rw [same]
        exact roundDiv_mono (Nat.mul_le_mul_right _ le)
      omega

theorem scaleOf_one (pos : n ≠ 0) : scaleOf n 1 = n.log2 - 52 := by
  -- With the exponent that is tried first, 54 digits are left, which is one too many.
  have full : ¬n * 2 ^ (53 - n.log2) / 2 ^ (n.log2 - 53) < 2 ^ 53 := by
    have exponents : 53 + (n.log2 - 53) = n.log2 + (53 - n.log2) := by omega
    rw [Nat.div_lt_iff_lt_mul (Nat.pow_pos (by decide)), ← Nat.pow_add, exponents, Nat.pow_add]
    exact Nat.not_lt.2 (Nat.mul_le_mul_right _ (Nat.log2_self_le pos))
  have one : (1 : Nat).log2 = 0 := by decide
  have up : ((n.log2 : Int) - 0 - 53).toNat = n.log2 - 53 := by omega
  have down : (-((n.log2 : Int) - 0 - 53)).toNat = 53 - n.log2 := by omega
  unfold scaleOf power
  simp only [one, Int.ofNat_zero, up, down, Nat.one_mul, Nat.pow_eq, if_neg full]
  omega

/-- An integer has the bits of its leading digits, unless it is beyond the greatest number. -/
theorem ofRatio_one (n : Nat) :
    ofRatio negative n 1 = signed negative (min (intBits n) infinityBits) := by
  unfold ofRatio intBits
  split
  case isTrue => rfl
  case isFalse pos =>
    have up : ((n.log2 : Int) - 52).toNat = n.log2 - 52 := by omega
    have down : (-((n.log2 : Int) - 52)).toNat = 52 - n.log2 := by omega
    have biased : ((n.log2 : Int) - 52 + 1075).toNat = n.log2 + 1023 := by omega
    have low := (leading_bounds pos).1
    have digits : ¬leading n < 2 ^ 52 := Nat.not_lt.2 low
    have bits : (n.log2 + 1023) * 2 ^ 52 + (leading n - 2 ^ 52) =
        (n.log2 + 1022) * 2 ^ 52 + leading n := by omega
    unfold power
    simp only [scaleOf_one pos, up, down, biased, Nat.one_mul, Nat.pow_eq]
    rw [← leading, if_neg digits, bits]

/-- The place of an integer. -/
theorem rank_ofInt (i : Int) :
    rank (ofInt i) = if i < 0 then -((min (intBits i.natAbs) infinityBits : Nat) : Int)
      else (min (intBits i.natAbs) infinityBits : Nat) := by
  rw [ofInt, ofRatio_one, rank_signed (Nat.min_le_right ..)]
  simp only [decide_eq_true_eq]

theorem isNaN_ofInt (i : Int) : (ofInt i).isNaN = false := by
  rw [ofInt, ofRatio_one]
  exact (toBits_signed (Nat.min_le_right ..)).2

/-- The places of the integers are in their order. -/
theorem rank_ofInt_mono {i j : Int} (le : i ≤ j) : rank (ofInt i) ≤ rank (ofInt j) := by
  rw [rank_ofInt, rank_ofInt]
  split
  case isTrue below =>
    split
    case isTrue below' =>
      have := intBits_mono (n := j.natAbs) (m := i.natAbs) (by omega)
      omega
    case isFalse => omega
  case isFalse above =>
    have := intBits_mono (n := i.natAbs) (m := j.natAbs) (by omega)
    rw [if_neg (by omega)]
    omega

/-- Only zero is in the place of zero. -/
theorem rank_ofInt_ne_zero {i : Int} (nonzero : i ≠ 0) : rank (ofInt i) ≠ 0 := by
  have pos : i.natAbs ≠ 0 := by omega
  have digits := (leading_bounds pos).1
  have top : infinityBits = 2047 * 2 ^ 52 := rfl
  have bits : intBits i.natAbs = (i.natAbs.log2 + 1022) * 2 ^ 52 + leading i.natAbs := if_neg pos
  rw [rank_ofInt]
  split <;> omega

/-- No integer is the negative zero. -/
theorem ofInt_ne_negativeZero (i : Int) : ofInt i ≠ signed true 0 := by
  by_cases zero : i = 0
  · subst zero
    decide +kernel
  · intro same
    refine rank_ofInt_ne_zero zero ?_
    rw [same]
    exact rank_signed (Nat.zero_le _)

/-- Integers in one place are the same number. -/
theorem ofInt_eq_of_rank_eq {i j : Int} (same : rank (ofInt i) = rank (ofInt j)) :
    ofInt i = ofInt j := by
  by_cases zero : i = 0
  · by_cases zero' : j = 0
    · rw [zero, zero']
    · refine absurd (same.symm.trans ?_) (rank_ofInt_ne_zero zero')
      rw [zero]
      decide +kernel
  · exact eq_of_rank_eq same (rank_ofInt_ne_zero zero)

end Cartograph.Decimal

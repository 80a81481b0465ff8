import Cartograph.Decimal.Reader

/-!
# Digits and machine integers

The decimal digits of a natural number stand for it and have no needless zero. What a number is cut
off to, and what an integer is read as, fits into 64 bits (`IsWord`).
-/

namespace Cartograph.Decimal

/-! ### Digits -/

theorem digitsValue_toDigits (n : Nat) : digitsValue (Nat.toDigits 10 n) = n :=
  Nat.ofDigitChars_ten_toDigits

theorem isDigit_toDigits (n : Nat) : ∀ c ∈ Nat.toDigits 10 n, c.isDigit = true :=
  fun _ h => Nat.isDigit_of_mem_toDigits (by decide) (by decide) h

/-- The first digit of a number is no zero. -/
theorem head?_toDigits {n : Nat} (pos : 0 < n) : (Nat.toDigits 10 n).head? ≠ some '0' := by
  induction n using Nat.strongRecOn with
  | _ n ih =>
    by_cases small : n < 10
    · rw [Nat.toDigits_of_lt_base small]
      match n, small, pos with
      | 1, _, _ | 2, _, _ | 3, _, _ | 4, _, _ | 5, _, _ | 6, _, _ | 7, _, _ | 8, _, _ | 9, _, _ =>
        decide
    · rw [Nat.toDigits_of_base_le (by decide) (by omega), List.head?_append]
      cases first : (Nat.toDigits 10 (n / 10)).head? with
      | none => exact absurd (List.head?_eq_none_iff.1 first) Nat.toDigits_ne_nil
      | some c =>
        rw [Option.some_or, ← first]
        exact ih (n / 10) (by omega) (by omega)

/-- Only zero is written with a zero in front. -/
theorem no_needless_zero (n : Nat) :
    ¬((Nat.toDigits 10 n).head? = some '0' ∧ 1 < (Nat.toDigits 10 n).length) := by
  rintro ⟨zero, long⟩
  cases n with
  | zero => exact absurd long (by simp)
  | succ n => exact head?_toDigits (Nat.succ_pos n) zero

/-! ### Machine integers -/

/-- A signed integer of 64 bits. -/
def IsWord (i : Int) : Prop := minInt ≤ i ∧ i ≤ maxInt

instance (i : Int) : Decidable (IsWord i) := inferInstanceAs (Decidable (_ ∧ _))

theorem isWord_clamp (i : Int) : IsWord (clamp i) := by
  unfold IsWord clamp minInt maxInt
  omega

theorem isWord_truncate (f : Float) : IsWord (truncate f) := by
  unfold truncate
  split
  · exact isWord_clamp _
  · split
    · decide
    · split
      · decide
      · decide

theorem IsWord.negate {i : Int} (h : IsWord i) : IsWord (negate i) := by
  unfold IsWord minInt maxInt at *
  unfold Decimal.negate minInt
  split
  · omega
  · omega

theorem isWord_readInt? {s : String} {i : Int} (h : readInt? s = some i) : IsWord i := by
  unfold readInt? at h
  generalize readSign s.toList = sign at h
  obtain ⟨n, -, h⟩ := Option.bind_eq_some_iff.1 h
  dsimp only at h
  generalize (if sign.1 = true then -(n : Int) else n) = j at h
  split at h
  · next fits =>
    cases h
    exact fits
  · exact absurd h (by simp)

theorem isWord_ofSize (n : Nat) : IsWord (ofSize n) := by
  unfold ofSize
  have low := @Int.le_bmod n (Nat.pow 2 64) (by decide)
  have high := @Int.bmod_lt n (Nat.pow 2 64) (by decide)
  have word : ((Nat.pow 2 64 : Nat) : Int) = 18446744073709551616 := by decide
  unfold IsWord minInt maxInt
  omega

end Cartograph.Decimal

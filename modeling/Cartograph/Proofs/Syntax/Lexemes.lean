import Mathlib
import Cartograph.Expression.Lexer

/-!
# Names, numbers and marks

How much of a text a name, number or mark takes up hangs on the text up to the next character that
none of them goes on with: a blank, a brace that closes, or what a comment begins with (`Apart`,
`lexeme?_append`).
-/

namespace Cartograph.Expression

variable {s t : List Char} {c : Char} {n : Nat} {tok : Token}

/-- A character that no token before it goes on with. -/
def Separates (c : Char) : Prop := c = '\x7d' ∨ c = '#' ∨ c = '/' ∨ c = ' '

instance (c : Char) : Decidable (Separates c) := inferInstanceAs (Decidable (_ ∨ _))

/-- A text that no token before it goes on with. -/
def Apart (s : List Char) : Prop := ∀ c ∈ s.head?, Separates c

theorem apart_nil : Apart [] := by simp [Apart]

theorem takeWhile_append_apart {test : Char → Bool} (s : List Char)
    (stop : ∀ c ∈ t.head?, test c = false) : (s ++ t).takeWhile test = s.takeWhile test := by
  induction s with
  | nil =>
    cases t with
    | nil => rfl
    | cons c t => exact List.takeWhile_cons_of_neg (by simp [stop c rfl])
  | cons c s ih => rw [List.cons_append, List.takeWhile_cons, List.takeWhile_cons, ih]

/-- What sets tokens apart is of no kind that tokens go on with. -/
theorem Apart.stop {test : Char → Bool} (h : Apart t) (brace : test '\x7d' = false)
    (hash : test '#' = false) (slash : test '/' = false) (blank : test ' ' = false) :
    ∀ c ∈ t.head?, test c = false := by
  intro c first
  rcases h c first with rfl | rfl | rfl | rfl
  · exact brace
  · exact hash
  · exact slash
  · exact blank

theorem Apart.isDigit (h : Apart t) : ∀ c ∈ t.head?, c.isDigit = false :=
  h.stop (by decide) (by decide) (by decide) (by decide)

theorem Apart.isNamePart (h : Apart t) : ∀ c ∈ t.head?, isNamePart c = false :=
  h.stop (by decide) (by decide) (by decide) (by decide)

/-! ### Numbers -/

theorem takeWhile_length_le (test : Char → Bool) (s : List Char) :
    (s.takeWhile test).length ≤ s.length := (List.takeWhile_sublist test).length_le

theorem fractionLength_of_ne (h : s.head? ≠ some '.') : fractionLength s = 0 := by
  unfold fractionLength
  split
  · exact absurd rfl h
  · rfl

theorem fractionLength_append (h : Apart t) (s : List Char) :
    fractionLength (s ++ t) = fractionLength s := by
  cases s with
  | nil =>
    rw [List.nil_append, fractionLength_of_ne fun point => absurd (h '.' point) (by decide)]
    rfl
  | cons c s =>
    by_cases point : c = '.'
    · subst point
      rw [List.cons_append, fractionLength, fractionLength, takeWhile_append_apart s h.isDigit]
    · have other (s : List Char) : (c :: s).head? ≠ some '.' :=
        fun same => point (Option.some.inj same)
      rw [List.cons_append, fractionLength_of_ne (other _), fractionLength_of_ne (other _)]

theorem fractionLength_le (s : List Char) : fractionLength s ≤ s.length := by
  unfold fractionLength
  split
  · next rest =>
    have digits := takeWhile_length_le Char.isDigit rest
    split
    · exact Nat.zero_le _
    · exact Nat.succ_le_succ digits
  · exact Nat.zero_le _

/-- The sign of an exponent, and what is behind it. -/
def signed : List Char → Nat × List Char
  | '+' :: more => (1, more)
  | '-' :: more => (1, more)
  | more => (0, more)

theorem signed_append (h : Apart t) (s : List Char) :
    signed (s ++ t) = ((signed s).1, (signed s).2 ++ t) := by
  cases s with
  | nil =>
    rw [List.nil_append]
    unfold signed
    split
    · exact absurd (h '+' rfl) (by decide)
    · exact absurd (h '-' rfl) (by decide)
    · rfl
  | cons c s =>
    by_cases plus : c = '+'
    · rw [plus]
      rfl
    by_cases minus : c = '-'
    · rw [minus]
      rfl
    have none (s : List Char) : signed (c :: s) = (0, c :: s) := by
      unfold signed
      split
      · next same => exact absurd (List.cons.inj same).1 plus
      · next same => exact absurd (List.cons.inj same).1 minus
      · rfl
    rw [List.cons_append, none, none]
    rfl

theorem signed_length (s : List Char) : (signed s).1 + (signed s).2.length = s.length := by
  unfold signed
  split
  · exact Nat.add_comm ..
  · exact Nat.add_comm ..
  · exact Nat.zero_add _

theorem exponentLength_cons (c : Char) (s : List Char) : exponentLength (c :: s) =
    if c = 'e' ∨ c = 'E' then
      match (signed s).2.takeWhile Char.isDigit with
      | [] => 0
      | ds => ds.length + (signed s).1 + 1
    else 0 := rfl

theorem exponentLength_append (h : Apart t) (s : List Char) :
    exponentLength (s ++ t) = exponentLength s := by
  cases s with
  | nil =>
    cases t with
    | nil => rfl
    | cons c t =>
      rw [List.nil_append, exponentLength_cons, if_neg]
      · rfl
      · rintro (rfl | rfl)
        · exact absurd (h 'e' rfl) (by decide)
        · exact absurd (h 'E' rfl) (by decide)
  | cons c s =>
    rw [List.cons_append, exponentLength_cons, exponentLength_cons, signed_append h,
      takeWhile_append_apart _ h.isDigit]

theorem exponentLength_le (s : List Char) : exponentLength s ≤ s.length := by
  cases s with
  | nil => exact Nat.le_refl 0
  | cons c s =>
    have digits := takeWhile_length_le Char.isDigit (signed s).2
    have whole := signed_length s
    rw [exponentLength_cons]
    split
    · split
      · exact Nat.zero_le _
      · exact Nat.succ_le_succ (by omega)
    · exact Nat.zero_le _

theorem numberLength_le (s : List Char) : numberLength s ≤ s.length := by
  have whole := takeWhile_length_le Char.isDigit s
  have fraction := fractionLength_le (s.drop (s.takeWhile Char.isDigit).length)
  unfold numberLength
  dsimp only
  have exponent := exponentLength_le (s.drop ((s.takeWhile Char.isDigit).length +
    fractionLength (s.drop (s.takeWhile Char.isDigit).length)))
  rw [List.length_drop] at fraction exponent
  omega

theorem numberLength_append (h : Apart t) (s : List Char) :
    numberLength (s ++ t) = numberLength s := by
  have whole := takeWhile_length_le Char.isDigit s
  have fraction := fractionLength_le (s.drop (s.takeWhile Char.isDigit).length)
  rw [List.length_drop] at fraction
  unfold numberLength
  dsimp only
  rw [takeWhile_append_apart s h.isDigit, List.drop_append_of_le_length whole,
    fractionLength_append h, List.drop_append_of_le_length (by omega), exponentLength_append h]

/-! ### Marks -/

theorem isPrefixOf_append_apart {m : List Char} (h : Apart t) (s : List Char)
    (inner : ∀ c ∈ m, ¬Separates c) :
    m.isPrefixOf (s ++ t) = m.isPrefixOf s := by
  induction m generalizing s with
  | nil => rfl
  | cons a m ih =>
    obtain ⟨first, others⟩ := List.forall_mem_cons.1 inner
    cases s with
    | nil =>
      cases t with
      | nil => rfl
      | cons c t =>
        have other : a ≠ c := by
          rintro rfl
          exact first (h a rfl)
        simp [List.isPrefixOf, other]
    | cons b s =>
      rw [List.cons_append, List.isPrefixOf_cons_cons, List.isPrefixOf_cons_cons, ih s others]

/-- Only the first character of a mark may set tokens apart. -/
theorem tail_text (m : Mark) : ∀ c ∈ m.text.toList.tail, ¬Separates c := by
  cases m <;> simp [Mark.text, Separates]

theorem mark?_append (h : Apart t) (some : s ≠ []) : mark? (s ++ t) = mark? s := by
  obtain ⟨c, s, rfl⟩ := List.exists_cons_of_ne_nil some
  have same (m : Mark) : m.text.toList.isPrefixOf (c :: s ++ t) =
      m.text.toList.isPrefixOf (c :: s) := by
    have inner := tail_text m
    generalize m.text.toList = text at inner
    cases text with
    | nil => rfl
    | cons a text =>
      rw [List.tail_cons] at inner
      rw [List.cons_append, List.isPrefixOf_cons_cons, List.isPrefixOf_cons_cons,
        isPrefixOf_append_apart h s inner]
  exact congrArg (Mark.all.find? ·) (funext same)

/-! ### Tokens -/

/-- Neither a name nor a number nor a mark goes on with what sets tokens apart. -/
theorem lexeme?_append (h : Apart t) (some : s ≠ []) : lexeme? (s ++ t) = lexeme? s := by
  obtain ⟨c, s, rfl⟩ := List.exists_cons_of_ne_nil some
  unfold lexeme?
  dsimp only [List.cons_append]
  rw [← List.cons_append, numberLength_append h, mark?_append h some,
    takeWhile_append_apart _ h.isNamePart, List.take_append_of_le_length (numberLength_le _)]

theorem isNamePart_of_isNameStart (h : isNameStart c = true) : isNamePart c = true := by
  simp only [isNameStart, isNamePart, Text.isAlphanumeric, Bool.or_eq_true] at h ⊢
  tauto

theorem length_mark (m : Mark) : 0 < m.text.length := by
  cases m <;> decide

theorem isPrefix_of_mark? {m : Mark} (h : mark? s = some m) : m.text.toList <+: s := by
  unfold mark? at h
  simpa using List.find?_some h

/-- A name, number or mark is not empty, and is taken from the text. -/
theorem lexeme?_bounds (h : lexeme? s = some (tok, n)) : 0 < n ∧ n ≤ s.length := by
  unfold lexeme? at h
  split at h
  · exact absurd h (by simp)
  · next c rest =>
    split_ifs at h with digit start
    · cases h
      have whole : 0 < ((c :: rest).takeWhile Char.isDigit).length := by
        rw [List.takeWhile_cons_of_pos digit]
        exact Nat.succ_pos _
      refine ⟨?_, numberLength_le _⟩
      unfold numberLength
      dsimp only
      omega
    · cases h
      refine ⟨List.length_pos_of_ne_nil ?_, takeWhile_length_le _ _⟩
      rw [List.takeWhile_cons_of_pos (isNamePart_of_isNameStart start)]
      exact List.cons_ne_nil _ _
    · obtain ⟨m, found, same⟩ := Option.map_eq_some_iff.1 h
      cases same
      refine ⟨length_mark m, ?_⟩
      rw [← String.length_toList]
      exact (isPrefix_of_mark? found).length_le

end Cartograph.Expression

import Cartograph.Json.Printer
import Cartograph.Json.Reader
import Cartograph.Proofs.Decimal

/-!
# The tokens of what is written

The scalars that `Json.scalar` writes are read as they are, whatever follows them: texts always
(`tokenize_string`), numbers unless what follows would go on with them (`Boundary`). Blanks and
punctuation are read one character at a time.

That a float reads back is a property of its text alone (`ReadsBack`), since what follows does not
change how a number is read (`tokenize_append`).
-/

namespace Cartograph.Json

open Decimal

variable {cs rest : List Char}

/-! ### Single characters -/

theorem tokenize_space {c : Char} (h : isSpace c = true) : tokenize (c :: cs) = tokenize cs := by
  rw [tokenize, if_pos h]

theorem tokenize_spaces (n : Nat) : tokenize (List.replicate n ' ' ++ cs) = tokenize cs := by
  induction n with
  | zero => rfl
  | succ n ih => rw [List.replicate_succ, List.cons_append, tokenize_space (by decide), ih]

/-- One token, and whatever comes after it. -/
theorem tokenize_token {c : Char} {t : Token} (space : isSpace c = false)
    (read : nextToken? (c :: cs) = some (t, rest)) (shorter : rest.length ≤ cs.length) :
    tokenize (c :: cs) = (tokenize rest).map (t :: ·) := by
  rw [tokenize, if_neg (by simp [space]), read]
  exact dif_pos (Nat.lt_succ_of_le shorter)

@[simp]
theorem tokenize_newline : tokenize ('\n' :: cs) = tokenize cs := tokenize_space (by decide)

@[simp]
theorem tokenize_blank : tokenize (' ' :: cs) = tokenize cs := tokenize_space (by decide)

@[simp]
theorem tokenize_openList : tokenize ('[' :: cs) = (tokenize cs).map (.openList :: ·) :=
  tokenize_token (by decide) rfl (Nat.le_refl _)

@[simp]
theorem tokenize_closeList : tokenize (']' :: cs) = (tokenize cs).map (.closeList :: ·) :=
  tokenize_token (by decide) rfl (Nat.le_refl _)

@[simp]
theorem tokenize_openFields : tokenize ('\x7b' :: cs) = (tokenize cs).map (.openFields :: ·) :=
  tokenize_token (by decide) rfl (Nat.le_refl _)

@[simp]
theorem tokenize_closeFields : tokenize ('\x7d' :: cs) = (tokenize cs).map (.closeFields :: ·) :=
  tokenize_token (by decide) rfl (Nat.le_refl _)

@[simp]
theorem tokenize_comma : tokenize (',' :: cs) = (tokenize cs).map (.comma :: ·) :=
  tokenize_token (by decide) rfl (Nat.le_refl _)

@[simp]
theorem tokenize_colon : tokenize (':' :: cs) = (tokenize cs).map (.colon :: ·) :=
  tokenize_token (by decide) rfl (Nat.le_refl _)

/-! ### Texts -/

/-- How a control character is written: as its letter behind a backslash, or as four digits. -/
def isEscape (c : Char) : List Char → Bool
  | [mark, letter] => mark == '\\' && letter != 'u' && escape? letter == some c
  | [mark, letter, x, y, z, w] =>
    mark == '\\' && letter == 'u' && Document.natOfDigits? 16 [x, y, z, w] == some c.toNat
  | _ => false

theorem isEscape_control : ∀ n < 32,
    isEscape (Char.ofNat n) (escapeChar (Char.ofNat n)).toList = true := by
  decide +kernel

theorem stringChar?_of_isEscape {c : Char} {text : List Char} (small : c.toNat < 0xD800)
    (h : isEscape c text = true) : stringChar? (text ++ cs) = some (c, cs) := by
  unfold isEscape at h
  split at h
  · next mark letter =>
    simp only [Bool.and_eq_true, bne_iff_ne, beq_iff_eq] at h
    obtain ⟨⟨rfl, plain⟩, escaped⟩ := h
    show stringChar? ('\\' :: letter :: cs) = _
    rw [stringChar?.eq_2 _ _ plain, escaped]
    rfl
  · next mark letter x y z w =>
    simp only [Bool.and_eq_true, beq_iff_eq] at h
    obtain ⟨⟨rfl, rfl⟩, digits⟩ := h
    have low : ¬(0xDC00 ≤ c.toNat ∧ c.toNat < 0xE000) := fun h => by omega
    have high : ¬(0xD800 ≤ c.toNat ∧ c.toNat < 0xDC00) := fun h => by omega
    show codePoint? (x :: y :: z :: w :: cs) = _
    simp only [codePoint?, hexQuad?, digits, Option.map_some, bind, Option.bind, low, high,
      if_false, Char.ofNat_toNat]
    rfl
  · exact absurd h (by simp)

/-- A character as written is read as the character. -/
theorem stringChar?_escapeChar (c : Char) (cs : List Char) :
    stringChar? ((escapeChar c).toList ++ cs) = some (c, cs) := by
  by_cases control : c.toNat < 32
  · refine stringChar?_of_isEscape (by omega) ?_
    rw [← Char.ofNat_toNat c]
    exact isEscape_control _ control
  by_cases quote : c = '"'
  · subst quote
    rfl
  by_cases backslash : c = '\\'
  · subst backslash
    rfl
  have plain : escapeChar c = c.toString := by
    have differs : ∀ d : Char, d.toNat < 32 → c ≠ d := by
      rintro d small rfl
      exact control small
    rw [escapeChar, if_neg quote, if_neg backslash, if_neg (differs _ (by decide)),
      if_neg (differs _ (by decide)), if_neg (differs _ (by decide)),
      if_neg (differs _ (by decide)), if_neg (differs _ (by decide)), if_neg control]
  rw [plain, Char.toString_eq_singleton, String.toList_singleton]
  show stringChar? (c :: cs) = _
  rw [stringChar?.eq_def]
  split
  · next same => exact absurd (List.cons.inj same).1 backslash
  · next same => exact absurd (List.cons.inj same).1 backslash
  · next same =>
    obtain ⟨rfl, rfl⟩ := List.cons.inj same
    simp [quote, control]
  · next same => exact absurd same (by simp)

theorem head?_escapeChar (c : Char) :
    ((escapeChar c).toList ++ cs).head? ≠ some '"' := by
  intro head
  have read := stringChar?_escapeChar c cs
  cases text : (escapeChar c).toList ++ cs with
  | nil => simp [text] at head
  | cons d rest =>
    rw [text] at head read
    obtain rfl : d = '"' := by simpa using head
    exact absurd read (by simp [stringChar?])

/-- The characters of a text as written are read up to the closing mark. -/
theorem stringRest?_escape (s : List Char) :
    stringRest? (s.flatMap (fun c => (escapeChar c).toList) ++ '"' :: cs) = some (s, cs) := by
  induction s with
  | nil =>
    rw [stringRest?]
    rfl
  | cons c s ih =>
    rw [List.flatMap_cons, List.append_assoc, stringRest?, if_neg (head?_escapeChar c),
      stringChar?_escapeChar]
    have shorter : (s.flatMap (fun c => (escapeChar c).toList) ++ '"' :: cs).length <
        ((escapeChar c).toList ++ (s.flatMap (fun c => (escapeChar c).toList) ++
          '"' :: cs)).length := by
      have written : (escapeChar c).toList ≠ [] := by
        intro none
        have read := stringChar?_escapeChar c []
        rw [none] at read
        exact absurd read (by simp [stringChar?])
      have := List.length_pos_iff.2 written
      simp only [List.length_append]
      omega
    dsimp only
    rw [dif_pos shorter, ih]
    rfl

/-- A text as written is read as the text. -/
@[simp]
theorem tokenize_string (s : String) :
    tokenize ((string s).toList ++ cs) = (tokenize cs).map (.scalar (.text s) :: ·) := by
  have shape : (string s).toList ++ cs =
      '"' :: (s.toList.flatMap (fun c => (escapeChar c).toList) ++ '"' :: cs) := by
    simp [string, String.toList_join, List.flatMap_map]
  rw [shape]
  refine tokenize_token (by decide) ?_ ?_
  · show (stringRest? _).map _ = _
    rw [stringRest?_escape]
    simp
  · simp
    omega

/-! ### Numbers -/

/-- No continuation of a number. -/
def Boundary (cs : List Char) : Prop :=
  ∀ c, cs.head? = some c → c.isDigit = false ∧ c ≠ '.' ∧ c ≠ 'e' ∧ c ≠ 'E'

theorem boundary_nil : Boundary [] := fun _ h => absurd h (by simp)

theorem boundary_cons {c : Char} (h : c.isDigit = false ∧ c ≠ '.' ∧ c ≠ 'e' ∧ c ≠ 'E') :
    Boundary (c :: cs) := by
  intro d head
  obtain rfl : c = d := by simpa using head
  exact h

theorem digitRun_append (bound : Boundary rest) :
    digitRun (cs ++ rest) = ((digitRun cs).1, (digitRun cs).2 ++ rest) := by
  induction cs with
  | nil =>
    cases rest with
    | nil => rfl
    | cons c rest =>
      have noDigit := (bound c rfl).1
      simp [digitRun, noDigit]
  | cons c cs ih =>
    simp only [digitRun, Prod.mk.injEq] at ih
    by_cases digit : c.isDigit = true
    · simp [digitRun, digit, ih]
    · simp [digitRun, digit]

theorem exponentPart?_append {e : Option Int} {left : List Char} (bound : Boundary rest)
    (h : exponentPart? cs = some (e, left)) :
    exponentPart? (cs ++ rest) = some (e, left ++ rest) := by
  cases cs with
  | nil =>
    cases h
    cases rest with
    | nil => rfl
    | cons c rest =>
      obtain ⟨-, -, small, great⟩ := bound c rfl
      simp [exponentPart?, small, great]
  | cons c cs =>
    rw [List.cons_append, exponentPart?] at *
    split
    · next mark =>
      rw [if_pos mark] at h
      cases cs with
      | nil => exact absurd h (by simp [readSign, digitRun])
      | cons d ds =>
        have sign : readSign (d :: ds ++ rest) =
            ((readSign (d :: ds)).1, (readSign (d :: ds)).2 ++ rest) := by
          rw [List.cons_append]
          unfold readSign
          split <;> simp_all
        rw [sign]
        dsimp only at h ⊢
        rw [digitRun_append bound]
        dsimp only
        split at h
        · exact absurd h (by simp)
        · next run =>
          rw [if_neg run]
          cases h
          rfl
    · next mark =>
      rw [if_neg mark] at h
      cases h
      rfl

/-- What follows a number does not change how it is read. -/
theorem number?_append {negative : Bool} {d : Document} {left : List Char} (bound : Boundary rest)
    (h : number? negative cs = some (d, left)) :
    number? negative (cs ++ rest) = some (d, left ++ rest) := by
  rw [number?] at *
  rw [digitRun_append bound]
  dsimp only at h ⊢
  split at h
  · exact absurd h (by simp)
  next whole =>
  rw [if_neg whole]
  split at h
  · next after point =>
    rw [point, List.cons_append]
    show (if (digitRun (after ++ rest)).1 = [] then none else _) = _
    rw [digitRun_append bound]
    split at h
    · exact absurd h (by simp)
    next places =>
    rw [if_neg places]
    obtain ⟨⟨e, left'⟩, part, h⟩ := Option.bind_eq_some_iff.1 h
    obtain ⟨f, value, h⟩ := Option.bind_eq_some_iff.1 h
    cases h
    simp only [exponentPart?_append bound part, value, bind, Option.bind]
    rfl
  · next no =>
    obtain ⟨⟨e, left'⟩, part, h⟩ := Option.bind_eq_some_iff.1 h
    split
    · next after point =>
      -- The point would be in what follows.
      cases run : (digitRun cs).2 with
      | nil =>
        rw [run, List.nil_append] at point
        exact absurd rfl (bound '.' (by rw [point]; rfl)).2.1
      | cons c cs' =>
        rw [run, List.cons_append] at point
        rw [(List.cons.inj point).1] at run
        exact absurd run (no _)
    · simp only [exponentPart?_append bound part, bind, Option.bind]
      cases e with
      | none =>
        obtain ⟨w, value, same⟩ := Option.map_eq_some_iff.1 h
        cases same
        simp [value]
      | some e =>
        obtain ⟨f, value, same⟩ := Option.map_eq_some_iff.1 h
        cases same
        simp [value]

theorem nextToken?_of_isDigit {c : Char} (h : c.isDigit = true) :
    nextToken? (c :: cs) = (number? false (c :: cs)).map fun (d, r) => (.scalar d, r) := by
  rw [nextToken?.eq_def]
  split
  iterate 11
    next same =>
      rw [(List.cons.inj same).1] at h
      exact absurd h (by decide)
  rfl

/-- A number that ends the text it stands in. -/
def isNumber : Document → Bool
  | .int _ => true
  | .float _ => true
  | _ => false

theorem isDigit_of_number? {negative : Bool} {c : Char} {r : Document × List Char}
    (h : number? negative (c :: cs) = some r) : c.isDigit = true := by
  refine Decidable.byContradiction fun noDigit => ?_
  have empty : (digitRun (c :: cs)).1 = [] := by simp [digitRun, noDigit]
  rw [number?] at h
  simp [empty] at h

theorem nextToken?_append {d : Document} {left : List Char} (bound : Boundary rest)
    (number : isNumber d = true) (h : nextToken? cs = some (.scalar d, left)) :
    nextToken? (cs ++ rest) = some (.scalar d, left ++ rest) := by
  rw [nextToken?.eq_def] at h
  split at h
  iterate 6 exact absurd h (by simp)
  · obtain ⟨_, -, same⟩ := Option.map_eq_some_iff.1 h
    cases same
    exact absurd number (by simp [isNumber])
  iterate 3
    cases h
    exact absurd number (by decide)
  · next cs =>
    obtain ⟨⟨d', left'⟩, read, same⟩ := Option.map_eq_some_iff.1 h
    cases same
    show (number? true (cs ++ rest)).map _ = _
    rw [number?_append bound read]
    rfl
  · obtain ⟨⟨d', left'⟩, read, same⟩ := Option.map_eq_some_iff.1 h
    cases same
    cases cs with
    | nil => exact absurd read (by simp [number?, digitRun])
    | cons c cs =>
      rw [List.cons_append, nextToken?_of_isDigit (isDigit_of_number? read), ← List.cons_append,
        number?_append bound read]
      rfl

theorem tokenize_cons (c : Char) : tokenize (c :: cs) = some [] ↔
    isSpace c = true ∧ tokenize cs = some [] := by
  rw [tokenize]
  split
  · next space => simp [space]
  · next space =>
    constructor
    · intro h
      split at h
      · exact absurd h (by simp)
      · split at h
        · obtain ⟨_, -, same⟩ := Option.map_eq_some_iff.1 h
          exact absurd same (by simp)
        · exact absurd h (by simp)
    · exact fun h => absurd h.1 space

/-- Text without tokens is blank. -/
theorem tokenize_blank_append (h : tokenize cs = some []) :
    tokenize (cs ++ rest) = tokenize rest := by
  induction cs with
  | nil => rfl
  | cons c cs ih =>
    obtain ⟨space, h⟩ := (tokenize_cons c).1 h
    rw [List.cons_append, tokenize_space space, ih h]

/-- A number that a text holds alone is what it is read as before anything else, too. -/
theorem tokenize_append {d : Document} (bound : Boundary rest) (number : isNumber d = true)
    (h : tokenize cs = some [.scalar d]) :
    tokenize (cs ++ rest) = (tokenize rest).map (.scalar d :: ·) := by
  induction cs with
  | nil => exact absurd h (by simp [tokenize])
  | cons c cs ih =>
    by_cases space : isSpace c = true
    · rw [tokenize_space space] at h
      rw [List.cons_append, tokenize_space space, ih h]
    · rw [tokenize, if_neg space] at h
      split at h
      · exact absurd h (by simp)
      next t left read =>
      split at h
      · next shorter =>
        obtain ⟨ts, none, same⟩ := Option.map_eq_some_iff.1 h
        obtain ⟨rfl, rfl⟩ := List.cons.inj same
        have read' : nextToken? (c :: (cs ++ rest)) = some (.scalar d, left ++ rest) :=
          nextToken?_append bound number read
        rw [List.cons_append, tokenize_token (by simpa using space) read' (by simp; omega),
          tokenize_blank_append none]
      · exact absurd h (by simp)

/-! ### Scalars -/

@[simp]
theorem tokenize_null :
    tokenize ('n' :: 'u' :: 'l' :: 'l' :: cs) = (tokenize cs).map (.scalar .null :: ·) :=
  tokenize_token (by decide) rfl (by simp only [List.length_cons]; omega)

@[simp]
theorem tokenize_true :
    tokenize ('t' :: 'r' :: 'u' :: 'e' :: cs) = (tokenize cs).map (.scalar (.bool true) :: ·) :=
  tokenize_token (by decide) rfl (by simp only [List.length_cons]; omega)

@[simp]
theorem tokenize_false : tokenize ('f' :: 'a' :: 'l' :: 's' :: 'e' :: cs) =
    (tokenize cs).map (.scalar (.bool false) :: ·) :=
  tokenize_token (by decide) rfl (by simp only [List.length_cons]; omega)

/-- Whether a float is read back from its text. -/
def ReadsBack (f : Float) : Prop := tokenize (number f).toList = some [.scalar (.float f)]

theorem digitRun_toDigits (n : Nat) :
    digitRun (Nat.toDigits 10 n) = (Nat.toDigits 10 n, []) := by
  have all := isDigit_toDigits n
  unfold digitRun
  rw [← List.append_nil (Nat.toDigits 10 n), List.takeWhile_append_of_pos all,
    List.dropWhile_append_of_pos all]
  rfl

theorem number?_toDigits (negative : Bool) (n : Nat) :
    number? negative (Nat.toDigits 10 n) =
      (whole? negative (Nat.toDigits 10 n)).map fun d => (d, []) := by
  rw [number?, digitRun_toDigits]
  dsimp only
  rw [if_neg fun h => h.elim Nat.toDigits_ne_nil (no_needless_zero n)]
  rfl

/-- An integer that JSON has a number for is read back from its text. -/
theorem tokenize_int {i : Int} (low : -(Nat.pow 2 63) ≤ i) (high : i < Nat.pow 2 64) :
    tokenize (toString i).toList = some [.scalar (.int i)] := by
  rw [Int.toString_eq_repr, Int.repr_eq_if]
  split
  · next nonneg =>
    obtain ⟨n, rfl⟩ := Int.eq_ofNat_of_zero_le nonneg
    have fits : n < Nat.pow 2 64 := by exact_mod_cast high
    rw [Int.toNat_natCast, Nat.toList_repr]
    have read : (number? false (Nat.toDigits 10 n)) = some (.int n, []) := by
      rw [number?_toDigits, whole?]
      simp [digitsValue_toDigits, fits]
    cases digits : Nat.toDigits 10 n with
    | nil => exact absurd digits Nat.toDigits_ne_nil
    | cons c cs =>
      have digit : c.isDigit = true :=
        isDigit_toDigits n c (by rw [digits]; exact List.mem_cons_self)
      rw [digits] at read
      have next : nextToken? (c :: cs) = some (.scalar (.int n), []) := by
        rw [nextToken?_of_isDigit digit, read]
        rfl
      have space : isSpace c = false := by
        cases space : isSpace c with
        | false => rfl
        | true =>
          simp only [isSpace, Bool.or_eq_true, beq_iff_eq] at space
          rcases space with ((rfl | rfl) | rfl) | rfl <;> exact absurd digit (by decide)
      rw [tokenize_token space next (Nat.zero_le _)]
      simp [tokenize]
  · next negative =>
    obtain ⟨n, rfl⟩ : ∃ n : Nat, i = -(n : Int) := ⟨(-i).toNat, by omega⟩
    have pos : n ≠ 0 := by omega
    have fits : n ≤ Nat.pow 2 63 := by omega
    rw [Int.neg_neg, Int.toNat_natCast, String.toList_append, Nat.toList_repr]
    have read : (number? true (Nat.toDigits 10 n)) = some (.int (-(n : Int)), []) := by
      rw [number?_toDigits, whole?]
      simp [digitsValue_toDigits, pos, fits]
    have next : nextToken? ('-' :: Nat.toDigits 10 n) =
        some (.scalar (.int (-(n : Int))), []) := by
      show (number? true (Nat.toDigits 10 n)).map _ = _
      rw [read]
      rfl
    refine (tokenize_token (by decide) next (Nat.zero_le _)).trans ?_
    simp [tokenize]

end Cartograph.Json

import Mathlib
import Cartograph.Expression.Parser
import Cartograph.Proofs.Decimal
import Cartograph.Proofs.Syntax.Tokens

/-!
# Expressions that are written

An expression is written as words with blanks between them (`print`), in parentheses where its
operator takes less tightly than the place that it stands in asks for (`precedence`, `enclosed`).
Cut into tokens again, each word is one token (`tokens_words`), so no two of them run together.

What may be written so is an expression made of plain literals, names, attributes, indices,
operators, conditionals, lists and calls (`Printable`).
-/

namespace Cartograph

namespace Expr

/-! ### Precedence -/

/-- The mark of an operator. -/
def UnaryOp.mark : UnaryOp → Expression.Mark
  | not => .not
  | neg => .minus

/-- The mark of an operator. -/
def BinaryOp.mark : BinaryOp → Expression.Mark
  | or => .or
  | and => .and
  | eq => .equal
  | ne => .notEqual
  | lt => .less
  | le => .lessOrEqual
  | gt => .greater
  | ge => .greaterOrEqual
  | add => .plus
  | sub => .minus
  | mul => .star
  | div => .slash
  | mod => .percent

/-- How tightly an operator takes its operands. -/
def BinaryOp.precedence : BinaryOp → Nat
  | or => 2
  | and => 3
  | eq | ne => 4
  | lt | le | gt | ge => 5
  | add | sub => 6
  | mul | div | mod => 7

/-- How tightly an expression is held together: from the conditional, the loosest, over the binary
    operators and the unary ones to terms and the steps on them. -/
def precedence : Expr → Nat
  | conditional .. => 1
  | binary op .. => op.precedence
  | unary .. => 8
  | _ => 9

/-! ### Words -/

/-- Words in parentheses, if what they stand for is held together less tightly than the place asks
    for. -/
def enclosed (place tightness : Nat) (words : List String) : List String :=
  if tightness < place then "(" :: (words ++ [")"]) else words

mutual

/-- The words of an expression. The left operand of a binary operator may have an operator of the
    same level, as these group from the left; the right one may not. -/
def words : Expr → List String
  | literal (.int i) => [toString i.toNat]
  | literal (.bool b) => [toString b]
  | literal .null => ["null"]
  | root name => [name]
  | attr e name => enclosed 9 e.precedence (words e) ++ [".", name]
  | index e key => enclosed 9 e.precedence (words e) ++ "[" :: (words key ++ ["]"])
  | unary op e => op.mark.text :: enclosed 8 e.precedence (words e)
  | binary op a b => enclosed op.precedence a.precedence (words a) ++
      op.mark.text :: enclosed (op.precedence + 1) b.precedence (words b)
  | conditional c a b =>
    enclosed 2 c.precedence (words c) ++ "?" :: (words a ++ ":" :: words b)
  | list es => "[" :: (wordsOfList es ++ ["]"])
  | call name args _ => name :: "(" :: (wordsOfList args ++ [")"])
  | _ => []

/-- The words of expressions with commas between them. -/
def wordsOfList : List Expr → List String
  | [] => []
  | e :: es => words e ++ if es.isEmpty then [] else "," :: wordsOfList es

end

/-- The text of an expression. -/
def print (e : Expr) : String := " ".intercalate e.words

/-- A name as it may stand in an expression. -/
structure IsName (name : String) : Prop where
  first : ∃ c s, name.toList = c :: s ∧ Expression.isNameStart c
  others : ∀ c ∈ name.toList, Expression.isNamePart c

/-- A name that is no word of the language. -/
structure IsFree (name : String) : Prop extends IsName name where
  free : name ∉ ["true", "false", "null", "for", "in", "if"]

/-- An expression of plain literals, names, attributes, indices, operators, conditionals, lists and
    calls. -/
inductive Printable : Expr → Prop
  | int {n : Nat} {h : (Value.int n).isLiteral = true} : Printable (@literal (.int n) h)
  | bool {b : Bool} : Printable (@literal (.bool b) rfl)
  | null : Printable (@literal .null rfl)
  | root {name : String} : IsFree name → Printable (root name)
  | attr {e : Expr} {name : String} : Printable e → IsName name → Printable (attr e name)
  | index {e key : Expr} : Printable e → Printable key → Printable (index e key)
  | unary {op : UnaryOp} {e : Expr} : Printable e → Printable (unary op e)
  | binary {op : BinaryOp} {a b : Expr} : Printable a → Printable b → Printable (binary op a b)
  | conditional {c a b : Expr} :
      Printable c → Printable a → Printable b → Printable (conditional c a b)
  | list {es : List Expr} : (∀ e ∈ es, Printable e) → Printable (list es)
  | call {name : String} {args : List Expr} :
      IsFree name → (∀ e ∈ args, Printable e) → Printable (call name args false)

end Expr

namespace Expression

variable {s t : List Char} {w : String} {tok : Token} {c : Char} {d o n : Nat} {ws : List String}

/-! ### Tokens of words -/

/-- A word stands for a token, if it is cut off by a blank. -/
structure Spells (w : String) (tok : Token) : Prop where
  lexeme : lexeme? w.toList = some (tok, w.toList.length)
  stops : Stops w.toList
  quote : w.toList.head? ≠ some '"'

theorem Spells.unique {tok' : Token} (h : Spells w tok) (h' : Spells w tok') : tok = tok' := by
  have same := h.lexeme.symm.trans h'.lexeme
  exact (Prod.mk.inj (Option.some.inj same)).1

theorem Spells.some (h : Spells w tok) : ∃ c s, w.toList = c :: s := by
  cases same : w.toList with
  | nil =>
    have found := h.lexeme
    rw [same] at found
    exact absurd found (by simp [lexeme?])
  | cons c s => exact ⟨c, s, rfl⟩

theorem spells_mark (m : Mark) : Spells m.text (.mark m) where
  lexeme := by cases m <;> rfl
  stops := by
    cases m <;> refine stops_cons_iff.2 ⟨by decide, by decide, fun slash => ?_⟩
    all_goals first | exact absurd slash (by decide) | decide
  quote := by cases m <;> decide

/-! ### Names -/

/-- No name begins with a digit or a blank. -/
theorem plain_not_isNameStart : ∀ range ∈ (48, 57) :: Text.blankRanges,
    ∀ n ∈ List.range' range.1 (range.2 + 1 - range.1), isNameStart (Char.ofNat n) = false := by
  decide +kernel

theorem not_inRanges_of_isNameStart (h : isNameStart c = true) :
    Text.inRanges ((48, 57) :: Text.blankRanges) c.toNat = false := by
  by_contra inside
  obtain ⟨range, listed, inside⟩ := List.any_eq_true.1 (Bool.eq_true_of_not_eq_false inside)
  simp only [Bool.and_eq_true, decide_eq_true_eq] at inside
  have none := plain_not_isNameStart range listed c.toNat (List.mem_range'_1.2 (by omega))
  rw [Char.ofNat_toNat] at none
  exact absurd (h.symm.trans none) (by simp)

theorem isNameStart_plain (h : isNameStart c = true) :
    Text.isBlank c = false ∧ c.isDigit = false ∧ c ≠ '#' ∧ c ≠ '/' ∧ c ≠ '"' := by
  obtain ⟨digit, blank⟩ := Bool.or_eq_false_iff.1 (not_inRanges_of_isNameStart h)
  refine ⟨blank, ?_, ?_⟩
  · rw [← digit]
    rfl
  · refine ⟨?_, ?_, ?_⟩
    all_goals
      rintro rfl
      exact absurd h (by decide)

theorem spells_name {name : String} (h : Expr.IsName name) : Spells name (.ident name) := by
  obtain ⟨c, s, same, start⟩ := h.first
  obtain ⟨blank, digit, hash, slash, quote⟩ := isNameStart_plain start
  have whole : name.toList.takeWhile isNamePart = name.toList :=
    List.takeWhile_eq_self_iff.2 h.others
  refine ⟨?_, ?_, ?_⟩
  · unfold lexeme?
    rw [whole, same]
    dsimp only
    rw [if_neg (by simp [digit]), if_pos start, ← same, String.ofList_toList]
  · rw [same]
    exact stops_cons_iff.2 ⟨blank, hash, fun same => absurd same slash⟩
  · rw [same]
    exact fun first => quote (Option.some.inj first)

theorem isName_ofList (start : isNameStart c) (others : (c :: s).all isNamePart) :
    Expr.IsName (String.ofList (c :: s)) := by
  refine ⟨⟨c, s, String.toList_ofList, start⟩, ?_⟩
  rw [String.toList_ofList]
  exact List.all_eq_true.1 others

theorem spells_bool (b : Bool) : Spells (toString b) (.ident (toString b)) := by
  cases b
  · exact spells_name (isName_ofList (c := 'f') (s := ['a', 'l', 's', 'e']) (by decide) (by decide))
  · exact spells_name (isName_ofList (c := 't') (s := ['r', 'u', 'e']) (by decide) (by decide))

theorem spells_null : Spells "null" (.ident "null") :=
  spells_name (isName_ofList (c := 'n') (s := ['u', 'l', 'l']) (by decide) (by decide))

/-! ### Numbers -/

theorem numberLength_digits (h : ∀ c ∈ s, c.isDigit = true) : numberLength s = s.length := by
  have whole : s.takeWhile Char.isDigit = s := List.takeWhile_eq_self_iff.2 h
  unfold numberLength
  dsimp only
  rw [whole, List.drop_length]
  have fraction : fractionLength [] = 0 := rfl
  rw [fraction, Nat.add_zero, List.drop_length]
  rfl

theorem le_of_isLiteral {n : Nat} (h : (Value.int n).isLiteral = true) :
    (n : Int) ≤ Decimal.maxInt := by
  simp only [Value.isLiteral, Bool.and_eq_true, decide_eq_true_eq] at h
  exact h.2

theorem isDigit_plain (h : c.isDigit = true) :
    Text.isBlank c = false ∧ c ≠ '#' ∧ c ≠ '/' ∧ c ≠ '"' := by
  refine ⟨?_, ?_, ?_, ?_⟩
  · have inside : 48 ≤ c.toNat ∧ c.toNat ≤ 57 := by
      simpa [Char.isDigit, UInt32.le_iff_toNat_le] using h
    simp [Text.isBlank, Text.inRanges, Text.blankRanges]
    omega
  all_goals
    rintro rfl
    exact absurd h (by decide)

theorem spells_number {n : Nat} (fits : (n : Int) ≤ Decimal.maxInt) :
    Spells (toString n) (.number (@Literal.int n fits)) := by
  have text : (toString n).toList = Nat.toDigits 10 n := Nat.toList_repr
  have digits := Decimal.isDigit_toDigits n
  obtain ⟨c, s, same⟩ := List.exists_cons_of_ne_nil (Nat.toDigits_ne_nil (b := 10) (n := n))
  have digit : c.isDigit = true := digits c (same ▸ List.mem_cons_self)
  obtain ⟨blank, hash, slash, quote⟩ := isDigit_plain digit
  have value : literalOf (Nat.toDigits 10 n) = @Literal.int n fits := by
    have number := Decimal.digitsValue_toDigits n
    refine (dif_pos ⟨List.all_eq_true.2 digits, by rwa [number]⟩).trans ?_
    rw [Literal.int.injEq, number]
  refine ⟨?_, ?_, ?_⟩
  · rw [text]
    unfold lexeme?
    rw [same]
    dsimp only
    rw [if_pos digit, ← same, numberLength_digits digits, List.take_length, value]
  · rw [text, same]
    exact stops_cons_iff.2 ⟨blank, hash, fun same => absurd same slash⟩
  · rw [text, same]
    exact fun first => quote (Option.some.inj first)

/-! ### Cutting words -/

/-- Words, each behind a blank. -/
def spaced (ws : List String) : List Char := ws.flatMap fun w => ' ' :: w.toList

theorem apart_spaced (ws : List String) : Apart (spaced ws) := by
  intro c first
  cases ws with
  | nil => exact absurd first (by simp [spaced])
  | cons w ws => exact .inr (.inr (.inr (Option.some.inj first).symm))

theorem stops_spaced (h : Stops (c :: s)) (ws : List String) : Stops (c :: s ++ spaced ws) := by
  obtain ⟨plain, hash, slash⟩ := stops_cons_iff.1 h
  refine stops_cons_iff.2 ⟨plain, hash, fun same => ?_⟩
  cases s with
  | cons d s => exact slash same
  | nil =>
    cases ws with
    | nil => exact ⟨by simp [spaced], by simp [spaced]⟩
    | cons w ws => exact ⟨by simp [spaced], by simp [spaced]⟩

/-- One word, with blanks before it, and the words behind it. -/
theorem tokens_word {ts : List Spanned} {last : Place} (h : Spells w tok)
    (lead : t = [] ∨ t = [' '])
    (more : tokens false (depthBehind d tok) ⟨spaced ws, o + bytes t + bytes w.toList⟩ =
      .ok (ts, last)) :
    tokens false d ⟨t ++ (w.toList ++ spaced ws), o⟩ = .ok (.mk tok (o + bytes t) :: ts, last) := by
  obtain ⟨c, s, same⟩ := h.some
  obtain ⟨found, stops, quote⟩ := h
  rw [same] at found stops quote more ⊢
  have stops := stops_spaced stops ws
  have trivia : Trivia t (c :: s ++ spaced ws) := by
    rcases lead with rfl | rfl
    · exact .done stops
    · exact .blank (by decide) (.done stops)
  have skipped := skipTrivia_of_trivia trivia o
  rw [← lexeme?_append (apart_spaced ws) (List.cons_ne_nil c s)] at found
  rw [← advance_append (c :: s) (spaced ws) (o + bytes t)] at more
  have plain : c ≠ '"' := fun first => quote (by rw [first]; rfl)
  exact tokens_iff.2 (.lexeme skipped plain (by simp) found more)

/-- Each word is one token. -/
theorem tokens_spaced (h : ∀ w ∈ ws, ∃ tok, Spells w tok) (d o : Nat) :
    ∃ ts last, tokens false d ⟨spaced ws, o⟩ = .ok (ts, last) ∧
      List.Forall₂ (fun w s => Spells w s.token) ws ts := by
  induction ws generalizing d o with
  | nil =>
    have skipped := skipTrivia_of_trivia (.done (by simp [Stops]) : Trivia [] []) o
    exact ⟨[], _, tokens_iff.2 (.ended rfl skipped), .nil⟩
  | cons w ws ih =>
    obtain ⟨tok, spells⟩ := h w List.mem_cons_self
    obtain ⟨ts, last, more, each⟩ := ih (fun w' h' => h w' (List.mem_cons_of_mem _ h'))
      (depthBehind d tok) (o + 1 + bytes w.toList)
    exact ⟨_, last, tokens_word spells (.inr rfl) more, .cons spells each⟩

theorem toList_intercalate (w : String) (ws : List String) :
    (" ".intercalate (w :: ws)).toList = w.toList ++ spaced ws := by
  induction ws generalizing w with
  | nil => simp [spaced]
  | cons w' ws ih =>
    rw [String.intercalate_cons_cons, String.toList_append, String.toList_append, ih,
      List.append_assoc]
    rfl

/-- Words with blanks between them are cut into one token each. -/
theorem tokenize_words (h : ∀ w ∈ ws, ∃ tok, Spells w tok) :
    ∃ ts, tokenize (" ".intercalate ws) = .ok ts ∧
      List.Forall₂ (fun w s => Spells w s.token) ws ts := by
  cases ws with
  | nil =>
    obtain ⟨ts, last, read, each⟩ := tokens_spaced h 0 0
    exact ⟨ts, tokenize_iff.2 ⟨last, read⟩, each⟩
  | cons w ws =>
    obtain ⟨tok, spells⟩ := h w List.mem_cons_self
    obtain ⟨ts, last, more, each⟩ := tokens_spaced (fun w' h' => h w' (List.mem_cons_of_mem _ h'))
      (depthBehind 0 tok) (0 + bytes w.toList)
    have read := tokens_word (t := []) spells (.inl rfl) more
    rw [List.nil_append, ← toList_intercalate] at read
    exact ⟨_, tokenize_iff.2 ⟨last, read⟩, .cons spells each⟩

/-- Words that are tokens. -/
def Legible (ws : List String) : Prop := ∀ w ∈ ws, ∃ tok, Spells w tok

theorem legible_nil : Legible [] := by simp [Legible]

theorem Legible.cons (h : ∃ tok, Spells w tok) (h' : Legible ws) : Legible (w :: ws) :=
  List.forall_mem_cons.2 ⟨h, h'⟩

theorem Legible.append {ws' : List String} (h : Legible ws) (h' : Legible ws') :
    Legible (ws ++ ws') := List.forall_mem_append.2 ⟨h, h'⟩

theorem Legible.mark (m : Mark) (h : Legible ws) : Legible (m.text :: ws) :=
  .cons ⟨_, spells_mark m⟩ h

theorem Legible.enclosed (place tightness : Nat) (h : Legible ws) :
    Legible (Expr.enclosed place tightness ws) := by
  unfold Expr.enclosed
  split
  · exact .mark .leftParen (h.append (.mark .rightParen legible_nil))
  · exact h

theorem legible_wordsOfList {es : List Expr} (h : ∀ e ∈ es, Legible e.words) :
    Legible (Expr.wordsOfList es) := by
  induction es with
  | nil => exact legible_nil
  | cons e es ih =>
    obtain ⟨first, others⟩ := List.forall_mem_cons.1 h
    refine first.append ?_
    split
    · exact legible_nil
    · exact .mark .comma (ih others)

/-- What may be written is written in words that are tokens. -/
theorem legible_words {e : Expr} (h : e.Printable) : Legible e.words := by
  induction h with
  | @int n fits =>
    exact .cons ⟨_, spells_number (le_of_isLiteral fits)⟩ legible_nil
  | @bool b => exact .cons ⟨_, spells_bool b⟩ legible_nil
  | null => exact .cons ⟨_, spells_null⟩ legible_nil
  | root free => exact .cons ⟨_, spells_name free.toIsName⟩ legible_nil
  | attr _ name ih =>
    exact (ih.enclosed _ _).append (.mark .dot (.cons ⟨_, spells_name name⟩ legible_nil))
  | index _ _ ih ih' =>
    exact (ih.enclosed _ _).append
      (.mark .leftBracket (ih'.append (.mark .rightBracket legible_nil)))
  | @unary op e _ ih => exact .mark op.mark (ih.enclosed _ _)
  | @binary op a b _ _ ih ih' => exact (ih.enclosed _ _).append (.mark op.mark (ih'.enclosed _ _))
  | conditional _ _ _ ih ih' ih'' =>
    exact (ih.enclosed _ _).append (.mark .question (ih'.append (.mark .colon ih'')))
  | list _ ih =>
    exact .mark .leftBracket ((legible_wordsOfList ih).append (.mark .rightBracket legible_nil))
  | call free _ ih =>
    exact .cons ⟨_, spells_name free.toIsName⟩ (.mark .leftParen
      ((legible_wordsOfList ih).append (.mark .rightParen legible_nil)))

end Expression

end Cartograph

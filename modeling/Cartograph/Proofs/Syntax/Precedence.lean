import Mathlib
import Cartograph.Proofs.Syntax.Printing

/-!
# Levels of operators

The readers of expressions go from loose operators to tight ones, and the words of an expression are
read by each level up to its own (`Readable`). What comes behind an expression is left alone by the
levels that are tighter than it takes what stands before it (`Tokens.pull`).

Binary operators of one level, and the steps on a term, are read in a loop that has the expression
so far: to read an expression, and then to go on with it, comes to going on with it as if it had
been read (`ReadsLeft`, `ReadsTerm`). This is what makes them group from the left.

Each statement counts the calls that it needs by the number of words.
-/

namespace Cartograph.Expression

variable {ts ts' m : Tokens} {w : String} {ws us vs : List String} {tok : Token} {e a b : Expr}
  {n k p : Nat}

/-! ### Tokens that begin with words -/

/-- The tokens that come next are those of the given words. -/
def Tokens.Begins : Tokens → List String → Tokens → Prop
  | ts, [], ts' => ts = ts'
  | ts, w :: ws, ts' => (∃ tok, Spells w tok ∧ ts.peek? = some tok) ∧ ts.next.Begins ws ts'

theorem Tokens.Begins.peek (h : ts.Begins (w :: ws) ts') (spells : Spells w tok) :
    ts.peek? = some tok := by
  obtain ⟨⟨tok', spells', next⟩, -⟩ := h
  rw [next, spells'.unique spells]

theorem Tokens.Begins.mark {k : Mark} (h : ts.Begins (k.text :: ws) ts') :
    ts.peek? = some (.mark k) := h.peek (spells_mark k)

theorem Tokens.begins_append :
    ts.Begins (us ++ vs) ts' ↔ ∃ m, ts.Begins us m ∧ m.Begins vs ts' := by
  induction us generalizing ts with
  | nil => simp [Begins]
  | cons w us ih => simp only [List.cons_append, Begins, ih, and_assoc, exists_and_left]

theorem Tokens.begins_of_spells {l : List Spanned}
    (h : List.Forall₂ (fun w s => Spells w s.token) ws l) (finish : Nat) :
    Begins ⟨l, finish⟩ ws ⟨[], finish⟩ := by
  induction h with
  | nil => rfl
  | @cons w s ws l spells _ ih => exact ⟨⟨_, spells, rfl⟩, ih⟩

theorem Tokens.sees_iff {k : Mark} : ts.sees k = true ↔ ts.peek? = some (.mark k) := by
  unfold sees mark?
  rw [beq_iff_eq]
  split
  · next j same => simp [same]
  · next other => exact iff_of_false (by simp) (other k)

theorem Tokens.not_sees {k : Mark} (h : ts.peek? = some tok) (other : tok ≠ .mark k) :
    ¬ts.sees k = true := by
  rw [sees_iff, h]
  exact fun same => other (Option.some.inj same)

theorem Tokens.expect_of_peek {k : Mark} (h : ts.peek? = some (.mark k)) :
    ts.expect k = .ok ts.next := if_pos (sees_iff.2 h)

/-! ### What a mark takes -/

/-- How tightly a mark takes what stands before it. -/
def Mark.pull : Mark → Nat
  | .question => 1
  | .or => 2
  | .and => 3
  | .equal | .notEqual => 4
  | .less | .lessOrEqual | .greater | .greaterOrEqual => 5
  | .plus | .minus => 6
  | .star | .slash | .percent => 7
  | .dot | .leftBracket => 9
  | .leftParen => 10
  | _ => 0

/-- How tightly the next token takes what stands before it. -/
def Tokens.pull (ts : Tokens) : Nat :=
  match ts.mark? with
  | some k => k.pull
  | none => 0

theorem Tokens.pull_of_peek {k : Mark} (h : ts.peek? = some (.mark k)) : ts.pull = k.pull := by
  unfold pull mark?
  rw [h]

theorem Tokens.not_sees_of_pull {k : Mark} (h : ts.pull < k.pull) : ¬ts.sees k = true := by
  intro sees
  rw [pull_of_peek (sees_iff.1 sees)] at h
  exact Nat.lt_irrefl _ h

/-- The operators of a level. -/
def opsAt (p : Nat) : List (Mark × Expr.BinaryOp) := levels.getD (p - 2) []

theorem levels_drop (low : 2 ≤ p) (high : p ≤ 7) :
    levels.drop (p - 2) = opsAt p :: levels.drop (p - 1) := by
  interval_cases p <;> rfl

theorem pull_of_mem_opsAt (low : 2 ≤ p) (high : p ≤ 7) : ∀ x ∈ opsAt p, x.1.pull = p := by
  interval_cases p <;> decide

theorem Tokens.operator?_none (low : 2 ≤ p) (high : p ≤ 7) (h : ts.pull < p) :
    ts.operator? (opsAt p) = none := by
  unfold operator?
  unfold pull at h
  cases same : ts.mark? with
  | none => rfl
  | some k =>
    rw [same] at h
    have none : (opsAt p).find? (·.1 == k) = none := by
      rw [List.find?_eq_none]
      intro x listed found
      rw [← pull_of_mem_opsAt low high x listed, beq_iff_eq.1 found] at h
      exact Nat.lt_irrefl _ h
    rw [Option.bind_some, none]
    rfl

theorem Tokens.operator?_some {op : Expr.BinaryOp} (h : ts.peek? = some (.mark op.mark)) :
    ts.operator? (opsAt op.precedence) = some op := by
  unfold operator? mark?
  rw [h]
  cases op <;> rfl

theorem pull_mark (op : Expr.BinaryOp) : op.mark.pull = op.precedence := by
  cases op <;> rfl

theorem precedence_bounds (op : Expr.BinaryOp) : 2 ≤ op.precedence ∧ op.precedence ≤ 7 := by
  cases op <;> decide

/-! ### Readers -/

-- A word takes at most sixteen calls: from a whole expression down to a term there are ten, and a
-- bracket or an operator adds one.

/-- A term and the steps on it. -/
def stepped (n : Nat) (ts : Tokens) : Except Fault (Expr × Tokens) := do
  let (e, ts) ← term n ts
  steps n e ts

/-- Words are read as a whole expression. -/
def ReadsWhole (ws : List String) (e : Expr) : Prop :=
  ∀ ⦃n ts ts'⦄, 16 * ws.length + 10 ≤ n → Tokens.Begins ts ws ts' → ts'.pull < 1 →
    expression n ts = .ok (e, ts')

/-- Words are read as an operand of a level. -/
def ReadsOperand (p : Nat) (ws : List String) (e : Expr) : Prop :=
  ∀ ⦃n ts ts'⦄, 16 * ws.length + 11 ≤ n + p → Tokens.Begins ts ws ts' → ts'.pull < p →
    binary n (levels.drop (p - 2)) ts = .ok (e, ts')

/-- Words are read as the operands so far of a level, and what is behind them is gone on with. -/
def ReadsLeft (p : Nat) (ws : List String) (e : Expr) : Prop :=
  ∀ ⦃n k ts ts' r⦄, 1 ≤ k → k + 16 * ws.length + 10 ≤ n + p → Tokens.Begins ts ws ts' →
    ts'.pull ≤ p → (∀ j, k ≤ j → binaryRest j (opsAt p) (levels.drop (p - 1)) e ts' = r) →
      binary n (levels.drop (p - 2)) ts = r

/-- Words are read as the operand of a unary operator. -/
def ReadsUnary (ws : List String) (e : Expr) : Prop :=
  ∀ ⦃n ts ts'⦄, 16 * ws.length + 2 ≤ n → Tokens.Begins ts ws ts' → ts'.pull < 8 →
    unary n ts = .ok (e, ts')

/-- Words are read as a term with the steps so far, and what is behind them is gone on with. -/
def ReadsTerm (ws : List String) (e : Expr) : Prop :=
  ∀ ⦃n k ts ts' r⦄, 1 ≤ k → k + 16 * ws.length ≤ n → Tokens.Begins ts ws ts' → ts'.pull ≤ 9 →
    (∀ j, k ≤ j → steps j e ts' = r) → stepped n ts = r

theorem steps_done (h : ts.pull < 9) (n : Nat) : steps (n + 1) e ts = .ok (e, ts) := by
  rw [steps, if_neg (Tokens.not_sees_of_pull h), if_neg (Tokens.not_sees_of_pull h)]

/-- No unary operator is next. -/
def Tokens.NoUnary (ts : Tokens) : Prop := ¬ts.sees .not = true ∧ ¬ts.sees .minus = true

theorem ReadsTerm.unary (h : ReadsTerm ws e)
    (plain : ∀ ⦃ts ts'⦄, Tokens.Begins ts ws ts' → ts.NoUnary) : ReadsUnary ws e := by
  intro n ts ts' enough begins behind
  obtain ⟨n, rfl⟩ : ∃ j, n = j + 1 := ⟨n - 1, by omega⟩
  obtain ⟨noNot, noMinus⟩ := plain begins
  rw [Expression.unary, if_neg noNot, if_neg noMinus]
  refine h (k := 1) (Nat.le_refl 1) (by omega) begins (by omega) fun j pos => ?_
  obtain ⟨j, rfl⟩ : ∃ i, j = i + 1 := ⟨j - 1, by omega⟩
  exact steps_done (by omega) j

theorem ReadsUnary.operand (h : ReadsUnary ws e) : ReadsOperand 8 ws e := by
  intro n ts ts' enough begins behind
  obtain ⟨n, rfl⟩ : ∃ j, n = j + 1 := ⟨n - 1, by omega⟩
  exact h (by omega) begins behind

theorem ReadsOperand.left (low : 2 ≤ p) (high : p ≤ 7) (h : ReadsOperand (p + 1) ws e) :
    ReadsLeft p ws e := by
  intro n k ts ts' r pos enough begins behind rest
  obtain ⟨n, rfl⟩ : ∃ j, n = j + 1 := ⟨n - 1, by omega⟩
  have first : binary n (levels.drop (p - 1)) ts = .ok (e, ts') :=
    h (by omega) begins (Nat.lt_succ_of_le behind)
  rw [levels_drop low high, binary, first]
  exact rest n (by omega)

theorem ReadsLeft.operand (low : 2 ≤ p) (high : p ≤ 7) (h : ReadsLeft p ws e) :
    ReadsOperand p ws e := by
  intro n ts ts' enough begins behind
  refine h (k := 1) (Nat.le_refl 1) (by omega) begins (Nat.le_of_lt behind) fun j pos => ?_
  obtain ⟨j, rfl⟩ : ∃ i, j = i + 1 := ⟨j - 1, by omega⟩
  rw [binaryRest, Tokens.operator?_none low high behind]

/-- What is an operand of a level is one of each looser level. -/
theorem ReadsOperand.looser {q : Nat} (h : ReadsOperand q ws e) (high : q ≤ 8) (low : 2 ≤ p)
    (le : p ≤ q) : ReadsOperand p ws e := by
  induction le using Nat.decreasingInduction with
  | self => exact h
  | of_succ j less ih =>
    exact ((ih (by omega)).left low (by omega)).operand low (by omega)

theorem ReadsOperand.whole (h : ReadsOperand 2 ws e) : ReadsWhole ws e := by
  intro n ts ts' enough begins behind
  obtain ⟨n, rfl⟩ : ∃ j, n = j + 1 := ⟨n - 1, by omega⟩
  have first : binary n levels ts = .ok (e, ts') := h (by omega) begins (by omega)
  rw [expression, first]
  exact if_neg (Tokens.not_sees_of_pull behind)

/-- Words in parentheses are a term. -/
theorem ReadsWhole.enclosed (h : ReadsWhole ws e) : ReadsTerm ("(" :: (ws ++ [")"])) e := by
  intro n k ts ts' r pos enough begins behind rest
  rw [List.length_cons, List.length_append, List.length_singleton] at enough
  obtain ⟨n, rfl⟩ : ∃ j, n = j + 1 := ⟨n - 1, by omega⟩
  have first := Tokens.Begins.mark (k := .leftParen) begins
  obtain ⟨m, inner, last⟩ := Tokens.begins_append.1 begins.2
  have close := Tokens.Begins.mark (k := .rightParen) last
  have closed : m.next = ts' := last.2
  have read : expression n ts.next = .ok (e, m) :=
    h (by omega) inner (by rw [Tokens.pull_of_peek close]; decide)
  have term : term (n + 1) ts = .ok (e, ts') := by
    rw [term, first]
    dsimp only
    rw [read]
    change (m.expect .rightParen >>= fun ts => pure (e, ts)) = _
    rw [Tokens.expect_of_peek close, closed]
    rfl
  rw [stepped, term]
  exact rest _ (by omega)

/-! ### Terms -/

/-- One word is a term, if what is behind it does not change it. -/
theorem readsTerm_word (spells : Spells w tok)
    (read : ∀ n ts, ts.peek? = some tok → ts.next.pull ≤ 9 → term (n + 1) ts = .ok (e, ts.next)) :
    ReadsTerm [w] e := by
  intro n k ts ts' r pos enough begins behind rest
  obtain ⟨n, rfl⟩ : ∃ j, n = j + 1 := ⟨n - 1, by omega⟩
  obtain rfl : ts.next = ts' := begins.2
  rw [stepped, read n ts (begins.peek spells) behind]
  exact rest _ (by omega)

theorem readsTerm_number {n : Nat} {h : (Value.int n).isLiteral = true} :
    ReadsTerm [toString n] (@Expr.literal (.int n) h) := by
  refine readsTerm_word (spells_number (le_of_isLiteral h)) fun n ts first _ => ?_
  rw [term, first]
  rfl

theorem readsTerm_bool (b : Bool) : ReadsTerm [toString b] (@Expr.literal (.bool b) rfl) := by
  refine readsTerm_word (spells_bool b) fun n ts first _ => ?_
  rw [term, first]
  cases b <;> rfl

theorem readsTerm_null : ReadsTerm ["null"] (@Expr.literal .null rfl) := by
  refine readsTerm_word spells_null fun n ts first _ => ?_
  rw [term, first]
  rfl

theorem readsTerm_root {name : String} (h : Expr.IsFree name) :
    ReadsTerm [name] (.root name) := by
  refine readsTerm_word (spells_name h.toIsName) fun n ts first behind => ?_
  have free := h.free
  simp only [List.mem_cons, not_or] at free
  have call : ¬ts.next.sees .leftParen = true := by
    intro sees
    rw [Tokens.pull_of_peek (Tokens.sees_iff.1 sees)] at behind
    exact absurd behind (by decide)
  rw [term, first]
  dsimp only
  rw [if_neg free.1, if_neg free.2.1, if_neg free.2.2.1, if_neg call]

theorem readsTerm_attr {name : String} (h : ReadsTerm ws e) (isName : Expr.IsName name) :
    ReadsTerm (ws ++ [".", name]) (.attr e name) := by
  intro n k ts ts' r pos enough begins behind rest
  rw [List.length_append, List.length_cons, List.length_singleton] at enough
  obtain ⟨m, base, step⟩ := Tokens.begins_append.1 begins
  have dot := Tokens.Begins.mark (k := .dot) step
  have ident : m.next.peek? = some (.ident name) :=
    Tokens.Begins.peek step.2 (spells_name isName)
  obtain rfl : m.next.next = ts' := step.2.2
  refine h (k := k + 1) (by omega) (by omega) base ?_ fun j le => ?_
  · rw [Tokens.pull_of_peek dot]
    decide
  · obtain ⟨j, rfl⟩ : ∃ i, j = i + 1 := ⟨j - 1, by omega⟩
    rw [steps, if_pos (Tokens.sees_iff.2 dot), if_neg (Tokens.not_sees ident (by simp)), ident]
    exact rest j (by omega)

theorem readsTerm_index (h : ReadsTerm ws e) (inner : ReadsWhole us a)
    (plain : ∀ ⦃ts ts'⦄, Tokens.Begins ts us ts' → ¬ts.sees .star = true) :
    ReadsTerm (ws ++ "[" :: (us ++ ["]"])) (.index e a) := by
  intro n k ts ts' r pos enough begins behind rest
  rw [List.length_append, List.length_cons, List.length_append, List.length_singleton] at enough
  obtain ⟨m, base, step⟩ := Tokens.begins_append.1 begins
  have bracket := Tokens.Begins.mark (k := .leftBracket) step
  obtain ⟨m', key, last⟩ := Tokens.begins_append.1 step.2
  have close := Tokens.Begins.mark (k := .rightBracket) last
  obtain rfl : m'.next = ts' := last.2
  -- The key needs more calls than the steps behind it may.
  refine h (k := k + 16 * us.length + 11) (by omega) (by omega) base ?_ fun j le => ?_
  · rw [Tokens.pull_of_peek bracket]
    decide
  · obtain ⟨j, rfl⟩ : ∃ i, j = i + 1 := ⟨j - 1, by omega⟩
    have read : expression j m.next = .ok (a, m') :=
      inner (by omega) key (by rw [Tokens.pull_of_peek close]; decide)
    rw [steps, if_neg (Tokens.not_sees bracket (by simp)), if_pos (Tokens.sees_iff.2 bracket),
      if_neg (plain key), read]
    change (m'.expect .rightBracket >>= fun ts => steps j (.index e a) ts) = _
    rw [Tokens.expect_of_peek close]
    exact rest j (by omega)

/-! ### Operators -/

theorem readsUnary_unary (op : Expr.UnaryOp) (h : ReadsUnary ws e) :
    ReadsUnary (op.mark.text :: ws) (.unary op e) := by
  intro n ts ts' enough begins behind
  rw [List.length_cons] at enough
  obtain ⟨n, rfl⟩ : ∃ j, n = j + 1 := ⟨n - 1, by omega⟩
  have first := begins.mark
  have read : unary n ts.next = .ok (e, ts') := h (by omega) begins.2 behind
  rw [unary]
  cases op with
  | not =>
    have mark : ts.sees .not = true := Tokens.sees_iff.2 first
    rw [if_pos mark, read]
    rfl
  | neg =>
    have mark : ts.sees .minus = true := Tokens.sees_iff.2 first
    rw [if_neg (Tokens.not_sees first (by simp [Expr.UnaryOp.mark])), if_pos mark, read]
    rfl

/-- Operators of one level group from the left: the left operand is what has been read so far. -/
theorem readsLeft_binary (op : Expr.BinaryOp) (left : ReadsLeft op.precedence ws a)
    (right : ReadsOperand (op.precedence + 1) us b) :
    ReadsLeft op.precedence (ws ++ op.mark.text :: us) (.binary op a b) := by
  intro n k ts ts' r pos enough begins behind rest
  rw [List.length_append, List.length_cons] at enough
  obtain ⟨m, front, back⟩ := Tokens.begins_append.1 begins
  have operator := back.mark
  -- What is behind the left operand is gone on with by the operator and the right operand.
  refine left (k := k + 16 * us.length + 11) (by omega) (by omega) front ?_ fun j le => ?_
  · rw [Tokens.pull_of_peek operator, pull_mark]
  · obtain ⟨j, rfl⟩ : ∃ i, j = i + 1 := ⟨j - 1, by omega⟩
    have read : binary j (levels.drop (op.precedence - 1)) m.next = .ok (b, ts') :=
      right (by omega) back.2 (Nat.lt_succ_of_le behind)
    rw [binaryRest, Tokens.operator?_some operator]
    dsimp only
    rw [read]
    exact rest j (by omega)

theorem readsWhole_conditional {c : Expr} (condition : ReadsOperand 2 ws c)
    (yes : ReadsWhole us a) (no : ReadsWhole vs b) :
    ReadsWhole (ws ++ "?" :: (us ++ ":" :: vs)) (.conditional c a b) := by
  intro n ts ts' enough begins behind
  rw [List.length_append, List.length_cons, List.length_append, List.length_cons] at enough
  obtain ⟨n, rfl⟩ : ∃ j, n = j + 1 := ⟨n - 1, by omega⟩
  obtain ⟨m, front, back⟩ := Tokens.begins_append.1 begins
  have question := Tokens.Begins.mark (k := .question) back
  obtain ⟨m', middle, last⟩ := Tokens.begins_append.1 back.2
  have colon := Tokens.Begins.mark (k := .colon) last
  have readCondition : binary n levels ts = .ok (c, m) :=
    condition (by omega) front (by rw [Tokens.pull_of_peek question]; decide)
  have readYes : expression n m.next = .ok (a, m') :=
    yes (by omega) middle (by rw [Tokens.pull_of_peek colon]; decide)
  have readNo : expression n m'.next = .ok (b, ts') := no (by omega) last.2 behind
  rw [expression, readCondition]
  refine (if_pos (Tokens.sees_iff.2 question)).trans ?_
  rw [readYes]
  change (m'.expect .colon >>= fun ts => expression n ts >>= fun r =>
    pure (Expr.conditional c a r.1, r.2)) = _
  rw [Tokens.expect_of_peek colon]
  change (expression n m'.next >>= _) = _
  rw [readNo]
  rfl

/-! ### Lists -/

/-- What an expression may begin with. -/
def Token.Leads : Token → Prop
  | .ident name => name ≠ "for"
  | .number _ => True
  | .mark k => k = .leftParen ∨ k = .leftBracket ∨ k = .not ∨ k = .minus
  | .text _ => False

/-- Tokens of which the first one begins an expression. -/
def Tokens.Leads (ts : Tokens) : Prop := ∃ tok, ts.peek? = some tok ∧ tok.Leads

theorem Tokens.Leads.not_sees {k : Mark} (h : ts.Leads) (other : ¬(Token.mark k).Leads) :
    ¬ts.sees k = true := by
  obtain ⟨tok, first, leads⟩ := h
  refine Tokens.not_sees first ?_
  rintro rfl
  exact other leads

theorem Tokens.Leads.not_for (h : ts.Leads) : ts.ident? ≠ some "for" := by
  obtain ⟨tok, first, leads⟩ := h
  unfold ident?
  rw [first]
  cases tok with
  | ident name => exact fun same => leads (Option.some.inj same)
  | _ => simp

/-- Words that are read as a whole expression, beginning with what an expression begins with. -/
structure ReadsMember (ws : List String) (e : Expr) : Prop where
  some : 0 < ws.length
  whole : ReadsWhole ws e
  leads : ∀ ⦃ts ts'⦄, Tokens.Begins ts ws ts' → ts.Leads

theorem length_wordsOfList_cons (some : 0 < e.words.length) (es : List Expr) :
    e.words.length ≤ (Expr.wordsOfList (e :: es)).length ∧
      (Expr.wordsOfList es).length < (Expr.wordsOfList (e :: es)).length := by
  rw [Expr.wordsOfList, List.length_append]
  refine ⟨Nat.le_add_right .., ?_⟩
  cases es with
  | nil => exact Nat.lt_add_right _ some
  | cons e' es =>
    rw [if_neg (by simp), List.length_cons]
    omega

/-- Behind a member of a list is the comma or the end, and behind the comma are the others. -/
theorem begins_wordsOfList {es : List Expr} (close : Mark) (other : close ≠ .comma)
    (closed : close.pull = 0)
    (begins : Tokens.Begins ts (Expr.wordsOfList (e :: es) ++ [close.text]) ts') :
    ∃ m, ts.Begins e.words m ∧ m.pull < 1 ∧ (m.peek? = some (.mark .comma) ∨
      m.peek? = some (.mark close)) ∧
        (if m.sees .comma then m.next else m).Begins (Expr.wordsOfList es ++ [close.text]) ts' := by
  rw [Expr.wordsOfList, List.append_assoc] at begins
  obtain ⟨m, front, back⟩ := Tokens.begins_append.1 begins
  refine ⟨m, front, ?_⟩
  cases es with
  | nil =>
    have last := Tokens.Begins.mark (k := close) back
    rw [if_neg (Tokens.not_sees last (by simpa using other)), Tokens.pull_of_peek last, closed]
    exact ⟨Nat.one_pos, .inr last, back⟩
  | cons e' es =>
    have comma := Tokens.Begins.mark (k := .comma) back
    rw [if_pos (Tokens.sees_iff.2 comma), Tokens.pull_of_peek comma]
    exact ⟨Nat.one_pos, .inl comma, back.2⟩

theorem items_of_begins {es : List Expr} (h : ∀ e ∈ es, ReadsMember e.words e)
    (enough : 16 * (Expr.wordsOfList es).length + 11 ≤ n)
    (begins : Tokens.Begins ts (Expr.wordsOfList es ++ ["]"]) ts') :
    items n ts = .ok (es, ts') := by
  induction es generalizing n ts with
  | nil =>
    obtain ⟨n, rfl⟩ : ∃ j, n = j + 1 := ⟨n - 1, by omega⟩
    obtain rfl : ts.next = ts' := begins.2
    have close := Tokens.Begins.mark (k := .rightBracket) begins
    rw [items, if_pos (Tokens.sees_iff.2 close)]
  | cons e es ih =>
    obtain ⟨n, rfl⟩ : ∃ j, n = j + 1 := ⟨n - 1, by omega⟩
    obtain ⟨first, others⟩ := List.forall_mem_cons.1 h
    obtain ⟨le, less⟩ := length_wordsOfList_cons first.some es
    obtain ⟨m, front, behind, next, back⟩ :=
      begins_wordsOfList .rightBracket (by decide) rfl begins
    have read : expression n ts = .ok (e, m) := first.whole (by omega) front behind
    have more := ih (n := n) others (by omega) back
    have sees : (m.sees .comma || m.sees .rightBracket) = true := by
      rw [Bool.or_eq_true, Tokens.sees_iff, Tokens.sees_iff]
      exact next
    rw [items, if_neg ((first.leads front).not_sees (by simp [Token.Leads])), read]
    refine (if_pos sees).trans ?_
    rw [more]
    rfl

theorem arguments_of_begins {es : List Expr} (h : ∀ e ∈ es, ReadsMember e.words e)
    (enough : 16 * (Expr.wordsOfList es).length + 11 ≤ n)
    (begins : Tokens.Begins ts (Expr.wordsOfList es ++ [")"]) ts') :
    arguments n ts = .ok (es, false, ts') := by
  induction es generalizing n ts with
  | nil =>
    obtain ⟨n, rfl⟩ : ∃ j, n = j + 1 := ⟨n - 1, by omega⟩
    obtain rfl : ts.next = ts' := begins.2
    have close := Tokens.Begins.mark (k := .rightParen) begins
    rw [arguments, if_pos (Tokens.sees_iff.2 close)]
  | cons e es ih =>
    obtain ⟨n, rfl⟩ : ∃ j, n = j + 1 := ⟨n - 1, by omega⟩
    obtain ⟨first, others⟩ := List.forall_mem_cons.1 h
    obtain ⟨le, less⟩ := length_wordsOfList_cons first.some es
    obtain ⟨m, front, behind, next, back⟩ :=
      begins_wordsOfList .rightParen (by decide) rfl begins
    have read : expression n ts = .ok (e, m) := first.whole (by omega) front behind
    have more := ih (n := n) others (by omega) back
    have sees : (m.sees .comma || m.sees .rightParen) = true := by
      rw [Bool.or_eq_true, Tokens.sees_iff, Tokens.sees_iff]
      exact next
    have plain : ¬m.sees .ellipsis = true := by
      rcases next with comma | close
      · exact Tokens.not_sees comma (by simp)
      · exact Tokens.not_sees close (by simp)
    rw [arguments, if_neg ((first.leads front).not_sees (by simp [Token.Leads])), read]
    refine (if_neg plain).trans ((if_pos sees).trans ?_)
    rw [more]
    rfl

theorem readsTerm_list {es : List Expr} (h : ∀ e ∈ es, ReadsMember e.words e) :
    ReadsTerm ("[" :: (Expr.wordsOfList es ++ ["]"])) (.list es) := by
  intro n k ts ts' r pos enough begins behind rest
  rw [List.length_cons, List.length_append, List.length_singleton] at enough
  obtain ⟨n, rfl⟩ : ∃ j, n = j + 1 := ⟨n - 1, by omega⟩
  have first := Tokens.Begins.mark (k := .leftBracket) begins
  have read : items n ts.next = .ok (es, ts') := items_of_begins h (by omega) begins.2
  have plain : ts.next.ident? ≠ some "for" := by
    cases es with
    | nil =>
      have close := Tokens.Begins.mark (k := .rightBracket) begins.2
      unfold Tokens.ident?
      rw [close]
      simp
    | cons e es =>
      have inner := begins.2
      rw [Expr.wordsOfList, List.append_assoc] at inner
      obtain ⟨m, front, -⟩ := Tokens.begins_append.1 inner
      exact ((h e List.mem_cons_self).leads front).not_for
  rw [stepped, term, first]
  dsimp only
  rw [if_neg plain, read]
  exact rest _ (by omega)

theorem readsTerm_call {name : String} {args : List Expr} (free : Expr.IsFree name)
    (h : ∀ e ∈ args, ReadsMember e.words e) :
    ReadsTerm (name :: "(" :: (Expr.wordsOfList args ++ [")"])) (.call name args false) := by
  intro n k ts ts' r pos enough begins behind rest
  rw [List.length_cons, List.length_cons, List.length_append, List.length_singleton] at enough
  obtain ⟨n, rfl⟩ : ∃ j, n = j + 1 := ⟨n - 1, by omega⟩
  have first := begins.peek (spells_name free.toIsName)
  have paren := Tokens.Begins.mark (k := .leftParen) begins.2
  have read : arguments n ts.next.next = .ok (args, false, ts') :=
    arguments_of_begins h (by omega) begins.2.2
  have free := free.free
  simp only [List.mem_cons, not_or] at free
  rw [stepped, term, first]
  dsimp only
  rw [if_neg free.1, if_neg free.2.1, if_neg free.2.2.1, if_pos (Tokens.sees_iff.2 paren), read]
  exact rest _ (by omega)

end Cartograph.Expression

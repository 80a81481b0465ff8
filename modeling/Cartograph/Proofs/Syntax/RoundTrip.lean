import Mathlib
import Cartograph.Proofs.Syntax.Precedence

/-!
# Reading what is written

The words of an expression are read by each level of operators as the expression asks for, in
parentheses or not (`Readable`): by induction over the expression (`readable_of_printable`), each
operator hands its operands on to the levels that it writes them for. So the text of an expression
is read back as that expression (`parseExpression_print`).
-/

namespace Cartograph.Expression

variable {ts ts' : Tokens} {ws us : List String} {e : Expr} {p q : Nat}

/-! ### Places -/

theorem enclosed_of_lt (h : q < p) : Expr.enclosed p q ws = "(" :: (ws ++ [")"]) := if_pos h

theorem enclosed_of_le (h : p ≤ q) : Expr.enclosed p q ws = ws := if_neg (Nat.not_lt.2 h)

/-- Words that begin an expression, and no unary operator if it is a term. -/
structure Heads (p : Nat) (ws : List String) : Prop where
  some : 0 < ws.length
  leads : ∀ ⦃ts ts'⦄, Tokens.Begins ts ws ts' → ts.Leads
  plain : 9 ≤ p → ∀ ⦃ts ts'⦄, Tokens.Begins ts ws ts' → ts.NoUnary

theorem Heads.append (h : Heads p ws) (us : List String) : Heads p (ws ++ us) where
  some := by
    rw [List.length_append]
    exact Nat.lt_add_right _ h.some
  leads _ _ begins := by
    obtain ⟨m, front, -⟩ := Tokens.begins_append.1 begins
    exact h.leads front
  plain term _ _ begins := by
    obtain ⟨m, front, -⟩ := Tokens.begins_append.1 begins
    exact h.plain term front

theorem heads_word {w : String} {tok : Token} (spells : Spells w tok) (leads : tok.Leads)
    (plain : 9 ≤ p → tok ≠ .mark .not ∧ tok ≠ .mark .minus) (ws : List String) :
    Heads p (w :: ws) where
  some := Nat.succ_pos _
  leads _ _ begins := ⟨tok, begins.peek spells, leads⟩
  plain term _ _ begins := ⟨Tokens.not_sees (begins.peek spells) (plain term).1,
    Tokens.not_sees (begins.peek spells) (plain term).2⟩

theorem heads_paren (p : Nat) (ws : List String) : Heads p ("(" :: ws) :=
  heads_word (spells_mark .leftParen) (.inl rfl) (by simp) ws

theorem heads_name {name : String} (free : Expr.IsFree name) (ws : List String) :
    Heads p (name :: ws) := by
  have leads : (Token.ident name).Leads := by
    rintro rfl
    exact free.free (by simp)
  exact heads_word (spells_name free.toIsName) leads (by simp) ws

theorem Heads.enclosed (h : Heads q ws) (p : Nat) : Heads p (Expr.enclosed p q ws) := by
  rcases Nat.lt_or_ge q p with less | le
  · rw [enclosed_of_lt less]
    exact heads_paren ..
  · rw [enclosed_of_le le]
    exact ⟨h.some, h.leads, fun term => h.plain (Nat.le_trans term le)⟩

/-! ### Levels -/

/-- An expression is read from its words at each place, in parentheses where the place asks for
    them. -/
structure Readable (e : Expr) : Prop where
  heads : Heads e.precedence e.words
  whole : ReadsWhole e.words e
  left : ∀ p, 2 ≤ p → p ≤ 7 → ReadsLeft p (Expr.enclosed p e.precedence e.words) e
  operand : ∀ p, 2 ≤ p → p ≤ 8 → ReadsOperand p (Expr.enclosed p e.precedence e.words) e
  unary : ReadsUnary (Expr.enclosed 8 e.precedence e.words) e
  term : ReadsTerm (Expr.enclosed 9 e.precedence e.words) e

/-- What an expression has to be read as at the places that ask for no parentheses. -/
theorem readable_of (heads : Heads e.precedence e.words) (whole : ReadsWhole e.words e)
    (left : 2 ≤ e.precedence → e.precedence ≤ 7 → ReadsLeft e.precedence e.words e)
    (operand : ∀ p, 2 ≤ p → p ≤ 8 → p ≤ e.precedence → ReadsOperand p e.words e)
    (unary : 8 ≤ e.precedence → ReadsUnary e.words e)
    (term : 9 ≤ e.precedence → ReadsTerm e.words e) : Readable e := by
  have paren : ReadsTerm ("(" :: (e.words ++ [")"])) e := whole.enclosed
  have parenUnary := paren.unary ((heads_paren 9 _).plain (Nat.le_refl 9))
  have operand : ∀ p, 2 ≤ p → p ≤ 8 → ReadsOperand p (Expr.enclosed p e.precedence e.words) e := by
    intro p low high
    rcases Nat.lt_or_ge e.precedence p with less | le
    · rw [enclosed_of_lt less]
      exact parenUnary.operand.looser (Nat.le_refl 8) low high
    · rw [enclosed_of_le le]
      exact operand p low high le
  refine ⟨heads, whole, fun p low high => ?_, operand, ?_, ?_⟩
  · -- At the level of the expression itself it is read in the loop, elsewhere as an operand.
    by_cases same : e.precedence = p
    · subst same
      rw [enclosed_of_le (Nat.le_refl _)]
      exact left low high
    · have tighter := operand (p + 1) (by omega) (by omega)
      have words : Expr.enclosed (p + 1) e.precedence e.words =
          Expr.enclosed p e.precedence e.words := by
        unfold Expr.enclosed
        exact if_congr (by omega) rfl rfl
      rw [words] at tighter
      exact tighter.left low high
  · rcases Nat.lt_or_ge e.precedence 8 with less | le
    · rw [enclosed_of_lt less]
      exact parenUnary
    · rw [enclosed_of_le le]
      exact unary le
  · rcases Nat.lt_or_ge e.precedence 9 with less | le
    · rw [enclosed_of_lt less]
      exact paren
    · rw [enclosed_of_le le]
      exact term le

theorem readable_of_whole (loose : e.precedence < 2) (heads : Heads e.precedence e.words)
    (h : ReadsWhole e.words e) : Readable e :=
  readable_of heads h (by omega) (by omega) (by omega) (by omega)

theorem readable_of_left (low : 2 ≤ e.precedence) (high : e.precedence ≤ 7)
    (heads : Heads e.precedence e.words) (h : ReadsLeft e.precedence e.words e) : Readable e := by
  have operand := h.operand low high
  refine readable_of heads (operand.looser (by omega) (Nat.le_refl 2) low).whole
    (fun _ _ => h) (fun p low' _ le => operand.looser (by omega) low' le) (by omega) (by omega)

theorem readable_of_unary (same : e.precedence = 8) (heads : Heads e.precedence e.words)
    (h : ReadsUnary e.words e) : Readable e := by
  have looser (p : Nat) (low : 2 ≤ p) (high : p ≤ 8) := h.operand.looser (Nat.le_refl 8) low high
  exact readable_of heads (looser 2 (by omega) (by omega)).whole (by omega)
    (fun p low high _ => looser p low high) (fun _ => h) (by omega)

theorem readable_of_term (same : e.precedence = 9) (heads : Heads e.precedence e.words)
    (h : ReadsTerm e.words e) : Readable e := by
  have unary := h.unary (heads.plain (by omega))
  have looser (p : Nat) (low : 2 ≤ p) (high : p ≤ 8) :=
    unary.operand.looser (Nat.le_refl 8) low high
  exact readable_of heads (looser 2 (by omega) (by omega)).whole (by omega)
    (fun p low high _ => looser p low high) (fun _ => unary) (fun _ => h)

theorem Readable.member (h : Readable e) : ReadsMember e.words e :=
  ⟨h.heads.some, h.whole, h.heads.leads⟩

/-! ### Expressions -/

/-- Each operator hands its operands on to the levels that it writes them for. -/
theorem readable_of_printable (h : e.Printable) : Readable e := by
  induction h with
  | @int n fits =>
    exact readable_of_term rfl
      (heads_word (spells_number (le_of_isLiteral fits)) trivial (by simp) []) readsTerm_number
  | @bool b =>
    have leads : (Token.ident (toString b)).Leads := by
      cases b
      · exact (by decide : "false" ≠ "for")
      · exact (by decide : "true" ≠ "for")
    exact readable_of_term rfl (heads_word (spells_bool b) leads (by simp) []) (readsTerm_bool b)
  | null =>
    have leads : (Token.ident "null").Leads := by simp [Token.Leads]
    exact readable_of_term rfl (heads_word spells_null leads (by simp) []) readsTerm_null
  | root free => exact readable_of_term rfl (heads_name free _) (readsTerm_root free)
  | @attr e name _ isName ih =>
    exact readable_of_term rfl ((ih.heads.enclosed 9).append _) (readsTerm_attr ih.term isName)
  | @index e key _ _ ih ih' =>
    refine readable_of_term rfl ((ih.heads.enclosed 9).append _)
      (readsTerm_index ih.term ih'.whole ?_)
    intro ts ts' begins
    exact (ih'.heads.leads begins).not_sees (by simp [Token.Leads])
  | @unary op e _ ih =>
    refine readable_of_unary rfl ?_ (readsUnary_unary op ih.unary)
    have leads : (Token.mark op.mark).Leads := by
      cases op <;> simp [Token.Leads, Expr.UnaryOp.mark]
    exact heads_word (spells_mark op.mark) leads (by simp [Expr.precedence]) _
  | @binary op a b _ _ ih ih' =>
    obtain ⟨low, high⟩ := precedence_bounds op
    exact readable_of_left low high ((ih.heads.enclosed _).append _)
      (readsLeft_binary op (ih.left _ low high) (ih'.operand _ (by omega) (by omega)))
  | @conditional c a b _ _ _ ih ih' ih'' =>
    have heads := (ih.heads.enclosed 2).append ("?" :: (a.words ++ ":" :: b.words))
    refine readable_of_whole (Nat.lt_succ_self 1)
      ⟨heads.some, heads.leads, by simp [Expr.precedence]⟩ ?_
    exact (readsWhole_conditional (ih.operand 2 (by omega) (by omega)) ih'.whole ih''.whole)
  | @list es _ ih =>
    refine readable_of_term rfl ?_ (readsTerm_list fun e listed => (ih e listed).member)
    exact heads_word (spells_mark .leftBracket) (by simp [Token.Leads]) (by simp) _
  | @call name args free _ ih =>
    exact readable_of_term rfl (heads_name free _)
      (readsTerm_call free fun e listed => (ih e listed).member)

/-! ### Texts -/

theorem length_le_weights (ts : List Spanned) : ts.length ≤ Spanned.weights ts := by
  induction ts with
  | nil => exact Nat.zero_le _
  | cons s ts ih =>
    obtain ⟨tok, offset⟩ := s
    have one : 1 ≤ (Spanned.mk tok offset).weight := by
      cases tok <;> simp [Spanned.weight, Token.weight]
    rw [List.length_cons, Spanned.weights]
    omega

/-- An expression is read back from its text. -/
theorem parseExpression_print {e : Expr} (h : e.Printable) : parseExpression e.print = .ok e := by
  obtain ⟨ts, cut, each⟩ := tokenize_words (legible_words h)
  have length : e.words.length = ts.length := each.length_eq
  have weights := length_le_weights ts
  have begins := Tokens.begins_of_spells each e.print.utf8ByteSize
  have read : expression (depthFor (Spanned.weights ts)) ⟨ts, e.print.utf8ByteSize⟩ =
      .ok (e, ⟨[], e.print.utf8ByteSize⟩) := by
    refine (readable_of_printable h).whole ?_ begins Nat.one_pos
    unfold depthFor
    omega
  unfold parseExpression
  rw [Expr.print] at read ⊢
  rw [cut]
  change (expression (depthFor (Spanned.weights ts)) ⟨ts, _⟩ >>= _) = _
  rw [read]
  rfl

/-- A product that needs parentheses for the sum and for the difference on the right, and for
    nothing else. -/
theorem parseExpression_print_product :
    parseExpression "( a + 1 ) * - min ( a ? true : null , [ 2 - ( 3 - 4 ) ] ) . b" =
      .ok (.binary .mul (.binary .add (.root "a") (@Expr.literal (.int 1) rfl))
        (.unary .neg (.attr (.call "min" [
          .conditional (.root "a") (@Expr.literal (.bool true) rfl) (@Expr.literal .null rfl),
          .list [.binary .sub (@Expr.literal (.int 2) rfl)
            (.binary .sub (@Expr.literal (.int 3) rfl) (@Expr.literal (.int 4) rfl))]] false)
              "b"))) := by
  have a : Expr.IsFree "a" :=
    ⟨isName_ofList (c := 'a') (s := []) (by decide) (by decide), by simp⟩
  have b : Expr.IsName "b" := isName_ofList (c := 'b') (s := []) (by decide) (by decide)
  have min : Expr.IsFree "min" :=
    ⟨isName_ofList (c := 'm') (s := ['i', 'n']) (by decide) (by decide), by simp⟩
  have number (n : Nat) (h : (Value.int n).isLiteral = true) :
      Expr.Printable (@Expr.literal (.int n) h) := .int
  refine (congrArg parseExpression ?_).trans (parseExpression_print ?_)
  · cbv
  · refine .binary (.binary (.root a) (number 1 rfl)) (.unary (.attr (.call min ?_) b))
    simp only [List.forall_mem_cons]
    refine ⟨.conditional (.root a) .bool .null, .list ?_, by simp⟩
    simp only [List.forall_mem_cons]
    exact ⟨.binary (number 2 rfl) (.binary (number 3 rfl) (number 4 rfl)), by simp⟩

end Cartograph.Expression

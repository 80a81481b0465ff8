import Mathlib
import Cartograph.Expression.Evaluation
import Cartograph.Proofs.Decimal
import Cartograph.Proofs.Decimal.Arithmetic

/-!
# Arithmetic on integers in expressions

Integers have 64 bits, and a binary operator works on them as numbers of double precision, which
have 53 digits. So both operands are rounded to the nearest integer that is short enough
(`nearest`), the operator is applied to these, and its result is rounded as well, within the range
of words (`applyBinary_arithmetic`). Comparisons are those of the rounded operands
(`applyBinary_comparison`). Only the negation looks at the integer itself.

The main statement, `eval_integers`, adds when this is exact: operands of at most 53 digits are
compared as they are, and if the exact result for such operands is a word, it is what comes out just
if it has no more digits either, the greatest word aside.
-/

namespace Cartograph.Expression

open Decimal

variable {scope : Scope} {env : Bindings} {e₁ e₂ : Expr} {v w : Value} {op : Expr.BinaryOp}
variable {a b : Int}

/-- The operation on integers that an operator is named for, if its result is one. -/
def arithmetic? : Expr.BinaryOp → Option (Int → Int → Int)
  | .add => some (· + ·)
  | .sub => some (· - ·)
  | .mul => some (· * ·)
  | _ => none

/-- The relation between integers that an operator is named for. -/
def comparison? : Expr.BinaryOp → Option (Int → Int → Bool)
  | .eq => some fun i j => i = j
  | .ne => some fun i j => i ≠ j
  | .lt => some fun i j => i < j
  | .le => some fun i j => i ≤ j
  | .gt => some fun i j => i > j
  | .ge => some fun i j => i ≥ j
  | _ => none

/-! ### Words as numbers -/

theorem moderate_of_isWord (h : IsWord a) : Moderate a := by
  obtain ⟨low, high⟩ := h
  unfold minInt at low
  unfold maxInt at high
  unfold Moderate
  omega

/-- A rounded word is at most the power of two that is one above the greatest word. -/
theorem nearest_of_isWord (h : IsWord a) : -2 ^ 63 ≤ nearest a ∧ nearest a ≤ 2 ^ 63 := by
  obtain ⟨low, high⟩ := h
  unfold minInt at low
  unfold maxInt at high
  have least : nearest (-2 ^ 63) = -2 ^ 63 := by decide
  have greatest : nearest (2 ^ 63) = 2 ^ 63 := by decide
  exact ⟨least ▸ nearest_mono (by omega), greatest ▸ nearest_mono (by omega)⟩

theorem moderate_add (ha : IsWord a) (hb : IsWord b) : Moderate (nearest a + nearest b) := by
  obtain ⟨la, ua⟩ := nearest_of_isWord ha
  obtain ⟨lb, ub⟩ := nearest_of_isWord hb
  unfold Moderate
  omega

theorem moderate_sub (ha : IsWord a) (hb : IsWord b) : Moderate (nearest a - nearest b) := by
  obtain ⟨la, ua⟩ := nearest_of_isWord ha
  obtain ⟨lb, ub⟩ := nearest_of_isWord hb
  unfold Moderate
  omega

theorem moderate_mul (ha : IsWord a) (hb : IsWord b) : Moderate (nearest a * nearest b) := by
  obtain ⟨la, ua⟩ := nearest_of_isWord ha
  obtain ⟨lb, ub⟩ := nearest_of_isWord hb
  have product : (nearest a).natAbs * (nearest b).natAbs ≤ 2 ^ 63 * 2 ^ 63 :=
    Nat.mul_le_mul (by omega) (by omega)
  rw [Moderate, Int.natAbs_mul]
  omega

/-! ### Operators -/

theorem meaning_constant (r : Result Value) : meaning scope env (constant r) = r := by
  cases r <;> rfl

/-- All operators but the logical ones are applied to the values of both operands. -/
theorem eval_binary (op : Expr.BinaryOp) (and : op ≠ .and) (or : op ≠ .or)
    (h₁ : eval scope e₁ env = .ok v) (h₂ : eval scope e₂ env = .ok w) :
    eval scope (.binary op e₁ e₂) env = applyBinary op v w := by
  have both : (do
      let x ← meaning scope env (reduce scope e₁ env)
      let y ← meaning scope env (reduce scope e₂ env)
      applyBinary op x y) = applyBinary op v w := by
    rw [← eval, ← eval, h₁, h₂]
    rfl
  rw [← both, eval, reduce]
  · exact meaning_constant _
  · exact and
  · exact or

theorem eval_unary (op : Expr.UnaryOp) (h : eval scope e₁ env = .ok v) :
    eval scope (.unary op e₁) env = applyUnary op v := by
  rw [eval, reduce, ← eval, h]
  exact meaning_constant _

/-- An operation on two words rounds both, and its result. -/
theorem applyBinary_arithmetic {f : Int → Int → Int} (ha : IsWord a) (hb : IsWord b)
    (hf : arithmetic? op = some f) :
    applyBinary op (.int a) (.int b) =
      .ok (.int (clamp (nearest (f (nearest a) (nearest b))))) := by
  have ma := moderate_of_isWord ha
  have mb := moderate_of_isWord hb
  have whole (x : Float) (i : Int) (same : rank x = rank (ofInt i)) (moderate : Moderate i) :
      (.ok (ofArithmetic true x) : Result Value) = .ok (.int (clamp (nearest i))) := by
    rw [ofArithmetic, if_pos rfl, truncate_eq_of_rank_eq same, truncate_ofInt moderate]
  cases op
  case add =>
    obtain rfl := Option.some.inj hf
    exact whole _ _ (congrArg rank (ofInt_add ma mb (moderate_add ha hb))) (moderate_add ha hb)
  case sub =>
    obtain rfl := Option.some.inj hf
    exact whole _ _ (congrArg rank (ofInt_sub ma mb (moderate_sub ha hb))) (moderate_sub ha hb)
  case mul =>
    obtain rfl := Option.some.inj hf
    exact whole _ _ (rank_ofInt_mul ma mb (moderate_mul ha hb)) (moderate_mul ha hb)
  all_goals exact absurd hf.symm (Option.some_ne_none f)

/-- A comparison of two words is that of the words when rounded. -/
theorem applyBinary_comparison {r : Int → Int → Bool} (ha : IsWord a) (hb : IsWord b)
    (hr : comparison? op = some r) :
    applyBinary op (.int a) (.int b) = .ok (.bool (r (nearest a) (nearest b))) := by
  have ma := moderate_of_isWord ha
  have mb := moderate_of_isWord hb
  have same : (ofInt a == ofInt b) = decide (nearest a = nearest b) := by
    rw [Bool.eq_iff_iff, decide_eq_true_iff]
    exact ofInt_beq_iff ma mb
  have answer {s t : Bool} (equal : s = t) :
      (.ok (.bool s) : Result Value) = .ok (.bool t) := by rw [equal]
  cases op
  case eq =>
    obtain rfl := Option.some.inj hr
    exact answer same
  case ne =>
    obtain rfl := Option.some.inj hr
    exact answer ((congrArg not same).trans decide_not.symm)
  case lt =>
    obtain rfl := Option.some.inj hr
    exact answer (decide_eq_decide.2 (ofInt_lt_iff ma mb))
  case le =>
    obtain rfl := Option.some.inj hr
    exact answer (decide_eq_decide.2 (ofInt_le_iff ma mb))
  case gt =>
    obtain rfl := Option.some.inj hr
    exact answer (decide_eq_decide.2 (ofInt_lt_iff mb ma))
  case ge =>
    obtain rfl := Option.some.inj hr
    exact answer (decide_eq_decide.2 (ofInt_le_iff mb ma))
  all_goals exact absurd hr.symm (Option.some_ne_none r)

/-! ### Exact results -/

/-- A word is left alone if it is short enough. The greatest word is none of those, but what it is
    rounded to is beyond the range, which ends with it. -/
theorem clamp_nearest_eq_iff (h : IsWord a) :
    clamp (nearest a) = a ↔ Short a ∨ a = maxInt := by
  obtain ⟨least, most⟩ := nearest_of_isWord h
  obtain ⟨low, high⟩ := h
  rw [← nearest_eq_self_iff]
  unfold clamp minInt at *
  unfold maxInt at *
  constructor
  · intro same
    omega
  · rintro (same | rfl)
    · omega
    · decide

variable {f : Int → Int → Int} {r : Int → Int → Bool}

/-- What the operators that give an integer or a truth value make of two integers. -/
theorem eval_integers (ha : IsWord a) (hb : IsWord b) (h₁ : eval scope e₁ env = .ok (.int a))
    (h₂ : eval scope e₂ env = .ok (.int b)) :
    (∀ op f, arithmetic? op = some f →
      eval scope (.binary op e₁ e₂) env =
          .ok (.int (clamp (nearest (f (nearest a) (nearest b))))) ∧
        (Short a → Short b → IsWord (f a b) →
          (eval scope (.binary op e₁ e₂) env = .ok (.int (f a b)) ↔
            Short (f a b) ∨ f a b = maxInt))) ∧
    (∀ op r, comparison? op = some r →
      eval scope (.binary op e₁ e₂) env = .ok (.bool (r (nearest a) (nearest b))) ∧
        (Short a → Short b → eval scope (.binary op e₁ e₂) env = .ok (.bool (r a b)))) ∧
    eval scope (.unary .neg e₁) env = .ok (.int (if a = minInt then minInt else -a)) := by
  refine ⟨fun op f hf => ?_, fun op r hr => ?_, eval_unary .neg h₁⟩
  · have strict : op ≠ .and ∧ op ≠ .or := by
      constructor <;> rintro rfl <;> exact absurd hf.symm (Option.some_ne_none f)
    rw [eval_binary op strict.1 strict.2 h₁ h₂, applyBinary_arithmetic ha hb hf]
    refine ⟨rfl, fun sa sb word => ?_⟩
    rw [nearest_eq_self_iff.2 sa, nearest_eq_self_iff.2 sb, ← clamp_nearest_eq_iff word,
      Except.ok.injEq, Value.int.injEq]
  · have strict : op ≠ .and ∧ op ≠ .or := by
      constructor <;> rintro rfl <;> exact absurd hr.symm (Option.some_ne_none r)
    rw [eval_binary op strict.1 strict.2 h₁ h₂, applyBinary_comparison ha hb hr]
    refine ⟨rfl, fun sa sb => ?_⟩
    rw [nearest_eq_self_iff.2 sa, nearest_eq_self_iff.2 sb]

/-- A scope that knows no names. -/
def unknowing : Scope where
  lookup _ _ := .pending

/-- Two neighbours of which the greater has 54 digits, the least number, and one. -/
def neighbours : Bindings :=
  [("even", .int 9007199254740992), ("odd", .int 9007199254740993), ("least", .int minInt),
    ("one", .int 1)]

/-- The theorem at the first integer that has too many digits: it counts as the one before it. -/
theorem eval_integers_odd :
    IsWord 9007199254740993 ∧ IsWord 1 ∧
      eval unknowing (.root "odd") neighbours = .ok (.int 9007199254740993) ∧
      eval unknowing (.root "one") neighbours = .ok (.int 1) ∧
      eval unknowing (.binary .sub (.root "odd") (.root "one")) neighbours =
        .ok (.int 9007199254740991) ∧
      eval unknowing (.binary .lt (.root "odd") (.root "one")) neighbours = .ok (.bool false) ∧
      eval unknowing (.unary .neg (.root "odd")) neighbours = .ok (.int (-9007199254740993)) := by
  have first : eval unknowing (.root "odd") neighbours = .ok (.int 9007199254740993) := rfl
  have second : eval unknowing (.root "one") neighbours = .ok (.int 1) := rfl
  obtain ⟨operations, relations, negation⟩ := eval_integers (by decide) (by decide) first second
  have less : clamp (nearest (nearest 9007199254740993 - nearest 1)) = 9007199254740991 := by
    decide
  exact ⟨by decide, by decide, first, second, less ▸ (operations .sub _ rfl).1,
    (relations .lt _ rfl).1, negation⟩

/-- The sum of two numbers is off by one, although it is a word; neighbours count as the same
    number, and neither comes before the other; and the least number is its own opposite. -/
theorem eval_integers_inexact :
    eval unknowing (.binary .add (.root "even") (.root "one")) neighbours =
        .ok (.int (9007199254740992 + 1 - 1)) ∧ IsWord (9007199254740992 + 1) ∧
      eval unknowing (.binary .eq (.root "odd") (.root "even")) neighbours = .ok (.bool true) ∧
      eval unknowing (.binary .lt (.root "even") (.root "odd")) neighbours = .ok (.bool false) ∧
      eval unknowing (.unary .neg (.root "least")) neighbours = .ok (.int minInt) := by
  have even : eval unknowing (.root "even") neighbours = .ok (.int 9007199254740992) := rfl
  have odd : eval unknowing (.root "odd") neighbours = .ok (.int 9007199254740993) := rfl
  have one : eval unknowing (.root "one") neighbours = .ok (.int 1) := rfl
  refine ⟨?_, by decide, ?_, ?_, rfl⟩
  · rw [eval_binary .add nofun nofun even one, applyBinary_arithmetic (by decide) (by decide) rfl]
    have rounded : clamp (nearest (nearest 9007199254740992 + nearest 1)) =
        9007199254740992 := by decide
    exact congrArg (fun i => Except.ok (Value.int i)) rounded
  · rw [eval_binary .eq nofun nofun odd even, applyBinary_comparison (by decide) (by decide) rfl]
    rfl
  · rw [eval_binary .lt nofun nofun even odd, applyBinary_comparison (by decide) (by decide) rfl]
    rfl

end Cartograph.Expression

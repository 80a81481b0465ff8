import Mathlib.Data.List.Forall2
import Cartograph.Expression.Evaluation

/-!
# Waiting for values

An evaluation stops at a name whose value is pending, and nothing goes on from there. So what
a scope has not answered yet can only be waited for: if a later scope gives the answers of an
earlier one wherever that had any (`Scope.Before`), every expression has the result in the later
scope that it had in the earlier one, unless it was still waiting there (`eval_before`).

A result that waits comes before every result, and any other only before itself (`Before`). This is
kept by each way to put results together, also by those that go on at an obstacle: `try` and `can`
do not go on at something pending.
-/

namespace Cartograph.Expression

/-- The earlier result waits for something, or the later one is the same. -/
def Before {α : Type} (x y : Result α) : Prop := x = .error .pending ∨ x = y

/-- The earlier answer waits for something, or the later one is the same. -/
def Answer.Before (x y : Answer) : Prop := x = .pending ∨ x = y

/-- A later scope gives the answers of an earlier one, wherever that had any. -/
def Scope.Before (s t : Scope) : Prop :=
  ∀ root steps, (s.lookup root steps).Before (t.lookup root steps)

variable {α β : Type} {s t : Scope} {env : Bindings}

/-! ### Results -/

namespace Before

theorem refl (x : Result α) : Before x x := .inr rfl

/-- What the earlier result is, if it is not pending, the later one is too. -/
theorem eq_of_ne {x y : Result α} (h : Before x y) (ne : x ≠ .error .pending) : y = x :=
  (h.resolve_left ne).symm

theorem ok {x y : Result α} {a : α} (h : Before x y) (hx : x = .ok a) : y = .ok a :=
  (h.eq_of_ne (by simp [hx])).trans hx

theorem bind {x y : Result α} {f g : α → Result β} (h : Before x y)
    (each : ∀ a, Before (f a) (g a)) : Before (x >>= f) (y >>= g) := by
  rcases h with rfl | rfl
  · exact .inl rfl
  · cases x with
    | error stop => exact refl _
    | ok a => exact each a

theorem map {x y : Result α} (h : Before x y) (f : α → β) : Before (x.map f) (y.map f) := by
  rcases h with rfl | rfl
  · exact .inl rfl
  · exact refl _

theorem ite {p : Prop} [Decidable p] {x x' y y' : Result α} (h : Before x y) (h' : Before x' y') :
    Before (if p then x else x') (if p then y else y') := by
  split
  · exact h
  · exact h'

end Before

/-! ### What evaluations are made of -/

theorem follow_before (h : s.Before t) (root : Root) (steps : List Step) :
    Before (follow s env root steps) (follow t env root steps) := by
  cases root with
  | value v => exact .refl _
  | name n =>
    rw [follow, follow]
    -- Only a name that is not bound is asked of the scope.
    split
    · exact .refl _
    · rcases h n steps with waits | same
      · exact .inl (by rw [waits])
      · exact same ▸ .refl _

theorem meaning_before (h : s.Before t) {x y : Result (Root × List Step)} (hr : Before x y) :
    Before (meaning s env x) (meaning t env y) :=
  hr.bind fun (root, steps) => follow_before h root steps

theorem applyLogical_before {decisive : Bool} {v : Value} {f g : Unit → Result Value}
    (h : Before (f ()) (g ())) : Before (applyLogical decisive v f) (applyLogical decisive v g) :=
  (Before.refl _).bind fun _ => .ite (.refl _) <| h.bind fun _ => .refl _

theorem keeps_before {c d : Option (Bindings → Result Value)}
    (h : Option.Rel (fun f g => ∀ env, Before (f env) (g env)) c d) (env : Bindings) :
    Before (keeps c env) (keeps d env) := by
  cases h with
  | none => exact .refl _
  | some h => exact (h env).bind fun _ => .refl _

theorem forList_before {c d : Option (Bindings → Result Value)} {f g : Bindings → Result Value}
    (hc : Option.Rel (fun f g => ∀ env, Before (f env) (g env)) c d)
    (hv : ∀ env, Before (f env) (g env)) (envs : List Bindings) :
    Before (forList c f envs) (forList d g envs) := by
  induction envs with
  | nil => exact .refl _
  | cons env rest ih =>
    refine (keeps_before hc env).bind fun _ => .ite ?_ ih
    exact (hv env).bind fun _ => ih.bind fun _ => .refl _

theorem forMap_before {c d : Option (Bindings → Result Value)}
    {key key' value value' : Bindings → Result Value} {grouping : Bool}
    (hc : Option.Rel (fun f g => ∀ env, Before (f env) (g env)) c d)
    (hk : ∀ env, Before (key env) (key' env)) (hv : ∀ env, Before (value env) (value' env))
    (envs : List Bindings) (entries : Attributes) :
    Before (forMap c key value grouping entries envs) (forMap d key' value' grouping entries envs)
    := by
  induction envs generalizing entries with
  | nil => exact .refl _
  | cons env rest ih =>
    refine (keeps_before hc env).bind fun _ => .ite ?_ (ih entries)
    refine (hv env).bind fun _ => (hk env).bind fun _ => (Before.refl _).bind fun _ => ?_
    exact (Before.refl _).bind fun entries => ih entries

/-- An obstacle lets the next attempt begin, and so it does later; a pending attempt ends them
    all. -/
theorem firstOf_before {as bs : List (Unit → Result Value)} {last : Obstacle}
    (h : List.Forall₂ (fun a b => Before (a ()) (b ())) as bs) :
    Before (firstOf last as) (firstOf last bs) := by
  induction h generalizing last with
  | nil => exact .refl _
  | cons first rest ih =>
    rw [firstOf, firstOf]
    rcases first with waits | same
    · exact .inl (by rw [waits])
    · -- The attempt has come to an end, so it decides alike whether the next one begins.
      rw [same]
      split
      · exact .ite ih (.refl _)
      · exact .refl _
      · exact ih

theorem canAny_before {as bs : List (Unit → Result Value)}
    (h : List.Forall₂ (fun a b => Before (a ()) (b ())) as bs) :
    Before (canAny as) (canAny bs) := by
  rw [canAny, canAny]
  have first : Before (firstOf .noArguments as) (firstOf .noArguments bs) := firstOf_before h
  rcases first with waits | same
  · exact .inl (by rw [waits])
  · rw [same]
    exact .refl _

theorem constant_before {x y : Result Value} (h : Before x y) :
    Before (constant x) (constant y) := h.map _

/-! ### Expressions -/

mutual

theorem reduce_before (h : s.Before t) : ∀ (e : Expr) (env : Bindings),
    Before (reduce s e env) (reduce t e env)
  | .root name, env => by
    rw [reduce, reduce]
    exact .refl _
  | .attr e name, env => by
    rw [reduce, reduce]
    exact (reduce_before h e env).bind fun _ => .refl _
  | .index e key, env => by
    rw [reduce, reduce]
    refine (reduce_before h e env).bind fun _ => ?_
    refine (meaning_before h (reduce_before h key env)).bind fun _ => .refl _
  | .splat e rest, env => by
    rw [reduce, reduce]
    refine (reduce_before h e env).bind fun _ => ?_
    exact (evalSteps_before h rest env).bind fun _ => .refl _
  | .literal v, env => by
    rw [reduce, reduce]
    exact .refl _
  | .template pieces, env => by
    rw [reduce, reduce]
    exact constant_before ((evalPieces_before h pieces env).map _)
  | .list items, env => by
    rw [reduce, reduce]
    exact constant_before ((evalList_before h items env).map _)
  | .object entries, env => by
    rw [reduce, reduce]
    exact constant_before ((evalEntries_before h entries [] env).map _)
  | .unary op e, env => by
    rw [reduce, reduce]
    exact constant_before ((meaning_before h (reduce_before h e env)).bind fun _ => .refl _)
  | .binary op a b, env => by
    have left : Before (meaning s env (reduce s a env)) (meaning t env (reduce t a env)) :=
      meaning_before h (reduce_before h a env)
    have right : Before (meaning s env (reduce s b env)) (meaning t env (reduce t b env)) :=
      meaning_before h (reduce_before h b env)
    -- Logical operators begin with the right operand only if the left one does not decide.
    cases op
    case or | and =>
      rw [reduce, reduce]
      exact constant_before (left.bind fun _ => applyLogical_before right)
    all_goals
      simp only [reduce]
      exact constant_before (left.bind fun _ => right.bind fun _ => .refl _)
  | .conditional c a b, env => by
    rw [reduce, reduce]
    refine constant_before ((meaning_before h (reduce_before h c env)).bind fun _ => ?_)
    refine (Before.refl _).bind fun v => ?_
    cases v.asBool? with
    | none => exact .refl _
    | some yes =>
      cases yes with
      | true => exact meaning_before h (reduce_before h a env)
      | false => exact meaning_before h (reduce_before h b env)
  | .call name args spread, env => by
    rw [reduce, reduce]
    have tries := attempts_before h args env
    refine constant_before (.ite (firstOf_before tries) (.ite (canAny_before tries) ?_))
    exact (evalList_before h args env).bind fun _ => .refl _
  | .forEach keyVar valueVar collection key value condition grouping, env => by
    rw [reduce, reduce]
    refine constant_before ((meaning_before h (reduce_before h collection env)).bind fun _ => ?_)
    refine (Before.refl _).bind fun _ => (Before.refl _).bind fun _ => ?_
    have kept := evalOption_before h condition
    have body : ∀ env, Before (meaning s env (reduce s value env))
        (meaning t env (reduce t value env)) := fun env =>
      meaning_before h (reduce_before h value env)
    dsimp only
    -- The key is left out before and after, or in neither.
    have keyed := evalOption_before h key
    revert keyed
    generalize evalOption s key = k
    generalize evalOption t key = k'
    intro keyed
    cases keyed with
    | none => exact (forList_before kept body _).map _
    | some keyed => exact (forMap_before kept keyed body _ _).map _

theorem evalList_before (h : s.Before t) : ∀ (es : List Expr) (env : Bindings),
    Before (evalList s es env) (evalList t es env)
  | [], env => by
    rw [evalList, evalList]
    exact .refl _
  | e :: es, env => by
    rw [evalList, evalList]
    refine (meaning_before h (reduce_before h e env)).bind fun _ => ?_
    exact (evalList_before h es env).bind fun _ => .refl _

theorem evalEntries_before (h : s.Before t) : ∀ (entries : List (Expr × Expr)) (done : Attributes)
    (env : Bindings), Before (evalEntries s entries done env) (evalEntries t entries done env)
  | [], done, env => by
    rw [evalEntries, evalEntries]
    exact .refl _
  | (k, e) :: rest, done, env => by
    rw [evalEntries, evalEntries]
    refine (meaning_before h (reduce_before h k env)).bind fun _ => (Before.refl _).bind fun _ => ?_
    refine (meaning_before h (reduce_before h e env)).bind fun _ => ?_
    exact evalEntries_before h rest _ env

theorem evalPieces_before (h : s.Before t) : ∀ (pieces : List (Expr.Piece Expr)) (env : Bindings),
    Before (evalPieces s pieces env) (evalPieces t pieces env)
  | [], env => by
    rw [evalPieces, evalPieces]
    exact .refl _
  | .literal l :: ps, env => by
    rw [evalPieces, evalPieces]
    exact (evalPieces_before h ps env).bind fun _ => .refl _
  | .interpolation e :: ps, env => by
    rw [evalPieces, evalPieces]
    refine (meaning_before h (reduce_before h e env)).bind fun _ => ?_
    exact (evalPieces_before h ps env).bind fun _ => .refl _

theorem evalSteps_before (h : s.Before t) : ∀ (steps : List (Expr.Traversal Expr)) (env : Bindings),
    Before (evalSteps s steps env) (evalSteps t steps env)
  | [], env => by
    rw [evalSteps, evalSteps]
    exact .refl _
  | .attr name :: rest, env => by
    rw [evalSteps, evalSteps]
    exact (evalSteps_before h rest env).bind fun _ => .refl _
  | .index e :: rest, env => by
    rw [evalSteps, evalSteps]
    refine (meaning_before h (reduce_before h e env)).bind fun _ => ?_
    exact (evalSteps_before h rest env).bind fun _ => .refl _

theorem evalOption_before (h : s.Before t) : ∀ e : Option Expr,
    Option.Rel (fun f g => ∀ env, Before (f env) (g env)) (evalOption s e) (evalOption t e)
  | none => by
    rw [evalOption, evalOption]
    exact .none
  | some e => by
    rw [evalOption, evalOption]
    exact .some fun env => meaning_before h (reduce_before h e env)

theorem attempts_before (h : s.Before t) : ∀ (es : List Expr) (env : Bindings),
    List.Forall₂ (fun a b => Before (a ()) (b ())) (attempts s es env) (attempts t es env)
  | [], env => by
    rw [attempts, attempts]
    exact .nil
  | e :: es, env => by
    rw [attempts, attempts]
    exact .cons (meaning_before h (reduce_before h e env)) (attempts_before h es env)

end

/-- An expression that is not pending keeps its result, whatever else becomes known. -/
theorem eval_before (h : s.Before t) (e : Expr) (env : Bindings) :
    Before (eval s e env) (eval t e env) :=
  meaning_before h (reduce_before h e env)

/-- Where a scope does not leave a question pending, a later one gives the same answer. Then an
    evaluation that has come to an end, with a value or at an obstacle, ends the same way when it is
    repeated: a value never changes, and what cannot be reduced is not worth another attempt. -/
theorem eval_settled (e : Expr) (env : Bindings) (s t : Scope)
    (answers : ∀ root steps, s.lookup root steps ≠ .pending →
      t.lookup root steps = s.lookup root steps)
    (ended : eval s e env ≠ .error .pending) : eval t e env = eval s e env := by
  have before : s.Before t := fun root steps =>
    or_iff_not_imp_left.2 fun settled => (answers root steps settled).symm
  exact (eval_before before e env).eq_of_ne ended

/-- A scope with one name that is known, one for later, and no others. -/
def knowing (later : Answer) : Scope where
  lookup root _ :=
    if root = "var" then .found (.list [.bool true, .bool false]) 0
    else if root = "local" then later
    else .missing ("unknown name '" ++ root ++ "'")

/-- A loop over the known members. The first one decides without the name for later, and the second
    one is left out after an attempt that comes to nothing. -/
def loop : Expr :=
  .forEach none "x" (.root "var") none (.binary .or (.root "x") (.root "local"))
    (some (.call "try" [.attr (.root "nowhere") "id", .root "x"] false)) false

/-- The theorem at that loop, and at an obstacle, when the name for later becomes known. -/
theorem eval_settled_loop :
    (eval (knowing .pending) loop [] = .ok (.list [.bool true]) ∧
      eval (knowing (.found .null 0)) loop [] = .ok (.list [.bool true])) ∧
    eval (knowing .pending) (.root "nowhere") [] =
        blocked (.missing "unknown name 'nowhere'") ∧
      eval (knowing (.found .null 0)) (.root "nowhere") [] =
        blocked (.missing "unknown name 'nowhere'") := by
  have answers : ∀ root steps, (knowing .pending).lookup root steps ≠ .pending →
      (knowing (.found .null 0)).lookup root steps = (knowing .pending).lookup root steps := by
    intro root steps settled
    unfold knowing at settled ⊢
    grind
  have value : eval (knowing .pending) loop [] = .ok (.list [.bool true]) := rfl
  have obstacle : eval (knowing .pending) (.root "nowhere") [] =
      blocked (.missing "unknown name 'nowhere'") := rfl
  refine ⟨⟨value, (eval_settled loop [] _ _ answers ?_).trans value⟩, obstacle,
    (eval_settled (.root "nowhere") [] _ _ answers ?_).trans obstacle⟩
  · rw [value]
    exact nofun
  · rw [obstacle]
    exact nofun

end Cartograph.Expression

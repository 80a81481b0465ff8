import Cartograph.Expression.Evaluation
import Cartograph.Proofs.Expression.Functions

/-!
# Evaluation keeps values canonical

In a scope that answers with canonical values, and with canonical values bound, an expression has a
canonical value, if any (`eval_canonical`). The steps of a chain do not matter: what is taken out of
a canonical value is canonical whatever they are.
-/

namespace Cartograph.Expression

open Value

variable {scope : Scope} {env : Bindings} {v w : Value} {items args : List Value}

/-- What is answered is canonical. -/
def Scope.Canonical (scope : Scope) : Prop :=
  ∀ root steps v taken, scope.lookup root steps = .found v taken → v.Canonical

/-- What is bound is canonical. -/
def Bindings.Canonical (env : Bindings) : Prop := ∀ e ∈ env, e.2.Canonical

/-- A value that a chain begins with is canonical. -/
def Root.Canonical : Root → Prop
  | name _ => True
  | value v => v.Canonical

theorem Bindings.Canonical.cons {name : String} (h : env.Canonical) (hv : v.Canonical) :
    Bindings.Canonical ((name, v) :: env) := List.forall_mem_cons.2 ⟨hv, h⟩

/-- An integer stands for itself. -/
theorem eq_int_of_isInt {i : Int} (h : isInt v = true) (hi : v.asInt? = some i) : v = .int i := by
  cases v with
  | int => exact congrArg Value.int (Option.some.inj hi)
  | _ => exact absurd h (by simp [isInt])

/-! ### Chains -/

theorem resolved_canonical (h : v.Canonical) : Yields Value.Canonical (resolved v) :=
  .ite (fun _ => .error _) fun _ => .ok h

theorem indexValue_canonical {key : Value} (h : v.Canonical) :
    Yields Value.Canonical (indexValue v key) := by
  unfold indexValue
  split
  · split
    · exact .error _
    · exact .ite (fun _ => .error _) fun _ => .ok (getD_canonical (Canonical.list_iff.1 h) _)
  · refine .then_ fun k => ?_
    split
    · next found => exact .ok (h.find found)
    · exact .error _
  · exact .error _

theorem splatItems_canonical (h : v.Canonical) : ∀ w ∈ splatItems v, w.Canonical := by
  unfold splatItems
  split
  · exact Canonical.list_iff.1 h
  · exact List.forall_mem_nil _
  · exact fun w hw => List.mem_singleton.1 hw ▸ h

theorem takeSteps_canonical {steps : List Step} (h : v.Canonical) :
    Yields Value.Canonical (takeSteps steps v) := by
  induction steps generalizing v with
  | nil => exact .ok h
  | cons step rest ih =>
    unfold takeSteps
    split
    case h_1 => exact .ok h
    case h_2 => exact .ok .unresolved
    case h_3 same _ =>
      cases same
      split
      · split
        · next found => exact ih (h.find found)
        · exact .error _
      · exact .error _
    case h_4 same _ =>
      cases same
      exact (indexValue_canonical h).bind fun _ => ih
    case h_5 same _ =>
      cases same
      have each : Yields (∀ w ∈ ·, w.Canonical) ((splatItems _).mapM (takeSteps rest)) :=
        .mapM fun w hw => ih (splatItems_canonical h w hw)
      exact each.map fun _ => .list

theorem follow_canonical {root : Root} {steps : List Step} (hs : scope.Canonical)
    (he : env.Canonical) (hr : root.Canonical) :
    Yields Value.Canonical (follow scope env root steps) := by
  unfold follow
  split
  · exact takeSteps_canonical hr
  · split
    · next found => exact takeSteps_canonical (he _ (Keyed.mem_of_find? found))
    · split
      · next answered => exact takeSteps_canonical (hs _ _ _ _ answered)
      · exact .error _
      · exact .error _

/-! ### Operators -/

theorem applyUnary_canonical {op : Expr.UnaryOp} (h : v.Canonical) :
    Yields Value.Canonical (applyUnary op v) := by
  refine (resolved_canonical h).bind fun v hv => ?_
  split
  · split
    · exact .ok .bool
    · exact .error _
  · split
    · exact .ok (.int hv.isWord.negate)
    · split
      · exact .ok (ofNumber_canonical _)
      · exact .error _

theorem ofArithmetic_canonical (bothInt : Bool) (f : Float) :
    (ofArithmetic bothInt f).Canonical := by
  unfold ofArithmetic
  split
  · exact .int (Decimal.isWord_truncate f)
  · exact ofNumber_canonical f

theorem applyNumeric_canonical {op : Expr.BinaryOp} {bothInt : Bool} {x y : Float} :
    Yields Value.Canonical (applyNumeric op bothInt x y) := by
  unfold applyNumeric
  split
  case h_1 | h_2 | h_3 | h_4 => exact .ok .bool
  case h_5 | h_6 | h_7 => exact .ok (ofArithmetic_canonical _ _)
  case h_8 | h_9 => exact .ite (fun _ => .error _) fun _ => .ok (ofNumber_canonical _)

theorem applyBinary_canonical {op : Expr.BinaryOp} :
    Yields Value.Canonical (applyBinary op v w) := by
  refine .then_ fun v => .then_ fun w => ?_
  split
  · exact .ok .bool
  · exact .ok .bool
  · split
    · exact applyNumeric_canonical
    · exact .error _

theorem applyLogical_canonical {decisive : Bool} {b : Unit → Result Value} :
    Yields Value.Canonical (applyLogical decisive v b) :=
  .then_ fun _ => .ite (fun _ => .ok .bool) fun _ => .then_ fun _ => .then_ fun _ => .ok .bool

/-! ### Collections -/

theorem pairsOf_canonical (h : v.Canonical) :
    Yields (∀ p ∈ ·, p.1.Canonical ∧ p.2.Canonical) (pairsOf v) := by
  unfold pairsOf
  split
  · refine .ok fun p hp => ?_
    obtain ⟨⟨w, i⟩, hw, rfl⟩ := List.mem_map.1 hp
    exact ⟨.int (Decimal.isWord_ofSize i), Canonical.list_iff.1 h w (List.fst_mem_of_mem_zipIdx hw)⟩
  · refine .ok fun p hp => ?_
    obtain ⟨e, he, rfl⟩ := List.mem_map.1 hp
    exact ⟨.text, (Canonical.map_iff.1 h).2 e he⟩
  · exact .ok (List.forall_mem_nil _)
  · exact .error _

theorem bindPair_canonical {keyVar : Option String} {valueVar : String} {pair : Value × Value}
    (he : env.Canonical) (hp : pair.1.Canonical ∧ pair.2.Canonical) :
    (bindPair keyVar valueVar env pair).Canonical := by
  unfold bindPair
  split
  · exact (he.cons hp.1).cons hp.2
  · exact he.cons hp.2

theorem forList_canonical {condition : Option (Bindings → Result Value)}
    {value : Bindings → Result Value} {envs : List Bindings}
    (hv : ∀ env : Bindings, env.Canonical → Yields Value.Canonical (value env))
    (he : ∀ env ∈ envs, Bindings.Canonical env) :
    Yields (∀ v ∈ ·, v.Canonical) (forList condition value envs) := by
  induction envs with
  | nil => exact .ok (List.forall_mem_nil _)
  | cons env rest ih =>
    obtain ⟨first, others⟩ := List.forall_mem_cons.1 he
    refine .then_ fun keep => .ite (fun _ => ?_) fun _ => ih others
    refine (hv env first).bind fun v hv => (ih others).bind fun vs hvs => ?_
    exact .ok (List.forall_mem_cons.2 ⟨hv, hvs⟩)

theorem addEntry_canonical {grouping : Bool} {key : String} {entries : Attributes}
    (h : (Value.map entries).Canonical) (hv : v.Canonical) :
    Yields (fun entries => (Value.map entries).Canonical) (addEntry grouping key v entries) := by
  unfold addEntry
  refine .ite (fun _ => ?_) fun _ => .ite (fun _ => .error _) fun _ => .ok (h.insert hv)
  split
  · next items found =>
    have old := Canonical.list_iff.1 (h.find found)
    exact .ok (h.insert (.list (List.forall_mem_append.2 ⟨old, by simpa using hv⟩)))
  · exact .ok (h.insert (.list (by simpa using hv)))

theorem forMap_canonical {condition : Option (Bindings → Result Value)}
    {key value : Bindings → Result Value} {grouping : Bool} {entries : Attributes}
    {envs : List Bindings} (h : (Value.map entries).Canonical)
    (hv : ∀ env : Bindings, env.Canonical → Yields Value.Canonical (value env))
    (he : ∀ env ∈ envs, Bindings.Canonical env) :
    Yields (fun entries => (Value.map entries).Canonical)
      (forMap condition key value grouping entries envs) := by
  induction envs generalizing entries with
  | nil => exact .ok h
  | cons env rest ih =>
    obtain ⟨first, others⟩ := List.forall_mem_cons.1 he
    refine .then_ fun keep => .ite (fun _ => ?_) fun _ => ih h others
    refine (hv env first).bind fun v hv => .then_ fun _ => .then_ fun _ => ?_
    exact (addEntry_canonical h hv).bind fun _ h => ih h others

/-! ### Calls -/

theorem spreadLast_canonical {spread : Bool} (h : ∀ v ∈ args, v.Canonical) :
    Yields (∀ v ∈ ·, v.Canonical) (spreadLast spread args) := by
  refine .ite (fun _ => ?_) fun _ => .ok h
  split
  · exact .ok (List.forall_mem_nil _)
  · next items last =>
    have spread := Canonical.list_iff.1 (h _ (List.mem_of_getLast? last))
    exact .ok (List.forall_mem_append.2
      ⟨fun v hv => h v (List.dropLast_subset args hv), spread⟩)
  · exact .error _

theorem applyCall_canonical {name : String} {spread : Bool} (h : ∀ v ∈ args, v.Canonical) :
    Yields Value.Canonical (applyCall name spread args) := by
  refine (spreadLast_canonical h).bind fun args h => .ite (fun _ => .error _) fun _ => ?_
  exact .mapError (callFunction_canonical h)

theorem firstOf_canonical {last : Obstacle} {attempts : List (Unit → Result Value)}
    (h : ∀ a ∈ attempts, Yields Value.Canonical (a ())) :
    Yields Value.Canonical (firstOf last attempts) := by
  induction attempts generalizing last with
  | nil => exact .error _
  | cons a rest ih =>
    obtain ⟨first, others⟩ := List.forall_mem_cons.1 h
    unfold firstOf
    split
    · next v value => exact .ite (fun _ => ih others) fun _ => .ok (first v value)
    · exact .error _
    · exact ih others

theorem canAny_canonical {attempts : List (Unit → Result Value)} :
    Yields Value.Canonical (canAny attempts) := by
  unfold canAny
  split
  · exact .ok .bool
  · exact .error _
  · exact .ok .bool

/-! ### Expressions -/

theorem constant_canonical {r : Result Value} (h : Yields Value.Canonical r) :
    Yields (fun x => x.1.Canonical) (constant r) := h.map fun _ hv => hv

theorem meaning_canonical {r : Result (Root × List Step)} (hs : scope.Canonical)
    (he : env.Canonical) (h : Yields (fun x => x.1.Canonical) r) :
    Yields Value.Canonical (meaning scope env r) :=
  h.bind fun _ hr => follow_canonical hs he hr

theorem literal_canonical (h : v.isLiteral = true) : v.Canonical := by
  cases v with
  | null => exact .null
  | bool => exact .bool
  | int i =>
    simp only [isLiteral, Bool.and_eq_true, decide_eq_true_eq] at h
    exact .int h
  | float => exact .float
  | text => exact .text
  | list | unresolved | map => exact absurd h (by simp [isLiteral])

mutual

theorem reduce_canonical (hs : scope.Canonical) : ∀ (e : Expr) {env : Bindings}, env.Canonical →
    Yields (fun x => x.1.Canonical) (reduce scope e env)
  | .root name, env, he => by
    rw [reduce]
    exact .ok trivial
  | .attr e name, env, he => by
    rw [reduce]
    exact (reduce_canonical hs e he).bind fun x hx => .ok hx
  | .index e key, env, he => by
    rw [reduce]
    exact (reduce_canonical hs e he).bind fun x hx => .then_ fun _ => .then_ fun _ => .ok hx
  | .splat e rest, env, he => by
    rw [reduce]
    exact (reduce_canonical hs e he).bind fun x hx => .then_ fun _ => .ok hx
  | @Expr.literal v h, env, he => by
    rw [reduce]
    exact constant_canonical (.ok (literal_canonical h))
  | .template pieces, env, he => by
    rw [reduce]
    exact constant_canonical (.mapAny fun _ => .text)
  | .list items, env, he => by
    rw [reduce]
    exact constant_canonical ((evalList_canonical hs items he).map fun _ => .list)
  | .object entries, env, he => by
    rw [reduce]
    exact constant_canonical ((evalEntries_canonical hs entries he .empty).map fun _ h => h)
  | .unary op e, env, he => by
    rw [reduce]
    have operand := meaning_canonical hs he (reduce_canonical hs e he)
    exact constant_canonical (operand.bind fun _ => applyUnary_canonical)
  | .binary op a b, env, he => by
    cases op
    case or | and =>
      rw [reduce]
      exact constant_canonical (.then_ fun _ => applyLogical_canonical)
    all_goals
      simp only [reduce]
      exact constant_canonical (.then_ fun _ => .then_ fun _ => applyBinary_canonical)
  | .conditional c a b, env, he => by
    rw [reduce]
    refine constant_canonical (.then_ fun _ => .then_ fun v => ?_)
    split
    · exact meaning_canonical hs he (reduce_canonical hs a he)
    · exact meaning_canonical hs he (reduce_canonical hs b he)
    · exact .error _
  | .call name args spread, env, he => by
    rw [reduce]
    refine constant_canonical (.ite (fun _ => ?_) fun _ => .ite (fun _ => ?_) fun _ => ?_)
    · exact firstOf_canonical (attempts_canonical hs args he)
    · exact canAny_canonical
    · exact (evalList_canonical hs args he).bind fun _ => applyCall_canonical
  | .forEach keyVar valueVar collection key value condition grouping, env, he => by
    rw [reduce]
    have whole := meaning_canonical hs he (reduce_canonical hs collection he)
    have body (env : Bindings) (he : env.Canonical) :=
      meaning_canonical hs he (reduce_canonical hs value he)
    refine constant_canonical (whole.bind fun v hv => (resolved_canonical hv).bind fun v hv => ?_)
    refine (pairsOf_canonical hv).bind fun pairs hp => ?_
    have bound : ∀ env' ∈ pairs.map (bindPair keyVar valueVar env), Bindings.Canonical env' := by
      intro env' h
      obtain ⟨pair, inside, rfl⟩ := List.mem_map.1 h
      exact bindPair_canonical he (hp pair inside)
    split
    · exact (forList_canonical body bound).map fun _ => .list
    · exact (forMap_canonical .empty body bound).map fun _ h => h

theorem evalList_canonical (hs : scope.Canonical) : ∀ (es : List Expr) {env : Bindings},
    env.Canonical → Yields (∀ v ∈ ·, v.Canonical) (evalList scope es env)
  | [], env, he => by
    rw [evalList]
    exact .ok (List.forall_mem_nil _)
  | e :: es, env, he => by
    rw [evalList]
    refine (meaning_canonical hs he (reduce_canonical hs e he)).bind fun v hv => ?_
    refine (evalList_canonical hs es he).bind fun vs hvs => ?_
    exact .ok (List.forall_mem_cons.2 ⟨hv, hvs⟩)

theorem evalEntries_canonical (hs : scope.Canonical) : ∀ (entries : List (Expr × Expr))
    {done : Attributes} {env : Bindings}, env.Canonical → (Value.map done).Canonical →
    Yields (fun entries => (Value.map entries).Canonical) (evalEntries scope entries done env)
  | [], done, env, he, h => by
    rw [evalEntries]
    exact .ok h
  | (k, e) :: rest, done, env, he, h => by
    rw [evalEntries]
    refine .then_ fun _ => .then_ fun key => ?_
    refine (meaning_canonical hs he (reduce_canonical hs e he)).bind fun v hv => ?_
    exact evalEntries_canonical hs rest he (h.insert hv)

theorem attempts_canonical (hs : scope.Canonical) : ∀ (es : List Expr) {env : Bindings},
    env.Canonical → ∀ a ∈ attempts scope es env, Yields Value.Canonical (a ())
  | [], env, he => by
    rw [attempts]
    exact List.forall_mem_nil _
  | e :: es, env, he => by
    rw [attempts]
    exact List.forall_mem_cons.2
      ⟨meaning_canonical hs he (reduce_canonical hs e he), attempts_canonical hs es he⟩

end

/-- The value of an expression is canonical if all that it is made of is. -/
theorem eval_canonical (hs : scope.Canonical) (he : env.Canonical) (e : Expr) :
    Yields Value.Canonical (eval scope e env) :=
  meaning_canonical hs he (reduce_canonical hs e he)

end Cartograph.Expression

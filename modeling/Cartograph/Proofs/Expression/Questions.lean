import Cartograph.Expression.Evaluation
import Cartograph.Proofs.Results

/-!
# What an evaluation asks

An evaluation asks its scope about names, each with the concrete steps behind it (`Question`).
`asked` lists the questions of an evaluation in their order: those of an operand that is not
evaluated, of a member that a `for` leaves out, or of what stands behind a failure are not among
them.

The result *hangs on* these questions (`HangsOn`): a scope that answers them alike leads to the same
questions and the same result, and the result is pending exactly if one of the answers is. This is
put together along the expression like the result itself, and with it that all questions are
announced (`asked_announced`): the references of the expression have, for each question, its name
and exactly the attribute names among its steps. A name that is bound by a `for` is left out of the
references, and nothing is asked about it.
-/

namespace Cartograph.Expression

variable {α β : Type}

/-- What a scope is asked about: a root name, and the steps behind it. -/
structure Question where
  root : String
  steps : List Step

/-- The attribute names among steps. -/
def Step.names (steps : List Step) : List String :=
  steps.filterMap fun
    | .attr name => some name
    | _ => none

/-- The reference that announces a question. -/
def Question.reference (q : Question) : Reference := ⟨q.root, Step.names q.steps⟩

/-- The answer to a question. -/
def Scope.answer (s : Scope) (q : Question) : Answer := s.lookup q.root q.steps

/-! ### The questions of an evaluation -/

/-- The questions behind a result. Nothing is asked behind a failure. -/
def behind (r : Result α) (next : α → List Question) : List Question :=
  match r with
  | .ok a => next a
  | .error _ => []

/-- What is asked to follow a chain: about its root, if that is a name and not bound. -/
def askedBy (env : Bindings) : Root × List Step → List Question
  | (.value _, _) => []
  | (.name n, steps) =>
    match Keyed.find? n env with
    | some _ => []
    | none => [⟨n, steps⟩]

/-- The questions of an expression's value: those of its reduction, and the one about the chain that
    it is reduced to. -/
def fully (env : Bindings) (r : Result (Root × List Step)) (asked : List Question) :
    List Question := asked ++ behind r (askedBy env)

/-- The questions of the right operand of `and` or `or`, if it is evaluated. -/
def logicalAsked (decisive : Bool) (a : Value) (right : List Question) : List Question :=
  behind (logical a) fun l => if l = decisive then [] else right

/-- The questions of a `for` without key. -/
def forListAsked (condition : Option (Bindings → Result Value)) (value : Bindings → Result Value)
    (ofCondition ofValue : Bindings → List Question) : List Bindings → List Question
  | [] => []
  | env :: rest => ofCondition env ++ behind (keeps condition env) fun kept =>
    if kept then
      ofValue env ++ behind (value env) fun _ =>
        forListAsked condition value ofCondition ofValue rest
    else forListAsked condition value ofCondition ofValue rest

/-- The questions of a `for` with key. -/
def forMapAsked (condition : Option (Bindings → Result Value)) (key value : Bindings → Result Value)
    (grouping : Bool) (ofCondition ofKey ofValue : Bindings → List Question)
    (entries : Attributes) : List Bindings → List Question
  | [] => []
  | env :: rest => ofCondition env ++ behind (keeps condition env) fun kept =>
    if kept then
      ofValue env ++ behind (value env) fun v => ofKey env ++ behind (key env) fun k =>
        behind (ofOutcome (keyText k)) fun k =>
          behind (addEntry grouping k v entries) fun entries =>
            forMapAsked condition key value grouping ofCondition ofKey ofValue entries rest
    else forMapAsked condition key value grouping ofCondition ofKey ofValue entries rest

/-- The questions of the attempts behind one, which begin if it had an obstacle or came to a
    placeholder. -/
def behindAttempt (r : Result Value) (rest : List Question) : List Question :=
  match r with
  | .ok v => if v.hasUnresolved then rest else []
  | .error .pending => []
  | .error (.obstacle _) => rest

mutual

/-- What is asked while an expression is reduced. -/
def reduceAsked (scope : Scope) : Expr → Bindings → List Question
  | .root _, _ => []
  | .literal _, _ => []
  | .attr e _, env => reduceAsked scope e env
  | .index e key, env => reduceAsked scope e env ++ behind (reduce scope e env) fun _ =>
      fully env (reduce scope key env) (reduceAsked scope key env)
  | .splat e rest, env => reduceAsked scope e env ++ behind (reduce scope e env) fun _ =>
      stepsAsked scope rest env
  | .template pieces, env => piecesAsked scope pieces env
  | .list items, env => listAsked scope items env
  | .object entries, env => entriesAsked scope entries env
  | .unary _ e, env => fully env (reduce scope e env) (reduceAsked scope e env)
  | .binary .and a b, env =>
    fully env (reduce scope a env) (reduceAsked scope a env) ++
      behind (meaning scope env (reduce scope a env)) fun v =>
        logicalAsked false v (fully env (reduce scope b env) (reduceAsked scope b env))
  | .binary .or a b, env =>
    fully env (reduce scope a env) (reduceAsked scope a env) ++
      behind (meaning scope env (reduce scope a env)) fun v =>
        logicalAsked true v (fully env (reduce scope b env) (reduceAsked scope b env))
  | .binary _ a b, env =>
    fully env (reduce scope a env) (reduceAsked scope a env) ++
      behind (meaning scope env (reduce scope a env)) fun _ =>
        fully env (reduce scope b env) (reduceAsked scope b env)
  | .conditional c a b, env =>
    fully env (reduce scope c env) (reduceAsked scope c env) ++
      behind (meaning scope env (reduce scope c env)) fun v => behind (resolved v) fun v =>
        match v.asBool? with
        | some true => fully env (reduce scope a env) (reduceAsked scope a env)
        | some false => fully env (reduce scope b env) (reduceAsked scope b env)
        | none => []
  | .call name args _, env =>
    if name = "try" ∨ name = "can" then attemptsAsked scope args env else listAsked scope args env
  | .forEach keyVar valueVar collection key value condition grouping, env =>
    fully env (reduce scope collection env) (reduceAsked scope collection env) ++
      behind (meaning scope env (reduce scope collection env)) fun v => behind (resolved v) fun v =>
        behind (pairsOf v) fun pairs =>
          let envs := pairs.map (bindPair keyVar valueVar env)
          let keep := evalOption scope condition
          let body := fun env => meaning scope env (reduce scope value env)
          let ofBody := fun env => fully env (reduce scope value env) (reduceAsked scope value env)
          match evalOption scope key with
          | none => forListAsked keep body (optionAsked scope condition) ofBody envs
          | some k => forMapAsked keep k body grouping (optionAsked scope condition)
              (optionAsked scope key) ofBody [] envs

/-- What is asked for the values of several expressions. -/
def listAsked (scope : Scope) : List Expr → Bindings → List Question
  | [], _ => []
  | e :: es, env => fully env (reduce scope e env) (reduceAsked scope e env) ++
      behind (meaning scope env (reduce scope e env)) fun _ => listAsked scope es env

/-- What is asked for the entries of an object. -/
def entriesAsked (scope : Scope) : List (Expr × Expr) → Bindings → List Question
  | [], _ => []
  | (k, e) :: rest, env => fully env (reduce scope k env) (reduceAsked scope k env) ++
      behind (meaning scope env (reduce scope k env)) fun key => behind (ofOutcome (keyText key))
        fun _ => fully env (reduce scope e env) (reduceAsked scope e env) ++
          behind (meaning scope env (reduce scope e env)) fun _ => entriesAsked scope rest env

/-- What is asked for the text of a template. -/
def piecesAsked (scope : Scope) : List (Expr.Piece Expr) → Bindings → List Question
  | [], _ => []
  | .literal _ :: ps, env => piecesAsked scope ps env
  | .interpolation e :: ps, env => fully env (reduce scope e env) (reduceAsked scope e env) ++
      behind (meaning scope env (reduce scope e env)) fun _ => piecesAsked scope ps env

/-- What is asked for the steps behind a splat. -/
def stepsAsked (scope : Scope) : List (Expr.Traversal Expr) → Bindings → List Question
  | [], _ => []
  | .attr _ :: rest, env => stepsAsked scope rest env
  | .index e :: rest, env => fully env (reduce scope e env) (reduceAsked scope e env) ++
      behind (meaning scope env (reduce scope e env)) fun _ => stepsAsked scope rest env

/-- What is asked for the value of an expression that may be left out. -/
def optionAsked (scope : Scope) : Option Expr → Bindings → List Question
  | none, _ => []
  | some e, env => fully env (reduce scope e env) (reduceAsked scope e env)

/-- What is asked by attempts until one of them succeeds. -/
def attemptsAsked (scope : Scope) : List Expr → Bindings → List Question
  | [], _ => []
  | e :: es, env => fully env (reduce scope e env) (reduceAsked scope e env) ++
      behindAttempt (meaning scope env (reduce scope e env)) (attemptsAsked scope es env)

end

/-- What the evaluation of an expression asks, in order. -/
def asked (scope : Scope) (e : Expr) (env : Bindings) : List Question :=
  fully env (reduce scope e env) (reduceAsked scope e env)

/-! ### Results that wait for nothing -/

/-- A result is not pending. -/
def Settled (r : Result α) : Prop := r ≠ .error .pending

namespace Settled

theorem ok (a : α) : Settled (.ok a) := by simp [Settled]

theorem blocked (o : Obstacle) : Settled (blocked o : Result α) := by
  simp [Settled, Expression.blocked]

theorem ofOutcome (o : Outcome α) : Settled (ofOutcome o) := by
  cases o with
  | ok a => exact .ok a
  | error o => exact .blocked o

theorem bind {r : Result α} {f : α → Result β} (h : Settled r) (each : ∀ a, Settled (f a)) :
    Settled (r >>= f) := by
  cases r with
  | ok a => exact each a
  | error stop => exact fun waits => h (congrArg _ (Except.error.inj waits))

theorem map {r : Result α} (h : Settled r) (f : α → β) : Settled (r.map f) := by
  cases r with
  | ok a => exact ok (f a)
  | error stop => exact fun waits => h (congrArg _ (Except.error.inj waits))

theorem mapM {f : α → Result β} (l : List α) (each : ∀ a, Settled (f a)) :
    Settled (l.mapM f) := by
  induction l with
  | nil => exact ok []
  | cons a rest ih =>
    rw [List.mapM_cons]
    exact (each a).bind fun _ => ih.bind fun _ => ok _

theorem ite {p : Prop} [Decidable p] {x y : Result α} (hx : Settled x) (hy : Settled y) :
    Settled (if p then x else y) := by
  split
  · exact hx
  · exact hy

end Settled

theorem settled_resolved (v : Value) : Settled (resolved v) := .ite (.blocked _) (.ok _)

theorem settled_logical (v : Value) : Settled (logical v) := by
  refine (settled_resolved v).bind fun v => ?_
  split
  · exact .ok _
  · exact .blocked _

theorem settled_indexValue (v key : Value) : Settled (indexValue v key) := by
  unfold indexValue
  split
  · split
    · exact .blocked _
    · exact .ite (.blocked _) (.ok _)
  · refine (Settled.ofOutcome _).bind fun k => ?_
    split
    · exact .ok _
    · exact .blocked _
  · exact .blocked _

theorem settled_takeSteps (steps : List Step) (v : Value) : Settled (takeSteps steps v) := by
  induction steps generalizing v with
  | nil => cases v <;> exact .ok _
  | cons step rest ih =>
    -- A placeholder stays what it is.
    cases v with
    | unresolved e => cases step <;> exact .ok _
    | map entries =>
      cases step with
      | attr name =>
        rw [takeSteps]
        split
        · exact ih _
        · exact .blocked _
      | index key => exact (settled_indexValue _ key).bind fun v => ih v
      | splat => exact (Settled.mapM _ ih).map _
    | _ =>
      cases step with
      | attr name => exact .blocked _
      | index key => exact (settled_indexValue _ key).bind fun v => ih v
      | splat => exact (Settled.mapM _ ih).map _

theorem settled_applyUnary (op : Expr.UnaryOp) (v : Value) : Settled (applyUnary op v) := by
  refine (settled_resolved v).bind fun v => ?_
  cases op with
  | not =>
    dsimp only
    split
    · exact .ok _
    · exact .blocked _
  | neg =>
    dsimp only
    split
    · exact .ok _
    · split
      · exact .ok _
      · exact .blocked _

theorem settled_applyNumeric (op : Expr.BinaryOp) (bothInt : Bool) (x y : Float) :
    Settled (applyNumeric op bothInt x y) := by
  cases op
  case lt | le | gt | ge | add | sub | mul => exact .ok _
  all_goals exact .ite (.blocked _) (.ok _)

theorem settled_applyBinary (op : Expr.BinaryOp) (a b : Value) : Settled (applyBinary op a b) := by
  refine (settled_resolved a).bind fun a => (settled_resolved b).bind fun b => ?_
  split
  · exact .ok _
  · exact .ok _
  · split
    · exact settled_applyNumeric _ _ _ _
    · exact .blocked _

theorem settled_pairsOf (v : Value) : Settled (pairsOf v) := by
  unfold pairsOf
  split
  case h_4 => exact .blocked _
  all_goals exact .ok _

theorem settled_addEntry (grouping : Bool) (key : String) (v : Value) (entries : Attributes) :
    Settled (addEntry grouping key v entries) := by
  refine .ite ?_ (.ite (.blocked _) (.ok _))
  split
  · exact .ok _
  · exact .ok _

theorem settled_applyCall (name : String) (spread : Bool) (args : List Value) :
    Settled (applyCall name spread args) := by
  have spreads : Settled (spreadLast spread args) := by
    refine .ite ?_ (.ok _)
    split
    · exact .ok _
    · exact .ok _
    · exact .blocked _
  exact spreads.bind fun args => .ite (.blocked _) (.ofOutcome _)

/-! ### Hanging on questions -/

/-- A result that depends on a scope hangs on questions of some kind: alike answers lead to the same
    questions and the same result, which is pending exactly if an answer is. -/
structure HangsOn (P : Question → Prop) (x : Scope → Result α) (asks : Scope → List Question) :
    Prop where
  kind : ∀ s, ∀ q ∈ asks s, P q
  same : ∀ s t, (∀ q ∈ asks s, t.answer q = s.answer q) → x t = x s ∧ asks t = asks s
  waits : ∀ s, x s = .error .pending ↔ ∃ q ∈ asks s, s.answer q = .pending

namespace HangsOn

variable {P Q : Question → Prop} {x : Scope → Result α} {asks : Scope → List Question}

theorem none {r : Result α} (h : Settled r) : HangsOn P (fun _ => r) fun _ => [] :=
  ⟨fun _ _ h => absurd h List.not_mem_nil, fun _ _ _ => ⟨rfl, rfl⟩,
    fun _ => ⟨fun waits => absurd waits h, fun ⟨_, hq, _⟩ => absurd hq List.not_mem_nil⟩⟩

theorem mono (h : HangsOn P x asks) (weaker : ∀ q, P q → Q q) : HangsOn Q x asks :=
  ⟨fun s q hq => weaker q (h.kind s q hq), h.same, h.waits⟩

/-- A result, and what is done with it, if nothing is done with one that waits. -/
theorem followedBy {g : Result α → Scope → Result β} {k : Result α → Scope → List Question}
    (h : HangsOn P x asks) (pending : ∀ s, g (.error .pending) s = .error .pending)
    (quiet : ∀ s, k (.error .pending) s = [])
    (each : ∀ s, x s ≠ .error .pending → HangsOn P (g (x s)) (k (x s))) :
    HangsOn P (fun s => g (x s) s) fun s => asks s ++ k (x s) s := by
  refine ⟨fun s q hq => ?_, fun s t alike => ?_, fun s => ?_⟩
  · rcases List.mem_append.1 hq with hq | hq
    · exact h.kind s q hq
    · by_cases hx : x s = .error .pending
      · rw [hx, quiet] at hq
        exact absurd hq List.not_mem_nil
      · exact (each s hx).kind s q hq
  · obtain ⟨result, questions⟩ := h.same s t fun q hq => alike q (List.mem_append_left _ hq)
    rw [result, questions]
    by_cases hx : x s = .error .pending
    · rw [hx, pending, pending, quiet, quiet]
      exact ⟨rfl, rfl⟩
    · obtain ⟨result, questions⟩ := (each s hx).same s t fun q hq =>
        alike q (List.mem_append_right _ hq)
      exact ⟨result, by rw [questions]⟩
  · simp only [List.mem_append]
    by_cases hx : x s = .error .pending
    · obtain ⟨q, hq, answer⟩ := (h.waits s).1 hx
      rw [hx, pending]
      exact ⟨fun _ => ⟨q, .inl hq, answer⟩, fun _ => rfl⟩
    · refine ((each s hx).waits s).trans ⟨fun ⟨q, hq, answer⟩ => ⟨q, .inr hq, answer⟩, ?_⟩
      rintro ⟨q, hq | hq, answer⟩
      · exact absurd ((h.waits s).2 ⟨q, hq, answer⟩) hx
      · exact ⟨q, hq, answer⟩

theorem bindOf {f : α → Scope → Result β} {more : α → Scope → List Question} (h : HangsOn P x asks)
    (each : ∀ s a, x s = .ok a → HangsOn P (f a) (more a)) :
    HangsOn P (fun s => x s >>= fun a => f a s)
      (fun s => asks s ++ behind (x s) fun a => more a s) := by
  refine h.followedBy (g := fun r s => r >>= fun a => f a s)
    (k := fun r s => behind r fun a => more a s) (fun _ => rfl) (fun _ => rfl) fun s settled => ?_
  cases hx : x s with
  | error stop => exact .none fun waits => settled (hx.trans (congrArg _ (Except.error.inj waits)))
  | ok a => exact each s a hx

theorem bind {f : α → Scope → Result β} {more : α → Scope → List Question} (h : HangsOn P x asks)
    (each : ∀ a, HangsOn P (f a) (more a)) :
    HangsOn P (fun s => x s >>= fun a => f a s)
      (fun s => asks s ++ behind (x s) fun a => more a s) :=
  h.bindOf fun _ a _ => each a

/-- What is made of a result without asking, if that waits for nothing else. -/
theorem after {f : Result α → Result β} (h : HangsOn P x asks)
    (only : ∀ r, f r = .error .pending ↔ r = .error .pending) :
    HangsOn P (fun s => f (x s)) asks := by
  refine ⟨h.kind, fun s t alike => ?_, fun s => (only _).trans (h.waits s)⟩
  obtain ⟨result, questions⟩ := h.same s t alike
  exact ⟨congrArg f result, questions⟩

theorem andThen {f : α → Result β} (h : HangsOn P x asks) (each : ∀ a, Settled (f a)) :
    HangsOn P (fun s => x s >>= f) asks := by
  refine h.after (f := fun r => r >>= f) fun r => ?_
  cases r with
  | ok a => exact ⟨fun waits => absurd waits (each a), fun waits => absurd waits (Settled.ok a)⟩
  | error stop => exact ⟨fun waits => congrArg _ (Except.error.inj waits),
      fun waits => congrArg _ (Except.error.inj waits)⟩

theorem map (h : HangsOn P x asks) (f : α → β) : HangsOn P (fun s => (x s).map f) asks :=
  h.andThen fun a => .ok (f a)

/-- What begins without asking. -/
theorem first {r : Result α} {f : α → Scope → Result β} {more : α → Scope → List Question}
    (h : Settled r) (each : ∀ a, HangsOn P (f a) (more a)) :
    HangsOn P (fun s => r >>= fun a => f a s) (fun s => behind r fun a => more a s) :=
  (HangsOn.none h).bind each

theorem ite {p : Prop} [Decidable p] {y : Scope → Result α} {asks' : Scope → List Question}
    (h : HangsOn P x asks) (h' : HangsOn P y asks') :
    HangsOn P (fun s => if p then x s else y s) fun s => if p then asks s else asks' s := by
  by_cases hp : p
  · simpa only [if_pos hp] using h
  · simpa only [if_neg hp] using h'

/-- An attempt, and those behind it. -/
theorem attempt {x : Scope → Result Value} {y : Obstacle → Scope → Result Value}
    {more : Scope → List Question} (h : HangsOn P x asks) (rest : ∀ last, HangsOn P (y last) more) :
    HangsOn P (fun s => match x s with
        | .ok v => if v.hasUnresolved then y .unresolvedArgument s else .ok v
        | .error .pending => .error .pending
        | .error (.obstacle o) => y o s)
      (fun s => asks s ++ behindAttempt (x s) (more s)) := by
  let g : Result Value → Scope → Result Value := fun r s =>
    match r with
    | .ok v => if v.hasUnresolved then y .unresolvedArgument s else .ok v
    | .error .pending => .error .pending
    | .error (.obstacle o) => y o s
  refine h.followedBy (g := g) (k := fun r s => behindAttempt r (more s)) (fun _ => rfl)
    (fun _ => rfl) fun s settled => ?_
  cases hx : x s with
  | ok v => exact .ite (rest _) (.none (.ok v))
  | error stop =>
    cases stop with
    | pending => exact absurd hx settled
    | obstacle o => exact rest o

end HangsOn

/-! ### Chains -/

/-- A question is announced by references, and its name is not bound. -/
def Announced (refs : List Reference) (env : Bindings) (q : Question) : Prop :=
  q.reference ∈ refs ∧ Keyed.find? q.root env = none

variable {env : Bindings} {s : Scope} {refs refs' : List Reference}

theorem Announced.of_subset {q : Question} (h : Announced refs env q) (sub : refs ⊆ refs') :
    Announced refs' env q := ⟨sub h.1, h.2⟩

/-- What is asked inside a `for` is not about the names that it binds. -/
theorem Announced.unbind {q : Question} {keyVar : Option String} {valueVar : String}
    {pair : Value × Value} (h : Announced refs (bindPair keyVar valueVar env pair) q) :
    Announced (refs.filter fun r => !(r.root == valueVar || keyVar == some r.root)) env q := by
  obtain ⟨inside, free⟩ := h
  have apart : q.root ≠ valueVar ∧ keyVar ≠ some q.root ∧ Keyed.find? q.root env = none := by
    unfold bindPair at free
    split at free
    · next k =>
      rw [Keyed.find?, Keyed.find?] at free
      split at free
      · exact absurd free (by simp)
      · next other =>
        split at free
        · exact absurd free (by simp)
        · next another => exact ⟨Ne.symm other, fun same => another (Option.some.inj same), free⟩
    · rw [Keyed.find?] at free
      split at free
      · exact absurd free (by simp)
      · next other => exact ⟨Ne.symm other, by simp, free⟩
  refine ⟨List.mem_filter.2 ⟨inside, ?_⟩, apart.2.2⟩
  simpa [Question.reference] using ⟨apart.1, apart.2.1⟩

/-- The steps behind a splat have the attribute names that are written there. -/
theorem names_of_evalSteps : ∀ {rest : List (Expr.Traversal Expr)} {steps : List Step},
    evalSteps s rest env = .ok steps → Step.names steps = Expr.Traversal.names rest
  | [], steps, h => by
    rw [evalSteps] at h
    cases h
    rfl
  | .attr name :: rest, steps, h => by
    rw [evalSteps, bind_ok_iff] at h
    obtain ⟨more, found, same⟩ := h
    cases same
    exact congrArg (name :: ·) (names_of_evalSteps found)
  | .index e :: rest, steps, h => by
    rw [evalSteps, bind_ok_iff] at h
    obtain ⟨k, -, h⟩ := h
    rw [bind_ok_iff] at h
    obtain ⟨more, found, same⟩ := h
    cases same
    have behind : Step.names more = Expr.Traversal.names rest := names_of_evalSteps found
    exact behind

theorem constant_ne_name {r : Result Value} {n : String} {steps : List Step} :
    constant r ≠ .ok (.name n, steps) := by
  cases r <;> simp [constant, Except.map]

/-- An expression that is reduced to a name is a chain of this name, with the attribute names that
    are among the steps. -/
theorem chain_of_reduce : ∀ {e : Expr} {n : String} {steps : List Step},
    reduce s e env = .ok (.name n, steps) → e.chain? = some ⟨n, Step.names steps⟩
  | .root name, n, steps, h => by
    rw [reduce] at h
    cases h
    rfl
  | .attr e name, n, steps, h => by
    rw [reduce, bind_ok_iff] at h
    obtain ⟨⟨root, before⟩, found, same⟩ := h
    cases same
    rw [Expr.chain?, chain_of_reduce found]
    simp [Step.names]
  | .index e key, n, steps, h => by
    rw [reduce, bind_ok_iff] at h
    obtain ⟨⟨root, before⟩, found, h⟩ := h
    dsimp only at h
    rw [bind_ok_iff] at h
    obtain ⟨v, -, h⟩ := h
    rw [bind_ok_iff] at h
    obtain ⟨k, -, same⟩ := h
    cases same
    rw [Expr.chain?, chain_of_reduce found]
    simp [Step.names]
  | .splat e rest, n, steps, h => by
    rw [reduce, bind_ok_iff] at h
    obtain ⟨⟨root, before⟩, found, h⟩ := h
    dsimp only at h
    rw [bind_ok_iff] at h
    obtain ⟨more, behind, same⟩ := h
    cases same
    rw [Expr.chain?, chain_of_reduce found, ← names_of_evalSteps behind]
    simp [Step.names]
  | .literal v, n, steps, h => by
    rw [reduce] at h
    exact absurd h constant_ne_name
  | .template pieces, n, steps, h => by
    rw [reduce] at h
    exact absurd h constant_ne_name
  | .list items, n, steps, h => by
    rw [reduce] at h
    exact absurd h constant_ne_name
  | .object entries, n, steps, h => by
    rw [reduce] at h
    exact absurd h constant_ne_name
  | .unary op e, n, steps, h => by
    rw [reduce] at h
    exact absurd h constant_ne_name
  | .binary op a b, n, steps, h => by
    cases op <;> simp only [reduce] at h <;> exact absurd h constant_ne_name
  | .conditional c a b, n, steps, h => by
    rw [reduce] at h
    exact absurd h constant_ne_name
  | .call name args spread, n, steps, h => by
    rw [reduce] at h
    exact absurd h constant_ne_name
  | .forEach keyVar valueVar collection key value condition grouping, n, steps, h => by
    rw [reduce] at h
    exact absurd h constant_ne_name

/-- The references of an expression are that of the chain that it is, and those of its parts. -/
theorem refs_eq (e : Expr) : e.refs false = e.chain?.toList ++ e.refs true := by
  cases e <;> simp [Expr.refs, Expr.chain?]

/-! ### Expressions -/

/-- Following a chain hangs on the question about its name, if that is not bound. -/
theorem hangsOn_follow {P : Question → Prop} {root : Root} {steps : List Step}
    (kind : ∀ n, root = .name n → Keyed.find? n env = none → P ⟨n, steps⟩) :
    HangsOn P (fun s => follow s env root steps) fun _ => askedBy env (root, steps) := by
  cases root with
  | value v => exact .none (settled_takeSteps steps v)
  | name n =>
    cases bound : Keyed.find? n env with
    | some v =>
      simp only [follow, askedBy, bound]
      exact .none (settled_takeSteps steps v)
    | none =>
      simp only [follow, askedBy, bound]
      refine ⟨fun s q hq => ?_, fun s t alike => ⟨?_, rfl⟩, fun s => ⟨fun waits => ?_, ?_⟩⟩
      · cases List.mem_singleton.1 hq
        exact kind n rfl bound
      · have answer : t.lookup n steps = s.lookup n steps := alike _ (List.mem_singleton_self _)
        rw [answer]
      · refine ⟨_, List.mem_singleton_self _, ?_⟩
        split at waits
        · exact absurd waits (settled_takeSteps _ _)
        · next pending => exact pending
        · exact absurd waits (Settled.blocked _)
      · rintro ⟨q, hq, answer⟩
        cases List.mem_singleton.1 hq
        have answer : s.lookup n steps = .pending := answer
        rw [answer]

/-- What is asked for the value of an expression is announced, if what is asked for its reduction
    is: the question about the chain that it is reduced to is about the chain that it is. -/
theorem hangsOn_meaning {e : Expr}
    (h : HangsOn (Announced (e.refs true) env) (fun s => reduce s e env)
      fun s => reduceAsked s e env) :
    HangsOn (Announced (e.refs false) env) (fun s => meaning s env (reduce s e env))
      fun s => fully env (reduce s e env) (reduceAsked s e env) := by
  have parts : HangsOn (Announced (e.refs false) env) (fun s => reduce s e env)
      fun s => reduceAsked s e env :=
    h.mono fun q hq => hq.of_subset (refs_eq e ▸ List.subset_append_right _ _)
  refine parts.bindOf fun s (root, steps) reduced => hangsOn_follow fun n name free => ⟨?_, free⟩
  cases name
  rw [refs_eq, chain_of_reduce reduced]
  exact List.mem_append_left _ (List.mem_singleton_self _)

theorem hangsOn_constant {P : Question → Prop} {x : Scope → Result Value}
    {asks : Scope → List Question} (h : HangsOn P x asks) :
    HangsOn P (fun s => constant (x s)) asks := h.map _

/-! ### Loops -/

section Loops

variable {P : Question → Prop} {c : Scope → Option (Bindings → Result Value)}
  {f key : Scope → Bindings → Result Value}
  {ofCondition ofKey ofValue : Scope → Bindings → List Question} {envs : List Bindings}

theorem hangsOn_forList
    (hc : ∀ env ∈ envs, HangsOn P (fun s => keeps (c s) env) fun s => ofCondition s env)
    (hv : ∀ env ∈ envs, HangsOn P (fun s => f s env) fun s => ofValue s env) :
    HangsOn P (fun s => forList (c s) (f s) envs)
      fun s => forListAsked (c s) (f s) (ofCondition s) (ofValue s) envs := by
  induction envs with
  | nil => exact .none (.ok _)
  | cons env rest ih =>
    have rest := ih (fun env h => hc env (List.mem_cons_of_mem _ h))
      fun env h => hv env (List.mem_cons_of_mem _ h)
    refine (hc env List.mem_cons_self).bind fun kept => .ite ?_ rest
    exact (hv env List.mem_cons_self).bind fun v => rest.andThen fun vs => .ok _

theorem hangsOn_forMap {grouping : Bool} {entries : Attributes}
    (hc : ∀ env ∈ envs, HangsOn P (fun s => keeps (c s) env) fun s => ofCondition s env)
    (hk : ∀ env ∈ envs, HangsOn P (fun s => key s env) fun s => ofKey s env)
    (hv : ∀ env ∈ envs, HangsOn P (fun s => f s env) fun s => ofValue s env) :
    HangsOn P (fun s => forMap (c s) (key s) (f s) grouping entries envs)
      fun s => forMapAsked (c s) (key s) (f s) grouping (ofCondition s) (ofKey s) (ofValue s)
        entries envs := by
  induction envs generalizing entries with
  | nil => exact .none (.ok _)
  | cons env rest ih =>
    have rest := fun entries => @ih entries
      (fun env h => hc env (List.mem_cons_of_mem _ h))
      (fun env h => hk env (List.mem_cons_of_mem _ h))
      fun env h => hv env (List.mem_cons_of_mem _ h)
    refine (hc env List.mem_cons_self).bind fun kept => .ite ?_ (rest entries)
    refine (hv env List.mem_cons_self).bind fun v => (hk env List.mem_cons_self).bind fun k => ?_
    exact .first (.ofOutcome _) fun k => .first (settled_addEntry _ _ _ _) fun entries =>
      rest entries

end Loops

theorem hangsOn_canAny {P : Question → Prop} {attempts : Scope → List (Unit → Result Value)}
    {asks : Scope → List Question}
    (h : HangsOn P (fun s => firstOf .noArguments (attempts s)) asks) :
    HangsOn P (fun s => canAny (attempts s)) asks := by
  let f : Result Value → Result Value := fun r =>
    match r with
    | .ok _ => .ok (.bool true)
    | .error .pending => .error .pending
    | .error (.obstacle _) => .ok (.bool false)
  refine h.after (f := f) fun r => ⟨fun waits => ?_, ?_⟩
  · dsimp only [f] at waits
    split at waits
    · exact absurd waits (Settled.ok _)
    · rfl
    · exact absurd waits (Settled.ok _)
  · rintro rfl
    rfl

/-! ### The induction -/

mutual

theorem hangsOn_reduce : ∀ (e : Expr) (env : Bindings),
    HangsOn (Announced (e.refs true) env) (fun s => reduce s e env) fun s => reduceAsked s e env
  | .root name, env => by
    simp only [reduce, reduceAsked]
    exact .none (.ok _)
  | .literal v, env => by
    simp only [reduce, reduceAsked]
    exact hangsOn_constant (.none (.ok _))
  | .attr e name, env => by
    simp only [reduce, reduceAsked, Expr.refs, if_true, List.nil_append]
    exact (hangsOn_reduce e env).andThen fun _ => .ok _
  | .index e key, env => by
    simp only [reduce, reduceAsked, Expr.refs, if_true, List.nil_append]
    refine ((hangsOn_reduce e env).mono fun q hq => hq.of_subset ?_).bind fun _ => ?_
    · exact List.subset_append_left _ _
    · refine ((hangsOn_value key env).mono fun q hq => hq.of_subset ?_).andThen fun v => ?_
      · exact List.subset_append_right _ _
      · exact (settled_resolved v).bind fun _ => .ok _
  | .splat e rest, env => by
    simp only [reduce, reduceAsked, Expr.refs, if_true, List.nil_append]
    refine ((hangsOn_reduce e env).mono fun q hq => hq.of_subset ?_).bind fun _ => ?_
    · exact List.subset_append_left _ _
    · refine ((hangsOn_steps rest env).mono fun q hq => hq.of_subset ?_).andThen fun _ => .ok _
      exact List.subset_append_right _ _
  | .template pieces, env => by
    simp only [reduce, reduceAsked, Expr.refs]
    exact hangsOn_constant ((hangsOn_pieces pieces env).map _)
  | .list items, env => by
    simp only [reduce, reduceAsked, Expr.refs]
    exact hangsOn_constant ((hangsOn_list items env).map _)
  | .object entries, env => by
    simp only [reduce, reduceAsked, Expr.refs]
    exact hangsOn_constant ((hangsOn_entries entries [] env).map _)
  | .unary op e, env => by
    simp only [reduce, reduceAsked, Expr.refs]
    exact hangsOn_constant ((hangsOn_value e env).andThen (settled_applyUnary op))
  | .binary op a b, env => by
    have left := (hangsOn_value a env).mono fun q hq => hq.of_subset
      (List.subset_append_left _ (b.refs false))
    have right := (hangsOn_value b env).mono fun q hq => hq.of_subset
      (List.subset_append_right (a.refs false) _)
    -- Logical operators ask for the right operand only if the left one does not decide.
    cases op
    case or | and =>
      simp only [reduce, reduceAsked, Expr.refs]
      refine hangsOn_constant (left.bind fun v => .first (settled_logical v) fun l => ?_)
      refine .ite (.none (.ok _)) (right.andThen fun w => ?_)
      exact (settled_logical w).bind fun _ => .ok _
    all_goals
      simp only [reduce, reduceAsked, Expr.refs]
      exact hangsOn_constant (left.bind fun v => right.andThen (settled_applyBinary _ v))
  | .conditional c a b, env => by
    simp only [reduce, reduceAsked, Expr.refs]
    refine hangsOn_constant (HangsOn.bind ?_ fun v => .first (settled_resolved v) fun v => ?_)
    · exact (hangsOn_value c env).mono fun q hq => hq.of_subset
        (List.Subset.trans (List.subset_append_left _ _) (List.subset_append_left _ _))
    · cases v.asBool? with
      | none => exact .none (.blocked _)
      | some yes =>
        cases yes with
        | true =>
          exact (hangsOn_value a env).mono fun q hq => hq.of_subset
            (List.Subset.trans (List.subset_append_right _ _) (List.subset_append_left _ _))
        | false =>
          exact (hangsOn_value b env).mono fun q hq => hq.of_subset
            (List.subset_append_right _ _)
  | .call name args spread, env => by
    simp only [reduce, reduceAsked, Expr.refs]
    refine hangsOn_constant ?_
    by_cases isTry : name = "try"
    · simp only [isTry, if_true, true_or]
      exact hangsOn_attempts args env _
    · by_cases isCan : name = "can"
      · simp only [isCan, if_true, or_true, String.reduceEq, if_false]
        exact hangsOn_canAny (hangsOn_attempts args env .noArguments)
      · simp only [isTry, isCan, if_false, or_self]
        exact (hangsOn_list args env).andThen (settled_applyCall name spread)
  | .forEach keyVar valueVar collection key value condition grouping, env => by
    simp only [reduce, reduceAsked, Expr.refs]
    refine hangsOn_constant (HangsOn.bind ?_ fun v => .first (settled_resolved v) fun v =>
      .first (settled_pairsOf v) fun pairs => ?_)
    · exact (hangsOn_value collection env).mono fun q hq => hq.of_subset
        (List.subset_append_left _ _)
    -- The parts are evaluated with the names of the `for` bound, about which nothing is asked.
    have within : ∀ {refs : List Reference} {inner : Bindings} {q : Question},
        refs ⊆ Expr.refsOfOption key ++ Expr.refs false value ++ Expr.refsOfOption condition →
        inner ∈ pairs.map (bindPair keyVar valueVar env) → Announced refs inner q →
        Announced (collection.refs false ++ (Expr.refsOfOption key ++ Expr.refs false value
          ++ Expr.refsOfOption condition).filter fun r =>
            !(r.root == valueVar || keyVar == some r.root)) env q := by
      intro refs inner q sub bound announced
      obtain ⟨pair, -, rfl⟩ := List.mem_map.1 bound
      exact (announced.of_subset sub).unbind.of_subset (List.subset_append_right _ _)
    have kept := fun inner bound => (hangsOn_keeps condition inner).mono fun q =>
      within (List.subset_append_right _ _) bound
    have body := fun inner bound => (hangsOn_value value inner).mono fun q => within
      (List.Subset.trans (List.subset_append_right _ _) (List.subset_append_left _ _)) bound
    cases key with
    | none =>
      simp only [evalOption]
      exact (hangsOn_forList kept body).map _
    | some key =>
      simp only [evalOption, optionAsked]
      refine (hangsOn_forMap kept (fun inner bound => ?_) body).map _
      exact (hangsOn_value key inner).mono fun q => within
        (List.Subset.trans (List.subset_append_left _ _) (List.subset_append_left _ _)) bound

theorem hangsOn_value (e : Expr) (env : Bindings) :
    HangsOn (Announced (e.refs false) env) (fun s => meaning s env (reduce s e env))
      fun s => fully env (reduce s e env) (reduceAsked s e env) :=
  hangsOn_meaning (hangsOn_reduce e env)

theorem hangsOn_list : ∀ (es : List Expr) (env : Bindings),
    HangsOn (Announced (Expr.refsOfList es) env) (fun s => evalList s es env)
      fun s => listAsked s es env
  | [], env => by
    simp only [evalList, listAsked]
    exact .none (.ok _)
  | e :: es, env => by
    simp only [evalList, listAsked, Expr.refsOfList]
    refine ((hangsOn_value e env).mono fun q hq => hq.of_subset ?_).bind fun _ => ?_
    · exact List.subset_append_left _ _
    · refine ((hangsOn_list es env).mono fun q hq => hq.of_subset ?_).andThen fun _ => .ok _
      exact List.subset_append_right _ _

theorem hangsOn_entries : ∀ (entries : List (Expr × Expr)) (done : Attributes) (env : Bindings),
    HangsOn (Announced (Expr.refsOfEntries entries) env) (fun s => evalEntries s entries done env)
      fun s => entriesAsked s entries env
  | [], done, env => by
    simp only [evalEntries, entriesAsked]
    exact .none (.ok _)
  | (k, e) :: rest, done, env => by
    simp only [evalEntries, entriesAsked, Expr.refsOfEntries]
    refine ((hangsOn_value k env).mono fun q hq => hq.of_subset ?_).bind fun key =>
      .first (.ofOutcome _) fun key => ?_
    · exact List.Subset.trans (List.subset_append_left _ _) (List.subset_append_left _ _)
    · refine ((hangsOn_value e env).mono fun q hq => hq.of_subset ?_).bind fun v => ?_
      · exact List.Subset.trans (List.subset_append_right _ _) (List.subset_append_left _ _)
      · exact (hangsOn_entries rest _ env).mono fun q hq => hq.of_subset
          (List.subset_append_right _ _)

theorem hangsOn_pieces : ∀ (pieces : List (Expr.Piece Expr)) (env : Bindings),
    HangsOn (Announced (Expr.refsOfPieces pieces) env) (fun s => evalPieces s pieces env)
      fun s => piecesAsked s pieces env
  | [], env => by
    simp only [evalPieces, piecesAsked]
    exact .none (.ok _)
  | .literal l :: ps, env => by
    simp only [evalPieces, piecesAsked, Expr.refsOfPieces]
    exact (hangsOn_pieces ps env).andThen fun _ => .ok _
  | .interpolation e :: ps, env => by
    simp only [evalPieces, piecesAsked, Expr.refsOfPieces]
    refine ((hangsOn_value e env).mono fun q hq => hq.of_subset ?_).bind fun _ => ?_
    · exact List.subset_append_left _ _
    · refine ((hangsOn_pieces ps env).mono fun q hq => hq.of_subset ?_).andThen fun _ => .ok _
      exact List.subset_append_right _ _

theorem hangsOn_steps : ∀ (steps : List (Expr.Traversal Expr)) (env : Bindings),
    HangsOn (Announced (Expr.refsOfSteps steps) env) (fun s => evalSteps s steps env)
      fun s => stepsAsked s steps env
  | [], env => by
    simp only [evalSteps, stepsAsked]
    exact .none (.ok _)
  | .attr name :: rest, env => by
    simp only [evalSteps, stepsAsked, Expr.refsOfSteps]
    exact (hangsOn_steps rest env).andThen fun _ => .ok _
  | .index e :: rest, env => by
    simp only [evalSteps, stepsAsked, Expr.refsOfSteps]
    refine ((hangsOn_value e env).mono fun q hq => hq.of_subset ?_).bind fun _ => ?_
    · exact List.subset_append_left _ _
    · refine ((hangsOn_steps rest env).mono fun q hq => hq.of_subset ?_).andThen fun _ => .ok _
      exact List.subset_append_right _ _

theorem hangsOn_keeps : ∀ (condition : Option Expr) (env : Bindings),
    HangsOn (Announced (Expr.refsOfOption condition) env)
      (fun s => keeps (evalOption s condition) env) fun s => optionAsked s condition env
  | none, env => by
    simp only [evalOption, optionAsked, keeps]
    exact .none (.ok _)
  | some e, env => by
    simp only [evalOption, optionAsked, keeps, Expr.refsOfOption]
    refine (hangsOn_value e env).andThen fun v => (settled_resolved v).bind fun v => ?_
    split
    · exact .ok _
    · exact .blocked _

theorem hangsOn_attempts : ∀ (es : List Expr) (env : Bindings) (last : Obstacle),
    HangsOn (Announced (Expr.refsOfList es) env) (fun s => firstOf last (attempts s es env))
      fun s => attemptsAsked s es env
  | [], env, last => by
    simp only [attempts, attemptsAsked, firstOf]
    exact .none (.blocked _)
  | e :: es, env, last => by
    simp only [attempts, attemptsAsked, firstOf, Expr.refsOfList]
    refine HangsOn.attempt (y := fun last s => firstOf last (attempts s es env)) ?_ fun last => ?_
    · exact (hangsOn_value e env).mono fun q hq => hq.of_subset (List.subset_append_left _ _)
    · exact (hangsOn_attempts es env last).mono fun q hq =>
        hq.of_subset (List.subset_append_right _ _)

end

/-- The value of an expression hangs on what its evaluation asks. -/
theorem hangsOn_eval (e : Expr) (env : Bindings) :
    HangsOn (Announced e.references env) (fun s => eval s e env) fun s => asked s e env :=
  hangsOn_value e env

/-- Whatever a scope answers and whatever is bound, each question of an evaluation is announced by a
    reference of the expression: with its name, which is not bound, and exactly the attribute names
    among its steps, in order. These are all questions of the evaluation: a scope that answers them
    alike is asked the same and leads to the same result. -/
theorem asked_announced (e : Expr) (scope : Scope) (env : Bindings) :
    (∀ q ∈ asked scope e env, Keyed.find? q.root env = none ∧
      ∃ r ∈ e.references, r.root = q.root ∧ r.attributes = Step.names q.steps) ∧
    ∀ other : Scope,
      (∀ q ∈ asked scope e env, other.lookup q.root q.steps = scope.lookup q.root q.steps) →
        eval other e env = eval scope e env ∧ asked other e env = asked scope e env := by
  have hangs := hangsOn_eval e env
  refine ⟨fun q hq => ?_, fun other alike => hangs.same scope other alike⟩
  obtain ⟨announced, free⟩ := hangs.kind scope q hq
  exact ⟨free, q.reference, announced, rfl, rfl⟩

/-- A `for` over the members of a list, in which a chain has the bound name as an index. -/
def picks : Expr :=
  .forEach none "v" (.attr (.root "var") "list") none
    (.attr (.index (.root "aws_a") (.root "v")) "n") none false

/-- Knows a list of two numbers, and nothing else. -/
def twoNumbers : Scope where
  lookup root _ := if root = "var" then .found (.list [.int 1, .int 2]) 1 else .found .null 2

/-- The theorem at an expression that binds a name: it is asked about the list and about two chains,
    each with a concrete index, and not about the bound name. -/
theorem asked_announced_picks :
    asked twoNumbers picks [] = [⟨"var", [.attr "list"]⟩,
      ⟨"aws_a", [.index (.int 1), .attr "n"]⟩, ⟨"aws_a", [.index (.int 2), .attr "n"]⟩] ∧
    ∀ q ∈ asked twoNumbers picks [], ∃ r ∈ picks.references,
      r.root = q.root ∧ r.attributes = Step.names q.steps :=
  ⟨rfl, fun q hq => ((asked_announced picks twoNumbers []).1 q hq).2⟩

end Cartograph.Expression

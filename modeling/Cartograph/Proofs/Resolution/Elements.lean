import Cartograph.Proofs.Resolution.Leftovers

/-!
# Elements of lists and maps

The value of an attribute is recorded once, in the middle of a pass. If one of its elements cannot
be resolved, the others are evaluated on their own then. An element that has a result already has it
in the end too and is recorded with it, as a placeholder if it fails; but one that is still waiting
becomes a placeholder, also if it has a value later on. So the elements that come out right are
those that were not waiting any more, and those that fail in the end are placeholders always
(`run_elements`). For every plan there are budgets large enough for this (`Staged.tried_rests`).

If one of two elements cannot be resolved and the other one waits for an attribute of a later
resource, both come out as placeholders (`run_loses_element`).
-/

namespace Cartograph

/-- The place of an element in a list or a map. -/
inductive Place
  | member (i : Nat)
  | entry (key : String)

/-- The element at a place. -/
def Value.element? : Value → Place → Option Value
  | .list items, .member i => items[i]?
  | .map entries, .entry k => Keyed.find? k entries
  | _, _ => none

/-- The element at the end of a path into nested lists and maps. -/
def Value.at? (v : Value) : List Place → Option Value
  | [] => some v
  | place :: path => (v.element? place).bind fun w => w.at? path

namespace Resolution

open Expression

/-! ### Elements of sources -/

namespace Source

/-- The element at a place, as written. -/
def element? : Source → Place → Option Source
  | .list items, .member i => items[i]?
  | .map entries, .entry k => Keyed.find? k entries
  | _, _ => none

/-- The element at the end of a path, as written. -/
def at? (source : Source) : List Place → Option Source
  | [] => some source
  | place :: path => (source.element? place).bind fun item => item.at? path

variable {scope : Scope} {env : Bindings} {source item : Source} {path : List Place} {stop : Stop}

theorem evalLenientAll_eq_map (items : List Source) :
    evalLenientAll scope env items = items.map (evalLenient scope env) := by
  induction items with
  | nil => rw [evalLenientAll, List.map_nil]
  | cons _ _ ih => rw [evalLenientAll, List.map_cons, ih]

theorem find?_evalLenientEach (entries : List (String × Source)) (k : String) :
    Keyed.find? k (evalLenientEach scope env entries) =
      (Keyed.find? k entries).map (evalLenient scope env) := by
  induction entries with
  | nil =>
    rw [evalLenientEach]
    rfl
  | cons e rest ih =>
    obtain ⟨j, source⟩ := e
    rw [evalLenientEach, Keyed.find?, Keyed.find?, ih]
    split
    · rfl
    · rfl

/-- Leniency treats every element on its own. -/
theorem element?_evalLenient {place : Place} (h : source.element? place = some item) :
    (evalLenient scope env source).element? place = some (evalLenient scope env item) := by
  cases source with
  | literal | expr => exact absurd h (by cases place <;> simp [element?])
  | list items =>
    cases place with
    | entry => exact absurd h (by simp [element?])
    | member i =>
      rw [element?] at h
      rw [evalLenient, Value.element?, evalLenientAll_eq_map, List.getElem?_map, h]
      rfl
  | map entries =>
    cases place with
    | member => exact absurd h (by simp [element?])
    | entry k =>
      rw [element?] at h
      rw [evalLenient, Value.element?, find?_evalLenientEach, h]
      rfl

theorem at?_evalLenient (h : source.at? path = some item) :
    (evalLenient scope env source).at? path = some (evalLenient scope env item) := by
  induction path generalizing source with
  | nil =>
    cases h
    rfl
  | cons place path ih =>
    obtain ⟨middle, first, rest⟩ := Option.bind_eq_some_iff.1 h
    rw [Value.at?, element?_evalLenient first, Option.bind_some]
    exact ih rest

mutual

/-- A value without placeholders is that of a source that does not fail. -/
theorem eval_of_resolved : ∀ {source : Source},
    (evalLenient scope env source).hasUnresolved = false →
    eval scope env source = .ok (evalLenient scope env source)
  | literal v, _ => by rw [eval, evalLenient]
  | expr e text, h => by
    rw [evalLenient] at h ⊢
    rw [eval]
    cases result : Expression.eval scope e env with
    | ok v => rfl
    | error stop =>
      rw [result] at h
      exact absurd h (by simp [Value.hasUnresolved])
  | list items, h => by
    rw [evalLenient, Value.hasUnresolved] at h
    rw [eval, evalLenient, evalAll_of_resolved h]
    rfl
  | map entries, h => by
    rw [evalLenient, Value.hasUnresolved] at h
    rw [eval, evalLenient, evalEach_of_resolved h]
    rfl

theorem evalAll_of_resolved : ∀ {items : List Source},
    Value.anyUnresolved (evalLenientAll scope env items) = false →
    evalAll scope env items = .ok (evalLenientAll scope env items)
  | [], _ => by rw [evalAll, evalLenientAll]
  | source :: rest, h => by
    rw [evalLenientAll, Value.anyUnresolved, Bool.or_eq_false_iff] at h
    rw [evalAll, evalLenientAll, eval_of_resolved h.1, evalAll_of_resolved h.2]
    rfl

theorem evalEach_of_resolved : ∀ {entries : List (String × Source)},
    Value.anyUnresolvedEntry (evalLenientEach scope env entries) = false →
    evalEach scope env entries = .ok (evalLenientEach scope env entries)
  | [], _ => by rw [evalEach, evalLenientEach]
  | (k, source) :: rest, h => by
    rw [evalLenientEach, Value.anyUnresolvedEntry, Bool.or_eq_false_iff] at h
    rw [evalEach, evalLenientEach, eval_of_resolved h.1, evalEach_of_resolved h.2]
    rfl

end

end Source

namespace State

variable {s t u : State} {c : Cell} {item : Source} {budget : Nat} {id : NodeId} {i : Nat}
  {name : String}

/-- What an element of a slot's source comes to in a state. -/
def evaluateItem (s : State) (c : Cell) (item : Source) : Result Value :=
  s.evaluate { c with source := item }

/-- In the end every attribute of an instance has a value, which it was given in a state that it
    came through. -/
theorem recorded_of_rest (p : Plan) (rests : ((ofPlan p).tried budget).AtRest)
    (found : Keyed.find? (.attr id i name) ((ofPlan p).run budget).1.cells = some c) :
    ∃ t, (t, .attr id i name) ∈ (ofPlan p).recordings budget ∧
      t.Grows ((ofPlan p).run budget).1 ∧
      ((ofPlan p).run budget).1.finalValue (.attr id i name) =
        c.source.evalLenient (t.scope c.module) c.instanceOf.bindings := by
  have begun := begun_ofPlan p
  have staged := begun.toStaged
  have ran := staged.run budget
  -- No number of instances is left over, so nothing is pending in the end.
  have recorded : ∃ v, ((ofPlan p).run budget).1.value? (.attr id i name) = some v := by
    refine Option.ne_none_iff_exists'.1 fun none => ?_
    have waits := isPending_iff.2 ⟨Option.isSome_iff_exists.2 ⟨c, found⟩, none⟩
    obtain ⟨_, _, _, -, stuck, -⟩ := staged.isPending_run.1 waits
    rw [rests.stuckExtents] at stuck
    exact absurd stuck List.not_mem_nil
  obtain ⟨v, known⟩ := recorded
  obtain ⟨t, logged, rfl⟩ := (ran.origin _ v rfl known).resolve_left (by simp [begun.blank])
  obtain ⟨-, ⟨c₀, there, -⟩, -, later⟩ := ran.recordings _ logged
  -- The slot has kept its source since the value was recorded.
  refine ⟨t, logged, later, (finalValue_of_value? known).trans ?_⟩
  obtain ⟨c', found', grows⟩ := later.cell _ c₀ there
  cases found.symm.trans found'
  dsimp only at there
  rw [placeholderOf, there, grows.source, grows.module, grows.instanceOf]

/-- Once the passes have come to rest, an element of an attribute is recorded with its value if it
    was not waiting for anything when the attribute got its value, and only then; an element that
    fails in the end is recorded with a placeholder. -/
theorem run_elements (p : Plan) (budget : Nat) (rests : ((ofPlan p).tried budget).AtRest)
    (id : NodeId) (i : Nat) (name : String) (c : Cell)
    (found : Keyed.find? (.attr id i name) ((ofPlan p).run budget).1.cells = some c) :
    ∃ t, (t, .attr id i name) ∈ (ofPlan p).recordings budget ∧
      ∀ path item, c.source.at? path = some item →
      ∃ shown, (((ofPlan p).run budget).1.finalValue (.attr id i name)).at? path = some shown ∧
        (∀ v, t.evaluateItem c item = .ok v →
          ((ofPlan p).run budget).1.evaluateItem c item = .ok v ∧ shown = v) ∧
        (∀ v, ((ofPlan p).run budget).1.evaluateItem c item = .ok v → v.hasUnresolved = false →
          (shown = v ↔ t.evaluateItem c item ≠ .error .pending)) ∧
        ∀ stop, ((ofPlan p).run budget).1.evaluateItem c item = .error stop →
          shown.hasUnresolved = true ∧
            ∀ e text, item = .expr e text → shown = .unresolved text := by
  obtain ⟨t, logged, later, recorded⟩ := recorded_of_rest p rests found
  refine ⟨t, logged, fun path item at_ => ?_⟩
  have before : Before (t.evaluateItem c item) (((ofPlan p).run budget).1.evaluateItem c item) :=
    later.evaluate ⟨rfl, rfl, rfl, .refl _⟩
  refine ⟨_, recorded ▸ Source.at?_evalLenient at_, fun v now => ?_, fun v value plain => ?_,
    fun stop fails => ?_⟩
  · exact ⟨before.ok now, Source.evalLenient_of_eval now⟩
  · refine ⟨fun same => ?_, fun ready => ?_⟩
    · -- A lenient value without placeholders is a strict one.
      have now := Source.eval_of_resolved (same ▸ plain)
      exact fun waits => absurd (now.symm.trans waits) (by simp)
    · exact Source.evalLenient_of_eval ((before.eq_of_ne ready).symm.trans value)
  · -- It failed already then, or was still waiting.
    have early : ∃ stop', t.evaluateItem c item = .error stop' := by
      rcases before with waits | same
      · exact ⟨_, waits⟩
      · exact ⟨_, same.trans fails⟩
    obtain ⟨stop', early⟩ := early
    refine ⟨?_, ?_⟩
    · rw [← Bool.not_eq_false]
      exact fun plain => absurd ((Source.eval_of_resolved plain).symm.trans early) (by simp)
    · rintro e text rfl
      rw [evaluateItem, evaluate, Source.eval] at early
      rw [Source.evalLenient, early]

/-- A list of two elements, of which one is not defined and the other is an attribute of a resource
    that comes later. -/
def mixed : Plan where
  resources := [
    ⟨"aws_a", "x", "", .managed,
      [("tags", .list [.text "$\x7bvar.missing\x7d", .text "$\x7baws_b.y.n\x7d"])], none, none, []⟩,
    ⟨"aws_b", "y", "", .managed, [("n", .int 1)], none, none, []⟩]
  inputs := []
  locals := []
  calls := []
  dependencies := []

theorem mixed_rests : ((ofPlan mixed).tried defaultBudget).AtRest :=
  .inl (by decide +kernel)

/-- The theorem at an attribute with an element that fails. -/
theorem run_elements_mixed : ((ofPlan mixed).tried defaultBudget).AtRest ∧ ∃ c,
    Keyed.find? (.attr "aws_a.x" 0 "tags") ((ofPlan mixed).run defaultBudget).1.cells = some c ∧
    ∃ t, (t, .attr "aws_a.x" 0 "tags") ∈ (ofPlan mixed).recordings defaultBudget ∧
      ∀ path item, c.source.at? path = some item →
      ∃ shown, (((ofPlan mixed).run defaultBudget).1.finalValue
          (.attr "aws_a.x" 0 "tags")).at? path = some shown ∧
        (∀ v, t.evaluateItem c item = .ok v →
          ((ofPlan mixed).run defaultBudget).1.evaluateItem c item = .ok v ∧ shown = v) ∧
        (∀ v, ((ofPlan mixed).run defaultBudget).1.evaluateItem c item = .ok v →
          v.hasUnresolved = false → (shown = v ↔ t.evaluateItem c item ≠ .error .pending)) ∧
        ∀ stop, ((ofPlan mixed).run defaultBudget).1.evaluateItem c item = .error stop →
          shown.hasUnresolved = true ∧
            ∀ e text, item = .expr e text → shown = .unresolved text := by
  have there : (Keyed.find? (.attr "aws_a.x" 0 "tags")
      ((ofPlan mixed).run defaultBudget).1.cells).isSome = true := by
    decide +kernel
  obtain ⟨c, found⟩ := Option.isSome_iff_exists.1 there
  exact ⟨mixed_rests, c, found, run_elements mixed defaultBudget mixed_rests _ _ _ c found⟩

/-- The second element has a value in the end, but a placeholder is recorded. -/
theorem run_loses_element : ((ofPlan mixed).tried defaultBudget).AtRest ∧ ∃ c item,
    Keyed.find? (.attr "aws_a.x" 0 "tags") ((ofPlan mixed).run defaultBudget).1.cells = some c ∧
    c.source.at? [.member 1] = some item ∧
    ((ofPlan mixed).run defaultBudget).1.evaluateItem c item = .ok (.int 1) ∧
    (((ofPlan mixed).run defaultBudget).1.finalValue (.attr "aws_a.x" 0 "tags")).at? [.member 1] =
      some (.unresolved "aws_b.y.n") := by
  have value : (Keyed.find? (.attr "aws_a.x" 0 "tags")
      ((ofPlan mixed).run defaultBudget).1.cells).any (fun c =>
        (c.source.at? [.member 1]).any fun item =>
          (((ofPlan mixed).run defaultBudget).1.evaluateItem c item).toOption.any fun v =>
            isInt v && v.asInt? == some 1) = true := by
    decide +kernel
  have shown : ((((ofPlan mixed).run defaultBudget).1.finalValue (.attr "aws_a.x" 0 "tags")).at?
      [.member 1]).any (sameValue (.unresolved "aws_b.y.n")) = true := by
    decide +kernel
  obtain ⟨c, found, value⟩ := (Option.any_eq_true _ _).1 value
  obtain ⟨item, inside, value⟩ := (Option.any_eq_true _ _).1 value
  obtain ⟨v, evaluated, value⟩ := (Option.any_eq_true _ _).1 value
  rw [Bool.and_eq_true, beq_iff_eq] at value
  cases eq_int_of_isInt value.1 value.2
  obtain ⟨w, recorded, same⟩ := (Option.any_eq_true _ _).1 shown
  rw [eq_unresolved_of_sameValue same] at recorded
  exact ⟨mixed_rests, c, item, found, inside, ok_of_toOption evaluated, recorded⟩

end State

end Resolution

end Cartograph

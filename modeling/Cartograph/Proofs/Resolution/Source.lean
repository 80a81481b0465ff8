import Cartograph.Proofs.Expression.Evaluation
import Cartograph.Resolution.Source

/-!
# Canonical sources

A source is canonical if its literals are and its maps are sorted. A canonical value as written has
a canonical source (`Source.ofValue_canonical`), and a canonical source has canonical values, strict
or lenient (`Source.Canonical.eval`, `Source.Canonical.evalLenient`).
-/

namespace Cartograph.Resolution

open Expression

/-- Literals are canonical, and maps are sorted. -/
inductive Source.Canonical : Source → Prop
  | literal {v : Value} : v.Canonical → Canonical (.literal v)
  | expr {e : Expr} {text : String} : Canonical (.expr e text)
  | list {items : List Source} : (∀ s ∈ items, Canonical s) → Canonical (.list items)
  | map {entries : List (String × Source)} : Keyed.IsSorted entries →
    (∀ e ∈ entries, Canonical e.2) → Canonical (.map entries)

namespace Source

variable {scope : Scope} {env : Bindings} {items : List Source} {entries : List (String × Source)}

/-! ### Sources of canonical values -/

theorem keys_ofEntries (es : Attributes) : (ofEntries es).1.map (·.1) = es.map (·.1) := by
  induction es with
  | nil => rfl
  | cons e es ih => exact congrArg (e.1 :: ·) ih

mutual

theorem ofValue_canonical : ∀ {v : Value}, v.Canonical → (ofValue v).1.Canonical
  | .text s, h => by
    rw [ofValue]
    split
    · split
      · exact .expr
      · exact .literal h
    · exact .literal h
  | .list items, h => by
    rw [ofValue]
    exact .list (ofList_canonical (Value.Canonical.list_iff.1 h))
  | .map entries, h => by
    rw [ofValue]
    obtain ⟨sorted, each⟩ := Value.Canonical.map_iff.1 h
    exact .map (sorted.of_keys_eq (keys_ofEntries entries)) (ofEntries_canonical each)
  | .null, h | .bool _, h | .int _, h | .float _, h | .unresolved _, h => by
    rw [ofValue]
    exact .literal h

theorem ofList_canonical : ∀ {vs : List Value}, (∀ v ∈ vs, v.Canonical) →
    ∀ s ∈ (ofList vs).1, s.Canonical
  | [], _ => by
    rw [ofList]
    exact List.forall_mem_nil _
  | v :: vs, h => by
    rw [ofList]
    obtain ⟨first, others⟩ := List.forall_mem_cons.1 h
    exact List.forall_mem_cons.2 ⟨ofValue_canonical first, ofList_canonical others⟩

theorem ofEntries_canonical : ∀ {es : Attributes}, (∀ e ∈ es, e.2.Canonical) →
    ∀ e ∈ (ofEntries es).1, e.2.Canonical
  | [], _ => by
    rw [ofEntries]
    exact List.forall_mem_nil _
  | (k, v) :: es, h => by
    rw [ofEntries]
    obtain ⟨first, others⟩ := List.forall_mem_cons.1 h
    exact List.forall_mem_cons.2 ⟨ofValue_canonical first, ofEntries_canonical others⟩

end

/-! ### Values of canonical sources -/

theorem keys_evalEach :
    Yields (·.map (·.1) = entries.map (·.1)) (evalEach scope env entries) := by
  induction entries with
  | nil => exact .ok rfl
  | cons e rest ih =>
    rw [evalEach]
    exact .then_ fun v => ih.bind fun vs same => .ok (congrArg (e.1 :: ·) same)

theorem keys_evalLenientEach :
    (evalLenientEach scope env entries).map (·.1) = entries.map (·.1) := by
  induction entries with
  | nil => rfl
  | cons e rest ih => exact congrArg (e.1 :: ·) ih

mutual

theorem eval_canonical (hs : scope.Canonical) (he : env.Canonical) :
    ∀ {s : Source}, s.Canonical → Yields Value.Canonical (s.eval scope env)
  | .literal v, h => by
    rw [eval]
    cases h with
    | literal h => exact .ok h
  | .expr e text, _ => by
    rw [eval]
    exact Expression.eval_canonical hs he e
  | .list items, h => by
    rw [eval]
    cases h with
    | list h => exact (evalAll_canonical hs he h).map fun _ => .list
  | .map entries, h => by
    rw [eval]
    cases h with
    | map sorted h =>
      have values := keys_evalEach.both (evalEach_canonical hs he h)
      exact values.map fun es hes => .map (sorted.of_keys_eq hes.1) hes.2

theorem evalAll_canonical (hs : scope.Canonical) (he : env.Canonical) :
    ∀ {ss : List Source}, (∀ s ∈ ss, s.Canonical) →
      Yields (∀ v ∈ ·, v.Canonical) (evalAll scope env ss)
  | [], _ => by
    rw [evalAll]
    exact .ok (List.forall_mem_nil _)
  | s :: ss, h => by
    rw [evalAll]
    obtain ⟨first, others⟩ := List.forall_mem_cons.1 h
    refine (eval_canonical hs he first).bind fun v hv => ?_
    refine (evalAll_canonical hs he others).bind fun vs hvs => ?_
    exact .ok (List.forall_mem_cons.2 ⟨hv, hvs⟩)

theorem evalEach_canonical (hs : scope.Canonical) (he : env.Canonical) :
    ∀ {es : List (String × Source)}, (∀ e ∈ es, e.2.Canonical) →
      Yields (∀ e ∈ ·, e.2.Canonical) (evalEach scope env es)
  | [], _ => by
    rw [evalEach]
    exact .ok (List.forall_mem_nil _)
  | (k, s) :: es, h => by
    rw [evalEach]
    obtain ⟨first, others⟩ := List.forall_mem_cons.1 h
    refine (eval_canonical hs he first).bind fun v hv => ?_
    refine (evalEach_canonical hs he others).bind fun vs hvs => ?_
    exact .ok (List.forall_mem_cons.2 ⟨hv, hvs⟩)

end

mutual

theorem evalLenient_canonical (hs : scope.Canonical) (he : env.Canonical) :
    ∀ {s : Source}, s.Canonical → (s.evalLenient scope env).Canonical
  | .literal v, h => by
    rw [evalLenient]
    cases h with
    | literal h => exact h
  | .expr e text, _ => by
    rw [evalLenient]
    split
    · next value => exact Expression.eval_canonical hs he e _ value
    · exact .unresolved
  | .list items, h => by
    rw [evalLenient]
    cases h with
    | list h => exact .list (evalLenientAll_canonical hs he h)
  | .map entries, h => by
    rw [evalLenient]
    cases h with
    | map sorted h =>
      exact .map (sorted.of_keys_eq keys_evalLenientEach) (evalLenientEach_canonical hs he h)

theorem evalLenientAll_canonical (hs : scope.Canonical) (he : env.Canonical) :
    ∀ {ss : List Source}, (∀ s ∈ ss, s.Canonical) → ∀ v ∈ evalLenientAll scope env ss, v.Canonical
  | [], _ => by
    rw [evalLenientAll]
    exact List.forall_mem_nil _
  | s :: ss, h => by
    rw [evalLenientAll]
    obtain ⟨first, others⟩ := List.forall_mem_cons.1 h
    exact List.forall_mem_cons.2
      ⟨evalLenient_canonical hs he first, evalLenientAll_canonical hs he others⟩

theorem evalLenientEach_canonical (hs : scope.Canonical) (he : env.Canonical) :
    ∀ {es : List (String × Source)}, (∀ e ∈ es, e.2.Canonical) →
      ∀ e ∈ evalLenientEach scope env es, e.2.Canonical
  | [], _ => by
    rw [evalLenientEach]
    exact List.forall_mem_nil _
  | (k, s) :: es, h => by
    rw [evalLenientEach]
    obtain ⟨first, others⟩ := List.forall_mem_cons.1 h
    exact List.forall_mem_cons.2
      ⟨evalLenient_canonical hs he first, evalLenientEach_canonical hs he others⟩

end

end Source

end Cartograph.Resolution

import Cartograph.Proofs.Resolution.Beginning
import Cartograph.Proofs.Resolution.Rest
import Cartograph.Proofs.Resolution.Source

/-!
# What is left over

Closing out what is left over may settle the number of a resource's instances, and the attributes
that the instances bring along are then not closed out any more. So what is pending after a run are
the attributes of the resources whose number of instances was left over (`Staged.isPending_run`).
Every other attribute has a recorded value, and one without templates comes out as it was written
(`run_recorded`); with a budget that is large enough that is so for all resources.

A budget of one pass is too small for that, if a number of instances has to wait for an attribute
(`run_leaves_literal`).
-/

namespace Cartograph

/-- A value as written that holds no template. -/
def Value.IsPlain (v : Value) : Prop := ∀ t ∈ v.texts, Text.isPart "$\x7b" t = false

namespace Resolution

open Expression

/-! ### Values without templates -/

namespace Source

variable {scope : Scope} {env : Bindings}

mutual

/-- A value without templates is its own value, whatever the scope is. -/
theorem evalLenient_ofValue : ∀ v : Value, v.IsPlain → evalLenient scope env (ofValue v).1 = v
  | .text s, plain => by
    have none := plain s (by simp [Value.texts])
    rw [ofValue, none]
    rfl
  | .list items, plain => by
    rw [Value.IsPlain, Value.texts] at plain
    rw [ofValue, evalLenient, evalLenientAll_ofList items plain]
  | .map entries, plain => by
    rw [Value.IsPlain, Value.texts] at plain
    rw [ofValue, evalLenient, evalLenientEach_ofEntries entries plain]
  | .null, _ | .bool _, _ | .int _, _ | .float _, _ | .unresolved _, _ => by
    rw [ofValue, evalLenient]

theorem evalLenientAll_ofList : ∀ vs : List Value,
    (∀ t ∈ Value.textsOfList vs, Text.isPart "$\x7b" t = false) →
    evalLenientAll scope env (ofList vs).1 = vs
  | [], _ => by rw [ofList, evalLenientAll]
  | v :: vs, plain => by
    rw [Value.textsOfList, List.forall_mem_append] at plain
    rw [ofList, evalLenientAll, evalLenient_ofValue v plain.1, evalLenientAll_ofList vs plain.2]

theorem evalLenientEach_ofEntries : ∀ es : List (String × Value),
    (∀ t ∈ Value.textsOfEntries es, Text.isPart "$\x7b" t = false) →
    evalLenientEach scope env (ofEntries es).1 = es
  | [], _ => by rw [ofEntries, evalLenientEach]
  | (k, v) :: es, plain => by
    rw [Value.textsOfEntries, List.forall_mem_append] at plain
    rw [ofEntries, evalLenientEach, evalLenient_ofValue v plain.1,
      evalLenientEach_ofEntries es plain.2]

end

/-- The source of an entry. -/
theorem mem_ofEntries {k : String} {v : Value} : ∀ {es : Attributes}, (k, v) ∈ es →
    (k, (ofValue v).1) ∈ (ofEntries es).1
  | e :: es, inside => by
    rw [ofEntries]
    rcases List.mem_cons.1 inside with rfl | inside
    · exact List.mem_cons_self
    · exact List.mem_cons_of_mem _ (mem_ofEntries inside)

end Source

namespace State

variable {s t u : State} {id : NodeId} {slot : Slot} {d : Declared} {budget i : Nat} {name : String}
  {instances : List Instance} {v : Value}

/-! ### What is pending in the end -/

theorem Staged.mem_stuckExtents (h : s.Staged) :
    .extent id ∈ s.stuckExtents ↔ s.IsPending (.extent id) := by
  rw [State.mem_stuckExtents, mem_pending h.sorted]
  exact and_iff_left rfl

/-- What is pending after a run: the attributes of the resources whose number of instances was left
    over. -/
theorem Staged.isPending_run (h : s.Staged) : (s.run budget).1.IsPending slot ↔
    ∃ id i name, slot = .attr id i name ∧ .extent id ∈ (s.tried budget).stuckExtents ∧
      (Keyed.find? slot (s.run budget).1.cells).isSome := by
  have before := (h.tried budget).staged
  have closing := before.closings budget
  rw [← run_eq] at closing
  constructor
  · intro waits
    -- Closing out goes through all that is pending before, and through nothing else.
    obtain ⟨there, none⟩ := isPending_iff.1 waits
    -- What was pending before has been closed out.
    have new : ¬(s.tried budget).IsPending slot := by
      intro early
      obtain ⟨w, logged, same⟩ := closing.origin slot ((mem_pending before.sorted).2 early)
      have entry : w.Staged ∧ w.IsPending slot :=
        ⟨(closing.entries _ logged).1, (closing.entries _ logged).2.1⟩
      have moves : Moves w slot (w.closeSlot budget slot) :=
        .of_report ((entry.1.report _ _ _).settle entry.2 _)
      refine moves.not_pending (isPending_iff.2 ⟨?_, same.symm.trans none⟩)
      exact moves.grows.isSome (isPending_iff.1 entry.2).1
    have value : (s.tried budget).value? slot = .none := by
      refine (closing.values slot fun inside => new ?_).symm.trans none
      rw [List.map_id] at inside
      exact (mem_pending before.sorted).1 inside
    have absent : Keyed.find? slot (s.tried budget).cells = .none := by
      rw [← Option.not_isSome_iff_eq_none]
      exact fun early => new (isPending_iff.2 ⟨early, value⟩)
    -- So it is new, and new slots come with the number of a resource's instances.
    rcases closing.grows.fresh slot absent with absent | ⟨id, i, name, d, rfl, found, unknown⟩
    · rw [absent] at there
      exact absurd there (by simp)
    · have left := before.mem_stuckExtents.2 ((before.extent id d found).1 unknown)
      exact ⟨id, i, name, rfl, left, there⟩
  · rintro ⟨id, i, name, rfl, left, there⟩
    obtain ⟨d, found, unknown⟩ := before.unknown (before.mem_stuckExtents.1 left)
    have absent := before.fresh found unknown i name
    have value : (s.tried budget).value? (.attr id i name) = .none := by
      rw [value?, absent, Option.bind_none]
    refine isPending_iff.2 ⟨there, (closing.values _ fun inside => ?_).trans value⟩
    rw [List.map_id] at inside
    obtain ⟨c, early, -⟩ := (mem_pending before.sorted).1 inside
    exact absurd (absent.symm.trans early) (by simp)

/-- After a run all instances are known. -/
theorem Staged.instances_run (h : s.Staged)
    (found : Keyed.find? id (s.run budget).1.declared = some d) :
    ∃ instances, d.instances = some instances := by
  refine Option.ne_none_iff_exists'.1 fun unknown => ?_
  have waits := ((h.run budget).staged.extent id d found).1 unknown
  obtain ⟨_, _, _, same, -⟩ := h.isPending_run.1 waits
  exact absurd same (by simp)

/-- After a run every attribute of every instance has a slot. -/
theorem Staged.isSome_run (h : s.Staged) (found : Keyed.find? id (s.run budget).1.declared = some d)
    (known : d.instances = some instances) (lt : i < instances.length)
    (named : name ∈ d.attributes.map (·.1)) :
    (Keyed.find? (.attr id i name) (s.run budget).1.cells).isSome := by
  have cell := (h.run budget).staged.attrs id i name
  rw [found, Option.bind_some, Declared.attrCell?, known, Option.bind_some,
    List.getElem?_eq_getElem lt, Option.bind_some] at cell
  rw [← Option.isSome_map (f := Cell.blank), cell, Option.isSome_map, Keyed.find?_isSome_iff,
    List.map_reverse, List.mem_reverse]
  exact named

/-- An attribute has a recorded value if the number of its resource's instances was not left over,
    and only then. -/
theorem Staged.isSome_value?_run (h : s.Staged)
    (found : Keyed.find? id (s.run budget).1.declared = some d)
    (known : d.instances = some instances) (lt : i < instances.length)
    (named : name ∈ d.attributes.map (·.1)) :
    ((s.run budget).1.value? (.attr id i name)).isSome ↔
      .extent id ∉ (s.tried budget).stuckExtents := by
  have there := h.isSome_run found known lt named
  refine ⟨fun some stuck => ?_, fun settled => ?_⟩
  · obtain ⟨-, none⟩ := isPending_iff.1 (h.isPending_run.2 ⟨_, _, _, rfl, stuck, there⟩)
    exact absurd some (by simp [none])
  · rw [← Option.ne_none_iff_isSome]
    intro none
    obtain ⟨_, _, _, same, stuck, -⟩ := h.isPending_run.1 (isPending_iff.2 ⟨there, none⟩)
    cases same
    exact settled stuck

/-! ### Attributes as they come out -/

theorem finalValue_of_value? (known : s.value? slot = some v) : s.finalValue slot = v := by
  obtain ⟨⟨module, source, member, value⟩, found, rfl⟩ := Option.bind_eq_some_iff.1 known
  rw [finalValue, found]

theorem mem_finalAttributes (named : name ∈ d.attributes.map (·.1))
    (known : s.value? (.attr id i name) = some v) : (name, v) ∈ s.finalAttributes id d i := by
  obtain ⟨e, inside, rfl⟩ := List.mem_map.1 named
  refine List.mem_map.2 ⟨e, inside, ?_⟩
  dsimp only
  rw [finalValue_of_value? known]

/-- What a resource that is kept comes from. -/
theorem of_resource? {r : Resource} (known : d.instances = some instances)
    (h : s.resource? id d = some r) : r.id = id ∧ r.raw = d.record.attributes ∧
      r.cardinality = instances.length ∧ ∀ bag, bag = r.attributes ∨ bag ∈ r.instances →
        ∃ i < instances.length, bag = s.finalAttributes id d i := by
  have length : (d.instances.map List.length).getD 1 = instances.length := by
    rw [known, Option.map_some, Option.getD_some]
  rw [resource?, length] at h
  dsimp only at h
  split at h
  · exact absurd h (by simp)
  · next some =>
    cases h
    refine ⟨rfl, rfl, rfl, fun bag hbag => ?_⟩
    rcases hbag with rfl | inside
    · -- There is a first instance.
      refine ⟨0, by omega, ?_⟩
      obtain ⟨n, hn⟩ := Nat.exists_eq_succ_of_ne_zero some
      dsimp only
      rw [hn, List.range_succ_eq_map]
      rfl
    · dsimp only at inside
      split at inside
      · exact absurd inside List.not_mem_nil
      · obtain ⟨i, hi, rfl⟩ := List.mem_map.1 inside
        exact ⟨i, List.mem_range.1 hi, rfl⟩

/-- Of several instances there is a bag for each. -/
theorem bags_of_resource? {r : Resource} (known : d.instances = some instances)
    (several : 1 < instances.length) (h : s.resource? id d = some r) :
    r.instances = (List.range r.cardinality).map (s.finalAttributes id d) ∧
      r.instanceKeys = d.keys := by
  have length : (d.instances.map List.length).getD 1 = instances.length := by
    rw [known, Option.map_some, Option.getD_some]
  rw [resource?, length] at h
  dsimp only at h
  rw [if_neg (by omega), if_neg (by omega)] at h
  cases h
  exact ⟨rfl, rfl⟩

/-- The sources of a resource's attributes stay those of the values as written. -/
theorem Begun.attributes_run (h : s.Begun)
    (found : Keyed.find? id (s.run budget).1.declared = some d) :
    d.attributes = (Source.ofEntries d.record.attributes).1 := by
  have grown := (h.toStaged.run budget).grows
  cases start : Keyed.find? id s.declared with
  | none => exact absurd ((grown.undeclared id start).symm.trans found) (by simp)
  | some d₀ =>
    obtain ⟨d', found', grows⟩ := grown.declared id d₀ start
    cases found.symm.trans found'
    rw [grows.attributes, grows.record]
    exact h.written id d₀ start

/-- What is recorded of an attribute without templates is what was written. -/
theorem Begun.value?_plain (h : s.Begun) (found : Keyed.find? id (s.run budget).1.declared = some d)
    (once : (d.record.attributes.map (·.1)).Nodup) {w : Value}
    (written : (name, w) ∈ d.record.attributes) (plain : w.IsPlain)
    (known : (s.run budget).1.value? (.attr id i name) = some v) : v = w := by
  have ran := h.toStaged.run budget
  obtain ⟨t, logged, rfl⟩ := (ran.origin _ v rfl known).resolve_left (by simp [h.blank])
  obtain ⟨-, ⟨c, there, -⟩, -, later⟩ := ran.recordings _ logged
  -- The source of the attribute is that of the value that was written.
  have own := h.attributes_run found
  have source : Keyed.find? name d.attributes.reverse = some (Source.ofValue w).1 := by
    refine Keyed.find?_of_mem ?_ (List.mem_reverse.2 (own ▸ Source.mem_ofEntries written))
    rw [List.map_reverse, (List.reverse_perm _).nodup_iff, own, Source.keys_ofEntries]
    exact once
  have same : c.source = (Source.ofValue w).1 := by
    obtain ⟨c', there', grows⟩ := later.cell _ c there
    have cell := ran.staged.attrs id i name
    rw [there', found, Option.bind_some, Declared.attrCell?, source] at cell
    obtain ⟨instances, -, cell⟩ := Option.bind_eq_some_iff.1 cell.symm
    obtain ⟨member, -, cell⟩ := Option.bind_eq_some_iff.1 cell
    exact grows.source.symm.trans (congrArg Cell.source (Option.some.inj cell)).symm
  rw [placeholderOf]
  dsimp only at there
  rw [there]
  dsimp only
  rw [same]
  exact Source.evalLenient_ofValue w plain

/-- A resource in the result is kept of one that is declared in the end. -/
theorem exists_resource? {p : Plan} {r : Resource} (h : r ∈ (p.resolve budget).resources) :
    ∃ d, Keyed.find? r.id ((ofPlan p).run (max 1 budget)).1.declared = some d ∧
      ((ofPlan p).run (max 1 budget)).1.resource? r.id d = some r := by
  obtain ⟨id, -, made⟩ := List.mem_filterMap.1 h
  obtain ⟨d, found, made⟩ := Option.bind_eq_some_iff.1 made
  obtain ⟨instances, known⟩ := (begun_ofPlan p).toStaged.instances_run found
  obtain ⟨rfl, -⟩ := of_resource? known made
  exact ⟨d, found, made⟩

/-- What a resource in the result comes from. -/
theorem of_resolve {p : Plan} {r : Resource} (h : r ∈ (p.resolve budget).resources) :
    ∃ d instances, Keyed.find? r.id ((ofPlan p).run (max 1 budget)).1.declared = some d ∧
      d.instances = some instances ∧ r.raw = d.record.attributes ∧
      d.attributes.map (·.1) = r.raw.map (·.1) ∧ r.cardinality = instances.length ∧
      ∀ bag, bag = r.attributes ∨ bag ∈ r.instances → ∃ i < instances.length,
        bag = ((ofPlan p).run (max 1 budget)).1.finalAttributes r.id d i := by
  obtain ⟨d, found, made⟩ := exists_resource? h
  obtain ⟨instances, known⟩ := (begun_ofPlan p).toStaged.instances_run found
  obtain ⟨-, raw, cardinality, bags⟩ := of_resource? known made
  have names : d.attributes.map (·.1) = r.raw.map (·.1) := by
    rw [(begun_ofPlan p).attributes_run found, Source.keys_ofEntries, raw]
  exact ⟨d, instances, found, known, raw, names, cardinality, bags⟩

/-- Whatever the budget is, only attributes of resources whose number of instances was left over
    when the passes ended are pending after a run. All other attributes in the result are recorded,
    and those without templates come out as they were written, in every instance. With a budget that
    is large enough no number of instances is left over, and nothing is pending in the end. -/
theorem run_recorded (p : Plan) :
    (∀ budget slot, slot ∈ ((ofPlan p).run budget).1.pending ↔
      ∃ id i name, slot = .attr id i name ∧
        .extent id ∈ ((ofPlan p).tried budget).stuckExtents ∧
        (Keyed.find? slot ((ofPlan p).run budget).1.cells).isSome) ∧
    (∀ budget, ∀ r ∈ (p.resolve budget).resources, ∀ e ∈ r.raw, ∀ i < r.cardinality,
      (((ofPlan p).run (max 1 budget)).1.value? (.attr r.id i e.1)).isSome ↔
        .extent r.id ∉ ((ofPlan p).tried (max 1 budget)).stuckExtents) ∧
    (∀ budget, ∀ r ∈ (p.resolve budget).resources, (r.raw.map (·.1)).Nodup →
      .extent r.id ∉ ((ofPlan p).tried (max 1 budget)).stuckExtents →
      ∀ e ∈ r.raw, e.2.IsPlain → e ∈ r.attributes ∧ ∀ bag ∈ r.instances, e ∈ bag) ∧
    ∃ enough, ∀ budget ≥ enough, ((ofPlan p).tried budget).stuckExtents = [] ∧
      ((ofPlan p).run budget).1.pending = [] := by
  have begun := begun_ofPlan p
  have staged := begun.toStaged
  have pending : ∀ budget slot, slot ∈ ((ofPlan p).run budget).1.pending ↔
      ∃ id i name, slot = .attr id i name ∧
        .extent id ∈ ((ofPlan p).tried budget).stuckExtents ∧
        (Keyed.find? slot ((ofPlan p).run budget).1.cells).isSome := fun budget slot =>
    (mem_pending (staged.run budget).staged.sorted).trans staged.isPending_run
  refine ⟨pending, fun budget r kept e inside i lt => ?_,
    fun budget r kept once settled e inside plain => ?_, ?_⟩
  · obtain ⟨d, instances, found, known, -, names, cardinality, -⟩ := of_resolve kept
    exact staged.isSome_value?_run found known (cardinality ▸ lt)
      (names ▸ List.mem_map_of_mem inside)
  · obtain ⟨d, instances, found, known, raw, names, cardinality, bags⟩ := of_resolve kept
    have named : e.1 ∈ d.attributes.map (·.1) := names ▸ List.mem_map_of_mem inside
    -- The attributes of the first instance and those of all instances are read alike.
    have shown : ∀ bag, bag = r.attributes ∨ bag ∈ r.instances → e ∈ bag := by
      intro bag hbag
      obtain ⟨i, lt, rfl⟩ := bags bag hbag
      have some := (staged.isSome_value?_run found known lt named).2 settled
      obtain ⟨v, value⟩ := Option.isSome_iff_exists.1 some
      cases begun.value?_plain found (raw ▸ once) (raw ▸ inside) plain value
      exact mem_finalAttributes named value
    exact ⟨shown _ (.inl rfl), fun bag hbag => shown bag (.inr hbag)⟩
  · obtain ⟨enough, rests⟩ := staged.tried_rests
    refine ⟨enough, fun budget large => ?_⟩
    have none := (rests budget large).stuckExtents
    refine ⟨none, List.eq_nil_iff_forall_not_mem.2 fun slot waits => ?_⟩
    obtain ⟨id, _, _, -, stuck, -⟩ := (pending budget slot).1 waits
    rw [none] at stuck
    exact absurd stuck List.not_mem_nil

/-- A resource whose number of instances is an attribute of another one, so that a single pass comes
    to it too early. -/
def late : Plan where
  resources := [
    ⟨"aws_a", "x", "", .managed, [("name", .text "lit")], some (.text "$\x7baws_b.y.n\x7d"), none,
      []⟩,
    ⟨"aws_b", "y", "", .managed, [("n", .int 1)], none, none, []⟩]
  inputs := []
  locals := []
  calls := []
  dependencies := []

/-- After a single pass, an attribute without templates is pending and comes out as a
    placeholder. -/
theorem run_leaves_literal : ((ofPlan late).run 1).1.pending = [.attr "aws_a.x" 0 "name"] ∧
    ∃ r ∈ (late.resolve 1).resources, Keyed.find? "name" r.raw = some (.text "lit") ∧
      Keyed.find? "name" r.attributes = some (.unresolved "aws_a.x[0].name") := by
  refine ⟨by decide +kernel, ?_⟩
  have shown : (late.resolve 1).resources.any (fun r =>
      (Keyed.find? "name" r.raw).any (sameValue (.text "lit")) &&
        (Keyed.find? "name" r.attributes).any (sameValue (.unresolved "aws_a.x[0].name"))) =
      true := by
    decide +kernel
  obtain ⟨r, kept, shown⟩ := List.any_eq_true.1 shown
  rw [Bool.and_eq_true] at shown
  obtain ⟨v, raw, same⟩ := (Option.any_eq_true _ _).1 shown.1
  obtain ⟨w, left, same'⟩ := (Option.any_eq_true _ _).1 shown.2
  rw [eq_text_of_sameValue same] at raw
  rw [eq_unresolved_of_sameValue same'] at left
  exact ⟨r, kept, raw, left⟩

end State

end Resolution

end Cartograph

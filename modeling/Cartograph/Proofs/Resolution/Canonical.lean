import Cartograph.Discovery
import Cartograph.Proofs.Canonical
import Cartograph.Proofs.Resolution.Run
import Cartograph.Proofs.Resolution.Slot
import Cartograph.Proofs.Resolution.Source

/-!
# Resolutions of canonical plans

A plan is canonical if all values written in it are (`Plan.Canonical`). All that a resolution of it
comes to is canonical again (`Plan.Canonical.resolve`): the sources of slots are canonical at the
beginning and stay so with all values recorded for them (`State.canonical_invariant`), and so is
what a scope answers (`State.Canonical.scope`).
-/

namespace Cartograph

namespace Plan

/-- The values of a resource are canonical as written. -/
structure Resource.Canonical (r : Resource) : Prop where
  attributes : (Value.map r.attributes).Canonical
  count : ∀ v ∈ r.count, v.Canonical
  forEach : ∀ v ∈ r.forEach, v.Canonical

/-- The values of a variable are canonical. -/
structure Input.Canonical (i : Input) : Prop where
  default : ∀ v ∈ i.default, v.Canonical
  value : ∀ v ∈ i.value, v.Canonical

/-- The values of a call are canonical as written. -/
structure ModuleCall.Canonical (c : ModuleCall) : Prop where
  arguments : (Value.map c.arguments).Canonical
  outputs : (Value.map c.outputs).Canonical

/-- All values in a plan are canonical. -/
structure Canonical (p : Plan) : Prop where
  resources : ∀ r ∈ p.resources, r.Canonical
  inputs : ∀ i ∈ p.inputs, i.Canonical
  calls : ∀ c ∈ p.calls, c.Canonical

end Plan

namespace Resolution

open Expression

/-- What an instance stands for is canonical. -/
def Instance.Canonical : Instance → Prop
  | keyed _ v => v.Canonical
  | _ => True

/-- A slot's source, instance and value are canonical. -/
structure Cell.Canonical (c : Cell) : Prop where
  source : c.source.Canonical
  instanceOf : c.instanceOf.Canonical
  value : ∀ v, c.value = some v → v.Canonical

/-- A resource's attributes are canonical, as written and as sources. -/
structure Declared.Canonical (d : Declared) : Prop where
  written : (Value.map d.record.attributes).Canonical
  attributes : (Source.map d.attributes).Canonical

/-- Slots are sorted, and all that is known of slots and resources is canonical. -/
structure State.Canonical (s : State) : Prop where
  sorted : Keyed.IsSorted s.cells
  cells : ∀ e ∈ s.cells, e.2.Canonical
  declared : ∀ e ∈ s.declared, e.2.Canonical
  data : ∀ e ∈ s.data, (Value.map e.2.attributes).Canonical

theorem Source.Canonical.map_iff {entries : List (String × Source)} :
    Source.Canonical (.map entries) ↔
      Keyed.IsSorted entries ∧ ∀ e ∈ entries, e.2.Canonical := by
  constructor
  · intro h
    cases h with
    | map sorted h => exact ⟨sorted, h⟩
  · exact fun h => .map h.1 h.2

theorem Instance.Canonical.bindings {i : Instance} (h : i.Canonical) :
    i.bindings.Canonical := by
  cases i with
  | sole => exact List.forall_mem_nil _
  | numbered n =>
    refine Bindings.Canonical.cons (List.forall_mem_nil _) ?_
    exact .map (by simp [Keyed.IsSorted]) (by simpa using .int (Decimal.isWord_ofSize n))
  | keyed key v =>
    refine Bindings.Canonical.cons (List.forall_mem_nil _) ?_
    have sorted : ("key" : String) < "value" := by decide
    refine .map (List.pairwise_pair.2 sorted) (List.forall_mem_cons.2 ⟨.text, ?_⟩)
    exact List.forall_mem_cons.2 ⟨h, List.forall_mem_nil _⟩

namespace State

variable {s : State} {id : NodeId} {d : Declared} {slot : Slot} {v : Value}

/-! ### What names stand for -/

theorem Canonical.cell (h : s.Canonical) {c : Cell} (found : Keyed.find? slot s.cells = some c) :
    c.Canonical := h.cells _ (Keyed.mem_of_find? found)

theorem Canonical.slotAnswer (h : s.Canonical) {taken n : Nat}
    (answered : s.slotAnswer slot taken = .found v n) : v.Canonical := by
  unfold State.slotAnswer at answered
  split at answered
  · exact absurd answered (by simp)
  · next found =>
    split at answered
    · next known =>
      cases answered
      exact (h.cell found).value v known
    · exact absurd answered (by simp)

theorem Canonical.attrValue? (h : s.Canonical) {i : Nat} {name : String}
    (known : s.attrValue? id d i name = some v) : v.Canonical := by
  unfold State.attrValue? at known
  split at known
  · next found => exact (h.cell found).value v known
  · cases known
    exact .text

theorem Canonical.objectValue? (h : s.Canonical) (hd : d.Canonical) {i : Nat}
    (known : s.objectValue? id d i = some v) : v.Canonical := by
  obtain ⟨entries, read, known⟩ := Option.bind_eq_some_iff.1 known
  cases known
  have sorted := (Source.Canonical.map_iff.1 hd.attributes).1
  have written : (Value.map entries).Canonical := by
    refine .map (sorted.of_keys_eq (keys_of_mapM read)) fun e he => ?_
    obtain ⟨a, -, entry⟩ := of_mem_mapM read e he
    obtain ⟨v, known, rfl⟩ := Option.map_eq_some_iff.1 entry
    exact h.attrValue? known
  split
  · exact written
  · exact written.insert .text

theorem Canonical.everyValue? (h : s.Canonical) (hd : d.Canonical) {n : Nat}
    {name : Option String} {vs : List Value} (known : s.everyValue? id d n name = some vs) :
    ∀ v ∈ vs, v.Canonical := by
  intro v hv
  obtain ⟨i, -, read⟩ := of_mem_mapM known v hv
  cases name with
  | some a => exact h.attrValue? read
  | none => exact h.objectValue? hd read

theorem answerWith_canonical {o : Option Value} {taken n : Nat}
    (each : ∀ v, o = some v → v.Canonical) (answered : answerWith o taken = .found v n) :
    v.Canonical := by
  cases o with
  | none => exact absurd answered (by simp [answerWith])
  | some =>
    cases answered
    exact each v rfl

theorem Canonical.instancesAnswer (h : s.Canonical) (hd : d.Canonical) {n taken : Nat}
    {steps : List Step} (answered : s.instancesAnswer id d n steps = .found v taken) :
    v.Canonical := by
  have attr (i : Nat) (a : String) : ∀ v, s.attrValue? id d i a = some v → v.Canonical :=
    fun _ => h.attrValue?
  have object (i : Nat) : ∀ v, s.objectValue? id d i = some v → v.Canonical :=
    fun _ => h.objectValue? hd
  have every (name : Option String) :
      ∀ v, (s.everyValue? id d n name).map Value.list = some v → v.Canonical := by
    intro v read
    obtain ⟨vs, known, rfl⟩ := Option.map_eq_some_iff.1 read
    exact .list (h.everyValue? hd known)
  unfold State.instancesAnswer at answered
  split at answered
  · split at answered
    · exact absurd answered (by simp)
    · split at answered
      · exact answerWith_canonical (attr _ _) answered
      · exact answerWith_canonical (object _) answered
  · exact answerWith_canonical (every _) answered
  · exact answerWith_canonical (every _) answered
  · split at answered
    · exact answerWith_canonical (attr _ _) answered
    · exact answerWith_canonical (every _) answered
  · split at answered
    · exact answerWith_canonical (object _) answered
    · exact answerWith_canonical (every _) answered
    · refine answerWith_canonical (fun v read => ?_) answered
      obtain ⟨vs, known, rfl⟩ := Option.map_eq_some_iff.1 read
      refine .map (Keyed.isSorted_sorted _) fun e he => ?_
      exact h.everyValue? hd known e.2 (List.of_mem_zip (Keyed.mem_sorted he)).2

theorem Canonical.resourceAnswer (h : s.Canonical) {module resourceType : String}
    {steps : List Step} {taken : Nat}
    (answered : s.resourceAnswer module resourceType steps = .found v taken) : v.Canonical := by
  unfold State.resourceAnswer at answered
  split at answered
  · dsimp only at answered
    split at answered
    · exact absurd answered (by simp)
    · next found =>
      split at answered
      · exact absurd answered (by simp)
      · exact h.instancesAnswer (h.declared _ (Keyed.mem_of_find? found)) answered
  · exact absurd answered (by simp)

theorem Canonical.dataAttributes (h : s.Canonical) (id : NodeId) :
    (Value.map (s.dataAttributes id)).Canonical := by
  unfold State.dataAttributes
  split
  · next found => exact h.data _ (Keyed.mem_of_find? found)
  · exact .empty

theorem Canonical.dataAnswer (h : s.Canonical) {module : String} {steps : List Step} {taken : Nat}
    (answered : s.dataAnswer module steps = .found v taken) : v.Canonical := by
  unfold State.dataAnswer at answered
  split at answered
  · next resourceType name rest =>
    have written := h.dataAttributes (Plan.dataId module resourceType name)
    dsimp only at answered
    split at answered
    · split at answered
      · next found =>
        cases answered
        split
        · exact .text
        · exact written.find found
      · cases answered
        exact .text
    · cases answered
      split
      · exact written
      · exact written.insert .text
  · exact absurd answered (by simp)

/-- The names of a module's outputs increase in the order of slots. -/
theorem isSorted_outputsOf {path : String} (sorted : Keyed.IsSorted s.cells) :
    Keyed.IsSorted (s.outputsOf path) := by
  unfold Keyed.IsSorted outputsOf
  rw [List.pairwise_map, List.pairwise_filterMap]
  refine (List.pairwise_map.1 sorted).imp fun {a b} less x hx y hy => ?_
  obtain ⟨slot, c⟩ := a
  obtain ⟨slot', c'⟩ := b
  cases slot <;> cases slot' <;> simp at hx hy
  obtain ⟨rfl, rfl⟩ := hx
  obtain ⟨rfl, rfl⟩ := hy
  change Slot.lt _ _ at less
  simpa [Slot.lt, Slot.rank, Slot.owner, Slot.number, Slot.name] using less

theorem Canonical.moduleAnswer (h : s.Canonical) {module : String} {steps : List Step}
    {taken : Nat} (answered : s.moduleAnswer module steps = .found v taken) : v.Canonical := by
  unfold State.moduleAnswer at answered
  split at answered
  · dsimp only at answered
    split at answered
    · exact absurd answered (by simp)
    · split at answered
      · exact h.slotAnswer answered
      · split at answered
        · next entries read =>
          cases answered
          have keys := keys_of_mapM (f := fun e => e.2) read
          refine .map ((isSorted_outputsOf h.sorted).of_keys_eq keys) fun e he => ?_
          obtain ⟨⟨name, o⟩, member, entry⟩ := of_mem_mapM read e he
          obtain ⟨v, known, rfl⟩ := Option.map_eq_some_iff.1 entry
          obtain ⟨⟨slot, c⟩, inside, output⟩ := List.mem_filterMap.1 member
          cases slot <;> simp at output
          exact (h.cells _ inside).value _ (output.2.2.trans known)
        · exact absurd answered (by simp)
  · exact absurd answered (by simp)

theorem Canonical.tableAnswer (h : s.Canonical) {table : String} {slot : String → Slot}
    {steps : List Step} {taken : Nat}
    (answered : s.tableAnswer table slot steps = .found v taken) : v.Canonical := by
  unfold State.tableAnswer at answered
  split at answered
  · exact h.slotAnswer answered
  · exact absurd answered (by simp)

/-- What a scope answers in a canonical state is canonical. -/
theorem Canonical.scope (h : s.Canonical) (module : String) : (s.scope module).Canonical := by
  intro root steps v taken answered
  unfold State.scope at answered
  dsimp only at answered
  split at answered
  case h_1 | h_2 => exact h.tableAnswer answered
  case h_3 => exact h.moduleAnswer answered
  case h_4 | h_5 =>
    cases answered
    exact .map (by unfold Keyed.IsSorted; decide) (by simp [Value.Canonical.text])
  case h_6 => exact h.dataAnswer answered
  case h_7 | h_8 | h_9 => exact absurd answered (by simp)
  case h_10 => exact h.resourceAnswer answered

/-! ### Steps -/

theorem Canonical.addSlot (h : s.Canonical) {module : String} {source : Source} {i : Instance}
    (hs : source.Canonical) (hi : i.Canonical) : (s.addSlot slot module source i).Canonical where
  sorted := h.sorted.insert
  cells e he := by
    rcases Keyed.mem_insert he with rfl | old
    · exact ⟨hs, hi, fun _ none => absurd none (by simp)⟩
    · exact h.cells e old
  declared := h.declared
  data := h.data

theorem Canonical.setValue (h : s.Canonical) (hv : v.Canonical) :
    (s.setValue slot v).Canonical where
  sorted := by
    unfold State.setValue
    dsimp only
    exact h.sorted.modify
  cells e he := by
    obtain ⟨⟨other, c⟩, inside, rfl⟩ := List.mem_map.1 he
    have old := h.cells _ inside
    dsimp only
    split
    · exact ⟨old.source, old.instanceOf, fun w same => Option.some.inj same ▸ hv⟩
    · exact old
  declared := h.declared
  data := h.data

theorem Canonical.declare (h : s.Canonical) (hd : d.Canonical) :
    ({ s with declared := Keyed.insert id d s.declared } : State).Canonical where
  sorted := h.sorted
  cells := h.cells
  declared e he := by
    rcases Keyed.mem_insert he with rfl | old
    · exact hd
    · exact h.declared e old
  data := h.data

theorem Canonical.setInstances (h : s.Canonical) {instances : List Instance} {keys : List String}
    (hi : ∀ i ∈ instances, i.Canonical) : (s.setInstances id instances keys).Canonical := by
  unfold State.setInstances
  split
  · exact h
  · next d found =>
    have hd := h.declared _ (Keyed.mem_of_find? found)
    refine Invariant.foldl (h.declare ⟨hd.written, hd.attributes⟩) fun t member inside ht => ?_
    have known := hi _ (List.fst_mem_of_mem_zipIdx inside)
    refine Invariant.foldl ht fun t e he ht => ht.addSlot ?_ known
    exact (Source.Canonical.map_iff.1 hd.attributes).2 e he

theorem instancesOf_canonical {repetition : Repeat} {instances : List Instance}
    {keys : List String} (hv : v.Canonical)
    (fixed : instancesOf repetition v = .ok (instances, keys)) :
    ∀ i ∈ instances, i.Canonical := by
  unfold instancesOf at fixed
  split at fixed
  · exact absurd fixed (by simp)
  · split at fixed
    · cases fixed
      exact fun i hi => List.mem_singleton.1 hi ▸ trivial
    · split at fixed
      · split at fixed
        · cases fixed
          intro i hi
          obtain ⟨n, -, rfl⟩ := List.mem_map.1 hi
          trivial
        · exact absurd fixed (by simp)
      · exact absurd fixed (by simp)
    · split at fixed
      · cases fixed
        intro i hi
        obtain ⟨e, he, rfl⟩ := List.mem_map.1 hi
        exact (Value.Canonical.map_iff.1 hv).2 e he
      · cases fixed
        intro i hi
        obtain ⟨w, hw, rfl⟩ := List.mem_map.1 hi
        exact setOf_canonical (Value.Canonical.list_iff.1 hv) w hw
      · exact absurd fixed (by simp)

/-- A resolution keeps states canonical and finds canonical values. -/
theorem canonical_invariant : Invariant Canonical Value.Canonical Instance.Canonical where
  report h := ⟨h.sorted, h.cells, h.declared, h.data⟩
  setInstances h hi := h.setInstances hi
  setValue h hv := h.setValue hv
  evaluated h found value :=
    have cell := h.cell found
    Source.eval_canonical (h.scope _) cell.instanceOf.bindings cell.source _ value
  placeholder {s slot} h := by
    unfold placeholderOf
    split
    · next found =>
      have cell := h.cell found
      exact Source.evalLenient_canonical (h.scope _) cell.instanceOf.bindings cell.source
    · exact .unresolved
  one := .int (by decide)
  members hv fixed := instancesOf_canonical hv fixed
  fallback
    | .forEach => .null
    | .single | .count => trivial

/-! ### The beginning -/

theorem Canonical.report (h : s.Canonical) {kind : Diagnostic.Kind} {node : Option NodeId}
    {message : String} : (s.report kind node message).Canonical :=
  ⟨h.sorted, h.cells, h.declared, h.data⟩

theorem Canonical.reportMalformed (h : s.Canonical) {node : Option NodeId}
    {messages : List String} : (s.reportMalformed node messages).Canonical :=
  Invariant.foldl h fun _ _ _ h => h.report

theorem Canonical.addValue (h : s.Canonical) {module : String} {node : Option NodeId}
    (hv : v.Canonical) : (s.addValue slot module node v).Canonical :=
  h.reportMalformed.addSlot (Source.ofValue_canonical hv) trivial

theorem argumentsOf_canonical {calls : List Plan.ModuleCall} (h : ∀ c ∈ calls, c.Canonical) :
    ∀ a ∈ argumentsOf calls, a.2.2.Canonical := by
  intro a ha
  obtain ⟨c, hc, inside⟩ := List.mem_flatMap.1 (Keyed.mem_sorted ha)
  obtain ⟨e, he, rfl⟩ := List.mem_map.1 inside
  exact (Value.Canonical.map_iff.1 (h c hc).arguments).2 e he

theorem Canonical.addInput {arguments : List (Slot × String × Value)} {i : Plan.Input}
    (h : s.Canonical) (ha : ∀ a ∈ arguments, a.2.2.Canonical) (hi : i.Canonical) :
    (addInput (s, arguments) i).1.Canonical ∧
      ∀ a ∈ (addInput (s, arguments) i).2, a.2.2.Canonical := by
  have rest : ∀ a ∈ Keyed.erase (.input i.module i.name) arguments, a.2.2.Canonical :=
    fun a inside => ha a (List.mem_filter.1 inside).1
  unfold State.addInput
  dsimp only
  split
  · next given => exact ⟨h.addSlot (.literal (hi.value _ given)) trivial, rest⟩
  · next _ found => exact ⟨h.addValue (ha _ (Keyed.mem_of_find? found)), rest⟩
  · next given => exact ⟨h.addSlot (.literal (hi.default _ given)) trivial, rest⟩
  · exact ⟨h, rest⟩

theorem Canonical.addInputs {inputs : List Plan.Input} {arguments : List (Slot × String × Value)}
    (h : s.Canonical) (ha : ∀ a ∈ arguments, a.2.2.Canonical) (hi : ∀ i ∈ inputs, i.Canonical) :
    (inputs.foldl State.addInput (s, arguments)).1.Canonical ∧
      ∀ a ∈ (inputs.foldl State.addInput (s, arguments)).2, a.2.2.Canonical := by
  induction inputs generalizing s arguments with
  | nil => exact ⟨h, ha⟩
  | cons i rest ih =>
    obtain ⟨first, others⟩ := List.forall_mem_cons.1 hi
    obtain ⟨after, left⟩ := h.addInput ha first
    exact ih after left others

theorem Canonical.addLocal (h : s.Canonical) (l : Plan.Local) : (s.addLocal l).Canonical := by
  unfold State.addLocal
  dsimp only
  split
  · exact h.addSlot .expr trivial
  · exact h.report.addSlot (.literal .text) trivial

theorem Canonical.addOutputs (h : s.Canonical) {c : Plan.ModuleCall} (hc : c.Canonical) :
    (s.addOutputs c).Canonical :=
  Invariant.foldl h fun _ e he h => h.addValue ((Value.Canonical.map_iff.1 hc.outputs).2 e he)

theorem Canonical.addDeclared (h : s.Canonical) {r : Plan.Resource} (hr : r.Canonical) :
    (s.addDeclared r).Canonical := by
  have source : (Source.map (Source.ofEntries r.attributes).1).Canonical :=
    Source.ofValue_canonical hr.attributes
  have reported : (if r.count.isSome && r.forEach.isSome then
      (s.reportMalformed (some r.id) (Source.ofEntries r.attributes).2).report .approximation
        (some r.id) "both count and for_each set; using count"
      else s.reportMalformed (some r.id) (Source.ofEntries r.attributes).2).Canonical := by
    split
    · exact h.reportMalformed.report
    · exact h.reportMalformed
  unfold State.addDeclared
  dsimp only
  split
  · next written =>
    refine (reported.declare ⟨hr.attributes, source⟩).addValue ?_
    split at written
    · next given =>
      cases written
      exact hr.count _ given
    · next given =>
      cases written
      exact hr.forEach _ given
    · exact absurd written (by simp)
  · refine (reported.declare ⟨hr.attributes, source⟩).setInstances ?_
    exact List.forall_mem_cons.2 ⟨trivial, List.forall_mem_nil _⟩

theorem Canonical.addResource (h : s.Canonical) {r : Plan.Resource} (hr : r.Canonical) :
    (s.addResource r).Canonical := by
  unfold State.addResource
  split
  · refine ⟨h.sorted, h.cells, h.declared, fun e he => ?_⟩
    rcases Keyed.mem_insert he with rfl | old
    · exact hr.attributes
    · exact h.data e old
  · split
    · exact h
    · exact h.addDeclared hr

/-- The beginning of the resolution of a canonical plan is canonical. -/
theorem ofPlan_canonical {p : Plan} (h : p.Canonical) : (ofPlan p).Canonical := by
  have start : State.Canonical ⟨p.calls.map Plan.ModuleCall.path, [], [], [], []⟩ :=
    ⟨by simp [Keyed.IsSorted], List.forall_mem_nil _, List.forall_mem_nil _, List.forall_mem_nil _⟩
  obtain ⟨inputs, left⟩ := start.addInputs (argumentsOf_canonical h.calls) h.inputs
  refine Invariant.foldl (Invariant.foldl (Invariant.foldl (Invariant.foldl inputs ?_) ?_) ?_) ?_
  · exact fun s a ha hs => hs.addValue (left a ha)
  · exact fun s l _ hs => hs.addLocal l
  · exact fun s c hc hs => hs.addOutputs (h.calls c hc)
  · exact fun s r hr hs => hs.addResource (h.resources r hr)

/-! ### The result -/

theorem Canonical.finalAttributes (h : s.Canonical) (hd : d.Canonical) (i : Nat) :
    (Value.map (s.finalAttributes id d i)).Canonical := by
  have sorted := (Source.Canonical.map_iff.1 hd.attributes).1
  refine .map (sorted.of_keys_eq ?_) fun e he => ?_
  · unfold State.finalAttributes
    rw [List.map_map]
    rfl
  · obtain ⟨a, -, rfl⟩ := List.mem_map.1 he
    dsimp only
    unfold finalValue
    split
    · next found => exact (h.cell found).value _ rfl
    · exact .unresolved

end State

/-- The attributes of a resolved resource are canonical, those of every instance and as written. -/
structure Resource.Canonical (r : Resource) : Prop where
  attributes : (Value.map r.attributes).Canonical
  raw : (Value.map r.raw).Canonical
  instances : ∀ as ∈ r.instances, (Value.map as).Canonical

theorem State.Canonical.resource? {s : State} {id : NodeId} {d : Declared} {r : Resource}
    (h : s.Canonical) (hd : d.Canonical) (resolved : s.resource? id d = some r) :
    r.Canonical := by
  unfold State.resource? at resolved
  dsimp only at resolved
  split at resolved
  · exact absurd resolved (by simp)
  · cases resolved
    have all : ∀ as ∈ (List.range ((d.instances.map List.length).getD 1)).map
        (s.finalAttributes id d), (Value.map as).Canonical := by
      intro as has
      obtain ⟨i, -, rfl⟩ := List.mem_map.1 has
      exact h.finalAttributes hd i
    refine ⟨?_, hd.written, ?_⟩
    · rw [List.headD_eq_head?_getD]
      cases first : ((List.range ((d.instances.map List.length).getD 1)).map
        (s.finalAttributes id d)).head? with
      | none => exact .empty
      | some as => exact all as (List.mem_of_head? first)
    · dsimp only
      split
      · exact List.forall_mem_nil _
      · exact all

end Resolution

/-- All resources that a canonical plan resolves to are canonical. -/
theorem Plan.Canonical.resolve {p : Plan} (h : p.Canonical) {budget : Nat} :
    ∀ r ∈ (p.resolve budget).resources, r.Canonical := by
  intro r hr
  obtain ⟨id, -, hr⟩ := List.mem_filterMap.1 hr
  obtain ⟨d, found, resolved⟩ := Option.bind_eq_some_iff.1 hr
  have final := Resolution.State.canonical_invariant.run
    (Resolution.State.ofPlan_canonical h) (max 1 budget)
  exact final.resource? (final.declared _ (Keyed.mem_of_find? found)) resolved

/-- The node of a resource with canonical attributes holds nothing else. -/
theorem Resolution.Resource.Canonical.metaOf {r : Resolution.Resource} (h : r.Canonical)
    (p : Rules.Providers) : (Discovery.metaOf p r).Holds .canonical where
  attributes := h.attributes
  raw := h.raw
  instances := h.instances
  count := trivial
  labels := Content.canonical_closed.labels_nil

end Cartograph

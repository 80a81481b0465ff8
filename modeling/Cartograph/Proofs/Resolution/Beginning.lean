import Cartograph.Proofs.Resolution.Staged

/-!
# The beginning of a resolution

The state that a plan begins with is a stage (`begun_ofPlan`): a resource that says how often it is
repeated has a pending slot for that and no slots for attributes, any other resource has the slots
of its only instance. Nothing has a value yet, and the attributes are those that were written.
-/

namespace Cartograph.Resolution.State

variable {s t : State} {id : NodeId} {slot : Slot} {c : Cell} {d : Declared} {v : Value}
  {instances : List Instance} {keys : List String}

/-- A stage in which nothing has a value yet, with the attributes of resources as they were
    written. -/
structure Begun (s : State) : Prop extends Staged s where
  blank : ∀ slot, s.value? slot = none
  written : ∀ id d, Keyed.find? id s.declared = some d →
    d.attributes = (Source.ofEntries d.record.attributes).1

theorem Begun.report (h : s.Begun) (kind : Diagnostic.Kind) (node : Option NodeId)
    (message : String) : (s.report kind node message).Begun :=
  ⟨h.toStaged.report _ _ _, h.blank, h.written⟩

theorem blank_insert (blank : ∀ slot, s.value? slot = none) (waits : c.value = none)
    (cells : t.cells = Keyed.insert slot c s.cells) (other : Slot) : t.value? other = none := by
  rw [value?, cells, Keyed.find?_insert]
  split
  · exact waits
  · exact blank other

theorem Begun.addSlot (h : s.Begun) (plain : slot.resource? = none) {module : String}
    {source : Source} {i : Instance} : (s.addSlot slot module source i).Begun := by
  have ne : ∀ other, other.resource?.isSome → slot ≠ other := by
    rintro other owned rfl
    rw [plain] at owned
    exact absurd owned (by simp)
  have same : ∀ other, other.resource?.isSome →
      Keyed.find? other (s.addSlot slot module source i).cells = Keyed.find? other s.cells := by
    intro other owned
    rw [State.addSlot, Keyed.find?_insert, if_neg (ne other owned)]
  refine ⟨⟨h.sorted.insert, fun id i name => ?_, fun id d found => ?_, fun id there => ?_⟩,
    blank_insert (t := s.addSlot slot module source i) h.blank rfl rfl, h.written⟩
  · rw [same _ rfl]
    exact h.attrs id i name
  · rw [IsPending, same _ rfl]
    exact h.extent id d found
  · rw [same _ rfl] at there
    exact h.declared id there

theorem Begun.reportMalformed (h : s.Begun) (node : Option NodeId) (messages : List String) :
    (s.reportMalformed node messages).Begun :=
  Invariant.foldl h fun _ _ _ h => h.report _ _ _

theorem Begun.addValue (h : s.Begun) (plain : slot.resource? = none) {module : String}
    {node : Option NodeId} : (s.addValue slot module node v).Begun :=
  (h.reportMalformed node _).addSlot plain

theorem Begun.addInput (h : s.Begun) (arguments : List (Slot × String × Value))
    (i : Plan.Input) : (addInput (s, arguments) i).1.Begun := by
  rw [State.addInput]
  split
  · exact h.addSlot rfl
  · exact h.addValue rfl
  · exact h.addSlot rfl
  · exact h

theorem Begun.addLocal (h : s.Begun) (l : Plan.Local) : (s.addLocal l).Begun := by
  rw [State.addLocal]
  split
  · exact h.addSlot rfl
  · exact (h.report _ _ _).addSlot rfl

theorem Begun.addOutputs (h : s.Begun) (call : Plan.ModuleCall) : (s.addOutputs call).Begun :=
  Invariant.foldl h fun _ _ _ h => h.addValue rfl

/-- The arguments that no declared variable takes are slots of variables still. -/
theorem arguments_addInput {arguments : List (Slot × String × Value)} {i : Plan.Input}
    (inputs : ∀ a ∈ arguments, a.1.resource? = none) :
    ∀ a ∈ (addInput (s, arguments) i).2, a.1.resource? = none := by
  have rest : (addInput (s, arguments) i).2 = Keyed.erase (.input i.module i.name) arguments := by
    rw [addInput]
    split <;> rfl
  rw [rest]
  exact fun a inside => inputs a (List.mem_filter.1 inside).1

theorem arguments_inputs (calls : List Plan.ModuleCall) :
    ∀ a ∈ argumentsOf calls, a.1.resource? = none := by
  intro a inside
  obtain ⟨call, -, inside⟩ := List.mem_flatMap.1 (Keyed.mem_sorted inside)
  obtain ⟨e, -, rfl⟩ := List.mem_map.1 inside
  rfl

section New

variable (h : s.Begun) (new : Keyed.find? id s.declared = none)

include h in
theorem Begun.written_insert (own : d.attributes = (Source.ofEntries d.record.attributes).1)
    (r : NodeId) (e : Declared) (found : Keyed.find? r (Keyed.insert id d s.declared) = some e) :
    e.attributes = (Source.ofEntries e.record.attributes).1 := by
  rw [Keyed.find?_insert] at found
  split at found
  · cases found
    exact own
  · exact h.written r e found

include h new

/-- A new resource has no slots yet. -/
theorem Begun.none_of_new (slot : Slot) (own : slot.resource? = some id) :
    Keyed.find? slot s.cells = none := by
  cases slot with
  | extent r =>
    cases own
    cases missing : Keyed.find? (.extent id) s.cells with
    | none => rfl
    | some c =>
      have there := h.declared id (by rw [missing]; rfl)
      exact absurd there (by rw [new]; simp)
  | attr r i name =>
    -- Attribute slots are those of declared resources.
    cases own
    have none := h.attrs id i name
    rw [new, Option.bind_none] at none
    exact Option.map_eq_none_iff.1 none
  | _ => exact absurd own (by simp [Slot.resource?])

/-- With the slot of its number of instances. -/
theorem Begun.of_extent (unknown : d.instances = none) (waits : c.value = none)
    (own : d.attributes = (Source.ofEntries d.record.attributes).1)
    (cells : t.cells = Keyed.insert (.extent id) c s.cells)
    (declared : t.declared = Keyed.insert id d s.declared) : t.Begun where
  blank := blank_insert h.blank waits cells
  written r e found := h.written_insert own r e (declared ▸ found)
  sorted := cells ▸ h.sorted.insert
  attrs r i name := by
    rw [cells, declared, Keyed.find?_insert, if_neg (by simp), Keyed.find?_insert]
    split
    · next same =>
      subst same
      rw [h.none_of_new new _ rfl, Option.bind_some, Declared.attrCell?, unknown]
      rfl
    · exact h.attrs r i name
  extent r e found := by
    rw [declared, Keyed.find?_insert] at found
    rw [IsPending, cells, Keyed.find?_insert]
    split at found
    · next same =>
      subst same
      cases found
      simp [unknown, waits]
    · next other =>
      rw [if_neg (by simpa using other)]
      exact h.extent r e found
  declared r there := by
    rw [cells, Keyed.find?_insert] at there
    rw [declared, Keyed.find?_insert]
    split
    · rfl
    · next other =>
      rw [if_neg (by simpa using other)] at there
      exact h.declared r there

/-- With its instances. -/
theorem Begun.of_instances (own : d.attributes = (Source.ofEntries d.record.attributes).1) :
    (({ s with declared := Keyed.insert id d s.declared } : State).setInstances id instances
      keys).Begun := by
  have found : Keyed.find? id (Keyed.insert id d s.declared) = some d := by
    rw [Keyed.find?_insert, if_pos rfl]
  have declared : (({ s with declared := Keyed.insert id d s.declared } : State).setInstances id
      instances keys).declared = Keyed.insert id
        { d with instances := some instances, keys := keys } (Keyed.insert id d s.declared) := by
    rw [declared_setInstances, found]
  -- Its own slots are the attributes it gets with its instances, the others are those before.
  refine ⟨⟨sorted_setInstances h.sorted, fun r i name => ?_, fun r e there => ?_,
    fun r there => ?_⟩, fun slot => ?_, fun r e there => ?_⟩
  · rw [declared, Keyed.find?_insert]
    split
    · next same =>
      subst same
      rw [find?_attr_setInstances found]
      change (Option.or _ (Keyed.find? _ s.cells)).map _ = _
      rw [h.none_of_new new _ rfl, Option.or_none, Declared.blank_attrCell?]
      rfl
    · next other =>
      rw [find?_setInstances_of_ne (by simp [Ne.symm other]), Keyed.find?_insert, if_neg other]
      exact h.attrs r i name
  · rw [declared, Keyed.find?_insert] at there
    rw [IsPending, find?_setInstances_of_ne (by simp)]
    split at there
    · next same =>
      subst same
      cases there
      change _ ↔ ∃ c, Keyed.find? _ s.cells = some c ∧ _
      rw [h.none_of_new new _ rfl]
      simp
    · next other =>
      rw [Keyed.find?_insert, if_neg other] at there
      exact h.extent r e there
  · rw [find?_setInstances_of_ne (by simp)] at there
    rw [declared, Keyed.find?_insert, Keyed.find?_insert]
    split
    · rfl
    · exact h.declared r there
  · rw [value?]
    by_cases attr : ∃ i name, slot = .attr id i name
    · obtain ⟨i, name, rfl⟩ := attr
      rw [find?_attr_setInstances found]
      change (Option.or _ (Keyed.find? _ s.cells)).bind _ = _
      rw [h.none_of_new new _ rfl, Option.or_none]
      exact Declared.value_attrCell? _ i name
    · rw [find?_setInstances_of_ne fun i name same => attr ⟨i, name, same⟩]
      exact h.blank slot
  · rw [declared, Keyed.find?_insert] at there
    split at there
    · cases there
      exact own
    · exact h.written_insert own r e there

end New

theorem cells_reportMalformed (node : Option NodeId) (messages : List String) :
    (s.reportMalformed node messages).cells = s.cells :=
  Invariant.foldl (I := fun t => t.cells = s.cells) rfl fun _ _ _ same => same

theorem Begun.addDeclared (h : s.Begun) {r : Plan.Resource}
    (new : Keyed.find? r.id s.declared = none) : (s.addDeclared r).Begun := by
  have reported := h.reportMalformed (some r.id) (Source.ofEntries r.attributes).2
  have new' : Keyed.find? r.id
      (s.reportMalformed (some r.id) (Source.ofEntries r.attributes).2).declared = none := by
    rw [declared_reportMalformed]
    exact new
  rw [State.addDeclared]
  dsimp only
  split
  · next v _ =>
    have slot {t : State} : (t.addValue (.extent r.id) r.module (some r.id) v).cells =
        Keyed.insert (.extent r.id) ⟨r.module, (Source.ofValue v).1, .sole, none⟩ t.cells :=
      congrArg (Keyed.insert _ _) (cells_reportMalformed _ _)
    split
    · exact (reported.report _ _ _).of_extent new' rfl rfl rfl slot declared_addValue
    · exact reported.of_extent new' rfl rfl rfl slot declared_addValue
  · split
    · exact (reported.report _ _ _).of_instances new' rfl
    · exact reported.of_instances new' rfl

theorem Begun.addResource (h : s.Begun) (r : Plan.Resource) : (s.addResource r).Begun := by
  rw [State.addResource]
  split
  · exact ⟨⟨h.sorted, h.attrs, h.extent, h.declared⟩, h.blank, h.written⟩
  · split
    · exact h
    · next new =>
      refine h.addDeclared ?_
      simpa [Keyed.contains] using new

/-- The state that a plan begins with is a stage in which nothing has a value. -/
theorem begun_ofPlan (p : Plan) : (ofPlan p).Begun := by
  have start : (⟨p.calls.map Plan.ModuleCall.path, [], [], [], []⟩ : State).Begun :=
    ⟨⟨List.Pairwise.nil, fun _ _ _ => rfl, fun _ _ found => absurd found (by simp [Keyed.find?]),
      fun _ there => absurd there (by simp [Keyed.find?])⟩, fun _ => rfl,
      fun _ _ found => absurd found (by simp [Keyed.find?])⟩
  have inputs : ∀ (inputs : List Plan.Input) (s : State × List (Slot × String × Value)),
      s.1.Begun ∧ (∀ a ∈ s.2, a.1.resource? = none) →
        (inputs.foldl State.addInput s).1.Begun ∧
          ∀ a ∈ (inputs.foldl State.addInput s).2, a.1.resource? = none := by
    intro inputs
    induction inputs with
    | nil => exact fun _ h => h
    | cons i rest ih => exact fun s h => ih _ ⟨h.1.addInput s.2 i, arguments_addInput h.2⟩
  obtain ⟨declared, undeclared⟩ := inputs p.inputs (_, argumentsOf p.calls)
    ⟨start, arguments_inputs p.calls⟩
  refine Invariant.foldl ?_ fun _ r _ h => h.addResource r
  refine Invariant.foldl ?_ fun _ call _ h => h.addOutputs call
  refine Invariant.foldl ?_ fun _ l _ h => h.addLocal l
  exact Invariant.foldl declared fun _ a inside h => h.addValue (undeclared a inside)

end Cartograph.Resolution.State

import Cartograph.Resolution

/-!
# What a resolution keeps

A resolution settles slots or gives up on them, in an order that depends on the plan. A property of
states that both keep (`Kept`) holds at the end if it holds at the beginning (`Kept.run`); the
values recorded may be taken to be *good*, if evaluation gives good values in every state with the
property. It is kept if it survives every finding, every fixing of a resource's instances and every
value of a slot (`Invariant.kept`).

A first property is that every declared resource stands under its own identifier
(`State.Registered`).
-/

namespace Cartograph.Resolution

/-! ### Steps -/

/-- What the steps of a resolution keep, each taken as a whole. -/
structure Kept (I : State → Prop) (good : Value → Prop) : Prop where
  report {s : State} {kind : Diagnostic.Kind} {node : Option NodeId} {message : String} :
    I s → I (s.report kind node message)
  settle {s : State} {slot : Slot} {v : Value} : I s → good v → I (s.settle slot v)
  fail {s : State} {slot : Slot} (message : String) : I s → I (s.fail slot message)
  evaluated {s : State} {slot : Slot} {cell : Cell} {v : Value} : I s →
    Keyed.find? slot s.cells = some cell → s.evaluate cell = .ok v → good v
  placeholder {s : State} {slot : Slot} : I s → good (s.placeholderOf slot)

/-- What the steps of a resolution keep, as everything that they are put together from keeps it. -/
structure Invariant (I : State → Prop) (good : Value → Prop) (member : Instance → Prop) : Prop where
  report {s : State} {kind : Diagnostic.Kind} {node : Option NodeId} {message : String} :
    I s → I (s.report kind node message)
  setInstances {s : State} {id : NodeId} {instances : List Instance} {keys : List String} :
    I s → (∀ i ∈ instances, member i) → I (s.setInstances id instances keys)
  setValue {s : State} {slot : Slot} {v : Value} : I s → good v → I (s.setValue slot v)
  evaluated {s : State} {slot : Slot} {cell : Cell} {v : Value} : I s →
    Keyed.find? slot s.cells = some cell → s.evaluate cell = .ok v → good v
  placeholder {s : State} {slot : Slot} : I s → good (s.placeholderOf slot)
  one : good (.int 1)
  members {repetition : Repeat} {v : Value} {instances : List Instance} {keys : List String} :
    good v → instancesOf repetition v = .ok (instances, keys) → ∀ i ∈ instances, member i
  fallback (repetition : Repeat) : member (fallbackInstance repetition)

section Steps

open State

variable {I : State → Prop} {good : Value → Prop} {member : Instance → Prop} {s : State}
  {slot : Slot} {v : Value}

namespace Invariant

theorem assumeSingle (inv : Invariant I good member) (h : I s) (id : NodeId) (message : String) :
    I (s.assumeSingle id message) := by
  unfold State.assumeSingle
  split
  · exact h
  · next d _ =>
    refine inv.setValue (inv.setInstances (inv.report h) fun i hi => ?_) inv.one
    exact List.mem_singleton.1 hi ▸ inv.fallback d.repetition

theorem fail (inv : Invariant I good member) (h : I s) (message : String) :
    I (s.fail slot message) := by
  unfold State.fail
  split
  · exact inv.assumeSingle h _ message
  · exact inv.setValue (inv.report h) (inv.placeholder h)

theorem settle (inv : Invariant I good member) (h : I s) (hv : good v) : I (s.settle slot v) := by
  unfold State.settle
  split
  · split
    · exact inv.setValue h hv
    · split
      · next fixed => exact inv.setValue (inv.setInstances h (inv.members hv fixed)) hv
      · exact inv.assumeSingle h _ _
  · exact inv.setValue h hv

theorem kept (inv : Invariant I good member) : Kept I good where
  report := inv.report
  settle := inv.settle
  fail message h := inv.fail h message
  evaluated := inv.evaluated
  placeholder := inv.placeholder

/-- A loop each of whose steps keeps a property. -/
theorem foldl {α : Type} {step : State → α → State} {members : List α} (h : I s)
    (each : ∀ s, ∀ x ∈ members, I s → I (step s x)) : I (members.foldl step s) := by
  induction members generalizing s with
  | nil => exact h
  | cons x rest ih =>
    exact ih (each s x List.mem_cons_self h) fun s y hy => each s y (List.mem_cons_of_mem _ hy)

end Invariant

namespace Kept

theorem visit (kept : Kept I good) (h : I s) : I (s.visit slot).1 := by
  unfold State.visit
  split
  · exact h
  · next found =>
    split
    · next value => exact kept.settle h (kept.evaluated h found value)
    · exact h
    · exact kept.fail _ h

theorem visitAll (kept : Kept I good) (h : I s) (slots : List Slot) :
    I (visitAll slots s).1 := by
  induction slots generalizing s with
  | nil => exact h
  | cons slot rest ih => exact ih (kept.visit h)

theorem releaseExtents (kept : Kept I good) (h : I s) : I s.releaseExtents :=
  Invariant.foldl h fun _ _ _ h => kept.fail _ h

theorem passes (kept : Kept I good) (h : I s) (budget : Nat) :
    I (passes budget s).1 := by
  induction budget generalizing s with
  | zero => exact h
  | succ budget ih =>
    have after : I s.pass.1 := kept.visitAll h s.pending
    unfold State.passes
    dsimp only
    split
    · exact h
    · split
      · exact after
      · split
        · exact ih after
        · exact ih (kept.releaseExtents after)

/-- The placeholders of all slots on cycles are those of the state before any is recorded. -/
theorem breakCycles (kept : Kept I good) (h : I s) : I s.breakCycles.1 := by
  refine Invariant.foldl h fun t x hx ht => ?_
  obtain ⟨slot, -, rfl⟩ := List.mem_map.1 hx
  exact kept.settle (kept.report ht) (kept.placeholder h)

theorem closeSlot (kept : Kept I good) (h : I s) (budget : Nat) :
    I (s.closeSlot budget slot) := kept.settle (kept.report h) (kept.placeholder h)

theorem run (kept : Kept I good) (h : I s) (budget : Nat) : I (s.run budget).1 := by
  have broken := kept.breakCycles (kept.passes h budget)
  unfold State.run
  dsimp only
  refine Invariant.foldl ?_ fun _ _ _ h => kept.closeSlot h budget
  split
  · exact kept.passes broken budget
  · exact broken

end Kept

theorem Invariant.run (inv : Invariant I good member) (h : I s) (budget : Nat) :
    I (s.run budget).1 := inv.kept.run h budget

end Steps

/-! ### Declared resources -/

namespace State

variable {s : State} {id : NodeId}

/-- Every declared resource stands under its own identifier and is not only read. -/
def Registered (s : State) : Prop := ∀ id d, Keyed.find? id s.declared = some d →
  d.record.id = id ∧ d.record.isData = false

theorem declared_addSlots {α : Type} {step : State → α → State} (members : List α) (s : State)
    (each : ∀ s x, (step s x).declared = s.declared) :
    (members.foldl step s).declared = s.declared := by
  induction members generalizing s with
  | nil => rfl
  | cons x rest ih => exact (ih (step s x)).trans (each s x)

theorem declared_addInstance {d : Declared} {member : Instance × Nat} :
    (addInstance id d s member).declared = s.declared :=
  declared_addSlots d.attributes s fun _ _ => rfl

theorem declared_setInstances {instances : List Instance} {keys : List String} :
    (s.setInstances id instances keys).declared = match Keyed.find? id s.declared with
      | none => s.declared
      | some d =>
        Keyed.insert id { d with instances := some instances, keys := keys } s.declared := by
  unfold setInstances
  cases Keyed.find? id s.declared with
  | none => rfl
  | some d => exact declared_addSlots _ _ fun _ _ => declared_addInstance

theorem Registered.setInstances (h : s.Registered) (instances : List Instance)
    (keys : List String) : (s.setInstances id instances keys).Registered := by
  intro j d hd
  rw [declared_setInstances] at hd
  split at hd
  · exact h j d hd
  · next old found =>
    rw [Keyed.find?_insert] at hd
    split at hd
    · next e =>
      cases hd
      exact e ▸ h id old found
    · exact h j d hd

theorem registered_invariant : Invariant Registered (fun _ => True) (fun _ => True) where
  report h := h
  setInstances h _ := h.setInstances _ _
  setValue h _ := h
  evaluated _ _ _ := trivial
  placeholder _ := trivial
  one := trivial
  members _ _ _ _ := trivial
  fallback _ := trivial

theorem declared_reportMalformed (node : Option NodeId) (messages : List String) :
    (s.reportMalformed node messages).declared = s.declared :=
  declared_addSlots messages s fun _ _ => rfl

theorem declared_addValue {slot : Slot} {module : String} {node : Option NodeId} {v : Value} :
    (s.addValue slot module node v).declared = s.declared :=
  declared_reportMalformed _ _

theorem declared_addInput {arguments : List (Slot × String × Value)} {i : Plan.Input} :
    (addInput (s, arguments) i).1.declared = s.declared := by
  unfold addInput
  dsimp only
  split
  · rfl
  · exact declared_addValue
  · rfl
  · rfl

theorem declared_addLocal {l : Plan.Local} : (s.addLocal l).declared = s.declared := by
  unfold addLocal
  dsimp only
  split <;> rfl

theorem declared_addOutputs {c : Plan.ModuleCall} : (s.addOutputs c).declared = s.declared :=
  declared_addSlots c.outputs s fun _ _ => declared_addValue

/-- Registered resources, none of which has more than a single instance so far. -/
def Initial (s : State) : Prop := s.Registered ∧ ∀ id d, Keyed.find? id s.declared = some d →
  d.instances = none ∨ d.instances = some [.sole]

theorem Initial.of_declared_eq {t : State} (h : s.Initial) (e : t.declared = s.declared) :
    t.Initial :=
  ⟨fun id d hd => h.1 id d (e ▸ hd), fun id d hd => h.2 id d (e ▸ hd)⟩

theorem Initial.insert (h : s.Initial) (id : NodeId) {d : Declared} (own : d.record.id = id)
    (managed : d.record.isData = false)
    (instances : d.instances = none ∨ d.instances = some [.sole]) :
    ({ s with declared := Keyed.insert id d s.declared } : State).Initial := by
  refine ⟨fun j e he => ?_, fun j e he => ?_⟩
  · rw [Keyed.find?_insert] at he
    split at he
    · next same =>
      cases he
      exact ⟨same ▸ own, managed⟩
    · exact h.1 j e he
  · rw [Keyed.find?_insert] at he
    split at he
    · cases he
      exact instances
    · exact h.2 j e he

theorem Initial.setSole (h : s.Initial) : (s.setInstances id [.sole] []).Initial := by
  refine ⟨h.1.setInstances _ _, fun j e he => ?_⟩
  rw [declared_setInstances] at he
  split at he
  · exact h.2 j e he
  · rw [Keyed.find?_insert] at he
    split at he
    · cases he
      exact .inr rfl
    · exact h.2 j e he

theorem Initial.addDeclared (h : s.Initial) {r : Plan.Resource} (managed : r.isData = false) :
    (s.addDeclared r).Initial := by
  have reported := h.of_declared_eq (declared_reportMalformed (s := s) (some r.id)
    (Source.ofEntries r.attributes).2)
  unfold State.addDeclared
  dsimp only
  split
  · refine Initial.of_declared_eq (Initial.insert ?_ r.id rfl managed (.inl rfl)) declared_addValue
    split
    · exact reported
    · exact reported
  · refine Initial.setSole (Initial.insert ?_ r.id rfl managed (.inl rfl))
    split
    · exact reported
    · exact reported

theorem Initial.addResource (h : s.Initial) (r : Plan.Resource) : (s.addResource r).Initial := by
  unfold State.addResource
  split
  · exact h
  · next managed =>
    split
    · exact h
    · exact h.addDeclared (by simpa using managed)

theorem initial_ofPlan (p : Plan) : (ofPlan p).Initial := by
  have inputs : ∀ (inputs : List Plan.Input) (start : State × List (Slot × String × Value)),
      (inputs.foldl addInput start).1.declared = start.1.declared := by
    intro inputs
    induction inputs with
    | nil => exact fun _ => rfl
    | cons i rest ih => exact fun start => (ih _).trans declared_addInput
  have outputs : (p.calls.foldl addOutputs
      (p.locals.foldl addLocal
        ((p.inputs.foldl addInput (⟨p.calls.map Plan.ModuleCall.path, [], [], [], []⟩,
          argumentsOf p.calls)).2.foldl (fun s x => s.addValue x.1 x.2.1 none x.2.2)
          (p.inputs.foldl addInput (⟨p.calls.map Plan.ModuleCall.path, [], [], [], []⟩,
            argumentsOf p.calls)).1))).declared = [] := by
    rw [declared_addSlots p.calls _ fun _ _ => declared_addOutputs,
      declared_addSlots p.locals _ fun _ _ => declared_addLocal,
      declared_addSlots _ _ fun _ _ => declared_addValue, inputs]
  have none : ∀ id, Keyed.find? id (State.declared _) = none := fun id =>
    congrArg (Keyed.find? id) outputs
  refine Invariant.foldl ⟨fun id d hd => ?_, fun id d hd => ?_⟩ fun s r _ h => h.addResource r
  · exact absurd (hd.symm.trans (none id)) (by simp)
  · exact absurd (hd.symm.trans (none id)) (by simp)

theorem registered_ofPlan (p : Plan) : (ofPlan p).Registered := (initial_ofPlan p).1

end State

/-- Every resource of a resolution has the identifier that its module, type and name make. -/
theorem id_of_mem_resolve {p : Plan} {budget : Nat} {r : Resource}
    (h : r ∈ (p.resolve budget).resources) :
    r.id = NodeId.qualified r.module r.resourceType r.name := by
  obtain ⟨id, -, h⟩ := List.mem_filterMap.1 h
  obtain ⟨d, hd, h⟩ := Option.bind_eq_some_iff.1 h
  obtain ⟨own, managed⟩ :=
    (State.registered_invariant.run (State.registered_ofPlan p) (max 1 budget)) id d hd
  unfold State.resource? at h
  dsimp only at h
  split at h
  · exact absurd h (by simp)
  · cases h
    have mode : d.record.mode = .managed := by
      cases hm : d.record.mode with
      | managed => rfl
      | data => simp [Plan.Resource.isData, hm] at managed
    rw [Plan.Resource.id, mode] at own
    exact own.symm

end Cartograph.Resolution

import Cartograph.Proofs.Discovery
import Cartograph.Proofs.Resolution.Alike
import Cartograph.Proofs.Resolution.Slot

/-!
# Plans in another order

What a record of a plan adds to the state that a resolution begins with is the same in every state,
and it is kept under keys of this record (`State.Adds`). If no two records of a kind have the same
keys (`Plan.Distinct`), two of them can be taken in either order, and so all of them in any
(`foldl_perm`): plans that differ in the order of their records only (`Plan.Reordered`) begin alike
(`alike_ofPlan`). So they have the same resources in the end, after as many passes and with the same
findings (`resolve_reordered`).
-/

namespace Cartograph

/-! ### Loops in another order -/

section Loops

variable {σ α : Type} {R : σ → σ → Prop} {step : σ → α → σ} {l l' : List α} {s t : σ}

/-- Steps of which any two can be taken in either order can be taken in any order. -/
theorem foldl_perm (equiv : Equivalence R)
    (respects : ∀ s t x, R s t → R (step s x) (step t x)) (perm : l.Perm l')
    (commute : l.Pairwise fun x y => ∀ s, R (step (step s x) y) (step (step s y) x)) (h : R s t) :
    R (l.foldl step s) (l'.foldl step t) := by
  induction perm generalizing s t with
  | nil => exact h
  | cons x _ ih => exact ih (List.pairwise_cons.1 commute).2 (respects s t x h)
  | swap x y rest =>
    refine foldl_respects (l := rest) respects
      (equiv.trans ?_ (respects _ _ y (respects s t x h)))
    exact (List.pairwise_cons.1 commute).1 x List.mem_cons_self s
  | trans perm _ ih ih' =>
    -- The condition is symmetric, so it holds in the order between as well.
    refine equiv.trans (ih commute (equiv.refl s)) (ih' ((perm.pairwise_iff ?_).1 commute) h)
    exact fun commute s => equiv.symm (commute s)

end Loops

namespace Resolution.State

open Keyed

variable {s t : State} {f g : State → State} {slots slots' : Slot → Prop} {ids ids' : NodeId → Prop}

theorem alike_equivalence : Equivalence Alike := ⟨Alike.refl, Alike.symm, Alike.trans⟩

/-! ### Additions -/

/-- Entries and findings that come to a state. -/
structure Addition where
  declared : List (NodeId × Declared) := []
  data : List (NodeId × Plan.Resource) := []
  cells : List (Slot × Cell) := []
  diagnostics : List Diagnostic := []

/-- A state with an addition. -/
def add (s : State) (a : Addition) : State :=
  { s with
    declared := insertAll s.declared a.declared
    data := insertAll s.data a.data
    cells := insertAll s.cells a.cells
    diagnostics := s.diagnostics ++ a.diagnostics }

/-- An addition under certain keys. -/
structure Addition.Within (slots : Slot → Prop) (ids : NodeId → Prop) (a : Addition) : Prop where
  declared : ∀ id ∈ a.declared.map (·.1), ids id
  data : ∀ id ∈ a.data.map (·.1), ids id
  cells : ∀ slot ∈ a.cells.map (·.1), slots slot

/-- A step that adds the same in every state, under certain keys. -/
def Adds (slots : Slot → Prop) (ids : NodeId → Prop) (f : State → State) : Prop :=
  ∃ a : Addition, a.Within slots ids ∧ ∀ s, f s = s.add a

theorem Alike.add (h : Alike s t) (a : Addition) : Alike (s.add a) (t.add a) where
  modules := h.modules
  declared := congrArg (insertAll · a.declared) h.declared
  data := congrArg (insertAll · a.data) h.data
  cells := congrArg (insertAll · a.cells) h.cells
  diagnostics := h.diagnostics.append_right _

namespace Adds

theorem nothing : Adds slots ids fun s => s :=
  ⟨{}, ⟨List.forall_mem_nil _, List.forall_mem_nil _, List.forall_mem_nil _⟩, fun s => by
    rw [State.add, List.append_nil]
    rfl⟩

theorem report (kind : Diagnostic.Kind) (node : Option NodeId) (message : String) :
    Adds slots ids (·.report kind node message) :=
  ⟨{ diagnostics := [⟨kind, node, message⟩] },
    ⟨List.forall_mem_nil _, List.forall_mem_nil _, List.forall_mem_nil _⟩, fun _ => rfl⟩

theorem addSlot {slot : Slot} (own : slots slot) (module : String) (source : Source)
    (i : Instance) : Adds slots ids (·.addSlot slot module source i) :=
  ⟨{ cells := [(slot, ⟨module, source, i, none⟩)] },
    ⟨List.forall_mem_nil _, List.forall_mem_nil _, List.forall_mem_singleton.2 own⟩, fun s => by
      rw [State.add, List.append_nil]
      rfl⟩

theorem declare {id : NodeId} (own : ids id) (d : Declared) :
    Adds slots ids fun s => { s with declared := insert id d s.declared } :=
  ⟨{ declared := [(id, d)] },
    ⟨List.forall_mem_singleton.2 own, List.forall_mem_nil _, List.forall_mem_nil _⟩, fun s => by
      rw [State.add, List.append_nil]
      rfl⟩

theorem readOnly {id : NodeId} (own : ids id) (r : Plan.Resource) :
    Adds slots ids fun s => { s with data := insert id r s.data } :=
  ⟨{ data := [(id, r)] },
    ⟨List.forall_mem_nil _, List.forall_mem_singleton.2 own, List.forall_mem_nil _⟩, fun s => by
      rw [State.add, List.append_nil]
      rfl⟩

theorem comp (first : Adds slots ids f) (second : Adds slots ids g) :
    Adds slots ids fun s => g (f s) := by
  obtain ⟨a, within, adds⟩ := first
  obtain ⟨b, within', adds'⟩ := second
  refine ⟨⟨a.declared ++ b.declared, a.data ++ b.data, a.cells ++ b.cells,
    a.diagnostics ++ b.diagnostics⟩, ⟨?_, ?_, ?_⟩, fun s => ?_⟩
  · rw [List.map_append]
    exact List.forall_mem_append.2 ⟨within.declared, within'.declared⟩
  · rw [List.map_append]
    exact List.forall_mem_append.2 ⟨within.data, within'.data⟩
  · rw [List.map_append]
    exact List.forall_mem_append.2 ⟨within.cells, within'.cells⟩
  · dsimp only
    rw [adds, adds', State.add, State.add, State.add]
    simp only [insertAll, List.foldl_append, List.append_assoc]

theorem of_eq (adds : Adds slots ids f) (same : ∀ s, g s = f s) : Adds slots ids g := by
  rwa [funext same]

theorem foldl {α : Type} {step : State → α → State}
    (each : ∀ x, Adds slots ids (step · x)) (members : List α) :
    Adds slots ids (members.foldl step) := by
  induction members with
  | nil => exact nothing
  | cons x rest ih => exact (each x).comp ih

/-- Such a step makes states alike of states that are alike. -/
theorem alike (adds : Adds slots ids f) (h : Alike s t) : Alike (f s) (f t) := by
  obtain ⟨a, -, adds⟩ := adds
  rw [adds, adds]
  exact h.add a

/-- Steps under different keys can be taken in either order. -/
theorem commute (first : Adds slots ids f) (second : Adds slots' ids' g)
    (apart : ∀ slot, slots slot → ¬slots' slot) (apart' : ∀ id, ids id → ¬ids' id) (s : State) :
    Alike (g (f s)) (f (g s)) := by
  obtain ⟨a, within, adds⟩ := first
  obtain ⟨b, within', adds'⟩ := second
  simp only [adds, adds']
  refine ⟨fun _ => .rfl, insertAll_comm fun id own own' => ?_, insertAll_comm fun id own own' => ?_,
    insertAll_comm fun slot own own' => ?_, ?_⟩
  · exact apart' id (within.declared id own) (within'.declared id own')
  · exact apart' id (within.data id own) (within'.data id own')
  · exact apart slot (within.cells slot own) (within'.cells slot own')
  · change (s.diagnostics ++ a.diagnostics ++ b.diagnostics).Perm
      (s.diagnostics ++ b.diagnostics ++ a.diagnostics)
    rw [List.append_assoc, List.append_assoc]
    exact List.perm_append_comm.append_left _

/-! ### Records -/

theorem reportMalformed (node : Option NodeId) (messages : List String) :
    Adds slots ids (·.reportMalformed node messages) :=
  foldl (fun _ => report _ _ _) messages

theorem addValue (slot : Slot) (own : slots slot) (module : String) (node : Option NodeId)
    (v : Value) : Adds slots ids (·.addValue slot module node v) :=
  (reportMalformed node _).comp (addSlot own _ _ _)

theorem addLocal (l : Plan.Local) :
    Adds (· = .named l.module l.name) (fun _ => False) (·.addLocal l) := by
  unfold State.addLocal
  dsimp only
  split
  · exact addSlot (by rfl) _ _ _
  · exact ((report _ _ _).comp (addSlot (by rfl) _ _ _)).of_eq fun _ => rfl

theorem addOutputs (c : Plan.ModuleCall) :
    Adds (fun slot => ∃ name, slot = .output c.path name) (fun _ => False) (·.addOutputs c) :=
  foldl (fun _ => addValue _ ⟨_, rfl⟩ _ _ _) c.outputs

theorem setSole (id : NodeId) (own : ids id) (all : ∀ name, slots (.attr id 0 name))
    (d : Declared) : Adds slots ids fun s =>
      ({ s with declared := insert id d s.declared } : State).setInstances id [.sole] [] := by
  have cells : Adds slots ids (d.attributes.foldl fun s x =>
      s.addSlot (.attr id 0 x.1) d.record.module x.2 .sole) :=
    foldl (fun x => addSlot (all x.1) _ _ _) d.attributes
  refine ((declare own d).comp ((declare own
    { d with instances := some [.sole], keys := [] }).comp cells)).of_eq fun s => ?_
  have found : find? id (insert id d s.declared) = some d := by rw [find?_insert, if_pos rfl]
  rw [State.setInstances, found]
  rfl

theorem addDeclared (r : Plan.Resource) :
    Adds (fun slot => slot.resource? = some r.id) (· = r.id) (·.addDeclared r) := by
  have both : Adds (fun slot => slot.resource? = some r.id) (· = r.id) fun s =>
      if r.count.isSome && r.forEach.isSome then
        s.report .approximation (some r.id) "both count and for_each set; using count"
      else s := by
    split
    · exact report _ _ _
    · exact nothing
  have reported := (reportMalformed (some r.id) (Source.ofEntries r.attributes).2).comp both
  have repeated (repetition : Repeat) (v : Value) := (reported.comp (declare (by rfl)
    ⟨r, repetition, (Source.ofEntries r.attributes).1, none, []⟩)).comp
      (addValue (.extent r.id) (by rfl) r.module (some r.id) v)
  have single := reported.comp (setSole r.id (by rfl) (fun _ => rfl)
    ⟨r, .single, (Source.ofEntries r.attributes).1, none, []⟩)
  cases count : r.count with
  | some v => exact (repeated .count v).of_eq fun s => by rw [State.addDeclared, count]
  | none =>
    cases forEach : r.forEach with
    | some v =>
      exact (repeated .forEach v).of_eq fun s => by rw [State.addDeclared, count, forEach]
    | none => exact single.of_eq fun s => by rw [State.addDeclared, count, forEach]

/-- A look-up of a resource that nothing is added for. -/
theorem find?_declared (adds : Adds slots ids f) {id : NodeId} (other : ¬ids id) :
    find? id (f s).declared = find? id s.declared := by
  obtain ⟨a, within, adds⟩ := adds
  rw [adds]
  exact find?_insertAll_of_not_mem fun inside => other (within.declared id inside)

end Adds

theorem Alike.addValue (h : Alike s t) (slot : Slot) (module : String) (node : Option NodeId)
    (v : Value) : Alike (s.addValue slot module node v) (t.addValue slot module node v) :=
  have adds : Adds (· = slot) (fun _ => False) (·.addValue slot module node v) :=
    .addValue slot (by rfl) module node v
  adds.alike h

theorem Alike.addLocal (h : Alike s t) (l : Plan.Local) : Alike (s.addLocal l) (t.addLocal l) :=
  (Adds.addLocal l).alike h

theorem Alike.addOutputs (h : Alike s t) (c : Plan.ModuleCall) :
    Alike (s.addOutputs c) (t.addOutputs c) := (Adds.addOutputs c).alike h

/-! ### Resources -/

/-- What a resource adds, if it is known whether its identifier is taken. -/
def resourceStep (taken : Bool) (r : Plan.Resource) (s : State) : State :=
  if r.isData then { s with data := insert r.id r s.data }
  else if taken then s
  else s.addDeclared r

theorem adds_resourceStep (taken : Bool) (r : Plan.Resource) :
    Adds (fun slot => slot.resource? = some r.id) (· = r.id) (resourceStep taken r) := by
  unfold resourceStep
  split
  · exact .readOnly (by rfl) r
  · split
    · exact .nothing
    · exact .addDeclared r

theorem Alike.addResource (h : Alike s t) (r : Plan.Resource) :
    Alike (s.addResource r) (t.addResource r) := by
  change Alike (resourceStep (contains r.id s.declared) r s)
    (resourceStep (contains r.id t.declared) r t)
  rw [h.declared]
  exact (adds_resourceStep _ r).alike h

theorem addResource_commute {r r' : Plan.Resource} (ne : r.id ≠ r'.id) (s : State) :
    Alike ((s.addResource r).addResource r') ((s.addResource r').addResource r) := by
  have kept {r r' : Plan.Resource} (ne : r.id ≠ r'.id) :
      contains r'.id (s.addResource r).declared = contains r'.id s.declared :=
    congrArg Option.isSome ((adds_resourceStep _ r).find?_declared ne.symm)
  change Alike (resourceStep (contains r'.id (s.addResource r).declared) r' _)
    (resourceStep (contains r.id (s.addResource r').declared) r _)
  rw [kept ne, kept ne.symm]
  refine (adds_resourceStep _ r).commute (adds_resourceStep _ r') (fun slot own own' => ?_)
    (fun id own own' => ?_) s
  · exact ne (Option.some.inj (own.symm.trans own'))
  · exact ne (own.symm.trans own')

/-! ### Modules -/

theorem addLocal_commute {l l' : Plan.Local} (ne : (l.module, l.name) ≠ (l'.module, l'.name))
    (s : State) : Alike ((s.addLocal l).addLocal l') ((s.addLocal l').addLocal l) := by
  refine (Adds.addLocal l).commute (Adds.addLocal l') (fun slot own own' => ne ?_)
    (fun _ h => h.elim) s
  simpa using own.symm.trans own'

theorem addOutputs_commute {c c' : Plan.ModuleCall} (ne : c.path ≠ c'.path) (s : State) :
    Alike ((s.addOutputs c).addOutputs c') ((s.addOutputs c').addOutputs c) := by
  refine (Adds.addOutputs c).commute (Adds.addOutputs c') (fun slot own own' => ne ?_)
    (fun _ h => h.elim) s
  obtain ⟨name, rfl⟩ := own
  obtain ⟨name', same⟩ := own'
  exact (Slot.output.inj same).1

/-! ### Variables -/

/-- What a variable adds, if its argument is known. -/
def inputStep (i : Plan.Input) (argument : Option (String × Value)) (s : State) : State :=
  match i.value, argument, i.default with
  | some v, _, _ => s.addSlot (.input i.module i.name) i.module (.literal v) .sole
  | none, some (caller, v), _ => s.addValue (.input i.module i.name) caller none v
  | none, none, some v => s.addSlot (.input i.module i.name) i.module (.literal v) .sole
  | none, none, none => s

/-- The slot of a variable. -/
abbrev slotOf (i : Plan.Input) : Slot := .input i.module i.name

theorem adds_inputStep (i : Plan.Input) (argument : Option (String × Value)) :
    Adds (· = slotOf i) (fun _ => False) (inputStep i argument) := by
  unfold inputStep
  split
  · exact .addSlot (by rfl) _ _ _
  · exact .addValue _ (by rfl) _ _ _
  · exact .addSlot (by rfl) _ _ _
  · exact .nothing

theorem addInput_eq (s : State) (arguments : List (Slot × String × Value)) (i : Plan.Input) :
    addInput (s, arguments) i =
      (inputStep i (find? (slotOf i) arguments) s, erase (slotOf i) arguments) := by
  unfold addInput inputStep
  dsimp only
  split <;> simp [*]

/-- States that are alike, with the same arguments left. -/
def AlikeWith (x y : State × List (Slot × String × Value)) : Prop := Alike x.1 y.1 ∧ x.2 = y.2

theorem alikeWith_equivalence : Equivalence AlikeWith where
  refl _ := ⟨.refl _, rfl⟩
  symm h := ⟨h.1.symm, h.2.symm⟩
  trans h h' := ⟨h.1.trans h'.1, h.2.trans h'.2⟩

theorem AlikeWith.addInput (x y : State × List (Slot × String × Value)) (i : Plan.Input)
    (h : AlikeWith x y) : AlikeWith (addInput x i) (addInput y i) := by
  obtain ⟨s, arguments⟩ := x
  obtain ⟨t, arguments'⟩ := y
  obtain ⟨h, rfl⟩ := h
  rw [addInput_eq, addInput_eq]
  exact ⟨(adds_inputStep i _).alike h, rfl⟩

theorem addInput_commute {i j : Plan.Input} (ne : slotOf i ≠ slotOf j)
    (x : State × List (Slot × String × Value)) :
    AlikeWith (addInput (addInput x i) j) (addInput (addInput x j) i) := by
  obtain ⟨s, arguments⟩ := x
  simp only [addInput_eq]
  rw [find?_erase, if_neg ne, find?_erase, if_neg ne.symm]
  refine ⟨?_, erase_comm⟩
  refine (adds_inputStep i _).commute (adds_inputStep j _) (fun slot own own' => ?_)
    (fun _ h => h.elim) s
  exact ne (own.symm.trans own')

end Resolution.State

/-! ### Plans -/

/-- No two records of a kind have the same name. -/
structure Plan.Distinct (p : Plan) : Prop where
  resources : (p.resources.map Resource.id).Nodup
  inputs : (p.inputs.map fun i => (i.module, i.name)).Nodup
  locals : (p.locals.map fun l => (l.module, l.name)).Nodup
  calls : (p.calls.map ModuleCall.path).Nodup

/-- Plans with the same records in another order. -/
structure Plan.Reordered (p q : Plan) : Prop where
  resources : p.resources.Perm q.resources
  inputs : p.inputs.Perm q.inputs
  locals : p.locals.Perm q.locals
  calls : p.calls.Perm q.calls
  dependencies : p.dependencies = q.dependencies

namespace Resolution

namespace State

open Keyed

variable {p q : Plan}

theorem argumentsOf_reordered (distinct : p.Distinct) (reordered : p.Reordered q) :
    argumentsOf p.calls = argumentsOf q.calls := by
  have each (calls : List Plan.ModuleCall) : argumentsOf calls = calls.foldl (fun m c =>
      insertAll m (c.arguments.map fun e => (.input c.path e.1, c.module, e.2))) [] :=
    List.foldl_flatMap
  rw [each, each]
  refine foldl_perm (R := Eq) ⟨fun _ => rfl, Eq.symm, Eq.trans⟩ (fun _ _ _ same => same ▸ rfl)
    reordered.calls ((List.pairwise_map.1 distinct.calls).imp fun ne _ => ?_) rfl
  refine insertAll_comm fun slot own own' => ?_
  rw [List.map_map] at own own'
  obtain ⟨e, -, rfl⟩ := List.mem_map.1 own
  obtain ⟨e', -, same⟩ := List.mem_map.1 own'
  exact ne (Slot.input.inj same).1.symm

/-- The resolutions of a plan in two orders begin alike. -/
theorem alike_ofPlan (distinct : p.Distinct) (reordered : p.Reordered q) :
    Alike (ofPlan p) (ofPlan q) := by
  have start : Alike ⟨p.calls.map Plan.ModuleCall.path, [], [], [], []⟩
      ⟨q.calls.map Plan.ModuleCall.path, [], [], [], []⟩ :=
    ⟨fun _ => (reordered.calls.map _).mem_iff, rfl, rfl, rfl, .refl _⟩
  obtain ⟨inputs, left⟩ := foldl_perm alikeWith_equivalence AlikeWith.addInput reordered.inputs
    ((List.pairwise_map.1 distinct.inputs).imp fun ne =>
      addInput_commute fun same => ne (by simpa using same))
    (show AlikeWith (_, argumentsOf p.calls) (_, argumentsOf q.calls) from
      ⟨start, argumentsOf_reordered distinct reordered⟩)
  refine foldl_perm alike_equivalence (fun _ _ r h => h.addResource r) reordered.resources
    ((List.pairwise_map.1 distinct.resources).imp addResource_commute) ?_
  refine foldl_perm alike_equivalence (fun _ _ c h => h.addOutputs c) reordered.calls
    ((List.pairwise_map.1 distinct.calls).imp addOutputs_commute) ?_
  refine foldl_perm alike_equivalence (fun _ _ l h => h.addLocal l) reordered.locals
    ((List.pairwise_map.1 distinct.locals).imp addLocal_commute) ?_
  rw [left]
  exact foldl_respects (fun _ _ x h => h.addValue x.1 x.2.1 none x.2.2) inputs

theorem idsOf_of_nodup (nodup : (p.resources.map Plan.Resource.id).Nodup) :
    idsOf p = p.managed.map Plan.Resource.id := by
  have step : ∀ rest done : List NodeId, (done ++ rest).Nodup →
      rest.foldl (fun ids id => if id ∈ ids then ids else ids ++ [id]) done = done ++ rest := by
    intro rest
    induction rest with
    | nil => simp
    | cons id rest ih =>
      intro done nodup
      have new : id ∉ done := fun inside =>
        (List.nodup_append.1 nodup).2.2 id inside id List.mem_cons_self rfl
      rw [List.foldl_cons, if_neg new, ih (done ++ [id]) (by simpa using nodup),
        List.append_assoc, List.singleton_append]
  exact step _ [] ((List.filter_sublist.map _).nodup nodup)

theorem idsOf_reordered (distinct : p.Distinct) (reordered : p.Reordered q) :
    (idsOf p).Perm (idsOf q) := by
  have same := reordered.resources.map Plan.Resource.id
  rw [idsOf_of_nodup distinct.resources, idsOf_of_nodup (same.nodup_iff.1 distinct.resources)]
  exact (reordered.resources.filter _).map _

end State

/-- If no two records of a kind have the same name, their order does not matter: there are the same
    resources, each under its own identifier, after as many passes, with the same findings. -/
theorem resolve_reordered {p q : Plan} (distinct : p.Distinct) (reordered : p.Reordered q)
    (budget : Nat) : (p.resolve budget).resources.Perm (q.resolve budget).resources ∧
      ((p.resolve budget).resources.map (·.id)).Nodup ∧
      (p.resolve budget).dependencies = (q.resolve budget).dependencies ∧
      (p.resolve budget).iterations = (q.resolve budget).iterations ∧
      (p.resolve budget).diagnostics.Perm (q.resolve budget).diagnostics := by
  obtain ⟨h, iterations⟩ := (State.alike_ofPlan distinct reordered).run (max 1 budget)
  refine ⟨?_, nodup_resolve, ?_, iterations, h.diagnostics⟩
  · unfold Plan.resolve
    dsimp only
    rw [h.declared, h.resource?]
    exact (State.idsOf_reordered distinct reordered).filterMap _
  · unfold Plan.resolve
    dsimp only
    rw [h.declared, reordered.dependencies]

/-- A plan with its records in reverse. -/
def reversed (p : Plan) : Plan :=
  { p with
    resources := p.resources.reverse
    inputs := p.inputs.reverse
    locals := p.locals.reverse
    calls := p.calls.reverse }

theorem reordered_reversed (p : Plan) : p.Reordered (reversed p) :=
  ⟨(List.reverse_perm _).symm, (List.reverse_perm _).symm, (List.reverse_perm _).symm,
    (List.reverse_perm _).symm, rfl⟩

/-- A plan with several records of each kind: expressions on a cycle and malformed ones, a variable
    with an argument and a default, one with a default only, and one that is not declared. -/
def tangle : Plan where
  resources := [
    ⟨"aws_vpc", "main", "", .managed, [("cidr", .text "${local.a}")], none, none, []⟩,
    ⟨"aws_subnet", "s", "module.net", .managed, [("vpc", .text "${var.vpc}")],
      some (.text "${var.size}"), none, []⟩]
  inputs := [⟨"module.net", "vpc", some (.text "none"), none⟩,
    ⟨"module.net", "size", some (.int 2), none⟩]
  locals := [⟨"", "a", "local.b"⟩, ⟨"", "b", "local.a"⟩, ⟨"", "c", "1 +"⟩, ⟨"", "d", "2 +"⟩]
  calls := [⟨"", "net", "./net", [("vpc", .text "${aws_vpc.main.id}")], []⟩,
    ⟨"", "db", "./db", [("host", .text "${var.missing}")], []⟩]
  dependencies := []

/-- The theorem at a plan whose resources and findings come in another order if its records do. -/
theorem resolve_reordered_tangle : tangle.Distinct ∧ tangle.Reordered (reversed tangle) ∧
    (tangle.resolve defaultBudget).resources.Perm
      ((reversed tangle).resolve defaultBudget).resources ∧
    (tangle.resolve defaultBudget).diagnostics.Perm
      ((reversed tangle).resolve defaultBudget).diagnostics ∧
    (tangle.resolve defaultBudget).resources.map (·.id) ≠
      ((reversed tangle).resolve defaultBudget).resources.map (·.id) ∧
    (tangle.resolve defaultBudget).diagnostics ≠
      ((reversed tangle).resolve defaultBudget).diagnostics := by
  have distinct : tangle.Distinct :=
    ⟨by decide +kernel, by decide +kernel, by decide +kernel, by decide +kernel⟩
  have reordered := reordered_reversed tangle
  obtain ⟨resources, -, -, -, diagnostics⟩ := resolve_reordered distinct reordered defaultBudget
  exact ⟨distinct, reordered, resources, diagnostics, by decide +kernel, by decide +kernel⟩

end Resolution

end Cartograph

import Mathlib.Data.Set.Finite.List
import Mathlib.Order.WellFounded
import Cartograph.Proofs.Expression.Questions
import Cartograph.Proofs.Resolution.Beginning
import Cartograph.Proofs.Resolution.Rest

/-!
# What pending slots wait for

A slot whose evaluation is pending has asked about something pending, and its references announce
the question. What a scope reads for a question is one attribute or output if its name stands right
behind that of the resource or module, for a resource also behind an index or a splat; otherwise it
reads all attributes or outputs (`readOf`). One of the slots that it reads is pending then
(`Staged.waits_for`).

A reference has only the attribute names of a question. If it is *direct* (`IsDirect`), these tell
what is read, and the slot waits for a slot of its references. Where another index or splat stands
before the next attribute, they do not: all attributes are read, but the reference names one.

In a pass that leads to nothing all pending slots wait. As long as their questions are direct, they
wait for slots that are pending as well, so that there is a cycle among them, and it is found
(`waiting_slots`). An attribute that reads all of its own resource to take one part waits for
itself, but no cycle is found (`inner_waits`).
-/

namespace Cartograph

open Expression

/-! ### Cycles -/

section Cycles

variable {α : Type} {next next' : α → List α} {domain seeds : List α} {x y : α}

/-- Only what follows on members matters. -/
theorem Reached.congr (same : ∀ x ∈ domain, next x = next' x) (h : Reached next domain seeds y) :
    Reached next' domain seeds y := by
  induction h with
  | seed inside seeded => exact .seed inside seeded
  | step before inside follows ih => exact .step ih inside (same _ before.inside ▸ follows)

theorem Reached.trans (h : Reached next domain seeds x) (h' : Reached next domain (next x) y) :
    Reached next domain seeds y := by
  induction h' with
  | seed inside follows => exact .step h inside follows
  | step _ inside follows ih => exact .step ih inside follows

/-- If a member follows on each member, there is a cycle. -/
theorem Reached.exists_cycle (some : domain ≠ [])
    (each : ∀ x ∈ domain, ∃ y ∈ next x, y ∈ domain) :
    ∃ x ∈ domain, Reached next domain (next x) x := by
  by_contra none
  -- Otherwise there is a last member.
  let after : {x // x ∈ domain} → {x // x ∈ domain} → Prop :=
    fun y x => Reached next domain (next x) y
  have : Finite {x // x ∈ domain} := domain.finite_toSet
  have : IsTrans _ after := ⟨fun _ _ _ h h' => Reached.trans h' h⟩
  have : Std.Irrefl after := ⟨fun x cycle => none ⟨x, x.2, cycle⟩⟩
  obtain ⟨first, inside⟩ := List.exists_mem_of_ne_nil domain some
  obtain ⟨last, -, least⟩ := (Finite.wellFounded_of_trans_of_irrefl after).has_min Set.univ
    ⟨⟨first, inside⟩, trivial⟩
  obtain ⟨y, follows, inside⟩ := each last last.2
  exact least ⟨y, inside⟩ trivial (.seed inside follows)

end Cycles

namespace Resolution

/-! ### Sources -/

namespace Source

mutual

/-- What the evaluation of a source asks. -/
def asked (scope : Scope) (env : Bindings) : Source → List Question
  | literal _ => []
  | expr e _ => Expression.asked scope e env
  | list items => askedAll scope env items
  | map entries => askedEach scope env entries

def askedAll (scope : Scope) (env : Bindings) : List Source → List Question
  | [] => []
  | s :: ss => asked scope env s ++ behind (eval scope env s) fun _ => askedAll scope env ss

def askedEach (scope : Scope) (env : Bindings) : List (String × Source) → List Question
  | [] => []
  | (_, s) :: es => asked scope env s ++ behind (eval scope env s) fun _ => askedEach scope env es

end

mutual

/-- The value of a source hangs on what is asked, and that is announced by its references. -/
theorem hangsOn (env : Bindings) : ∀ source : Source,
    HangsOn (Announced source.references env) (fun scope => eval scope env source)
      fun scope => asked scope env source
  | literal v => by
    simp only [eval, asked]
    exact .none (.ok _)
  | expr e text => by
    simp only [eval, asked, references]
    exact hangsOn_eval e env
  | list items => by
    simp only [eval, asked, references]
    exact (hangsOn_all env items).map _
  | map entries => by
    simp only [eval, asked, references]
    exact (hangsOn_each env entries).map _

theorem hangsOn_all (env : Bindings) : ∀ sources : List Source,
    HangsOn (Announced (referencesOfAll sources) env) (fun scope => evalAll scope env sources)
      fun scope => askedAll scope env sources
  | [] => by
    simp only [evalAll, askedAll]
    exact .none (.ok _)
  | source :: rest => by
    simp only [evalAll, askedAll, referencesOfAll]
    refine ((hangsOn env source).mono fun q hq => hq.of_subset ?_).bind fun _ => ?_
    · exact List.subset_append_left _ _
    · refine ((hangsOn_all env rest).mono fun q hq => hq.of_subset ?_).andThen fun _ => .ok _
      exact List.subset_append_right _ _

theorem hangsOn_each (env : Bindings) : ∀ entries : List (String × Source),
    HangsOn (Announced (referencesOfEach entries) env) (fun scope => evalEach scope env entries)
      fun scope => askedEach scope env entries
  | [] => by
    simp only [evalEach, askedEach]
    exact .none (.ok _)
  | (k, source) :: rest => by
    simp only [evalEach, askedEach, referencesOfEach]
    refine ((hangsOn env source).mono fun q hq => hq.of_subset ?_).bind fun _ => ?_
    · exact List.subset_append_left _ _
    · refine ((hangsOn_each env rest).mono fun q hq => hq.of_subset ?_).andThen fun _ => .ok _
      exact List.subset_append_right _ _

end

end Source

/-! ### What is read -/

/-- The attribute or output that is read, by the steps behind the name of a resource or a module.
    Without one, all are read. -/
def partOf? (root : String) : List Step → Option String
  | .attr a :: _ => some a
  | .index _ :: .attr a :: _ => if root = "module" then none else some a
  | .splat :: .attr a :: _ => if root = "module" then none else some a
  | _ => none

/-- The reference to what is read for a question. -/
def readOf (q : Question) : Reference :=
  match q.steps with
  | .attr name :: rest => ⟨q.root, name :: (partOf? q.root rest).toList⟩
  | _ => ⟨q.root, []⟩

theorem readOf_attr {root name : String} {rest : List Step} :
    readOf ⟨root, .attr name :: rest⟩ = ⟨root, name :: (partOf? root rest).toList⟩ := rfl

/-- The attribute names of a question tell what is read for it. Of a variable or a named expression
    the first one does. -/
def IsDirect (q : Question) : Prop :=
  q.root = "var" ∨ q.root = "local" ∨ (readOf q).attributes = (Step.names q.steps).take 2

instance : DecidablePred IsDirect := fun q => by
  unfold IsDirect
  infer_instance

namespace State

variable {s t : State} {id : NodeId} {slot : Slot} {c : Cell} {d : Declared} {q : Question}
  {module : String}

/-- What an evaluation of a slot asks. -/
def askedFor (s : State) (c : Cell) : List Question :=
  c.source.asked (s.scope c.module) c.instanceOf.bindings

/-- A direct question has the slots that are read for it. -/
theorem slotsOf_readOf (direct : IsDirect q) {name : String} {rest : List Step}
    (steps : q.steps = .attr name :: rest) :
    s.slotsOf module (readOf q) = s.slotsOf module q.reference := by
  have names : q.reference.attributes = name :: Step.names rest := by
    rw [Question.reference, steps]
    rfl
  have reads : (readOf q).attributes = name :: (partOf? q.root rest).toList := by
    rw [readOf, steps]
  have root : (readOf q).root = q.root := by rw [readOf, steps]
  rw [slotsOf, slotsOf, names, reads, root]
  rcases direct with var | named | same
  · rw [show q.reference.root = "var" from var, var]
    rfl
  · rw [show q.reference.root = "local" from named, named]
    rfl
  · rw [reads, show Step.names q.steps = name :: Step.names rest from names] at same
    have second : (partOf? q.root rest).toList[0]? = (Step.names rest)[0]? := by
      rw [List.cons.inj same |>.2, List.getElem?_take]
      rfl
    simp only [List.getElem?_cons_succ, second]
    rfl

/-! ### What a pending answer comes from -/

theorem answerWith_eq_pending {v : Option Value} {taken : Nat}
    (h : answerWith v taken = .pending) : v = none := by
  cases v with
  | none => rfl
  | some => exact absurd h (by simp [answerWith])

theorem isPending_of_slotAnswer {taken : Nat} (h : s.slotAnswer slot taken = .pending) :
    s.IsPending slot := by
  rw [slotAnswer] at h
  split at h
  · exact absurd h (by simp)
  · next c found =>
    split at h
    · exact absurd h (by simp)
    · next none => exact ⟨c, found, none⟩

theorem isPending_of_attrValue? {i : Nat} {name : String} (h : s.attrValue? id d i name = none) :
    s.IsPending (.attr id i name) := by
  rw [attrValue?] at h
  split at h
  · next c found => exact ⟨c, found, h⟩
  · exact absurd h (by simp)

/-- The slot of an instance's attribute, which is the one with a name if there is one. -/
def IsAttr (id : NodeId) (name : Option String) (slot : Slot) : Prop :=
  ∃ i a, slot = .attr id i a ∧ (name = none ∨ name = some a)

theorem isPending_of_objectValue? {i : Nat} (h : s.objectValue? id d i = none) :
    ∃ x, IsAttr id none x ∧ s.IsPending x := by
  obtain ⟨e, -, none⟩ := of_mapM_none <| by
    rw [objectValue?, Option.bind_eq_bind, Option.bind_eq_none_iff] at h
    exact Option.eq_none_iff_forall_ne_some.2 fun entries some => absurd (h entries some) (by simp)
  exact ⟨_, ⟨i, e.1, rfl, .inl rfl⟩, isPending_of_attrValue? (Option.map_eq_none_iff.1 none)⟩

theorem isPending_of_everyValue? {n : Nat} {name : Option String}
    (h : s.everyValue? id d n name = none) : ∃ x, IsAttr id name x ∧ s.IsPending x := by
  obtain ⟨i, -, none⟩ := of_mapM_none h
  cases name with
  | some a => exact ⟨_, ⟨i, a, rfl, .inr rfl⟩, isPending_of_attrValue? none⟩
  | none => exact isPending_of_objectValue? none

/-- Behind an index only a name of an attribute counts. -/
theorem partOf?_index {root : String} {key : Value} {rest : List Step}
    (other : ∀ a tail, rest ≠ .attr a :: tail) : partOf? root (.index key :: rest) = none := by
  rcases rest with _ | ⟨_ | _ | _, rest⟩
  · rfl
  · exact absurd rfl (other _ _)
  · rfl
  · rfl

/-- What is pending of a resource with known instances is an attribute that is read. -/
theorem isPending_of_instancesAnswer {root : String} {n : Nat} {rest : List Step}
    (plain : root ≠ "module") (h : s.instancesAnswer id d n rest = .pending) :
    ∃ x, IsAttr id (partOf? root rest) x ∧ s.IsPending x := by
  have every : ∀ {name taken}, answerWith ((s.everyValue? id d n name).map .list) taken = .pending →
      ∃ x, IsAttr id name x ∧ s.IsPending x := fun h =>
    isPending_of_everyValue? (Option.map_eq_none_iff.1 (answerWith_eq_pending h))
  have one : ∀ {i a taken}, answerWith (s.attrValue? id d i a) taken = .pending →
      ∃ x, IsAttr id (some a) x ∧ s.IsPending x := fun h =>
    ⟨_, ⟨_, _, rfl, .inr rfl⟩, isPending_of_attrValue? (answerWith_eq_pending h)⟩
  have all : ∀ {i taken}, answerWith (s.objectValue? id d i) taken = .pending →
      ∃ x, IsAttr id none x ∧ s.IsPending x := fun h =>
    isPending_of_objectValue? (answerWith_eq_pending h)
  match rest with
  | [] =>
    rw [instancesAnswer] at h
    split at h
    · exact all h
    · exact every h
    · exact isPending_of_everyValue? (Option.map_eq_none_iff.1 (answerWith_eq_pending h))
  | .attr a :: _ =>
    rw [instancesAnswer] at h
    split at h
    · exact one h
    · exact every h
  | .splat :: .attr a :: _ =>
    rw [partOf?, if_neg plain]
    exact every h
  | [.splat] | .splat :: .splat :: _ | .splat :: .index _ :: _ => exact every h
  | .index key :: rest =>
    rw [instancesAnswer] at h
    split at h
    · exact absurd h (by simp)
    · split at h
      · rw [partOf?, if_neg plain]
        exact one h
      · next other =>
        rw [partOf?_index fun a tail same => other a tail same]
        exact all h

/-- About what is only read everything is known. -/
theorem dataAnswer_ne_pending (steps : List Step) : s.dataAnswer module steps ≠ .pending := by
  unfold dataAnswer
  split
  · dsimp only
    split
    · split <;> simp
    · simp
  · simp

theorem isPending_of_tableAnswer {table : String} {slotOf : String → Slot} {steps : List Step}
    (h : s.tableAnswer table slotOf steps = .pending) :
    ∃ name rest, steps = .attr name :: rest ∧ s.IsPending (slotOf name) := by
  unfold tableAnswer at h
  split at h
  · next name rest => exact ⟨name, rest, rfl, isPending_of_slotAnswer h⟩
  · exact absurd h (by simp)

/-- Behind a module's name only a name of an output counts. -/
theorem partOf?_module {rest : List Step} (other : ∀ a tail, rest ≠ .attr a :: tail) :
    partOf? "module" rest = none := by
  unfold partOf?
  split
  · exact absurd rfl (other _ _)
  · rfl
  · rfl
  · rfl

theorem isPending_of_mem_outputsOf (h : s.Staged) {path output : String}
    (inside : (output, none) ∈ s.outputsOf path) : s.IsPending (.output path output) := by
  obtain ⟨⟨slot, c⟩, there, found⟩ := List.mem_filterMap.1 inside
  cases slot with
  | output owner name =>
    dsimp only at found
    split at found
    · next same =>
      obtain ⟨rfl, none⟩ := Prod.mk.inj (Option.some.inj found)
      exact ⟨c, Keyed.find?_of_mem h.sorted.nodup (same ▸ there), none⟩
    · exact absurd found (by simp)
  | _ => exact absurd found (by simp)

theorem Staged.waits_for_output (h : s.Staged) {steps : List Step}
    (waits : s.moduleAnswer module steps = .pending) :
    ∃ x ∈ s.slotsOf module (readOf ⟨"module", steps⟩), s.IsPending x := by
  unfold moduleAnswer at waits
  split at waits
  · next name rest =>
    dsimp only at waits
    split at waits
    · exact absurd waits (by simp)
    · split at waits
      · exact ⟨_, List.mem_singleton.2 rfl, isPending_of_slotAnswer waits⟩
      · next other =>
        split at waits
        · exact absurd waits (by simp)
        · next none =>
          -- All outputs are read, and one of them has no value.
          obtain ⟨⟨output, v⟩, inside, none⟩ := of_mapM_none none
          cases Option.map_eq_none_iff.1 none
          have slots : s.slotsOf module (readOf ⟨"module", .attr name :: rest⟩) =
              (s.outputsOf (Plan.childPath module name)).map fun e =>
                .output (Plan.childPath module name) e.1 := by
            rw [readOf_attr, partOf?_module fun a tail same => other a tail same]
            rfl
          rw [slots]
          exact ⟨_, List.mem_map_of_mem inside, isPending_of_mem_outputsOf h inside⟩
  · exact absurd waits (by simp)

theorem slotsOf_resource {root name : String} {part : Option String}
    (plain : root ∉ reservedRoots) : s.slotsOf module ⟨root, name :: part.toList⟩ =
      .extent (NodeId.qualified module root name) :: s.cells.filterMap fun (slot, _) =>
        match slot with
        | .attr resource _ a =>
          if resource = NodeId.qualified module root name ∧ (part = none ∨ part = some a) then
            some slot
          else none
        | _ => none := by
  have reserved : ∀ r ∈ reservedRoots, root ≠ r := fun r hr same => plain (same ▸ hr)
  have second : (name :: part.toList)[1]? = part := by cases part <;> rfl
  rw [slotsOf, if_neg (reserved _ (by decide)), if_neg (reserved _ (by decide)),
    if_neg (reserved _ (by decide)), if_neg (by simpa using plain)]
  dsimp only
  rw [second]
  rfl

theorem IsAttr.mem_slotsOf {root name : String} {part : Option String}
    (plain : root ∉ reservedRoots) (attr : IsAttr (NodeId.qualified module root name) part slot)
    (waits : s.IsPending slot) : slot ∈ s.slotsOf module ⟨root, name :: part.toList⟩ := by
  obtain ⟨i, a, rfl, part⟩ := attr
  obtain ⟨c, found, -⟩ := waits
  rw [slotsOf_resource plain]
  refine List.mem_cons_of_mem _ (List.mem_filterMap.2 ⟨_, Keyed.mem_of_find? found, ?_⟩)
  exact if_pos ⟨rfl, part⟩

theorem Staged.waits_for_resource (h : s.Staged) {root : String} {steps : List Step}
    (plain : root ∉ reservedRoots) (waits : s.resourceAnswer module root steps = .pending) :
    ∃ x ∈ s.slotsOf module (readOf ⟨root, steps⟩), s.IsPending x := by
  unfold resourceAnswer at waits
  split at waits
  · next name rest =>
    dsimp only at waits
    rw [readOf_attr]
    split at waits
    · exact absurd waits (by simp)
    · next d found =>
      split at waits
      · next unknown =>
        refine ⟨.extent (NodeId.qualified module root name), ?_, (h.extent _ d found).1 unknown⟩
        rw [slotsOf_resource plain]
        exact List.mem_cons_self
      · have other : root ≠ "module" := fun same => plain (same ▸ by decide)
        obtain ⟨x, attr, waits⟩ := isPending_of_instancesAnswer other waits
        exact ⟨x, attr.mem_slotsOf plain waits, waits⟩
  · exact absurd waits (by simp)

/-- If an answer is pending, so is a slot that is read for it. -/
theorem Staged.waits_for (h : s.Staged) (waits : (s.scope module).answer q = .pending) :
    ∃ x ∈ s.slotsOf module (readOf q), s.IsPending x := by
  obtain ⟨root, steps⟩ := q
  change (s.scope module).lookup root steps = .pending at waits
  unfold scope at waits
  dsimp only at waits
  split at waits
  · obtain ⟨name, rest, rfl, none⟩ := isPending_of_tableAnswer waits
    exact ⟨_, List.mem_singleton.2 rfl, none⟩
  · obtain ⟨name, rest, rfl, none⟩ := isPending_of_tableAnswer waits
    exact ⟨_, List.mem_singleton.2 rfl, none⟩
  · exact h.waits_for_output waits
  · exact absurd waits (by simp)
  · exact absurd waits (by simp)
  · exact absurd waits (dataAnswer_ne_pending _)
  · exact absurd waits (by simp)
  · exact absurd waits (by simp)
  · exact absurd waits (by simp)
  · refine h.waits_for_resource ?_ waits
    simp only [reservedRoots, List.mem_cons, List.not_mem_nil]
    tauto

/-! ### Pending slots -/

/-- A pending evaluation has asked about something pending, and the references announce it. -/
theorem asks_pending (waits : s.evaluate c = .error .pending) :
    ∃ q ∈ s.askedFor c, (s.scope c.module).answer q = .pending ∧
      q.reference ∈ c.source.references := by
  have hangs := Source.hangsOn c.instanceOf.bindings c.source
  obtain ⟨q, asks, answer⟩ := (hangs.waits _).1 waits
  exact ⟨q, asks, answer, (hangs.kind _ q asks).1⟩

/-- What is asked about something pending has an attribute name behind its own. -/
theorem steps_of_pending (waits : (s.scope module).answer q = .pending) :
    ∃ name rest, q.steps = .attr name :: rest := by
  obtain ⟨root, steps⟩ := q
  change (s.scope module).lookup root steps = .pending at waits
  match steps with
  | .attr name :: rest => exact ⟨name, rest, rfl⟩
  | [] | .index _ :: _ | .splat :: _ =>
    unfold scope at waits
    dsimp only at waits
    split at waits
    all_goals exact absurd waits (by simp [tableAnswer, moduleAnswer, dataAnswer, resourceAnswer])

/-- If the question is direct, the slot waits for a slot of its references. -/
theorem Staged.waitsFor_pending (h : s.Staged) (found : Keyed.find? slot s.cells = some c)
    (announced : q.reference ∈ c.source.references)
    (waits : (s.scope c.module).answer q = .pending) (direct : IsDirect q) :
    ∃ x ∈ s.waitsFor slot, s.IsPending x := by
  obtain ⟨name, rest, steps⟩ := steps_of_pending waits
  obtain ⟨x, inside, none⟩ := h.waits_for waits
  rw [slotsOf_readOf direct steps] at inside
  refine ⟨x, ?_, none⟩
  rw [waitsFor, found]
  exact List.mem_flatMap.2 ⟨_, announced, inside⟩

/-- Visits without progress leave everything as it is. -/
theorem Staged.visit_of_idle {slots : List Slot} (h : s.Staged)
    (waits : ∀ x ∈ slots, s.IsPending x) (idle : (State.visitAll slots s).2 = false) :
    ∀ x ∈ slots, s.visit x = (s, false) := by
  induction slots with
  | nil => exact List.forall_mem_nil _
  | cons slot rest ih =>
    obtain ⟨first, waits⟩ := List.forall_mem_cons.1 waits
    rw [State.visitAll] at idle
    rcases h.visit first with ⟨-, led⟩ | ⟨same, -⟩
    · exact absurd idle (by simp [led])
    · rw [same] at idle
      exact List.forall_mem_cons.2 ⟨same, ih waits idle⟩

/-- After a pass without progress all pending slots wait. -/
theorem Staged.waits_of_idle (h : s.Staged) (idle : s.pass.2 = false) (waits : s.IsPending slot) :
    ∃ c, Keyed.find? slot s.cells = some c ∧ c.value = none ∧ s.evaluate c = .error .pending := by
  have same := h.visit_of_idle (fun _ => (mem_pending h.sorted).1) idle slot
    ((mem_pending h.sorted).2 waits)
  rcases h.visit waits with ⟨-, led⟩ | ⟨-, c, found, pending⟩
  · exact absurd led (by simp [same])
  · obtain ⟨c', found', blank⟩ := waits
    cases found.symm.trans found'
    exact ⟨c, found, blank, pending⟩

/-- The slots that are reported are the pending ones that wait for themselves along pending
    slots. -/
theorem Staged.mem_cycleMembers_iff (h : s.Staged) : slot ∈ s.cycleMembers ↔
    s.IsPending slot ∧ Reached s.waitsFor s.pending (s.waitsFor slot) slot := by
  have edge : ∀ x ∈ s.pending,
      (Keyed.find? x (s.pending.map fun x => (x, s.waitsFor x))).getD [] = s.waitsFor x := by
    intro x inside
    rw [Keyed.find?_of_mem (a := s.waitsFor x)]
    · rfl
    · rw [List.map_map]
      exact (List.map_id _).symm ▸ nodup_pending h.sorted
    · exact List.mem_map_of_mem (f := fun x => (x, s.waitsFor x)) inside
  rw [cycleMembers, List.mem_filter, ← mem_pending h.sorted, List.contains_iff_mem, mem_reach_iff]
  refine and_congr_right fun inside => ?_
  dsimp only
  rw [edge slot inside]
  exact ⟨.congr edge, .congr fun x inside => (edge x inside).symm⟩

/-- All questions about something pending that are asked for pending slots are direct. -/
def AsksDirectly (s : State) : Prop :=
  ∀ slot c, Keyed.find? slot s.cells = some c → c.value = none →
    ∀ q ∈ s.askedFor c, (s.scope c.module).answer q = .pending → IsDirect q

/-- If all questions are direct, a pass without progress has a cycle among the pending slots. -/
theorem Staged.cycleMembers_of_idle (h : s.Staged) (idle : s.pass.2 = false)
    (direct : s.AsksDirectly) (waits : s.IsPending slot) : s.cycleMembers ≠ [] := by
  have each : ∀ x ∈ s.pending, ∃ y ∈ s.waitsFor x, y ∈ s.pending := by
    intro x inside
    have none := (mem_pending h.sorted).1 inside
    obtain ⟨c, found, blank, pending⟩ := h.waits_of_idle idle none
    obtain ⟨q, asks, answer, announced⟩ := asks_pending pending
    obtain ⟨y, follows, none⟩ := h.waitsFor_pending found announced answer
      (direct x c found blank q asks answer)
    exact ⟨y, follows, (mem_pending h.sorted).2 none⟩
  obtain ⟨x, inside, cycle⟩ := Reached.exists_cycle
    (List.ne_nil_of_mem ((mem_pending h.sorted).2 waits)) each
  exact List.ne_nil_of_mem (h.mem_cycleMembers_iff.2 ⟨(mem_pending h.sorted).1 inside, cycle⟩)

/-- In every state of the pass loop: a slot whose evaluation is pending has asked about something
    pending, which its references announce, and a slot that is read for the answer is pending. If
    the question is direct, a slot that the references name is pending. If all pending slots ask
    directly and the pass leads to nothing, some of them lie on a cycle and are reported. -/
theorem waiting_slots (p : Plan) (budget : Nat) (t : State) (visiting : Slot)
    (visit : (t, visiting) ∈ (ofPlan p).visitsOf budget) :
    (∀ slot c, Keyed.find? slot t.cells = some c → t.evaluate c = .error .pending →
      ∃ q ∈ t.askedFor c, q.reference ∈ c.source.references ∧
        (t.scope c.module).answer q = .pending ∧
        (∃ x ∈ t.slotsOf c.module (readOf q), t.IsPending x) ∧
        (IsDirect q → ∃ x ∈ t.waitsFor slot, t.IsPending x)) ∧
    (t.pass.2 = false → t.AsksDirectly → t.cycleMembers ≠ []) ∧
    ∀ slot ∈ t.cycleMembers, t.IsPending slot ∧
      Reached t.waitsFor t.pending (t.waitsFor slot) slot := by
  obtain ⟨staged, waits, -⟩ := ((begun_ofPlan p).toStaged.run budget).visits _ visit
  refine ⟨fun slot c found pending => ?_, fun idle direct => ?_, fun slot member => ?_⟩
  · obtain ⟨q, asks, answer, announced⟩ := asks_pending pending
    exact ⟨q, asks, announced, answer, staged.waits_for answer,
      staged.waitsFor_pending found announced answer⟩
  · exact staged.cycleMembers_of_idle idle direct waits
  · exact staged.mem_cycleMembers_iff.1 member

/-- Two attributes of a resource, each of which is said to be the other one. -/
def swapped : Plan where
  resources := [⟨"aws_a", "x", "", .managed,
    [("a", .text "$\x7baws_a.x.b\x7d"), ("b", .text "$\x7baws_a.x.a\x7d")], none, none, []⟩]
  inputs := []
  locals := []
  calls := []
  dependencies := []

theorem asksDirectly_swapped : (ofPlan swapped).AsksDirectly := by
  have all : ((ofPlan swapped).cells.all fun e =>
      ((ofPlan swapped).askedFor e.2).all fun q => decide (IsDirect q)) = true := by
    decide +kernel
  intro slot c found _ q asks _
  have here := List.all_eq_true.1 all _ (Keyed.mem_of_find? found)
  exact of_decide_eq_true (List.all_eq_true.1 here q asks)

/-- The theorem at attributes that wait for each other. -/
theorem waiting_slots_swapped :
    (ofPlan swapped, .attr "aws_a.x" 0 "a") ∈ (ofPlan swapped).visitsOf 1 ∧
    (∃ c, Keyed.find? (.attr "aws_a.x" 0 "a") (ofPlan swapped).cells = some c ∧
      (ofPlan swapped).evaluate c = .error .pending ∧
      ∃ x ∈ (ofPlan swapped).waitsFor (.attr "aws_a.x" 0 "a"), (ofPlan swapped).IsPending x) ∧
    (ofPlan swapped).pass.2 = false ∧ (ofPlan swapped).AsksDirectly ∧
    (ofPlan swapped).cycleMembers ≠ [] := by
  have pending : (ofPlan swapped).pending = [.attr "aws_a.x" 0 "a", .attr "aws_a.x" 0 "b"] := by
    decide +kernel
  have idle : (ofPlan swapped).pass.2 = false := by decide +kernel
  have visit : (ofPlan swapped, .attr "aws_a.x" 0 "a") ∈ (ofPlan swapped).visitsOf 1 := by
    refine List.mem_append_left _ ?_
    rw [visits, pending]
    exact List.mem_append_left _ List.mem_cons_self
  have staged := (begun_ofPlan swapped).toStaged
  have waits := (mem_pending staged.sorted).1 (pending ▸ List.mem_cons_self)
  obtain ⟨slots, cycle, -⟩ := waiting_slots swapped 1 _ _ visit
  refine ⟨visit, ?_, idle, asksDirectly_swapped, cycle idle asksDirectly_swapped⟩
  obtain ⟨c, found, blank, stops⟩ := staged.waits_of_idle idle waits
  obtain ⟨q, asks, -, answer, -, direct⟩ := slots _ c found stops
  exact ⟨c, found, stops, direct (asksDirectly_swapped _ c found blank q asks answer)⟩

/-- An attribute that reads all of its resource to take one part. -/
def inner : Plan where
  resources := [⟨"aws_a", "x", "", .managed,
    [("p", .text "$\x7baws_a.x[0][\"p\"].r\x7d")], none, none, []⟩]
  inputs := []
  locals := []
  calls := []
  dependencies := []

/-- The attribute waits for itself, but none of the slots that its references name is pending. The
    pass leads to nothing, and no cycle is found. -/
theorem inner_waits : (ofPlan inner, .attr "aws_a.x" 0 "p") ∈ (ofPlan inner).visitsOf 1 ∧
    (∃ c, Keyed.find? (.attr "aws_a.x" 0 "p") (ofPlan inner).cells = some c ∧ c.value = none ∧
      (ofPlan inner).evaluate c = .error .pending ∧
      ∀ x ∈ (ofPlan inner).waitsFor (.attr "aws_a.x" 0 "p"), ¬(ofPlan inner).IsPending x) ∧
    (ofPlan inner).pass.2 = false ∧ (ofPlan inner).pending ≠ [] ∧
    (ofPlan inner).cycleMembers = [] := by
  have pending : (ofPlan inner).pending = [.attr "aws_a.x" 0 "p"] := by decide +kernel
  have idle : (ofPlan inner).pass.2 = false := by decide +kernel
  have names : (ofPlan inner).waitsFor (.attr "aws_a.x" 0 "p") = [.extent "aws_a.x"] := by
    decide +kernel
  have staged := (begun_ofPlan inner).toStaged
  have waits := (mem_pending staged.sorted).1 (pending ▸ List.mem_singleton_self _)
  obtain ⟨c, found, blank, stops⟩ := staged.waits_of_idle idle waits
  refine ⟨?_, ⟨c, found, blank, stops, ?_⟩, idle, by simp [pending], by decide +kernel⟩
  · refine List.mem_append_left _ ?_
    rw [visits, pending]
    exact List.mem_append_left _ List.mem_cons_self
  · rw [names]
    intro x inside none
    rw [List.mem_singleton.1 inside, ← mem_pending staged.sorted, pending] at none
    exact absurd none (by simp)

end State

end Resolution

end Cartograph

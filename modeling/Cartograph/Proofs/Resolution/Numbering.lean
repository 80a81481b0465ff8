import Cartograph.Proofs.Resolution.Canonical
import Cartograph.Proofs.Resolution.Leftovers
import Cartograph.Proofs.Resolution.Waiting

/-!
# Numbers of instances

A resource that comes out with several instances has them from the value of their number
(`resolve_numbered`): no such number is ever given up, and a value that fixes instances is recorded
together with them (`Counted`).

As soon as the number is known, everything that is not written down of the instances reads as their
identifiers: by number or key as that of the instance, and behind a splat as those of all, in the
same order (`Staged.readsIds`). Until then a reference to the resource is pending, so an evaluation
that comes to an end has read nothing else (`Grows.answer_of_asked`).
-/

namespace Cartograph

/-- The last state of a plan's resolution. -/
def Plan.resolved (p : Plan) (budget : Nat) : Resolution.State :=
  ((Resolution.State.ofPlan p).run (max 1 budget)).1

namespace Resolution

open Expression

/-! ### Keys -/

/-- Whether instances are told apart by a number, a map's keys or texts. -/
def Distinguishes (repetition : Repeat) (v : Value) : Prop :=
  repetition = .forEach → (∃ entries, v = .map entries) ∨
    ∃ items, v = .list items ∧ ∀ w ∈ items, ∃ t, w = .text t

theorem toText_setOf {items : List Value} (texts : ∀ w ∈ items, ∃ t, w = .text t) :
    ((Expression.setOf items).map Value.toText).Nodup := by
  have some : ∀ w ∈ distinct items, w.asText? ≠ none := by
    intro w inside
    obtain ⟨t, rfl⟩ := texts w (mem_of_mem_distinct inside)
    simp [Value.asText?]
  rw [Expression.setOf]
  split
  · next ts _ =>
    rw [List.map_map]
    exact (List.map_id (Keyed.keySet ts)).symm ▸ Keyed.nodup_keySet ts
  · next none =>
    obtain ⟨w, inside, missing⟩ := of_mapM_none none
    exact absurd missing (some w inside)

/-- Instances that are told apart have different keys. -/
theorem nodup_keys {repetition : Repeat} {v : Value} {members : List Instance} {keys : List String}
    (canonical : v.Canonical) (apart : Distinguishes repetition v)
    (fixed : instancesOf repetition v = .ok (members, keys)) : keys.Nodup := by
  unfold instancesOf at fixed
  split at fixed
  · exact absurd fixed (by simp)
  · split at fixed
    · cases fixed
      exact List.nodup_nil
    · split at fixed
      · split at fixed
        · cases fixed
          exact List.nodup_nil
        · exact absurd fixed (by simp)
      · exact absurd fixed (by simp)
    · split at fixed
      · cases fixed
        exact (Value.Canonical.map_iff.1 canonical).1.nodup
      · next items =>
        cases fixed
        obtain ⟨entries, map⟩ | ⟨items', list, texts⟩ := apart rfl
        · exact absurd map (by simp)
        · cases list
          exact toText_setOf texts
      · exact absurd fixed (by simp)

namespace State

variable {s t : State} {id : NodeId} {slot : Slot} {d : Declared} {v : Value} {budget : Nat}
  {members instances : List Instance} {keys : List String} {c : Cell} {name : String}

/-! ### Several instances -/

/-- Several instances of a resource are those that the value of their number stands for. -/
def Counted (s : State) : Prop := ∀ id d members v, Keyed.find? id s.declared = some d →
  d.instances = some members → 1 < members.length → s.value? (.extent id) = some v →
  instancesOf d.repetition v = .ok (members, d.keys)

theorem Counted.setValue (h : s.Counted)
    (other : ∀ id, slot = .extent id → Keyed.find? id s.declared = none) :
    (s.setValue slot v).Counted := by
  intro id d members w found known several value
  refine h id d members w found known several ?_
  rw [value?, find?_setValue, if_neg fun same => ?_] at value
  · exact value
  · exact absurd ((other id same).symm.trans found) (by simp)

/-- Instances are fixed together with the value of their number. -/
theorem Counted.fix (h : s.Counted) (found : Keyed.find? id s.declared = some d)
    (agree : 1 < instances.length → instancesOf d.repetition v = .ok (instances, keys)) :
    ((s.setInstances id instances keys).setValue (.extent id) v).Counted := by
  intro j e members w there known several value
  change Keyed.find? j (s.setInstances id instances keys).declared = some e at there
  rw [declared_setInstances, found] at there
  dsimp only at there
  rw [Keyed.find?_insert] at there
  rw [value?, find?_setValue] at value
  split at there
  · next same =>
    cases there
    cases known
    rw [if_pos (by rw [same])] at value
    rw [Option.bind_map] at value
    obtain ⟨c, -, recorded⟩ := Option.bind_eq_some_iff.1 value
    cases Option.some.inj recorded
    exact agree several
  · next other =>
    rw [if_neg (by simpa using other), find?_setInstances_of_ne (by simp)] at value
    exact h j e members w there known several value

theorem Counted.assumeSingle (h : s.Counted) (id : NodeId) (message : String) :
    (s.assumeSingle id message).Counted := by
  rw [State.assumeSingle]
  split
  · exact h
  · next d found =>
    have reported : (s.report .unresolved (some id)
        (message ++ "; assuming a single instance")).Counted := h
    exact reported.fix found fun several => absurd several (by simp)

theorem Counted.settle (h : s.Counted) : (s.settle slot v).Counted := by
  rw [State.settle.eq_def]
  split
  · next id =>
    split
    · next none => exact h.setValue fun j same => by cases same; exact none
    · next d found =>
      split
      · next fixed => exact h.fix found fun _ => fixed
      · exact h.assumeSingle id _
  · next plain => exact h.setValue fun id same => absurd same (plain id)

theorem Counted.fail (h : s.Counted) (message : String) : (s.fail slot message).Counted := by
  rw [State.fail.eq_def]
  split
  · exact h.assumeSingle _ message
  · next plain =>
    have reported : (s.report .unresolved slot.resource? (slot.text ++ ": " ++ message)).Counted :=
      h
    exact reported.setValue fun id same => absurd same (plain id)

theorem counted_kept : Kept Counted fun _ => True where
  report h := h
  settle h _ := h.settle
  fail message h := h.fail message
  evaluated _ _ _ := trivial
  placeholder _ := trivial

theorem counted_run (p : Plan) (budget : Nat) : ((ofPlan p).run budget).1.Counted :=
  counted_kept.run (fun id _ _ _ _ _ _ value =>
    absurd (((begun_ofPlan p).blank (.extent id)).symm.trans value) (by simp)) budget

/-- Several instances come from a value of their number that is known in the end. -/
theorem exists_number (p : Plan) (budget : Nat)
    (found : Keyed.find? id ((ofPlan p).run budget).1.declared = some d)
    (known : d.instances = some members) (several : 1 < members.length) :
    ∃ v, ((ofPlan p).run budget).1.value? (.extent id) = some v ∧
      instancesOf d.repetition v = .ok (members, d.keys) := by
  have begun := begun_ofPlan p
  have ran := begun.toStaged.run budget
  -- The instances were not there in the beginning, so there is a slot for their number.
  have there : (Keyed.find? (.extent id) (ofPlan p).cells).isSome := by
    cases start : Keyed.find? id (ofPlan p).declared with
    | none => exact absurd ((ran.grows.undeclared id start).symm.trans found) (by simp)
    | some d₀ =>
      obtain ⟨d', found', grows⟩ := ran.grows.declared id d₀ start
      cases found.symm.trans found'
      refine (isPending_iff.1 ((begun.extent id d₀ start).1 ?_)).1
      rcases grows.known with unknown | rfl
      · exact unknown
      · rcases (initial_ofPlan p).2 id d₀ start with unknown | sole
        · exact unknown
        · cases known.symm.trans sole
          exact absurd several (by simp)
  obtain ⟨v, value⟩ : ∃ v, ((ofPlan p).run budget).1.value? (.extent id) = some v := by
    refine Option.ne_none_iff_exists'.1 fun none => ?_
    have waits := isPending_iff.2 ⟨ran.grows.isSome there, none⟩
    exact absurd (known.symm.trans ((ran.staged.extent id d found).2 waits)) (by simp)
  exact ⟨v, value, counted_run p budget id d members v found known several value⟩

/-! ### What is not written down -/

/-- A value that names an instance: its number, or its key. -/
def Names (d : Declared) (i : Nat) (key : Value) : Prop :=
  match d.repetition with
  | .forEach => ∃ k, d.keys[i]? = some k ∧ key.asText? = some k
  | _ => key.asInt? = some (i : Int)

/-- What is not written down of a resource's instances reads as their identifiers: by number or key
    as that of the instance, and behind a splat as those of all. -/
def ReadsIds (s : State) (id : NodeId) (d : Declared) (n : Nat) : Prop :=
  ∀ module type name, NodeId.qualified module type name = id → type ∉ reservedRoots →
    ∀ a, a ∉ d.attributes.map (·.1) → ∀ rest,
      (∀ i < n, ∀ key, Names d i key →
        (s.scope module).answer ⟨type, .attr name :: .index key :: .attr a :: rest⟩ =
          .found (.text (NodeId.withSuffix id (i + 1))) 3) ∧
      (s.scope module).answer ⟨type, .attr name :: .splat :: .attr a :: rest⟩ =
        .found (.list ((List.range n).map fun i => .text (NodeId.withSuffix id (i + 1)))) 3

theorem instanceAt?_of_names {n i : Nat} {key : Value} (nodup : d.keys.Nodup) (below : i < n)
    (names : Names d i key) : instanceAt? d n key = some i := by
  cases repetition : d.repetition with
  | forEach =>
    rw [Names, repetition] at names
    obtain ⟨k, at_, text⟩ := names
    obtain ⟨short, same⟩ := List.getElem?_eq_some_iff.1 at_
    rw [instanceAt?, repetition, text]
    refine List.findIdx?_eq_some_iff_getElem.2 ⟨short, by simp [same], fun j before => ?_⟩
    -- Keys before it are others.
    have apart : d.keys[j] ≠ k := fun again =>
      absurd ((nodup.getElem_inj_iff).1 (again.trans same.symm)) (by omega)
    simpa using apart
  | single | count =>
    rw [Names, repetition] at names
    rw [instanceAt?, repetition]
    dsimp only
    rw [names, Option.bind_some, if_pos ⟨Int.natCast_nonneg i, Int.ofNat_lt.2 below⟩]
    rfl

/-- A root name that stands for no table is a resource type. -/
theorem lookup_of_plain {module root : String} (plain : root ∉ reservedRoots) (steps : List Step) :
    (s.scope module).lookup root steps = s.resourceAnswer module root steps := by
  have reserved : ∀ r ∈ reservedRoots, root ≠ r := fun r hr same => plain (same ▸ hr)
  rw [scope]
  dsimp only
  split
  all_goals first
    | rfl
    | exact absurd rfl (reserved _ (by decide))

section Unset

variable (h : s.Staged) (found : Keyed.find? id s.declared = some d)
  (known : d.instances = some members) (several : 1 < members.length)
  (unset : name ∉ d.attributes.map (·.1))
include h found known several unset

theorem Staged.attrValue?_unset (i : Nat) :
    s.attrValue? id d i name = some (.text (NodeId.withSuffix id (i + 1))) := by
  have none : Keyed.find? (.attr id i name) s.cells = none := by
    have cell := h.attrs id i name
    have absent : Keyed.find? name d.attributes.reverse = none := by
      rw [Keyed.find?_eq_none_iff, List.map_reverse, List.mem_reverse]
      exact unset
    rw [found, Option.bind_some, Declared.attrCell?, absent] at cell
    refine Option.map_eq_none_iff.1 (cell.trans ?_)
    simp
  rcases members with _ | ⟨_, _ | ⟨_, _⟩⟩
  · exact absurd several (by simp)
  · exact absurd several (by simp)
  · rw [attrValue?, none]
    dsimp only
    rw [instanceId, known]

theorem Staged.everyValue?_unset (n : Nat) : s.everyValue? id d n (some name) =
    some ((List.range n).map fun i => .text (NodeId.withSuffix id (i + 1))) := by
  rw [everyValue?]
  dsimp only
  rw [funext (h.attrValue?_unset found known several unset)]
  exact List.mapM_pure

end Unset

/-- As soon as the number of a resource's instances is known, what is not written down of them reads
    as their identifiers. -/
theorem Staged.readsIds (h : s.Staged) (found : Keyed.find? id s.declared = some d)
    (known : d.instances = some members) (several : 1 < members.length) (nodup : d.keys.Nodup) :
    s.ReadsIds id d members.length := by
  intro module type name own plain a unset rest
  have answer : ∀ steps, (s.scope module).answer ⟨type, .attr name :: steps⟩ =
      s.instancesAnswer id d members.length steps := by
    intro steps
    rw [Scope.answer, lookup_of_plain plain, resourceAnswer, own, found]
    dsimp only
    rw [known]
  refine ⟨fun i below key names => ?_, ?_⟩
  · rw [answer, instancesAnswer, instanceAt?_of_names nodup below names]
    exact congrArg (answerWith · 3) (h.attrValue?_unset found known several unset i)
  · rw [answer, instancesAnswer, h.everyValue?_unset found known several unset]
    rfl

/-- What is known in the end of a resource was known as soon as the number of its instances was. -/
theorem Grows.declared_of_known (grows : t.Grows s) (staged : t.Staged)
    (found : Keyed.find? id s.declared = some d) (known : ¬t.IsPending (.extent id)) :
    Keyed.find? id t.declared = some d := by
  cases before : Keyed.find? id t.declared with
  | none => exact absurd ((grows.undeclared id before).symm.trans found) (by simp)
  | some d₀ =>
    obtain ⟨d', found', grown⟩ := grows.declared id d₀ before
    cases found.symm.trans found'
    rcases grown.known with unknown | rfl
    · exact absurd ((staged.extent id d₀ before).1 unknown) known
    · rfl

/-- An evaluation that is not pending has had the answers that its questions have in the end. -/
theorem Grows.answer_of_asked (grows : t.Grows s) (settled : t.evaluate c ≠ .error .pending)
    {q : Question} (asks : q ∈ t.askedFor c) :
    (s.scope c.module).answer q = (t.scope c.module).answer q := by
  rcases grows.scope c.module q.root q.steps with waits | same
  · have hangs := Source.hangsOn c.instanceOf.bindings c.source
    exact absurd ((hangs.waits (t.scope c.module)).2 ⟨q, asks, waits⟩) settled
  · exact same.symm

/-! ### Resources in the result -/

/-- How a resource with several instances comes out: they are those that the value of their number
    stands for, the attributes of each are those that were evaluated for it, and there is a bag for
    each. -/
structure Numbered (s : State) (r : Resource) (d : Declared) (v : Value) (members : List Instance) :
    Prop where
  found : Keyed.find? r.id s.declared = some d
  instances : d.instances = some members
  keys : d.keys = r.instanceKeys
  value : s.value? (.extent r.id) = some v
  fixed : instancesOf d.repetition v = .ok (members, r.instanceKeys)
  count : members.length = r.cardinality
  attrs : ∀ i name c, Keyed.find? (.attr r.id i name) s.cells = some c →
    members[i]? = some c.instanceOf ∧ Keyed.find? name d.attributes.reverse = some c.source
  bags : r.instances = (List.range r.cardinality).map (s.finalAttributes r.id d)

/-- An attribute's slot is for the instance of its place. -/
theorem Staged.of_attr (h : s.Staged) (found : Keyed.find? id s.declared = some d)
    (known : d.instances = some members) {i : Nat}
    (there : Keyed.find? (.attr id i name) s.cells = some c) :
    members[i]? = some c.instanceOf ∧ Keyed.find? name d.attributes.reverse = some c.source := by
  have cell := h.attrs id i name
  rw [there, found, Option.bind_some, Declared.attrCell?, known, Option.bind_some] at cell
  obtain ⟨member, at_, cell⟩ := Option.bind_eq_some_iff.1 cell.symm
  obtain ⟨source, named, cell⟩ := Option.map_eq_some_iff.1 cell
  exact ⟨at_.trans (congrArg (fun c => some (Cell.instanceOf c)) cell),
    named.trans (congrArg (fun c => some (Cell.source c)) cell)⟩

/-- A resource with several instances in the result of a resolution. -/
theorem resolve_numbered {p : Plan} {r : Resource} (kept : r ∈ (p.resolve budget).resources)
    (several : 1 < r.cardinality) :
    ∃ d v members, Numbered (p.resolved budget) r d v members := by
  have staged := (begun_ofPlan p).toStaged
  obtain ⟨d, found, made⟩ := exists_resource? kept
  obtain ⟨members, known⟩ := staged.instances_run found
  have count := (of_resource? known made).2.2.1
  obtain ⟨bags, keys⟩ := bags_of_resource? known (count ▸ several) made
  obtain ⟨v, value, fixed⟩ := exists_number p _ found known (count ▸ several)
  exact ⟨d, v, members, found, known, keys.symm, value, keys ▸ fixed, count.symm,
    fun _ _ _ there => (staged.run (max 1 budget)).staged.of_attr found known there, bags⟩

/-- In the states before the last one its instances read the same, as soon as their number is
    known. -/
theorem Numbered.readsIds {r : Resource} (numbered : Numbered s r d v members)
    (several : 1 < r.cardinality) (nodup : d.keys.Nodup) (staged : t.Staged) (grows : t.Grows s)
    (known : ¬t.IsPending (.extent r.id)) : t.ReadsIds r.id d r.cardinality := by
  have found := grows.declared_of_known staged numbered.found known
  rw [← numbered.count]
  exact staged.readsIds found numbered.instances (numbered.count ▸ several) nodup

/-- In the end, and whenever something is recorded after the number of a resource's instances is
    known, what is not written down of the instances reads as their identifiers. -/
theorem Numbered.readsIds_run {p : Plan} {r : Resource} (canonical : p.Canonical)
    (numbered : Numbered (p.resolved budget) r d v members) (several : 1 < r.cardinality)
    (apart : Distinguishes d.repetition v) : (p.resolved budget).ReadsIds r.id d r.cardinality ∧
      ∀ t slot, (t, slot) ∈ (ofPlan p).recordings (max 1 budget) → ¬t.IsPending (.extent r.id) →
        t.ReadsIds r.id d r.cardinality := by
  have ran := (begun_ofPlan p).toStaged.run (max 1 budget)
  have final : (p.resolved budget).Canonical :=
    canonical_invariant.run (ofPlan_canonical canonical) (max 1 budget)
  obtain ⟨c, found, value⟩ := Option.bind_eq_some_iff.1 numbered.value
  have nodup : d.keys.Nodup := by
    rw [numbered.keys]
    exact nodup_keys ((final.cell found).value v value) apart numbered.fixed
  refine ⟨numbered.readsIds several nodup ran.staged (.refl _) fun waits => ?_,
    fun t slot recorded known => ?_⟩
  · have unknown := (ran.staged.extent r.id d numbered.found).2 waits
    exact absurd (numbered.instances.symm.trans unknown) (by simp)
  · obtain ⟨staged, -, -, grows⟩ := ran.recordings _ recorded
    exact numbered.readsIds several nodup staged grows known

end State

end Resolution

end Cartograph

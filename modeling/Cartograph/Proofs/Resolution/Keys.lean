import Cartograph.Proofs.Expression.Sets
import Cartograph.Proofs.Resolution.Numbering

/-!
# Keys of instances

Whatever a resource's number of instances comes to, its instances and their keys are those that this
value stands for, unless the number was given up (`Fixed`). So the keys of a map are in order, and
so are those of a list of texts; any other list gives the printed members in the order of the list
(`pairwise_keys_iff`), and another order gives other instances (`instancesOf_invariant_iff`).
-/

namespace Cartograph.Resolution

open Expression

variable {v : Value} {items items' : List Value} {members : List Instance} {keys : List String}

/-! ### What a value stands for -/

theorem anyUnresolved_iff : Value.anyUnresolved items = true ↔
    ∃ w ∈ items, w.hasUnresolved = true := by
  induction items with
  | nil => simp [Value.anyUnresolved]
  | cons w rest ih => simp [Value.anyUnresolved, ih]

/-- The instances of a list are the members of its set. -/
theorem instancesOf_list : instancesOf .forEach (.list items) = .ok (members, keys) ↔
    (∀ w ∈ items, w.hasUnresolved = false) ∧
      members = (setOf items).map (fun w => .keyed w.toText w) ∧
      keys = (setOf items).map Value.toText := by
  have settled : (Value.list items).hasUnresolved = false ↔
      ∀ w ∈ items, w.hasUnresolved = false := by
    rw [← Bool.not_eq_true, Value.hasUnresolved, anyUnresolved_iff]
    simp
  rw [instancesOf, ← settled]
  by_cases unresolved : (Value.list items).hasUnresolved = true
  · rw [if_pos unresolved, unresolved]
    simp
  · rw [if_neg unresolved, Bool.eq_false_of_not_eq_true unresolved]
    dsimp only
    rw [Except.ok.injEq, Prod.mk.injEq, eq_comm, @eq_comm _ _ keys]
    exact (and_iff_right rfl).symm

/-- The keys of a list are in order, each once, just if it is a list of texts or its members come in
    the order of their texts. -/
theorem pairwise_keys_iff (fixed : instancesOf .forEach (.list items) = .ok (members, keys)) :
    keys.Pairwise (· < ·) ↔
      Texts items ∨ ((distinct items).map Value.toText).Pairwise (· < ·) := by
  obtain ⟨-, -, rfl⟩ := instancesOf_list.1 fixed
  by_cases texts : Texts items
  · exact iff_of_true (pairwise_setOf texts) (.inl texts)
  · rw [setOf_of_not_texts texts]
    exact (or_iff_right texts).symm

/-- A list gives the same instances in any order and repetition of its members just if they are all
    texts, or all one value that equals itself. -/
theorem instancesOf_invariant_iff
    (fixed : instancesOf .forEach (.list items) = .ok (members, keys)) :
    (∀ items', SameMembers items items' →
      instancesOf .forEach (.list items') = .ok (members, keys)) ↔
        Texts items ∨ ∃ v, sameValue v v ∧ ∀ w ∈ items, w = v := by
  obtain ⟨settled, rfl, rfl⟩ := instancesOf_list.1 fixed
  have injective : Function.Injective fun w : Value => Instance.keyed w.toText w :=
    fun _ _ same => (Instance.keyed.inj same).2
  rw [← setOf_invariant_iff]
  refine forall_congr' fun items' => imp_congr_right fun same => ?_
  rw [instancesOf_list]
  constructor
  · rintro ⟨-, equal, -⟩
    exact injective.list_map equal.symm
  · rintro equal
    exact ⟨fun w inside => settled w ((same w).1 inside), by rw [equal], by rw [equal]⟩

/-- The keys of a map are in order. -/
theorem pairwise_keys_map {entries : Attributes} (canonical : (Value.map entries).Canonical)
    (fixed : instancesOf .forEach (.map entries) = .ok (members, keys)) :
    keys.Pairwise (· < ·) := by
  rw [instancesOf] at fixed
  split at fixed
  · exact absurd fixed (by simp)
  · cases fixed
    exact (Value.Canonical.map_iff.1 canonical).1

namespace State

variable {s : State} {id : NodeId} {slot : Slot} {d : Declared} {budget : Nat}

/-! ### Instances in a state -/

/-- The instances of a resource are those that the recorded value of their number stands for, unless
    it was given up. -/
def Fixed (s : State) : Prop := ∀ id d v, Keyed.find? id s.declared = some d →
  s.value? (.extent id) = some v → v = .int 1 ∨
    ∃ members, d.instances = some members ∧ instancesOf d.repetition v = .ok (members, d.keys)

theorem Fixed.setValue (h : s.Fixed)
    (other : ∀ id, slot = .extent id → Keyed.find? id s.declared = none) :
    (s.setValue slot v).Fixed := by
  intro id d w found value
  refine h id d w found ?_
  rw [value?, find?_setValue, if_neg fun same => ?_] at value
  · exact value
  · exact absurd ((other id same).symm.trans found) (by simp)

/-- Instances are fixed together with the value of their number. -/
theorem Fixed.fix (h : s.Fixed) (found : Keyed.find? id s.declared = some d)
    (agree : v = .int 1 ∨ instancesOf d.repetition v = .ok (members, keys)) :
    ((s.setInstances id members keys).setValue (.extent id) v).Fixed := by
  intro j e w there value
  change Keyed.find? j (s.setInstances id members keys).declared = some e at there
  rw [declared_setInstances, found] at there
  dsimp only at there
  rw [Keyed.find?_insert] at there
  rw [value?, find?_setValue] at value
  split at there
  · next same =>
    cases there
    rw [if_pos (by rw [same]), Option.bind_map] at value
    obtain ⟨c, -, recorded⟩ := Option.bind_eq_some_iff.1 value
    cases Option.some.inj recorded
    exact agree.imp_right fun fixed => ⟨members, rfl, fixed⟩
  · next other =>
    rw [if_neg (by simpa using other), find?_setInstances_of_ne (by simp)] at value
    exact h j e w there value

theorem Fixed.assumeSingle (h : s.Fixed) (id : NodeId) (message : String) :
    (s.assumeSingle id message).Fixed := by
  rw [State.assumeSingle]
  split
  · exact h
  · next d found =>
    have reported : (s.report .unresolved (some id)
        (message ++ "; assuming a single instance")).Fixed := h
    exact reported.fix found (.inl rfl)

theorem Fixed.settle (h : s.Fixed) : (s.settle slot v).Fixed := by
  rw [State.settle.eq_def]
  split
  · next id =>
    split
    · next none => exact h.setValue fun j same => by cases same; exact none
    · next d found =>
      split
      · next fixed => exact h.fix found (.inr fixed)
      · exact h.assumeSingle id _
  · next plain => exact h.setValue fun id same => absurd same (plain id)

theorem Fixed.fail (h : s.Fixed) (message : String) : (s.fail slot message).Fixed := by
  rw [State.fail.eq_def]
  split
  · exact h.assumeSingle _ message
  · next plain =>
    have reported : (s.report .unresolved slot.resource? (slot.text ++ ": " ++ message)).Fixed := h
    exact reported.setValue fun id same => absurd same (plain id)

theorem fixed_kept : Kept Fixed fun _ => True where
  report h := h
  settle h _ := h.settle
  fail message h := h.fail message
  evaluated _ _ _ := trivial
  placeholder _ := trivial

theorem fixed_run (p : Plan) (budget : Nat) : ((ofPlan p).run budget).1.Fixed :=
  fixed_kept.run (fun id _ _ _ value =>
    absurd (((begun_ofPlan p).blank (.extent id)).symm.trans value) (by simp)) budget

theorem instanceKeys_of_resource? {r : Resource} (made : s.resource? id d = some r) :
    r.instanceKeys = d.keys := by
  rw [resource?] at made
  dsimp only at made
  split at made
  · exact absurd made (by simp)
  · cases made
    rfl

end State

open State

variable {p : Plan} {r : Resource} {d : Declared} {budget : Nat}

/-- The keys of a resource that is repeated for each entry of a map, or each member of a list. -/
theorem keys_resolve (canonical : p.Canonical) (kept : r ∈ (p.resolve budget).resources)
    (found : Keyed.find? r.id (p.resolved budget).declared = some d)
    (each : d.repetition = .forEach)
    (value : (p.resolved budget).value? (.extent r.id) = some v)
    (collection : v.asMap?.isSome ∨ v.asList?.isSome) :
    ∃ members, d.instances = some members ∧
      instancesOf .forEach v = .ok (members, r.instanceKeys) ∧
      (∀ entries, v = .map entries → r.instanceKeys.Pairwise (· < ·)) ∧
      ∀ items, v = .list items →
        (r.instanceKeys.Pairwise (· < ·) ↔
          Texts items ∨ ((distinct items).map Value.toText).Pairwise (· < ·)) ∧
        ((∀ items', SameMembers items items' →
            instancesOf .forEach (.list items') = .ok (members, r.instanceKeys)) ↔
          Texts items ∨ ∃ v, sameValue v v ∧ ∀ w ∈ items, w = v) := by
  have final : (p.resolved budget).Canonical :=
    canonical_invariant.run (ofPlan_canonical canonical) (max 1 budget)
  obtain ⟨d', found', made⟩ := exists_resource? kept
  obtain rfl := Option.some.inj (found.symm.trans found')
  obtain rfl | ⟨members, known, fixed⟩ := fixed_run p (max 1 budget) r.id d v found value
  · exact absurd collection (by simp [Value.asMap?, Value.asList?])
  rw [each, ← instanceKeys_of_resource? made] at fixed
  refine ⟨members, known, fixed, ?_, ?_⟩
  · rintro entries rfl
    obtain ⟨c, cell, recorded⟩ := Option.bind_eq_some_iff.1 value
    exact pairwise_keys_map ((final.cell cell).value _ recorded) fixed
  · rintro items rfl
    exact ⟨pairwise_keys_iff fixed, instancesOf_invariant_iff fixed⟩

/-- A plan with a resource for each member of a list. -/
def users (names : List Value) : Plan where
  resources := [⟨"aws_iam_user", "u", "", .managed, [("name", .text "$\x7beach.value\x7d")], none,
    some (.list names), []⟩]
  inputs := []
  locals := []
  calls := []
  dependencies := []

theorem canonical_users {names : List Value} (each : ∀ v ∈ names, v.Canonical) :
    (users names).Canonical where
  resources := by
    refine List.forall_mem_singleton.2 ⟨?_, by simp, ?_⟩
    · exact .map (by simp [Keyed.IsSorted]) (List.forall_mem_singleton.2 .text)
    · rintro v hv
      cases Option.mem_some_iff.1 hv
      exact .list each
  inputs := List.forall_mem_nil _
  calls := List.forall_mem_nil _

/-- Names out of order, one of them twice. -/
def names : List Value := [.text "bob", .text "amy", .text "bob"]

/-- The theorem at names out of order. -/
theorem keys_resolve_names :
    (users names).Canonical ∧ ∃ r ∈ ((users names).resolve defaultBudget).resources,
      ∃ d items members,
        Keyed.find? r.id ((users names).resolved defaultBudget).declared = some d ∧
        d.repetition = .forEach ∧
        ((users names).resolved defaultBudget).value? (.extent r.id) = some (.list items) ∧
        items = names ∧ r.instanceKeys.Pairwise (· < ·) ∧
        ∀ items', SameMembers items items' →
          instancesOf .forEach (.list items') = .ok (members, r.instanceKeys) := by
  have canonical : (users names).Canonical := canonical_users (by
    simp [names, Value.Canonical.text])
  have there : (((users names).resolve defaultBudget).resources.find? fun r =>
      r.id = "aws_iam_user.u").isSome = true := by
    decide +kernel
  have repeated : (Keyed.find? "aws_iam_user.u" ((users names).resolved
      defaultBudget).declared).any (fun d => d.repetition = .forEach) = true := by
    decide +kernel
  have counted : (((users names).resolved defaultBudget).value? (.extent "aws_iam_user.u")).any
      (fun v => v.asList?.any fun items =>
        items.mapM Value.asText? = some ["bob", "amy", "bob"]) = true := by
    decide +kernel
  obtain ⟨r, seen⟩ := Option.isSome_iff_exists.1 there
  have id : r.id = "aws_iam_user.u" := by simpa using List.find?_some seen
  have kept := List.mem_of_find?_eq_some seen
  obtain ⟨d, found, each⟩ := (Option.any_eq_true _ _).1 repeated
  obtain ⟨v, value, listed⟩ := (Option.any_eq_true _ _).1 counted
  obtain ⟨items, list, texts⟩ := (Option.any_eq_true _ _).1 listed
  obtain rfl : v = .list items := by
    cases v <;> simp_all [Value.asList?]
  have same : items = names := mapM_asText?_eq_some_iff.1 (of_decide_eq_true texts)
  have plain : Texts items := by
    rw [same, names]
    simp [Texts]
  rw [← id] at found value
  obtain ⟨members, known, fixed, -, list⟩ := keys_resolve canonical kept found
    (of_decide_eq_true each) value (.inr rfl)
  obtain ⟨sorted, invariant⟩ := list items rfl
  exact ⟨canonical, r, kept, d, items, members, found, of_decide_eq_true each, value, same,
    sorted.2 (.inl plain), invariant.2 (.inl plain)⟩

/-- Numbers are left in the order of their list, and a number and its text have the same key. -/
theorem keys_unsorted :
    (∃ r ∈ ((users [.int 10, .int 9, .int 2]).resolve defaultBudget).resources,
      r.instanceKeys = ["10", "9", "2"]) ∧
    (∃ r ∈ ((users [.int 2, .int 9, .int 10]).resolve defaultBudget).resources,
      r.instanceKeys = ["2", "9", "10"]) ∧
    ∃ r ∈ ((users [.int 1, .text "1"]).resolve defaultBudget).resources,
      r.instanceKeys = ["1", "1"] := by
  have shown (listed : List Value) (keys : List String)
      (all : ((users listed).resolve defaultBudget).resources.any
        (fun r => r.instanceKeys = keys) = true) :
      ∃ r ∈ ((users listed).resolve defaultBudget).resources, r.instanceKeys = keys := by
    obtain ⟨r, kept, same⟩ := List.any_eq_true.1 all
    exact ⟨r, kept, of_decide_eq_true same⟩
  exact ⟨shown _ _ (by decide +kernel), shown _ _ (by decide +kernel),
    shown _ _ (by decide +kernel)⟩

end Cartograph.Resolution

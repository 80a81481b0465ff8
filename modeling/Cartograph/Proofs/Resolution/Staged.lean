import Cartograph.Proofs.Resolution.Growth
import Cartograph.Proofs.Resolution.Run
import Cartograph.Proofs.Resolution.Slot

/-!
# The stages of a resolution

Slots come into being on the way: the attributes of a resource's instances when the number of the
instances gets known. In every state on the way (`State.Staged`) the attribute slots are exactly
those of known instances, and the instances of a resource are unknown exactly as long as the slot of
their number is pending.

Only pending slots are given values, so every step *moves* a state on (`State.Moves`): it grows, the
slot is no longer pending, all others are what they were, and what is pending and new are the
attributes of the instances that got known.

* `find?_attr_setInstances` says which slots a resource gets with its instances.
* `Staged.settle`, `Staged.fail` and `Staged.visit` are the steps.
-/

namespace Cartograph.Resolution

/-- The slot of an attribute of an instance, without value: of several attributes with one name the
    last counts. -/
def Declared.attrCell? (d : Declared) (i : Nat) (name : String) : Option Cell :=
  d.instances.bind fun instances => instances[i]?.bind fun member =>
    (Keyed.find? name d.attributes.reverse).map fun source =>
      ⟨d.record.module, source, member, none⟩

/-- A slot without its value. -/
def Cell.blank (c : Cell) : Cell := { c with value := none }

theorem Declared.blank_attrCell? (d : Declared) (i : Nat) (name : String) :
    (d.attrCell? i name).map Cell.blank = d.attrCell? i name := by
  simp only [attrCell?, Option.map_bind, Function.comp_def, Option.map_map, Cell.blank]

theorem Declared.value_attrCell? (d : Declared) (i : Nat) (name : String) :
    (d.attrCell? i name).bind Cell.value = none := by
  rw [← d.blank_attrCell? i name, Option.bind_map]
  cases d.attrCell? i name <;> rfl

namespace State

variable {s t u : State} {id : NodeId} {slot other : Slot} {c : Cell} {d : Declared} {v : Value}
  {instances : List Instance} {keys : List String}

/-- There is such a slot, and it has no value. -/
def IsPending (s : State) (slot : Slot) : Prop :=
  ∃ c, Keyed.find? slot s.cells = some c ∧ c.value = none

/-- The value of a slot. -/
def value? (s : State) (slot : Slot) : Option Value :=
  (Keyed.find? slot s.cells).bind Cell.value

/-! ### What the operations do to slots -/

theorem find?_setValue : Keyed.find? other (s.setValue slot v).cells =
    if slot = other then (Keyed.find? other s.cells).map fun c => { c with value := some v }
    else Keyed.find? other s.cells := by
  dsimp only [setValue]
  exact Keyed.find?_modify _

theorem find?_addInstance_of_ne {member : Instance × Nat}
    (ne : ∀ name, slot ≠ .attr id member.2 name) :
    Keyed.find? slot (addInstance id d s member).cells = Keyed.find? slot s.cells := by
  rw [addInstance]
  induction d.attributes generalizing s with
  | nil => rfl
  | cons e rest ih =>
    rw [List.foldl_cons, ih]
    dsimp only
    rw [addSlot, Keyed.find?_insert, if_neg (ne e.1).symm]

/-- The attributes that an instance gets. -/
theorem find?_addInstance (member : Instance × Nat) {name : String} :
    Keyed.find? (.attr id member.2 name) (addInstance id d s member).cells =
      ((Keyed.find? name d.attributes.reverse).map fun source =>
        ⟨d.record.module, source, member.1, none⟩).or
          (Keyed.find? (.attr id member.2 name) s.cells) := by
  rw [addInstance]
  induction d.attributes generalizing s with
  | nil => rfl
  | cons e rest ih =>
    rw [List.foldl_cons, ih, List.reverse_cons, Keyed.find?_append]
    dsimp only
    rw [addSlot, Keyed.find?_insert]
    by_cases same : e.1 = name
    · subst same
      rw [if_pos rfl]
      cases Keyed.find? e.1 rest.reverse <;> simp [Keyed.find?]
    · have ne : Slot.attr id member.2 e.1 ≠ .attr id member.2 name := by
        rintro ⟨⟩
        exact same rfl
      rw [if_neg ne]
      cases Keyed.find? name rest.reverse <;> simp [Keyed.find?, same]

theorem find?_setInstances_of_ne (ne : ∀ i name, slot ≠ .attr id i name) :
    Keyed.find? slot (s.setInstances id instances keys).cells = Keyed.find? slot s.cells := by
  rw [setInstances]
  split
  · rfl
  · next d found =>
    dsimp only
    generalize instances.zipIdx = members
    have loop : ∀ t : State, Keyed.find? slot (members.foldl (addInstance id d) t).cells =
        Keyed.find? slot t.cells := by
      induction members with
      | nil => exact fun _ => rfl
      | cons member rest ih =>
        exact fun t => (ih _).trans (find?_addInstance_of_ne fun name => ne _ name)
    exact loop _

/-- The attributes that a resource gets with its instances. -/
theorem find?_attr_setInstances (found : Keyed.find? id s.declared = some d) (i : Nat)
    (name : String) : Keyed.find? (.attr id i name) (s.setInstances id instances keys).cells =
      (({ d with instances := some instances, keys := keys } : Declared).attrCell? i name).or
        (Keyed.find? (.attr id i name) s.cells) := by
  have loop : ∀ (members : List Instance) (k : Nat) (t : State),
      Keyed.find? (.attr id i name) ((members.zipIdx k).foldl (addInstance id d) t).cells =
        ((if k ≤ i then members[i - k]? else none).bind fun member =>
          (Keyed.find? name d.attributes.reverse).map fun source =>
            (⟨d.record.module, source, member, none⟩ : Cell)).or
          (Keyed.find? (.attr id i name) t.cells) := by
    intro members
    induction members with
    | nil => simp
    | cons m rest ih =>
      intro k t
      rw [List.zipIdx_cons, List.foldl_cons, ih]
      rcases Nat.lt_trichotomy k i with lt | rfl | gt
      · -- The instance is one of the rest.
        rw [find?_addInstance_of_ne (by simp; omega), if_pos (Nat.succ_le_of_lt lt),
          if_pos (Nat.le_of_lt lt),
          show i - k = i - (k + 1) + 1 by omega, List.getElem?_cons_succ]
      · rw [find?_addInstance (m, k), if_neg (by omega), if_pos (Nat.le_refl k)]
        simp
      · rw [find?_addInstance_of_ne (by simp; omega), if_neg (by omega), if_neg (by omega)]
  rw [setInstances, found]
  dsimp only
  exact loop instances 0 _

/-! ### Stages -/

/-- The attribute slots are those of known instances, and instances are unknown as long as the slot
    of their number is pending. -/
structure Staged (s : State) : Prop where
  sorted : Keyed.IsSorted s.cells
  attrs : ∀ id i name, (Keyed.find? (.attr id i name) s.cells).map Cell.blank =
    (Keyed.find? id s.declared).bind fun d => d.attrCell? i name
  extent : ∀ id d, Keyed.find? id s.declared = some d →
    (d.instances = none ↔ s.IsPending (.extent id))
  declared : ∀ id, (Keyed.find? (.extent id) s.cells).isSome → (Keyed.find? id s.declared).isSome

/-- What giving a value to a pending slot makes of a stage. -/
structure Moves (s : State) (slot : Slot) (t : State) : Prop where
  staged : t.Staged
  grows : s.Grows t
  /-- All other slots keep what they have, and new ones have no value. -/
  values : ∀ other, other ≠ slot → t.value? other = s.value? other
  /-- What is pending was so before, or is an attribute of an instance that got known. -/
  pending : ∀ other, t.IsPending other →
    other ≠ slot ∧ s.IsPending other ∨ ∃ id i name, slot = .extent id ∧ other = .attr id i name

theorem mem_pending (sorted : Keyed.IsSorted s.cells) : slot ∈ s.pending ↔ s.IsPending slot := by
  rw [State.pending, List.mem_filterMap]
  constructor
  · rintro ⟨⟨other, c⟩, inside, same⟩
    cases hc : c.value with
    | some v => simp [hc] at same
    | none =>
      simp only [hc, Option.isNone_none, if_true, Option.some.injEq] at same
      exact ⟨c, Keyed.find?_of_mem sorted.nodup (same ▸ inside), hc⟩
  · rintro ⟨c, found, none⟩
    exact ⟨(slot, c), Keyed.mem_of_find? found, by simp [none]⟩

theorem nodup_pending (sorted : Keyed.IsSorted s.cells) : s.pending.Nodup := by
  refine (Keyed.filterMap_sublist fun x k h => ?_).nodup sorted.nodup
  dsimp only at h
  split at h
  · exact (Option.some.inj h).symm
  · exact absurd h (by simp)

theorem isPending_iff : s.IsPending slot ↔
    (Keyed.find? slot s.cells).isSome ∧ s.value? slot = none := by
  rw [IsPending, value?]
  cases Keyed.find? slot s.cells <;> simp

theorem Grows.isSome (h : s.Grows t) (there : (Keyed.find? slot s.cells).isSome) :
    (Keyed.find? slot t.cells).isSome := by
  obtain ⟨c, found⟩ := Option.isSome_iff_exists.1 there
  obtain ⟨c', found', -⟩ := h.cell slot c found
  exact Option.isSome_of_eq_some found'

/-- Recorded values stay. -/
theorem Grows.value? (h : s.Grows t) (known : s.value? slot = some v) : t.value? slot = some v := by
  obtain ⟨c, found, value⟩ := Option.bind_eq_some_iff.1 known
  obtain ⟨c', found', grows⟩ := h.cell slot c found
  rw [State.value?, found']
  exact grows.value.some value

theorem IsPending.moves (waits : s.IsPending other) (h : Moves s slot t) (ne : other ≠ slot) :
    t.IsPending other := by
  obtain ⟨there, none⟩ := isPending_iff.1 waits
  exact isPending_iff.2 ⟨h.grows.isSome there, (h.values other ne).trans none⟩

theorem Moves.not_pending (h : Moves s slot t) : ¬t.IsPending slot := by
  intro waits
  rcases h.pending slot waits with ⟨ne, -⟩ | ⟨id, i, name, same, same'⟩
  · exact ne rfl
  · exact absurd (same.symm.trans same') (by simp)

/-- The attributes of unknown instances are no slots. -/
theorem Staged.fresh (h : s.Staged) (found : Keyed.find? id s.declared = some d)
    (unknown : d.instances = none) (i : Nat) (name : String) :
    Keyed.find? (.attr id i name) s.cells = none := by
  have none := h.attrs id i name
  rw [found, Option.bind_some, Declared.attrCell?, unknown, Option.bind_none] at none
  exact Option.map_eq_none_iff.1 none

/-! ### Reports -/

theorem Staged.of_same (h : s.Staged) (cells : t.cells = s.cells)
    (declared : t.declared = s.declared) : t.Staged where
  sorted := cells ▸ h.sorted
  attrs := by
    rw [cells, declared]
    exact h.attrs
  extent := by
    simp only [IsPending, cells, declared]
    exact h.extent
  declared := by
    rw [cells, declared]
    exact h.declared

theorem Staged.report (h : s.Staged) (kind : Diagnostic.Kind) (node : Option NodeId)
    (message : String) : (s.report kind node message).Staged := h.of_same rfl rfl

theorem grows_report (s : State) (kind : Diagnostic.Kind) (node : Option NodeId)
    (message : String) : s.Grows (s.report kind node message) := .of_same rfl rfl rfl rfl

/-- A finding before a move does not matter. -/
theorem Moves.of_report {kind : Diagnostic.Kind} {node : Option NodeId} {message : String}
    (h : Moves (s.report kind node message) slot t) : Moves s slot t where
  staged := h.staged
  grows := (grows_report s kind node message).trans h.grows
  values := h.values
  pending := h.pending

/-! ### Values -/

theorem value?_setValue (there : (Keyed.find? slot s.cells).isSome) :
    (s.setValue slot v).value? slot = some v := by
  obtain ⟨c, found⟩ := Option.isSome_iff_exists.1 there
  rw [value?, find?_setValue, if_pos rfl, found]
  rfl

theorem isPending_setValue : (s.setValue slot v).IsPending other ↔
    slot ≠ other ∧ s.IsPending other := by
  rw [IsPending, find?_setValue]
  by_cases same : slot = other
  · subst same
    simp
  · simp [same, IsPending]

theorem Staged.setValue (h : s.Staged) (plain : slot.isExtent = false) :
    (s.setValue slot v).Staged where
  sorted := by
    dsimp only [State.setValue]
    exact h.sorted.modify
  attrs id i name := by
    rw [find?_setValue]
    refine Eq.trans ?_ (h.attrs id i name)
    split
    · rw [Option.map_map]
      rfl
    · rfl
  extent id d found := by
    rw [isPending_setValue]
    have ne : slot ≠ .extent id := by
      rintro rfl
      exact absurd plain (by simp [Slot.isExtent])
    exact (h.extent id d found).trans (by simp [ne])
  declared id there := by
    refine h.declared id ?_
    rw [find?_setValue] at there
    split at there
    · simpa using there
    · exact there

theorem grows_setValue (sorted : Keyed.IsSorted s.cells) (waits : s.IsPending slot) (v : Value) :
    s.Grows (s.setValue slot v) where
  modules := rfl
  data := rfl
  cell other c found := by
    rw [find?_setValue]
    split
    · next same =>
      obtain ⟨c', found', none⟩ := waits
      cases (same ▸ found').symm.trans found
      exact ⟨{ c with value := some v }, by rw [found]; rfl, rfl, rfl, rfl, .inl none⟩
    · exact ⟨c, found, rfl, rfl, rfl, .refl _⟩
  fresh other missing := by
    rw [find?_setValue, missing]
    exact .inl (by split <;> rfl)
  undeclared _ missing := missing
  declared _ d found := ⟨d, found, rfl, rfl, rfl, .inr rfl⟩
  outputs path := by
    refine Fills.filterMap_map fun e inside => ?_
    obtain ⟨other, c⟩ := e
    dsimp only
    by_cases same : other = slot
    · -- The slot that gets the value had none.
      obtain ⟨c', found, none⟩ := waits
      have own := Keyed.find?_of_mem sorted.nodup inside
      cases (same ▸ own).symm.trans found
      rw [if_pos same]
      cases other with
      | output module name =>
        dsimp only
        split
        · exact .some ⟨rfl, .inl none⟩
        · exact .none
      | _ => exact .none
    · rw [if_neg same]
      cases other with
      | output module name =>
        dsimp only
        split
        · exact .some ⟨rfl, .refl _⟩
        · exact .none
      | _ => exact .none

/-- A value for a slot that is no number of instances. -/
theorem Staged.moves_setValue (h : s.Staged) (waits : s.IsPending slot)
    (plain : slot.isExtent = false) (v : Value) : Moves s slot (s.setValue slot v) where
  staged := h.setValue plain
  grows := grows_setValue h.sorted waits v
  values other ne := by rw [value?, find?_setValue, if_neg ne.symm, value?]
  pending other later := by
    obtain ⟨ne, before⟩ := isPending_setValue.1 later
    exact .inl ⟨ne.symm, before⟩

/-! ### Instances -/

theorem sorted_setInstances (sorted : Keyed.IsSorted s.cells) :
    Keyed.IsSorted (s.setInstances id instances keys).cells := by
  rw [setInstances]
  split
  · exact sorted
  · exact Invariant.foldl (I := fun s => Keyed.IsSorted s.cells) sorted fun _ _ _ sorted =>
      Invariant.foldl (I := fun s => Keyed.IsSorted s.cells) sorted fun _ _ _ sorted =>
        sorted.insert

theorem modules_setInstances : (s.setInstances id instances keys).modules = s.modules := by
  rw [setInstances]
  split
  · rfl
  · exact Invariant.foldl (I := fun t => t.modules = s.modules) rfl fun _ _ _ same =>
      Invariant.foldl (I := fun t => t.modules = s.modules) same fun _ _ _ same => same

theorem data_setInstances : (s.setInstances id instances keys).data = s.data := by
  rw [setInstances]
  split
  · rfl
  · exact Invariant.foldl (I := fun t => t.data = s.data) rfl fun _ _ _ same =>
      Invariant.foldl (I := fun t => t.data = s.data) same fun _ _ _ same => same

/-- Attributes are no outputs. -/
theorem outputsOf_setInstances (path : String) :
    (s.setInstances id instances keys).outputsOf path = s.outputsOf path := by
  rw [setInstances]
  split
  · rfl
  · refine Invariant.foldl (I := fun t => t.outputsOf path = s.outputsOf path) rfl
      fun _ _ _ same => ?_
    refine Invariant.foldl (I := fun t => t.outputsOf path = s.outputsOf path) same
      fun t _ _ same => Eq.trans ?_ same
    exact Keyed.filterMap_insert fun _ => rfl

section Instances

variable (h : s.Staged) (found : Keyed.find? id s.declared = some d) (unknown : d.instances = none)
include h found unknown

theorem Staged.find?_setInstances {c : Cell} (there : Keyed.find? slot s.cells = some c) :
    Keyed.find? slot (s.setInstances id instances keys).cells = some c := by
  rw [find?_setInstances_of_ne fun i name same => ?_]
  · exact there
  · exact absurd ((same ▸ there).symm.trans (h.fresh found unknown i name)) (by simp)

theorem Staged.grows_setInstances : s.Grows (s.setInstances id instances keys) where
  modules := modules_setInstances
  data := data_setInstances
  cell slot c there := ⟨c, h.find?_setInstances found unknown there, rfl, rfl, rfl, .refl _⟩
  fresh slot missing := by
    by_cases attr : ∃ i name, slot = .attr id i name
    · obtain ⟨i, name, same⟩ := attr
      exact .inr ⟨id, i, name, d, same, found, unknown⟩
    · rw [find?_setInstances_of_ne fun i name same => attr ⟨i, name, same⟩]
      exact .inl missing
  undeclared r missing := by
    rw [declared_setInstances, found]
    dsimp only
    rw [Keyed.find?_insert, if_neg]
    · exact missing
    · rintro rfl
      exact absurd (found.symm.trans missing) (by simp)
  declared r e there := by
    rw [declared_setInstances, found]
    dsimp only
    rw [Keyed.find?_insert]
    split
    · next same =>
      subst same
      cases found.symm.trans there
      exact ⟨_, rfl, rfl, rfl, rfl, .inl unknown⟩
    · exact ⟨e, there, rfl, rfl, rfl, .inr rfl⟩
  outputs path := by
    rw [outputsOf_setInstances]
    exact List.forall₂_same.2 fun e _ => ⟨rfl, .refl _⟩

/-- Instances for a resource whose number of instances is still pending. -/
theorem Staged.moves_setInstances (v : Value) :
    Moves s (.extent id) ((s.setInstances id instances keys).setValue (.extent id) v) where
  staged := {
    sorted := by
      dsimp only [State.setValue]
      exact (sorted_setInstances h.sorted).modify
    attrs r i name := by
      rw [find?_setValue, if_neg (by simp)]
      change _ = (Keyed.find? r (s.setInstances id instances keys).declared).bind _
      rw [declared_setInstances, found]
      dsimp only
      rw [Keyed.find?_insert]
      -- The resource had no attributes as slots, and others keep theirs.
      by_cases own : id = r
      · subst own
        rw [find?_attr_setInstances found, h.fresh found unknown, Option.or_none, if_pos rfl,
          Declared.blank_attrCell?]
        rfl
      · rw [find?_setInstances_of_ne (by simp [Ne.symm own]), if_neg own]
        exact h.attrs r i name
    extent r e there := by
      change Keyed.find? r (s.setInstances id instances keys).declared = some e at there
      rw [isPending_setValue, IsPending, find?_setInstances_of_ne (by simp)]
      rw [declared_setInstances, found] at there
      dsimp only at there
      rw [Keyed.find?_insert] at there
      split at there
      · -- Its instances are known, and its number has got a value.
        next same =>
        cases there
        simp [same]
      · next other =>
        refine (h.extent r e there).trans ?_
        simp [IsPending, other]
    declared r there := by
      have before : (Keyed.find? (.extent r) s.cells).isSome := by
        rw [find?_setValue, find?_setInstances_of_ne (by simp)] at there
        split at there
        · simpa using there
        · exact there
      change (Keyed.find? r (s.setInstances id instances keys).declared).isSome
      rw [declared_setInstances, found]
      dsimp only
      rw [Keyed.find?_insert]
      split
      · rfl
      · exact h.declared r before }
  grows := by
    obtain ⟨c, there, none⟩ := (h.extent id d found).1 unknown
    refine (h.grows_setInstances found unknown).trans (grows_setValue (sorted_setInstances h.sorted)
      ⟨c, ?_, none⟩ v)
    exact h.find?_setInstances found unknown there
  values other ne := by
    rw [value?, value?, find?_setValue, if_neg ne.symm]
    by_cases attr : ∃ i name, other = .attr id i name
    · -- The new attributes have no value yet.
      obtain ⟨i, name, rfl⟩ := attr
      rw [find?_attr_setInstances found, h.fresh found unknown, Option.or_none]
      exact Declared.value_attrCell? _ i name
    · rw [find?_setInstances_of_ne fun i name same => attr ⟨i, name, same⟩]
  pending other later := by
    obtain ⟨ne, c, there, none⟩ := isPending_setValue.1 later
    by_cases attr : ∃ i name, other = .attr id i name
    · obtain ⟨i, name, same⟩ := attr
      exact .inr ⟨id, i, name, rfl, same⟩
    · rw [find?_setInstances_of_ne fun i name same => attr ⟨i, name, same⟩] at there
      exact .inl ⟨ne.symm, c, there, none⟩

end Instances

/-! ### Steps -/

/-- The resource whose number of instances is pending. -/
theorem Staged.unknown (h : s.Staged) (waits : s.IsPending (.extent id)) :
    ∃ d, Keyed.find? id s.declared = some d ∧ d.instances = none := by
  obtain ⟨c, there, none⟩ := waits
  obtain ⟨d, found⟩ := Option.isSome_iff_exists.1 (h.declared id (by rw [there]; rfl))
  exact ⟨d, found, (h.extent id d found).2 ⟨c, there, none⟩⟩

theorem Staged.assumeSingle (h : s.Staged) (waits : s.IsPending (.extent id)) (message : String) :
    Moves s (.extent id) (s.assumeSingle id message) := by
  obtain ⟨d, found, unknown⟩ := h.unknown waits
  rw [State.assumeSingle, found]
  exact .of_report ((h.report _ _ _).moves_setInstances found unknown _)

/-- Giving up on a slot moves the state on. -/
theorem Staged.fail (h : s.Staged) (waits : s.IsPending slot) (message : String) :
    Moves s slot (s.fail slot message) := by
  cases slot with
  | extent id => exact h.assumeSingle waits message
  | _ => exact .of_report ((h.report _ _ _).moves_setValue waits rfl _)

/-- A value for a slot moves the state on, also if it is no number of instances. -/
theorem Staged.settle (h : s.Staged) (waits : s.IsPending slot) (v : Value) :
    Moves s slot (s.settle slot v) := by
  cases slot with
  | extent id =>
    obtain ⟨d, found, unknown⟩ := h.unknown waits
    rw [State.settle.eq_def]
    dsimp only
    rw [found]
    dsimp only
    split
    · exact h.moves_setInstances found unknown v
    · exact h.assumeSingle waits _
  | _ => exact h.moves_setValue waits rfl v

/-- A visit gives the slot a value, unless its evaluation is pending: then it changes nothing. -/
theorem Staged.visit (h : s.Staged) (waits : s.IsPending slot) :
    Moves s slot (s.visit slot).1 ∧ (s.visit slot).2 = true ∨
      s.visit slot = (s, false) ∧ ∃ c, Keyed.find? slot s.cells = some c ∧
        s.evaluate c = .error .pending := by
  have there := waits
  obtain ⟨c, found, -⟩ := there
  rw [State.visit, found]
  dsimp only
  split
  · exact .inl ⟨h.settle waits _, rfl⟩
  · next waiting => exact .inr ⟨rfl, c, rfl, waiting⟩
  · exact .inl ⟨h.fail waits _, rfl⟩

end State

end Cartograph.Resolution

import Cartograph.Proofs.Record
import Cartograph.Proofs.Resolution.Canonical

/-!
# Plans that are read

Every value that is read of a document is canonical (`Value.canonical_of_ofDocument?`), so every
plan that is read is (`Plan.canonical_of_ofJson?`).
-/

namespace Cartograph

/-! ### Values -/

namespace Value

theorem ofInt_canonical (i : Int) : (ofInt i).Canonical := by
  unfold ofInt
  split
  · next word => exact .int word
  · exact .float

mutual

theorem canonical_of_ofSettled? : ∀ {d : Document} {v : Value},
    ofSettled? d = some v → v.Canonical
  | .null, v, h | .bool _, v, h | .float _, v, h | .text _, v, h => by
    rw [ofSettled?] at h
    cases h
    constructor
  | .int i, v, h => by
    rw [ofSettled?] at h
    cases h
    exact ofInt_canonical i
  | .plain _, v, h => by
    rw [ofSettled?] at h
    exact absurd h (by simp)
  | .list items, v, h => by
    rw [ofSettled?] at h
    obtain ⟨vs, read, rfl⟩ := Option.map_eq_some_iff.1 h
    exact .list (canonical_of_ofSettledList? read)
  | .fields entries, v, h => by
    by_cases single : ∃ k s, entries = [(k, .text s)]
    · obtain ⟨k, s, rfl⟩ := single
      rw [ofSettled?] at h
      obtain ⟨name, -, rfl⟩ := Option.map_eq_some_iff.1 h
      split
      · exact .unresolved
      · exact .map (by simp [Keyed.IsSorted]) (by simp [Canonical.text])
    · rw [ofSettled?] at h
      · obtain ⟨es, read, rfl⟩ := Option.map_eq_some_iff.1 h
        refine .map (Keyed.isSorted_sorted es) fun e he => ?_
        exact canonical_of_ofSettledEntries? read e (Keyed.mem_sorted he)
      · exact fun k s same => single ⟨k, s, same⟩

theorem canonical_of_ofSettledList? : ∀ {ds : List Document} {vs : List Value},
    ofSettledList? ds = some vs → ∀ v ∈ vs, v.Canonical
  | [], vs, h => by
    rw [ofSettledList?] at h
    cases h
    exact List.forall_mem_nil _
  | d :: ds, vs, h => by
    rw [ofSettledList?] at h
    obtain ⟨v, hv, h⟩ := Option.bind_eq_some_iff.1 h
    obtain ⟨rest, hrest, h⟩ := Option.bind_eq_some_iff.1 h
    cases h
    exact List.forall_mem_cons.2
      ⟨canonical_of_ofSettled? hv, canonical_of_ofSettledList? hrest⟩

theorem canonical_of_ofSettledEntries? : ∀ {es : List (Document.Key × Document)}
    {as : Attributes}, ofSettledEntries? es = some as → ∀ e ∈ as, e.2.Canonical
  | [], as, h => by
    rw [ofSettledEntries?] at h
    cases h
    exact List.forall_mem_nil _
  | (k, d) :: es, as, h => by
    rw [ofSettledEntries?] at h
    obtain ⟨name, -, h⟩ := Option.bind_eq_some_iff.1 h
    obtain ⟨v, hv, h⟩ := Option.bind_eq_some_iff.1 h
    obtain ⟨rest, hrest, h⟩ := Option.bind_eq_some_iff.1 h
    cases h
    exact List.forall_mem_cons.2
      ⟨canonical_of_ofSettled? hv, canonical_of_ofSettledEntries? hrest⟩

end

theorem canonical_of_ofDocument? {d : Document} {v : Value} (h : ofDocument? d = some v) :
    v.Canonical := canonical_of_ofSettled? h

end Value

theorem NodeMeta.canonical_of_attributes? {d : Document} {as : Attributes}
    (h : attributes? d = some as) : (Value.map as).Canonical := by
  obtain ⟨es, read, rfl⟩ := Option.map_eq_some_iff.1 h
  refine .map (Keyed.isSorted_sorted es) fun e he => ?_
  obtain ⟨entries, -, read⟩ := Option.bind_eq_some_iff.1 read
  obtain ⟨a, -, ha⟩ := of_mem_mapM read e (Keyed.mem_sorted he)
  obtain ⟨v, hv, rfl⟩ := Option.map_eq_some_iff.1 ha
  exact Value.canonical_of_ofDocument? hv

theorem NodeMeta.canonical_of_field {r : Document.Record} {name : String} {as : Attributes}
    (h : r.withDefault? name attributes? [] = some as) : (Value.map as).Canonical :=
  Document.Record.holds_of_withDefault? (P := fun as => (Value.map as).Canonical) h .empty
    fun _ _ => canonical_of_attributes?

/-! ### Records -/

namespace Plan

theorem Resource.canonical_of_ofDocument? {d : Document} {r : Resource}
    (h : ofDocument? d = some r) : r.Canonical := by
  unfold ofDocument? at h
  obtain ⟨f, -, h⟩ := Option.bind_eq_some_iff.1 h
  obtain ⟨_, -, h⟩ := Option.bind_eq_some_iff.1 h
  obtain ⟨_, -, h⟩ := Option.bind_eq_some_iff.1 h
  obtain ⟨_, -, h⟩ := Option.bind_eq_some_iff.1 h
  obtain ⟨_, -, h⟩ := Option.bind_eq_some_iff.1 h
  obtain ⟨_, attributes, h⟩ := Option.bind_eq_some_iff.1 h
  obtain ⟨_, count, h⟩ := Option.bind_eq_some_iff.1 h
  obtain ⟨_, forEach, h⟩ := Option.bind_eq_some_iff.1 h
  obtain ⟨_, -, h⟩ := Option.bind_eq_some_iff.1 h
  cases h
  have value : ∀ d v, Value.ofDocument? d = some v → v.Canonical :=
    fun _ _ => Value.canonical_of_ofDocument?
  exact ⟨NodeMeta.canonical_of_field attributes, Document.Record.holds_of_optional? count value,
    Document.Record.holds_of_optional? forEach value⟩

theorem Input.canonical_of_ofDocument? {d : Document} {i : Input} (h : ofDocument? d = some i) :
    i.Canonical := by
  unfold ofDocument? at h
  obtain ⟨f, -, h⟩ := Option.bind_eq_some_iff.1 h
  obtain ⟨_, -, h⟩ := Option.bind_eq_some_iff.1 h
  obtain ⟨_, -, h⟩ := Option.bind_eq_some_iff.1 h
  obtain ⟨_, default, h⟩ := Option.bind_eq_some_iff.1 h
  obtain ⟨_, value, h⟩ := Option.bind_eq_some_iff.1 h
  cases h
  have each : ∀ d v, Value.ofDocument? d = some v → v.Canonical :=
    fun _ _ => Value.canonical_of_ofDocument?
  exact ⟨Document.Record.holds_of_optional? default each,
    Document.Record.holds_of_optional? value each⟩

theorem ModuleCall.canonical_of_ofDocument? {d : Document} {c : ModuleCall}
    (h : ofDocument? d = some c) : c.Canonical := by
  unfold ofDocument? at h
  obtain ⟨f, -, h⟩ := Option.bind_eq_some_iff.1 h
  obtain ⟨_, -, h⟩ := Option.bind_eq_some_iff.1 h
  obtain ⟨_, -, h⟩ := Option.bind_eq_some_iff.1 h
  obtain ⟨_, -, h⟩ := Option.bind_eq_some_iff.1 h
  obtain ⟨_, arguments, h⟩ := Option.bind_eq_some_iff.1 h
  obtain ⟨_, outputs, h⟩ := Option.bind_eq_some_iff.1 h
  cases h
  exact ⟨NodeMeta.canonical_of_field arguments, NodeMeta.canonical_of_field outputs⟩

/-- A plan that is read is canonical. -/
theorem canonical_of_ofDocument? {d : Document} {p : Plan} (h : ofDocument? d = some p) :
    p.Canonical := by
  unfold ofDocument? at h
  obtain ⟨f, -, h⟩ := Option.bind_eq_some_iff.1 h
  obtain ⟨_, resources, h⟩ := Option.bind_eq_some_iff.1 h
  obtain ⟨_, inputs, h⟩ := Option.bind_eq_some_iff.1 h
  obtain ⟨_, -, h⟩ := Option.bind_eq_some_iff.1 h
  obtain ⟨_, calls, h⟩ := Option.bind_eq_some_iff.1 h
  obtain ⟨_, -, h⟩ := Option.bind_eq_some_iff.1 h
  cases h
  refine ⟨?_, ?_, ?_⟩
  · exact Document.Record.members_of_field resources fun _ _ => Resource.canonical_of_ofDocument?
  · exact Document.Record.members_of_field inputs fun _ _ => Input.canonical_of_ofDocument?
  · exact Document.Record.members_of_field calls fun _ _ => ModuleCall.canonical_of_ofDocument?

theorem canonical_of_ofJson? {text : String} {p : Plan} (h : ofJson? text = some p) :
    p.Canonical := by
  obtain ⟨d, -, read⟩ := Option.bind_eq_some_iff.1 h
  exact canonical_of_ofDocument? read

end Plan

end Cartograph

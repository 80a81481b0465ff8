import Cartograph.Expansion
import Cartograph.Proofs.Keyed

/-!
# Pairing is total

However nodes at the other ends of edges are paired with the siblings of a split, each of them goes
with at least one sibling, and no other node with any (`pairs_pairAll`). So no edge is lost and none
is made up when a node is replaced by its siblings.
-/

namespace Cartograph.Expansion

variable {g : Graph} {s : Split} {n : Nat} {ends : List NodeId} {links : List Link}

/-- Links go between places below a number and nodes, and each of the nodes has one. -/
structure Pairs (n : Nat) (ends : List NodeId) (links : List Link) : Prop where
  sound : ∀ l ∈ links, l.1 < n ∧ l.2 ∈ ends
  total : ∀ o ∈ ends, ∃ i, (i, o) ∈ links

/-- A link for each node. -/
theorem Pairs.of_map {α : Type} {members : List α} (place : α → Nat) (node : α → NodeId)
    (same : members.map node = ends) (below : ∀ a ∈ members, place a < n) :
    Pairs n ends (members.map fun a => (place a, node a)) where
  sound l hl := by
    obtain ⟨a, ha, rfl⟩ := List.mem_map.1 hl
    exact ⟨below a ha, same ▸ List.mem_map_of_mem ha⟩
  total o ho := by
    obtain ⟨a, ha, rfl⟩ := List.mem_map.1 (same ▸ ho)
    exact ⟨place a, List.mem_map_of_mem (f := fun a => (place a, node a)) ha⟩

/-- The nodes of families have links if those of each family have. -/
theorem Pairs.flatMap {families : List (List NodeId)} {f : List NodeId → List Link}
    (each : ∀ family ∈ families, Pairs n family (f family))
    (parts : ∀ o, o ∈ ends ↔ ∃ family ∈ families, o ∈ family) :
    Pairs n ends (families.flatMap f) where
  sound l hl := by
    obtain ⟨family, inside, hl⟩ := List.mem_flatMap.1 hl
    obtain ⟨below, member⟩ := (each family inside).sound l hl
    exact ⟨below, (parts l.2).2 ⟨family, inside, member⟩⟩
  total o ho := by
    obtain ⟨family, inside, member⟩ := (parts o).1 ho
    obtain ⟨i, hi⟩ := (each family inside).total o member
    exact ⟨i, List.mem_flatMap.2 ⟨family, inside, hi⟩⟩

/-! ### Kinds of pairing -/

/-- If the nodes with numbers are as many as all, they are all. -/
theorem map_numbered {others : List NodeId}
    (all : (others.filterMap fun o => (NodeId.suffix? o).map fun n => (o, n)).length =
      others.length) :
    (others.filterMap fun o => (NodeId.suffix? o).map fun n => (o, n)).map Prod.fst = others := by
  induction others with
  | nil => rfl
  | cons o rest ih =>
    have fewer := List.length_filterMap_le (fun o => (NodeId.suffix? o).map fun n => (o, n)) rest
    cases number : NodeId.suffix? o with
    | none =>
      simp only [List.filterMap_cons, number, Option.map_none, List.length_cons] at all
      omega
    | some n =>
      simp only [List.filterMap_cons, number, Option.map_some, List.length_cons,
        Nat.add_right_cancel_iff] at all
      simp only [List.filterMap_cons, number, Option.map_some, List.map_cons, ih all]

theorem placeOf_lt {count : Nat} (positive : 0 < count) (number : Nat) :
    placeOf count number < count := Nat.mod_lt _ positive

theorem pairs_pairByNumber (positive : 0 < s.count) (others : List (NodeId × Nat)) :
    Pairs s.count (others.map (·.1)) (pairByNumber s others).1 :=
  .of_map (fun o : NodeId × Nat => placeOf s.count o.2) Prod.fst rfl
    fun _ _ => placeOf_lt positive _

theorem pairs_pairInTurn (positive : 0 < s.count) (others : List NodeId) :
    Pairs s.count others (pairInTurn s others).1 :=
  .of_map (fun o : NodeId × Nat => o.2 % s.count) Prod.fst (List.zipIdx_map_fst 0 others)
    fun _ _ => Nat.mod_lt _ positive

theorem pairs_pairRest (positive : 0 < s.count) (others : List NodeId) :
    Pairs s.count others (pairRest s others).1 := by
  unfold pairRest
  split
  · exact ⟨fun _ h => absurd h List.not_mem_nil, fun _ h => absurd h List.not_mem_nil⟩
  · next other =>
    refine ⟨fun l hl => ?_, fun o ho => ⟨0, ?_⟩⟩
    · obtain ⟨i, hi, rfl⟩ := List.mem_map.1 hl
      exact ⟨List.mem_range.1 hi, List.mem_cons_self⟩
    · cases List.mem_singleton.1 ho
      exact List.mem_map_of_mem (f := fun i => (i, other)) (List.mem_range.2 positive)
  · dsimp only
    split
    · next all =>
      have pairs := pairs_pairByNumber positive (others.filterMap fun o =>
        (NodeId.suffix? o).map fun n => (o, n))
      rwa [map_numbered all.1] at pairs
    · exact pairs_pairInTurn positive _

/-! ### Families -/

theorem lt_of_mem_namedSiblings {o : NodeId} {i : Nat} (bags : s.instances.length ≤ s.count)
    (h : i ∈ namedSiblings g s o) : i < s.count := by
  unfold namedSiblings at h
  dsimp only at h
  split at h
  · obtain ⟨⟨attributes, j⟩, inside, found⟩ := List.mem_filterMap.1 h
    dsimp only at found
    split at found
    · cases found
      have := (List.mem_zipIdx inside).2.1
      omega
    · exact absurd found (by simp)
  · split at h
    · exact absurd h List.not_mem_nil
    · exact List.mem_range.1 (List.mem_filter.1 h).1

theorem pairs_pair (positive : 0 < s.count) (bags : s.instances.length ≤ s.count)
    (family : List NodeId) : Pairs s.count family (pair g s family).1 := by
  have rest := pairs_pairRest positive (family.filter fun o => namedSiblings g s o = [])
  refine ⟨fun l hl => ?_, fun o ho => ?_⟩
  · rcases List.mem_append.1 hl with hl | hl
    · obtain ⟨o, ho, hl⟩ := List.mem_flatMap.1 hl
      obtain ⟨i, hi, rfl⟩ := List.mem_map.1 hl
      exact ⟨lt_of_mem_namedSiblings bags hi, ho⟩
    · obtain ⟨below, member⟩ := rest.sound l hl
      exact ⟨below, (List.mem_filter.1 member).1⟩
  · by_cases none : namedSiblings g s o = []
    · obtain ⟨i, hi⟩ := rest.total o (List.mem_filter.2 ⟨ho, decide_eq_true none⟩)
      exact ⟨i, List.mem_append_right _ hi⟩
    · obtain ⟨i, hi⟩ := List.exists_mem_of_ne_nil _ none
      refine ⟨i, List.mem_append_left _ (List.mem_flatMap.2 ⟨o, ho, ?_⟩)⟩
      exact List.mem_map_of_mem (f := fun i => (i, o)) hi

theorem mem_families {o : NodeId} : o ∈ ends ↔ ∃ family ∈ families g ends, o ∈ family := by
  constructor
  · intro ho
    refine ⟨_, List.mem_map_of_mem (Keyed.mem_keySet.2 (List.mem_map_of_mem ho)), ?_⟩
    exact Keyed.mem_keySet.2 (List.mem_filter.2 ⟨ho, decide_eq_true rfl⟩)
  · rintro ⟨family, inside, member⟩
    obtain ⟨ty, -, rfl⟩ := List.mem_map.1 inside
    exact (List.mem_filter.1 (Keyed.mem_keySet.1 member)).1

/-- Each node at the other end of an edge is paired with a sibling, and only those are. -/
theorem pairs_pairAll (g : Graph) (positive : 0 < s.count) (bags : s.instances.length ≤ s.count)
    (ends : List NodeId) : Pairs s.count ends (pairAll g s ends).1 := by
  have partition : ∀ o, o ∈ ends ↔ ∃ family ∈ families g ends, o ∈ family := fun o => mem_families
  have pairs := Pairs.flatMap (f := fun family => (pair g s family).1)
    (fun family _ => pairs_pair (g := g) positive bags family) partition
  rw [pairAll]
  dsimp only
  rwa [List.flatMap_map]

end Cartograph.Expansion

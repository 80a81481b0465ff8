import Mathlib.Data.List.Nodup
import Cartograph.Proofs.Graph.Views

/-!
# Integrity

Every mutator keeps a graph well formed (`WellFormed`), whatever its arguments are, and keeps its
metadata sorted by node. The check for missing metadata and children finds nothing in a well-formed
graph (`WellFormed.check`).
-/

namespace Cartograph.Graph

variable {g : Graph} {n k a b c old new : NodeId} {m : NodeMeta} {cs : List NodeId}

/-! ### Nodes and metadata -/

theorem wellFormed_empty (provider : String) : (empty provider).WellFormed where
  nodup := List.nodup_nil
  sameNodes _ := rfl
  closed _ _ h := absurd h List.not_mem_nil
  noRepetition _ := List.nodup_nil
  noLoop _ := List.not_mem_nil

theorem WellFormed.contains_iff (h : g.WellFormed) : g.contains n ↔ (g.meta? n).isSome := by
  rw [h.sameNodes]

theorem WellFormed.exists_meta (h : g.WellFormed) (there : g.contains n) :
    ∃ m, g.meta? n = some m := Option.isSome_iff_exists.1 (h.contains_iff.1 there)

/-- A graph with the same nodes and the same children is as well formed, if its metadata are of
    the same nodes too. -/
theorem WellFormed.of_same {g' : Graph} (h : g.WellFormed) (nodes : g'.nodes = g.nodes)
    (children : ∀ n, g'.children n = g.children n)
    (same : ∀ n, (g'.meta? n).isSome = (g.meta? n).isSome) : g'.WellFormed := by
  have contains : ∀ n, g'.contains n = g.contains n := by
    intro n
    rw [Bool.eq_iff_iff, ← mem_nodes, ← mem_nodes, nodes]
  refine ⟨nodes ▸ h.nodup, fun n => ?_, fun n c hc => ?_, fun n => ?_, fun n => ?_⟩
  · rw [contains, same, h.sameNodes]
  · rw [children] at hc
    rw [contains]
    exact h.closed n c hc
  · rw [children]
    exact h.noRepetition n
  · rw [children]
    exact h.noLoop n

/-- A graph with one more node and the same children. -/
theorem WellFormed.of_grown {g' : Graph} (h : g.WellFormed) (nodup : g'.nodes.Nodup)
    (contains : ∀ k, g'.contains k ↔ n = k ∨ g.contains k)
    (children : ∀ k, g'.children k = g.children k)
    (same : ∀ k, (g'.meta? k).isSome ↔ n = k ∨ (g.meta? k).isSome) : g'.WellFormed := by
  refine ⟨nodup, fun k => ?_, fun k c hc => ?_, fun k => ?_, fun k => ?_⟩
  · rw [Bool.eq_iff_iff, contains, same, h.contains_iff]
  · rw [children] at hc
    exact (contains c).2 (.inr (h.closed k c hc))
  · rw [children]
    exact h.noRepetition k
  · rw [children]
    exact h.noLoop k

theorem wellFormed_insertNode (h : g.WellFormed) : (g.insertNode n m).WellFormed := by
  refine h.of_grown (nodup_insertNode h.nodup) (fun _ => contains_insertNode)
    (fun _ => children_insertNode) fun k => ?_
  rw [meta?_insertNode]
  by_cases e : n = k <;> simp [e]

theorem wellFormed_ensureNode (h : g.WellFormed) : (g.ensureNode n).1.WellFormed := by
  refine h.of_grown (nodup_ensureNode h.nodup) (fun _ => contains_ensureNode)
    (fun _ => children_ensureNode) fun k => ?_
  rw [meta?_ensureNode, Option.isSome_or]
  by_cases e : n = k <;> simp [e]

theorem wellFormed_modifyMeta {f : NodeMeta → NodeMeta} (h : g.WellFormed) :
    (g.modifyMeta n f).WellFormed := by
  refine h.of_same nodes_modifyMeta (fun _ => children_modifyMeta) fun k => ?_
  rw [meta?_modifyMeta (h.sameNodes n)]
  split <;> simp

theorem wellFormed_removeNode (h : g.WellFormed) : (g.removeNode n).1.WellFormed := by
  refine ⟨?_, fun k => ?_, fun k c hc => ?_, fun k => ?_, fun k hk => ?_⟩
  · rw [nodes_removeNode]
    exact h.nodup.filter _
  · rw [Bool.eq_iff_iff, contains_removeNode, meta?_removeNode, h.contains_iff]
    by_cases e : k = n <;> simp [e]
  · obtain ⟨-, ne, inside⟩ := mem_children_removeNode.1 hc
    exact contains_removeNode.2 ⟨ne, h.closed k c inside⟩
  · rw [children_removeNode]
    split
    · exact List.nodup_nil
    · exact (h.noRepetition k).filter _
  · exact h.noLoop k (mem_children_removeNode.1 hk).2.2

/-! ### Edges -/

/-- Children that are there, each once and not the node itself. -/
theorem wellFormed_setChildren (h : g.WellFormed) (there : g.contains n)
    (closed : ∀ c ∈ cs, g.contains c) (nodup : cs.Nodup) (noLoop : n ∉ cs) :
    (g.setChildren n cs).WellFormed := by
  refine ⟨nodes_setChildren (g := g) ▸ h.nodup, fun k => ?_, fun k c hc => ?_, fun k => ?_,
    fun k => ?_⟩
  · rw [Bool.eq_iff_iff, contains_setChildren, h.contains_iff]
    rfl
  · rw [children_setChildren there] at hc
    rw [contains_setChildren]
    split at hc
    · exact closed c hc
    · exact h.closed k c hc
  · rw [children_setChildren there]
    split
    · exact nodup
    · exact h.noRepetition k
  · rw [children_setChildren there]
    split
    · next e => exact e ▸ noLoop
    · exact h.noLoop k

theorem wellFormed_addEdge (h : g.WellFormed) : (g.addEdge a b).1.WellFormed := by
  by_cases ne : a = b
  · subst ne
    rwa [addEdge_self]
  have ends : ((g.ensureNode a).1.ensureNode b).1.WellFormed :=
    wellFormed_ensureNode (wellFormed_ensureNode h)
  rw [addEdge_of_ne ne]
  dsimp only
  split
  · exact ends
  · next gone =>
    have absent : b ∉ g.children a := fun inside => gone (hasEdge_iff.2 inside)
    refine wellFormed_setChildren ends ?_ (fun c hc => ?_) ?_ ?_
    · rw [contains_ensureNode, contains_ensureNode]
      exact .inr (.inl rfl)
    · rw [contains_ensureNode, contains_ensureNode]
      rcases List.mem_append.1 hc with hc | hc
      · exact .inr (.inr (h.closed a c hc))
      · exact .inl (List.mem_singleton.1 hc).symm
    · refine List.nodup_append.2 ⟨h.noRepetition a, by simp, ?_⟩
      intro i hi j hj e
      exact absent (List.mem_singleton.1 hj ▸ e ▸ hi)
    · intro inside
      rcases List.mem_append.1 inside with inside | inside
      · exact h.noLoop a inside
      · exact ne (List.mem_singleton.1 inside)

theorem wellFormed_removeEdge (h : g.WellFormed) : (g.removeEdge a b).1.WellFormed := by
  refine ⟨nodes_removeEdge (g := g) ▸ h.nodup, fun k => ?_, fun k c hc => ?_, fun k => ?_,
    fun k hk => ?_⟩
  · rw [Bool.eq_iff_iff, contains_removeEdge, meta?_removeEdge, h.contains_iff]
    split <;> simp
  · exact contains_removeEdge.2 (h.closed k c (mem_children_removeEdge.1 hc).1)
  · rw [children_removeEdge]
    split
    · exact (h.noRepetition k).filter _
    · exact h.noRepetition k
  · exact h.noLoop k (mem_children_removeEdge.1 hk).1

theorem mem_of_mem_replace (h : c ∈ cs.replace old new) : c = new ∨ c ∈ cs := by
  induction cs with
  | nil => exact absurd h List.not_mem_nil
  | cons x rest ih =>
    rw [List.replace_cons] at h
    split at h
    · rcases List.mem_cons.1 h with rfl | h
      · exact .inl rfl
      · exact .inr (List.mem_cons_of_mem _ h)
    · rcases List.mem_cons.1 h with rfl | h
      · exact .inr List.mem_cons_self
      · exact (ih h).imp_right (List.mem_cons_of_mem _)

theorem mem_replaceIn (h : c ∈ replaceIn old new cs) : c = new ∨ c ∈ cs := by
  unfold replaceIn at h
  split at h
  · exact .inr (List.mem_of_mem_erase h)
  · exact mem_of_mem_replace h

/-- A child that is there makes room for another one. -/
theorem mem_replaceIn_iff (nodup : cs.Nodup) (there : old ∈ cs) (ne : new ≠ old) :
    c ∈ replaceIn old new cs ↔ c = new ∨ (c ∈ cs ∧ c ≠ old) := by
  unfold replaceIn
  split
  · next inside =>
    rw [List.contains_iff_mem] at inside
    rw [nodup.mem_erase_iff, and_comm]
    exact ⟨.inr, fun h => h.elim (fun e => e ▸ ⟨inside, ne⟩) id⟩
  · next gone =>
    clear gone
    induction cs with
    | nil => exact absurd there List.not_mem_nil
    | cons x rest ih =>
      obtain ⟨fresh, nodup⟩ := List.nodup_cons.1 nodup
      rw [List.replace_cons]
      split
      · next same =>
        rw [beq_iff_eq] at same
        subst same
        rw [List.mem_cons, List.mem_cons]
        refine or_congr_right ⟨fun h => ⟨.inr h, fun e => fresh (e ▸ h)⟩, fun h => ?_⟩
        exact h.1.resolve_left h.2
      · next other =>
        have differ : old ≠ x := ne_of_beq_false other
        rw [List.mem_cons, List.mem_cons,
          ih nodup ((List.mem_cons.1 there).resolve_left differ), or_left_comm, or_and_right]
        exact or_congr_right (or_congr_left (iff_self_and.2 fun e e' => differ (e' ▸ e)))

theorem nodup_replaceIn (nodup : cs.Nodup) : (replaceIn old new cs).Nodup := by
  unfold replaceIn
  split
  · exact nodup.erase old
  · next gone =>
    have absent : new ∉ cs := fun inside => gone (List.contains_iff_mem.2 inside)
    clear gone
    induction cs with
    | nil => exact List.nodup_nil
    | cons x rest ih =>
      obtain ⟨fresh, nodup⟩ := List.nodup_cons.1 nodup
      rw [List.mem_cons, not_or] at absent
      rw [List.replace_cons]
      split
      · exact List.nodup_cons.2 ⟨absent.2, nodup⟩
      · refine List.nodup_cons.2 ⟨fun inside => ?_, ih nodup absent.2⟩
        rcases mem_of_mem_replace inside with e | inside
        · exact absent.1 e.symm
        · exact fresh inside

theorem wellFormed_replaceChild (h : g.WellFormed) : (g.replaceChild a old new).1.WellFormed := by
  by_cases ne : a = new
  · subst ne
    rw [replaceChild_self]
    exact wellFormed_removeEdge h
  have grown : (g.ensureNode new).1.WellFormed := wellFormed_ensureNode h
  rw [replaceChild_of_ne ne]
  dsimp only
  split
  · next there =>
    refine wellFormed_setChildren grown ?_ (fun c hc => ?_) (nodup_replaceIn (h.noRepetition a)) ?_
    · exact contains_ensureNode.2 (.inr (contains_of_mem_children (hasEdge_iff.1 there)))
    · rcases mem_replaceIn hc with rfl | hc
      · exact contains_ensureNode.2 (.inl rfl)
      · exact contains_ensureNode.2 (.inr (h.closed a c hc))
    · intro inside
      rcases mem_replaceIn inside with e | inside
      · exact ne e
      · exact h.noLoop a inside
  · exact grown

/-! ### Renaming -/

/-- A new name that is not taken keeps different nodes different. -/
theorem renamed_inj {i j : NodeId} (hi : i ≠ new) (hj : j ≠ new)
    (e : renamed old new i = renamed old new j) : i = j := by
  unfold renamed at e
  split at e <;> split at e
  · next ei ej => rw [ei, ej]
  · exact absurd e.symm hj
  · exact absurd e hi
  · exact e

theorem nodup_map_renamed (nodup : cs.Nodup) (free : new ∉ cs) :
    (cs.map (renamed old new)).Nodup := by
  refine List.pairwise_map.2 (List.Pairwise.imp_of_mem ?_ nodup)
  intro i j hi hj ne e
  have freed : ∀ {c}, c ∈ cs → c ≠ new := fun inside e => free (e ▸ inside)
  exact ne (renamed_inj (freed hi) (freed hj) e)

theorem wellFormed_renameNode (h : g.WellFormed) : (g.renameNode old new).1.WellFormed := by
  by_cases no : ¬g.Renameable old new
  · rwa [renameNode_of_not_renameable no]
  have can := Classical.not_not.1 no
  have free : ∀ k, new ∉ g.children k := fun k inside => can.2.2 (h.closed k new inside)
  have loop : ∀ k, k ≠ new → renamed old new k ∉ (g.children k).map (renamed old new) := by
    intro k ne inside
    obtain ⟨c, hc, e⟩ := List.mem_map.1 inside
    have fresh : c ≠ new := fun e => free k (e ▸ hc)
    have same := renamed_inj fresh ne e
    exact h.noLoop k (same ▸ hc)
  have moved : ∀ {k c}, c ∈ (g.children k).map (renamed old new) →
      c = new ∨ (c ≠ old ∧ g.contains c) := by
    intro k c hc
    obtain ⟨d, hd, rfl⟩ := List.mem_map.1 hc
    unfold renamed
    split
    · exact .inl rfl
    · next ne => exact .inr ⟨ne, h.closed k d hd⟩
  refine ⟨?_, fun k => ?_, fun k c hc => ?_, fun k => ?_, fun k hk => ?_⟩
  · rw [nodes_renameNode can]
    exact nodup_map_renamed h.nodup fun inside => can.2.2 (mem_nodes.1 inside)
  · rw [Bool.eq_iff_iff, contains_renameNode can, meta?_renameNode can h.sameNodes]
    have there := h.contains_iff.1 can.2.1
    by_cases e : k = new
    · simpa [e] using there
    · by_cases e' : k = old
      · simp [e', can.1]
      · simp [e, e', h.sameNodes]
  · rw [contains_renameNode can]
    rw [children_renameNode can] at hc
    split at hc
    · exact moved hc
    · split at hc
      · exact absurd hc List.not_mem_nil
      · exact moved hc
  · rw [children_renameNode can]
    split
    · exact nodup_map_renamed (h.noRepetition old) (free old)
    · split
      · exact List.nodup_nil
      · exact nodup_map_renamed (h.noRepetition k) (free k)
  · rw [children_renameNode can] at hk
    split at hk
    · next e =>
      refine loop old can.1 ?_
      rw [e] at hk
      simpa [renamed] using hk
    · next ne =>
      split at hk
      · exact List.not_mem_nil hk
      · next ne' =>
        refine loop k ne ?_
        simpa [renamed, ne'] using hk

/-! ### Metadata stay sorted -/

section Sorted

variable {f : NodeMeta → NodeMeta} (sorted : Keyed.IsSorted g.metadata)

include sorted

theorem sorted_insertNode : Keyed.IsSorted (g.insertNode n m).metadata := sorted.insert

theorem sorted_ensureNode : Keyed.IsSorted (g.ensureNode n).1.metadata := by
  unfold ensureNode
  dsimp only
  split
  · exact sorted
  · exact sorted.insert

theorem sorted_modifyMeta : Keyed.IsSorted (g.modifyMeta n f).metadata := by
  unfold modifyMeta
  split
  · exact sorted.insert
  · split
    · exact sorted.insert
    · exact sorted

theorem sorted_removeNode : Keyed.IsSorted (g.removeNode n).1.metadata :=
  (Keyed.isSorted_map_value fun _ => dropLabel n).2 sorted.erase

theorem sorted_renameNode : Keyed.IsSorted (g.renameNode old new).1.metadata := by
  by_cases can : g.Renameable old new
  · obtain ⟨metadata, shape, rfl⟩ := renameNode_of_renameable can
    rw [shape]
    refine (Keyed.isSorted_map_value fun _ => moveLabel old new).2 ?_
    split
    · exact sorted.erase.insert
    · exact sorted
  · rwa [renameNode_of_not_renameable can]

theorem sorted_addEdge : Keyed.IsSorted (g.addEdge a b).1.metadata := by
  by_cases ne : a = b
  · subst ne
    rwa [addEdge_self]
  · have ends := sorted_ensureNode (n := b) (sorted_ensureNode (n := a) sorted)
    rw [addEdge_of_ne ne]
    dsimp only
    split
    · exact ends
    · exact ends

theorem sorted_removeEdge : Keyed.IsSorted (g.removeEdge a b).1.metadata := by
  unfold removeEdge
  split
  · exact sorted.modify
  · exact sorted

theorem sorted_replaceChild : Keyed.IsSorted (g.replaceChild a old new).1.metadata := by
  by_cases ne : a = new
  · subst ne
    rw [replaceChild_self]
    exact sorted_removeEdge sorted
  · have grown := sorted_ensureNode (n := new) sorted
    rw [replaceChild_of_ne ne]
    dsimp only
    split
    · exact grown
    · exact grown

end Sorted

/-! ### Parents -/

theorem WellFormed.nodup_parents (h : g.WellFormed) (n : NodeId) : (g.parents n).Nodup := by
  refine (Keyed.filterMap_sublist fun x q hq => ?_).nodup h.nodup
  dsimp only at hq
  split at hq
  · exact (Option.some.inj hq).symm
  · exact absurd hq (by simp)

/-- The beginnings of the edges to a node stand as often as these edges. -/
theorem count_sourcesOf : (g.sourcesOf n).count a = g.edges.count (a, n) := by
  rw [sourcesOf, List.count_filterMap, List.count]
  refine List.countP_congr fun edge _ => ?_
  by_cases same : edge.2 = n <;> simp [Prod.ext_iff, same]

/-- No edge stands twice if no node and no child of a node does. -/
theorem nodup_edges (nodup : g.nodes.Nodup) (single : ∀ n, (g.children n).Nodup) :
    g.edges.Nodup := by
  rw [edges, List.nodup_flatMap]
  refine ⟨fun x hx => ?_, ?_⟩
  · obtain ⟨source, targets⟩ := x
    obtain ⟨-, rfl⟩ := (mem_adjacency_iff nodup).1 hx
    exact (single source).map fun _ _ e => congrArg Prod.snd e
  · refine (List.pairwise_map.1 nodup).imp fun ne => ?_
    simp only [Function.onFun, List.disjoint_left, List.mem_map]
    rintro _ ⟨c, -, rfl⟩ ⟨d, -, same⟩
    exact ne (congrArg Prod.fst same).symm

theorem nodup_sourcesOf (nodup : g.nodes.Nodup) (single : ∀ n, (g.children n).Nodup)
    (n : NodeId) : (g.sourcesOf n).Nodup :=
  List.nodup_iff_count_le_one.2 fun _ =>
    count_sourcesOf ▸ List.nodup_iff_count_le_one.1 (nodup_edges nodup single) _

/-! ### The check -/

/-- Nothing is missing: nodes and metadata are of the same identifiers, and every child is a node.
    Unlike in a well-formed graph a child may stand twice, or be its own parent. -/
structure Complete (g : Graph) : Prop where
  sameNodes : ∀ n, g.contains n ↔ (g.meta? n).isSome
  closed : ∀ x ∈ g.adjacency, ∀ c ∈ x.2, g.contains c

theorem faultAt?_eq_none_iff {phase : String} :
    g.faultAt? phase n cs = none ↔ (g.meta? n).isSome ∧ ∀ c ∈ cs, g.contains c := by
  unfold faultAt?
  split
  · next none => simp [Option.isNone_iff_eq_none.1 none]
  · next some => simp [danglingChild?, Option.isSome_iff_ne_none.2 (by simpa using some)]

/-- The check finds nothing exactly if nothing is missing. -/
theorem checkIntegrity_ok_iff {phase : String} :
    g.checkIntegrity phase = .ok () ↔ g.Complete := by
  have found : g.checkIntegrity phase = .ok () ↔
      (∀ x ∈ g.adjacency, g.faultAt? phase x.1 x.2 = none) ∧
        ∀ x ∈ g.metadata, g.contains x.1 := by
    have none_iff : (g.adjacency.findSome? fun x => g.faultAt? phase x.1 x.2) = none ↔
        ∀ x ∈ g.adjacency, g.faultAt? phase x.1 x.2 = none := List.findSome?_eq_none_iff
    rw [← none_iff]
    unfold checkIntegrity fault?
    cases g.adjacency.findSome? fun x => g.faultAt? phase x.1 x.2 with
    | some e => simp
    | none =>
      cases listed : g.metadata.find? fun x => !g.contains x.1 with
      | some x =>
        simp only [Option.map_some, reduceCtorEq, true_and, false_iff]
        exact fun all => absurd (all x (List.mem_of_find?_eq_some listed))
          (by simpa using List.find?_some listed)
      | none => simpa using List.find?_eq_none.1 listed
  rw [found]
  constructor
  · rintro ⟨nodes, metadata⟩
    have atNode := fun x hx => faultAt?_eq_none_iff.1 (nodes x hx)
    refine ⟨fun n => ⟨fun there => ?_, fun there => ?_⟩, fun x hx => (atNode x hx).2⟩
    · obtain ⟨x, inside, rfl⟩ := List.mem_map.1 (mem_nodes.2 there)
      exact (atNode x inside).1
    · obtain ⟨x, inside, rfl⟩ := List.mem_map.1 (Keyed.find?_isSome_iff.1 there)
      exact metadata x inside
  · intro complete
    refine ⟨fun x hx => faultAt?_eq_none_iff.2 ⟨?_, complete.closed x hx⟩, fun x hx => ?_⟩
    · exact (complete.sameNodes x.1).1 (mem_nodes.1 (List.mem_map_of_mem hx))
    · exact (complete.sameNodes x.1).2 (Keyed.find?_isSome_iff.2 (List.mem_map_of_mem hx))

theorem WellFormed.complete (h : g.WellFormed) : g.Complete where
  sameNodes _ := h.contains_iff
  closed x hx := by
    obtain ⟨-, same⟩ := (mem_adjacency_iff h.nodup).1 (show (x.1, x.2) ∈ g.adjacency from hx)
    exact same ▸ h.closed x.1

/-- Nothing is missing in a well-formed graph. -/
theorem WellFormed.check (h : g.WellFormed) (phase : String) : g.checkIntegrity phase = .ok () :=
  checkIntegrity_ok_iff.2 h.complete

end Cartograph.Graph

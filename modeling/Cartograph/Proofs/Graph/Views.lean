import Cartograph.Graph
import Cartograph.Proofs.Keyed

/-!
# What a changed graph looks like

A graph is seen through three functions: which nodes it has (`contains`), their children
(`children`) and their metadata (`meta?`). For each mutator, three lemmas say what these show
afterwards. Parents, edges and ancestors are views of the children as long as no node stands twice
(`mem_parents`).
-/

namespace Cartograph.Graph

variable {g : Graph} {n k a b c old new : NodeId} {m : NodeMeta} {cs : List NodeId}

/-! ### Views of the adjacency -/

theorem mem_nodes : n ∈ g.nodes ↔ g.contains n := Keyed.contains_iff.symm

theorem children_of_not_contains (h : ¬g.contains n) : g.children n = [] := by
  have none : Keyed.find? n g.adjacency = none := by
    simpa [contains, Keyed.contains] using h
  rw [children, none]
  rfl

theorem contains_of_mem_children (h : c ∈ g.children n) : g.contains n := by
  refine Decidable.byContradiction fun gone => ?_
  rw [children_of_not_contains gone] at h
  exact List.not_mem_nil h

theorem find?_adjacency_of_contains (h : g.contains n) :
    Keyed.find? n g.adjacency = some (g.children n) := by
  obtain ⟨cs, hc⟩ := Option.isSome_iff_exists.1 h
  rw [children, hc]
  rfl

/-- In a graph in which no node stands twice, a node of the adjacency stands with its children. -/
theorem mem_adjacency_iff (nodup : g.nodes.Nodup) :
    (n, cs) ∈ g.adjacency ↔ g.contains n ∧ cs = g.children n := by
  constructor
  · intro h
    have found := Keyed.find?_of_mem nodup h
    rw [contains, Keyed.contains, children, found]
    exact ⟨rfl, rfl⟩
  · rintro ⟨h, rfl⟩
    exact Keyed.mem_of_find? (find?_adjacency_of_contains h)

theorem hasEdge_iff : g.hasEdge a b ↔ b ∈ g.children a := List.contains_iff_mem

theorem mem_parents (nodup : g.nodes.Nodup) : a ∈ g.parents b ↔ b ∈ g.children a := by
  rw [parents, List.mem_filterMap]
  constructor
  · rintro ⟨⟨n, cs⟩, inside, h⟩
    obtain ⟨-, rfl⟩ := (mem_adjacency_iff nodup).1 inside
    simp only [Option.ite_none_right_eq_some, List.contains_iff_mem, Option.some.injEq] at h
    exact h.2 ▸ h.1
  · intro h
    refine ⟨(a, g.children a), (mem_adjacency_iff nodup).2 ⟨contains_of_mem_children h, rfl⟩, ?_⟩
    simp [h]

theorem mem_edges (nodup : g.nodes.Nodup) : (a, b) ∈ g.edges ↔ b ∈ g.children a := by
  rw [edges, List.mem_flatMap]
  constructor
  · rintro ⟨⟨n, cs⟩, inside, h⟩
    obtain ⟨-, rfl⟩ := (mem_adjacency_iff nodup).1 inside
    obtain ⟨t, ht, e⟩ := List.mem_map.1 h
    cases e
    exact ht
  · intro h
    exact ⟨(a, g.children a), (mem_adjacency_iff nodup).2 ⟨contains_of_mem_children h, rfl⟩,
      List.mem_map_of_mem h⟩

theorem mem_sourcesOf_edges : a ∈ g.sourcesOf b ↔ (a, b) ∈ g.edges := by
  rw [sourcesOf, List.mem_filterMap]
  constructor
  · rintro ⟨⟨s, t⟩, inside, h⟩
    simp only [Option.ite_none_right_eq_some, Option.some.injEq] at h
    obtain ⟨rfl, rfl⟩ := h
    exact inside
  · intro h
    exact ⟨(a, b), h, by simp⟩

theorem mem_sourcesOf (nodup : g.nodes.Nodup) : a ∈ g.sourcesOf b ↔ b ∈ g.children a :=
  mem_sourcesOf_edges.trans (mem_edges nodup)

theorem mem_sortedNodes : n ∈ g.sortedNodes ↔ g.contains n := by
  rw [sortedNodes, Keyed.mem_keySet, mem_nodes]

theorem mem_nodesMatching {p : Pattern} :
    n ∈ g.nodesMatching p ↔ g.contains n ∧ p.matchesNode n (g.meta? n) := by
  rw [nodesMatching, List.mem_filter, mem_sortedNodes]

theorem sorted_nodesMatching (g : Graph) (p : Pattern) :
    (g.nodesMatching p).Pairwise (· < ·) := (Keyed.pairwise_keySet g.nodes).filter _

theorem nodup_nodesMatching (g : Graph) (p : Pattern) : (g.nodesMatching p).Nodup :=
  (Keyed.nodup_keySet g.nodes).filter _

/-- All that a pattern looks at in metadata is the type. -/
theorem matchesNode_congr {p : Pattern} {found found' : Option NodeMeta}
    (same : NodeMeta.typeOf n found = NodeMeta.typeOf n found') :
    p.matchesNode n found = p.matchesNode n found' := by
  rw [Pattern.matchesNode, Pattern.matchesNode, same]

theorem mem_nodesMatching_congr {h : Graph} {p : Pattern} (there : h.contains n ↔ g.contains n)
    (same : h.typeOf n = g.typeOf n) : n ∈ h.nodesMatching p ↔ n ∈ g.nodesMatching p := by
  rw [mem_nodesMatching, mem_nodesMatching, there, matchesNode_congr same]

/-! ### Adding a node to the adjacency -/

/-- The adjacency with a node at its end, unless it is there. -/
theorem find?_grown (adjacency : List (NodeId × List NodeId)) :
    Keyed.find? k (if Keyed.contains n adjacency then adjacency else adjacency ++ [(n, [])]) =
      (Keyed.find? k adjacency).or (if n = k then some [] else none) := by
  split
  · next there =>
    by_cases e : n = k
    · subst e
      obtain ⟨cs, hc⟩ := Option.isSome_iff_exists.1 there
      rw [hc]
      rfl
    · rw [if_neg e, Option.or_none]
  · rw [Keyed.find?_append]
    rfl

theorem contains_grown (adjacency : List (NodeId × List NodeId)) :
    Keyed.contains k (if Keyed.contains n adjacency then adjacency else adjacency ++ [(n, [])]) ↔
      n = k ∨ Keyed.contains k adjacency := by
  rw [Keyed.contains, find?_grown, Option.isSome_or]
  by_cases e : n = k <;> simp [e, Keyed.contains]

theorem children_grown (adjacency : List (NodeId × List NodeId)) :
    (Keyed.find? k
        (if Keyed.contains n adjacency then adjacency else adjacency ++ [(n, [])])).getD [] =
      (Keyed.find? k adjacency).getD [] := by
  rw [find?_grown]
  cases Keyed.find? k adjacency with
  | some cs => rfl
  | none => by_cases e : n = k <;> simp [e]

theorem contains_insertNode : (g.insertNode n m).contains k ↔ n = k ∨ g.contains k :=
  contains_grown g.adjacency

theorem children_insertNode : (g.insertNode n m).children k = g.children k :=
  children_grown g.adjacency

theorem meta?_insertNode :
    (g.insertNode n m).meta? k = if n = k then some m else g.meta? k :=
  Keyed.find?_insert n k m g.metadata

theorem contains_ensureNode : (g.ensureNode n).1.contains k ↔ n = k ∨ g.contains k :=
  contains_grown g.adjacency

theorem children_ensureNode : (g.ensureNode n).1.children k = g.children k :=
  children_grown g.adjacency

theorem meta?_ensureNode : (g.ensureNode n).1.meta? k =
    (g.meta? k).or (if n = k then some (NodeMeta.forId n) else none) := by
  unfold ensureNode meta?
  dsimp only
  split
  · next there =>
    by_cases e : n = k
    · subst e
      obtain ⟨m, hm⟩ := Option.isSome_iff_exists.1 there
      rw [hm]
      rfl
    · rw [if_neg e, Option.or_none]
  · next gone =>
    rw [Keyed.find?_insert]
    by_cases e : n = k
    · subst e
      rw [if_pos rfl, if_pos rfl, Option.not_isSome_iff_eq_none.1 gone]
      rfl
    · rw [if_neg e, if_neg e, Option.or_none]

theorem nodes_grown (nodup : g.nodes.Nodup) :
    ((if g.contains n then g.adjacency else g.adjacency ++ [(n, [])]).map (·.1)).Nodup := by
  split
  · exact nodup
  · next gone =>
    rw [List.map_append, List.nodup_append]
    refine ⟨nodup, by simp, ?_⟩
    intro i hi j hj e
    have last : j = n := by simpa using hj
    exact gone (mem_nodes.1 (e.trans last ▸ hi))

/-- A new node stands behind all others. -/
theorem nodes_insertNode : (g.insertNode n m).nodes =
    if g.contains n then g.nodes else g.nodes ++ [n] := by
  unfold insertNode nodes
  dsimp only
  split
  · rfl
  · exact List.map_append

theorem nodes_ensureNode_of_contains (there : g.contains n) :
    (g.ensureNode n).1.nodes = g.nodes := by
  unfold ensureNode nodes
  rw [if_pos there]

theorem nodup_insertNode (nodup : g.nodes.Nodup) : (g.insertNode n m).nodes.Nodup :=
  nodes_grown nodup

theorem nodup_ensureNode (nodup : g.nodes.Nodup) : (g.ensureNode n).1.nodes.Nodup :=
  nodes_grown nodup

/-! ### Changing metadata -/

theorem contains_modifyMeta {f : NodeMeta → NodeMeta} :
    (g.modifyMeta n f).contains k ↔ g.contains k := by
  unfold modifyMeta
  split
  · rfl
  · split <;> rfl

theorem children_modifyMeta {f : NodeMeta → NodeMeta} :
    (g.modifyMeta n f).children k = g.children k := by
  unfold modifyMeta
  split
  · rfl
  · split <;> rfl

theorem nodes_modifyMeta {f : NodeMeta → NodeMeta} : (g.modifyMeta n f).nodes = g.nodes := by
  unfold modifyMeta
  split
  · rfl
  · split <;> rfl

/-- For a graph whose nodes have metadata. -/
theorem meta?_modifyMeta {f : NodeMeta → NodeMeta} (same : g.contains n = (g.meta? n).isSome) :
    (g.modifyMeta n f).meta? k = if n = k then (g.meta? k).map f else g.meta? k := by
  unfold modifyMeta
  cases found : g.meta? n with
  | some m =>
    show Keyed.find? k (Keyed.insert n (f m) g.metadata) = _
    rw [Keyed.find?_insert]
    by_cases e : n = k
    · subst e
      rw [if_pos rfl, if_pos rfl, found]
      rfl
    · rw [if_neg e, if_neg e]
      rfl
  | none =>
    rw [found] at same
    dsimp only
    rw [if_neg (by simp [same])]
    by_cases e : n = k
    · subst e
      rw [if_pos rfl, found]
      rfl
    · rw [if_neg e]

/-! ### Edges -/

theorem contains_setChildren : (g.setChildren n cs).contains k ↔ g.contains k := by
  rw [contains, contains, Keyed.contains_iff, Keyed.contains_iff, setChildren, Keyed.keys_modify]

theorem children_setChildren (there : g.contains n) :
    (g.setChildren n cs).children k = if n = k then cs else g.children k := by
  rw [children, setChildren, Keyed.find?_modify]
  by_cases e : n = k
  · subst e
    rw [if_pos rfl, if_pos rfl, find?_adjacency_of_contains there]
    rfl
  · rw [if_neg e, if_neg e]
    rfl

theorem nodes_setChildren : (g.setChildren n cs).nodes = g.nodes :=
  Keyed.keys_modify fun _ => cs

theorem addEdge_self : g.addEdge a a = (g, false) := if_pos rfl

/-- An edge between two nodes, once both are there. -/
theorem addEdge_of_ne (ne : a ≠ b) :
    (g.addEdge a b).1 =
      let g' := ((g.ensureNode a).1.ensureNode b).1
      if g.hasEdge a b then g' else g'.setChildren a (g.children a ++ [b]) := by
  have kept : ((g.ensureNode a).1.ensureNode b).1.children a = g.children a := by
    rw [children_ensureNode, children_ensureNode]
  rw [addEdge, if_neg ne]
  dsimp only
  rw [hasEdge, hasEdge, kept]
  split <;> rfl

theorem contains_addEdge (ne : a ≠ b) :
    (g.addEdge a b).1.contains k ↔ a = k ∨ b = k ∨ g.contains k := by
  rw [addEdge_of_ne ne]
  dsimp only
  split
  · rw [contains_ensureNode, contains_ensureNode, or_left_comm]
  · rw [contains_setChildren, contains_ensureNode, contains_ensureNode, or_left_comm]

theorem contains_addEdge_of_contains (there : g.contains k) : (g.addEdge a b).1.contains k := by
  by_cases ne : a = b
  · subst ne
    rwa [addEdge_self]
  · exact (contains_addEdge ne).2 (.inr (.inr there))

theorem children_addEdge (ne : a ≠ b) :
    (g.addEdge a b).1.children k =
      if a = k ∧ b ∉ g.children a then g.children k ++ [b] else g.children k := by
  rw [addEdge_of_ne ne]
  dsimp only
  split
  · next there =>
    rw [children_ensureNode, children_ensureNode, if_neg]
    exact fun h => h.2 (hasEdge_iff.1 there)
  · next gone =>
    have inside : ((g.ensureNode a).1.ensureNode b).1.contains a := by
      rw [contains_ensureNode, contains_ensureNode]
      exact .inr (.inl rfl)
    rw [children_setChildren inside, children_ensureNode, children_ensureNode]
    have absent : b ∉ g.children a := fun h => gone (hasEdge_iff.2 h)
    by_cases e : a = k
    · subst e
      rw [if_pos rfl, if_pos ⟨rfl, absent⟩]
    · rw [if_neg e, if_neg fun h => e h.1]

theorem mem_children_addEdge (ne : a ≠ b) :
    c ∈ (g.addEdge a b).1.children k ↔ c ∈ g.children k ∨ (a = k ∧ c = b) := by
  rw [children_addEdge ne]
  split
  · next h =>
    obtain ⟨rfl, -⟩ := h
    simp
  · next h =>
    constructor
    · exact .inl
    · rintro (inside | ⟨rfl, rfl⟩)
      · exact inside
      · exact Decidable.byContradiction fun absent => h ⟨rfl, absent⟩

theorem meta?_addEdge (ne : a ≠ b) : (g.addEdge a b).1.meta? k =
    ((g.meta? k).or (if a = k then some (NodeMeta.forId a) else none)).or
      (if b = k then some (NodeMeta.forId b) else none) := by
  rw [addEdge_of_ne ne, ← meta?_ensureNode, ← meta?_ensureNode]
  dsimp only
  split <;> rfl

theorem nodes_addEdge_of_contains (source : g.contains a) (target : g.contains b) :
    (g.addEdge a b).1.nodes = g.nodes := by
  by_cases ne : a = b
  · subst ne
    rw [addEdge_self]
  have target' : (g.ensureNode a).1.contains b := contains_ensureNode.2 (.inr target)
  have ends : ((g.ensureNode a).1.ensureNode b).1.nodes = g.nodes := by
    rw [nodes_ensureNode_of_contains target', nodes_ensureNode_of_contains source]
  rw [addEdge_of_ne ne]
  dsimp only
  split
  · exact ends
  · exact nodes_setChildren.trans ends

theorem provider_addEdge : (g.addEdge a b).1.provider = g.provider := by
  unfold addEdge
  split
  · rfl
  · dsimp only
    split <;> rfl

theorem contains_removeEdge : (g.removeEdge a b).1.contains k ↔ g.contains k := by
  unfold removeEdge
  split
  · exact contains_setChildren
  · rfl

theorem children_removeEdge : (g.removeEdge a b).1.children k =
    if a = k then (g.children k).filter (· ≠ b) else g.children k := by
  unfold removeEdge
  split
  · next there =>
    have inside := contains_of_mem_children (hasEdge_iff.1 there)
    refine (children_setChildren inside).trans ?_
    by_cases e : a = k
    · rw [if_pos e, if_pos e, e]
    · rw [if_neg e, if_neg e]
  · next gone =>
    by_cases e : a = k
    · subst e
      rw [if_pos rfl, List.filter_eq_self.2]
      intro c hc
      exact decide_eq_true fun e => gone (hasEdge_iff.2 (e ▸ hc))
    · rw [if_neg e]

theorem mem_children_removeEdge :
    c ∈ (g.removeEdge a b).1.children k ↔ c ∈ g.children k ∧ ¬(a = k ∧ c = b) := by
  rw [children_removeEdge]
  by_cases e : a = k <;> simp [e]

theorem meta?_removeEdge : (g.removeEdge a b).1.meta? k =
    if a = k ∧ b ∈ g.children a then (g.meta? k).map (dropLabel b) else g.meta? k := by
  unfold removeEdge
  split
  · next there =>
    refine (Keyed.find?_modify _).trans ?_
    by_cases e : a = k
    · rw [if_pos e, if_pos ⟨e, hasEdge_iff.1 there⟩]
      rfl
    · rw [if_neg e, if_neg fun h => e h.1]
      rfl
  · next gone => rw [if_neg fun h => gone (hasEdge_iff.2 h.2)]

theorem nodes_removeEdge : (g.removeEdge a b).1.nodes = g.nodes := by
  unfold removeEdge
  split
  · exact nodes_setChildren
  · rfl

theorem replaceChild_self : g.replaceChild a b a = g.removeEdge a b := if_pos rfl

/-- A new child in the place of an old one, once it is there. -/
theorem replaceChild_of_ne (ne : a ≠ new) :
    (g.replaceChild a old new).1 =
      let g' := (g.ensureNode new).1
      if g.hasEdge a old then g'.setChildren a (replaceIn old new (g.children a)) else g' := by
  rw [replaceChild, if_neg ne]
  dsimp only
  rw [hasEdge, hasEdge, children_ensureNode]
  split <;> rfl

theorem contains_replaceChild (ne : a ≠ new) :
    (g.replaceChild a old new).1.contains k ↔ new = k ∨ g.contains k := by
  rw [replaceChild_of_ne ne]
  dsimp only
  split
  · rw [contains_setChildren, contains_ensureNode]
  · rw [contains_ensureNode]

theorem children_replaceChild (ne : a ≠ new) : (g.replaceChild a old new).1.children k =
    if a = k ∧ old ∈ g.children a then replaceIn old new (g.children k) else g.children k := by
  rw [replaceChild_of_ne ne]
  dsimp only
  split
  · next there =>
    have inside : (g.ensureNode new).1.contains a :=
      contains_ensureNode.2 (.inr (contains_of_mem_children (hasEdge_iff.1 there)))
    rw [children_setChildren inside, children_ensureNode]
    by_cases e : a = k
    · subst e
      rw [if_pos rfl, if_pos ⟨rfl, hasEdge_iff.1 there⟩]
    · rw [if_neg e, if_neg fun h => e h.1]
  · next gone => rw [children_ensureNode, if_neg fun h => gone (hasEdge_iff.2 h.2)]

theorem meta?_replaceChild (ne : a ≠ new) : (g.replaceChild a old new).1.meta? k =
    (g.meta? k).or (if new = k then some (NodeMeta.forId new) else none) := by
  rw [replaceChild_of_ne ne, ← meta?_ensureNode]
  dsimp only
  split <;> rfl

/-! ### Removing and renaming -/

theorem find?_adjacency_removeNode : Keyed.find? k (g.removeNode n).1.adjacency =
    if k = n then none else (Keyed.find? k g.adjacency).map (·.filter (· ≠ n)) := by
  refine (Keyed.find?_map_value fun _ (cs : List NodeId) => cs.filter (· ≠ n)).trans ?_
  rw [Keyed.find?_erase]
  by_cases e : n = k
  · rw [if_pos e, if_pos e.symm]
    rfl
  · rw [if_neg e, if_neg fun h => e h.symm]

theorem contains_removeNode : (g.removeNode n).1.contains k ↔ k ≠ n ∧ g.contains k := by
  rw [contains, contains, Keyed.contains, find?_adjacency_removeNode]
  by_cases e : k = n <;> simp [e, Keyed.contains]

theorem children_removeNode : (g.removeNode n).1.children k =
    if k = n then [] else (g.children k).filter (· ≠ n) := by
  rw [children, children, find?_adjacency_removeNode]
  by_cases e : k = n
  · rw [if_pos e, if_pos e]
    rfl
  · rw [if_neg e, if_neg e]
    cases Keyed.find? k g.adjacency <;> rfl

theorem mem_children_removeNode :
    c ∈ (g.removeNode n).1.children k ↔ k ≠ n ∧ c ≠ n ∧ c ∈ g.children k := by
  rw [children_removeNode]
  by_cases e : k = n
  · simp [e]
  · simp [e, and_comm]

theorem meta?_removeNode : (g.removeNode n).1.meta? k =
    if k = n then none else (g.meta? k).map (dropLabel n) := by
  refine (Keyed.find?_map_value fun _ => dropLabel n).trans ?_
  rw [Keyed.find?_erase]
  by_cases e : n = k
  · rw [if_pos e, if_pos e.symm]
    rfl
  · rw [if_neg e, if_neg fun h => e h.symm]
    rfl

theorem nodes_removeNode : (g.removeNode n).1.nodes = g.nodes.filter (· ≠ n) := by
  refine Eq.trans ?_ (Keyed.keys_erase)
  rw [nodes, removeNode, List.map_map]
  rfl

/-- What is found where a new name took the place of an old one. -/
theorem find?_renamed {α : Type} {xs : List (NodeId × α)} (f : α → α) (ne : old ≠ new)
    (free : new ∉ xs.map (·.1)) :
    Keyed.find? k (xs.map fun (n, x) => (renamed old new n, f x)) =
      if k = new then (Keyed.find? old xs).map f
      else if k = old then none
      else (Keyed.find? k xs).map f := by
  have other : ∀ {n}, n ∈ xs.map (·.1) → n ≠ new := fun inside e => free (e ▸ inside)
  split
  · next e =>
    subst e
    refine Keyed.find?_map_key f fun n inside => ?_
    by_cases h : n = old
    · simp [renamed, h]
    · simp [renamed, h, other inside]
  · next ne' =>
    split
    · next e =>
      subst e
      refine Keyed.find?_map_key_none f fun n _ => ?_
      by_cases h : n = k
      · simpa [renamed, h] using ne.symm
      · simp [renamed, h]
    · next ne'' =>
      refine Keyed.find?_map_key f fun n _ => ?_
      by_cases h : n = old
      · subst h
        have h' : ¬new = k := fun e => ne' e.symm
        have h'' : ¬n = k := fun e => ne'' e.symm
        simp [renamed, h', h'']
      · simp [renamed, h]

/-- When a node can be renamed. -/
def Renameable (g : Graph) (old new : NodeId) : Prop :=
  old ≠ new ∧ g.contains old ∧ ¬g.contains new

theorem renameNode_of_not_renameable (h : ¬g.Renameable old new) :
    g.renameNode old new = (g, false) := by
  refine if_pos ?_
  refine Decidable.byContradiction fun no => h ?_
  simp only [not_or, Bool.not_eq_true', Bool.not_eq_false] at no
  exact ⟨no.1, no.2.1, no.2.2⟩

theorem renameNode_of_renameable (h : g.Renameable old new) : ∃ metadata,
    g.renameNode old new = ({ g with
      adjacency := g.adjacency.map fun (n, cs) => (renamed old new n, cs.map (renamed old new))
      metadata := metadata.map fun (n, m) => (n, moveLabel old new m) }, true) ∧
    metadata = match g.meta? old with
      | some m => Keyed.insert new m (Keyed.erase old g.metadata)
      | none => g.metadata := by
  refine ⟨_, if_neg ?_, rfl⟩
  rintro (e | gone | taken)
  · exact h.1 e
  · simp [h.2.1] at gone
  · exact h.2.2 taken

theorem find?_adjacency_renameNode (h : g.Renameable old new) :
    Keyed.find? k (g.renameNode old new).1.adjacency =
      if k = new then (Keyed.find? old g.adjacency).map (·.map (renamed old new))
      else if k = old then none
      else (Keyed.find? k g.adjacency).map (·.map (renamed old new)) := by
  obtain ⟨_, shape, -⟩ := renameNode_of_renameable h
  rw [shape]
  exact find?_renamed _ h.1 fun inside => h.2.2 (Keyed.contains_iff.2 inside)

theorem contains_renameNode (h : g.Renameable old new) :
    (g.renameNode old new).1.contains k ↔ k = new ∨ (k ≠ old ∧ g.contains k) := by
  have there : (Keyed.find? old g.adjacency).isSome := h.2.1
  rw [contains, Keyed.contains, find?_adjacency_renameNode h]
  by_cases e : k = new
  · simpa [e] using there
  · by_cases e' : k = old
    · simp [e', h.1]
    · simp [e, e', contains, Keyed.contains]

theorem children_renameNode (h : g.Renameable old new) :
    (g.renameNode old new).1.children k =
      if k = new then (g.children old).map (renamed old new)
      else if k = old then []
      else (g.children k).map (renamed old new) := by
  rw [children, find?_adjacency_renameNode h]
  split
  · rw [find?_adjacency_of_contains h.2.1]
    rfl
  · split
    · rfl
    · rw [children]
      cases Keyed.find? k g.adjacency <;> rfl

/-- For a graph whose nodes have metadata. -/
theorem meta?_renameNode (h : g.Renameable old new)
    (same : ∀ n, g.contains n = (g.meta? n).isSome) :
    (g.renameNode old new).1.meta? k =
      if k = new then (g.meta? old).map (moveLabel old new)
      else if k = old then none
      else (g.meta? k).map (moveLabel old new) := by
  obtain ⟨metadata, shape, moved⟩ := renameNode_of_renameable h
  obtain ⟨m, hm⟩ := Option.isSome_iff_exists.1 (same old ▸ h.2.1)
  rw [hm] at moved ⊢
  rw [shape]
  refine (Keyed.find?_map_value fun _ => moveLabel old new).trans ?_
  rw [moved, Keyed.find?_insert, Keyed.find?_erase]
  by_cases e : k = new
  · rw [if_pos e.symm, if_pos e]
  · rw [if_neg fun h => e h.symm, if_neg e]
    by_cases e' : k = old
    · rw [if_pos e'.symm, if_pos e']
      rfl
    · rw [if_neg fun h => e' h.symm, if_neg e']
      rfl

theorem nodes_renameNode (h : g.Renameable old new) :
    (g.renameNode old new).1.nodes = g.nodes.map (renamed old new) := by
  obtain ⟨_, shape, -⟩ := renameNode_of_renameable h
  rw [shape, nodes, nodes, List.map_map, List.map_map]
  rfl

end Cartograph.Graph

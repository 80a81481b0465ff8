import Cartograph.Proofs.Expansion.Pairing
import Cartograph.Proofs.Graph.Ancestry
import Cartograph.Proofs.Graph.Integrity
import Cartograph.Proofs.NodeId

/-!
# What a split does

A split either is refused, and then nothing changes, or replaces a node by its siblings
(`split_cases`). What it replaces is said in full by `Replaces`: which nodes there are, what is
known of them, where the edges of the siblings come from, and that no edge of the node is lost.
Edges are added one after the other, and each changes nothing but the labels otherwise (`Linked`).
-/

namespace Cartograph

/-- Metadata but for the labels of edges. -/
def NodeMeta.unlabelled (m : NodeMeta) : NodeMeta := { m with edgeLabels := [] }

namespace Expansion

open Graph

variable {g g' g'' : Graph} {s : Split} {m : NodeMeta} {n a b : NodeId} {i : Nat}

/-! ### Adding edges -/

/-- A graph with further edges. -/
structure Linked (g g' : Graph) (more : NodeId → NodeId → Prop) : Prop where
  wellFormed : g'.WellFormed
  contains : ∀ n, g'.contains n ↔ g.contains n
  unlabelled : ∀ n, (g'.meta? n).map NodeMeta.unlabelled = (g.meta? n).map NodeMeta.unlabelled
  edge : ∀ a b, g'.Edge a b ↔ g.Edge a b ∨ more a b

theorem Linked.trans {more more' : NodeId → NodeId → Prop} (h : Linked g g' more)
    (h' : Linked g' g'' more') : Linked g g'' fun a b => more a b ∨ more' a b where
  wellFormed := h'.wellFormed
  contains n := (h'.contains n).trans (h.contains n)
  unlabelled n := (h'.unlabelled n).trans (h.unlabelled n)
  edge a b := by rw [h'.edge, h.edge, or_assoc]

theorem Linked.of_iff {more more' : NodeId → NodeId → Prop} (h : Linked g g' more)
    (same : ∀ a b, more a b ↔ more' a b) : Linked g g' more' :=
  ⟨h.wellFormed, h.contains, h.unlabelled,
    fun a b => (h.edge a b).trans (or_congr_right (same a b))⟩

theorem linked_setLabel (wf : g.WellFormed) (label : Option String) :
    Linked g (setLabel g a b label) fun _ _ => False := by
  unfold setLabel
  split
  · refine ⟨wellFormed_modifyMeta wf, fun _ => contains_modifyMeta, fun k => ?_, fun x y => ?_⟩
    · rw [meta?_modifyMeta (wf.sameNodes a)]
      split
      · rw [Option.map_map]
        rfl
      · rfl
    · rw [Edge, children_modifyMeta, or_false]
      rfl
  · exact ⟨wf, fun _ => .rfl, fun _ => rfl, fun _ _ => by rw [or_false]⟩

theorem linked_addEdge (wf : g.WellFormed) (ne : a ≠ b) (ha : g.contains a) (hb : g.contains b) :
    Linked g (g.addEdge a b).1 fun x y => x = a ∧ y = b where
  wellFormed := wellFormed_addEdge wf
  contains n := by
    rw [contains_addEdge ne]
    constructor
    · rintro (rfl | rfl | there)
      · exact ha
      · exact hb
      · exact there
    · exact fun there => .inr (.inr there)
  unlabelled n := by
    rw [meta?_addEdge ne]
    by_cases there : g.contains n
    · obtain ⟨m, hm⟩ := wf.exists_meta there
      rw [hm]
      rfl
    · have other : a ≠ n ∧ b ≠ n := ⟨fun e => there (e ▸ ha), fun e => there (e ▸ hb)⟩
      rw [if_neg other.1, if_neg other.2, Option.or_none, Option.or_none]
  edge x y := by
    rw [Edge, mem_children_addEdge ne, Edge, eq_comm]

theorem linked_link (wf : g.WellFormed) (ne : a ≠ b) (ha : g.contains a) (hb : g.contains b)
    (label : Graph → Option String) :
    Linked g (setLabel (g.addEdge a b).1 a b (label (g.addEdge a b).1)) fun x y =>
      x = a ∧ y = b := by
  have added := linked_addEdge wf ne ha hb
  exact (added.trans (linked_setLabel added.wellFormed _)).of_iff fun _ _ => by rw [or_false]

/-- Edges one after the other, between nodes that are there. -/
theorem linked_each {links : List Link} {step : Graph → Link → Graph}
    {ends : Link → NodeId × NodeId} (wf : g.WellFormed)
    (each : ∀ g' : Graph, ∀ l ∈ links, g'.WellFormed → (∀ n, g'.contains n ↔ g.contains n) →
      Linked g' (step g' l) fun x y => (x, y) = ends l) :
    Linked g (Arrangement.eachSilent step links g) fun x y => ∃ l ∈ links, (x, y) = ends l := by
  have loop : ∀ (rest : List Link) (g' : Graph), rest ⊆ links → g'.WellFormed →
      (∀ n, g'.contains n ↔ g.contains n) →
      Linked g' (rest.foldl step g') fun x y => ∃ l ∈ rest, (x, y) = ends l := by
    intro rest
    induction rest with
    | nil =>
      exact fun g' _ wf _ => ⟨wf, fun _ => .rfl, fun _ => rfl, fun _ _ => by simp⟩
    | cons l rest ih =>
      intro g' sub wf same
      have first := each g' l (sub List.mem_cons_self) wf same
      have others := ih _ (fun _ h => sub (List.mem_cons_of_mem _ h)) first.wellFormed
        fun n => (first.contains n).trans (same n)
      exact (first.trans others).of_iff fun x y => by simp
  exact loop links g (List.Subset.refl _) wf fun _ => .rfl

/-! ### Siblings -/

theorem Split.mem_siblings : n ∈ s.siblings ↔ ∃ i < s.count, s.sibling i = n := by
  simp [Split.siblings]

theorem Split.sibling_inj {j : Nat} (same : s.sibling i = s.sibling j) : i = j :=
  Nat.succ.inj (NodeId.withSuffix_inj same).2

/-- The node that a split makes a sibling of; other nodes stay what they are. -/
def Split.origin (s : Split) (n : NodeId) : NodeId := if n ∈ s.siblings then s.node else n

theorem Split.origin_sibling (below : i < s.count) : s.origin (s.sibling i) = s.node :=
  if_pos (Split.mem_siblings.2 ⟨i, below, rfl⟩)

/-- The graph with the siblings. -/
def withSiblings (s : Split) (m : NodeMeta) (g : Graph) : Graph :=
  Arrangement.eachSilent (fun g i => g.insertNode (s.sibling i) (siblingMeta s m i))
    (List.range s.count) g

section Siblings

variable {places : List Nat}

theorem contains_foldl_siblings : (places.foldl
    (fun g i => g.insertNode (s.sibling i) (siblingMeta s m i)) g).contains n ↔
      n ∈ places.map s.sibling ∨ g.contains n := by
  induction places generalizing g with
  | nil => simp
  | cons i rest ih =>
    rw [List.foldl_cons, ih, contains_insertNode, List.map_cons, List.mem_cons, eq_comm (a := n)]
    exact or_left_comm.trans or_assoc.symm

theorem children_foldl_siblings : (places.foldl
    (fun g i => g.insertNode (s.sibling i) (siblingMeta s m i)) g).children n = g.children n := by
  induction places generalizing g with
  | nil => rfl
  | cons i rest ih => rw [List.foldl_cons, ih, children_insertNode]

theorem meta?_foldl_others (other : n ∉ places.map s.sibling) : (places.foldl
    (fun g i => g.insertNode (s.sibling i) (siblingMeta s m i)) g).meta? n = g.meta? n := by
  induction places generalizing g with
  | nil => rfl
  | cons i rest ih =>
    rw [List.map_cons, List.mem_cons, not_or] at other
    rw [List.foldl_cons, ih other.2, meta?_insertNode, if_neg (Ne.symm other.1)]

theorem meta?_foldl_sibling (inside : i ∈ places) : (places.foldl
    (fun g i => g.insertNode (s.sibling i) (siblingMeta s m i)) g).meta? (s.sibling i) =
      some (siblingMeta s m i) := by
  induction places generalizing g with
  | nil => exact absurd inside List.not_mem_nil
  | cons j rest ih =>
    by_cases later : i ∈ rest
    · exact ih later
    · have same : i = j := (List.mem_cons.1 inside).resolve_right later
      rw [List.foldl_cons, meta?_foldl_others, meta?_insertNode, if_pos (by rw [same]), same]
      intro again
      obtain ⟨k, hk, e⟩ := List.mem_map.1 again
      exact later (Split.sibling_inj e ▸ hk)

end Siblings

theorem wellFormed_withSiblings (wf : g.WellFormed) : (withSiblings s m g).WellFormed := by
  unfold withSiblings Arrangement.eachSilent
  generalize List.range s.count = places
  induction places generalizing g with
  | nil => exact wf
  | cons i rest ih => exact ih (wellFormed_insertNode wf)

/-! ### Replacing a node -/

/-- What is asked of a split: that there are siblings, that each bag of attributes has one, and that
    its containers hold the node. -/
structure Sensible (g : Graph) (s : Split) : Prop where
  positive : 0 < s.count
  bags : s.instances.length ≤ s.count
  held : ∀ c ∈ s.containers, g.Edge c s.node

/-- A graph in which a node with some metadata is replaced by its siblings. -/
structure Replaces (s : Split) (m : NodeMeta) (g h : Graph) : Prop where
  fresh : ∀ n ∈ s.siblings, ¬g.contains n
  wellFormed : h.WellFormed
  contains : ∀ n, h.contains n ↔ n ∈ s.siblings ∨ n ≠ s.node ∧ g.contains n
  unlabelled : ∀ n, n ≠ s.node → n ∉ s.siblings →
    (h.meta? n).map NodeMeta.unlabelled = (g.meta? n).map NodeMeta.unlabelled
  sibling : ∀ i < s.count,
    (h.meta? (s.sibling i)).map NodeMeta.unlabelled = some (siblingMeta s m i)
  /-- Every edge comes from one of the node, or was there before. -/
  edge : ∀ a b, h.Edge a b → g.Edge (s.origin a) (s.origin b)
  /-- Every edge is still there, for at least one sibling if it is one of the node. -/
  kept : ∀ a b, g.Edge a b → ∃ a' b', s.origin a' = a ∧ s.origin b' = b ∧ h.Edge a' b'
  others : ∀ a b, a ≠ s.node → b ≠ s.node → g.contains a → g.contains b →
    (h.Edge a b ↔ g.Edge a b)
  /-- A container keeps just the sibling at its own place, if there is one for each. -/
  placed : s.containers.length ≤ s.count → ∀ c ∈ s.containers, ∀ i < s.count,
    h.Edge c (s.sibling i) → s.containers[i]? = some c

/-- The edges from siblings. -/
def outgoing (s : Split) (m : NodeMeta) (g : Graph) : List Link :=
  (pairAll (withSiblings s m g) s (g.children s.node)).1

/-- The graph with the edges from siblings. -/
def withChildren (s : Split) (m : NodeMeta) (g : Graph) : Graph :=
  Arrangement.eachSilent (linkChild s m) (outgoing s m g) (withSiblings s m g)

/-- The edges to siblings, those from containers first. -/
def incoming (s : Split) (m : NodeMeta) (g : Graph) : List Link :=
  s.containers.zipIdx.map (fun (c, i) => (i % s.count, c)) ++
    (pairAll (withChildren s m g) s ((g.parents s.node).filter (· ∉ s.containers))).1

/-- The graph with all edges of siblings. -/
def withParents (s : Split) (m : NodeMeta) (g : Graph) : Graph :=
  Arrangement.eachSilent (linkParent s) (incoming s m g) (withChildren s m g)

theorem replaceNode_eq : (replaceNode s m g).1 = ((withParents s m g).removeNode s.node).1 := rfl

theorem pairs_outgoing (sensible : Sensible g s) (m : NodeMeta) :
    Pairs s.count (g.children s.node) (outgoing s m g) :=
  pairs_pairAll _ sensible.positive sensible.bags _

section Replacing

variable (wf : g.WellFormed) (sensible : Sensible g s)
include wf sensible

theorem mem_incoming {l : Link} (h : l ∈ incoming s m g) : l.1 < s.count ∧ g.Edge l.2 s.node := by
  rcases List.mem_append.1 h with placed | paired
  · obtain ⟨⟨c, i⟩, inside, rfl⟩ := List.mem_map.1 placed
    have member : c ∈ s.containers := by
      obtain ⟨-, -, same⟩ := List.mem_zipIdx inside
      exact same ▸ List.getElem_mem _
    exact ⟨Nat.mod_lt _ sensible.positive, sensible.held c member⟩
  · obtain ⟨below, parent⟩ := (pairs_pairAll _ sensible.positive sensible.bags _).sound l paired
    exact ⟨below, (mem_parents wf.nodup).1 (List.mem_filter.1 parent).1⟩

theorem exists_incoming (m : NodeMeta) (h : g.Edge a s.node) : ∃ i, (i, a) ∈ incoming s m g := by
  by_cases container : a ∈ s.containers
  · obtain ⟨i, below, same⟩ := List.mem_iff_getElem.1 container
    refine ⟨i % s.count, List.mem_append_left _ (List.mem_map.2 ⟨(a, i), ?_, rfl⟩)⟩
    exact List.mk_mem_zipIdx_iff_getElem?.2 (List.getElem?_eq_some_iff.2 ⟨below, same⟩)
  · have parent : a ∈ (g.parents s.node).filter (· ∉ s.containers) :=
      List.mem_filter.2 ⟨(mem_parents wf.nodup).2 h, decide_eq_true container⟩
    obtain ⟨i, hi⟩ := (pairs_pairAll _ sensible.positive sensible.bags _).total a parent
    exact ⟨i, List.mem_append_right _ hi⟩

variable (fresh : ∀ n ∈ s.siblings, ¬g.contains n)
include fresh

omit wf sensible in
theorem sibling_ne (below : i < s.count) (there : g.contains n) : s.sibling i ≠ n := fun e =>
  fresh _ (Split.mem_siblings.2 ⟨i, below, rfl⟩) (e ▸ there)

/-- An edge from a sibling is between two nodes that are there. -/
theorem outgoing_ends {l : Link} (hl : l ∈ outgoing s m g) : s.sibling l.1 ≠ l.2 ∧
    (withSiblings s m g).contains (s.sibling l.1) ∧ (withSiblings s m g).contains l.2 := by
  obtain ⟨below, inside⟩ := (pairs_outgoing sensible m).sound l hl
  have held := wf.closed _ _ inside
  exact ⟨sibling_ne fresh below held,
    contains_foldl_siblings.2 (.inl (Split.mem_siblings.2 ⟨_, below, rfl⟩)),
    contains_foldl_siblings.2 (.inr held)⟩

/-- An edge to a sibling is between two nodes that are there. -/
theorem incoming_ends {l : Link} (hl : l ∈ incoming s m g) : l.2 ≠ s.sibling l.1 ∧
    (withSiblings s m g).contains l.2 ∧ (withSiblings s m g).contains (s.sibling l.1) := by
  obtain ⟨below, edge⟩ := mem_incoming wf sensible hl
  exact ⟨(sibling_ne fresh below edge.contains).symm,
    contains_foldl_siblings.2 (.inr edge.contains),
    contains_foldl_siblings.2 (.inl (Split.mem_siblings.2 ⟨_, below, rfl⟩))⟩

theorem linked_withChildren (m : NodeMeta) : Linked (withSiblings s m g) (withChildren s m g)
    fun x y => ∃ l ∈ outgoing s m g, (x, y) = (s.sibling l.1, l.2) := by
  refine linked_each (wellFormed_withSiblings wf) fun g' l hl wf' same => ?_
  obtain ⟨ne, source, target⟩ := outgoing_ends wf sensible fresh hl
  have linked := linked_link wf' ne ((same _).2 source) ((same _).2 target)
    fun _ => Keyed.find? l.2 m.edgeLabels
  exact linked.of_iff fun x y => by rw [Prod.mk.injEq]

theorem linked_withParents (m : NodeMeta) : Linked (withChildren s m g) (withParents s m g)
    fun x y => ∃ l ∈ incoming s m g, (x, y) = (l.2, s.sibling l.1) := by
  have children := linked_withChildren wf sensible fresh m
  refine linked_each children.wellFormed fun g' l hl wf' same => ?_
  obtain ⟨ne, source, target⟩ := incoming_ends wf sensible fresh hl
  have nodes := fun n => (same n).trans (children.contains n)
  have linked := linked_link wf' ne ((nodes _).2 source) ((nodes _).2 target)
    fun g => (g.meta? l.2).bind fun m => Keyed.find? s.node m.edgeLabels
  exact linked.of_iff fun x y => by rw [Prod.mk.injEq]

/-- The graph before the node goes. -/
theorem linked_siblings (m : NodeMeta) : Linked (withSiblings s m g) (withParents s m g)
    fun x y => (∃ l ∈ outgoing s m g, (x, y) = (s.sibling l.1, l.2)) ∨
      ∃ l ∈ incoming s m g, (x, y) = (l.2, s.sibling l.1) :=
  (linked_withChildren wf sensible fresh m).trans (linked_withParents wf sensible fresh m)

/-- The edges of the graph in which the node is replaced. -/
theorem edge_replaceNode : (replaceNode s m g).1.Edge a b ↔ a ≠ s.node ∧ b ≠ s.node ∧
    (g.Edge a b ∨ (∃ l ∈ outgoing s m g, (a, b) = (s.sibling l.1, l.2)) ∨
      ∃ l ∈ incoming s m g, (a, b) = (l.2, s.sibling l.1)) := by
  have siblings : (withSiblings s m g).Edge a b ↔ g.Edge a b := by
    rw [Edge, withSiblings, Arrangement.eachSilent, children_foldl_siblings]
    rfl
  rw [replaceNode_eq, Edge, mem_children_removeNode, ← siblings]
  exact and_congr_right fun _ => and_congr_right fun _ =>
    (linked_siblings wf sensible fresh m).edge a b

omit wf sensible in
theorem origin_of_contains (there : g.contains n) : s.origin n = n :=
  if_neg fun inside => fresh _ inside there

/-- Every edge comes from one of the node, or was there before. -/
theorem edge_of_replaced (h : (replaceNode s m g).1.Edge a b) :
    g.Edge (s.origin a) (s.origin b) := by
  obtain ⟨-, -, before | ⟨⟨i, b⟩, link, same⟩ | ⟨⟨i, a⟩, link, same⟩⟩ :=
    (edge_replaceNode wf sensible fresh).1 h
  · rw [origin_of_contains fresh before.contains, origin_of_contains fresh (wf.closed _ _ before)]
    exact before
  · cases same
    obtain ⟨below, child⟩ := (pairs_outgoing sensible m).sound _ link
    rw [Split.origin_sibling below, origin_of_contains fresh (wf.closed _ _ child)]
    exact child
  · cases same
    obtain ⟨below, parent⟩ := mem_incoming wf sensible link
    rw [Split.origin_sibling below, origin_of_contains fresh parent.contains]
    exact parent

/-- Every edge is still there, for at least one sibling if it is one of the node. -/
theorem exists_replaced (m : NodeMeta) (h : g.Edge a b) :
    ∃ a' b', s.origin a' = a ∧ s.origin b' = b ∧ (replaceNode s m g).1.Edge a' b' := by
  have ha := origin_of_contains fresh h.contains
  have hb := origin_of_contains fresh (wf.closed _ _ h)
  by_cases source : a = s.node
  · subst source
    obtain ⟨i, link⟩ := (pairs_outgoing sensible m).total b h
    obtain ⟨below, -⟩ := (pairs_outgoing sensible m).sound _ link
    refine ⟨s.sibling i, b, Split.origin_sibling below, hb, ?_⟩
    refine (edge_replaceNode wf sensible fresh).2 ⟨sibling_ne fresh below h.contains, ?_,
      .inr (.inl ⟨_, link, rfl⟩)⟩
    rintro rfl
    exact wf.noLoop _ h
  · by_cases target : b = s.node
    · subst target
      obtain ⟨i, link⟩ := exists_incoming wf sensible m h
      obtain ⟨below, -⟩ := mem_incoming wf sensible link
      refine ⟨a, s.sibling i, ha, Split.origin_sibling below, ?_⟩
      exact (edge_replaceNode wf sensible fresh).2 ⟨source,
        sibling_ne fresh below (wf.closed _ _ h), .inr (.inr ⟨_, link, rfl⟩)⟩
    · exact ⟨a, b, ha, hb, (edge_replaceNode wf sensible fresh).2 ⟨source, target, .inl h⟩⟩

theorem edge_others (na : a ≠ s.node) (nb : b ≠ s.node) (ha : g.contains a) (hb : g.contains b) :
    (replaceNode s m g).1.Edge a b ↔ g.Edge a b := by
  rw [edge_replaceNode wf sensible fresh]
  constructor
  · rintro ⟨-, -, before | ⟨⟨i, b⟩, link, same⟩ | ⟨⟨i, a⟩, link, same⟩⟩
    · exact before
    · cases same
      exact absurd rfl (sibling_ne fresh ((pairs_outgoing sensible m).sound _ link).1 ha)
    · cases same
      exact absurd rfl (sibling_ne fresh (mem_incoming wf sensible link).1 hb)
  · exact fun edge => ⟨na, nb, .inl edge⟩

/-- Containers are not paired: each gets the sibling at its own place. -/
theorem container_of_edge (enough : s.containers.length ≤ s.count) (container : a ∈ s.containers)
    (below : i < s.count) (h : (replaceNode s m g).1.Edge a (s.sibling i)) :
    s.containers[i]? = some a := by
  have there := (sensible.held a container).contains
  obtain ⟨-, -, before | ⟨⟨j, b⟩, link, same⟩ | ⟨⟨j, b⟩, link, same⟩⟩ :=
    (edge_replaceNode wf sensible fresh).1 h
  · exact absurd rfl (sibling_ne fresh below (wf.closed _ _ before))
  · obtain ⟨below, -⟩ := (pairs_outgoing sensible m).sound _ link
    exact absurd (Prod.mk.inj same).1.symm (sibling_ne fresh below there)
  · obtain ⟨rfl, sibling⟩ := Prod.mk.inj same
    obtain rfl := Split.sibling_inj sibling
    rcases List.mem_append.1 link with placed | paired
    · obtain ⟨⟨c, k⟩, inside, same⟩ := List.mem_map.1 placed
      obtain ⟨place, rfl⟩ := Prod.mk.inj same
      have found := List.mk_mem_zipIdx_iff_getElem?.1 inside
      have below := (List.getElem?_eq_some_iff.1 found).1
      rwa [← place, Nat.mod_eq_of_lt (by omega)]
    · have parent := ((pairs_pairAll _ sensible.positive sensible.bags _).sound _ paired).2
      exact absurd container (of_decide_eq_true (List.mem_filter.1 parent).2)

theorem replaces_replaceNode (found : g.meta? s.node = some m) :
    Replaces s m g (replaceNode s m g).1 := by
  have there : g.contains s.node := wf.contains_iff.2 (by rw [found]; rfl)
  have linked := linked_siblings wf sensible fresh m
  have nodes : ∀ n, (withParents s m g).contains n ↔ n ∈ s.siblings ∨ g.contains n := fun n =>
    (linked.contains n).trans contains_foldl_siblings
  have unlabelled : ∀ n, n ≠ s.node → ((replaceNode s m g).1.meta? n).map NodeMeta.unlabelled =
      ((withSiblings s m g).meta? n).map NodeMeta.unlabelled := by
    intro n other
    rw [replaceNode_eq, meta?_removeNode, if_neg other, Option.map_map, ← linked.unlabelled]
    rfl
  refine ⟨fresh, wellFormed_removeNode linked.wellFormed, fun n => ?_, fun n other outside => ?_,
    fun i below => ?_, fun _ _ => edge_of_replaced wf sensible fresh,
    fun _ _ => exists_replaced wf sensible fresh m, fun _ _ => edge_others wf sensible fresh,
    fun enough _ container _ => container_of_edge wf sensible fresh enough container⟩
  · rw [replaceNode_eq, contains_removeNode, nodes]
    constructor
    · rintro ⟨other, inside | there⟩
      · exact .inl inside
      · exact .inr ⟨other, there⟩
    · rintro (inside | ⟨other, there⟩)
      · exact ⟨fun e => fresh _ inside (e ▸ there), .inl inside⟩
      · exact ⟨other, .inr there⟩
  · rw [unlabelled n other, withSiblings, Arrangement.eachSilent, meta?_foldl_others outside]
  · rw [unlabelled _ (sibling_ne fresh below there), withSiblings, Arrangement.eachSilent,
      meta?_foldl_sibling (List.mem_range.2 below)]
    rfl

end Replacing

/-- A split is refused and changes nothing, or replaces the node by its siblings. -/
theorem split_cases (wf : g.WellFormed) (sensible : Sensible g s) :
    g.meta? s.node = none ∧ split g s = (g, []) ∨
    (∃ m taken, g.meta? s.node = some m ∧ s.siblings.find? g.contains = some taken ∧
      split g s = (g, [Arrangement.skipped (some s.node)
        ("cannot expand, '" ++ taken ++ "' already exists")])) ∨
    ∃ m, g.meta? s.node = some m ∧ Replaces s m g (split g s).1 := by
  unfold split
  split
  · next none => exact .inl ⟨none, rfl⟩
  · next m found =>
    split
    · next taken first => exact .inr (.inl ⟨m, taken, found, first, rfl⟩)
    · next free =>
      refine .inr (.inr ⟨m, found, replaces_replaceNode wf sensible ?_ found⟩)
      exact fun n inside there => List.find?_eq_none.1 free n inside there

end Expansion

end Cartograph

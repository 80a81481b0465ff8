import Cartograph.Proofs.Containment
import Cartograph.Proofs.Expansion.Edges
import Cartograph.Proofs.Graph.Moving

/-!
# Turning a node around

What one step does to a node that others refer to: each referring node gets a node of its own around
it, which is the node itself or a copy, and which is put into the containers that the referring node
was in. `Turn` says which edges there are afterwards, and `Turned` what else is known: which nodes
there are, and what becomes of their metadata.

A node with a single referring node stays, and so do the edges from hidden nodes to it
(`turned_invertSingle`). Of several copies the first has the children of the node.
-/

namespace Cartograph

open Graph

/-! ### Metadata but for labels -/

/-- The same metadata but for the labels of edges to some nodes. -/
structure NodeMeta.AlikeOff (off : NodeId → Prop) (m m' : NodeMeta) : Prop where
  unlabelled : m'.unlabelled = m.unlabelled
  label : ∀ k, ¬off k → Keyed.find? k m'.edgeLabels = Keyed.find? k m.edgeLabels

/-- The metadata of a copy. -/
def NodeMeta.copied (m : NodeMeta) : NodeMeta := { m with cardinality := 1, instances := [] }

namespace Graph

variable {g g' g'' : Graph} {n a b old new : NodeId} {off : NodeId → Prop}

/-- A node is still there, with the same metadata but for some labels. -/
def Keeps (off : NodeId → Prop) (g g' : Graph) (n : NodeId) : Prop :=
  ∀ m, g.meta? n = some m → ∃ m', g'.meta? n = some m' ∧ m.AlikeOff off m'

theorem Keeps.of_eq (same : g'.meta? n = g.meta? n) : Keeps off g g' n :=
  fun m found => ⟨m, same.trans found, rfl, fun _ _ => rfl⟩

theorem Keeps.trans (h : Keeps off g g' n) (h' : Keeps off g' g'' n) : Keeps off g g'' n := by
  intro m found
  obtain ⟨m', found', alike⟩ := h m found
  obtain ⟨m'', found'', alike'⟩ := h' m' found'
  exact ⟨m'', found'', alike'.unlabelled.trans alike.unlabelled,
    fun k other => (alike'.label k other).trans (alike.label k other)⟩

theorem Keeps.mono {off' : NodeId → Prop} (more : ∀ k, off k → off' k) (h : Keeps off g g' n) :
    Keeps off' g g' n := by
  intro m found
  obtain ⟨m', found', alike⟩ := h m found
  exact ⟨m', found', alike.unlabelled, fun k other => alike.label k fun h => other (more k h)⟩

theorem Keeps.typeOf (h : Keeps off g g' n) (wf : g.WellFormed) (there : g.contains n) :
    g'.typeOf n = g.typeOf n := by
  obtain ⟨m, found⟩ := wf.exists_meta there
  obtain ⟨m', found', alike⟩ := h m found
  refine Expansion.typeOf_of_unlabelled ?_
  rw [found, found', Option.map_some, Option.map_some, alike.unlabelled]

theorem alikeOff_dropLabel (k : NodeId) (m : NodeMeta) : m.AlikeOff (· = k) (dropLabel k m) where
  unlabelled := rfl
  label j other := by rw [dropLabel, Keyed.find?_erase, if_neg fun same => other same.symm]

theorem alikeOff_moveLabel (m : NodeMeta) :
    m.AlikeOff (fun k => k = old ∨ k = new) (moveLabel old new m) := by
  unfold moveLabel
  split
  · refine ⟨rfl, fun k other => ?_⟩
    obtain ⟨ne, ne'⟩ := not_or.1 other
    rw [Keyed.find?_insert, if_neg (Ne.symm ne'), Keyed.find?_erase, if_neg (Ne.symm ne)]
  · exact ⟨rfl, fun _ _ => rfl⟩

theorem keeps_removeEdge : Keeps (· = b) g (g.removeEdge a b).1 n := by
  intro m found
  rw [meta?_removeEdge]
  split
  · exact ⟨dropLabel b m, by rw [found]; rfl, alikeOff_dropLabel b m⟩
  · exact ⟨m, found, rfl, fun _ _ => rfl⟩

theorem keeps_removeParents {sources : List NodeId} :
    Keeps (· = b) g (Arrangement.removeParents sources b g) n := by
  unfold Arrangement.removeParents Arrangement.eachSilent
  induction sources generalizing g with
  | nil => exact .of_eq rfl
  | cons c rest ih => exact keeps_removeEdge.trans ih

theorem keeps_removeNode (ne : n ≠ a) : Keeps (· = a) g (g.removeNode a).1 n := by
  intro m found
  refine ⟨dropLabel a m, ?_, alikeOff_dropLabel a m⟩
  rw [meta?_removeNode, if_neg ne, found]
  rfl

theorem keeps_renameNode (wf : g.WellFormed) (can : g.Renameable old new) (ne : n ≠ old)
    (ne' : n ≠ new) : Keeps (fun k => k = old ∨ k = new) g (g.renameNode old new).1 n := by
  intro m found
  refine ⟨moveLabel old new m, ?_, alikeOff_moveLabel m⟩
  rw [meta?_renameNode can wf.sameNodes, if_neg ne', if_neg ne, found]
  rfl

end Graph

namespace Inversion

open Arrangement Containment

/-! ### What is turned around -/

section

variable (p : Rules.Providers) (h : Graph) (r : NodeId)

/-- A visible node that is no container refers to the nodes it has an edge to. -/
structure Refers (q r : NodeId) : Prop where
  edge : h.Edge q r
  plain : p.isGroup (h.typeOf q) = false
  visible : ((h.meta? q).map (·.hidden)).getD false = false

/-- A container that a referring node leaves to the node around it. Where copies are made, a
    container is left alone if it could be another copy, by its name. -/
def Outer (alone : Prop) (q c : NodeId) : Prop :=
  Holds p h c q ∧ c ≠ r ∧ (alone ∨ NodeId.base c ≠ NodeId.base r)

/-- A container that the node around a referring one is put into: one that the referring node leaves
    to it, or if there is none, one that held the node before. -/
def Placed (alone : Prop) (q c : NodeId) : Prop :=
  Outer p h r alone q c ∨ ((∀ d, ¬Outer p h r alone q d) ∧ Holds p h c r)

/-- The edges after a node was turned around, given the new nodes with what is in them, and whether
    there is a single one. -/
inductive Turn (alone : Prop) (made : List (NodeId × NodeId)) (a b : NodeId) : Prop
  /-- An edge between other nodes, unless it is left to a new node. -/
  | other : h.Edge a b → a ≠ r → b ≠ r → (∀ c, (c, b) ∈ made → ¬Outer p h r alone b a) →
    Turn alone made a b
  | around : (a, b) ∈ made → Turn alone made a b
  | placed {q : NodeId} : (b, q) ∈ made → Placed p h r alone q a → Turn alone made a b
  /-- The first new node has the children of the node. -/
  | first {q : NodeId} : made.head? = some (a, q) → h.Edge r b → Turn alone made a b
  /-- A single referring node leaves the edges of hidden nodes. -/
  | hidden {q : NodeId} : alone → made = [(b, q)] → h.Edge a r → p.isGroup (h.typeOf a) = false →
    a ≠ q → Turn alone made a b

/-- What a graph has become in which a node was turned around. -/
structure Turned (made : List (NodeId × NodeId)) (h' : Graph) : Prop where
  wellFormed : h'.WellFormed
  referring : (made.map Prod.snd).Perm (referring p h r)
  nodup : (made.map Prod.fst).Nodup
  fresh : ∀ x ∈ made, h.contains x.1 → x.1 = r
  base : ∀ x ∈ made, NodeId.base x.1 = NodeId.base r
  /-- The node keeps its name, or takes over the number of its single referring node. -/
  named : made.length = 1 → ∀ x ∈ made, x.1 = r ∨
    ∃ i, NodeId.suffix? x.2 = some i ∧ x.1 = NodeId.withSuffix r i
  contains : ∀ n, h'.contains n ↔ n ∈ made.map Prod.fst ∨ (n ≠ r ∧ h.contains n)
  keeps : ∀ n, n ≠ r → Keeps (fun k => k = r ∨ k ∈ made.map Prod.fst) h h' n
  found : ∀ m, h.meta? r = some m → ∀ x ∈ made, ∃ m', h'.meta? x.1 = some m' ∧
    m'.unlabelled = (if made.length = 1 then m else m.copied).unlabelled
  typeOf : ∀ x ∈ made, h'.typeOf x.1 = h.typeOf r
  edge : ∀ a b, h'.Edge a b ↔ Turn p h r (made.length = 1) made a b

end

variable {p : Rules.Providers} {h h' : Graph} {r q c n a b : NodeId}

-- Nothing here depends on how an identifier is taken apart.
attribute [local irreducible] NodeId.splitSuffix NodeId.parts NodeId.withSuffix

theorem Refers.not_isGroup (refers : Refers p h q r) : ¬p.isGroup (h.typeOf q) := by
  rw [refers.plain]
  exact Bool.false_ne_true

/-! ### A single referring node -/

theorem mem_referring (wf : h.WellFormed) : q ∈ referring p h r ↔ Refers p h q r := by
  rw [referring, List.mem_filter, mem_parents wf.nodup, Bool.and_eq_true, Bool.not_eq_true',
    Bool.not_eq_true']
  exact ⟨fun h => ⟨h.1, h.2.1, h.2.2⟩, fun h => ⟨h.edge, h.plain, h.visible⟩⟩

/-- The node that a single referring node refers to, after they changed places. -/
def swap (p : Rules.Providers) (h : Graph) (r q : NodeId) : Graph :=
  let own := groupParents p h r
  let h := (h.removeEdge q r).1
  let outer := (groupParents p h q).filter (· ≠ r)
  let h := if outer = [] then h
    else eachSilent (fun h c => (h.replaceChild c q r).1) outer (removeParents own r h)
  (h.addEdge r q).1

theorem invertSingle_eq (p : Rules.Providers) (h : Graph) (r q : NodeId) :
    invertSingle p h r q = match NodeId.suffix? q, NodeId.suffix? r with
      | some i, none => ((swap p h r q).renameNode r (NodeId.withSuffix r i)).1
      | _, _ => swap p h r q := rfl

theorem outer_alone (wf : h.WellFormed) (edge : h.Edge q r) :
    c ∈ (groupParents p (h.removeEdge q r).1 q).filter (· ≠ r) ↔ Outer p h r True q c := by
  have ne : q ≠ r := fun same => wf.noLoop r (same ▸ edge)
  rw [List.mem_filter, mem_groupParents (wellFormed_removeEdge wf).nodup, Outer, true_or, and_true,
    decide_eq_true_eq]
  refine and_congr_left' ⟨fun held => ⟨?_, ?_⟩, fun held => ⟨?_, ?_⟩⟩
  · exact (edge_removeEdge.1 held.edge).1
  · exact typeOf_removeEdge (g := h) ▸ held.isGroup
  · exact edge_removeEdge.2 ⟨held.edge, fun same => ne same.2⟩
  · exact (typeOf_removeEdge (g := h)).symm ▸ held.isGroup

/-- The edges with one new node. -/
theorem turn_single {n : NodeId} : Turn p h r True [(n, q)] a b ↔
    (h.Edge a b ∧ a ≠ r ∧ b ≠ r ∧ ¬(b = q ∧ Outer p h r True q a)) ∨ (a = n ∧ b = q) ∨
      (b = n ∧ Placed p h r True q a) ∨ (a = n ∧ h.Edge r b) ∨
      (b = n ∧ h.Edge a r ∧ p.isGroup (h.typeOf a) = false ∧ a ≠ q) := by
  constructor
  · rintro (⟨link, ha, hb, off⟩ | around | ⟨listed, placed⟩ | ⟨head, link⟩ |
      ⟨-, same, link, plain, ne⟩)
    · refine .inl ⟨link, ha, hb, ?_⟩
      rintro ⟨rfl, out⟩
      exact off n List.mem_cons_self out
    · obtain ⟨rfl, rfl⟩ := Prod.mk.inj (List.mem_singleton.1 around)
      exact .inr (.inl ⟨rfl, rfl⟩)
    · obtain ⟨rfl, rfl⟩ := Prod.mk.inj (List.mem_singleton.1 listed)
      exact .inr (.inr (.inl ⟨rfl, placed⟩))
    · obtain ⟨rfl, rfl⟩ := Prod.mk.inj (Option.some.inj head)
      exact .inr (.inr (.inr (.inl ⟨rfl, link⟩)))
    · obtain ⟨rfl, rfl⟩ := Prod.mk.inj (List.cons.inj same).1
      exact .inr (.inr (.inr (.inr ⟨rfl, link, plain, ne⟩)))
  · rintro (⟨link, ha, hb, off⟩ | ⟨rfl, rfl⟩ | ⟨rfl, placed⟩ | ⟨rfl, link⟩ |
      ⟨rfl, link, plain, ne⟩)
    · refine .other link ha hb fun c listed out => off ?_
      obtain ⟨rfl, rfl⟩ := Prod.mk.inj (List.mem_singleton.1 listed)
      exact ⟨rfl, out⟩
    · exact .around List.mem_cons_self
    · exact .placed List.mem_cons_self placed
    · exact .first rfl link
    · exact .hidden trivial rfl link plain ne

theorem turn_alone {x : NodeId × NodeId} :
    Turn p h r ([x].length = 1) [x] a b ↔ Turn p h r True [x] a b := by
  rw [show ([x].length = 1) = True from eq_true rfl]

/-- The edges of the graph, with the one to the node turned, if there is no container that the
    referring node leaves to it. -/
theorem turn_unplaced (wf : h.WellFormed) (edge : h.Edge q r)
    (plain : p.isGroup (h.typeOf q) = false) (nobody : ∀ c, ¬Outer p h r True q c) :
    ((h.Edge a b ∧ ¬(a = q ∧ b = r)) ∨ (a = r ∧ b = q)) ↔ Turn p h r True [(r, q)] a b := by
  have ne : q ≠ r := fun same => wf.noLoop r (same ▸ edge)
  rw [turn_single]
  constructor
  · rintro (⟨link, off⟩ | around)
    · by_cases hb : b = r
      · subst hb
        cases group : p.isGroup (h.typeOf a) with
        | true => exact .inr (.inr (.inl ⟨rfl, .inr ⟨nobody, link, group⟩⟩))
        | false => exact .inr (.inr (.inr (.inr ⟨rfl, link, rfl, fun same => off ⟨same, rfl⟩⟩)))
      · by_cases ha : a = r
        · subst ha
          exact .inr (.inr (.inr (.inl ⟨rfl, link⟩)))
        · exact .inl ⟨link, ha, hb, fun h => nobody a h.2⟩
    · exact .inr (.inl around)
  · rintro (⟨link, -, hb, -⟩ | around | ⟨rfl, placed⟩ | ⟨rfl, link⟩ | ⟨rfl, link, -, ne'⟩)
    · exact .inl ⟨link, fun h => hb h.2⟩
    · exact .inr around
    · have holds := (placed.resolve_left (nobody a)).2
      refine .inl ⟨holds.edge, fun h => ?_⟩
      rw [← h.1, holds.isGroup] at plain
      exact absurd plain (by simp)
    · exact .inl ⟨link, fun h => ne h.1.symm⟩
    · exact .inl ⟨link, fun h => ne' h.1⟩

/-- The same if there are such containers: then the node leaves its own. -/
theorem turn_placed (wf : h.WellFormed) (edge : h.Edge q r) (some : Outer p h r True q c) :
    (((((h.Edge a b ∧ ¬(a = q ∧ b = r)) ∧ ¬(Holds p h a r ∧ b = r)) ∧
      ¬(Outer p h r True q a ∧ b = q)) ∨ (Outer p h r True q a ∧ b = r)) ∨ (a = r ∧ b = q)) ↔
        Turn p h r True [(r, q)] a b := by
  have ne : q ≠ r := fun same => wf.noLoop r (same ▸ edge)
  rw [turn_single]
  constructor
  · rintro ((⟨⟨⟨link, off⟩, off'⟩, off''⟩ | ⟨out, rfl⟩) | around)
    · by_cases hb : b = r
      · subst hb
        cases group : p.isGroup (h.typeOf a) with
        | true => exact absurd ⟨⟨link, group⟩, rfl⟩ off'
        | false => exact .inr (.inr (.inr (.inr ⟨rfl, link, rfl, fun same => off ⟨same, rfl⟩⟩)))
      · by_cases ha : a = r
        · subst ha
          exact .inr (.inr (.inr (.inl ⟨rfl, link⟩)))
        · exact .inl ⟨link, ha, hb, fun h => off'' ⟨h.2, h.1⟩⟩
    · exact .inr (.inr (.inl ⟨rfl, .inl out⟩))
    · exact .inr (.inl around)
  · rintro (⟨link, -, hb, off⟩ | around | ⟨rfl, placed⟩ | ⟨rfl, link⟩ | ⟨rfl, link, group, ne'⟩)
    · exact .inl (.inl ⟨⟨⟨link, fun h => hb h.2⟩, fun h => hb h.2⟩, fun h => off ⟨h.2, h.1⟩⟩)
    · exact .inr around
    · exact .inl (.inr ⟨placed.resolve_right fun h => h.1 c some, rfl⟩)
    · refine .inl (.inl ⟨⟨⟨link, fun h => ne h.1.symm⟩, fun h => ?_⟩, fun h => ?_⟩)
      · exact wf.noLoop a (h.2 ▸ link)
      · exact h.1.2.1 rfl
    · refine .inl (.inl ⟨⟨⟨link, fun h => ne' h.1⟩, fun h => ?_⟩, fun h => ne h.2.symm⟩)
      rw [h.1.isGroup] at group
      exact absurd group (by simp)

/-- What a graph has become in which a node and its single referring node changed places, but for
    the name. -/
structure Swapped (p : Rules.Providers) (h : Graph) (r q : NodeId) (h' : Graph) : Prop where
  wellFormed : h'.WellFormed
  contains : ∀ n, h'.contains n ↔ h.contains n
  keeps : ∀ n, Keeps (· = r) h h' n
  edge : ∀ a b, h'.Edge a b ↔ Turn p h r True [(r, q)] a b

theorem swapped_swap (wf : h.WellFormed) (edge : h.Edge q r)
    (plain : p.isGroup (h.typeOf q) = false) : Swapped p h r q (swap p h r q) := by
  have ne : q ≠ r := fun same => wf.noLoop r (same ▸ edge)
  have hq : h.contains q := edge.contains
  have hr : h.contains r := wf.closed q r edge
  have wf₁ := wellFormed_removeEdge (a := q) (b := r) wf
  have outer := fun c => outer_alone (p := p) (c := c) wf edge
  unfold swap
  dsimp only
  split
  · next none =>
    have nobody : ∀ c, ¬Outer p h r True q c := fun c h => by
      have inside := (outer c).2 h
      rw [none] at inside
      exact List.not_mem_nil inside
    have moved := moved_addEdge wf₁ (Ne.symm ne) (contains_removeEdge.2 hr)
      (contains_removeEdge.2 hq)
    refine ⟨moved.wellFormed, fun n => (moved.contains n).trans contains_removeEdge,
      fun n => keeps_removeEdge.trans (.of_eq (moved.meta? n)), fun a b => ?_⟩
    rw [moved.edge, edge_removeEdge]
    exact turn_unplaced wf edge plain nobody
  · next some =>
    obtain ⟨d, hd⟩ := List.exists_mem_of_ne_nil _ some
    have wf₂ : (removeParents (groupParents p h r) r (h.removeEdge q r).1).WellFormed :=
      Expansion.wellFormed_removeParents wf₁
    have there : ∀ n, (removeParents (groupParents p h r) r (h.removeEdge q r).1).contains n ↔
        h.contains n := fun n => Expansion.contains_removeParents.trans contains_removeEdge
    have edges : ∀ a b, (removeParents (groupParents p h r) r (h.removeEdge q r).1).Edge a b ↔
        (h.Edge a b ∧ ¬(a = q ∧ b = r)) ∧ ¬(Holds p h a r ∧ b = r) := fun a b => by
      rw [Expansion.edge_removeParents, edge_removeEdge, mem_groupParents wf.nodup]
    have nodup : ((groupParents p (h.removeEdge q r).1 q).filter (· ≠ r)).Nodup :=
      ((wf₁.nodup_parents q).filter _).filter _
    have moved := moved_replaceChildren wf₂ ((there r).2 hr) (Ne.symm ne) nodup fun c inside =>
      have out := (outer c).1 inside
      ⟨out.2.1, (edges c q).2 ⟨⟨out.1.edge, fun h => ne h.2⟩, fun h => ne h.2⟩⟩
    have moved' := moved_addEdge moved.wellFormed (Ne.symm ne)
      ((moved.contains r).2 ((there r).2 hr)) ((moved.contains q).2 ((there q).2 hq))
    refine ⟨moved'.wellFormed,
      fun n => (moved'.contains n).trans ((moved.contains n).trans (there n)),
      fun n => keeps_removeEdge.trans (keeps_removeParents.trans
        (.of_eq ((moved'.meta? n).trans (moved.meta? n)))), fun a b => ?_⟩
    rw [moved'.edge, moved.edge, edges, outer]
    exact turn_placed wf edge ((outer d).1 hd)

theorem Outer.ne {alone : Prop} (h : Outer p h r alone q c) : c ≠ r := h.2.1

theorem Placed.ne {alone : Prop} (wf : h.WellFormed) (placed : Placed p h r alone q c) : c ≠ r := by
  rintro rfl
  exact placed.elim (fun out => out.ne rfl) fun own => wf.noLoop c own.2.edge

/-- The type of a node that is known by the number of an instance. -/
theorem typeOf_numbered {m m' : NodeMeta} (found : h.meta? r = some m)
    (found' : h'.meta? n = some m') (same : m'.resourceType = m.resourceType)
    (type : NodeId.resourceType n = NodeId.resourceType r) : h'.typeOf n = h.typeOf r := by
  rw [Graph.typeOf, Graph.typeOf, found, found']
  show (if m'.resourceType = "" then _ else _) = if m.resourceType = "" then _ else _
  rw [same, type]

/-- The places that a node and its single referring node changed stay when the node is renamed. -/
theorem turn_renamed (wf : h.WellFormed) (edge : h.Edge q r)
    {s : Graph} (edges : ∀ a b, s.Edge a b ↔ Turn p h r True [(r, q)] a b) (can : s.Renameable r n) :
    (s.renameNode r n).1.Edge a b ↔ Turn p h r True [(n, q)] a b := by
  have ne : q ≠ r := fun same => wf.noLoop r (same ▸ edge)
  rw [edge_renameNode can, turn_single]
  constructor
  · rintro ⟨x, y, link, rfl, rfl⟩
    rcases turn_single.1 ((edges x y).1 link) with
      ⟨link, hx, hy, off⟩ | ⟨rfl, rfl⟩ | ⟨rfl, placed⟩ | ⟨rfl, link⟩ | ⟨rfl, link, plain, hx⟩
    · rw [renamed_of_ne hx, renamed_of_ne hy]
      exact .inl ⟨link, hx, hy, off⟩
    · rw [renamed_old, renamed_of_ne ne]
      exact .inr (.inl ⟨rfl, rfl⟩)
    · rw [renamed_old, renamed_of_ne (placed.ne wf)]
      exact .inr (.inr (.inl ⟨rfl, placed⟩))
    · have hy : y ≠ x := fun same => wf.noLoop x (same ▸ link)
      rw [renamed_old, renamed_of_ne hy]
      exact .inr (.inr (.inr (.inl ⟨rfl, link⟩)))
    · have hx' : x ≠ y := fun same => wf.noLoop y (same ▸ link)
      rw [renamed_old, renamed_of_ne hx']
      exact .inr (.inr (.inr (.inr ⟨rfl, link, plain, hx⟩)))
  · have there : ∀ {x y}, Turn p h r True [(r, q)] x y → s.Edge x y := (edges _ _).2
    rintro (⟨link, ha, hb, off⟩ | ⟨rfl, rfl⟩ | ⟨rfl, placed⟩ | ⟨rfl, link⟩ | ⟨rfl, link, plain, ha⟩)
    · exact ⟨a, b, there (turn_single.2 (.inl ⟨link, ha, hb, off⟩)),
        (renamed_of_ne ha).symm, (renamed_of_ne hb).symm⟩
    · exact ⟨r, b, there (turn_single.2 (.inr (.inl ⟨rfl, rfl⟩))), renamed_old.symm,
        (renamed_of_ne ne).symm⟩
    · exact ⟨a, r, there (turn_single.2 (.inr (.inr (.inl ⟨rfl, placed⟩)))),
        (renamed_of_ne (placed.ne wf)).symm, renamed_old.symm⟩
    · have hb : b ≠ r := fun same => wf.noLoop r (same ▸ link)
      exact ⟨r, b, there (turn_single.2 (.inr (.inr (.inr (.inl ⟨rfl, link⟩))))), renamed_old.symm,
        (renamed_of_ne hb).symm⟩
    · have ha' : a ≠ r := fun same => wf.noLoop r (same ▸ link)
      exact ⟨a, r, there (turn_single.2 (.inr (.inr (.inr (.inr ⟨rfl, link, plain, ha⟩))))),
        (renamed_of_ne ha').symm, renamed_old.symm⟩

theorem turned_swap (wf : h.WellFormed) (only : referring p h r = [q]) :
    Turned p h r [(r, q)] (swap p h r q) := by
  obtain ⟨edge, plain, -⟩ := (mem_referring wf).1 (only ▸ List.mem_singleton_self q)
  have hr : h.contains r := wf.closed q r edge
  obtain ⟨wf', there, keeps, edges⟩ := swapped_swap wf edge plain
  refine ⟨wf', by simp [only], by simp, ?_, ?_, ?_, ?_, ?_, ?_, ?_,
    fun a b => (edges a b).trans turn_alone.symm⟩
  · exact fun x inside _ => congrArg Prod.fst (List.mem_singleton.1 inside)
  · exact fun x inside => congrArg (NodeId.base ·.1) (List.mem_singleton.1 inside)
  · exact fun _ x inside => .inl (congrArg Prod.fst (List.mem_singleton.1 inside))
  · intro n
    rw [there, List.map_singleton, List.mem_singleton]
    refine ⟨fun there => ?_, fun h => h.elim (fun same => same ▸ hr) And.right⟩
    by_cases same : n = r
    · exact .inl same
    · exact .inr ⟨same, there⟩
  · exact fun n _ => (keeps n).mono fun _ => .inl
  · intro m found x inside
    rw [List.mem_singleton.1 inside]
    obtain ⟨m', found', alike⟩ := keeps r m found
    exact ⟨m', found', alike.unlabelled⟩
  · intro x inside
    rw [List.mem_singleton.1 inside]
    exact (keeps r).typeOf wf hr

theorem turned_renamed (wf : h.WellFormed) (only : referring p h r = [q]) {i : Nat}
    (numbered : NodeId.suffix? q = some i) (plain : NodeId.suffix? r = none)
    (named : n = NodeId.withSuffix r i) (can : (swap p h r q).Renameable r n) :
    Turned p h r [(n, q)] ((swap p h r q).renameNode r n).1 := by
  have word := NodeId.lt_of_suffix? numbered
  have base : NodeId.base n = NodeId.base r := by
    rw [named, NodeId.base_withSuffix r word, NodeId.base_of_suffix?_none plain]
  have type : NodeId.resourceType n = NodeId.resourceType r := by
    rw [named, NodeId.resourceType_withSuffix plain word]
  have swapped := turned_swap wf only
  obtain ⟨edge, visible, -⟩ := (mem_referring wf).1 (only ▸ List.mem_singleton_self q)
  have there : ∀ k, (swap p h r q).contains k ↔ h.contains k := (swapped_swap wf edge visible).contains
  have free : ¬h.contains n := fun inside => can.2.2 ((there n).2 inside)
  have renamed : ∀ m, h.meta? r = some m → ∃ m',
      ((swap p h r q).renameNode r n).1.meta? n = some m' ∧ m'.unlabelled = m.unlabelled := by
    intro m found
    obtain ⟨m', found', alike⟩ := swapped.found m found (r, q) List.mem_cons_self
    refine ⟨moveLabel r n m', ?_, (alikeOff_moveLabel m').unlabelled.trans alike⟩
    rw [meta?_renameNode can swapped.wellFormed.sameNodes, if_pos rfl, found']
    rfl
  refine ⟨wellFormed_renameNode swapped.wellFormed, by simp [only], by simp, ?_, ?_, ?_, ?_, ?_, ?_,
    ?_,
    fun a b => (turn_renamed wf edge (fun a b => (swapped.edge a b).trans turn_alone) can).trans
      turn_alone.symm⟩
  · intro x inside there
    rw [List.mem_singleton.1 inside] at there
    exact absurd there free
  · intro x inside
    rw [List.mem_singleton.1 inside]
    exact base
  · intro _ x inside
    rw [List.mem_singleton.1 inside]
    exact .inr ⟨i, numbered, named⟩
  · intro k
    rw [contains_renameNode can, there, List.map_singleton, List.mem_singleton]
  · intro k ne m found
    have ne' : k ≠ n := by
      rintro rfl
      exact free (wf.contains_iff.2 (by rw [found]; rfl))
    have first : Keeps (fun j => j = r ∨ j ∈ [n]) h (swap p h r q) k :=
      (swapped.keeps k ne).mono fun j off => .inl (off.elim id List.mem_singleton.1)
    have second : Keeps (fun j => j = r ∨ j ∈ [n]) (swap p h r q)
        ((swap p h r q).renameNode r n).1 k :=
      (keeps_renameNode swapped.wellFormed can ne ne').mono fun j off =>
        off.imp_right List.mem_singleton.2
    exact first.trans second m found
  · intro m found x inside
    rw [List.mem_singleton.1 inside]
    exact renamed m found
  · intro x inside
    rw [List.mem_singleton.1 inside]
    obtain ⟨m, found⟩ := wf.exists_meta (wf.closed q r edge)
    obtain ⟨m', found', same⟩ := renamed m found
    exact typeOf_numbered found found' (congrArg NodeMeta.resourceType same :) type

/-- A node with a single referring node is turned around. -/
theorem turned_invertSingle (wf : h.WellFormed) (only : referring p h r = [q]) :
    ∃ n, Turned p h r [(n, q)] (invertSingle p h r q) := by
  have swapped := turned_swap wf only
  rw [invertSingle_eq]
  split
  · next i numbered plain =>
    by_cases can : (swap p h r q).Renameable r (NodeId.withSuffix r i)
    · exact ⟨_, turned_renamed wf only numbered plain rfl can⟩
    · rw [renameNode_of_not_renameable can]
      exact ⟨r, swapped⟩
  · exact ⟨r, swapped⟩

end Inversion

end Cartograph

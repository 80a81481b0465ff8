import Cartograph.Proofs.Containment
import Cartograph.Proofs.Graph.Cutting
import Cartograph.Proofs.Graph.Moving
import Cartograph.Proofs.Placement.Nearest

/-!
# Moving nodes into the nearest place

A node that is moved leaves all its containers but the place that it is moved into, and the place
leaves the node if it was below it (`moveInto_eq`). Moves change edges and labels only
(`Retained`), so a place stays what it is, and no later move takes a node out of its place again:
that would have to be a move of the place into the node, which are of different kinds
(`Settled.moveInto`). So in the end each node that was moved is in its place, and in no other
container (`move_nearest`).
-/

namespace Cartograph.Arrangement

open Graph Rules Containment

variable {p : Providers} {pattern target : Pattern} {g g' g'' h : Graph} {a b n m t : NodeId}

/-! ### What stays -/

/-- A graph with the same nodes and the same types. -/
structure Retained (g g' : Graph) : Prop where
  wellFormed : g'.WellFormed
  contains : ∀ n, g'.contains n ↔ g.contains n
  typeOf : ∀ n, g'.typeOf n = g.typeOf n

theorem Retained.refl (wf : g.WellFormed) : Retained g g := ⟨wf, fun _ => .rfl, fun _ => rfl⟩

theorem Retained.trans (first : Retained g g') (later : Retained g' g'') : Retained g g'' :=
  ⟨later.wellFormed, fun n => (later.contains n).trans (first.contains n),
    fun n => (later.typeOf n).trans (first.typeOf n)⟩

theorem Retained.fits (kept : Retained g g') : Fits target g' m ↔ Fits target g m := by
  rw [Fits, Fits, matchesNode_congr (kept.typeOf m)]

theorem contains_of_adj (wf : g.WellFormed) (adj : g.linked.Adj n m) : g.contains n := by
  rcases (linked_adj wf).1 adj with edge | edge
  · exact edge.contains
  · exact wf.closed m n edge

/-- A place is another node of the graph, and so is the node that it is the nearest to. -/
theorem Nearest.contains (wf : g.WellFormed) (near : Nearest g target n t) (ne : n ≠ t) :
    g.contains n ∧ g.contains t := by
  -- They are neighbours or have one in common, and nodes with edges are nodes of the graph.
  have close : ¬(n ≠ t ∧ ¬g.linked.Adj n t ∧ g.linked.commonNeighbors n t = ∅) := by
    rw [← SimpleGraph.two_lt_edist_iff]
    exact not_lt.2 near.near
  by_cases adj : g.linked.Adj n t
  · exact ⟨contains_of_adj wf adj, contains_of_adj wf adj.symm⟩
  · obtain ⟨k, hk⟩ := Set.nonempty_iff_ne_empty.2 fun none => close ⟨ne, adj, none⟩
    obtain ⟨left, right⟩ := (SimpleGraph.mem_commonNeighbors _).1 hk
    exact ⟨contains_of_adj wf left, contains_of_adj wf right⟩

/-! ### One move -/

/-- The edges that go when a node is moved into a place. -/
def leaving (p : Providers) (g : Graph) (n t a b : NodeId) : Bool :=
  decide ((b = n ∧ Holds p g a n ∧ a ≠ t) ∨ (a = n ∧ b = t))

theorem moveInto_eq (wf : g.WellFormed) (found : nearest? g n target = some t) :
    moveInto p target g n = (((g.without (leaving p g n t)).addEdge t n).1, []) := by
  have left : removeParents ((groupParents p g n).filter (· ≠ t)) n g =
      g.without fun a b => decide (b = n ∧ Holds p g a n ∧ a ≠ t) := by
    rw [removeParents, eachSilent_removeEdge wf.nodup (fun a => (a, n))]
    congr 1
    funext a b
    refine decide_eq_decide.2 ?_
    simp only [List.mem_map, List.mem_filter, Prod.mk.injEq, mem_groupParents wf.nodup,
      decide_eq_true_eq]
    constructor
    · rintro ⟨_, ⟨held, ne⟩, rfl, rfl⟩
      exact ⟨rfl, held, ne⟩
    · rintro ⟨rfl, held, ne⟩
      exact ⟨a, ⟨held, ne⟩, rfl, rfl⟩
  have both : ((g.without fun a b => decide (b = n ∧ Holds p g a n ∧ a ≠ t)).removeEdge n t).1 =
      g.without (leaving p g n t) := by
    rw [removeEdge_eq_without (wellFormed_without wf).nodup, without_without]
    congr 1
    funext a b
    exact (Bool.decide_or _ _).symm
  unfold moveInto
  rw [found]
  dsimp only
  rw [left, both]

theorem moveInto_none (none : nearest? g n target = none) : moveInto p target g n =
    (g, [skipped (some n) ("no '" ++ target.text ++ "' nearby to move into")]) := by
  rw [moveInto, none]

theorem Nearest.ne (outside : ¬Fits target g n) (near : Nearest g target n t) : n ≠ t := by
  rintro rfl
  exact outside near.fits

/-- The edges after a move. -/
theorem edge_moveInto (wf : g.WellFormed) (outside : ¬Fits target g n)
    (near : Nearest g target n t) : (moveInto p target g n).1.Edge a b ↔
      (g.Edge a b ∧ ¬((b = n ∧ Holds p g a n ∧ a ≠ t) ∨ (a = n ∧ b = t))) ∨ (a = t ∧ b = n) := by
  rw [moveInto_eq wf ((nearest?_eq_some_iff wf outside).2 near)]
  refine (edge_addEdge (near.ne outside).symm).trans (or_congr_left ?_)
  rw [edge_without, leaving, decide_eq_false_iff_not]

theorem retained_moveInto (wf : g.WellFormed) (outside : ¬Fits target g n) :
    Retained g (moveInto p target g n).1 := by
  cases found : nearest? g n target with
  | none =>
    rw [moveInto_none found]
    exact .refl wf
  | some t =>
    have near := (nearest?_eq_some_iff wf outside).1 found
    obtain ⟨here, there⟩ := near.contains wf (near.ne outside)
    have wf' : (g.without (leaving p g n t)).WellFormed := wellFormed_without wf
    have moved := moved_addEdge wf' (near.ne outside).symm (contains_without.2 there)
      (contains_without.2 here)
    rw [moveInto_eq wf found]
    exact ⟨moved.wellFormed, fun n => (moved.contains n).trans contains_without,
      fun n => (moved.typeOf n).trans typeOf_without⟩

/-- A node is in its place, which is not below it, and in no other container. -/
structure Settled (p : Providers) (g : Graph) (n t : NodeId) : Prop where
  inside : g.Edge t n
  noReturn : ¬g.Edge n t
  sole : ∀ q, Holds p g q n → q = t

theorem settled_moveInto (wf : g.WellFormed) (outside : ¬Fits target g n)
    (near : Nearest g target n t) : Settled p (moveInto p target g n).1 n t := by
  have edge := fun {a b} => edge_moveInto (p := p) (a := a) (b := b) wf outside near
  have ne := near.ne outside
  refine ⟨edge.2 (.inr ⟨rfl, rfl⟩), fun back => ?_, fun q held => ?_⟩
  · rcases edge.1 back with ⟨-, stays⟩ | ⟨same, -⟩
    · exact stays (.inr ⟨rfl, rfl⟩)
    · exact ne same
  · by_contra other
    rcases edge.1 held.edge with ⟨before, stays⟩ | ⟨same, -⟩
    · refine stays (.inl ⟨rfl, ⟨before, ?_⟩, other⟩)
      rw [← (retained_moveInto (p := p) wf outside).typeOf]
      exact held.isGroup
    · exact other same

/-- A move of another node leaves a node in its place, as it is not of the kind of the places. -/
theorem Settled.moveInto (settled : Settled p g n t) (wf : g.WellFormed)
    (outside : ¬Fits target g m) (other : m ≠ n) (outside' : ¬Fits target g n) :
    Settled p (moveInto p target g m).1 n t := by
  cases found : nearest? g m target with
  | none =>
    rw [moveInto_none found]
    exact settled
  | some u =>
    have near := (nearest?_eq_some_iff wf outside).1 found
    have edge := fun {a b} => edge_moveInto (p := p) (a := a) (b := b) wf outside near
    -- Only a move of its place into the node would part the two, and the node is not a place.
    have place : n ≠ u := by
      rintro rfl
      exact outside' near.fits
    refine ⟨edge.2 (.inl ⟨settled.inside, ?_⟩), fun back => ?_, fun q held => ?_⟩
    · rintro (⟨same, -⟩ | ⟨-, same⟩)
      · exact other same.symm
      · exact place same
    · rcases edge.1 back with ⟨before, -⟩ | ⟨same, -⟩
      · exact settled.noReturn before
      · exact place same
    · rcases edge.1 held.edge with ⟨before, -⟩ | ⟨-, same⟩
      · refine settled.sole q ⟨before, ?_⟩
        rw [← (retained_moveInto (p := p) wf outside).typeOf]
        exact held.isGroup
      · exact absurd same.symm other

/-! ### All moves -/

theorem each_cons {α : Type} (step : Graph → α → Outcome) (a : α) (rest : List α) (g : Graph) :
    each step (a :: rest) g = ((each step rest (step g a).1).1,
      (step g a).2 ++ (each step rest (step g a).1).2) := rfl

theorem each_append {α : Type} (step : Graph → α → Outcome) (before after : List α) (g : Graph) :
    each step (before ++ after) g = ((each step after (each step before g).1).1,
      (each step before g).2 ++ (each step after (each step before g).1).2) := by
  induction before generalizing g with
  | nil => rfl
  | cons a before ih =>
    rw [List.cons_append, each_cons, each_cons, ih, List.append_assoc]

theorem retained_moves {nodes : List NodeId} (wf : g.WellFormed)
    (outside : ∀ m ∈ nodes, ¬Fits target g m) :
    Retained g (each (moveInto p target) nodes g).1 := by
  induction nodes generalizing g with
  | nil => exact .refl wf
  | cons n nodes ih =>
    have first := retained_moveInto (p := p) wf (outside n List.mem_cons_self)
    refine first.trans (ih first.wellFormed fun m hm fits => ?_)
    exact outside m (List.mem_cons_of_mem _ hm) (first.fits.1 fits)

/-- Moves of other nodes leave a node in its place. -/
theorem Settled.moves {nodes : List NodeId} (settled : Settled p g n t) (wf : g.WellFormed)
    (outside : ∀ m ∈ nodes, ¬Fits target g m) (other : n ∉ nodes) (outside' : ¬Fits target g n) :
    Settled p (each (Arrangement.moveInto p target) nodes g).1 n t := by
  induction nodes generalizing g with
  | nil => exact settled
  | cons m nodes ih =>
    have here := outside m List.mem_cons_self
    have first := retained_moveInto (p := p) wf here
    refine ih (settled.moveInto wf here (fun same => other (same ▸ List.mem_cons_self)) outside')
      first.wellFormed (fun k hk fits => ?_) (fun inside => other (List.mem_cons_of_mem _ inside))
      fun fits => outside' (first.fits.1 fits)
    exact outside k (List.mem_cons_of_mem _ hk) (first.fits.1 fits)

/-! ### In any order -/

/-- Graphs with the same edges and the same metadata, in whatever order. -/
structure SameEdges (g h : Graph) : Prop where
  wellFormed : h.WellFormed
  edge : ∀ a b, h.Edge a b ↔ g.Edge a b
  meta? : ∀ n, h.meta? n = g.meta? n

namespace SameEdges

theorem contains (s : SameEdges g h) (wf : g.WellFormed) : h.contains n ↔ g.contains n := by
  rw [s.wellFormed.contains_iff, s.meta?, wf.contains_iff]

theorem nodesMatching (s : SameEdges g h) (wf : g.WellFormed) (pattern : Pattern) :
    h.nodesMatching pattern = g.nodesMatching pattern := by
  refine List.Perm.eq_of_pairwise (fun a b _ _ lt gt => absurd (Std.lt_trans lt gt) Std.lt_irrefl)
    (sorted_nodesMatching h pattern) (sorted_nodesMatching g pattern) ?_
  refine (List.perm_ext_iff_of_nodup (nodup_nodesMatching h pattern)
    (nodup_nodesMatching g pattern)).2 fun n => ?_
  rw [mem_nodesMatching, mem_nodesMatching, s.contains wf, s.meta?]

theorem without (s : SameEdges g h) (cut : NodeId → NodeId → Bool) :
    SameEdges (g.without cut) (h.without cut) where
  wellFormed := wellFormed_without s.wellFormed
  edge a b := by rw [edge_without, edge_without, s.edge]
  meta? n := by
    have edges : ∀ c, h.hasEdge n c = g.hasEdge n c := by
      intro c
      rw [Bool.eq_iff_iff, hasEdge_iff, hasEdge_iff]
      exact s.edge n c
    simp only [meta?_without, s.meta?, edges]

theorem addEdge (s : SameEdges g h) (wf : g.WellFormed) (ne : a ≠ b) (ha : g.contains a)
    (hb : g.contains b) : SameEdges (g.addEdge a b).1 (h.addEdge a b).1 := by
  have moved := moved_addEdge wf ne ha hb
  have moved' := moved_addEdge s.wellFormed ne ((s.contains wf).2 ha) ((s.contains wf).2 hb)
  refine ⟨moved'.wellFormed, fun x y => ?_, fun n => ?_⟩
  · rw [moved'.edge, moved.edge, s.edge]
  · rw [moved'.meta?, moved.meta?, s.meta?]

theorem leaving (s : SameEdges g h) : leaving p h n t = leaving p g n t := by
  funext a b
  have held : Holds p h a n ↔ Holds p g a n := by
    have type : h.typeOf a = g.typeOf a := by rw [typeOf, s.meta?, typeOf]
    exact ⟨fun held => ⟨(s.edge a n).1 held.edge, type ▸ held.isGroup⟩,
      fun held => ⟨(s.edge a n).2 held.edge, type ▸ held.isGroup⟩⟩
  exact decide_eq_decide.2 (or_congr_left (and_congr_right' (and_congr_left' held)))

theorem moveInto (s : SameEdges g h) (wf : g.WellFormed) (outside : ¬Fits target g n) :
    SameEdges (moveInto p target g n).1 (moveInto p target h n).1 ∧
      (Arrangement.moveInto p target h n).2 = (Arrangement.moveInto p target g n).2 := by
  have same := nearest?_congr wf s.wellFormed outside s.edge s.meta?
  cases found : nearest? g n target with
  | none =>
    rw [moveInto_none found, moveInto_none (same.trans found)]
    exact ⟨s, rfl⟩
  | some t =>
    have near := (nearest?_eq_some_iff wf outside).1 found
    obtain ⟨here, there⟩ := near.contains wf (near.ne outside)
    rw [moveInto_eq wf found, moveInto_eq s.wellFormed (same.trans found), s.leaving]
    exact ⟨(s.without _).addEdge (wellFormed_without wf) (near.ne outside).symm
      (contains_without.2 there) (contains_without.2 here), rfl⟩

theorem moves {nodes : List NodeId} (s : SameEdges g h) (wf : g.WellFormed)
    (outside : ∀ m ∈ nodes, ¬Fits target g m) :
    SameEdges (each (Arrangement.moveInto p target) nodes g).1
        (each (Arrangement.moveInto p target) nodes h).1 ∧
      (each (Arrangement.moveInto p target) nodes h).2 =
        (each (Arrangement.moveInto p target) nodes g).2 := by
  induction nodes generalizing g h with
  | nil => exact ⟨s, rfl⟩
  | cons n nodes ih =>
    have here := outside n List.mem_cons_self
    obtain ⟨step, report⟩ := s.moveInto (p := p) wf here
    have kept := retained_moveInto (p := p) wf here
    obtain ⟨rest, reports⟩ := ih step kept.wellFormed fun m hm fits =>
      outside m (List.mem_cons_of_mem _ hm) (kept.fits.1 fits)
    rw [each_cons, each_cons]
    exact ⟨rest, by rw [report, reports]⟩

end SameEdges

/-- The nodes that a pattern matches are moved one after the other. If a node of the target's kind
    is within two steps at that moment, the nearest one is chosen, and in the end the node is in it,
    not above it, and in no other container; else the graph stays as it is, which is reported.
    Graphs with the same edges and metadata, in whatever order, lead to the same. -/
theorem move_nearest (wf : g.WellFormed) (p : Providers) (pattern target : Pattern)
    (apart : ∀ m, g.contains m → ¬(Fits pattern g m ∧ Fits target g m)) :
    (∀ before n after, g.nodesMatching pattern = before ++ n :: after →
      let now := (each (moveInto p target) before g).1
      let final := move p pattern target g
      ((∃ m, Fits target now m ∧ now.linked.edist n m ≤ 2) →
        ∃ t, nearest? now n target = some t ∧ Nearest now target n t ∧ Settled p final.1 n t ∧
          (moveInto p target now n).2 = []) ∧
      ((¬∃ m, Fits target now m ∧ now.linked.edist n m ≤ 2) →
        let report := skipped (some n) ("no '" ++ target.text ++ "' nearby to move into")
        moveInto p target now n = (now, [report]) ∧ report ∈ final.2) ∧
      ∀ h, SameEdges now h → nearest? h n target = nearest? now n target) ∧
    ∀ h, SameEdges g h → SameEdges (move p pattern target g).1 (move p pattern target h).1 ∧
      (move p pattern target h).2 = (move p pattern target g).2 := by
  have outside : ∀ m ∈ g.nodesMatching pattern, ¬Fits target g m := fun m selected fits =>
    apart m (mem_nodesMatching.1 selected).1 ⟨(mem_nodesMatching.1 selected).2, fits⟩
  refine ⟨fun before n after order => ?_, fun h s => ?_⟩
  · intro now final
    have nodup : (before ++ n :: after).Nodup := order ▸ nodup_nodesMatching g pattern
    rw [order] at outside
    have kept : Retained g now := retained_moves wf fun m hm => outside m (by simp [hm])
    have here : ¬Fits target now n := fun fits => outside n (by simp) (kept.fits.1 fits)
    have turns : final = each (moveInto p target) (before ++ n :: after) g := by
      rw [← order]
      rfl
    rw [each_append, each_cons] at turns
    refine ⟨fun close => ?_, fun far => ?_, fun h s => ?_⟩
    · cases found : nearest? now n target with
      | none => exact absurd close ((nearest?_eq_none_iff kept.wellFormed here).1 found)
      | some t =>
        have near := (nearest?_eq_some_iff kept.wellFormed here).1 found
        have step := retained_moveInto (p := p) kept.wellFormed here
        have settled : Settled p (moveInto p target now n).1 n t :=
          settled_moveInto kept.wellFormed here near
        refine ⟨t, rfl, near, ?_, by rw [moveInto_eq kept.wellFormed found]⟩
        rw [turns]
        refine settled.moves step.wellFormed (fun m hm fits => ?_) ?_
          fun fits => here (step.fits.1 fits)
        · exact outside m (by simp [hm]) (kept.fits.1 (step.fits.1 fits))
        · exact (List.nodup_cons.1 (List.nodup_append.1 nodup).2.1).1
    · have skips := moveInto_none (p := p) ((nearest?_eq_none_iff kept.wellFormed here).2 far)
      refine ⟨skips, ?_⟩
      rw [turns]
      refine List.mem_append_right _ (List.mem_append_left _ ?_)
      change _ ∈ (moveInto p target now n).2
      rw [skips]
      exact List.mem_singleton_self _
    · exact nearest?_congr kept.wellFormed s.wellFormed here s.edge s.meta?
  · unfold move
    rw [s.nodesMatching wf]
    exact s.moves wf outside

/-- A machine in a resource group, with an interface that is in a subnet. -/
def machine : Graph :=
  let one := ((Graph.empty "azurerm").addEdge "azurerm_resource_group.rg"
    "azurerm_linux_virtual_machine.vm").1
  let two := (one.addEdge "azurerm_linux_virtual_machine.vm" "azurerm_network_interface.nic").1
  (two.addEdge "azurerm_subnet.app" "azurerm_network_interface.nic").1

/-- The machine leaves its resource group for the subnet, which is two steps away. -/
theorem move_nearest_machine :
    let p : Providers := ⟨[⟨Azure.table, [], []⟩]⟩
    let pattern := Pattern.ofType "azurerm_linux_virtual_machine"
    let target := Pattern.ofType "azurerm_subnet"
    machine.WellFormed ∧
    (∀ m, machine.contains m → ¬(Fits pattern machine m ∧ Fits target machine m)) ∧
    machine.nodesMatching pattern = [] ++ "azurerm_linux_virtual_machine.vm" :: [] ∧
    (∃ m, Fits target machine m ∧
      machine.linked.edist "azurerm_linux_virtual_machine.vm" m ≤ 2) ∧
    Holds p machine "azurerm_resource_group.rg" "azurerm_linux_virtual_machine.vm" ∧
    Settled p (move p pattern target machine).1 "azurerm_linux_virtual_machine.vm"
      "azurerm_subnet.app" := by
  intro p pattern target
  have wf : machine.WellFormed := by
    unfold machine
    exact wellFormed_addEdge (wellFormed_addEdge (wellFormed_addEdge (wellFormed_empty "azurerm")))
  have apart : ∀ m, machine.contains m → ¬(Fits pattern machine m ∧ Fits target machine m) := by
    have each : ∀ m ∈ machine.nodes, (pattern.matchesNode m (machine.meta? m) &&
      target.matchesNode m (machine.meta? m)) = false := by decide +kernel
    rintro m there ⟨moved, place⟩
    have := each m (mem_nodes.2 there)
    rw [show pattern.matchesNode m (machine.meta? m) = true from moved,
      show target.matchesNode m (machine.meta? m) = true from place] at this
    cases this
  have order : machine.nodesMatching pattern = [] ++ "azurerm_linux_virtual_machine.vm" :: [] := by
    decide +kernel
  have first : machine.linked.Adj "azurerm_linux_virtual_machine.vm"
      "azurerm_network_interface.nic" :=
    (linked_adj wf).2 (.inl (hasEdge_iff.1 (by decide +kernel)))
  have second : machine.linked.Adj "azurerm_network_interface.nic" "azurerm_subnet.app" :=
    (linked_adj wf).2 (.inr (hasEdge_iff.1 (by decide +kernel)))
  have close : ∃ m, Fits target machine m ∧
      machine.linked.edist "azurerm_linux_virtual_machine.vm" m ≤ 2 :=
    ⟨"azurerm_subnet.app", show _ = true by decide +kernel,
      SimpleGraph.edist_le (.cons first (.cons second .nil))⟩
  have chosen : nearest? machine "azurerm_linux_virtual_machine.vm" target =
    some "azurerm_subnet.app" := by decide +kernel
  obtain ⟨t, found, -, settled, -⟩ :=
    ((move_nearest wf p pattern target apart).1 [] _ [] order).1 close
  cases Option.some.inj (chosen.symm.trans found)
  exact ⟨wf, apart, order, close, by decide +kernel, settled⟩

end Cartograph.Arrangement

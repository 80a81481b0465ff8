import Cartograph.Proofs.Containment
import Cartograph.Proofs.Placeholders

/-!
# What pruning keeps

Pruning removes edges one after the other, each of them redundant in the graph that the removals
before it have left (`Cut`, `pruned_prune`). A node so keeps a container all along, and an edge that
is redundant at some point was redundant from the beginning; at the end no redundant edge is left,
so that pruning again changes nothing (`prune_complete`). All this holds of graphs with cycles too.

A redundant edge is one from a container to what a container below it holds as well. If the inner
container is also below what it holds, the three are a *knot* (`Knot`), and the edge can be the only
way to all that is in it (`prune_severs`). Where no knot is between two nodes (`Untied`), as in any
graph without circles (`untied_of_acyclic`), pruning changes no ancestry, and what it takes from a
container stays in a container below it (`ancestors_prune`).
-/

namespace Cartograph.Containment

open Graph Arrangement

variable {g h : Graph} {p : Rules.Providers} {a b c n q u v : NodeId}

/-! ### Removals -/

/-- The removal of an edge from a container to what is also in a container below it. -/
inductive Cut (p : Rules.Providers) (g : Graph) : Graph → Prop
  | edge {a c q : NodeId} : Holds p g a c → Holds p g q c → q ≠ a → g.Above a q →
      Cut p g (g.removeEdge a c).1

/-- What such removals, one after the other, make of a graph. -/
def Pruned (p : Rules.Providers) : Graph → Graph → Prop := Relation.ReflTransGen (Cut p)

theorem holds_removeEdge :
    Holds p (g.removeEdge u v).1 a c ↔ Holds p g a c ∧ ¬(a = u ∧ c = v) := by
  constructor
  · rintro ⟨edge, group⟩
    obtain ⟨edge, other⟩ := edge_removeEdge.1 edge
    exact ⟨⟨edge, by rwa [typeOf_removeEdge] at group⟩, other⟩
  · rintro ⟨⟨edge, group⟩, other⟩
    exact ⟨edge_removeEdge.2 ⟨edge, other⟩, by rwa [typeOf_removeEdge]⟩

theorem Cut.wellFormed (wf : g.WellFormed) (cut : Cut p g h) : h.WellFormed := by
  cases cut
  exact wellFormed_removeEdge wf

theorem Cut.thinner (cut : Cut p g h) : Thinner h g := by
  cases cut
  exact thinner_removeEdge

/-- The edge that is gone was redundant. -/
theorem Cut.of_gone (cut : Cut p g h) (before : g.Edge a c) (gone : ¬h.Edge a c) :
    Holds p g a c ∧ ∃ q, q ≠ a ∧ Holds p g q c ∧ g.Above a q := by
  cases cut with
  | edge ha hq ne above =>
    rw [edge_removeEdge, not_and, not_not] at gone
    obtain ⟨rfl, rfl⟩ := gone before
    exact ⟨ha, _, ne, hq, above⟩

/-- A node that loses a container has another one. -/
theorem Cut.held (cut : Cut p g h) (held : Holds p g b c) : ∃ b, Holds p h b c := by
  cases cut with
  | @edge a v q _ hq ne _ =>
    by_cases same : b = a ∧ c = v
    · -- The inner container is another one, and keeps the node.
      obtain ⟨rfl, rfl⟩ := same
      exact ⟨q, holds_removeEdge.2 ⟨hq, fun same => ne same.1⟩⟩
    · exact ⟨b, holds_removeEdge.2 ⟨held, same⟩⟩

namespace Pruned

theorem wellFormed (wf : g.WellFormed) (pruned : Pruned p g h) : h.WellFormed := by
  induction pruned with
  | refl => exact wf
  | tail _ cut ih => exact cut.wellFormed ih

theorem thinner (pruned : Pruned p g h) : Thinner h g := by
  induction pruned with
  | refl => exact .refl g
  | tail _ cut ih => exact cut.thinner.trans ih

/-- What is redundant after some removals was redundant before them. -/
theorem of_gone (pruned : Pruned p g h) (before : g.Edge a c) (gone : ¬h.Edge a c) :
    Holds p g a c ∧ ∃ q, q ≠ a ∧ Holds p g q c ∧ g.Above a q := by
  induction pruned with
  | refl => exact absurd before gone
  | @tail g' _ earlier cut ih =>
    by_cases still : g'.Edge a c
    · obtain ⟨ha, q, ne, hq, above⟩ := cut.of_gone still gone
      have thinner := thinner earlier
      exact ⟨thinner.holds ha, q, ne, thinner.holds hq, thinner.above above⟩
    · exact ih still

theorem held (pruned : Pruned p g h) (held : Holds p g a c) : ∃ b, Holds p h b c := by
  induction pruned with
  | refl => exact ⟨a, held⟩
  | tail _ cut ih =>
    obtain ⟨b, hb⟩ := ih
    exact cut.held hb

end Pruned

/-! ### Pruning as removals -/

theorem pruned_pruneAt (wf : g.WellFormed) (group : p.isGroup (g.typeOf a)) :
    Pruned p g (pruneAt p g a) := by
  refine List.foldlRecOn (motive := Pruned p g) _ _ .refl fun h pruned c _ => ?_
  split
  · next redundant =>
    -- The children were listed at the beginning, so this edge need not be there any more.
    by_cases edge : h.Edge a c
    · obtain ⟨q, ne, hq, above⟩ := (isRedundant_iff (pruned.wellFormed wf).nodup).1 redundant
      exact pruned.tail (.edge ⟨edge, by rwa [pruned.thinner.typeOf]⟩ hq ne above)
    · rwa [removeEdge, if_neg (mt hasEdge_iff.1 edge)]
  · exact pruned

/-- Pruning a graph makes such removals, one after the other. -/
theorem pruned_prune (wf : g.WellFormed) : Pruned p g (prune p g) := by
  refine List.foldlRecOn (motive := Pruned p g) _ _ .refl fun h pruned a ha => ?_
  have group := (List.mem_filter.1 ha).2
  exact pruned.trans (pruned_pruneAt (pruned.wellFormed wf) (by rwa [pruned.thinner.typeOf]))

/-- There is nothing to remove if no container of a node is above another one of it. -/
theorem prune_of_bare (wf : g.WellFormed) (bare : Bare p g) : prune p g = g := by
  have atNode : ∀ a, p.isGroup (g.typeOf a) → pruneAt p g a = g := by
    intro a group
    refine List.foldlRecOn (motive := (· = g)) _ _ rfl fun h same c edge => ?_
    subst same
    refine if_neg fun redundant => ?_
    obtain ⟨q, ne, hq, above⟩ := (isRedundant_iff wf.nodup).1 redundant
    exact bare c a q ne.symm ⟨edge, group⟩ hq above
  refine List.foldlRecOn (motive := (· = g)) _ _ rfl fun h same a ha => ?_
  subst same
  exact atNode a (List.mem_filter.1 ha).2

/-- After pruning no container of a node is among the ancestors of another one of it. Every edge
    that was removed led from a container to what was in a container below it. No node has lost its
    last container, and pruning again changes nothing. -/
theorem prune_complete (p : Rules.Providers) (g : Graph) (wf : g.WellFormed) :
    (∀ c a q, q ≠ a → Holds p (prune p g) a c → Holds p (prune p g) q c →
      a ∉ (prune p g).ancestors q) ∧
    (∀ a c, (prune p g).Edge a c → g.Edge a c) ∧
    (∀ a c, g.Edge a c → ¬(prune p g).Edge a c →
      p.isGroup (g.typeOf a) ∧ ∃ q, q ≠ a ∧ Holds p g q c ∧ a ∈ g.ancestors q) ∧
    (∀ c, (∃ a, Holds p g a c) → ∃ a, Holds p (prune p g) a c) ∧
    prune p (prune p g) = prune p g := by
  have pruned : Pruned p g (prune p g) := pruned_prune wf
  have wf' := pruned.wellFormed wf
  have bare : Bare p (prune p g) := prune_bare wf
  refine ⟨fun c a q ne ha hq inside => ?_, pruned.thinner.edge, fun a c before gone => ?_,
    fun c ⟨a, held⟩ => pruned.held held, prune_of_bare wf' bare⟩
  · exact bare c a q ne.symm ha hq ((mem_ancestors_iff wf'.nodup).1 inside).2
  · obtain ⟨ha, q, ne, hq, above⟩ := pruned.of_gone before gone
    exact ⟨ha.isGroup, q, ne, hq, (mem_ancestors_iff wf.nodup).2 ⟨ne.symm, above⟩⟩

/-- Two subnets, each in the other, and a balancer in both. -/
def interlocked : Graph :=
  let g := ((Graph.empty "aws").addEdge "aws_subnet.a" "aws_subnet.b").1
  let g := ((g.addEdge "aws_subnet.b" "aws_subnet.a").1.addEdge "aws_subnet.a" "aws_lb.web").1
  (g.addEdge "aws_subnet.b" "aws_lb.web").1

theorem wellFormed_interlocked : interlocked.WellFormed :=
  wellFormed_addEdge (wellFormed_addEdge (wellFormed_addEdge (wellFormed_addEdge
    (wellFormed_empty "aws"))))

/-- The balancer is taken out of the subnet that comes first. -/
theorem children_prune_interlocked :
    Holds Validation.networks interlocked "aws_subnet.a" "aws_lb.web" ∧
    "aws_lb.web" ∉ (prune Validation.networks interlocked).children "aws_subnet.a" := by
  decide +kernel

/-- The theorem at containers that are in each other. -/
theorem prune_complete_interlocked : interlocked.WellFormed ∧
    Holds Validation.networks interlocked "aws_subnet.a" "aws_lb.web" ∧
    ¬(prune Validation.networks interlocked).Edge "aws_subnet.a" "aws_lb.web" ∧
    (∃ q, q ≠ "aws_subnet.a" ∧ Holds Validation.networks interlocked q "aws_lb.web" ∧
      "aws_subnet.a" ∈ interlocked.ancestors q) ∧
    (∃ a, Holds Validation.networks (prune Validation.networks interlocked) a "aws_lb.web") ∧
    prune Validation.networks (prune Validation.networks interlocked) =
      prune Validation.networks interlocked := by
  obtain ⟨held, gone⟩ := children_prune_interlocked
  obtain ⟨-, -, removed, kept, again⟩ :=
    prune_complete Validation.networks interlocked wellFormed_interlocked
  exact ⟨wellFormed_interlocked, held, gone, (removed _ _ held.edge gone).2, kept _ ⟨_, held⟩,
    again⟩

/-! ### Ancestors -/

/-- A way of any number of edges leads from a node to another. -/
def Leads (g : Graph) : NodeId → NodeId → Prop := Relation.ReflTransGen g.Edge

/-- A container of a node is above another one that is below the node. The edge from the outer one
    is redundant, but it can be on the only way to the inner one. -/
def Knot (p : Rules.Providers) (g : Graph) (a c : NodeId) : Prop :=
  ∃ q, q ≠ a ∧ Holds p g a c ∧ Holds p g q c ∧ g.Above a q ∧ g.Above c q

/-- No edge of a knot is on a way from a node to another. -/
def Untied (p : Rules.Providers) (g : Graph) (a n : NodeId) : Prop :=
  ∀ u v, Knot p g u v → Leads g a u → ¬Leads g v n

theorem leads_iff : Leads g a b ↔ a = b ∨ g.Above a b :=
  Relation.reflTransGen_iff_eq_or_transGen.trans (or_congr_left eq_comm)

theorem Thinner.leads (thinner : Thinner h g) (leads : Leads h a b) : Leads g a b :=
  Relation.ReflTransGen.mono thinner.edge _ _ leads

theorem Untied.of_thinner (untied : Untied p g a n) (thinner : Thinner h g) :
    Untied p h a n := by
  rintro u v ⟨q, ne, hu, hq, above, below⟩ first last
  exact untied u v ⟨q, ne, thinner.holds hu, thinner.holds hq, thinner.above above,
    thinner.above below⟩ (thinner.leads first) (thinner.leads last)

/-- A knot is part of a circle. -/
theorem untied_of_acyclic (acyclic : ∀ n, ¬g.Above n n) : Untied p g a n := by
  rintro u v ⟨q, -, -, hq, -, below⟩ - -
  exact acyclic v (below.tail hq.edge)

/-- What is between a node and a parent of another one is between the two. -/
theorem Untied.parent (untied : Untied p g a c) (edge : g.Edge b c) : Untied p g a b :=
  fun u v knot first last => untied u v knot first (last.tail edge)

/-- An edge that is on no way from a node to another can be removed. -/
theorem above_of_off (above : g.Above a b) (off : Leads g a u → ¬Leads g v b) :
    (g.removeEdge u v).1.Above a b := by
  induction above with
  | single edge =>
    refine .single (edge_removeEdge.2 ⟨edge, ?_⟩)
    rintro ⟨rfl, rfl⟩
    exact off .refl .refl
  | tail rest edge ih =>
    refine .tail (ih fun first last => off first (last.tail edge)) (edge_removeEdge.2 ⟨edge, ?_⟩)
    rintro ⟨rfl, rfl⟩
    exact off rest.to_reflTransGen .refl

/-- A removal keeps a node below another unless it unties a knot between them: the way to the inner
    container does not lead through the edge that goes, and from there on to its end. -/
theorem Cut.above (wf : g.WellFormed) (cut : Cut p g h) (untied : Untied p g a n)
    (above : g.Above a n) : h.Above a n := by
  cases cut with
  | @edge u v q hu hq ne inner =>
    by_cases off : Leads g a u → ¬Leads g v n
    · exact above_of_off above off
    -- The edge is on a way between the two, and so it is not part of a knot.
    obtain ⟨first, last⟩ : Leads g a u ∧ Leads g v n := by simpa using off
    have outside : ¬Leads g v q := by
      rw [leads_iff]
      rintro (rfl | below)
      · exact wf.noLoop v hq.edge
      · exact untied u v ⟨q, ne, hu, hq, inner, below⟩ first last
    have around : (g.removeEdge u v).1.Above u q := above_of_off inner fun _ => outside
    have onward : (g.removeEdge u v).1.Edge q v :=
      edge_removeEdge.2 ⟨hq.edge, fun same => ne same.1⟩
    refine above.lift fun x y edge => ?_
    by_cases same : x = u ∧ y = v
    · obtain ⟨rfl, rfl⟩ := same
      exact around.tail onward
    · exact .single (edge_removeEdge.2 ⟨edge, same⟩)

/-- What is in a container below a node stays in one. -/
theorem Cut.inner (wf : g.WellFormed) (cut : Cut p g h) (untied : Untied p g a c)
    (held : Holds p g b c) (above : g.Above a b) : ∃ q, Holds p h q c ∧ h.Above a q := by
  have kept : ∀ {q}, g.Edge q c → g.Above a q → h.Above a q := fun edge above =>
    cut.above wf (untied.parent edge) above
  cases cut with
  | @edge u v q _ hq ne lower =>
    by_cases same : b = u ∧ c = v
    · obtain ⟨rfl, rfl⟩ := same
      exact ⟨q, holds_removeEdge.2 ⟨hq, fun same => ne same.1⟩, kept hq.edge (above.trans lower)⟩
    · exact ⟨b, holds_removeEdge.2 ⟨held, same⟩, kept held.edge above⟩

namespace Pruned

theorem above (wf : g.WellFormed) (pruned : Pruned p g h) (untied : Untied p g a n)
    (above : g.Above a n) : h.Above a n := by
  induction pruned with
  | refl => exact above
  | tail earlier cut ih =>
    exact cut.above (wellFormed wf earlier) (untied.of_thinner (thinner earlier)) ih

/-- What was taken out of a container is in one below it. -/
theorem inner (wf : g.WellFormed) (pruned : Pruned p g h) (untied : Untied p g a c)
    (before : g.Edge a c) (gone : ¬h.Edge a c) : ∃ q, Holds p h q c ∧ h.Above a q := by
  induction pruned with
  | refl => exact absurd before gone
  | @tail g' _ earlier cut ih =>
    -- Before the last removal the node was in such a container, or in the outer one itself.
    have inside : ∃ q, Holds p g' q c ∧ g'.Above a q := by
      by_cases still : g'.Edge a c
      · obtain ⟨-, q, -, hq, above⟩ := cut.of_gone still gone
        exact ⟨q, hq, above⟩
      · exact ih still
    obtain ⟨q, hq, above⟩ := inside
    exact cut.inner (wellFormed wf earlier) (untied.of_thinner (thinner earlier)) hq above

end Pruned

/-- Pruning gives no node a new ancestor, and takes none away unless a knot is between the two. What
    it takes out of a container is in another one below it then. -/
theorem ancestors_prune (p : Rules.Providers) (g : Graph) (wf : g.WellFormed) :
    (∀ n a, a ∈ (prune p g).ancestors n → a ∈ g.ancestors n) ∧
    (∀ n a, Untied p g a n → (a ∈ (prune p g).ancestors n ↔ a ∈ g.ancestors n)) ∧
    ∀ a c, Untied p g a c → g.Edge a c → ¬(prune p g).Edge a c →
      ∃ q, Holds p (prune p g) q c ∧ a ∈ (prune p g).ancestors q := by
  have pruned : Pruned p g (prune p g) := pruned_prune wf
  have wf' := pruned.wellFormed wf
  have fewer : ∀ n a, a ∈ (prune p g).ancestors n → a ∈ g.ancestors n := by
    intro n a
    rw [mem_ancestors_iff wf'.nodup, mem_ancestors_iff wf.nodup]
    exact And.imp_right pruned.thinner.above
  refine ⟨fewer, fun n a untied => ⟨fewer n a, ?_⟩, fun a c untied before gone => ?_⟩
  · rw [mem_ancestors_iff wf'.nodup, mem_ancestors_iff wf.nodup]
    exact And.imp_right (pruned.above wf untied)
  · obtain ⟨q, hq, above⟩ := pruned.inner wf untied before gone
    have ne : a ≠ q := fun same => gone (same ▸ hq.edge)
    exact ⟨q, hq, (mem_ancestors_iff wf'.nodup).2 ⟨ne, above⟩⟩

/-- Whether a node is among those that lead to another. -/
def isLeading (g : Graph) (a b : NodeId) : Bool := a == b || (g.ancestors b).contains a

/-- Whether an edge that could be part of a knot is on no way from a node to another. -/
def isUntied (p : Rules.Providers) (g : Graph) (a n : NodeId) : Bool :=
  g.nodes.all fun c => (groupParents p g c).all fun u => (groupParents p g c).all fun q =>
    !((g.ancestors q).contains u && (g.ancestors q).contains c && isLeading g a u
      && isLeading g c n)

theorem isLeading_iff (nodup : g.nodes.Nodup) : isLeading g a b ↔ Leads g a b := by
  rw [isLeading, Bool.or_eq_true, beq_iff_eq, List.contains_iff_mem, mem_ancestors_iff nodup,
    leads_iff, or_and_left, and_iff_right (Decidable.em _)]

theorem untied_of_isUntied (wf : g.WellFormed) (h : isUntied p g a n) : Untied p g a n := by
  rintro u v ⟨q, ne, hu, hq, above, below⟩ first last
  have there := mem_nodes.2 (wf.closed u v hu.edge)
  have loop : v ≠ q := fun same => wf.noLoop v (same ▸ hq.edge : g.Edge v v)
  simp only [isUntied, List.all_eq_true, mem_groupParents wf.nodup] at h
  have off := h v there u hu q hq
  simp [mem_ancestors_iff wf.nodup, ne.symm, above, loop, below, (isLeading_iff wf.nodup).2 first,
    (isLeading_iff wf.nodup).2 last] at off

/-- A network with a subnet that is in a circle of subnets, and a balancer in another network and in
    a subnet of that one, in a circle with an instance. -/
def knotted : Graph :=
  let g := ((Graph.empty "aws").addEdge "aws_vpc.main" "aws_subnet.a").1
  let g := ((g.addEdge "aws_subnet.a" "aws_subnet.b").1.addEdge "aws_subnet.b" "aws_subnet.c").1
  let g := ((g.addEdge "aws_subnet.c" "aws_subnet.a").1.addEdge "aws_vpc.edge" "aws_subnet.d").1
  let g := ((g.addEdge "aws_subnet.d" "aws_lb.web").1.addEdge "aws_vpc.edge" "aws_lb.web").1
  ((g.addEdge "aws_lb.web" "aws_instance.i").1.addEdge "aws_instance.i" "aws_lb.web").1

theorem wellFormed_knotted : knotted.WellFormed := by
  repeat' apply wellFormed_addEdge
  exact wellFormed_empty "aws"

/-- The first network loses its subnet, and the second one the balancer. -/
theorem prune_knotted :
    isUntied Validation.networks knotted "aws_vpc.edge" "aws_lb.web" = true ∧
    ("aws_subnet.a" ∈ knotted.children "aws_vpc.main" ∧
      (prune Validation.networks knotted).children "aws_vpc.main" = [] ∧
      "aws_vpc.main" ∈ knotted.ancestors "aws_subnet.a" ∧
      "aws_vpc.main" ∉ (prune Validation.networks knotted).ancestors "aws_subnet.a") ∧
    Holds Validation.networks knotted "aws_vpc.edge" "aws_lb.web" ∧
    "aws_lb.web" ∉ (prune Validation.networks knotted).children "aws_vpc.edge" := by
  decide +kernel

/-- The theorem at the network whose subnet is in no circle. -/
theorem ancestors_prune_knotted : knotted.WellFormed ∧
    Untied Validation.networks knotted "aws_vpc.edge" "aws_lb.web" ∧
    knotted.Edge "aws_vpc.edge" "aws_lb.web" ∧
    ¬(prune Validation.networks knotted).Edge "aws_vpc.edge" "aws_lb.web" ∧
    "aws_vpc.edge" ∈ (prune Validation.networks knotted).ancestors "aws_lb.web" ∧
    ∃ q, Holds Validation.networks (prune Validation.networks knotted) q "aws_lb.web" ∧
      "aws_vpc.edge" ∈ (prune Validation.networks knotted).ancestors q := by
  obtain ⟨untied, -, held, gone⟩ := prune_knotted
  have wf := wellFormed_knotted
  have untied := untied_of_isUntied wf untied
  have above : "aws_vpc.edge" ∈ knotted.ancestors "aws_lb.web" :=
    (mem_ancestors_iff wf.nodup).2 ⟨by decide, held.edge.above⟩
  obtain ⟨-, same, inner⟩ := ancestors_prune Validation.networks knotted wf
  exact ⟨wf, untied, held.edge, gone, (same _ _ untied).2 above, inner _ _ untied held.edge gone⟩

/-- The only way from the first network to the last subnet of the circle leads through the edge that
    counts as redundant for it, so the network loses all of them. -/
theorem prune_severs : knotted.WellFormed ∧ knotted.Edge "aws_vpc.main" "aws_subnet.a" ∧
    ¬(prune Validation.networks knotted).Edge "aws_vpc.main" "aws_subnet.a" ∧
    "aws_vpc.main" ∈ knotted.ancestors "aws_subnet.a" ∧
    "aws_vpc.main" ∉ (prune Validation.networks knotted).ancestors "aws_subnet.a" := by
  obtain ⟨-, ⟨edge, none, above, lost⟩, -⟩ := prune_knotted
  refine ⟨wellFormed_knotted, edge, fun kept => ?_, above, lost⟩
  exact absurd kept (none ▸ List.not_mem_nil : "aws_subnet.a" ∉ _)

end Cartograph.Containment

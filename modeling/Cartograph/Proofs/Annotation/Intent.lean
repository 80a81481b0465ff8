import Cartograph.Proofs.Annotation.Sections

/-!
# What a user says wins

Each section of annotations has the last word on what it is about, in the order in which they
apply. Nothing is left that is to be removed. An edge that is to be removed does not come back
either, not even if the same annotations add it. All other edges that are to be added are there, as
long as their ends are (`Annotations.apply_intent`).

Patterns may overlap in any way: the nodes that one of them selects are the same before and after
all sections, but for those that come and go.
-/

namespace Cartograph.Annotations

open Graph Arrangement

variable {g : Graph} {p : Rules.Providers}

/-- Whatever the annotations and a well-formed graph are: in the end no pattern matches that is to
    be removed, and no node that the source of an entry to disconnect matches has a child that one
    of its targets matches. Any two nodes that were there before connecting, and that the source and
    a target of an entry to connect matched, are joined, unless one of them is gone or an entry
    disconnects them. -/
theorem apply_intent (wf : g.WellFormed) (notes : Annotations) (p : Rules.Providers) :
    (∀ q ∈ notes.remove, (notes.apply p g).1.nodesMatching q = []) ∧
    (∀ entry ∈ notes.disconnect, ∀ u ∈ (notes.apply p g).1.nodesMatching entry.1,
      ∀ v ∈ (notes.apply p g).1.children u, ∀ t ∈ entry.2,
        v ∉ (notes.apply p g).1.nodesMatching t) ∧
    ∀ entry ∈ notes.connect, ∀ link ∈ entry.2, ∀ u ∈ (notes.added g).nodesMatching entry.1,
      ∀ v ∈ (notes.added g).nodesMatching link.1, u ≠ v →
        (notes.apply p g).1.contains u → (notes.apply p g).1.contains v →
          (∀ d ∈ notes.disconnect, ¬Cuts (notes.apply p g).1 d u v) →
            (notes.apply p g).1.hasEdge u v := by
  have thinned := thinned_apply wf notes p
  have closed := thinned.wellFormed.closed
  refine ⟨fun q listed => ?_, fun entry listed u source v edge t inside target => ?_,
    fun entry listed link inside u source v target ne there there' uncut => ?_⟩
  · refine List.eq_nil_iff_forall_not_mem.2 fun n found => ?_
    have there := (mem_nodesMatching.1 found).1
    exact ((thinned.contains n).1 there).2 ⟨q, listed, (thinned.mem_nodesMatching there).1 found⟩
  · have old := (thinned.mem_nodesMatching (contains_of_mem_children edge)).1 source
    have old' := (thinned.mem_nodesMatching (closed u v edge)).1 target
    exact ((thinned.edge u v).1 edge).2.1 ⟨entry, listed, old, t, inside, old'⟩
  · have joined : (notes.connected p g).1.Edge u v :=
      edge_connected wf listed inside source target ne
    refine hasEdge_iff.2 ((thinned.edge u v).2 ⟨joined, ?_, ((thinned.contains u).1 there).2,
      ((thinned.contains v).1 there').2⟩)
    rintro ⟨d, listed, source, t, inside, target⟩
    exact uncut d listed ⟨(thinned.mem_nodesMatching there).2 source, t, inside,
      (thinned.mem_nodesMatching there').2 target⟩

/-- Two subnets, one of them with a balancer, and an instance. -/
def twoSubnets : Graph :=
  let g := ((Graph.empty "aws").addEdge "aws_subnet.a" "aws_lb.web").1
  ((g.ensureNode "aws_subnet.b").1.ensureNode "aws_instance.x").1

theorem wellFormed_twoSubnets : twoSubnets.WellFormed :=
  wellFormed_ensureNode (wellFormed_ensureNode (wellFormed_addEdge (wellFormed_empty "aws")))

/-- A new instance, all subnets joined with all instances and balancers, one of these edges taken
    back, and all balancers removed. -/
def overlapping : Annotations where
  title := none
  add := [("aws_instance.y", [])]
  connect := [(.ofType "aws_subnet", [(.ofType "aws_instance", none), (.ofType "aws_lb", none)])]
  disconnect := [(⟨"aws_subnet.b", none⟩, [⟨"aws_instance.y", none⟩])]
  remove := [.ofType "aws_lb"]
  update := []

/-- The second subnet and the old instance are still there. -/
theorem kept_overlapping :
    "aws_subnet.b" ∈ (overlapping.apply ⟨[]⟩ twoSubnets).1.nodesMatching ⟨"aws_subnet.b", none⟩ ∧
    "aws_subnet.b" ∈ (overlapping.added twoSubnets).nodesMatching (.ofType "aws_subnet") ∧
    "aws_instance.x" ∈ (overlapping.added twoSubnets).nodesMatching (.ofType "aws_instance") ∧
    (overlapping.apply ⟨[]⟩ twoSubnets).1.contains "aws_instance.x" = true ∧
    "aws_instance.x" ∉
      (overlapping.apply ⟨[]⟩ twoSubnets).1.nodesMatching ⟨"aws_instance.y", none⟩ := by
  decide +kernel

/-- The theorem at annotations whose sections contradict each other. -/
theorem apply_intent_overlapping : twoSubnets.WellFormed ∧
    (overlapping.apply ⟨[]⟩ twoSubnets).1.nodesMatching (.ofType "aws_lb") = [] ∧
    (∀ v ∈ (overlapping.apply ⟨[]⟩ twoSubnets).1.children "aws_subnet.b",
      v ∉ (overlapping.apply ⟨[]⟩ twoSubnets).1.nodesMatching ⟨"aws_instance.y", none⟩) ∧
    (overlapping.apply ⟨[]⟩ twoSubnets).1.hasEdge "aws_subnet.b" "aws_instance.x" := by
  obtain ⟨here, source, target, there, other⟩ := kept_overlapping
  obtain ⟨removed, disconnected, connected⟩ :=
    apply_intent wellFormed_twoSubnets overlapping ⟨[]⟩
  refine ⟨wellFormed_twoSubnets, removed _ List.mem_cons_self, fun v edge => ?_, ?_⟩
  · exact disconnected _ List.mem_cons_self _ here v edge _ List.mem_cons_self
  · refine connected _ List.mem_cons_self _ List.mem_cons_self _ source _ target (by decide)
      (mem_nodesMatching.1 here).1 there fun d inside cuts => ?_
    -- The one entry to disconnect is about another instance.
    obtain rfl := List.mem_singleton.1 inside
    obtain ⟨-, t, listed, cut⟩ := cuts
    obtain rfl := List.mem_singleton.1 listed
    exact other cut

end Cartograph.Annotations

import Cartograph.Proofs.Graph.Labels

/-!
# Replacing a child

What is expected of a child that is replaced by another one is that the new one stands in its place,
unless the parent had that too, that all other children keep their order, and that no other node's
children change (`Graph.Exchanged`); where there is no such child, nothing should change.

That is so with two exceptions (`Graph.replaceChild_exchanged`): a child that is replaced by itself
goes, and a new node that the graph does not have is made before the old one is looked for, so it is
there also if there was nothing to replace.
-/

namespace Cartograph.Graph

variable {g : Graph} {n parent old new : NodeId} {before after : List NodeId}

/-- A graph in which a new child of a node has taken the place of an old one. -/
structure Exchanged (g g' : Graph) (parent old new : NodeId) : Prop where
  came : g'.Edge parent new
  went : g'.Edge parent old → old = new
  /-- A new child that was there before stays where it was, among the others. -/
  order : ∀ before after, g.children parent = before ++ old :: after →
    g'.children parent =
      if new ∈ before ++ after then before ++ after else before ++ new :: after
  others : ∀ n, n ≠ parent → g'.children n = g.children n

/-- The old child is where the list is cut. -/
theorem replaceIn_append (nodup : (before ++ old :: after).Nodup) :
    replaceIn old new (before ++ old :: after) =
      if new ∈ before ++ old :: after then before ++ after else before ++ new :: after := by
  have fresh : old ∉ before := fun inside =>
    (List.nodup_append.1 nodup).2.2 old inside old List.mem_cons_self rfl
  unfold replaceIn
  simp only [List.contains_iff_mem]
  split
  · rw [List.erase_append_right _ fresh, List.erase_cons_head]
  · rw [List.replace_append_right fresh, List.replace_cons_self]

/-! ### What is replaced -/

theorem replaceChild_snd (ne : parent ≠ new) :
    (g.replaceChild parent old new).2 = g.hasEdge parent old := by
  have same : (g.ensureNode new).1.hasEdge parent old = g.hasEdge parent old := by
    rw [hasEdge, hasEdge, children_ensureNode]
  rw [replaceChild, if_neg ne]
  dsimp only
  rw [same]
  cases g.hasEdge parent old <;> rfl

theorem children_replaceChild_of_ne (ne : parent ≠ new) (other : n ≠ parent) :
    (g.replaceChild parent old new).1.children n = g.children n := by
  rw [children_replaceChild ne, if_neg fun h => other h.1.symm]

/-- The children of the parent, as they were cut at the old one. -/
theorem children_replaceChild_append (wf : g.WellFormed) (ne : parent ≠ new)
    (cut : g.children parent = before ++ old :: after) :
    (g.replaceChild parent old new).1.children parent =
      if new ∈ g.children parent then before ++ after else before ++ new :: after := by
  have there : old ∈ g.children parent := by simp [cut]
  rw [children_replaceChild ne, if_pos ⟨rfl, there⟩, cut]
  exact replaceIn_append (cut ▸ wf.noRepetition parent)

/-- Where there is nothing to replace, all that happens is that the new node is made. -/
theorem replaceChild_of_not_edge (ne : parent ≠ new) (gone : ¬g.Edge parent old) :
    (g.replaceChild parent old new).1 = (g.ensureNode new).1 := by
  rw [replaceChild_of_ne ne]
  exact if_neg fun edge => gone (hasEdge_iff.1 edge)

theorem ensureNode_of_contains (wf : g.WellFormed) (there : g.contains n) :
    (g.ensureNode n).1 = g := by
  have known : Keyed.contains n g.metadata = true := wf.contains_iff.1 there
  unfold ensureNode
  rw [if_pos there, if_pos known]

theorem ensureNode_eq_self_iff (wf : g.WellFormed) : (g.ensureNode n).1 = g ↔ g.contains n := by
  refine ⟨fun same => ?_, ensureNode_of_contains wf⟩
  rw [← same]
  exact contains_ensureNode.2 (.inl rfl)

/-! ### What is expected of it -/

/-- Another node takes the place of a child. -/
theorem exchanged_of_ne (wf : g.WellFormed) (ne : parent ≠ new) (edge : g.Edge parent old)
    (differ : old ≠ new) : Exchanged g (g.replaceChild parent old new).1 parent old new where
  came := (edge_replaceChild wf edge ne differ.symm).2 (.inr ⟨rfl, rfl⟩)
  went stays := by
    rcases (edge_replaceChild wf edge ne differ.symm).1 stays with ⟨-, off⟩ | ⟨-, same⟩
    · exact absurd ⟨rfl, rfl⟩ off
    · exact same
  order before after cut := by
    rw [children_replaceChild_append wf ne cut, cut]
    simp [differ.symm]
  others n other := children_replaceChild_of_ne ne other

/-- A child that is replaced by itself is a child no longer. -/
theorem not_edge_replaceChild_self (wf : g.WellFormed) (ne : parent ≠ old)
    (edge : g.Edge parent old) : ¬(g.replaceChild parent old old).1.Edge parent old := by
  rw [Edge, children_replaceChild ne, if_pos ⟨rfl, edge⟩]
  exact not_mem_replaceIn (wf.noRepetition parent) edge

/-- A child is replaced exactly if it is there; the parent's other children keep their order, and
    those of other nodes stay. What is expected comes about exactly if a child is not replaced by
    itself, and if a new node that has nothing to replace is in the graph already: otherwise the
    child goes, and the node is made. -/
theorem replaceChild_exchanged (wf : g.WellFormed) (ne : parent ≠ new) :
    let r := g.replaceChild parent old new
    (r.2 = true ↔ g.Edge parent old) ∧
      (r.2 = true → (Exchanged g r.1 parent old new ↔ old ≠ new)) ∧
      (r.2 = false → (r.1 = g ↔ g.contains new)) ∧
      (∀ n, n ≠ parent → r.1.children n = g.children n) ∧
      (∀ before after, g.children parent = before ++ old :: after → r.1.children parent =
        if new ∈ g.children parent then before ++ after else before ++ new :: after) ∧
      (r.2 = false → r.1 = (g.ensureNode new).1) := by
  intro r
  have replaced : r.2 = true ↔ g.Edge parent old := by
    rw [replaceChild_snd ne]
    exact hasEdge_iff
  have made : r.2 = false → r.1 = (g.ensureNode new).1 := fun refused =>
    replaceChild_of_not_edge ne fun edge => by simp [replaced.2 edge] at refused
  refine ⟨replaced, fun done => ⟨fun exchanged differ => ?_, exchanged_of_ne wf ne
    (replaced.1 done)⟩, fun refused => ?_, fun n other => children_replaceChild_of_ne ne other,
    fun before after cut => children_replaceChild_append wf ne cut, made⟩
  · subst differ
    exact not_edge_replaceChild_self wf ne (replaced.1 done) exchanged.came
  · rw [made refused]
    exact ensureNode_eq_self_iff wf

/-- The theorem where a subnet takes another one's place, and where the one that should go is
    missing. -/
theorem replaceChild_exchanged_signposted : signposted.WellFormed ∧
    Exchanged signposted (signposted.replaceChild "aws_vpc.a" "aws_subnet.b" "aws_subnet.c").1
      "aws_vpc.a" "aws_subnet.b" "aws_subnet.c" ∧
    (signposted.replaceChild "aws_vpc.a" "aws_subnet.d" "aws_subnet.c") = (signposted, false) := by
  have wf := wellFormed_signposted
  have differ : "aws_vpc.a" ≠ "aws_subnet.c" := by decide
  have there := @replaceChild_exchanged _ _ "aws_subnet.b" _ wf differ
  have missing := @replaceChild_exchanged _ _ "aws_subnet.d" _ wf differ
  have refused : (signposted.replaceChild "aws_vpc.a" "aws_subnet.d" "aws_subnet.c").2 = false := by
    decide +kernel
  refine ⟨wf, (there.2.1 (by decide +kernel)).2 (by decide), Prod.ext ?_ refused⟩
  exact (missing.2.2.1 refused).2 (by decide +kernel)

/-- A subnet that is replaced by itself is lost, and a subnet for which there is nothing to replace
    is made. -/
theorem replaceChild_unexpected : signposted.WellFormed ∧
    ((signposted.replaceChild "aws_vpc.a" "aws_subnet.b" "aws_subnet.b").2 = true ∧
      ¬(signposted.replaceChild "aws_vpc.a" "aws_subnet.b" "aws_subnet.b").1.Edge "aws_vpc.a"
        "aws_subnet.b") ∧
    (signposted.replaceChild "aws_vpc.a" "aws_subnet.x" "aws_subnet.d").2 = false ∧
      (signposted.replaceChild "aws_vpc.a" "aws_subnet.x" "aws_subnet.d").1 ≠ signposted := by
  refine ⟨wellFormed_signposted, ⟨by decide +kernel, fun edge => ?_⟩, by decide +kernel,
    fun same => ?_⟩
  · exact absurd (hasEdge_iff.2 edge) (by decide +kernel)
  · have made : (signposted.replaceChild "aws_vpc.a" "aws_subnet.x" "aws_subnet.d").1.contains
        "aws_subnet.d" = true := by decide +kernel
    rw [same] at made
    exact absurd made (by decide +kernel)

end Cartograph.Graph

import Mathlib.Logic.Relation
import Cartograph.Proofs.Graph.Integrity

/-!
# Ancestry

A node is above another if a path of edges leads from the one to the other (`Graph.Above`). The
search for ancestors finds exactly the other nodes that are above one (`mem_ancestors_iff`), also
where paths lead back to where they began: those from which the node is reached by a chain of edges
(`ancestors_reaching`).
-/

namespace Cartograph.Graph

variable {g g' : Graph} {n a b c : NodeId}

/-- There is an edge from a node to another. -/
def Edge (g : Graph) (a b : NodeId) : Prop := b ∈ g.children a

/-- A path of at least one edge leads from a node to another. -/
def Above (g : Graph) : NodeId → NodeId → Prop := Relation.TransGen g.Edge

instance : DecidableRel g.Edge := fun a b => inferInstanceAs (Decidable (b ∈ g.children a))

theorem Edge.above (h : g.Edge a b) : g.Above a b := .single h

theorem Edge.contains (h : g.Edge a b) : g.contains a := contains_of_mem_children h

theorem Above.contains (h : g.Above a b) : g.contains a := by
  obtain ⟨_, first, -⟩ := Relation.TransGen.head'_iff.1 h
  exact first.contains

/-- More edges leave every path. -/
theorem Above.mono (more : ∀ a b, g.Edge a b → g'.Edge a b) (h : g.Above a b) : g'.Above a b :=
  Relation.TransGen.mono more _ _ h

/-- A graph in which a path stands for each edge has a path for each path. -/
theorem Above.lift (paths : ∀ a b, g.Edge a b → g'.Above a b) (h : g.Above a b) : g'.Above a b :=
  Relation.TransGen.lift' id paths _ _ h

/-- Along a path an edge leads from each node to the next one. -/
theorem above_iff_exists_chain :
    g.Above a b ↔ ∃ via : List NodeId, (a :: (via ++ [b])).IsChain g.Edge := by
  constructor
  · intro h
    induction h using Relation.TransGen.head_induction_on with
    | single edge => exact ⟨[], .cons_cons edge (.singleton b)⟩
    | @head a c edge _ ih =>
      obtain ⟨via, chain⟩ := ih
      exact ⟨c :: via, .cons_cons edge chain⟩
  · rintro ⟨via, chain⟩
    induction via generalizing a with
    | nil => exact .single (List.isChain_cons_cons.1 chain).1
    | cons c via ih =>
      obtain ⟨edge, rest⟩ := List.isChain_cons_cons.1 chain
      exact .head edge (ih rest)

/-! ### Edges of changed graphs -/

theorem edge_insertNode {m : NodeMeta} : (g.insertNode n m).Edge a b ↔ g.Edge a b := by
  rw [Edge, Edge, children_insertNode]

theorem edge_addEdge {u v : NodeId} (ne : u ≠ v) :
    (g.addEdge u v).1.Edge a b ↔ g.Edge a b ∨ (a = u ∧ b = v) :=
  (mem_children_addEdge ne).trans (or_congr_right (and_congr_left' eq_comm))

theorem edge_removeEdge {u v : NodeId} :
    (g.removeEdge u v).1.Edge a b ↔ g.Edge a b ∧ ¬(a = u ∧ b = v) :=
  mem_children_removeEdge.trans
    (and_congr_right' (not_congr (and_congr_left' eq_comm)))

/-- A child that is there makes room for another one. -/
theorem edge_replaceChild (wf : g.WellFormed) {u old new : NodeId} (there : g.Edge u old)
    (ne : u ≠ new) (ne' : new ≠ old) : (g.replaceChild u old new).1.Edge a b ↔
      (g.Edge a b ∧ ¬(a = u ∧ b = old)) ∨ (a = u ∧ b = new) := by
  rw [Edge, Edge, children_replaceChild ne]
  by_cases e : u = a
  · subst e
    rw [if_pos ⟨rfl, there⟩, mem_replaceIn_iff (wf.noRepetition u) there ne', or_comm]
    simp
  · rw [if_neg fun h => e h.1]
    simp [Ne.symm e]

/-! ### Ancestors -/

/-- A path to a node from another, up to where it meets the node first. -/
theorem reached_of_above (nodup : g.nodes.Nodup) (h : g.Above a n) (ne : a ≠ n) :
    Reached g.parents (g.nodes.erase n) (g.parents n) a := by
  have inside : ∀ {a b}, g.Edge a b → a ≠ n → a ∈ g.nodes.erase n := fun edge ne =>
    (List.mem_erase_of_ne ne).2 (mem_nodes.2 edge.contains)
  induction h using Relation.TransGen.head_induction_on with
  | single edge => exact .seed (inside edge ne) ((mem_parents nodup).2 edge)
  | @head a b edge _ ih =>
    by_cases e : b = n
    · exact .seed (inside edge ne) ((mem_parents nodup).2 (e ▸ edge))
    · exact .step (ih e) (inside edge ne) ((mem_parents nodup).2 edge)

theorem above_of_reached (nodup : g.nodes.Nodup)
    (h : Reached g.parents (g.nodes.erase n) (g.parents n) a) : g.Above a n := by
  induction h with
  | seed _ parent => exact .single ((mem_parents nodup).1 parent)
  | step _ _ parent ih => exact .head ((mem_parents nodup).1 parent) ih

/-- The ancestors of a node are the other nodes above it. -/
theorem mem_ancestors_iff (nodup : g.nodes.Nodup) : a ∈ g.ancestors n ↔ a ≠ n ∧ g.Above a n := by
  rw [ancestors, mem_reach_iff]
  constructor
  · intro h
    refine ⟨fun e => ?_, above_of_reached nodup h⟩
    exact (List.Nodup.mem_erase_iff nodup).1 h.inside |>.1 e
  · rintro ⟨ne, h⟩
    exact reached_of_above nodup h ne

/-- In a graph of distinct nodes the ancestors of a node are found once each. They are the other
    nodes from which a chain of one edge or more leads to it, whether or not it leads on to them
    again. -/
theorem ancestors_reaching (nodup : g.nodes.Nodup) (n : NodeId) :
    (g.ancestors n).Nodup ∧ ∀ a, a ∈ g.ancestors n ↔
      a ≠ n ∧ ∃ via : List NodeId, (a :: (via ++ [n])).IsChain g.Edge :=
  ⟨nodup_reach (nodup.erase n), fun _ =>
    (mem_ancestors_iff nodup).trans (and_congr_right' above_iff_exists_chain)⟩

/-- A network with a subnet of two servers, one of which refers back to the network. -/
def looped : Graph where
  adjacency := [("aws_vpc.main", ["aws_subnet.a"]),
    ("aws_subnet.a", ["aws_instance.web", "aws_instance.db"]),
    ("aws_instance.web", ["aws_vpc.main"]), ("aws_instance.db", [])]
  metadata := []
  provider := "aws"
  title := none

/-- The theorem on a cycle, of which no node is its own ancestor, and behind it. -/
theorem ancestors_reaching_looped :
    looped.nodes.Nodup ∧
      ["aws_vpc.main", "aws_subnet.a", "aws_instance.web", "aws_vpc.main"].IsChain looped.Edge ∧
      "aws_vpc.main" ∉ looped.ancestors "aws_vpc.main" ∧
      ["aws_vpc.main", "aws_subnet.a", "aws_instance.web"] ⊆
        looped.ancestors "aws_instance.db" := by
  have nodup : looped.nodes.Nodup := by decide +kernel
  have reaching := fun n => (ancestors_reaching nodup n).2
  refine ⟨nodup, by decide +kernel, fun inside => ((reaching _ _).1 inside).1 rfl, ?_⟩
  simp only [List.cons_subset, reaching]
  exact ⟨⟨by decide, ["aws_subnet.a"], by decide +kernel⟩, ⟨by decide, [], by decide +kernel⟩,
    ⟨by decide, ["aws_vpc.main", "aws_subnet.a"], by decide +kernel⟩, List.nil_subset _⟩

end Cartograph.Graph

import Mathlib.Data.List.Sort
import Cartograph.Proofs.Graph.Labels

/-!
# Sequences of calls

A graph is built from one without nodes by calls of the mutators and by changes of metadata, in
whatever order and with whatever arguments (`Graph.performed`). A graph is *consistent* if it is
well formed and its metadata are sorted by node; each call keeps that (`Consistent.apply`), and so
does a sequence of calls (`Consistent.performed`). The two stores of a graph that was built so have
the same keys, and the check for missing metadata and children finds nothing
(`performed_consistent`).
-/

namespace Cartograph.Graph

variable {g : Graph}

/-- A call of a mutator, or a change of the metadata of a node. -/
inductive Call
  | mutation (μ : Mutation)
  | modifyMeta (node : NodeId) (f : NodeMeta → NodeMeta)

/-- What becomes of a graph. -/
def Call.apply (g : Graph) : Call → Graph
  | mutation μ => μ.apply g
  | modifyMeta node f => g.modifyMeta node f

/-- What becomes of a graph by several calls, one after the other. -/
def performed (g : Graph) (calls : List Call) : Graph := calls.foldl Call.apply g

/-! ### Consistent graphs -/

/-- Nodes, children and metadata go together, and metadata stand in the order of their nodes. -/
structure Consistent (g : Graph) : Prop where
  wellFormed : g.WellFormed
  sorted : Keyed.IsSorted g.metadata

theorem consistent_empty (provider : String) : (Graph.empty provider).Consistent :=
  ⟨wellFormed_empty provider, List.Pairwise.nil⟩

theorem Consistent.mutate (h : g.Consistent) (μ : Mutation) : (μ.apply g).Consistent := by
  obtain ⟨wf, sorted⟩ := h
  cases μ with
  | insertNode => exact ⟨wellFormed_insertNode wf, sorted_insertNode sorted⟩
  | ensureNode => exact ⟨wellFormed_ensureNode wf, sorted_ensureNode sorted⟩
  | removeNode => exact ⟨wellFormed_removeNode wf, sorted_removeNode sorted⟩
  | renameNode => exact ⟨wellFormed_renameNode wf, sorted_renameNode sorted⟩
  | addEdge => exact ⟨wellFormed_addEdge wf, sorted_addEdge sorted⟩
  | removeEdge => exact ⟨wellFormed_removeEdge wf, sorted_removeEdge sorted⟩
  | replaceChild => exact ⟨wellFormed_replaceChild wf, sorted_replaceChild sorted⟩

/-- What one call keeps. -/
theorem Consistent.apply (h : g.Consistent) (call : Call) : (call.apply g).Consistent := by
  cases call with
  | mutation μ => exact h.mutate μ
  | modifyMeta => exact ⟨wellFormed_modifyMeta h.wellFormed, sorted_modifyMeta h.sorted⟩

/-- What a sequence of calls keeps. -/
theorem Consistent.performed (h : g.Consistent) (calls : List Call) :
    (g.performed calls).Consistent := by
  unfold Graph.performed
  induction calls generalizing g with
  | nil => exact h
  | cons call rest ih => exact ih (h.apply call)

/-- The nodes that have metadata are the nodes of the adjacency; each stands once in either. -/
theorem Consistent.metadata_keys (h : g.Consistent) : g.metadata.map (·.1) = g.sortedNodes := by
  have same : ∀ n, n ∈ g.metadata.map (·.1) ↔ n ∈ g.sortedNodes := fun n => by
    rw [mem_sortedNodes, h.wellFormed.contains_iff, ← Keyed.find?_isSome_iff, meta?]
  exact List.Pairwise.eq_of_mem_iff h.sorted (Keyed.pairwise_keySet g.nodes) same

/-- Whatever calls a graph is built by: its metadata are those of its nodes, all its children are
    nodes, no node stands twice, has a child twice or is its own child, and no check finds that
    anything is missing. -/
theorem performed_consistent (provider : String) (calls : List Call) :
    let g := (Graph.empty provider).performed calls
    g.metadata.map (·.1) = g.sortedNodes ∧ g.nodes.Nodup ∧
      (∀ x ∈ g.adjacency, (∀ c ∈ x.2, c ∈ g.nodes) ∧ x.2.Nodup ∧ x.1 ∉ x.2) ∧
      ∀ phase, g.checkIntegrity phase = .ok () := by
  intro g
  have h : g.Consistent := (consistent_empty provider).performed calls
  have wf := h.wellFormed
  refine ⟨h.metadata_keys, wf.nodup, fun x inside => ?_, wf.check⟩
  obtain ⟨n, cs⟩ := x
  obtain ⟨-, rfl⟩ := (mem_adjacency_iff wf.nodup).1 inside
  exact ⟨fun c child => mem_nodes.2 (wf.closed n c child), wf.noRepetition n, wf.noLoop n⟩

end Cartograph.Graph

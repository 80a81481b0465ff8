import Mathlib.Data.List.Perm.Subperm
import Cartograph.Arrangement.Step
import Cartograph.Proofs.Graph.Ancestry

/-!
# Moving edges

Mutators that are given nodes that are there change nothing but edges (`Graph.Moved`), and so does a
loop over several nodes. A node's new name stands wherever the old one stood (`edge_renameNode`).
-/

namespace Cartograph.Graph

open Arrangement

variable {g g' g'' : Graph} {n a b u v old new : NodeId} {cs : List NodeId}

/-- A graph with the same nodes and the same metadata, and with the given edges. -/
structure Moved (g g' : Graph) (edges : NodeId → NodeId → Prop) : Prop where
  wellFormed : g'.WellFormed
  contains : ∀ n, g'.contains n ↔ g.contains n
  meta? : ∀ n, g'.meta? n = g.meta? n
  edge : ∀ a b, g'.Edge a b ↔ edges a b

theorem Moved.refl (wf : g.WellFormed) : Moved g g g.Edge :=
  ⟨wf, fun _ => .rfl, fun _ => rfl, fun _ _ => .rfl⟩

theorem Moved.typeOf {edges : NodeId → NodeId → Prop} (h : Moved g g' edges) (n : NodeId) :
    g'.typeOf n = g.typeOf n := by
  rw [Graph.typeOf, h.meta?, Graph.typeOf]

/-- Edges after one move and then another. -/
theorem Moved.trans {edges edges' : NodeId → NodeId → Prop} (h : Moved g g' edges)
    (h' : Moved g' g'' edges') : Moved g g'' edges' :=
  ⟨h'.wellFormed, fun n => (h'.contains n).trans (h.contains n),
    fun n => (h'.meta? n).trans (h.meta? n), h'.edge⟩

theorem Moved.of_iff {edges edges' : NodeId → NodeId → Prop} (h : Moved g g' edges)
    (same : ∀ a b, edges a b ↔ edges' a b) : Moved g g' edges' :=
  { h with edge := fun a b => (h.edge a b).trans (same a b) }

theorem moved_addEdge (wf : g.WellFormed) (ne : u ≠ v) (hu : g.contains u) (hv : g.contains v) :
    Moved g (g.addEdge u v).1 fun a b => g.Edge a b ∨ (a = u ∧ b = v) where
  wellFormed := wellFormed_addEdge wf
  contains n := by
    rw [contains_addEdge ne]
    constructor
    · rintro (rfl | rfl | there)
      · exact hu
      · exact hv
      · exact there
    · exact fun there => .inr (.inr there)
  meta? n := by
    rw [meta?_addEdge ne]
    by_cases there : g.contains n
    · obtain ⟨m, hm⟩ := wf.exists_meta there
      rw [hm]
      rfl
    · have other : u ≠ n ∧ v ≠ n := ⟨fun same => there (same ▸ hu), fun same => there (same ▸ hv)⟩
      rw [if_neg other.1, if_neg other.2, Option.or_none, Option.or_none]
  edge _ _ := edge_addEdge ne

theorem moved_replaceChild (wf : g.WellFormed) (there : g.Edge u old) (ne : u ≠ new)
    (ne' : new ≠ old) (hn : g.contains new) : Moved g (g.replaceChild u old new).1 fun a b =>
      (g.Edge a b ∧ ¬(a = u ∧ b = old)) ∨ (a = u ∧ b = new) where
  wellFormed := wellFormed_replaceChild wf
  contains n := by
    rw [contains_replaceChild ne]
    exact ⟨fun h => h.elim (fun same => same ▸ hn) id, .inr⟩
  meta? n := by
    rw [meta?_replaceChild ne]
    by_cases there : g.contains n
    · obtain ⟨m, hm⟩ := wf.exists_meta there
      rw [hm]
      rfl
    · have other : new ≠ n := fun same => there (same ▸ hn)
      rw [if_neg other, Option.or_none]
  edge _ _ := edge_replaceChild wf there ne ne'

/-! ### Loops -/

/-- From one node to several; it is not made its own child. -/
theorem moved_addChildren (wf : g.WellFormed) (hu : g.contains u) (there : ∀ c ∈ cs, g.contains c) :
    Moved g (addChildren u cs g) fun a b => g.Edge a b ∨ (a = u ∧ b ∈ cs ∧ a ≠ b) := by
  unfold addChildren eachSilent
  induction cs generalizing g with
  | nil => exact (Moved.refl wf).of_iff fun a b => by simp
  | cons c rest ih =>
    rw [List.forall_mem_cons] at there
    rw [List.foldl_cons]
    by_cases same : u = c
    · subst same
      rw [addEdge_self]
      refine (ih wf hu there.2).of_iff fun a b => or_congr_right ?_
      rw [List.mem_cons]
      constructor
      · exact fun ⟨first, inside, ne⟩ => ⟨first, .inr inside, ne⟩
      · exact fun ⟨first, inside, ne⟩ =>
          ⟨first, inside.resolve_left fun same => ne (first.trans same.symm), ne⟩
    · have first := moved_addEdge wf same hu there.1
      have later := ih first.wellFormed ((first.contains u).2 hu) fun d inside =>
        (first.contains d).2 (there.2 d inside)
      refine (first.trans later).of_iff fun a b => ?_
      rw [first.edge, List.mem_cons, or_assoc]
      refine or_congr_right ⟨?_, ?_⟩
      · rintro (⟨rfl, rfl⟩ | ⟨source, inside, ne⟩)
        · exact ⟨rfl, .inl rfl, same⟩
        · exact ⟨source, .inr inside, ne⟩
      · rintro ⟨source, here | inside, ne⟩
        · exact .inl ⟨source, here⟩
        · exact .inr ⟨source, inside, ne⟩

/-- From several nodes to one. -/
theorem moved_addParents (wf : g.WellFormed) (hn : g.contains n)
    (others : ∀ c ∈ cs, c ≠ n ∧ g.contains c) :
    Moved g (eachSilent (fun g c => (g.addEdge c n).1) cs g) fun a b =>
      g.Edge a b ∨ (a ∈ cs ∧ b = n) := by
  unfold eachSilent
  induction cs generalizing g with
  | nil => exact (Moved.refl wf).of_iff fun a b => by simp
  | cons c rest ih =>
    rw [List.forall_mem_cons] at others
    have first := moved_addEdge wf others.1.1 others.1.2 hn
    have later := ih first.wellFormed ((first.contains n).2 hn) fun d inside =>
      ⟨(others.2 d inside).1, (first.contains d).2 (others.2 d inside).2⟩
    refine (first.trans later).of_iff fun a b => ?_
    rw [first.edge, List.mem_cons, or_and_right, or_assoc]

/-- Several parents of a node get another child in its place. -/
theorem moved_replaceChildren (wf : g.WellFormed) (hn : g.contains new) (ne : new ≠ old)
    (nodup : cs.Nodup) (parents : ∀ c ∈ cs, c ≠ new ∧ g.Edge c old) :
    Moved g (eachSilent (fun g c => (g.replaceChild c old new).1) cs g) fun a b =>
      (g.Edge a b ∧ ¬(a ∈ cs ∧ b = old)) ∨ (a ∈ cs ∧ b = new) := by
  unfold eachSilent
  induction cs generalizing g with
  | nil => exact (Moved.refl wf).of_iff fun a b => by simp
  | cons c rest ih =>
    obtain ⟨fresh, nodup⟩ := List.nodup_cons.1 nodup
    rw [List.forall_mem_cons] at parents
    have first := moved_replaceChild wf parents.1.2 parents.1.1 ne hn
    have later := ih first.wellFormed ((first.contains new).2 hn) nodup fun d inside =>
      ⟨(parents.2 d inside).1, (first.edge d old).2
        (.inl ⟨(parents.2 d inside).2, fun same => fresh (same.1 ▸ inside)⟩)⟩
    refine (first.trans later).of_iff fun a b => ?_
    rw [first.edge, List.mem_cons]
    constructor
    · rintro (⟨⟨edge, off⟩ | ⟨rfl, rfl⟩, off'⟩ | ⟨inside, rfl⟩)
      · exact .inl ⟨edge, fun h => h.1.elim (fun same => off ⟨same, h.2⟩) fun h' => off' ⟨h', h.2⟩⟩
      · exact .inr ⟨.inl rfl, rfl⟩
      · exact .inr ⟨.inr inside, rfl⟩
    · rintro (⟨edge, off⟩ | ⟨rfl | inside, rfl⟩)
      · exact .inl ⟨.inl ⟨edge, fun h => off ⟨.inl h.1, h.2⟩⟩, fun h => off ⟨.inr h.1, h.2⟩⟩
      · exact .inl ⟨.inr ⟨rfl, rfl⟩, fun h => ne h.2⟩
      · exact .inr ⟨inside, rfl⟩

/-! ### Names -/

theorem renamed_old : renamed old new old = new := if_pos rfl

theorem renamed_of_ne (ne : n ≠ old) : renamed old new n = n := if_neg ne

theorem edge_renameNode (can : g.Renameable old new) :
    (g.renameNode old new).1.Edge a b ↔
      ∃ x y, g.Edge x y ∧ a = renamed old new x ∧ b = renamed old new y := by
  have new_childless : g.children new = [] := children_of_not_contains can.2.2
  rw [Edge, children_renameNode can]
  constructor
  · intro inside
    split at inside
    · next same =>
      obtain ⟨y, edge, rfl⟩ := List.mem_map.1 inside
      exact ⟨old, y, edge, same.trans renamed_old.symm, rfl⟩
    · split at inside
      · exact absurd inside List.not_mem_nil
      · next other =>
        obtain ⟨y, edge, rfl⟩ := List.mem_map.1 inside
        exact ⟨a, y, edge, (renamed_of_ne other).symm, rfl⟩
  · rintro ⟨x, y, edge, rfl, rfl⟩
    have ne : x ≠ new := by
      rintro rfl
      rw [Edge, new_childless] at edge
      exact List.not_mem_nil edge
    by_cases same : x = old
    · subst same
      rw [renamed_old, if_pos rfl]
      exact List.mem_map_of_mem edge
    · rw [renamed_of_ne same, if_neg ne, if_neg same]
      exact List.mem_map_of_mem edge

/-! ### How many nodes there are -/

/-- A graph has no more nodes than a list that has all of them. -/
theorem WellFormed.size_le (wf : g.WellFormed) {l : List NodeId}
    (listed : ∀ n, g.contains n → n ∈ l) : g.size ≤ l.length := by
  have sub : g.nodes ⊆ l := fun n inside => listed n (mem_nodes.1 inside)
  have le := (List.subperm_of_subset wf.nodup sub).length_le
  rwa [nodes, List.length_map] at le

end Cartograph.Graph

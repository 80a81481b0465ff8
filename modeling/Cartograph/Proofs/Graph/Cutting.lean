import Cartograph.Arrangement.Step
import Cartograph.Proofs.Graph.Ancestry

/-!
# Cutting edges

Removing edges one after the other, each with its label, removes all of them at once
(`Graph.eachSilent_removeEdge`), so it does not matter in which order they go, and a test that
selects them may be replaced by any other that selects the same of the edges that are there
(`Graph.without_congr`). What is left of the children of a node stays in its order.
-/

namespace Cartograph.Graph

open Arrangement

variable {g : Graph} {cut cut' : NodeId → NodeId → Bool} {n a b c : NodeId}

/-- Metadata without the labels of the edges to some children. -/
def dropLabels (gone : NodeId → Bool) (m : NodeMeta) : NodeMeta :=
  { m with edgeLabels := m.edgeLabels.filter fun x => !gone x.1 }

/-- The graph without the edges that a test selects and without their labels. -/
def without (g : Graph) (cut : NodeId → NodeId → Bool) : Graph :=
  { g with
    adjacency := g.adjacency.map fun x => (x.1, x.2.filter fun c => !cut x.1 c)
    metadata := g.metadata.map fun x =>
      (x.1, dropLabels (fun c => g.hasEdge x.1 c && cut x.1 c) x.2) }

/-! ### Views -/

theorem nodes_without : (g.without cut).nodes = g.nodes := by
  rw [nodes, nodes, without, List.map_map]
  rfl

theorem contains_without : (g.without cut).contains n ↔ g.contains n := by
  rw [← mem_nodes, ← mem_nodes, nodes_without]

theorem children_without :
    (g.without cut).children n = (g.children n).filter fun c => !cut n c := by
  have found : Keyed.find? n (g.without cut).adjacency =
      (Keyed.find? n g.adjacency).map fun cs => cs.filter fun c => !cut n c :=
    Keyed.find?_map_value fun n (cs : List NodeId) => cs.filter fun c => !cut n c
  rw [children, children, found]
  cases Keyed.find? n g.adjacency <;> rfl

theorem edge_without : (g.without cut).Edge a b ↔ g.Edge a b ∧ cut a b = false := by
  rw [Edge, children_without, List.mem_filter, Bool.not_eq_true']
  rfl

theorem meta?_without : (g.without cut).meta? n =
    (g.meta? n).map (dropLabels fun c => g.hasEdge n c && cut n c) :=
  Keyed.find?_map_value fun n => dropLabels fun c => g.hasEdge n c && cut n c

theorem typeOf_without : (g.without cut).typeOf n = g.typeOf n := by
  rw [typeOf, typeOf, meta?_without]
  cases g.meta? n <;> rfl

theorem wellFormed_without (wf : g.WellFormed) : (g.without cut).WellFormed where
  nodup := by
    rw [nodes_without]
    exact wf.nodup
  sameNodes n := by
    rw [Bool.eq_iff_iff, contains_without, meta?_without, Option.isSome_map, wf.sameNodes]
  closed n c inside := contains_without.2 (wf.closed n c (edge_without.1 inside).1)
  noRepetition n := by
    rw [children_without]
    exact (wf.noRepetition n).filter _
  noLoop n inside := wf.noLoop n (edge_without.1 inside).1

/-! ### Tests that select the same -/

theorem hasEdge_of_mem (nodup : g.nodes.Nodup) {cs : List NodeId} (h : (n, cs) ∈ g.adjacency)
    (inside : c ∈ cs) : g.hasEdge n c := by
  obtain ⟨-, rfl⟩ := (mem_adjacency_iff nodup).1 h
  exact hasEdge_iff.2 inside

/-- Only edges that are there matter. -/
theorem without_congr (nodup : g.nodes.Nodup)
    (same : ∀ a b, g.Edge a b → cut a b = cut' a b) : g.without cut = g.without cut' := by
  have adjacency : ∀ x ∈ g.adjacency, (x.1, x.2.filter fun c => !cut x.1 c) =
      (x.1, x.2.filter fun c => !cut' x.1 c) := fun x there =>
    congrArg (x.1, ·) (List.filter_congr fun c inside => by
      rw [same x.1 c (hasEdge_iff.1 (hasEdge_of_mem nodup there inside))])
  have labels : ∀ n c, (g.hasEdge n c && cut n c) = (g.hasEdge n c && cut' n c) := by
    intro n c
    cases edge : g.hasEdge n c with
    | false => rfl
    | true => rw [same n c (hasEdge_iff.1 edge)]
  refine (Graph.mk.injEq ..).mpr ⟨List.map_congr_left adjacency, ?_, rfl, rfl⟩
  exact List.map_congr_left fun x _ => congrArg (x.1, dropLabels · x.2) (funext (labels x.1))

theorem dropLabels_none (m : NodeMeta) : dropLabels (fun _ => false) m = m := by
  simp [dropLabels]

theorem without_none (nodup : g.nodes.Nodup) (none : ∀ a b, g.Edge a b → cut a b = false) :
    g.without cut = g := by
  have same : g.without cut = g.without fun _ _ => false := without_congr nodup none
  rw [same, without]
  simp [dropLabels_none]

theorem dropLabels_dropLabels (gone gone' : NodeId → Bool) (m : NodeMeta) :
    dropLabels gone' (dropLabels gone m) = dropLabels (fun c => gone c || gone' c) m := by
  unfold dropLabels
  dsimp only
  rw [List.filter_filter]
  congr 1
  exact List.filter_congr fun x _ => by rw [Bool.not_or, Bool.and_comm]

/-- Cutting in two steps. -/
theorem without_without :
    (g.without cut).without cut' = g.without fun a b => cut a b || cut' a b := by
  have edges : ∀ n c, (g.without cut).hasEdge n c = (g.hasEdge n c && !cut n c) := by
    intro n c
    rw [Bool.eq_iff_iff, hasEdge_iff, Bool.and_eq_true, hasEdge_iff, Bool.not_eq_true']
    exact edge_without
  have children : ∀ n (cs : List NodeId),
      (cs.filter fun c => !cut n c).filter (fun c => !cut' n c) =
        cs.filter fun c => !(cut n c || cut' n c) := by
    intro n cs
    rw [List.filter_filter]
    exact List.filter_congr fun c _ => by rw [Bool.not_or, Bool.and_comm]
  -- An edge that is cut twice has lost its label the first time.
  have labels : ∀ n m, dropLabels (fun c => (g.without cut).hasEdge n c && cut' n c)
      (dropLabels (fun c => g.hasEdge n c && cut n c) m) =
        dropLabels (fun c => g.hasEdge n c && (cut n c || cut' n c)) m := by
    intro n m
    rw [dropLabels_dropLabels]
    congr 1
    funext c
    rw [edges]
    cases g.hasEdge n c <;> cases cut n c <;> rfl
  refine (Graph.mk.injEq ..).mpr ⟨?_, ?_, rfl, rfl⟩
  · refine List.map_map.trans (List.map_congr_left fun x _ => ?_)
    exact congrArg (x.1, ·) (children x.1 x.2)
  · refine List.map_map.trans (List.map_congr_left fun x _ => ?_)
    exact congrArg (x.1, ·) (labels x.1 x.2)

/-! ### One edge after the other -/

/-- Removing an edge. -/
theorem removeEdge_eq_without (nodup : g.nodes.Nodup) :
    (g.removeEdge a b).1 = g.without fun x y => decide (x = a ∧ y = b) := by
  unfold removeEdge
  split
  · next there =>
    refine (Graph.mk.injEq ..).mpr ⟨?_, ?_, rfl, rfl⟩
    · refine List.map_congr_left fun x inside => ?_
      obtain ⟨-, own⟩ := (mem_adjacency_iff nodup).1 inside
      by_cases e : x.1 = a
      · subst e
        simp [own]
      · simp [e]
    · refine List.map_congr_left fun x _ => ?_
      by_cases e : x.1 = a
      · subst e
        have gone : ∀ c, (g.hasEdge x.1 c && decide (x.1 = x.1 ∧ c = b)) = decide (c = b) := by
          intro c
          by_cases same : c = b
          · subst same
            simp [there]
          · simp [same]
        dsimp only
        rw [if_pos rfl, funext gone, dropLabels, dropLabel, Keyed.erase]
        simp only [decide_not]
      · simp [e, dropLabels_none]
  · next gone =>
    -- Without the edge its label stays too, if there is one.
    refine (without_none nodup fun x y edge => ?_).symm
    refine decide_eq_false ?_
    rintro ⟨rfl, rfl⟩
    exact gone (hasEdge_iff.2 edge)

/-- Removing edges one after the other. -/
theorem eachSilent_removeEdge {α : Type} (nodup : g.nodes.Nodup) (ends : α → NodeId × NodeId)
    (members : List α) :
    eachSilent (fun g x => (g.removeEdge (ends x).1 (ends x).2).1) members g =
      g.without fun a b => decide ((a, b) ∈ members.map ends) := by
  unfold eachSilent
  induction members generalizing g with
  | nil => exact (without_none nodup fun _ _ _ => by simp).symm
  | cons x rest ih =>
    have nodup' : (g.without fun a b => decide (a = (ends x).1 ∧ b = (ends x).2)).nodes.Nodup := by
      rw [nodes_without]
      exact nodup
    rw [List.foldl_cons, removeEdge_eq_without nodup, ih nodup', without_without]
    congr 1
    funext a b
    rw [List.map_cons, ← Bool.decide_or]
    simp only [List.mem_cons, Prod.ext_iff]

end Cartograph.Graph

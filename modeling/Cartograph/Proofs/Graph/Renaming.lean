import Mathlib.Data.List.Sort
import Mathlib.Logic.Equiv.Basic
import Cartograph.Proofs.Graph.Calls

/-!
# Renaming a node

A graph with permuted names (`Graph.permuted`) has every node under its new name: in its place, with
its children in their places and with its metadata, in which only the labels have new names. If two
names are exchanged, doing so again gives the graph from before (`permuted_permuted`).

Renaming a node exchanges its old and its new name in this sense, if every label is for an edge that
is there; so renaming it back gives the graph from before (`renameNode_permuted`).
-/

namespace Cartograph

/-! ### Sorted lists under other keys -/

namespace Keyed

variable {κ α : Type} [DecidableEq κ] [LT κ] [DecidableLT κ] {k : κ} {xs ys new : List (κ × α)}
  {σ : Equiv.Perm κ} {f : α → α}

/-- What is set last is found first. -/
theorem find?_insertAll (nodup : (new.map (·.1)).Nodup) :
    find? k (insertAll xs new) = (find? k new).or (find? k xs) := by
  induction new generalizing xs with
  | nil => rfl
  | cons x rest ih =>
    obtain ⟨j, b⟩ := x
    obtain ⟨fresh, nodup⟩ := List.nodup_cons.1 nodup
    refine (ih nodup).trans ?_
    rw [find?_insert, find?]
    by_cases here : j = k
    · subst here
      rw [if_pos rfl, if_pos rfl, find?_eq_none_iff.2 fresh]
      rfl
    · rw [if_neg here, if_neg here]

theorem find?_sorted (nodup : (xs.map (·.1)).Nodup) : find? k (sorted xs) = find? k xs := by
  rw [sorted, find?_insertAll nodup]
  exact Option.or_none

/-- The sorted list with other keys and values. -/
def rekeyed (σ : Equiv.Perm κ) (f : α → α) (xs : List (κ × α)) : List (κ × α) :=
  sorted (xs.map fun (k, a) => (σ k, f a))

/-- Under its new key stands what a key stood for. -/
theorem find?_rekeyed (nodup : (xs.map (·.1)).Nodup) :
    find? (σ k) (rekeyed σ f xs) = (find? k xs).map f := by
  have keys : (xs.map fun (k, a) => (σ k, f a)).map (·.1) = (xs.map (·.1)).map σ := by
    rw [List.map_map, List.map_map]
    rfl
  rw [rekeyed, find?_sorted (keys ▸ nodup.map σ.injective)]
  exact find?_map_key f fun _ _ => σ.apply_eq_iff_eq

section Order

variable [LE κ] [Std.IsLinearOrder κ] [Std.LawfulOrderLT κ]

omit [DecidableLT κ] in
/-- Sorted lists in which all look-ups find the same are the same. -/
theorem IsSorted.ext (hx : IsSorted xs) (hy : IsSorted ys)
    (same : ∀ k, find? k xs = find? k ys) : xs = ys := by
  have mem : ∀ x : κ × α, x ∈ xs ↔ x ∈ ys := by
    intro x
    constructor
    · intro inside
      exact mem_of_find? (same x.1 ▸ find?_of_mem hx.nodup inside)
    · intro inside
      exact mem_of_find? (same x.1 ▸ find?_of_mem hy.nodup inside)
  have irrefl : Std.Irrefl fun x y : κ × α => x.1 < y.1 := ⟨fun _ => Std.lt_irrefl⟩
  have antisymm : Std.Antisymm fun x y : κ × α => x.1 < y.1 :=
    ⟨fun _ _ lt gt => absurd (Std.lt_trans lt gt) Std.lt_irrefl⟩
  exact (List.pairwise_map.1 hx).eq_of_mem_iff (List.pairwise_map.1 hy) mem

theorem isSorted_rekeyed (σ : Equiv.Perm κ) (f : α → α) (xs : List (κ × α)) :
    IsSorted (rekeyed σ f xs) :=
  isSorted_sorted _

/-- Keys and values that are back after two changes. -/
theorem rekeyed_rekeyed (twice : ∀ k, σ (σ k) = k) (sorted : IsSorted xs)
    (back : ∀ x ∈ xs, f (f x.2) = x.2) : rekeyed σ f (rekeyed σ f xs) = xs := by
  refine (isSorted_rekeyed σ f _).ext sorted fun k => ?_
  rw [← twice k, find?_rekeyed (isSorted_rekeyed σ f xs).nodup, find?_rekeyed sorted.nodup, twice]
  cases found : find? k xs with
  | none => rfl
  | some a => exact congrArg some (back (k, a) (mem_of_find? found))

end Order

end Keyed

namespace Graph

variable {g : Graph} {n a b old new : NodeId} {m : NodeMeta} {σ : Equiv.Perm NodeId}

/-! ### Permuted names -/

/-- Metadata with other names in their labels. -/
def relabelled (σ : Equiv.Perm NodeId) (m : NodeMeta) : NodeMeta :=
  { m with edgeLabels := Keyed.rekeyed σ id m.edgeLabels }

/-- The graph with other names, wherever they stand. -/
def permuted (σ : Equiv.Perm NodeId) (g : Graph) : Graph :=
  { g with
    adjacency := g.adjacency.map fun (n, children) => (σ n, children.map σ)
    metadata := Keyed.rekeyed σ (relabelled σ) g.metadata }

/-- Metadata stand in the order of their nodes, and labels in that of their children. -/
structure Sorted (g : Graph) : Prop where
  metadata : Keyed.IsSorted g.metadata
  labels : ∀ x ∈ g.metadata, Keyed.IsSorted x.2.edgeLabels

theorem nodes_permuted : (g.permuted σ).nodes = g.nodes.map σ := by
  rw [nodes, nodes, permuted, List.map_map, List.map_map]
  rfl

theorem find?_permuted : Keyed.find? (σ n) (g.permuted σ).adjacency =
    (Keyed.find? n g.adjacency).map (·.map σ) :=
  Keyed.find?_map_key (fun children : List NodeId => children.map σ) fun _ _ => σ.apply_eq_iff_eq

theorem children_permuted : (g.permuted σ).children (σ n) = (g.children n).map σ := by
  rw [children, find?_permuted, children]
  cases Keyed.find? n g.adjacency <;> rfl

theorem meta?_permuted (sorted : g.Sorted) :
    (g.permuted σ).meta? (σ n) = (g.meta? n).map (relabelled σ) :=
  Keyed.find?_rekeyed sorted.metadata.nodup

theorem labelOf_permuted (sorted : g.Sorted) :
    (g.permuted σ).labelOf (σ a) (σ b) = g.labelOf a b := by
  rw [labelOf, meta?_permuted sorted, Option.bind_map, labelOf]
  cases found : g.meta? a with
  | none => rfl
  | some m =>
    have labels := sorted.labels _ (Keyed.mem_of_find? found)
    exact (Keyed.find?_rekeyed labels.nodup).trans Option.map_id_apply

theorem sorted_permuted : (g.permuted σ).Sorted where
  metadata := Keyed.isSorted_rekeyed σ (relabelled σ) g.metadata
  labels x inside := by
    obtain ⟨y, -, rfl⟩ := List.mem_map.1 (Keyed.mem_sorted inside)
    exact Keyed.isSorted_rekeyed σ id _

/-! ### Exchanging names twice -/

theorem relabelled_relabelled (twice : ∀ n, σ (σ n) = n) (sorted : Keyed.IsSorted m.edgeLabels) :
    relabelled σ (relabelled σ m) = m := by
  rw [relabelled, relabelled, Keyed.rekeyed_rekeyed twice sorted fun _ _ => rfl]

/-- Exchanging names twice changes nothing. -/
theorem permuted_permuted (twice : ∀ n, σ (σ n) = n) (sorted : g.Sorted) :
    (g.permuted σ).permuted σ = g := by
  have names : ∀ l : List NodeId, (l.map σ).map σ = l := by
    intro l
    rw [List.map_map]
    exact List.map_id'' (fun n => twice n) l
  refine (Graph.mk.injEq ..).mpr ⟨?_, ?_, rfl, rfl⟩
  · refine List.map_map.trans (List.map_id'' (fun x => ?_) _)
    exact Prod.ext (twice x.1) (names x.2)
  · exact Keyed.rekeyed_rekeyed twice sorted.metadata fun x inside =>
      relabelled_relabelled twice (sorted.labels x inside)

/-! ### Renaming -/

/-- The new name stands where the old one stood; it stands nowhere before. -/
theorem renamed_eq_swap (ne : n ≠ new) : renamed old new n = Equiv.swap old new n := by
  unfold renamed
  split
  · next same => rw [same, Equiv.swap_apply_left]
  · next other => rw [Equiv.swap_apply_of_ne_of_ne other ne]

/-- Labels are moved to the new name, if it has none. -/
theorem moveLabel_eq_relabelled (ne : old ≠ new) (sorted : Keyed.IsSorted m.edgeLabels)
    (free : Keyed.find? new m.edgeLabels = none) :
    moveLabel old new m = relabelled (Equiv.swap old new) m := by
  have moved : Keyed.IsSorted (moveLabel old new m).edgeLabels := by
    unfold moveLabel
    split
    · exact sorted.erase.insert
    · exact sorted
  have labels : (moveLabel old new m).edgeLabels =
      Keyed.rekeyed (Equiv.swap old new) id m.edgeLabels := by
    refine moved.ext (Keyed.isSorted_rekeyed _ _ _) fun k => ?_
    obtain ⟨j, rfl⟩ := (Equiv.swap old new).surjective k
    rw [Keyed.find?_rekeyed sorted.nodup, Option.map_id_apply, find?_moveLabel ne]
    by_cases first : j = old
    · rw [first, Equiv.swap_apply_left, if_neg ne.symm, if_pos rfl, free, Option.or_none]
    · by_cases second : j = new
      · rw [second, Equiv.swap_apply_right, if_pos rfl, free]
      · rw [Equiv.swap_apply_of_ne_of_ne first second, if_neg first, if_neg second]
  have rest : moveLabel old new m =
      { m with edgeLabels := (moveLabel old new m).edgeLabels } := by
    unfold moveLabel
    split <;> rfl
  rw [rest, labels, relabelled]

theorem renameNode_eq_permuted (wf : g.WellFormed) (sorted : g.Sorted) (clean : g.LabelClean)
    (can : g.Renameable old new) :
    g.renameNode old new = (g.permuted (Equiv.swap old new), true) := by
  have fresh : ∀ {n}, g.contains n → n ≠ new := fun there same => can.2.2 (same ▸ there)
  have metas := fun k => meta?_renameNode (k := k) can wf.sameNodes
  have order : Keyed.IsSorted (g.renameNode old new).1.metadata :=
    sorted_renameNode sorted.metadata
  obtain ⟨metadata, shape, -⟩ := renameNode_of_renameable can
  rw [shape] at metas order ⊢
  refine Prod.ext ((Graph.mk.injEq ..).mpr ⟨?_, ?_, rfl, rfl⟩) rfl
  · refine List.map_congr_left fun x inside => ?_
    obtain ⟨n, cs⟩ := x
    obtain ⟨there, rfl⟩ := (mem_adjacency_iff wf.nodup).1 inside
    refine Prod.ext (renamed_eq_swap (fresh there)) (List.map_congr_left fun c child => ?_)
    exact renamed_eq_swap (fresh (wf.closed n c child))
  · -- A look-up decides: sorted lists in which all look-ups find the same are the same.
    refine order.ext (Keyed.isSorted_rekeyed _ _ _) fun k => (metas k).trans ?_
    obtain ⟨j, rfl⟩ := (Equiv.swap old new).surjective k
    have moved : (g.meta? j).map (moveLabel old new) =
        (g.meta? j).map (relabelled (Equiv.swap old new)) := by
      cases found : g.meta? j with
      | none => rfl
      | some m =>
        exact congrArg some (moveLabel_eq_relabelled can.1
          (sorted.labels _ (Keyed.mem_of_find? found)) (clean.find?_eq_none wf can.2.2 found))
    have absent : g.meta? new = none := by
      simpa [wf.contains_iff] using can.2.2
    rw [Keyed.find?_rekeyed sorted.metadata.nodup]
    refine Eq.trans ?_ moved
    by_cases first : j = old
    · rw [first, Equiv.swap_apply_left, if_pos rfl]
    · by_cases second : j = new
      · rw [second, Equiv.swap_apply_right, if_neg can.1, if_pos rfl, absent]
        rfl
      · rw [Equiv.swap_apply_of_ne_of_ne first second, if_neg second, if_neg first]

/-- What was renamed can be renamed back. -/
theorem Renameable.symm (can : g.Renameable old new) :
    (g.renameNode old new).1.Renameable new old := by
  refine ⟨can.1.symm, (contains_renameNode can).2 (.inl rfl), fun there => ?_⟩
  rcases (contains_renameNode can).1 there with same | ⟨ne, -⟩
  · exact can.1 same
  · exact ne rfl

/-- A node that is renamed has its new name wherever it had its old one: in its place among the
    nodes, in all lists of children and for all labels, and all else is as it was. Renamed back, it
    leaves the graph as it was before. -/
theorem renameNode_permuted (wf : g.WellFormed) (sorted : g.Sorted) (clean : g.LabelClean)
    (there : g.contains old) (free : ¬g.contains new) :
    let σ := Equiv.swap old new
    let g' := (g.renameNode old new).1
    g.renameNode old new = (g.permuted σ, true) ∧ g'.renameNode new old = (g, true) ∧
      g'.nodes = g.nodes.map σ ∧ (∀ n, g'.children (σ n) = (g.children n).map σ) ∧
      (∀ n, g'.meta? (σ n) = (g.meta? n).map (relabelled σ)) ∧
      ∀ a b, g'.labelOf (σ a) (σ b) = g.labelOf a b := by
  intro σ g'
  have can : g.Renameable old new := ⟨fun same => free (same ▸ there), there, free⟩
  have first : g.renameNode old new = (g.permuted σ, true) :=
    renameNode_eq_permuted wf sorted clean can
  have same : g' = g.permuted σ := congrArg Prod.fst first
  have back : g'.renameNode new old = (g, true) := by
    have sorted' : g'.Sorted := same ▸ sorted_permuted
    calc g'.renameNode new old
        = (g'.permuted (Equiv.swap new old), true) :=
          renameNode_eq_permuted (wellFormed_renameNode wf) sorted' (clean.renameNode wf) can.symm
      _ = (g, true) := by
          rw [Equiv.swap_comm, same, permuted_permuted (Equiv.swap_apply_self old new) sorted]
  refine ⟨first, back, ?_, fun n => ?_, fun n => ?_, fun a b => ?_⟩
  · rw [same, nodes_permuted]
  · rw [same, children_permuted]
  · rw [same, meta?_permuted sorted]
  · rw [same, labelOf_permuted sorted]

theorem sorted_signposted : signposted.Sorted :=
  ⟨by unfold Keyed.IsSorted; decide +kernel, by unfold Keyed.IsSorted; decide +kernel⟩

/-- The theorem where a subnet whose edge has a label gets another name, and gets it back. -/
theorem renameNode_permuted_signposted :
    (signposted.WellFormed ∧ signposted.Sorted ∧ signposted.LabelClean ∧
      signposted.contains "aws_subnet.b" ∧ ¬signposted.contains "aws_subnet.d") ∧
    let g' := (signposted.renameNode "aws_subnet.b" "aws_subnet.d").1
    g'.nodes = ["aws_vpc.a", "aws_subnet.d", "aws_subnet.c"] ∧
      g'.labelOf "aws_vpc.a" "aws_subnet.d" = some "front" ∧
      g'.renameNode "aws_subnet.d" "aws_subnet.b" = (signposted, true) := by
  have there : signposted.contains "aws_subnet.b" = true := by decide +kernel
  have free : ¬signposted.contains "aws_subnet.d" = true := by decide +kernel
  have given := renameNode_permuted wellFormed_signposted sorted_signposted labelClean_signposted
    there free
  refine ⟨⟨wellFormed_signposted, sorted_signposted, labelClean_signposted, there, free⟩,
    by decide +kernel, by decide +kernel, given.2.1⟩

end Graph

end Cartograph

import Mathlib.Data.List.Nodup
import Mathlib.Data.List.Pairwise
import Mathlib.Data.List.Perm.Subperm
import Mathlib.Data.List.Sort
import Cartograph.Containment
import Cartograph.Proofs.Graph.Ancestry

/-!
# Nested containers

A graph is *drawable* (`Drawable`) if of any two containers of a node one is above the other. That
is what the check for shared children tests (`checkShared_ok_iff`); when it fails it names two
containers of a node that are unrelated (`checkShared_error`).

Pruning removes edges only, and none of its steps makes a removal that another step has made
unnecessary again, so at the end no container of a node is above another one of it (`prune_bare`).
-/

namespace Cartograph.Containment

open Graph Arrangement

variable {g g' : Graph} {p : Rules.Providers} {a b c n : NodeId}

/-- A container is the beginning of an edge to a node. -/
structure Holds (p : Rules.Providers) (g : Graph) (a c : NodeId) : Prop where
  edge : g.Edge a c
  isGroup : p.isGroup (g.typeOf a)

instance : Decidable (Holds p g a c) :=
  decidable_of_iff (g.hasEdge a c = true ∧ p.isGroup (g.typeOf a) = true)
    ⟨fun h => ⟨hasEdge_iff.1 h.1, h.2⟩, fun h => ⟨hasEdge_iff.2 h.edge, h.isGroup⟩⟩

/-- One of two nodes is above the other. -/
def Related (g : Graph) (a b : NodeId) : Prop := g.Above a b ∨ g.Above b a

/-- Two containers of a node are not related. -/
def Shared (p : Rules.Providers) (g : Graph) (c : NodeId) : Prop :=
  ∃ a b, a ≠ b ∧ Holds p g a c ∧ Holds p g b c ∧ ¬Related g a b

/-- Any two containers of a node are related. -/
def Drawable (p : Rules.Providers) (g : Graph) : Prop :=
  ∀ c a b, a ≠ b → Holds p g a c → Holds p g b c → Related g a b

theorem mem_groupParents (nodup : g.nodes.Nodup) : a ∈ groupParents p g c ↔ Holds p g a c := by
  rw [groupParents, List.mem_filter, mem_parents nodup]
  exact ⟨fun h => ⟨h.1, h.2⟩, fun h => ⟨h.edge, h.isGroup⟩⟩

/-- A node that no two different containers hold has at most one. -/
theorem length_groupParents_le_one (wf : g.WellFormed)
    (sole : ∀ a b, Holds p g a c → Holds p g b c → a = b) :
    (groupParents p g c).length ≤ 1 := by
  have nodup : (groupParents p g c).Nodup := (wf.nodup_parents c).filter _
  have held := fun a => (mem_groupParents (a := a) (p := p) (c := c) wf.nodup).1
  cases found : groupParents p g c with
  | nil => exact Nat.zero_le 1
  | cons a rest =>
    rw [found] at nodup held
    cases rest with
    | nil => exact Nat.le_refl 1
    | cons b rest =>
      have same := sole a b (held a (by simp)) (held b (by simp))
      simp [same] at nodup

theorem Related.symm (h : Related g a b) : Related g b a := Or.symm h

/-! ### The check -/

theorem nested_iff (nodup : g.nodes.Nodup) : nested g a b ↔ a ≠ b ∧ Related g a b := by
  rw [nested, Bool.or_eq_true, List.contains_iff_mem, List.contains_iff_mem,
    mem_ancestors_iff nodup, mem_ancestors_iff nodup]
  constructor
  · rintro (⟨ne, h⟩ | ⟨ne, h⟩)
    · exact ⟨ne.symm, .inr h⟩
    · exact ⟨ne, .inl h⟩
  · rintro ⟨ne, h | h⟩
    · exact .inr ⟨ne, h⟩
    · exact .inl ⟨ne.symm, h⟩

/-- Nothing is found exactly if the members are pairwise nested. -/
theorem firstUnrelated_eq_none_iff {l : List NodeId} :
    firstUnrelated g l = none ↔ l.Pairwise fun a b => nested g a b := by
  induction l with
  | nil => simp [firstUnrelated]
  | cons a rest ih =>
    rw [firstUnrelated, List.pairwise_cons, ← ih]
    cases found : rest.find? fun b => !nested g a b with
    | none =>
      rw [List.find?_eq_none] at found
      have all : ∀ b ∈ rest, nested g a b := fun b hb => by simpa using found b hb
      exact ⟨fun h => ⟨all, h⟩, And.right⟩
    | some b =>
      have not := List.find?_some found
      have inside := List.mem_of_find?_eq_some found
      simp only [reduceCtorEq, false_iff, not_and]
      intro all
      simp [all b inside] at not

/-- What is found stands in the list in this order. -/
theorem firstUnrelated_eq_some {l : List NodeId} (h : firstUnrelated g l = some (a, b)) :
    [a, b].Sublist l ∧ ¬nested g a b := by
  induction l with
  | nil => exact absurd h (by simp [firstUnrelated])
  | cons x rest ih =>
    rw [firstUnrelated] at h
    split at h
    · next y found =>
      cases h
      have not := List.find?_some found
      have inside := List.mem_of_find?_eq_some found
      exact ⟨(List.singleton_sublist.2 inside).cons_cons _, by simpa using not⟩
    · obtain ⟨sub, not⟩ := ih h
      exact ⟨sub.cons x, not⟩

/-- The containers among some nodes. -/
def groupsAmong (p : Rules.Providers) (g : Graph) (nodes : List NodeId) : List NodeId :=
  nodes.filter fun n => p.isGroup (g.typeOf n)

theorem mem_groupsAmong {nodes : List NodeId} :
    n ∈ groupsAmong p g nodes ↔ n ∈ nodes ∧ p.isGroup (g.typeOf n) := List.mem_filter

/-- The containers are gone through in order. -/
theorem unrelated?_eq (nodes : List NodeId) : unrelated? p g nodes =
    firstUnrelated g ((groupsAmong p g nodes).insertionSort (· ≤ ·)) := by
  rw [← List.mergeSort_eq_insertionSort, unrelated?, groupsAmong]
  congr 2
  funext a b
  rw [← decide_not]
  exact decide_eq_decide.2 Std.not_lt

theorem unrelated?_eq_none_iff (nodup : g.nodes.Nodup) {nodes : List NodeId} (once : nodes.Nodup) :
    unrelated? p g nodes = none ↔ ∀ a ∈ nodes, ∀ b ∈ nodes, a ≠ b → p.isGroup (g.typeOf a) →
      p.isGroup (g.typeOf b) → Related g a b := by
  have symm : ∀ {a b : NodeId}, nested g a b → nested g b a := by
    intro a b h
    rw [nested_iff nodup] at h ⊢
    exact ⟨h.1.symm, h.2.symm⟩
  have groups : (groupsAmong p g nodes).Nodup := once.filter _
  rw [unrelated?_eq, firstUnrelated_eq_none_iff,
    (List.perm_insertionSort _ _).pairwise_iff symm]
  constructor
  · intro pairwise a ha b hb ne ga gb
    have : Std.Symm fun a b => nested g a b = true := ⟨fun _ _ => symm⟩
    have h := pairwise.forall (mem_groupsAmong.2 ⟨ha, ga⟩) (mem_groupsAmong.2 ⟨hb, gb⟩) ne
    exact ((nested_iff nodup).1 h).2
  · intro all
    refine groups.pairwise_of_forall_ne fun a ha b hb ne => ?_
    obtain ⟨ha, ga⟩ := mem_groupsAmong.1 ha
    obtain ⟨hb, gb⟩ := mem_groupsAmong.1 hb
    exact (nested_iff nodup).2 ⟨ne, all a ha b hb ne ga gb⟩

/-- Two of the containers are found, in order, which stand there twice if they are the same. -/
theorem unrelated?_subperm {nodes : List NodeId} (h : unrelated? p g nodes = some (a, b)) :
    [a, b].Subperm (groupsAmong p g nodes) ∧ a ≤ b ∧ ¬nested g a b := by
  rw [unrelated?_eq] at h
  obtain ⟨sub, not⟩ := firstUnrelated_eq_some h
  have ordered := (List.pairwise_insertionSort (· ≤ ·) _).sublist sub
  exact ⟨sub.subperm.trans (List.perm_insertionSort _ _).subperm, List.pairwise_pair.1 ordered, not⟩

section Sources

variable {nodes : List NodeId} (nodup : g.nodes.Nodup) (once : nodes.Nodup)
  (sources : ∀ n, n ∈ nodes ↔ g.Edge n c)
include nodup once sources

/-- Among the beginnings of the edges to a node nothing is found exactly if it is not shared. -/
theorem unrelated?_eq_none_iff_not_shared : unrelated? p g nodes = none ↔ ¬Shared p g c := by
  rw [unrelated?_eq_none_iff nodup once]
  constructor
  · rintro all ⟨a, b, ne, ha, hb, not⟩
    exact not (all a ((sources a).2 ha.edge) b ((sources b).2 hb.edge) ne ha.isGroup hb.isGroup)
  · intro not a ha b hb ne ga gb
    by_contra unrelated
    exact not ⟨a, b, ne, ⟨(sources a).1 ha, ga⟩, ⟨(sources b).1 hb, gb⟩, unrelated⟩

/-- What is found there are two containers of the node that are not related. -/
theorem unrelated?_eq_some (h : unrelated? p g nodes = some (a, b)) :
    a ≠ b ∧ Holds p g a c ∧ Holds p g b c ∧ ¬Related g a b := by
  obtain ⟨sub, -, not⟩ := unrelated?_subperm h
  obtain ⟨ha, ga⟩ := mem_groupsAmong.1 (sub.subset List.mem_cons_self)
  obtain ⟨hb, gb⟩ := mem_groupsAmong.1 (sub.subset (List.mem_cons_of_mem _ List.mem_cons_self))
  obtain ⟨pair, perm, sub⟩ := sub
  have ne : a ≠ b := by simpa using perm.nodup_iff.1 ((once.filter _).sublist sub)
  exact ⟨ne, ⟨(sources a).1 ha, ga⟩, ⟨(sources b).1 hb, gb⟩,
    fun related => not ((nested_iff nodup).2 ⟨ne, related⟩)⟩

end Sources

theorem sourcesOf_eq_nil (h : c ∉ g.edges.map (·.2)) : g.sourcesOf c = [] := by
  rw [sourcesOf, List.filterMap_eq_nil_iff]
  intro edge inside
  exact if_neg fun same : edge.2 = c => h (same ▸ List.mem_map_of_mem inside)

/-- What is no child has no containers. -/
theorem unrelated?_of_not_child (h : c ∉ g.edges.map (·.2)) :
    unrelated? p g (g.sourcesOf c) = none := by
  rw [sourcesOf_eq_nil h]
  simp [unrelated?, firstUnrelated]

/-- The first child with two containers that are not nested, behind these. -/
def firstShared? (p : Rules.Providers) (g : Graph) : Option (NodeId × NodeId × NodeId) :=
  (Keyed.keySet (g.edges.map (·.2))).findSome? fun c =>
    (unrelated? p g (g.sourcesOf c)).map fun (a, b) => (a, b, c)

theorem checkShared_eq : checkShared p g = match firstShared? p g with
    | some (a, b, c) => .error (.sharedChild "validate" a b c)
    | none => .ok () := by
  rw [checkShared, parentIndex, List.findSome?_map]
  rfl

theorem firstShared?_eq_none_iff :
    firstShared? p g = none ↔ ∀ c, unrelated? p g (g.sourcesOf c) = none := by
  rw [firstShared?, List.findSome?_eq_none_iff]
  refine ⟨fun none c => ?_, fun all c _ => Option.map_eq_none_iff.2 (all c)⟩
  by_cases child : c ∈ g.edges.map (·.2)
  · exact Option.map_eq_none_iff.1 (none c (Keyed.mem_keySet.2 child))
  · exact unrelated?_of_not_child child

theorem firstShared?_eq_some_iff : firstShared? p g = some (a, b, c) ↔
    unrelated? p g (g.sourcesOf c) = some (a, b) ∧
      ∀ d, d < c → unrelated? p g (g.sourcesOf d) = none := by
  rw [firstShared?, Keyed.findSome?_keySet]
  constructor
  · rintro ⟨_, -, found, before⟩
    obtain ⟨_, here, same⟩ := Option.map_eq_some_iff.1 found
    cases same
    refine ⟨here, fun d lt => ?_⟩
    by_cases child : d ∈ g.edges.map (·.2)
    · exact Option.map_eq_none_iff.1 (before d child lt)
    · exact unrelated?_of_not_child child
  · rintro ⟨here, before⟩
    refine ⟨c, ?_, Option.map_eq_some_iff.2 ⟨_, here, rfl⟩, fun d _ lt => ?_⟩
    · by_contra child
      rw [unrelated?_of_not_child child] at here
      exact absurd here (by simp)
    · exact Option.map_eq_none_iff.2 (before d lt)

theorem checkShared_ok_iff_none :
    checkShared p g = .ok () ↔ ∀ c, unrelated? p g (g.sourcesOf c) = none := by
  rw [checkShared_eq, ← firstShared?_eq_none_iff]
  cases firstShared? p g <;> simp

/-- An error is about the first node with two containers that are not nested. -/
theorem checkShared_error_iff {e : Error} : checkShared p g = .error e ↔
    ∃ a b c, e = .sharedChild "validate" a b c ∧ unrelated? p g (g.sourcesOf c) = some (a, b) ∧
      ∀ d, d < c → unrelated? p g (g.sourcesOf d) = none := by
  simp only [← firstShared?_eq_some_iff, checkShared_eq]
  cases firstShared? p g with
  | none => simp
  | some found =>
    obtain ⟨a, b, c⟩ := found
    simp [eq_comm]

/-- If no child stands twice, the check accepts the graphs in which no node is shared. -/
theorem checkShared_ok_iff_not_shared (nodup : g.nodes.Nodup)
    (single : ∀ n, (g.children n).Nodup) : checkShared p g = .ok () ↔ ∀ c, ¬Shared p g c :=
  checkShared_ok_iff_none.trans <| forall_congr' fun c =>
    unrelated?_eq_none_iff_not_shared nodup (nodup_sourcesOf nodup single c) fun _ =>
      mem_sourcesOf nodup

theorem drawable_iff : Drawable p g ↔ ∀ c, ¬Shared p g c := by
  constructor
  · rintro drawable c ⟨a, b, ne, ha, hb, not⟩
    exact not (drawable c a b ne ha hb)
  · intro none c a b ne ha hb
    by_contra not
    exact none c ⟨a, b, ne, ha, hb, not⟩

/-- The check accepts exactly the drawable graphs. -/
theorem checkShared_ok_iff (wf : g.WellFormed) : checkShared p g = .ok () ↔ Drawable p g :=
  (checkShared_ok_iff_not_shared wf.nodup wf.noRepetition).trans drawable_iff.symm

/-- Otherwise it names two containers of a node that are not related. -/
theorem checkShared_error (wf : g.WellFormed) (h : ¬Drawable p g) : ∃ a b c, a ≠ b ∧
    Holds p g a c ∧ Holds p g b c ∧ ¬Related g a b ∧
      checkShared p g = .error (.sharedChild "validate" a b c) := by
  rw [← checkShared_ok_iff wf] at h
  cases failed : checkShared p g with
  | ok => exact absurd failed h
  | error e =>
    obtain ⟨a, b, c, rfl, here, -⟩ := checkShared_error_iff.1 failed
    obtain ⟨ne, ha, hb, not⟩ :=
      unrelated?_eq_some wf.nodup (nodup_sourcesOf wf.nodup wf.noRepetition c)
        (fun _ => mem_sourcesOf wf.nodup) here
    exact ⟨a, b, c, ne, ha, hb, not, rfl⟩

/-- Whether two given nodes are unrelated containers of a third. -/
def isConflict (p : Rules.Providers) (g : Graph) (a b c : NodeId) : Bool :=
  a != b && g.hasEdge a c && g.hasEdge b c && p.isGroup (g.typeOf a) && p.isGroup (g.typeOf b)
    && !nested g a b

theorem shared_of_conflict (nodup : g.nodes.Nodup) (h : isConflict p g a b c) : Shared p g c := by
  simp only [isConflict, Bool.and_eq_true, bne_iff_ne, Bool.not_eq_true'] at h
  obtain ⟨⟨⟨⟨⟨ne, ea⟩, eb⟩, ga⟩, gb⟩, not⟩ := h
  refine ⟨a, b, ne, ⟨hasEdge_iff.1 ea, ga⟩, ⟨hasEdge_iff.1 eb, gb⟩, fun related => ?_⟩
  rw [(nested_iff nodup).2 ⟨ne, related⟩] at not
  exact absurd not (by simp)

theorem not_drawable_of_conflict (nodup : g.nodes.Nodup) (h : isConflict p g a b c) :
    ¬Drawable p g := by
  obtain ⟨a, b, ne, ha, hb, not⟩ := shared_of_conflict nodup h
  exact fun drawable => not (drawable c a b ne ha hb)

/-- Whether any two containers of every node are nested. -/
def allNested (p : Rules.Providers) (g : Graph) : Bool :=
  g.nodes.all fun c => (groupParents p g c).all fun a => (groupParents p g c).all fun b =>
    a == b || nested g a b

theorem drawable_of_allNested (wf : g.WellFormed) (h : allNested p g) : Drawable p g := by
  intro c a b ne ha hb
  have there := mem_nodes.2 (wf.closed a c ha.edge)
  simp only [allNested, List.all_eq_true, mem_groupParents wf.nodup] at h
  have either := h c there a ha b hb
  rw [Bool.or_eq_true, beq_iff_eq] at either
  exact ((nested_iff wf.nodup).1 (either.resolve_left ne)).2

/-! ### Pruning -/

/-- A graph with some of the edges of another, and the same nodes with the same types. -/
structure Thinner (g' g : Graph) : Prop where
  edge : ∀ a b, g'.Edge a b → g.Edge a b
  typeOf : ∀ n, g'.typeOf n = g.typeOf n
  contains : ∀ n, g'.contains n ↔ g.contains n

theorem Thinner.refl (g : Graph) : Thinner g g := ⟨fun _ _ h => h, fun _ => rfl, fun _ => Iff.rfl⟩

theorem Thinner.trans {g'' : Graph} (h : Thinner g'' g') (h' : Thinner g' g) : Thinner g'' g :=
  ⟨fun a b e => h'.edge a b (h.edge a b e), fun n => (h.typeOf n).trans (h'.typeOf n),
    fun n => (h.contains n).trans (h'.contains n)⟩

theorem Thinner.above (h : Thinner g' g) (path : g'.Above a b) : g.Above a b := path.mono h.edge

theorem Thinner.holds (h : Thinner g' g) (held : Holds p g' a c) : Holds p g a c :=
  ⟨h.edge a c held.edge, h.typeOf a ▸ held.isGroup⟩

theorem typeOf_removeEdge : (g.removeEdge a b).1.typeOf n = g.typeOf n := by
  rw [typeOf, typeOf, meta?_removeEdge]
  split
  · cases g.meta? n <;> rfl
  · rfl

theorem thinner_removeEdge : Thinner (g.removeEdge a b).1 g where
  edge _ _ h := (mem_children_removeEdge.1 h).1
  typeOf _ := typeOf_removeEdge
  contains _ := contains_removeEdge

/-- An edge from a container to what is also in a container below it. -/
def Redundant (p : Rules.Providers) (g : Graph) (a c : NodeId) : Prop :=
  g.Edge a c ∧ ∃ q, q ≠ a ∧ Holds p g q c ∧ g.Above a q

theorem Redundant.of_thinner (h : Thinner g' g) (redundant : Redundant p g' a c) :
    Redundant p g a c := by
  obtain ⟨edge, q, ne, held, above⟩ := redundant
  exact ⟨h.edge a c edge, q, ne, h.holds held, h.above above⟩

theorem isRedundant_iff (nodup : g.nodes.Nodup) :
    isRedundant p g a c ↔ ∃ q, q ≠ a ∧ Holds p g q c ∧ g.Above a q := by
  rw [isRedundant, List.any_eq_true]
  constructor
  · rintro ⟨q, parent, h⟩
    simp only [Bool.and_eq_true, decide_eq_true_eq, List.contains_iff_mem] at h
    obtain ⟨⟨ne, group⟩, above⟩ := h
    exact ⟨q, ne, ⟨(mem_parents nodup).1 parent, group⟩, ((mem_ancestors_iff nodup).1 above).2⟩
  · rintro ⟨q, ne, held, above⟩
    refine ⟨q, (mem_parents nodup).2 held.edge, ?_⟩
    simp only [Bool.and_eq_true, decide_eq_true_eq, List.contains_iff_mem]
    exact ⟨⟨ne, held.isGroup⟩, (mem_ancestors_iff nodup).2 ⟨ne.symm, above⟩⟩

/-- A loop each of whose steps leaves a thinner graph and settles something that thinner graphs
    keep. -/
theorem eachSilent_settles {α : Type} (step : Graph → α → Graph) {P : α → Graph → Prop}
    (keeps : ∀ x g g', Thinner g' g → P x g → P x g')
    (each : ∀ g x, g.WellFormed → (step g x).WellFormed ∧ Thinner (step g x) g ∧ P x (step g x))
    (members : List α) (wf : g.WellFormed) :
    (eachSilent step members g).WellFormed ∧ Thinner (eachSilent step members g) g ∧
      ∀ x ∈ members, P x (eachSilent step members g) := by
  induction members generalizing g with
  | nil => exact ⟨wf, .refl g, fun _ h => absurd h List.not_mem_nil⟩
  | cons x rest ih =>
    obtain ⟨wf₁, thinner₁, here⟩ := each g x wf
    obtain ⟨wf₂, thinner₂, there⟩ := ih wf₁
    refine ⟨wf₂, thinner₂.trans thinner₁, fun y hy => ?_⟩
    rcases List.mem_cons.1 hy with rfl | hy
    · exact keeps y _ _ thinner₂ here
    · exact there y hy

theorem pruneAt_settles (wf : g.WellFormed) (a : NodeId) : (pruneAt p g a).WellFormed ∧
    Thinner (pruneAt p g a) g ∧ ∀ c, ¬Redundant p (pruneAt p g a) a c := by
  obtain ⟨wf', thinner, settled⟩ := eachSilent_settles
    (fun g child => if isRedundant p g a child then (g.removeEdge a child).1 else g)
    (P := fun c g => ¬Redundant p g a c)
    (fun c g g' thinner not redundant => not (redundant.of_thinner thinner))
    (fun g c wf => by
      split
      · refine ⟨wellFormed_removeEdge wf, thinner_removeEdge, fun redundant => ?_⟩
        exact (mem_children_removeEdge.1 redundant.1).2 ⟨rfl, rfl⟩
      · next not =>
        refine ⟨wf, .refl g, fun redundant => not ?_⟩
        exact (isRedundant_iff wf.nodup).2 redundant.2)
    (g.children a) wf
  refine ⟨wf', thinner, fun c redundant => ?_⟩
  exact settled c (thinner.edge a c redundant.1) redundant

theorem prune_settles (wf : g.WellFormed) : Thinner (prune p g) g ∧
    ∀ a c, p.isGroup (g.typeOf a) → ¬Redundant p (prune p g) a c := by
  obtain ⟨-, thinner, settled⟩ := eachSilent_settles (pruneAt p)
    (P := fun a g => ∀ c, ¬Redundant p g a c)
    (fun a g g' thinner not c redundant => not c (redundant.of_thinner thinner))
    (fun g a wf => pruneAt_settles wf a)
    (g.sortedNodes.filter fun n => p.isGroup (g.typeOf n)) wf
  refine ⟨thinner, fun a c group redundant => settled a ?_ c redundant⟩
  have edge := thinner.edge a c redundant.1
  exact List.mem_filter.2 ⟨mem_sortedNodes.2 edge.contains, group⟩

/-- No container of a node is above another one of it. -/
def Bare (p : Rules.Providers) (g : Graph) : Prop :=
  ∀ c a b, a ≠ b → Holds p g a c → Holds p g b c → ¬g.Above a b

/-- Pruning leaves no redundant edge. -/
theorem prune_bare (wf : g.WellFormed) : Bare p (prune p g) := by
  obtain ⟨thinner, settled⟩ := prune_settles (p := p) wf
  intro c a b ne ha hb above
  exact settled a c (thinner.holds ha).isGroup ⟨ha.edge, b, ne.symm, hb, above⟩

/-- If a pruned graph can be drawn, no node has two containers, not even nested ones. -/
theorem Drawable.sole (drawable : Drawable p g) (bare : Bare p g) {c a b : NodeId}
    (ha : Holds p g a c) (hb : Holds p g b c) : a = b := by
  refine Decidable.byContradiction fun ne => ?_
  rcases drawable c a b ne ha hb with above | above
  · exact bare c a b ne ha hb above
  · exact bare c b a (Ne.symm ne) hb ha above

end Cartograph.Containment

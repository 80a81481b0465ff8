import Mathlib.Combinatorics.SimpleGraph.Metric
import Cartograph.Arrangement.Placement
import Cartograph.Proofs.Graph.Ancestry

/-!
# The nearest node of a kind

The search for a node that a pattern matches looks at the neighbours of a node and then at theirs.
What it finds is at the least distance in the undirected graph (`Graph.linked`), if that is at most
two, and of the nodes at that distance it is the first one with the node's own number, or the first
one if there is none (`nearest?_spec`). It depends on which edges there are, and not on their order
(`nearest?_congr`).
-/

namespace Cartograph

open Graph

variable {g h : Graph} {n m k t t' : NodeId} {target : Pattern}

/-! ### Distances -/

/-- The edges without their directions. -/
def Graph.linked (g : Graph) : SimpleGraph NodeId := SimpleGraph.fromRel g.Edge

namespace Arrangement

theorem linked_adj (wf : g.WellFormed) : g.linked.Adj n m ↔ g.Edge n m ∨ g.Edge m n := by
  rw [linked, SimpleGraph.fromRel_adj]
  refine ⟨And.right, fun edge => ⟨?_, edge⟩⟩
  rintro rfl
  exact wf.noLoop n (edge.elim id id)

theorem mem_neighbours (wf : g.WellFormed) : m ∈ neighbours g n ↔ g.linked.Adj n m := by
  rw [neighbours, List.mem_append, mem_parents wf.nodup, linked_adj wf]
  exact Iff.rfl

theorem mem_ring (wf : g.WellFormed) {seen frontier : List NodeId} :
    m ∈ ring g seen frontier ↔ m ∉ seen ∧ ∃ k ∈ frontier, g.linked.Adj k m := by
  rw [ring, List.mem_filter, Keyed.mem_keySet, List.mem_flatMap, and_comm]
  simp only [decide_eq_true_eq, mem_neighbours wf]

theorem mem_first_ring (wf : g.WellFormed) :
    m ∈ ring g [n] [n] ↔ g.linked.edist n m = 1 := by
  rw [mem_ring wf, SimpleGraph.edist_eq_one_iff_adj]
  simp only [List.mem_singleton, exists_eq_left]
  exact ⟨And.right, fun adj => ⟨fun same => adj.ne same.symm, adj⟩⟩

theorem mem_second_ring (wf : g.WellFormed) :
    m ∈ ring g (n :: ring g [n] [n]) (ring g [n] [n]) ↔ g.linked.edist n m = 2 := by
  rw [mem_ring wf, SimpleGraph.edist_eq_two_iff, List.mem_cons, mem_first_ring wf,
    SimpleGraph.edist_eq_one_iff_adj]
  simp only [mem_first_ring wf, SimpleGraph.edist_eq_one_iff_adj]
  constructor
  · rintro ⟨unseen, k, there, onward⟩
    exact ⟨fun same => unseen (.inl same.symm), fun adj => unseen (.inr adj),
      k, (SimpleGraph.mem_commonNeighbors _).2 ⟨there, onward.symm⟩⟩
  · rintro ⟨ne, far, k, between⟩
    obtain ⟨there, onward⟩ := (SimpleGraph.mem_commonNeighbors _).1 between
    exact ⟨fun seen => seen.elim (fun same => ne same.symm) far, k, there, onward.symm⟩

/-! ### The best of several -/

/-- Two nodes have the same number. -/
def SameNumber (n m : NodeId) : Prop :=
  (NodeId.suffix? n).isSome ∧ NodeId.suffix? m = NodeId.suffix? n

/-- Of some nodes, the first one with the number of a given node, or else the first one. -/
structure Preferred (n : NodeId) (some : NodeId → Prop) (t : NodeId) : Prop where
  inside : some t
  own : ∀ m, some m → SameNumber n m → SameNumber n t
  first : ∀ m, some m → (SameNumber n t → SameNumber n m) → t ≤ m

theorem Preferred.unique {some : NodeId → Prop} (h : Preferred n some t)
    (h' : Preferred n some t') : t = t' := by
  -- Both have the node's number or neither does, so each is a rival of the other.
  have alike : SameNumber n t ↔ SameNumber n t' := ⟨h'.own t h.inside, h.own t' h'.inside⟩
  exact Std.le_antisymm (h.first t' h'.inside alike.1) (h'.first t h.inside alike.2)

/-- What is first in order, of the elements of a sorted list that satisfy a test. -/
theorem first_of_find? {hits : List NodeId} {test : NodeId → Bool}
    (sorted : hits.Pairwise (· < ·)) (found : hits.find? test = some t) :
    t ∈ hits ∧ test t ∧ ∀ m ∈ hits, test m → t ≤ m := by
  obtain ⟨fits, before, after, rfl, none⟩ := List.find?_eq_some_iff_append.1 found
  have later := (List.pairwise_cons.1 (List.pairwise_append.1 sorted).2.1).1
  refine ⟨by simp, fits, fun m hm ok => ?_⟩
  rcases List.mem_append.1 hm with early | here
  · have := none m early
    rw [ok] at this
    cases this
  · rcases List.mem_cons.1 here with rfl | late
    · exact Std.le_refl _
    · exact Std.le_of_lt (later m late)

/-- Without any node of the same number it is the first one. -/
theorem preferred_head? {hits : List NodeId} (sorted : hits.Pairwise (· < ·))
    (other : ∀ m ∈ hits, ¬SameNumber n m) :
    match hits.head? with
    | none => hits = []
    | some t => Preferred n (· ∈ hits) t := by
  cases hits with
  | nil => rfl
  | cons t rest =>
    refine ⟨List.mem_cons_self, fun m hm same => absurd same (other m hm), fun m hm _ => ?_⟩
    rcases List.mem_cons.1 hm with rfl | late
    · exact Std.le_refl _
    · exact Std.le_of_lt ((List.pairwise_cons.1 sorted).1 m late)

theorem bestMatch?_spec {hits : List NodeId} (sorted : hits.Pairwise (· < ·)) :
    match bestMatch? n hits with
    | none => hits = []
    | some t => Preferred n (· ∈ hits) t := by
  unfold bestMatch?
  by_cases numbered : (NodeId.suffix? n).isSome
  · simp only [if_pos numbered]
    cases found : hits.find? fun h => decide (NodeId.suffix? h = NodeId.suffix? n) with
    | none =>
      rw [Option.none_or]
      refine preferred_head? sorted fun m hm same => ?_
      exact List.find?_eq_none.1 found m hm (decide_eq_true same.2)
    | some t =>
      obtain ⟨inside, same, first⟩ := first_of_find? sorted found
      have own : SameNumber n t := ⟨numbered, of_decide_eq_true same⟩
      exact ⟨inside, fun _ _ _ => own, fun m hm alike => first m hm (decide_eq_true (alike own).2)⟩
  · simp only [if_neg numbered, Option.none_or]
    exact preferred_head? sorted fun _ _ same => numbered same.1

/-! ### The search -/

/-- A pattern matches a node. -/
def Fits (target : Pattern) (g : Graph) (m : NodeId) : Prop := target.matchesNode m (g.meta? m)

/-- A node that a pattern matches within two steps, at the least distance, and preferred to the
    others at that distance. -/
structure Nearest (g : Graph) (target : Pattern) (n t : NodeId) : Prop where
  near : g.linked.edist n t ≤ 2
  least : ∀ m, Fits target g m → g.linked.edist n t ≤ g.linked.edist n m
  preferred : Preferred n (fun m => Fits target g m ∧ g.linked.edist n m = g.linked.edist n t) t

theorem Nearest.fits (h : Nearest g target n t) : Fits target g t := h.preferred.inside.1

/-- The best node in a ring, which is made of the nodes at some distance. -/
theorem best_in_ring (target : Pattern) {seen frontier : List NodeId} {d : ℕ∞}
    (ring_iff : ∀ m, m ∈ ring g seen frontier ↔ g.linked.edist n m = d) :
    match bestMatch? n ((ring g seen frontier).filter fun m =>
      target.matchesNode m (g.meta? m)) with
    | none => ∀ m, Fits target g m → g.linked.edist n m ≠ d
    | some t => Preferred n (fun m => Fits target g m ∧ g.linked.edist n m = d) t := by
  have sorted : ((ring g seen frontier).filter fun m =>
      target.matchesNode m (g.meta? m)).Pairwise (· < ·) :=
    ((Keyed.pairwise_keySet _).filter _).filter _
  have mem_hits : ∀ m, m ∈ (ring g seen frontier).filter
      (fun m => target.matchesNode m (g.meta? m)) ↔ Fits target g m ∧ g.linked.edist n m = d := by
    intro m
    rw [List.mem_filter, ring_iff, and_comm]
    rfl
  generalize (ring g seen frontier).filter (fun m => target.matchesNode m (g.meta? m)) = hits
    at sorted mem_hits
  have best := bestMatch?_spec (n := n) sorted
  cases found : bestMatch? n hits with
  | none =>
    rw [found] at best
    intro m fits there
    have := (mem_hits m).2 ⟨fits, there⟩
    rw [show hits = [] from best] at this
    exact List.not_mem_nil this
  | some t =>
    rw [found] at best
    have same : (· ∈ hits) = fun m => Fits target g m ∧ g.linked.edist n m = d :=
      funext fun m => propext (mem_hits m)
    exact same ▸ best

/-- The search finds the nearest node of a kind that the node is not of, if there is any within two
    steps. -/
theorem nearest?_spec (wf : g.WellFormed) (outside : ¬Fits target g n) :
    match nearest? g n target with
    | none => ∀ m, Fits target g m → ¬g.linked.edist n m ≤ 2
    | some t => Nearest g target n t := by
  have apart : ∀ m, Fits target g m → 1 ≤ g.linked.edist n m := by
    intro m fits
    refine Order.one_le_iff_pos.2 (SimpleGraph.edist_pos_of_ne ?_)
    rintro rfl
    exact outside fits
  have first := best_in_ring target fun m => mem_first_ring (n := n) (m := m) wf
  have second := best_in_ring target fun m => mem_second_ring (n := n) (m := m) wf
  unfold nearest?
  dsimp only
  cases one : bestMatch? n ((ring g [n] [n]).filter fun m => target.matchesNode m (g.meta? m)) with
  | some t =>
    rw [one] at first
    have here : g.linked.edist n t = 1 := first.inside.2
    rw [Option.some_or]
    exact ⟨by rw [here]; decide, fun m fits => here ▸ apart m fits, by rw [here]; exact first⟩
  | none =>
    rw [one] at first
    -- Nothing matches nearby, so what the second ring has is at the least distance.
    have far : ∀ m, Fits target g m → 2 ≤ g.linked.edist n m := by
      intro m fits
      have more : 1 < g.linked.edist n m := lt_of_le_of_ne (apart m fits) (first m fits).symm
      rw [← one_add_one_eq_two]
      exact Order.add_one_le_of_lt more
    rw [Option.none_or]
    split
    · next none =>
      rw [none] at second
      intro m fits near
      exact second m fits (le_antisymm near (far m fits))
    · next t some =>
      rw [some] at second
      have here : g.linked.edist n t = 2 := second.inside.2
      exact ⟨here.le, fun m fits => here ▸ far m fits, by rw [here]; exact second⟩

theorem Nearest.unique (near : Nearest g target n t) (near' : Nearest g target n t') : t = t' := by
  have same : g.linked.edist n t' = g.linked.edist n t :=
    le_antisymm (near'.least t near.fits) (near.least t' near'.fits)
  have preferred := near'.preferred
  rw [same] at preferred
  exact near.preferred.unique preferred

theorem nearest?_eq_some_iff (wf : g.WellFormed) (outside : ¬Fits target g n) :
    nearest? g n target = some t ↔ Nearest g target n t := by
  have spec := nearest?_spec wf outside
  cases found : nearest? g n target with
  | none =>
    rw [found] at spec
    exact ⟨fun h => (nomatch h), fun near => absurd near.near (spec t near.fits)⟩
  | some t' =>
    rw [found] at spec
    exact ⟨fun h => Option.some.inj h ▸ spec, fun near => congrArg some (spec.unique near)⟩

theorem nearest?_eq_none_iff (wf : g.WellFormed) (outside : ¬Fits target g n) :
    nearest? g n target = none ↔ ¬∃ m, Fits target g m ∧ g.linked.edist n m ≤ 2 := by
  have spec := nearest?_spec wf outside
  cases found : nearest? g n target with
  | none =>
    rw [found] at spec
    exact ⟨fun _ ⟨m, fits, near⟩ => spec m fits near, fun _ => rfl⟩
  | some t =>
    rw [found] at spec
    exact ⟨fun h => (nomatch h), fun none => absurd ⟨t, spec.fits, spec.near⟩ none⟩

/-- Graphs with the same edges and the same metadata have the same nearest nodes. -/
theorem nearest?_congr (wf : g.WellFormed) (wf' : h.WellFormed) (outside : ¬Fits target g n)
    (edges : ∀ a b, h.Edge a b ↔ g.Edge a b) (same : ∀ m, h.meta? m = g.meta? m) :
    nearest? h n target = nearest? g n target := by
  have fits : Fits target h = Fits target g := by
    funext m
    rw [Fits, Fits, same]
  have linked : h.linked = g.linked := by
    have edge : h.Edge = g.Edge := funext₂ fun a b => propext (edges a b)
    rw [Graph.linked, edge, Graph.linked]
  have nearest : ∀ t, Nearest h target n t ↔ Nearest g target n t := by
    intro t
    constructor
    · rintro ⟨near, least, preferred⟩
      rw [fits, linked] at least preferred
      exact ⟨linked ▸ near, least, preferred⟩
    · rintro ⟨near, least, preferred⟩
      rw [← fits, ← linked] at least preferred
      exact ⟨linked ▸ near, least, preferred⟩
  ext t
  rw [nearest?_eq_some_iff wf' (fits ▸ outside), nearest?_eq_some_iff wf outside, nearest]

end Arrangement
end Cartograph

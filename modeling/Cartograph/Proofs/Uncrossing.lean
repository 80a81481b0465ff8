import Cartograph.Arrangement.Placement
import Cartograph.Proofs.Graph.Cutting
import Cartograph.Proofs.NodeId

/-!
# Linking instances by number

Of the edges between the instances that one pattern matches and those that another one matches, only
those between instances of one number stay (`Crosses`). The program goes through the nodes that
the first pattern matches and removes the edges at each (`CrossesAt`), first those to its children
and then those from its parents; each time it cuts what is left of the same graph
(`uncross_eq_without`), so in the end exactly the crossing edges are gone
(`matchBySuffix_eq_without`), whichever of the patterns comes first.
-/

namespace Cartograph.Arrangement

open Graph

variable {g : Graph} {first second : Pattern} {node a b : NodeId}

/-! ### Crossing edges -/

/-- Both are instances, with different numbers. -/
def NumbersDiffer (a b : NodeId) : Prop :=
  ∃ i j, NodeId.suffix? a = some i ∧ NodeId.suffix? b = some j ∧ i ≠ j

/-- One end is of each pattern, and they are instances with different numbers. -/
def Crosses (first second : Pattern) (g : Graph) (a b : NodeId) : Prop :=
  ((first.matchesNode a (g.meta? a) ∧ second.matchesNode b (g.meta? b)) ∨
    (second.matchesNode a (g.meta? a) ∧ first.matchesNode b (g.meta? b))) ∧ NumbersDiffer a b

/-- One end is the node, and the other one is of the pattern and has another number. -/
def CrossesAt (second : Pattern) (g : Graph) (node a b : NodeId) : Prop :=
  (a = node ∧ second.matchesNode b (g.meta? b) ∧ NumbersDiffer a b) ∨
    (b = node ∧ second.matchesNode a (g.meta? a) ∧ NumbersDiffer a b)

theorem numbersDiffer_iff : NumbersDiffer a b ↔
    (NodeId.suffix? a).any fun i => (NodeId.suffix? b).any (· ≠ i) := by
  simp only [NumbersDiffer, Option.any_eq_true, decide_eq_true_eq]
  constructor
  · rintro ⟨i, j, hi, hj, ne⟩
    exact ⟨i, hi, j, hj, ne.symm⟩
  · rintro ⟨i, hi, j, hj, ne⟩
    exact ⟨i, j, hi, hj, ne.symm⟩

theorem numbersDiffer_comm : NumbersDiffer a b ↔ NumbersDiffer b a :=
  ⟨fun ⟨i, j, hi, hj, ne⟩ => ⟨j, i, hj, hi, ne.symm⟩,
    fun ⟨i, j, hi, hj, ne⟩ => ⟨j, i, hj, hi, ne.symm⟩⟩

instance : Decidable (NumbersDiffer a b) := decidable_of_iff' _ numbersDiffer_iff

instance : Decidable (Crosses first second g a b) := inferInstanceAs (Decidable (_ ∧ _))

instance : Decidable (CrossesAt second g node a b) := inferInstanceAs (Decidable (_ ∨ _))

theorem crosses_comm : Crosses first second g a b ↔ Crosses second first g a b :=
  and_congr_left' or_comm

/-- An edge crosses if it does so at a node of the first pattern. -/
theorem crosses_iff_exists (wf : g.WellFormed) (edge : g.Edge a b) :
    Crosses first second g a b ↔ ∃ node ∈ g.nodesMatching first, CrossesAt second g node a b := by
  have source := edge.contains
  have target := wf.closed a b edge
  constructor
  · rintro ⟨⟨ha, hb⟩ | ⟨ha, hb⟩, differ⟩
    · exact ⟨a, mem_nodesMatching.2 ⟨source, ha⟩, .inl ⟨rfl, hb, differ⟩⟩
    · exact ⟨b, mem_nodesMatching.2 ⟨target, hb⟩, .inr ⟨rfl, ha, differ⟩⟩
  · rintro ⟨node, selected, ⟨rfl, hb, differ⟩ | ⟨rfl, ha, differ⟩⟩
    · exact ⟨.inl ⟨(mem_nodesMatching.1 selected).2, hb⟩, differ⟩
    · exact ⟨.inr ⟨ha, (mem_nodesMatching.1 selected).2⟩, differ⟩

/-- Cutting edges changes nothing about which node a pattern matches. -/
theorem matchesNode_without {cut : NodeId → NodeId → Bool} :
    second.matchesNode a ((g.without cut).meta? a) = second.matchesNode a (g.meta? a) :=
  matchesNode_congr typeOf_without

theorem isCross_iff {i : Nat} (number : NodeId.suffix? node = some i) :
    isCross second i g b ↔ second.matchesNode b (g.meta? b) ∧ NumbersDiffer node b := by
  rw [isCross, Bool.and_eq_true, numbersDiffer_iff, number]
  rfl

/-! ### The edges at one node -/

/-- The edges to children with another number go. -/
theorem removeChildren_eq_without (wf : g.WellFormed) {i : Nat}
    (number : NodeId.suffix? node = some i) :
    eachSilent (fun g b => (g.removeEdge node b).1)
        ((g.children node).filter (isCross second i g)) g =
      g.without fun a b => decide
        (a = node ∧ second.matchesNode b (g.meta? b) ∧ NumbersDiffer a b) := by
  rw [eachSilent_removeEdge wf.nodup (fun b => (node, b))]
  refine without_congr wf.nodup fun a b edge => decide_eq_decide.2 ?_
  simp only [List.mem_map, List.mem_filter, Prod.mk.injEq, isCross_iff number]
  constructor
  · rintro ⟨_, ⟨-, cross⟩, rfl, rfl⟩
    exact ⟨rfl, cross⟩
  · rintro ⟨rfl, cross⟩
    exact ⟨b, ⟨edge, cross⟩, rfl, rfl⟩

/-- The edges from parents with another number go. -/
theorem removeParents_eq_without (wf : g.WellFormed) {i : Nat}
    (number : NodeId.suffix? node = some i) :
    removeParents ((g.parents node).filter (isCross second i g)) node g =
      g.without fun a b => decide
        (b = node ∧ second.matchesNode a (g.meta? a) ∧ NumbersDiffer a b) := by
  rw [removeParents, eachSilent_removeEdge wf.nodup (fun a => (a, node))]
  refine without_congr wf.nodup fun a b edge => decide_eq_decide.2 ?_
  simp only [List.mem_map, List.mem_filter, Prod.mk.injEq, isCross_iff number,
    mem_parents wf.nodup, numbersDiffer_comm (a := node)]
  constructor
  · rintro ⟨_, ⟨-, cross⟩, rfl, rfl⟩
    exact ⟨rfl, cross⟩
  · rintro ⟨rfl, cross⟩
    exact ⟨a, ⟨edge, cross⟩, rfl, rfl⟩

/-- Only the crossing edges at the node go. -/
theorem uncross_eq_without (wf : g.WellFormed) :
    uncross second g node = g.without fun a b => decide (CrossesAt second g node a b) := by
  unfold uncross
  cases number : NodeId.suffix? node with
  | none =>
    refine (without_none wf.nodup fun a b _ => decide_eq_false ?_).symm
    rintro (⟨rfl, -, i, j, hi, -⟩ | ⟨rfl, -, i, j, -, hj, -⟩)
    · simp [number] at hi
    · simp [number] at hj
  | some i =>
    dsimp only
    rw [removeChildren_eq_without wf number,
      removeParents_eq_without (wellFormed_without wf) number, without_without]
    congr 1
    funext a b
    simp only [matchesNode_without]
    exact (Bool.decide_or _ _).symm

/-- The crossing edges at each of several nodes go. -/
theorem eachSilent_uncross (wf : g.WellFormed) (members : List NodeId) :
    eachSilent (uncross second) members g =
      g.without fun a b => decide (∃ node ∈ members, CrossesAt second g node a b) := by
  unfold eachSilent
  induction members generalizing g with
  | nil => exact (without_none wf.nodup fun _ _ _ => by simp).symm
  | cons node rest ih =>
    -- What crosses at a node hangs on the types of nodes, which no cut changes.
    have same : ∀ {cut : NodeId → NodeId → Bool} {node a b},
        CrossesAt second (g.without cut) node a b ↔ CrossesAt second g node a b := by
      simp only [CrossesAt, matchesNode_without, implies_true]
    rw [List.foldl_cons, uncross_eq_without wf, ih (wellFormed_without wf), without_without]
    congr 1
    funext a b
    simp only [same, List.exists_mem_cons_iff, Bool.decide_or]

/-- Exactly the crossing edges go. -/
theorem matchBySuffix_eq_without (wf : g.WellFormed) :
    matchBySuffix first second g = g.without fun a b => decide (Crosses first second g a b) :=
  (eachSilent_uncross wf _).trans
    (without_congr wf.nodup fun _ _ edge => decide_eq_decide.2 (crosses_iff_exists wf edge).symm)

/-! ### Families -/

/-- The instances of a resource. -/
def family (base : String) (count : Nat) : List NodeId :=
  (List.range' 1 count).map (NodeId.withSuffix base)

/-- Of the edges from each instance of a resource to each of another those between instances of one
    number stay. -/
theorem edges_families (wf : g.WellFormed) {x y : String} {count : Nat}
    (word : count < Nat.pow 2 64)
    (ofFirst : ∀ n, n ∈ g.nodesMatching first ↔ n ∈ family x count)
    (ofSecond : ∀ n, n ∈ g.nodesMatching second ↔ n ∈ family y count)
    (linked : ∀ a ∈ family x count, ∀ b ∈ family y count, g.Edge a b) :
    ((matchBySuffix first second g).edges.filter fun e =>
        e.1 ∈ family x count ∧ e.2 ∈ family y count).Perm
      ((List.range' 1 count).map fun i => (NodeId.withSuffix x i, NodeId.withSuffix y i)) := by
  rw [matchBySuffix_eq_without wf]
  have wf' : (g.without fun a b => decide (Crosses first second g a b)).WellFormed :=
    wellFormed_without wf
  have pairs : ((List.range' 1 count).map fun i =>
      (NodeId.withSuffix x i, NodeId.withSuffix y i)).Nodup :=
    List.Nodup.map (fun i j same => (NodeId.withSuffix_inj (congrArg Prod.fst same)).2)
      List.nodup_range'
  refine (List.perm_ext_iff_of_nodup ((nodup_edges wf'.nodup wf'.noRepetition).filter _) pairs).2 ?_
  rintro ⟨a, b⟩
  have edge : (a, b) ∈ (g.without fun a b => decide (Crosses first second g a b)).edges ↔
      g.Edge a b ∧ ¬Crosses first second g a b := by
    rw [mem_edges wf'.nodup, ← decide_eq_false_iff_not]
    exact edge_without
  have number : ∀ i ∈ List.range' 1 count, ∀ base,
      NodeId.suffix? (NodeId.withSuffix base i) = some i := fun i inside base =>
    NodeId.suffix?_withSuffix base (by have := List.mem_range'_1.1 inside; omega)
  simp only [List.mem_filter, edge, decide_eq_true_eq, List.mem_map, Prod.mk.injEq]
  constructor
  · rintro ⟨⟨-, straight⟩, inX, inY⟩
    obtain ⟨i, hi, rfl⟩ := List.mem_map.1 inX
    obtain ⟨j, hj, rfl⟩ := List.mem_map.1 inY
    have same : i = j := by
      refine Decidable.byContradiction fun ne =>
        straight ⟨.inl ⟨?_, ?_⟩, i, j, number i hi x, number j hj y, ne⟩
      · exact (mem_nodesMatching.1 ((ofFirst _).2 inX)).2
      · exact (mem_nodesMatching.1 ((ofSecond _).2 inY)).2
    exact ⟨i, hi, rfl, same ▸ rfl⟩
  · rintro ⟨i, hi, rfl, rfl⟩
    have inX : NodeId.withSuffix x i ∈ family x count := List.mem_map_of_mem hi
    have inY : NodeId.withSuffix y i ∈ family y count := List.mem_map_of_mem hi
    refine ⟨⟨linked _ inX _ inY, ?_⟩, inX, inY⟩
    rintro ⟨-, j, k, hj, hk, ne⟩
    rw [number i hi] at hj hk
    exact ne (Option.some.inj (hj.symm.trans hk))

/-! ### Linking by number -/

/-- An edge goes exactly if one end is of either pattern, the other one of the other, and both are
    instances, with different numbers. All nodes stay, and the children of each that are left stay
    in their order; of the metadata only the labels of the edges that go are lost. It does not
    matter which pattern comes first. Of the edges from each instance of a resource to each of
    another exactly those between instances of one number stay. -/
theorem matchBySuffix_uncrossed (wf : g.WellFormed) (first second : Pattern) :
    (∀ a b, (matchBySuffix first second g).Edge a b ↔
      g.Edge a b ∧ ¬Crosses first second g a b) ∧
    (∀ n, (matchBySuffix first second g).children n =
      (g.children n).filter (¬Crosses first second g n ·)) ∧
    (matchBySuffix first second g).nodes = g.nodes ∧
    (∀ n, (matchBySuffix first second g).meta? n = (g.meta? n).map
      (dropLabels fun c => g.hasEdge n c && decide (Crosses first second g n c))) ∧
    matchBySuffix second first g = matchBySuffix first second g ∧
    ∀ (x y : String) (count : Nat), count < Nat.pow 2 64 →
      (∀ n, n ∈ g.nodesMatching first ↔ n ∈ family x count) →
      (∀ n, n ∈ g.nodesMatching second ↔ n ∈ family y count) →
      (∀ a ∈ family x count, ∀ b ∈ family y count, g.Edge a b) →
      ((matchBySuffix first second g).edges.filter fun e =>
          e.1 ∈ family x count ∧ e.2 ∈ family y count).Perm
        ((List.range' 1 count).map fun i => (NodeId.withSuffix x i, NodeId.withSuffix y i)) := by
  have exchanged : matchBySuffix second first g = matchBySuffix first second g := by
    rw [matchBySuffix_eq_without wf, matchBySuffix_eq_without wf]
    exact without_congr wf.nodup fun a b _ => decide_eq_decide.2 crosses_comm
  refine ⟨?_, ?_, ?_, ?_, exchanged, fun x y count => edges_families wf⟩ <;>
    rw [matchBySuffix_eq_without wf]
  · intro a b
    rw [edge_without, decide_eq_false_iff_not]
  · intro n
    simp only [children_without, decide_not]
  · exact nodes_without
  · exact fun n => meta?_without

/-- Two load balancers, each in front of both of two servers. -/
def balanced : Graph :=
  let one := ((Graph.empty "aws").addEdge "aws_lb.web~1" "aws_instance.app~1").1
  let two := (one.addEdge "aws_lb.web~1" "aws_instance.app~2").1
  ((two.addEdge "aws_lb.web~2" "aws_instance.app~1").1.addEdge
    "aws_lb.web~2" "aws_instance.app~2").1

theorem matchBySuffix_uncrossed_balancers : balanced.WellFormed ∧
    balanced.nodesMatching (.ofType "aws_lb") = family "aws_lb.web" 2 ∧
    balanced.nodesMatching (.ofType "aws_instance") = family "aws_instance.app" 2 ∧
    ((matchBySuffix (.ofType "aws_lb") (.ofType "aws_instance") balanced).edges.filter fun e =>
        e.1 ∈ family "aws_lb.web" 2 ∧ e.2 ∈ family "aws_instance.app" 2).Perm
      [("aws_lb.web~1", "aws_instance.app~1"), ("aws_lb.web~2", "aws_instance.app~2")] := by
  have wf : balanced.WellFormed := wellFormed_addEdge (wellFormed_addEdge (wellFormed_addEdge
    (wellFormed_addEdge (wellFormed_empty "aws"))))
  have ofLb : balanced.nodesMatching (.ofType "aws_lb") = family "aws_lb.web" 2 := by
    decide +kernel
  have ofInstance : balanced.nodesMatching (.ofType "aws_instance") =
      family "aws_instance.app" 2 := by
    decide +kernel
  have linked : ∀ a ∈ family "aws_lb.web" 2, ∀ b ∈ family "aws_instance.app" 2,
      balanced.Edge a b := by
    unfold Edge
    decide +kernel
  refine ⟨wf, ofLb, ofInstance, ?_⟩
  obtain ⟨-, -, -, -, -, straight⟩ :=
    matchBySuffix_uncrossed wf (.ofType "aws_lb") (.ofType "aws_instance")
  exact straight "aws_lb.web" "aws_instance.app" 2 (by decide) (fun n => by rw [ofLb])
    (fun n => by rw [ofInstance]) linked

end Cartograph.Arrangement

import Cartograph.Proofs.Propagation.Reaching

/-!
# Spreading values one step

A value that spreads one step is handed on by the nodes that have their turns later, and these are
the ones with greater identifiers. So a value goes further than one step where selected nodes whose
identifiers increase follow each other (`Forwarded`): in the end each node has the greatest of its
own value and of those that are forwarded to it. That this is the greatest of its own value and of
those of its selected children, or parents, is so exactly if nothing that is forwarded is greater
(`propagate_forwarding`); it is not so of a chain of three nodes named in the order of their turns
(`propagate_forwards`).
-/

namespace Cartograph.Arrangement

open Graph

variable {g : Graph} {key : String} {n m s t : NodeId} {next : NodeId → NodeId → Prop}

/-! ### What is forwarded -/

/-- A value goes from a selected node to another over selected ones with ever greater
    identifiers. -/
inductive Forwarded (selected : NodeId → Prop) (next : NodeId → NodeId → Prop) :
    NodeId → NodeId → Prop
  | direct {s t : NodeId} : selected s → next s t → Forwarded selected next s t
  | onward {s m t : NodeId} : selected s → next s m → s < m → Forwarded selected next m t →
    Forwarded selected next s t

theorem Forwarded.first {selected : NodeId → Prop} (h : Forwarded selected next s t) :
    selected s := by
  cases h with
  | direct first | onward first => exact first

theorem Forwarded.mono {selected selected' : NodeId → Prop} (more : ∀ n, selected n → selected' n)
    (h : Forwarded selected next s t) : Forwarded selected' next s t := by
  induction h with
  | direct first step => exact .direct (more _ first) step
  | onward first step lt _ ih => exact .onward (more _ first) step lt ih

theorem forwarded_of_route {order : List NodeId} (sorted : order.Pairwise (· < ·))
    (route : Route next order s t) : Forwarded (· ∈ order) next s t := by
  induction route with
  | last step => exact .direct List.mem_cons_self step
  | onward step route ih =>
    obtain ⟨least, sorted⟩ := List.pairwise_cons.1 sorted
    refine .onward List.mem_cons_self step (least _ route.mem) ?_
    exact (ih sorted).mono fun _ => List.mem_cons_of_mem _
  | skip _ ih =>
    exact (ih (List.pairwise_cons.1 sorted).2).mono fun _ => List.mem_cons_of_mem _

/-- A route from a node begins behind all turns of nodes that are less. -/
theorem Route.of_lt {before after : List NodeId} (sorted : (before ++ n :: after).Pairwise (· < ·))
    (lt : n < m) (route : Route next (before ++ n :: after) m t) : Route next after m t := by
  induction before with
  | nil =>
    cases route with
    | last | onward => exact absurd lt Std.lt_irrefl
    | skip route => exact route
  | cons k before ih =>
    obtain ⟨least, sorted⟩ := List.pairwise_cons.1 sorted
    have lt' : k < m := Std.lt_trans (least n (by simp)) lt
    cases route with
    | last | onward => exact absurd lt' Std.lt_irrefl
    | skip route => exact ih sorted route

theorem route_of_forwarded {order : List NodeId} (sorted : order.Pairwise (· < ·))
    (h : Forwarded (· ∈ order) next s t) : Route next order s t := by
  induction h with
  | direct first step => exact route_of_next first step
  | onward first step lt _ ih =>
    -- The next node is greater, so the rest of its way has room behind the turn of this one.
    obtain ⟨before, after, rfl⟩ := List.append_of_mem first
    exact (Route.onward step (ih.of_lt sorted lt)).append before

/-! ### Spreading -/

/-- The bounds after a run in which values spread one step. -/
theorem atMost_spreads_step (wf : g.WellFormed) (other : key ≠ cardinalityKey)
    (ints : Integral key g) (up : Bool) (pattern : Pattern) (t : NodeId) (bound : Int) :
    AtMost key (eachSilent (spread key up .max false) (g.nodesMatching pattern) g) t bound ↔
      ∀ i ∈ integers key g (fun s => s = t ∨
        Forwarded (· ∈ g.nodesMatching pattern) (Toward g up) s t), i ≤ bound := by
  have sorted := sorted_nodesMatching g pattern
  have routes : ∀ s, Route (fun a b => b ∈ around g a up false) (g.nodesMatching pattern) s t ↔
      Forwarded (· ∈ g.nodesMatching pattern) (Toward g up) s t := by
    intro s
    simp only [mem_around_step wf.nodup]
    exact ⟨forwarded_of_route sorted, route_of_forwarded sorted⟩
  rw [(atMost_spreads wf other ints up false _).2]
  simp only [routes]
  constructor
  · rintro ⟨own, forwarded⟩ i ⟨s, rfl | source, read⟩
    · exact own i read
    · exact forwarded s source i read
  · intro all
    exact ⟨fun i read => all i ⟨t, .inl rfl, read⟩,
      fun s source i read => all i ⟨s, .inr source, read⟩⟩

/-- Each node ends up with the greatest of its own value and of the values that are forwarded to it,
    and with none if there is none of these; nothing else changes. These are the greatest of its
    own value and of the values of the selected nodes one step away, for every node, exactly if
    everything that is forwarded to a node is at most one of the latter. -/
theorem propagate_forwarding (wf : g.WellFormed) (pattern : Pattern) (up : Bool)
    (other : key ≠ cardinalityKey) (ints : Integral key g) :
    let g' := propagate pattern key (if up then .up else .down) .max false g
    let forwarded := Forwarded (· ∈ g.nodesMatching pattern) (Toward g up)
    let given := fun t => integers key g fun s => s = t ∨ forwarded s t
    let near := fun t => integers key g fun s => s = t ∨
      (s ∈ g.nodesMatching pattern ∧ if up then g.Edge t s else g.Edge s t)
    (∀ t, (∀ i, readKey g' t key = some (.int i) ↔ IsGreatest (given t) i) ∧
      (readKey g' t key = none ↔ given t = ∅)) ∧
    Raised key g g' ∧
    ((∀ t, (∀ i, readKey g' t key = some (.int i) ↔ IsGreatest (near t) i) ∧
      (readKey g' t key = none ↔ near t = ∅)) ↔
        ∀ s t, forwarded s t → ∀ i, readKey g s key = some (.int i) → ∃ j ∈ near t, i ≤ j) := by
  intro g' forwarded given near
  have run : g' = eachSilent (spread key up .max false) (g.nodesMatching pattern) g := by
    cases up <;> rfl
  have raised : Raised key g g' := run ▸ (atMost_spreads wf other ints up false _).1
  have bounds : ∀ t bound, AtMost key g' t bound ↔ ∀ i ∈ given t, i ≤ bound :=
    run ▸ atMost_spreads_step wf other ints up pattern
  have spec := fun t => greatest_of_atMost raised.integral (bounds t)
  refine ⟨spec, raised, fun all s t path i read => ?_, fun small t => ?_⟩
  · -- The node has got something, and that is the value of a node one step away.
    have here : i ∈ given t := ⟨s, .inr path, read⟩
    cases got : readKey g' t key with
    | none => exact absurd here (by rw [(spec t).2.1 got]; exact Set.notMem_empty i)
    | some v =>
      obtain ⟨j, rfl⟩ := raised.integral t v got
      exact ⟨j, (((all t).1 j).1 got).1, (((spec t).1 j).1 got).2 here⟩
  · refine greatest_of_atMost raised.integral fun bound => (bounds t bound).trans ?_
    constructor
    · rintro le i ⟨s, rfl | ⟨selected, step⟩, read⟩
      · exact le i ⟨s, .inl rfl, read⟩
      · exact le i ⟨s, .inr (.direct selected step), read⟩
    · rintro le i ⟨s, rfl | path, read⟩
      · exact le i ⟨s, .inl rfl, read⟩
      · obtain ⟨j, inside, less⟩ := small s t path i read
        exact less.trans (le j inside)

/-- Three networks, each in the one before, of which the innermost has a value. -/
def threeNetworks (outer middle inner : NodeId) : Graph :=
  (((Graph.empty "aws").addEdge outer middle).1.addEdge middle inner).1.modifyMeta inner
    fun m => { m with attributes := [("size", .int 1)] }

theorem wellFormed_threeNetworks (outer middle inner : NodeId) :
    (threeNetworks outer middle inner).WellFormed :=
  wellFormed_modifyMeta (wellFormed_addEdge (wellFormed_addEdge (wellFormed_empty "aws")))

/-- The middle network has its turn behind the inner one, and the outer one is in reach of both. -/
theorem propagate_forwarding_threeNetworks :
    let g := threeNetworks "aws_vpc.c" "aws_vpc.b" "aws_vpc.a"
    g.WellFormed ∧ "size" ≠ cardinalityKey ∧ Integral "size" g ∧
    readKey (propagate (.ofType "aws_vpc") "size" .up .max false g) "aws_vpc.c" "size" =
      some (.int 1) ∧
    IsGreatest (integers "size" g fun s => s = "aws_vpc.c" ∨
      Forwarded (· ∈ g.nodesMatching (.ofType "aws_vpc")) (Toward g true) s "aws_vpc.c") 1 := by
  intro g
  have wf : g.WellFormed := wellFormed_threeNetworks _ _ _
  have other : "size" ≠ cardinalityKey := by decide
  have ints : Integral "size" g := integral_of_holdsIntegers other (by decide +kernel)
  obtain ⟨greatest, raised, -⟩ := propagate_forwarding wf (.ofType "aws_vpc") true other ints
  have read : readKey (propagate (.ofType "aws_vpc") "size" .up .max false g) "aws_vpc.c" "size" =
      some (.int 1) := raised.integral.readKey_eq (by decide +kernel)
  exact ⟨wf, other, ints, read, ((greatest "aws_vpc.c").1 1).1 read⟩

/-- The outer network gets the value of the innermost one if the names are in the order in which
    the networks are nested, although it is two steps away and nothing one step away has any. With
    the names in the other order it gets none. -/
theorem propagate_forwards : let g := threeNetworks "aws_vpc.c" "aws_vpc.b" "aws_vpc.a"
    let g' := threeNetworks "aws_vpc.a" "aws_vpc.b" "aws_vpc.c"
    g.WellFormed ∧ Integral "size" g ∧
    (integers "size" g fun s => s = "aws_vpc.c" ∨
      (s ∈ g.nodesMatching (.ofType "aws_vpc") ∧ g.Edge "aws_vpc.c" s)) = ∅ ∧
    readKey (propagate (.ofType "aws_vpc") "size" .up .max false g) "aws_vpc.c" "size" =
      some (.int 1) ∧
    readKey (propagate (.ofType "aws_vpc") "size" .up .max false g') "aws_vpc.a" "size" = none := by
  intro g g'
  have wf : g.WellFormed := wellFormed_threeNetworks _ _ _
  have other : "size" ≠ cardinalityKey := by decide
  have ints : Integral "size" g := integral_of_holdsIntegers other (by decide +kernel)
  have outer : (readKey g "aws_vpc.c" "size").isSome = false := by decide +kernel
  have middle : (readKey g "aws_vpc.b" "size").isSome = false := by decide +kernel
  have children : g.children "aws_vpc.c" = ["aws_vpc.b"] := by decide +kernel
  have spread := atMost_spreads wf other ints true false (g.nodesMatching (.ofType "aws_vpc"))
  have mirrored : (readKey (propagate (.ofType "aws_vpc") "size" .up .max false g') "aws_vpc.a"
      "size").isSome = false := by decide +kernel
  refine ⟨wf, ints, Set.eq_empty_of_forall_notMem ?_, spread.1.integral.readKey_eq ?_, ?_⟩
  · rintro i ⟨s, rfl | ⟨-, edge⟩, read⟩
    · simp [read] at outer
    · rw [Edge, children, List.mem_singleton] at edge
      subst edge
      simp [read] at middle
  · decide +kernel
  · simpa using mirrored

end Cartograph.Arrangement

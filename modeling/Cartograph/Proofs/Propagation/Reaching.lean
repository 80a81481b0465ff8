import Cartograph.Proofs.Propagation.Raising

/-!
# Spreading values any number of steps

A value that spreads any number of steps comes at once to all nodes that it can come to
(`mem_around_all`), so it makes no difference that nodes hand on what they have only just got: in
the end each node has the greatest of its own value and of those that the selected nodes below it,
or above it, had in the beginning, on circles too, and in whatever order the selected nodes have
their turns (`propagate_reaching`).
-/

namespace Cartograph.Arrangement

open Graph

variable {g a b : Graph} {key : String} {n s t : NodeId} {up : Bool}

/-! ### Where a value goes -/

/-- One step of a value: to a parent if it goes up, and to a child otherwise. -/
def Toward (g : Graph) (up : Bool) (s t : NodeId) : Prop := if up then g.Edge t s else g.Edge s t

theorem Toward.contains (wf : g.WellFormed) (step : Toward g up s t) : g.contains t := by
  unfold Toward at step
  split at step
  · exact step.contains
  · exact wf.closed s t step

theorem mem_next (nodup : g.nodes.Nodup) :
    t ∈ (if up then g.parents else g.children) s ↔ Toward g up s t := by
  cases up with
  | true => exact mem_parents nodup
  | false => exact Iff.rfl

theorem mem_around_step (nodup : g.nodes.Nodup) :
    t ∈ around g s up false ↔ Toward g up s t := mem_next nodup

theorem transGen_toward : Relation.TransGen (Toward g up) s t ↔
    if up then g.Above t s else g.Above s t := by
  cases up with
  | true => exact Relation.transGen_swap
  | false => exact Iff.rfl

/-- The nodes in reach of a node are the others that it comes to by steps. -/
theorem mem_around_all (wf : g.WellFormed) :
    t ∈ around g s up true ↔ t ≠ s ∧ Relation.TransGen (Toward g up) s t := by
  have inside : ∀ {a b}, Toward g up a b → b ≠ s → b ∈ g.nodes.erase s := fun step ne =>
    (List.mem_erase_of_ne ne).2 (mem_nodes.2 (step.contains wf))
  refine Iff.trans mem_reach_iff ⟨fun reached => ⟨?_, ?_⟩, ?_⟩
  · exact fun same => ((List.Nodup.mem_erase_iff wf.nodup).1 reached.inside).1 same
  · induction reached with
    | seed _ first => exact .single ((mem_next wf.nodup).1 first)
    | step _ _ onward ih => exact ih.tail ((mem_next wf.nodup).1 onward)
  · rintro ⟨ne, path⟩
    induction path with
    | single step => exact .seed (inside step ne) ((mem_next wf.nodup).2 step)
    | @tail b c path step ih =>
      -- A path on a circle may come by its own beginning, where the search starts anew.
      by_cases back : b = s
      · exact .seed (inside step ne) ((mem_next wf.nodup).2 (back ▸ step))
      · exact .step (ih back) (inside step ne) ((mem_next wf.nodup).2 step)

/-! ### In any order -/

/-- A value gets nowhere that it would not have got to alone. -/
theorem Route.transGen {next : NodeId → NodeId → Prop} {order : List NodeId}
    (single : ∀ a b, next a b → Relation.TransGen (Toward g up) a b)
    (route : Route next order s t) : Relation.TransGen (Toward g up) s t := by
  induction route with
  | last step => exact single _ _ step
  | onward step _ ih => exact (single _ _ step).trans ih
  | skip _ ih => exact ih

theorem route_of_next {next : NodeId → NodeId → Prop} {order : List NodeId} (inside : s ∈ order)
    (step : next s t) : Route next order s t := by
  obtain ⟨before, after, rfl⟩ := List.append_of_mem inside
  exact (Route.last step).append before

/-- The bounds after a run in which values spread any number of steps. -/
theorem atMost_spreads_all (wf : g.WellFormed) (other : key ≠ cardinalityKey)
    (ints : Integral key g) (up : Bool) (order : List NodeId) (t : NodeId) (bound : Int) :
    AtMost key (eachSilent (spread key up .max true) order g) t bound ↔
      ∀ i ∈ integers key g (fun s => s = t ∨
        (s ∈ order ∧ if up then g.Above t s else g.Above s t)), i ≤ bound := by
  rw [(atMost_spreads wf other ints up true order).2]
  simp only [mem_around_all wf, ← transGen_toward]
  constructor
  · rintro ⟨own, routes⟩ i ⟨s, source, read⟩
    by_cases same : s = t
    · exact own i (same ▸ read)
    · obtain ⟨inside, path⟩ := source.resolve_left same
      exact routes s (route_of_next inside ⟨Ne.symm same, path⟩) i read
  · intro all
    refine ⟨fun i read => all i ⟨t, .inl rfl, read⟩, fun s route i read => all i ⟨s, .inr ?_, read⟩⟩
    exact ⟨route.mem, route.transGen fun _ _ step => step.2⟩

/-- Graphs are the same if all look-ups give the same. -/
abbrev Agree (g g' : Graph) : Prop := AgreeBut (fun _ => False) g g'

/-- Two graphs in which integers have been written are the same if these have the same bounds. -/
theorem Raised.agree_of_bounds (other : key ≠ cardinalityKey) (ha : Raised key g a)
    (hb : Raised key g b) (bounds : ∀ t bound, AtMost key a t bound ↔ AtMost key b t bound) :
    Agree a b := by
  have read : ∀ t, readKey b t key = readKey a t key := by
    intro t
    obtain ⟨greatest, none⟩ := greatest_of_atMost (S := {i | readKey a t key = some (.int i)})
      hb.integral fun bound => (bounds t bound).symm
    cases found : readKey a t key with
    | none => exact none.2 (Set.eq_empty_of_forall_notMem fun i hi => by simp [found] at hi)
    | some v =>
      obtain ⟨i, rfl⟩ := ha.integral t v found
      refine (greatest i).2 ⟨found, fun j hj => ?_⟩
      cases found.symm.trans hj
      exact le_rfl
  have both := ha.agree.symm.trans hb.agree
  refine ⟨both.adjacency, both.provider, both.title, both.rest, fun n k _ => ?_⟩
  by_cases same : k = key
  · subst same
    cases found : readKey a n k with
    | none => exact (hb.kept n ((read n).trans found)).trans (ha.kept n found).symm
    | some v =>
      have given := (read n).trans found
      rw [readKey_eq other] at found given
      rw [(Option.filter_eq_some_iff.1 found).1, (Option.filter_eq_some_iff.1 given).1]
  · exact both.same n k same

/-! ### Spreading -/

/-- Each node ends up with the greatest of its own value and of the values that the selected nodes
    below it (above it if values go down) had in the beginning, at any distance, and with none if
    there is none of these. Nothing else changes, and the selected nodes may have their turns in
    any order. -/
theorem propagate_reaching (wf : g.WellFormed) (pattern : Pattern) (up : Bool)
    (other : key ≠ cardinalityKey) (ints : Integral key g) :
    let g' := propagate pattern key (if up then .up else .down) .max true g
    let given := fun t => integers key g fun s => s = t ∨
      (s ∈ g.nodesMatching pattern ∧ if up then g.Above t s else g.Above s t)
    (∀ t, (∀ i, readKey g' t key = some (.int i) ↔ IsGreatest (given t) i) ∧
      (readKey g' t key = none ↔ given t = ∅)) ∧
    Raised key g g' ∧
    ∀ order, order.Perm (g.nodesMatching pattern) →
      Agree g' (eachSilent (spread key up .max true) order g) := by
  intro g' given
  have run : g' = eachSilent (spread key up .max true) (g.nodesMatching pattern) g := by
    cases up <;> rfl
  have raised := fun order => (atMost_spreads wf other ints up true order).1
  have bounds := atMost_spreads_all wf other ints up
  rw [run]
  refine ⟨fun t => ?_, raised _, fun order perm => ?_⟩
  · exact greatest_of_atMost (raised _).integral (bounds _ t)
  · refine (raised _).agree_of_bounds other (raised order) fun t bound => ?_
    rw [bounds, bounds]
    simp only [perm.mem_iff]

/-- Two networks that hold each other, and a subnet in one of them. -/
def interlocked : Graph :=
  let one := ((Graph.empty "aws").addEdge "aws_vpc.a" "aws_vpc.b").1
  let two := ((one.addEdge "aws_vpc.b" "aws_vpc.a").1.addEdge "aws_vpc.b" "aws_subnet.c").1
  (two.modifyMeta "aws_vpc.a" fun m => { m with attributes := [("size", .int 3)] }).modifyMeta
    "aws_subnet.c" fun m => { m with attributes := [("size", .int 1)] }

/-- The subnet gets the value of the network that it is in by way of the other one. -/
theorem propagate_reaching_interlocked : interlocked.WellFormed ∧ "size" ≠ cardinalityKey ∧
    Integral "size" interlocked ∧
    readKey (propagate (.ofType "aws_vpc") "size" .down .max true interlocked) "aws_subnet.c"
      "size" = some (.int 3) ∧
    IsGreatest (integers "size" interlocked fun s => s = "aws_subnet.c" ∨
      (s ∈ interlocked.nodesMatching (.ofType "aws_vpc") ∧
        interlocked.Above s "aws_subnet.c")) 3 := by
  have wf : interlocked.WellFormed := by
    unfold interlocked
    exact wellFormed_modifyMeta (wellFormed_modifyMeta (wellFormed_addEdge (wellFormed_addEdge
      (wellFormed_addEdge (wellFormed_empty "aws")))))
  have other : "size" ≠ cardinalityKey := by decide
  have ints : Integral "size" interlocked := integral_of_holdsIntegers other (by decide +kernel)
  obtain ⟨greatest, raised, -⟩ := propagate_reaching wf (.ofType "aws_vpc") false other ints
  have read : readKey (propagate (.ofType "aws_vpc") "size" .down .max true interlocked)
      "aws_subnet.c" "size" = some (.int 3) := raised.integral.readKey_eq (by decide +kernel)
  exact ⟨wf, other, ints, read, ((greatest "aws_subnet.c").1 3).1 read⟩

end Cartograph.Arrangement

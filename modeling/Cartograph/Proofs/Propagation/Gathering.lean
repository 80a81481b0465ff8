import Cartograph.Proofs.Propagation.Choosing
import Cartograph.Proofs.Propagation.Reaching

/-!
# Gathering values from children

A node that gets the greatest or the least value of its children gets the same one in whatever order
they are, exactly if their values are steady (`Steady`); and a run over all selected nodes comes to
the same graph, up to the order of children, if they are so in each turn (`propagate_reordered`).
Texts that are no numbers are not steady beside numbers: the one that comes first stays
(`propagate_first`).
-/

namespace Cartograph.Arrangement

open Cartograph.Graph

variable {g h : Graph} {key : String} {n : NodeId} {aggregation : Aggregation}
  {transitive : Bool} {vs : List Value}

/-! ### Graphs with other orders -/

/-- Graphs that differ in the order of children only. -/
structure Reordered (g h : Graph) : Prop where
  nodes : h.nodes = g.nodes
  meta? : ∀ n, h.meta? n = g.meta? n
  children : ∀ n, (h.children n).Perm (g.children n)

theorem reordered_setChildren {cs : List NodeId} (there : g.contains n)
    (perm : cs.Perm (g.children n)) : Reordered g (g.setChildren n cs) := by
  refine ⟨nodes_setChildren, fun _ => rfl, fun k => ?_⟩
  rw [children_setChildren there]
  split
  · next same => exact same ▸ perm
  · exact .refl _

namespace Reordered

theorem contains (r : Reordered g h) : h.contains n = g.contains n := by
  rw [Bool.eq_iff_iff, ← mem_nodes, ← mem_nodes, r.nodes]

theorem wellFormed (r : Reordered g h) (wf : g.WellFormed) : h.WellFormed where
  nodup := r.nodes ▸ wf.nodup
  sameNodes n := by rw [r.contains, r.meta?, wf.sameNodes]
  closed n c hc := r.contains ▸ wf.closed n c ((r.children n).mem_iff.1 hc)
  noRepetition n := (r.children n).nodup_iff.2 (wf.noRepetition n)
  noLoop n hn := wf.noLoop n ((r.children n).mem_iff.1 hn)

theorem readKey (r : Reordered g h) : readKey h n key = readKey g n key := by
  rw [Arrangement.readKey, Arrangement.readKey, r.meta?]

theorem nodesMatching (r : Reordered g h) (pattern : Pattern) :
    h.nodesMatching pattern = g.nodesMatching pattern := by
  simp only [Graph.nodesMatching, Graph.sortedNodes, r.nodes, r.meta?]

end Reordered

/-- The nodes in reach are the same. -/
theorem Reordered.around (r : Reordered g h) (wf : g.WellFormed) (n : NodeId) (transitive : Bool) :
    (around h n false transitive).Perm (around g n false transitive) := by
  cases transitive with
  | false => exact r.children n
  | true =>
    have single : ∀ a b, Toward h false a b ↔ Toward g false a b := fun a _ =>
      (r.children a).mem_iff
    have all : ∀ {g : Graph}, g.WellFormed → (Arrangement.around g n false true).Nodup :=
      fun wf => nodup_reach (wf.nodup.erase n)
    refine (List.perm_ext_iff_of_nodup (all (r.wellFormed wf)) (all wf)).2 fun t => ?_
    rw [mem_around_all (r.wellFormed wf), mem_around_all wf]
    have same : Toward h false = Toward g false := funext₂ fun a b => propext (single a b)
    rw [same]

/-! ### One turn -/

/-- The values that some nodes have. -/
def values (g : Graph) (key : String) (nodes : List NodeId) : List Value :=
  nodes.filterMap fun n => readKey g n key

theorem values_cons {v : Value} {ns : List NodeId} (read : readKey g n key = some v) :
    values g key (n :: ns) = v :: values g key ns :=
  List.filterMap_cons_some (f := fun n => readKey g n key) read

theorem Reordered.values (r : Reordered g h) (ns : List NodeId) :
    values h key ns = values g key ns := by
  simp only [Arrangement.values, r.readKey]

theorem aggregate_eq (nodes : List NodeId) :
    aggregate g key aggregation nodes = total aggregation (values g key nodes) := by
  rw [aggregate, total, values, List.foldl_filterMap]
  congr 1
  funext sum n
  cases readKey g n key <;> rfl

theorem gather_eq (extreme : Extreme aggregation) : gather key aggregation transitive g n =
    match total aggregation (values g key (around g n false transitive)) with
    | none => g
    | some v => writeKey n key v g := by
  have replaced : ¬(aggregation = .keepExisting ∧ (readKey g n key).isSome) := by
    rintro ⟨rfl, -⟩
    rcases extreme with other | other <;> cases other
  rw [gather, aggregate_eq]
  cases total aggregation (values g key (around g n false transitive)) with
  | none => rfl
  | some v => exact if_neg replaced

theorem Reordered.writeKey (r : Reordered g h) (wf : g.WellFormed) (v : Value) :
    Reordered (writeKey n key v g) (writeKey n key v h) := by
  refine ⟨?_, fun t => ?_, fun t => ?_⟩
  · rw [Arrangement.writeKey, Arrangement.writeKey, nodes_modifyMeta, nodes_modifyMeta, r.nodes]
  · rw [Arrangement.writeKey, Arrangement.writeKey, meta?_modifyMeta (wf.sameNodes n),
      meta?_modifyMeta ((r.wellFormed wf).sameNodes n), r.meta?]
  · rw [Arrangement.writeKey, Arrangement.writeKey, children_modifyMeta, children_modifyMeta]
    exact r.children t

/-- A turn in which the values are steady keeps graphs the same up to the order of children. -/
theorem Reordered.gather (r : Reordered g h) (wf : g.WellFormed) (extreme : Extreme aggregation)
    (steady : Steady aggregation
      (Arrangement.values g key (Arrangement.around g n false transitive))) :
    Reordered (gather key aggregation transitive g n) (gather key aggregation transitive h n) := by
  have perm : (Arrangement.values h key (Arrangement.around h n false transitive)).Perm
      (Arrangement.values g key (Arrangement.around g n false transitive)) := by
    rw [r.values]
    exact (r.around wf n transitive).filterMap _
  rw [gather_eq extreme, gather_eq extreme, total_perm extreme steady perm]
  split
  · exact r
  · exact r.writeKey wf _

theorem wellFormed_gather (wf : g.WellFormed) (extreme : Extreme aggregation) :
    (gather key aggregation transitive g n).WellFormed := by
  rw [gather_eq extreme]
  split
  · exact wf
  · exact wellFormed_modifyMeta wf

theorem attribute?_gather {v : Value} (wf : g.WellFormed) (other : key ≠ cardinalityKey)
    (there : g.contains n) (extreme : Extreme aggregation)
    (found : total aggregation (values g key (around g n false transitive)) = some v) :
    attribute? (gather key aggregation transitive g n) n key = some v := by
  rw [gather_eq extreme, found]
  exact (attribute?_writeKey wf other there).trans (if_pos ⟨rfl, rfl⟩)

/-- Where the order of a node's children makes no difference, their values are steady. -/
theorem steady_of_reordered (wf : g.WellFormed) (extreme : Extreme aggregation)
    (same : ∀ h, Reordered g h →
      (gather key aggregation false h n).meta? n = (gather key aggregation false g n).meta? n) :
    Steady aggregation (values g key (g.children n)) := by
  by_cases other : key = cardinalityKey
  · refine steady_of_ints fun v hv => ?_
    obtain ⟨c, -, read⟩ := List.mem_filterMap.1 hv
    obtain ⟨m, -, read⟩ := Option.bind_eq_some_iff.1 read
    rw [if_pos other] at read
    cases read
    exact ⟨_, rfl⟩
  have moved : ∀ v ∈ values g key (g.children n), ∃ ws,
      (v :: ws).Perm (values g key (g.children n)) ∧
      total aggregation (v :: ws) = total aggregation (values g key (g.children n)) := by
    intro v hv
    obtain ⟨c, hc, read⟩ := List.mem_filterMap.1 hv
    have there : g.contains n := contains_of_mem_children hc
    obtain ⟨before, after, children⟩ := List.append_of_mem hc
    -- The child with the value comes first.
    have perm : (c :: (before ++ after)).Perm (g.children n) := children ▸ List.perm_middle.symm
    have r := reordered_setChildren there perm
    have first : values g key (c :: (before ++ after)) = v :: values g key (before ++ after) :=
      values_cons read
    refine ⟨values g key (before ++ after), first ▸ perm.filterMap _, ?_⟩
    obtain ⟨t, whole⟩ : ∃ t, total aggregation (values g key (g.children n)) = some t := by
      cases some : values g key (g.children n) with
      | nil => rw [some] at hv; exact absurd hv List.not_mem_nil
      | cons w ws => exact ⟨_, total_cons⟩
    obtain ⟨t', whole'⟩ : ∃ t, total aggregation (v :: values g key (before ++ after)) = some t :=
      ⟨_, total_cons⟩
    have given : attribute? (gather key aggregation false g n) n key = some t :=
      attribute?_gather wf other there extreme whole
    have given' : attribute? (gather key aggregation false
        (g.setChildren n (c :: (before ++ after))) n) n key = some t' := by
      refine attribute?_gather (r.wellFormed wf) other (r.contains.trans there) extreme ?_
      have here : around (g.setChildren n (c :: (before ++ after))) n false false =
          c :: (before ++ after) := (children_setChildren there).trans (if_pos rfl)
      rw [here, r.values, first, whole']
    rw [attribute?, same _ r, ← attribute?, given] at given'
    rw [whole, whole', given']
  exact steady_of_first extreme moved

/-! ### All turns -/

/-- If the values are steady in each turn, a run keeps graphs the same up to the order of
    children. -/
theorem Reordered.gathers (r : Reordered g h) (wf : g.WellFormed) (extreme : Extreme aggregation)
    {order : List NodeId} (steady : ∀ before n after, order = before ++ n :: after →
      let now := eachSilent (Arrangement.gather key aggregation transitive) before g
      Steady aggregation (Arrangement.values now key (Arrangement.around now n false transitive))) :
    Reordered (eachSilent (Arrangement.gather key aggregation transitive) order g)
      (eachSilent (Arrangement.gather key aggregation transitive) order h) := by
  induction order generalizing g h with
  | nil => exact r
  | cons n order ih =>
    refine ih (r.gather wf extreme (steady [] n order rfl)) (wellFormed_gather wf extreme) ?_
    intro before k after rest
    exact steady (n :: before) k after (congrArg (n :: ·) rest)

/-- What a node gets from its children does not depend on their order exactly if their values are
    steady. A run in which they are so in each turn, with values from any number of steps below as
    well, comes to the same graph up to the order of children. -/
theorem propagate_reordered (wf : g.WellFormed) (key : String) (extreme : Extreme aggregation) :
    (∀ n, Steady aggregation (values g key (g.children n)) ↔ ∀ h, Reordered g h →
      (gather key aggregation false h n).meta? n = (gather key aggregation false g n).meta? n) ∧
    ∀ pattern transitive, (∀ before n after, g.nodesMatching pattern = before ++ n :: after →
        let now := eachSilent (gather key aggregation transitive) before g
        Steady aggregation (values now key (around now n false transitive))) →
      ∀ h, Reordered g h → Reordered (propagate pattern key .fromChildren aggregation transitive g)
        (propagate pattern key .fromChildren aggregation transitive h) := by
  refine ⟨fun n => ⟨fun steady h r => ?_, steady_of_reordered wf extreme⟩,
    fun pattern transitive steady h r => ?_⟩
  · exact (r.gather wf extreme steady).meta? n
  · have run : ∀ g, propagate pattern key .fromChildren aggregation transitive g =
        eachSilent (gather key aggregation transitive) (g.nodesMatching pattern) g := fun _ => rfl
    rw [run, run, r.nodesMatching]
    exact r.gathers wf extreme steady

/-- A balancer with two instances, one with a given size and one of size 3. -/
def balancer (size : Value) : Graph :=
  let one := ((Graph.empty "aws").addEdge "aws_lb.x" "aws_instance.a").1
  let two := (one.addEdge "aws_lb.x" "aws_instance.b").1
  (two.modifyMeta "aws_instance.a" fun m => { m with attributes := [("size", size)] }).modifyMeta
    "aws_instance.b" fun m => { m with attributes := [("size", .int 3)] }

theorem wellFormed_balancer (size : Value) : (balancer size).WellFormed := by
  unfold balancer
  exact wellFormed_modifyMeta (wellFormed_modifyMeta (wellFormed_addEdge (wellFormed_addEdge
    (wellFormed_empty "aws"))))

/-- The balancer with its instances in the other order. -/
def swapped (size : Value) : Graph :=
  (balancer size).setChildren "aws_lb.x" ["aws_instance.b", "aws_instance.a"]

/-- The text of a number is steady beside a number, so the balancer gets the same. -/
theorem propagate_reordered_balancer : (balancer (.text "5")).WellFormed ∧ Extreme .max ∧
    Reordered (balancer (.text "5")) (swapped (.text "5")) ∧
    (gather "size" .max false (swapped (.text "5")) "aws_lb.x").meta? "aws_lb.x" =
      (gather "size" .max false (balancer (.text "5")) "aws_lb.x").meta? "aws_lb.x" := by
  have wf := wellFormed_balancer (.text "5")
  have r : Reordered (balancer (.text "5")) (swapped (.text "5")) :=
    reordered_setChildren (by decide +kernel) (by decide +kernel)
  have positive : ((values (balancer (.text "5")) "size"
      ((balancer (.text "5")).children "aws_lb.x")).filterMap Value.asFloat?).all
        (fun f => decide (f ≠ Decimal.signed true 0)) = true := by decide +kernel
  have steady : Steady .max (values (balancer (.text "5")) "size"
      ((balancer (.text "5")).children "aws_lb.x")) :=
    .inr ⟨List.all_eq_true.1 (by decide +kernel),
      fun tied => of_decide_eq_true (List.all_eq_true.1 positive _ tied.2.1) rfl⟩
  exact ⟨wf, .inl rfl, r, ((propagate_reordered wf "size" (.inl rfl)).1 "aws_lb.x").1 steady _ r⟩

/-- A text that is no number stays if it comes first, and gives way otherwise. -/
theorem propagate_first :
    let result := fun g => readKey (propagate (.ofType "aws_lb") "size" .fromChildren .max false g)
      "aws_lb.x" "size"
    (balancer (.text "large")).WellFormed ∧
    Reordered (balancer (.text "large")) (swapped (.text "large")) ∧
    result (balancer (.text "large")) = some (.text "large") ∧
    result (swapped (.text "large")) = some (.int 3) := by
  intro result
  refine ⟨wellFormed_balancer _, reordered_setChildren (by decide +kernel) (by decide +kernel),
    ?_, ?_⟩
  · rfl
  · rfl

end Cartograph.Arrangement

import Cartograph.Proofs.Stages
import Cartograph.Proofs.Tidying

/-!
# Verdicts on snapshots

A snapshot can come from anywhere. All that restoring it makes sure of is that its graph is
*complete* (`Graph.Complete`): a child may stand twice there, and a node may be its own child, as in
no graph that a run comes to. Tidying keeps complete graphs complete all the same
(`Validation.complete_tidied`), so of all that finishing a restored graph does only the check for
shared children can fail (`Validation.validate_eq`).

Hence checking a snapshot says what replaying it would come to: one succeeds exactly if the other
does, and if not, both fail with the same error (`Pipeline.replay_verdict`).
-/

namespace Cartograph

open Graph Arrangement Containment

variable {g : Graph} {p : Rules.Providers} {n a b : NodeId} {m : NodeMeta}

/-! ### Complete graphs -/

namespace Graph

/-- One more node, with no children. -/
theorem closed_grown (h : g.Complete) {contains : NodeId → Prop}
    (more : ∀ k, g.contains k → contains k) :
    ∀ x ∈ if g.contains n then g.adjacency else g.adjacency ++ [(n, [])],
      ∀ c ∈ x.2, contains c := by
  intro x hx c hc
  split at hx
  · exact more c (h.closed x hx c hc)
  · rcases List.mem_append.1 hx with old | new
    · exact more c (h.closed x old c hc)
    · rw [List.mem_singleton.1 new] at hc
      exact absurd hc List.not_mem_nil

theorem complete_insertNode (h : g.Complete) : (g.insertNode n m).Complete where
  sameNodes k := by
    rw [contains_insertNode, meta?_insertNode, h.sameNodes]
    by_cases same : n = k <;> simp [same]
  closed := closed_grown h fun _ there => contains_insertNode.2 (.inr there)

theorem complete_ensureNode (h : g.Complete) : (g.ensureNode n).1.Complete where
  sameNodes k := by
    rw [contains_ensureNode, meta?_ensureNode, Option.isSome_or, h.sameNodes]
    by_cases same : n = k <;> simp [same]
  closed := closed_grown h fun _ there => contains_ensureNode.2 (.inr there)

/-- Every child of a complete graph is a node. -/
theorem Complete.contains_child (h : g.Complete) (edge : b ∈ g.children a) : g.contains b :=
  h.closed _ (Keyed.mem_of_find? (find?_adjacency_of_contains (contains_of_mem_children edge))) b
    edge

theorem complete_setChildren {cs : List NodeId} (h : g.Complete) (there : ∀ c ∈ cs, g.contains c) :
    (g.setChildren n cs).Complete where
  sameNodes k := contains_setChildren.trans (h.sameNodes k)
  closed x hx c hc := by
    rw [contains_setChildren]
    obtain ⟨⟨k, old⟩, inside, rfl⟩ := List.mem_map.1 hx
    by_cases same : k = n
    · exact there c (by simpa [same] using hc)
    · exact h.closed _ inside c (by simpa [same] using hc)

theorem complete_addEdge (h : g.Complete) : (g.addEdge a b).1.Complete := by
  by_cases ne : a = b
  · subst ne
    rwa [addEdge_self]
  have ends : ((g.ensureNode a).1.ensureNode b).1.Complete :=
    complete_ensureNode (complete_ensureNode h)
  rw [addEdge_of_ne ne]
  dsimp only
  split
  · exact ends
  · refine complete_setChildren ends fun c hc => ?_
    rw [contains_ensureNode, contains_ensureNode]
    rcases List.mem_append.1 hc with old | new
    · exact .inr (.inr (h.contains_child old))
    · exact .inl (List.mem_singleton.1 new).symm

/-- A node goes with everything that leads to it. -/
theorem complete_removeNode (h : g.Complete) : (g.removeNode n).1.Complete where
  sameNodes k := by
    rw [contains_removeNode, meta?_removeNode, h.sameNodes]
    by_cases same : k = n <;> simp [same]
  closed x hx c hc := by
    obtain ⟨y, inside, rfl⟩ := List.mem_map.1 hx
    obtain ⟨old, other⟩ := List.mem_filter.1 hc
    exact contains_removeNode.2
      ⟨of_decide_eq_true other, h.closed y (List.mem_of_mem_filter inside) c old⟩

end Graph

/-! ### Tidying -/

namespace Validation

theorem complete_removeAll {nodes : List NodeId} (h : g.Complete) :
    (removeAll nodes g).Complete := by
  induction nodes generalizing g with
  | nil => exact h
  | cons n rest ih => exact ih (complete_removeNode h)

theorem complete_fill {s : Graph × List NodeId} (h : s.1.Complete) : (fill p s n).1.Complete := by
  unfold fill
  dsimp only
  split
  · exact complete_addEdge (complete_insertNode h)
  · exact h

/-- Tidying leaves nothing missing, whatever else the graph is like. -/
theorem complete_tidied (h : g.Complete) (keep : Bool) :
    (fillAll p (kept keep p g)).1.Complete := by
  have loop : ∀ (nodes : List NodeId) (s : Graph × List NodeId), s.1.Complete →
      (nodes.foldl (fill p) s).1.Complete := by
    intro nodes
    induction nodes with
    | nil => exact fun _ h => h
    | cons n rest ih => exact fun s h => ih _ (complete_fill h)
  exact loop _ (_, []) (complete_removeAll h)

/-- Of a complete graph, validation only fails if children are shared. -/
theorem validate_eq (h : g.Complete) (keep : Bool) :
    validate keep p g = (checkShared p g).map fun _ =>
      ((fillAll p (kept keep p g)).1, ⟨dropped keep p g, (fillAll p (kept keep p g)).2⟩) := by
  have intact : (fillAll p (kept keep p g)).1.checkIntegrity "validate" = .ok () :=
    checkIntegrity_ok_iff.2 (complete_tidied h keep)
  unfold kept dropped at intact ⊢
  rw [validate]
  cases checkShared p g with
  | error e => rfl
  | ok =>
    simp only [bind, Except.bind, intact]
    rfl

end Validation

/-! ### Verdicts -/

theorem Snapshot.complete_of_restore {s : Snapshot} (h : s.restore = .ok g) : g.Complete := by
  obtain ⟨⟨⟩, -, ⟨⟩, intact, same⟩ := by simpa only [restore, bind_ok_iff] using h
  cases same
  exact checkIntegrity_ok_iff.1 intact

namespace Pipeline

variable {config : Pipeline}

/-- Without annotations and without a stop, a graph is finished when it is validated. -/
theorem finish_plain (plain : config.annotations = none)
    (free : ∀ phase, config.stopped phase = false) (p : Rules.Providers) (g : Graph) :
    config.finish p g =
      (Validation.validate config.keepStandalone p g).map fun (g', _) => (g', []) := by
  have go : ∀ phase, config.checkStop phase = .ok () := fun phase => by
    rw [checkStop, free, if_neg Bool.false_ne_true]
  unfold finish
  simp only [go, annotate_none plain]
  cases Validation.validate config.keepStandalone p g <;> rfl

/-- Whatever a snapshot holds and wherever it comes from: without annotations and without a stop,
    replaying it succeeds exactly if checking it does, and if they fail, then with the same
    error. -/
theorem replay_verdict (config : Pipeline) (s : Snapshot) (plain : config.annotations = none)
    (free : ∀ phase, config.stopped phase = false) :
    ((∃ out, config.replay s = .ok out) ↔ ∃ g, config.check s = .ok g) ∧
      ∀ e, config.replay s = .error e ↔ config.check s = .error e := by
  unfold replay check
  cases restored : s.restore with
  | error e => simp [bind, Except.bind]
  | ok g =>
    have complete := s.complete_of_restore restored
    cases detected : config.detectAgain g with
    | error e => simp [bind, Except.bind, detected]
    | ok found =>
      have finished := finish_plain plain free found.1 g
      rw [Validation.validate_eq complete] at finished
      simp only [bind, Except.bind, detected, finished]
      -- Both now hang on the check for shared children alone.
      cases checkShared found.1 g <;> simp [Except.map, pure, Except.pure]

/-- A snapshot as no run leaves it: an instance has itself and one volume twice as children, and the
    name of an empty network's placeholder is taken. -/
def entangled : Snapshot :=
  let nodes := ["aws_ebs_volume.v", "aws_instance.i", "aws_vpc.a", "tv_placeholder.aws_vpc_a"]
  .capture ⟨[("aws_vpc.a", []), ("tv_placeholder.aws_vpc_a", []),
    ("aws_instance.i", ["aws_ebs_volume.v", "aws_instance.i", "aws_ebs_volume.v"]),
    ("aws_ebs_volume.v", [])], nodes.map fun n => (n, .forId n), "aws", none⟩
    .transform ⟨⟨[]⟩, ⟨0, 0⟩⟩

theorem isOk_check_entangled : (standard.check entangled).isOk = true ∧
    "aws_instance.i" ∈ entangled.graph.children "aws_instance.i" := by
  decide +kernel

/-- The theorem at a snapshot that can be replayed although its graph is not well formed. -/
theorem replay_verdict_entangled : standard.annotations = none ∧
    (∀ phase, standard.stopped phase = false) ∧ ¬entangled.graph.WellFormed ∧
    (∃ g, standard.check entangled = .ok g) ∧ ∃ out, standard.replay entangled = .ok out := by
  obtain ⟨ok, loop⟩ := isOk_check_entangled
  cases checked : standard.check entangled with
  | error e =>
    rw [checked] at ok
    exact absurd ok (by simp [Except.isOk, Except.toBool])
  | ok g =>
    refine ⟨rfl, fun _ => rfl, fun wf => wf.noLoop _ loop, ⟨g, rfl⟩, ?_⟩
    exact (replay_verdict standard entangled rfl fun _ => rfl).1.2 ⟨g, checked⟩

end Pipeline

end Cartograph

import Cartograph.Proofs.Annotation.Sections
import Cartograph.Proofs.Stages

/-!
# Runs stay intact

The checks for missing metadata and children that a run makes never find anything. The graphs that
it comes to are named here, one after each stage (`Pipeline.built`, `Pipeline.expanded`,
`Pipeline.phased`, `Pipeline.linked`, `Pipeline.annotated`), and all of them are well formed
(`Pipeline.Intact`), whatever the plan, the rule tables and the annotations are.

* Annotations are applied after validation, so they take well-formed graphs to well-formed ones on
  their own account (`Annotations.wellFormed_apply`).
* Rule tables that do not compile are refused with faults of their own
  (`Rules.Providers.detect_fails`).

So a run fails because a stop is asked for, because its tables do not compile, or because two
containers share a child; it never fails because something is missing (`Pipeline.run_intact`).
-/

namespace Cartograph

open Graph Arrangement

variable {c : Content} {g g' : Graph} {p : Rules.Providers}

/-! ### Errors -/

/-- The error does not say that something is missing in a graph. -/
def Error.Intact : Error → Prop
  | .danglingReference .. => False
  | .metadataMismatch .. => False
  | _ => True

/-- The error is about a rule table. -/
def Error.OfTables : Error → Prop
  | .invalidHandler .. => True
  | .invalidPattern .. => True
  | .unknownCallback .. => True
  | _ => False

theorem Error.OfTables.intact {e : Error} (h : e.OfTables) : e.Intact := by
  cases e <;> first | exact trivial | exact h.elim

theorem Pattern.parse_fails (s : String) : Fails Error.OfTables (parse? s) := by
  rw [parse?]
  split
  · exact .error trivial
  · split
    · split
      · exact .ok _
      · exact .error trivial
    · exact .ok _

namespace Rules

theorem Handler.compile_fails (key : String) (c : HandlerConfig) :
    Fails Error.OfTables (compile key c) := by
  have parsed : ∀ callback : Option Callback, Fails Error.OfTables (do
      let pattern ← Pattern.parse? key
      pure ⟨pattern, c.description, c.operations, callback, c.order⟩ : Except Error Handler) :=
    fun _ => (Pattern.parse_fails key).bind fun _ _ => .ok _
  rw [compile]
  dsimp only
  split
  · exact .error trivial
  · split
    · exact .error trivial
    · split
      · exact (Fails.ok _).bind fun callback _ => parsed callback
      · split
        · exact (Fails.ok _).bind fun callback _ => parsed callback
        · exact .error trivial

theorem Context.compileImplied_fails (c : ImpliedConnection) :
    Fails Error.OfTables (compileImplied c) := by
  rw [compileImplied]
  split
  · exact .ok _
  · exact .error trivial

theorem Context.compilePhase_fails (t : Table) (phase : PhaseConfig) :
    Fails Error.OfTables (compilePhase t phase) :=
  (Fails.mapM fun entry _ => Handler.compile_fails entry.1 entry.2).bind fun _ _ => .ok _

theorem Context.compile_fails (t : Table) : Fails Error.OfTables (compile t) :=
  (Fails.mapM fun c _ => compileImplied_fails c).bind fun _ _ =>
    (Fails.mapM fun phase _ => compilePhase_fails t phase).bind fun _ _ => .ok _

theorem Providers.detect_fails (types : List String) (extra : List Table) :
    Fails Error.OfTables (detect types extra) :=
  (Fails.mapM fun t _ => Context.compile_fails t).bind fun _ _ => .ok _

end Rules

/-! ### Stages -/

namespace Pipeline

variable {config : Pipeline} {plan : Plan} {found : List Diagnostic}

/-- The graph that is built of a plan. -/
def built (config : Pipeline) (p : Rules.Providers) (plan : Plan) : Graph :=
  (Discovery.build p (plan.resolve config.budget) config.title).1

/-- The graph of a plan with its nodes split into instances. -/
def expanded (config : Pipeline) (p : Rules.Providers) (plan : Plan) : Graph :=
  (Expansion.expand p (config.built p plan)).1

/-- What the handlers of some phases leave of a graph, one phase after the other. -/
def phased (p : Rules.Providers) (phases : List Rules.Phase) (g : Graph) : Graph :=
  eachSilent (fun g phase => (each (fun g h => h.run p g) phase.handlers g).1) phases g

/-- The graph of a plan after all phases, with the links of the tables, and pruned. -/
def linked (config : Pipeline) (p : Rules.Providers) (plan : Plan) : Graph :=
  Containment.prune p <| eachSilent addAutoLink p.autoLinks <|
    phased p (p.contexts.flatMap Rules.Context.phases) (config.expanded p plan)

/-- A graph with the annotations of a run. -/
def annotated (config : Pipeline) (p : Rules.Providers) (g : Graph) : Graph :=
  match config.annotations with
  | none => g
  | some a => (a.apply p g).1

/-- The graphs that a run with some providers comes to are well formed. -/
structure Intact (config : Pipeline) (p : Rules.Providers) (plan : Plan) : Prop where
  built : (config.built p plan).WellFormed
  expanded : (config.expanded p plan).WellFormed
  /-- After any phase, with those before it. -/
  phased : ∀ phases, phases <+: p.contexts.flatMap Rules.Context.phases →
    (phased p phases (config.expanded p plan)).WellFormed
  linked : (config.linked p plan).WellFormed
  validated : ∀ g report,
    Validation.validate config.keepStandalone p (config.linked p plan) = .ok (g, report) →
      g.WellFormed ∧ (config.annotated p g).WellFormed

theorem evolves_phased (closed : c.Closed) (s : Sound c g) (phases : List Rules.Phase) :
    Evolves c g (phased p phases g) :=
  .eachSilent closed s .refl fun _ _ _ s => .each closed s .refl fun _ h _ s => h.evolves closed s

theorem phases_ok {phases : List Rules.Phase}
    (ran : config.runPhases p phases g = .ok (g', found)) : g' = phased p phases g := by
  induction phases generalizing g found with
  | nil =>
    cases ran
    rfl
  | cons phase rest ih =>
    rw [runPhases] at ran
    obtain ⟨⟨g₁, found₁⟩, first, ran⟩ := bind_ok_iff.1 ran
    obtain ⟨⟨g₂, found₂⟩, later, ran⟩ := bind_ok_iff.1 ran
    cases ran
    rw [runPhase] at first
    obtain ⟨-, -, first⟩ := bind_ok_iff.1 first
    obtain ⟨-, -, first⟩ := bind_ok_iff.1 first
    cases first
    exact ih later

/-- What is prepared is the graph of the plan after all phases. -/
theorem graph_of_prepare (prepared : config.prepare plan = .ok (p, g, found)) :
    g = config.linked p plan ∧ ∃ unknown, Rules.Providers.detect
      ((plan.resolve config.budget).resources.map (·.resourceType)) config.tables =
        .ok (p, unknown) := by
  rw [prepare] at prepared
  simp only [bind_ok_iff] at prepared
  obtain ⟨-, -, ⟨p', unknown⟩, detected, -, -, -, -, -, -, -, -, ⟨g', arranged⟩, ran, same⟩ :=
    prepared
  cases same
  rw [arrange] at ran
  simp only [bind_ok_iff] at ran
  obtain ⟨⟨g₁, found₁⟩, phases, -, -, same⟩ := ran
  cases same
  rw [phases_ok phases]
  exact ⟨rfl, unknown, detected⟩

/-- With whatever providers, nothing is missing at any point. -/
theorem intact (config : Pipeline) (p : Rules.Providers) (plan : Plan) : config.Intact p plan := by
  have closed := Content.any_closed
  have built : Sound .any (config.built p plan) :=
    Discovery.sound_build closed (fun _ hr => Resolution.id_of_mem_resolve hr)
      fun _ _ => NodeMeta.holds_any _
  have expanded : Sound .any (config.expanded p plan) :=
    (Expansion.evolves_expand closed built).sound closed built
  have phased : ∀ phases, Sound .any (phased p phases (config.expanded p plan)) := fun phases =>
    (evolves_phased closed expanded phases).sound closed expanded
  have linked : Sound .any (config.linked p plan) := by
    have links : Evolves .any _ (eachSilent addAutoLink p.autoLinks _) :=
      .eachSilent closed (phased (p.contexts.flatMap Rules.Context.phases)) .refl
        fun _ _ _ s => evolves_addAutoLink closed Content.any_writable s
    have s := links.sound closed (phased _)
    exact (Containment.evolves_prune closed s).sound closed s
  refine ⟨built.wellFormed, expanded.wellFormed, fun phases _ => (phased phases).wellFormed,
    linked.wellFormed, fun g report validated => ?_⟩
  -- Validation removes what stands alone and fills what is empty; then annotations are applied.
  obtain ⟨-, rfl, -⟩ := (Validation.validate_ok_iff linked.wellFormed).1 validated
  have kept := Validation.wellFormed_kept (p := p) config.keepStandalone linked.wellFormed
  obtain ⟨_, -, filled⟩ := Validation.filled_fillAll (p := p) kept
  refine ⟨filled.wellFormed, ?_⟩
  rw [annotated]
  split
  · exact filled.wellFormed
  · exact Annotations.wellFormed_apply filled.wellFormed _

theorem checkStop_fails (config : Pipeline) (phase : String) :
    Fails Error.Intact (config.checkStop phase) := by
  rcases config.checkStop_cases phase with go | ⟨-, cancelled⟩
  · exact go ▸ .ok ()
  · exact cancelled ▸ .error trivial

/-- Annotating a well-formed graph always succeeds. -/
theorem annotate_ok (config : Pipeline) (p : Rules.Providers) (wf : g.WellFormed) : ∃ found,
    config.annotate p g = .ok (config.annotated p g, found) := by
  rw [annotate, annotated]
  cases config.annotations with
  | none => exact ⟨[], rfl⟩
  | some a =>
    refine ⟨(a.apply p g).2, ?_⟩
    have intact := (Annotations.wellFormed_apply (p := p) wf a).check Stage.annotate.name
    simp only [intact, bind, Except.bind]
    rfl

theorem finish_fails (wf : g.WellFormed) : Fails Error.Intact (config.finish p g) := by
  refine (checkStop_fails config _).bind fun _ _ => ?_
  -- All that validation refuses is a shared child.
  have validates : Fails Error.Intact (Validation.validate config.keepStandalone p g) := by
    by_cases drawable : Containment.Drawable p g
    · rw [Validation.validate_of_drawable wf drawable]
      exact .ok _
    · obtain ⟨_, _, _, -, -, -, -, refused⟩ :=
        Validation.validate_of_not_drawable wf drawable config.keepStandalone
      exact refused ▸ .error trivial
  refine validates.bind fun ⟨valid, report⟩ validated =>
    (checkStop_fails config _).bind fun _ _ => ?_
  obtain ⟨-, rfl, -⟩ := (Validation.validate_ok_iff wf).1 validated
  obtain ⟨_, -, filled⟩ := Validation.filled_fillAll (p := p)
    (Validation.wellFormed_kept (p := p) config.keepStandalone wf)
  obtain ⟨found, annotated⟩ := annotate_ok config p filled.wellFormed
  exact annotated ▸ .ok _

theorem run_fails (config : Pipeline) (plan : Plan) : Fails Error.Intact (config.run plan) := by
  have prepares : Fails Error.Intact (config.prepare plan) := by
    rcases prepare_cases Content.any_closed Content.any_writable config plan
      fun _ _ _ => NodeMeta.holds_any _ with
      ⟨_, _, _, prepared, -⟩ | ⟨_, -, cancelled⟩ | ⟨e, failed, same⟩
    · exact prepared ▸ .ok _
    · exact cancelled ▸ .error trivial
    · -- The tables do not compile.
      exact same ▸ .error (Rules.Providers.detect_fails _ _ e failed).intact
  refine prepares.bind fun s prepared => ?_
  obtain ⟨p, g, found⟩ := s
  obtain ⟨same, -⟩ := graph_of_prepare prepared
  refine (finish_fails ?_).bind fun _ _ => .ok _
  exact same ▸ (intact config p plan).linked

/-- Whatever the plan, the rule tables and the annotations are: every graph that a run comes to is
    well formed, what a successful run gives is the last of them, and no run fails because metadata
    or a child is missing. -/
theorem run_intact (config : Pipeline) (plan : Plan) :
    (∀ p unknown, Rules.Providers.detect
      ((plan.resolve config.budget).resources.map (·.resourceType)) config.tables =
        .ok (p, unknown) → config.Intact p plan) ∧
    (∀ out, config.run plan = .ok out → ∃ p unknown valid report, Rules.Providers.detect
      ((plan.resolve config.budget).resources.map (·.resourceType)) config.tables =
        .ok (p, unknown) ∧
      Validation.validate config.keepStandalone p (config.linked p plan) = .ok (valid, report) ∧
      out.graph = config.annotated p valid) ∧
    ∀ phase, (∀ parent child, config.run plan ≠ .error (.danglingReference phase parent child)) ∧
      ∀ node, config.run plan ≠ .error (.metadataMismatch phase node) := by
  refine ⟨fun p _ _ => intact config p plan, fun out ran => ?_, fun phase =>
    ⟨fun parent child failed => ?_, fun node failed => ?_⟩⟩
  · rw [run] at ran
    obtain ⟨⟨p, g, found⟩, prepared, ran⟩ := bind_ok_iff.1 ran
    obtain ⟨⟨g', more⟩, finished, ran⟩ := bind_ok_iff.1 ran
    cases ran
    -- A successful run has prepared the graph of the plan and finished it.
    obtain ⟨rfl, unknown, detected⟩ := graph_of_prepare prepared
    obtain ⟨-, -, valid, report, validated, finished⟩ := finish_ok_iff.1 finished
    obtain ⟨found', same⟩ := annotate_ok config p
      ((intact config p plan).validated valid report validated).1
    rw [same] at finished
    cases finished
    exact ⟨p, unknown, valid, report, detected, validated, rfl⟩
  · exact run_fails config plan _ failed
  · exact run_fails config plan _ failed

end Pipeline

end Cartograph

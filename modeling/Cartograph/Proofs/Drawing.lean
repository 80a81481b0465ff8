import Cartograph.Proofs.Providers
import Cartograph.Proofs.Stages
import Cartograph.Proofs.Tidying

/-!
# Runs and drawable graphs

Whether a run succeeds and what its graph looks like is decided by the containers that the graph
has when it is validated. A run that uses nothing but what is built in fails exactly if the prepared
graph is not drawable (`Pipeline.standard_run_iff`), and that happens: two networks that share a
zone are enough (`Pipeline.standard_run_refuses`). Where a run without annotations succeeds, no node
but a placeholder is in two containers (`Pipeline.run_sole_container`).
-/

namespace Cartograph

open Graph Arrangement Containment

variable {p : Rules.Providers} {g g' : Graph} {plan : Plan}

/-! ### Runs -/

namespace Pipeline

variable {config : Pipeline} {found : List Diagnostic}

/-- Nothing is demanded of the attributes of resources. -/
theorem prepare_cases_any (config : Pipeline) (plan : Plan) :
    (∃ p g found, config.prepare plan = .ok (p, g, found) ∧ Arranged .any p g) ∨
      (∃ phase, config.stopped phase ∧ config.prepare plan = .error (.cancelled phase)) ∨
      ∃ e, Rules.Providers.detect ((plan.resolve config.budget).resources.map (·.resourceType))
        config.tables = .error e ∧ config.prepare plan = .error e :=
  prepare_cases Content.any_closed Content.any_writable config plan fun _ _ _ =>
    NodeMeta.holds_any _

theorem arranged_of_prepare {p : Rules.Providers} {g : Graph}
    (prepared : config.prepare plan = .ok (p, g, found)) : Arranged .any p g :=
  arranged_of_prepared Content.any_closed Content.any_writable (fun _ _ _ => NodeMeta.holds_any _)
    prepared

/-- A run is a preparation and a finish. -/
theorem run_ok_iff {out : Output} : config.run plan = .ok out ↔ ∃ p g found g' more,
    config.prepare plan = .ok (p, g, found) ∧ config.finish p g = .ok (g', more) ∧
      out = ⟨g', found ++ more, config.stamp.map (Snapshot.capture g .transform)⟩ := by
  unfold run
  simp only [bind_ok_iff]
  constructor
  · rintro ⟨⟨p, g, found⟩, prepared, ⟨g', more⟩, finished, ran⟩
    cases ran
    exact ⟨p, g, found, g', more, prepared, finished, rfl⟩
  · rintro ⟨p, g, found, g', more, prepared, finished, rfl⟩
    exact ⟨(p, g, found), prepared, (g', more), finished, rfl⟩

/-- What a run without annotations gives is its prepared graph, tidied. -/
theorem validate_of_run {out : Output} (h : config.annotations = none)
    (ran : config.run plan = .ok out) : ∃ p g found report,
      config.prepare plan = .ok (p, g, found) ∧
        Validation.validate config.keepStandalone p g = .ok (out.graph, report) := by
  obtain ⟨p, g, found, g', more, prepared, finished, rfl⟩ := run_ok_iff.1 ran
  obtain ⟨-, -, valid, report, validated, annotated⟩ := finish_ok_iff.1 finished
  rw [annotate_none h] at annotated
  cases annotated
  exact ⟨p, g, found, report, prepared, validated⟩

/-- No node but a placeholder has two containers after a run without annotations. -/
theorem run_sole_container (config : Pipeline) (plan : Plan) (out : Output)
    (h : config.annotations = none) (ran : config.run plan = .ok out) : ∃ p g found report,
      config.prepare plan = .ok (p, g, found) ∧
        Validation.validate config.keepStandalone p g = .ok (out.graph, report) ∧
        ∀ node, node ∉ report.placeholders → (groupParents p out.graph node).length ≤ 1 := by
  obtain ⟨p, g, found, report, prepared, validated⟩ := validate_of_run h ran
  refine ⟨p, g, found, report, prepared, validated, fun node hnode => ?_⟩
  obtain ⟨g₀, sound₀, pruned⟩ := arranged_of_prepare prepared
  have sound := (arranged_of_prepare prepared).sound Content.any_closed
  have bare : Bare p g := pruned ▸ prune_bare sound₀.wellFormed
  obtain ⟨drawable, tidied, rfl⟩ := (Validation.validate_ok_iff sound.wellFormed).1 validated
  have keptSound : Sound .any (Validation.kept config.keepStandalone p g) :=
    Validation.sound_kept Content.any_closed sound
  obtain ⟨filled, -, h⟩ := Validation.filled_fillAll (p := p) keptSound.wellFormed
  rw [tidied]
  -- What holds the node has held it before.
  have before : ∀ a, Holds p (Validation.fillAll p
      (Validation.kept config.keepStandalone p g)).1 a node → Holds p g a node := by
    rintro a ⟨edge, group⟩
    rw [Validation.typeOf_fillAll Content.any_closed keptSound] at group
    refine (Validation.holds_kept sound.wellFormed).1 ⟨?_, group⟩
    refine ((h.edge a node).1 edge).resolve_right fun new => hnode ?_
    rw [show _ = filled.map _ from h.made, new.2.1]
    exact List.mem_map_of_mem new.1
  exact length_groupParents_le_one h.wellFormed fun a b ha hb =>
    drawable.sole bare (before a ha) (before b hb)

/-- A managed resource of the root module with nothing but attributes. -/
def resource (resourceType name : String) (attributes : Attributes) : Plan.Resource :=
  ⟨resourceType, name, "", .managed, attributes, none, none, []⟩

/-- A network with a part of it. -/
def oneNetwork : Plan where
  resources := [resource "aws_vpc" "a" [],
    resource "aws_subnet" "a" [("vpc_id", .text "$\x7baws_vpc.a.id\x7d")]]
  inputs := []
  locals := []
  calls := []
  dependencies := []

theorem isOk_run_oneNetwork : (standard.run oneNetwork).isOk = true := by
  decide +kernel

/-- The theorem at a plan with a single network. -/
theorem run_sole_container_oneNetwork : standard.annotations = none ∧
    ∃ out, standard.run oneNetwork = .ok out ∧ ∃ p g found report,
      standard.prepare oneNetwork = .ok (p, g, found) ∧
        Validation.validate standard.keepStandalone p g = .ok (out.graph, report) ∧
        ∀ node, node ∉ report.placeholders → (groupParents p out.graph node).length ≤ 1 := by
  have ok := isOk_run_oneNetwork
  cases ran : standard.run oneNetwork with
  | error e =>
    rw [ran] at ok
    exact absurd ok (by simp [Except.isOk, Except.toBool])
  | ok out => exact ⟨rfl, out, rfl, run_sole_container standard oneNetwork out rfl ran⟩

/-! ### Runs that use nothing but what is built in -/

theorem prepare_standard (plan : Plan) : ∃ p g found,
    standard.prepare plan = .ok (p, g, found) ∧ Arranged .any p g := by
  rcases prepare_cases_any standard plan with prepared | ⟨_, stop, -⟩ | ⟨e, failed, -⟩
  · exact prepared
  · exact absurd stop (by simp [standard])
  · obtain ⟨p, found, detected⟩ := Rules.detect_builtin
      ((plan.resolve standard.budget).resources.map (·.resourceType))
    rw [show standard.tables = [] from rfl, detected] at failed
    exact absurd failed (by simp)

/-- Such a run ends with validation. -/
theorem run_standard {p : Rules.Providers} {g : Graph}
    (prepared : standard.prepare plan = .ok (p, g, found)) :
    standard.run plan = (Validation.validate false p g).map fun (g', _) => ⟨g', found, none⟩ := by
  rw [run, prepared]
  show (standard.finish p g >>= _) = _
  have finished : standard.finish p g =
      (Validation.validate false p g).map fun (g', _) => (g', []) := by
    show (do
      let (g', _) ← Validation.validate false p g
      pure (g', [])) = _
    cases Validation.validate false p g <;> rfl
  rw [finished]
  cases Validation.validate false p g with
  | error e => rfl
  | ok s =>
    simp only [Except.map, bind, Except.bind, List.append_nil]
    rfl

/-- A run that uses nothing but what is built in prepares a graph of any plan, and then succeeds
    exactly if the graph is drawable. If it is not, the run names two unrelated containers of a
    node. -/
theorem standard_run_iff (plan : Plan) : ∃ p g found, standard.prepare plan = .ok (p, g, found) ∧
    ((∃ out, standard.run plan = .ok out) ↔ Drawable p g) ∧
    (¬Drawable p g → ∃ a b c, a ≠ b ∧ Holds p g a c ∧ Holds p g b c ∧ ¬Related g a b ∧
      standard.run plan = .error (.sharedChild "validate" a b c)) := by
  obtain ⟨p, g, found, prepared, arranged⟩ := prepare_standard plan
  have wf := (arranged.sound Content.any_closed).wellFormed
  refine ⟨p, g, found, prepared, ⟨?_, ?_⟩, ?_⟩
  · rintro ⟨out, ran⟩
    rw [run_standard prepared] at ran
    cases validated : Validation.validate false p g with
    | error e =>
      rw [validated] at ran
      exact absurd ran (by simp [Except.map])
    | ok s => exact ((Validation.validate_ok_iff wf).1 validated).1
  · intro drawable
    rw [run_standard prepared, Validation.validate_of_drawable wf drawable]
    exact ⟨_, rfl⟩
  · intro not
    obtain ⟨a, b, c, ne, ha, hb, unrelated, refused⟩ :=
      Validation.validate_of_not_drawable wf not false
    refine ⟨a, b, c, ne, ha, hb, unrelated, ?_⟩
    rw [run_standard prepared, refused]
    rfl

/-- Two networks, each with a part of its own. -/
def twoNetworks : Plan where
  resources := [resource "aws_vpc" "a" [], resource "aws_vpc" "b" [],
    resource "aws_subnet" "a" [("vpc_id", .text "$\x7baws_vpc.a.id\x7d")],
    resource "aws_subnet" "b" [("vpc_id", .text "$\x7baws_vpc.b.id\x7d")]]
  inputs := []
  locals := []
  calls := []
  dependencies := []

/-- Both networks come to hold the zone that their parts are put in. -/
theorem shared_zone : (match standard.prepare twoNetworks with
    | .ok (p, g, _) => isConflict p g "aws_vpc.a" "aws_vpc.b" "aws_az.zone"
    | .error _ => false) = true := by
  decide +kernel

/-- A run that uses nothing but what is built in can fail. -/
theorem standard_run_refuses :
    ∃ a b c, standard.run twoNetworks = .error (.sharedChild "validate" a b c) := by
  obtain ⟨p, g, found, prepared, arranged⟩ := prepare_standard twoNetworks
  have wf := (arranged.sound Content.any_closed).wellFormed
  have conflict := shared_zone
  rw [prepared] at conflict
  obtain ⟨a, b, c, -, -, -, -, refused⟩ :=
    Validation.validate_of_not_drawable wf (not_drawable_of_conflict wf.nodup conflict) false
  refine ⟨a, b, c, ?_⟩
  rw [run_standard prepared, refused]
  rfl

end Pipeline

end Cartograph

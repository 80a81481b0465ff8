import Cartograph.Pipeline
import Cartograph.Proofs.Arrangement
import Cartograph.Proofs.Resolution.Run
import Cartograph.Proofs.Results

/-!
# Stages evolve

A run begins with a sound graph (`Discovery.sound_build`), and the stages that follow take it to
graphs that it evolves to. So the checks after the stages find nothing: a plan is prepared unless a
stop is asked for or a rule table does not compile (`Pipeline.prepare_cases`), and what is prepared
is a sound graph that has been pruned.
-/

namespace Cartograph

open Arrangement

variable {c : Content} {g g' : Graph} {p : Rules.Providers}

-- Nothing here depends on how an identifier is taken apart.
attribute [local irreducible] NodeId.parts

/-! ### Discovery -/

namespace Discovery

/-- The metadata of a resource's node fit its identifier. -/
theorem fits_metaOf {r : Resolution.Resource}
    (own : r.id = NodeId.qualified r.module r.resourceType r.name) : (metaOf p r).Fits r.id := by
  intro plain
  rw [own] at plain ⊢
  have type := plain.resourceType_qualified
  have same : (metaOf p r).resourceType = r.resourceType := rfl
  rw [NodeMeta.typeOf, same, type]
  split
  · rfl
  · rfl

theorem sound_nodesOf (closed : c.Closed) {res : Resolution} {title : Option String}
    (own : ∀ r ∈ res.resources, r.id = NodeId.qualified r.module r.resourceType r.name)
    (holds : ∀ r ∈ res.resources, (metaOf p r).Holds c) : Sound c (nodesOf p res title) := by
  have start : Sound c { Graph.empty p.primary with title := title } :=
    (Sound.empty c p.primary).of_same_metadata
      ((Graph.wellFormed_empty p.primary).of_same rfl (fun _ => rfl) fun _ => rfl) rfl
  refine Evolves.sound closed (.eachSilent closed start .refl fun g r hr _ => ?_) start
  exact .insertNode (fits_metaOf (own r hr)) (holds r hr) .refl

theorem evolves_connect {r target : NodeId} {s : Graph × List Diagnostic} :
    Evolves c s.1 (connect p r s target).1 := by
  obtain ⟨g, found⟩ := s
  unfold connect
  dsimp only
  split
  · exact .refl
  · exact .addEdge .refl

theorem sound_build (closed : c.Closed) {res : Resolution} {title : Option String}
    (own : ∀ r ∈ res.resources, r.id = NodeId.qualified r.module r.resourceType r.name)
    (holds : ∀ r ∈ res.resources, (metaOf p r).Holds c) : Sound c (build p res title).1 := by
  have targets : ∀ (r : NodeId) (targets : List NodeId) (s : Graph × List Diagnostic),
      Evolves c s.1 (targets.foldl (connect p r) s).1 := by
    intro r targets
    induction targets with
    | nil => exact fun _ => .refl
    | cons t rest ih => exact fun s => evolves_connect.trans (ih _)
  have resources : ∀ (rs : List Resolution.Resource) (s : Graph × List Diagnostic),
      Evolves c s.1 (rs.foldl (fun s r => (targetsOf p res r).foldl (connect p r.id) s) s).1 := by
    intro rs
    induction rs with
    | nil => exact fun _ => .refl
    | cons r rest ih => exact fun s => (targets r.id _ s).trans (ih _)
  exact (resources res.resources _).sound closed (sound_nodesOf closed own holds)

end Discovery

/-! ### Expansion -/

namespace Expansion

theorem evolves_setLabel {source target : NodeId} {label : Option String}
    (writable : ∀ l, label = some l → c.Writable l) (h : Evolves c g g') :
    Evolves c g (setLabel g' source target label) := by
  unfold setLabel
  split
  · next l =>
    refine h.tail (.modify (fun m holds => ?_) fun _ => rfl)
    exact { holds with labels := writable l rfl _ _ holds.labels }
  · exact h

/-- A label that an edge has may be put elsewhere. -/
theorem writable_of_meta (closed : c.Closed) (s : Sound c g) {a b : NodeId} {l : String}
    (h : ((g.meta? a).bind fun m => Keyed.find? b m.edgeLabels) = some l) : c.Writable l := by
  obtain ⟨m, hm, found⟩ := Option.bind_eq_some_iff.1 h
  exact closed.labels_find (s.holds a m hm).labels found

theorem holds_sibling (closed : c.Closed) {s : Split} {m : NodeMeta} {i : Nat}
    (given : ∀ as ∈ s.instances, c.bag as) (holds : m.Holds c) : (siblingMeta s m i).Holds c := by
  refine ⟨?_, holds.raw, fun _ h => absurd h List.not_mem_nil, closed.count_one, closed.labels_nil⟩
  show c.bag ((s.instances[i]?).getD m.attributes)
  cases own : s.instances[i]? with
  | none => exact holds.attributes
  | some as => exact given as (List.mem_of_getElem? own)

theorem evolves_split (closed : c.Closed) {s : Split} (given : ∀ as ∈ s.instances, c.bag as)
    (sound : Sound c g) : Evolves c g (split g s).1 := by
  unfold split
  split
  · exact .refl
  · next m hm =>
    split
    · exact .refl
    · have holds := sound.holds s.node m hm
      refine .removeNode (.eachSilent closed sound ?_ fun _ _ _ s' => ?_)
      · refine .eachSilent closed sound ?_ fun _ _ _ _ =>
          evolves_setLabel (fun _ => closed.labels_find holds.labels) (.addEdge .refl)
        refine .eachSilent closed sound .refl fun _ i _ _ => ?_
        exact .insertNode (NodeMeta.fits_withSuffix _ _ _) (holds_sibling closed given holds) .refl
      · exact evolves_setLabel (fun _ => writable_of_meta closed (s'.addEdge closed _ _))
          (.addEdge .refl)

theorem bag_of_plan (closed : c.Closed) {node : NodeId} {m : NodeMeta} {s : Split}
    (holds : m.Holds c) (h : plan? p node m = some s) : ∀ as ∈ s.instances, c.bag as := by
  unfold plan? at h
  split at h
  · exact absurd h (by simp)
  · split at h
    · cases h
      dsimp only
      split
      · exact holds.instances
      · exact fun _ h => absurd h List.not_mem_nil
    · obtain ⟨⟨key, items⟩, hitems, h⟩ := Option.bind_eq_some_iff.1 h
      obtain ⟨rule, -, found⟩ := List.exists_of_findSome?_eq_some hitems
      obtain ⟨v, hv, hmem⟩ := Option.bind_eq_some_iff.1 found
      obtain ⟨vs, hvs, e⟩ := Option.map_eq_some_iff.1 hmem
      cases e
      dsimp only at h
      split at h
      · exact absurd h (by simp)
      · cases h
        have listed : c.value (.list items) := by
          cases v with
          | list vs =>
            cases hvs
            exact closed.bag_find holds.attributes hv
          | _ => simp [Value.asList?] at hvs
        intro as has
        obtain ⟨item, hitem, rfl⟩ := List.mem_map.1 has
        refine closed.bag_insert holds.attributes (closed.list_iff.2 fun w hw => ?_)
        exact List.mem_singleton.1 hw ▸ closed.list_iff.1 listed item hitem

theorem evolves_separate {node : NodeId} (closed : c.Closed) (s : Sound c g) :
    Evolves c g (separate p g node).1 := by
  unfold separate
  split
  · exact .refl
  · split
    · dsimp only
      split
      · exact .removeParents closed s .refl
      · exact evolves_split closed (fun _ h => absurd h List.not_mem_nil) s
    · exact .refl

theorem evolves_expand (closed : c.Closed) (s : Sound c g) : Evolves c g (expand p g).1 := by
  refine .each closed s (.each closed s .refl fun _ split h s' => ?_) fun _ _ _ s =>
    evolves_separate closed s
  obtain ⟨node, -, planned⟩ := List.mem_filterMap.1 h
  obtain ⟨m, hm, planned⟩ := Option.bind_eq_some_iff.1 planned
  exact evolves_split closed (bag_of_plan closed (s.holds node m hm) planned) s'

end Expansion

/-! ### Phases -/

theorem Containment.evolves_prune (closed : c.Closed) (s : Sound c g) :
    Evolves c g (Containment.prune p g) :=
  .eachSilent closed s .refl fun _ _ _ s => .eachSilent closed s .refl fun _ _ _ _ =>
    .ite (.removeEdge .refl) .refl

namespace Pipeline

variable {config : Pipeline}

/-- The labels of links are new ones. -/
theorem evolves_addAutoLink (closed : c.Closed) (writable : ∀ l, c.Writable l)
    {link : Rules.AutoLink} (s : Sound c g) : Evolves c g (addAutoLink g link) := by
  unfold addAutoLink
  split
  · exact .refl
  · refine .eachSilent closed s ?_ fun _ _ _ _ =>
      Expansion.evolves_setLabel (fun l _ => writable l) (.addEdge .refl)
    exact .insertMissing (fits_madeUp g link.source) (holds_madeUp closed g link.source) .refl

/-- A stop is asked for, or nothing happens. -/
theorem checkStop_cases (config : Pipeline) (phase : String) :
    config.checkStop phase = .ok () ∨
      config.stopped phase ∧ config.checkStop phase = .error (.cancelled phase) := by
  unfold checkStop
  split
  · next stop => exact .inr ⟨stop, rfl⟩
  · exact .inl rfl

/-- The handlers of a phase take a sound graph to one that it evolves to, unless a stop is asked
    for. -/
theorem runPhase_cases (config : Pipeline) (closed : c.Closed) (phase : Rules.Phase)
    (s : Sound c g) :
    (∃ g' found, config.runPhase p phase g = .ok (g', found) ∧ Evolves c g g') ∨
      config.stopped phase.name ∧ config.runPhase p phase g = .error (.cancelled phase.name) := by
  have evolves : Evolves c g (each (fun g h => h.run p g) phase.handlers g).1 :=
    .each closed s .refl fun _ h _ s => h.evolves closed s
  have intact := (evolves.sound closed s).wellFormed.check phase.name
  rcases config.checkStop_cases phase.name with go | ⟨stop, cancelled⟩
  · refine .inl ⟨_, (each (fun g h => h.run p g) phase.handlers g).2, ?_, evolves⟩
    rw [runPhase, go]
    simp only [bind, Except.bind, intact]
    rfl
  · refine .inr ⟨stop, ?_⟩
    rw [runPhase, cancelled]
    rfl

theorem runPhases_cases (config : Pipeline) (closed : c.Closed) (phases : List Rules.Phase)
    (s : Sound c g) :
    (∃ g' found, config.runPhases p phases g = .ok (g', found) ∧ Evolves c g g') ∨
      ∃ phase, config.stopped phase ∧ config.runPhases p phases g = .error (.cancelled phase) := by
  induction phases generalizing g with
  | nil => exact .inl ⟨g, [], rfl, .refl⟩
  | cons phase rest ih =>
    rcases runPhase_cases (p := p) config closed phase s with
      ⟨g₁, found₁, ran, evolves⟩ | ⟨stop, ran⟩
    · rcases ih (evolves.sound closed s) with ⟨g₂, found₂, ran', evolves'⟩ | ⟨later, stop, ran'⟩
      · refine .inl ⟨g₂, found₁ ++ found₂, ?_, evolves.trans evolves'⟩
        rw [runPhases, ran]
        simp only [bind, Except.bind, ran']
        rfl
      · refine .inr ⟨later, stop, ?_⟩
        rw [runPhases, ran]
        simp only [bind, Except.bind, ran']
    · refine .inr ⟨phase.name, stop, ?_⟩
      rw [runPhases, ran]
      rfl

/-- What an arranged graph is: sound, and pruned at last. -/
def Arranged (c : Content) (p : Rules.Providers) (g : Graph) : Prop :=
  ∃ g₀, Sound c g₀ ∧ g = Containment.prune p g₀

theorem Arranged.sound (closed : c.Closed) (h : Arranged c p g) : Sound c g := by
  obtain ⟨g₀, s, rfl⟩ := h
  exact (Containment.evolves_prune closed s).sound closed s

theorem arrange_cases (config : Pipeline) (closed : c.Closed) (writable : ∀ l, c.Writable l)
    (s : Sound c g) :
    (∃ g' found, config.arrange p g = .ok (g', found) ∧ Arranged c p g') ∨
      ∃ phase, config.stopped phase ∧ config.arrange p g = .error (.cancelled phase) := by
  rcases runPhases_cases (p := p) config closed (p.contexts.flatMap Rules.Context.phases) s
    with ⟨g₁, found, ran, evolves⟩ | ⟨phase, stop, ran⟩
  · have s₁ := evolves.sound closed s
    have linked : Evolves c g₁ (eachSilent addAutoLink p.autoLinks g₁) :=
      .eachSilent closed s₁ .refl fun _ _ _ s => evolves_addAutoLink closed writable s
    have arranged : Arranged c p (Containment.prune p (eachSilent addAutoLink p.autoLinks g₁)) :=
      ⟨_, linked.sound closed s₁, rfl⟩
    have intact := (arranged.sound closed).wellFormed.check Stage.transform.name
    refine .inl ⟨_, found, ?_, arranged⟩
    rw [arrange, ran]
    simp only [bind, Except.bind, intact]
    rfl
  · refine .inr ⟨phase, stop, ?_⟩
    rw [arrange, ran]
    rfl

/-! ### Preparing -/

/-- A plan is prepared, unless a stop is asked for or the tables in force do not compile. -/
theorem prepare_cases (closed : c.Closed) (writable : ∀ l, c.Writable l) (config : Pipeline)
    (plan : Plan)
    (holds : ∀ p, ∀ r ∈ (plan.resolve config.budget).resources, (Discovery.metaOf p r).Holds c) :
    (∃ p g found, config.prepare plan = .ok (p, g, found) ∧ Arranged c p g) ∨
      (∃ phase, config.stopped phase ∧ config.prepare plan = .error (.cancelled phase)) ∨
      ∃ e, Rules.Providers.detect ((plan.resolve config.budget).resources.map (·.resourceType))
        config.tables = .error e ∧ config.prepare plan = .error e := by
  unfold prepare
  rcases config.checkStop_cases Stage.interpret.name with go | ⟨stop, cancelled⟩
  rotate_left
  · exact .inr (.inl ⟨_, stop, by rw [cancelled]; rfl⟩)
  rw [go]
  cases detected : Rules.Providers.detect
    ((plan.resolve config.budget).resources.map (·.resourceType)) config.tables with
  | error e => exact .inr (.inr ⟨e, rfl, by simp only [bind, Except.bind, detected]⟩)
  | ok detection =>
    obtain ⟨p, unknown⟩ := detection
    have built : Sound c (Discovery.build p (plan.resolve config.budget) config.title).1 :=
      Discovery.sound_build closed (fun r hr => Resolution.id_of_mem_resolve hr) (holds p)
    have expanded := (Expansion.evolves_expand (p := p) closed built).sound closed built
    simp only [bind, Except.bind, detected, built.wellFormed.check, expanded.wellFormed.check]
    rcases config.checkStop_cases Stage.build.name with go | ⟨stop, cancelled⟩
    rotate_left
    · exact .inr (.inl ⟨_, stop, by rw [cancelled]⟩)
    rw [go]
    rcases config.checkStop_cases Stage.expand.name with go | ⟨stop, cancelled⟩
    rotate_left
    · exact .inr (.inl ⟨_, stop, by rw [cancelled]⟩)
    rw [go]
    rcases arrange_cases (p := p) config closed writable expanded with
      ⟨g, found, ran, arranged⟩ | ⟨phase, stop, ran⟩
    · rw [ran]
      exact .inl ⟨p, g, _, rfl, arranged⟩
    · exact .inr (.inl ⟨phase, stop, by rw [ran]⟩)

theorem arranged_of_prepared (closed : c.Closed) (writable : ∀ l, c.Writable l) {plan : Plan}
    {found : List Diagnostic}
    (holds : ∀ p, ∀ r ∈ (plan.resolve config.budget).resources, (Discovery.metaOf p r).Holds c)
    (prepared : config.prepare plan = .ok (p, g, found)) : Arranged c p g := by
  rcases prepare_cases closed writable config plan holds with
    ⟨_, _, _, same, arranged⟩ | ⟨_, -, failed⟩ | ⟨_, -, failed⟩
  · rw [prepared] at same
    cases same
    exact arranged
  · rw [prepared] at failed
    exact absurd failed (by simp)
  · rw [prepared] at failed
    exact absurd failed (by simp)

/-! ### Finishing -/

theorem annotate_none (h : config.annotations = none) (p : Rules.Providers) (g : Graph) :
    config.annotate p g = .ok (g, []) := by
  rw [annotate, h]
  rfl

/-- A graph is finished if no stop is asked for, it is valid, and nothing is missing after it was
    annotated. -/
theorem finish_ok_iff {found : List Diagnostic} : config.finish p g = .ok (g', found) ↔
    config.checkStop Stage.validate.name = .ok () ∧ config.checkStop Stage.annotate.name = .ok () ∧
      ∃ valid report, Validation.validate config.keepStandalone p g = .ok (valid, report) ∧
        config.annotate p valid = .ok (g', found) := by
  unfold finish
  simp only [bind_ok_iff]
  constructor
  · rintro ⟨⟨⟩, go, ⟨valid, report⟩, validated, ⟨⟩, go', annotated⟩
    exact ⟨go, go', valid, report, validated, annotated⟩
  · rintro ⟨go, go', valid, report, validated, annotated⟩
    exact ⟨(), go, (valid, report), validated, (), go', annotated⟩

end Pipeline

end Cartograph

import Cartograph.Proofs.Drawing
import Cartograph.Proofs.Filling
import Cartograph.Proofs.Likeness
import Cartograph.Proofs.Resolution.Canonical

/-!
# Replays

A run's snapshot is taken up again with the providers that the types left in its graph call for,
which may be other ones than those of the run. What is read of the snapshot is finished alike
(`Pipeline.replay_of_agree`) if these providers find it drawable and take the same of its nodes
without children for containers; without annotations, only then (`Pipeline.agree_of_replay`).
-/

namespace Cartograph

open Graph Arrangement Containment

variable {p p' : Rules.Providers} {g g' out : Graph} {keep : Bool}

-- Nothing here depends on how an identifier is taken apart.
attribute [local irreducible] NodeId.parts

/-! ### Validating what is read -/

theorem sound_reread (s : Sound .any g) : Sound .any g.reread where
  wellFormed := wellFormed_reread s.wellFormed
  sorted := (Keyed.isSorted_map_value fun _ => NodeMeta.reread).2 s.sorted
  fits n m h := by
    rw [meta?_reread] at h
    obtain ⟨m, hm, rfl⟩ := Option.map_eq_some_iff.1 h
    exact (s.fits n m hm).of_type_eq rfl
  holds _ m _ := m.holds_any

namespace Graph

variable {k : Nat} {m : NodeMeta} {a b n : NodeId}

theorem legible_removeNode (h : g.Legible k) : (g.removeNode n).1.Legible k := by
  intro e he
  obtain ⟨old, inside, rfl⟩ := List.mem_map.1 he
  exact { h old (List.mem_filter.1 inside).1 with }

theorem legible_insertNode (h : g.Legible k) (hm : m.Legible k) : (g.insertNode n m).Legible k := by
  intro e he
  rcases Keyed.mem_insert he with rfl | old
  · exact hm
  · exact h e old

theorem legible_ensureNode (h : g.Legible k) : (g.ensureNode n).1.Legible k := by
  unfold ensureNode
  by_cases there : Keyed.contains n g.metadata = true
  · rw [if_pos there]
    exact h
  · rw [if_neg there]
    exact legible_insertNode h (NodeMeta.legible_forId k n)

/-- Whether the nodes have no attributes. -/
def isBare (g : Graph) : Bool :=
  g.metadata.all fun e => e.2.attributes.isEmpty && e.2.raw.isEmpty && e.2.instances.isEmpty &&
    e.2.cardinality < Nat.pow 2 64

theorem legible_of_isBare (h : g.isBare = true) : g.Legible k := by
  intro e he
  have bare := List.all_eq_true.1 h e he
  simp only [Bool.and_eq_true, List.isEmpty_iff, decide_eq_true_eq] at bare
  obtain ⟨⟨⟨attributes, raw⟩, instances⟩, countable⟩ := bare
  refine ⟨attributes ▸ ?_, raw ▸ ?_, ?_, countable⟩
  · exact NodeMeta.legible_attributes_nil _
  · exact NodeMeta.legible_attributes_nil _
  · exact instances ▸ List.forall_mem_nil _

theorem legible_addEdge (h : g.Legible k) : (g.addEdge a b).1.Legible k := by
  by_cases same : a = b
  · subst same
    rwa [addEdge_self]
  rw [addEdge_of_ne same]
  have ends : ((g.ensureNode a).1.ensureNode b).1.Legible k :=
    legible_ensureNode (legible_ensureNode h)
  dsimp only
  split <;> exact ends

end Graph

namespace Validation

variable {report : Report}

theorem drawable_reread : Drawable p g.reread ↔ Drawable p g := by
  have held (a c : NodeId) : Holds p g.reread a c ↔ Holds p g a c := by
    constructor
    · rintro ⟨edge, group⟩
      exact ⟨edge, typeOf_reread (g := g) a ▸ group⟩
    · rintro ⟨edge, group⟩
      exact ⟨edge, (typeOf_reread (g := g) a).symm ▸ group⟩
  unfold Drawable
  simp only [held]
  rfl

theorem alike_addPlaceholder {n : NodeId} (h : Alike g g') :
    Alike (addPlaceholder g n) (addPlaceholder g' n) := by
  unfold addPlaceholder madeUpMeta
  dsimp only
  rw [h.provider]
  exact (h.insertNode rfl).addEdge

theorem sortedNodes_eq (h : Alike g g') : g.sortedNodes = g'.sortedNodes := by
  rw [sortedNodes, sortedNodes, h.nodes]

theorem alike_kept (h : Alike g g') : Alike (kept keep p g) (kept keep p g') := by
  have same : dropped keep p g = dropped keep p g' := by
    unfold dropped standalone
    rw [sortedNodes_eq h]
    simp only [h.children, h.parents, h.typeOf]
  unfold kept removeAll
  rw [same]
  exact h.eachSilent fun _ _ _ h => h.removeNode

/-- Graphs that are alike are tidied alike. -/
theorem alike_tidied (h : Alike g g') : Alike (tidied keep p g) (tidied keep p g') := by
  have left : Alike (kept keep p g) (kept keep p g') := alike_kept h
  have same : hollow p (kept keep p g) = hollow p (kept keep p g') := by
    rw [hollow, hollow, sortedNodes_eq left]
    refine List.filter_congr fun n _ => ?_
    rw [isHollow, isHollow, left.children, left.typeOf]
  unfold tidied
  rw [same]
  exact left.eachSilent fun _ _ _ => alike_addPlaceholder

theorem legible_eachSilent {k : Nat} {step : Graph → NodeId → Graph} {l : List NodeId}
    (h : g.Legible k) (each : ∀ g n, g.Legible k → (step g n).Legible k) :
    (eachSilent step l g).Legible k := by
  induction l generalizing g with
  | nil => exact h
  | cons n rest ih => exact ih (each g n h)

/-- Nothing that cannot be read is put into a graph. -/
theorem legible_tidied {k : Nat} (h : g.Legible k) : (tidied keep p g).Legible k := by
  refine legible_eachSilent (legible_eachSilent h fun _ _ h => legible_removeNode h) ?_
  intro g n h
  have made := NodeMeta.legible_forId k (placeholderFor n)
  exact legible_addEdge (legible_insertNode h
    ⟨made.attributes, made.raw, made.instances, made.countable⟩)

/-- What is read of a graph is valid exactly if the graph is drawable, and is tidied alike. -/
theorem validate_reread_iff (s : Sound .any g) :
    validate keep p g.reread = .ok (g', report) ↔ Drawable p g ∧
      g' = tidied keep p g.reread ∧ report = ⟨dropped keep p g.reread,
        (hollow p (kept keep p g.reread)).map placeholderFor⟩ := by
  rw [validate_iff_tidied (sound_reread s), drawable_reread]

end Validation

namespace Pipeline

open Validation

variable {config : Pipeline} {stage : Stage} {stamp : Stamp} {found more : List Diagnostic}

/-- The providers are detected from the types, which are read in full. -/
theorem detectAgain_reread (config : Pipeline) (g : Graph) :
    config.detectAgain g.reread = config.detectAgain g := by
  have types : (g.reread.metadata.filter fun e => !e.2.synthetic).map (·.2.resourceType) =
      (g.metadata.filter fun e => !e.2.synthetic).map (·.2.resourceType) := by
    show ((g.metadata.map fun e => (e.1, e.2.reread)).filter _).map _ = _
    rw [List.filter_map, List.map_map]
    rfl
  exact congrArg (fun types => Rules.Providers.detect types config.tables) types

theorem alike_annotate (p' : Rules.Providers) (h : Alike g g')
    (ok : config.annotate p g = .ok (out, found)) :
    ∃ out' more, config.annotate p' g' = .ok (out', more) ∧ Alike out' out := by
  cases annotated : config.annotations with
  | none =>
    rw [annotate_none annotated] at ok
    cases ok
    exact ⟨g', [], annotate_none annotated p' g', h.eq.symm⟩
  | some a =>
    have alike : Alike (a.apply p g).1 (a.apply p' g').1 := Annotations.alike_apply a h
    unfold annotate at ok ⊢
    rw [annotated] at ok ⊢
    obtain ⟨⟨⟩, checked, same⟩ := bind_ok_iff.1 ok
    cases same
    exact ⟨_, _, bind_ok_iff.2 ⟨(), alike.checkIntegrity _ ▸ checked, rfl⟩, alike.eq.symm⟩

/-- What is read of a snapshot is taken up again with the providers of its graph. -/
theorem replay_reread_iff {again : Output} (wf : g.WellFormed) :
    config.replay (Snapshot.capture g stage stamp).reread = .ok again ↔ ∃ p more g' found,
      config.detectAgain g = .ok (p, more) ∧ config.finish p g.reread = .ok (g', found) ∧
        again = ⟨g', more ++ found, none⟩ := by
  have restored : (Snapshot.capture g stage stamp).reread.restore = .ok g.reread :=
    Snapshot.restore_reread rfl wf
  unfold replay
  simp only [restored, bind_ok_iff]
  constructor
  · rintro ⟨_, ⟨⟩, ⟨p, more⟩, detected, ⟨g', found⟩, finished, replayed⟩
    cases replayed
    exact ⟨p, more, g', found, detectAgain_reread config g ▸ detected, finished, rfl⟩
  · rintro ⟨p, more, g', found, detected, finished, rfl⟩
    exact ⟨_, rfl, (p, more), (detectAgain_reread config g).trans detected, (g', found), finished,
      rfl⟩

/-- The providers of a snapshot's graph find it drawable and agree with those of the run. -/
def Retakable (config : Pipeline) (p : Rules.Providers) (g : Graph) : Prop :=
  ∃ p' more, config.detectAgain g = .ok (p', more) ∧ Drawable p' g ∧ Agree p p' g

/-- A snapshot is finished alike with providers that find its graph drawable and agree with those of
    the run. -/
theorem replay_of_retakable (sound : Sound .any g)
    (finished : config.finish p g = .ok (out, found)) (can : config.Retakable p g) :
    ∃ again, config.replay (Snapshot.capture g stage stamp).reread = .ok again ∧
      again.graph.render = out.render := by
  obtain ⟨p', more, detected, drawable, agree⟩ := can
  obtain ⟨go, go', valid, report, validated, annotated⟩ := finish_ok_iff.1 finished
  obtain ⟨-, rfl, -⟩ := (validate_iff_tidied sound).1 validated
  have alike : Alike (tidied config.keepStandalone p g)
      (tidied config.keepStandalone p' g.reread) := by
    rw [agree.tidied_eq sound.wellFormed]
    exact alike_tidied (Alike.of_reread g).eq.symm
  obtain ⟨out', more', annotated', same⟩ := alike_annotate p' alike annotated
  have finished' := finish_ok_iff.2
    ⟨go, go', _, _, (validate_reread_iff sound).2 ⟨drawable, rfl, rfl⟩, annotated'⟩
  exact ⟨⟨out', more ++ more', none⟩, (replay_reread_iff sound.wellFormed).2
    ⟨p', more, out', more', detected, finished', rfl⟩, same.render⟩

/-- Without annotations, a snapshot is finished with the same document only so. -/
theorem retakable_of_replay {again : Output} (plain : config.annotations = none)
    (sound : Sound .any g) (legible : g.Legible (Json.depthLimit - 5))
    (finished : config.finish p g = .ok (out, found))
    (replayed : config.replay (Snapshot.capture g stage stamp).reread = .ok again)
    (same : again.graph.render = out.render) : config.Retakable p g := by
  obtain ⟨-, -, valid, report, validated, annotated⟩ := finish_ok_iff.1 finished
  obtain ⟨-, rfl, -⟩ := (validate_iff_tidied sound).1 validated
  rw [annotate_none plain] at annotated
  cases annotated
  obtain ⟨p', more, out', found', detected, finished', rfl⟩ :=
    (replay_reread_iff sound.wellFormed).1 replayed
  obtain ⟨-, -, valid, report, validated', annotated'⟩ := finish_ok_iff.1 finished'
  obtain ⟨drawable, rfl, -⟩ := (validate_reread_iff sound).1 validated'
  rw [annotate_none plain] at annotated'
  cases annotated'
  refine ⟨p', more, detected, drawable, ?_⟩
  -- Both providers leave graphs with the same text, so with the same edges.
  have alike : Alike (tidied config.keepStandalone p' g.reread)
      (tidied config.keepStandalone p' g) := alike_tidied (Alike.of_reread g)
  have texts : (tidied config.keepStandalone p g).render =
      (tidied config.keepStandalone p' g).render := same.symm.trans alike.render
  have adjacency := Snapshot.adjacency_eq_of_render (legible_tidied legible)
    (legible_tidied legible) (wellFormed_tidied sound) (wellFormed_tidied sound) texts
  refine (Agree.iff_children sound.wellFormed config.keepStandalone).2 fun n => ?_
  rw [children, children, adjacency]

/-- The prepared graph of a canonical plan is canonical. -/
theorem sound_of_canonical {plan : Plan} (canonical : plan.Canonical)
    (prepared : config.prepare plan = .ok (p, g, found)) : Sound .canonical g := by
  have arranged := arranged_of_prepared Content.canonical_closed Content.canonical_writable
    (fun p r hr => (canonical.resolve r hr).metaOf p) prepared
  exact arranged.sound Content.canonical_closed

/-- What the snapshot of a run comes to when it is taken up again: the document of the run if its
    graph can be retaken, and without annotations only then. The run identifier and the time that
    mark the snapshot have to be read again from their texts, and JSON text has to say the whole
    snapshot. -/
theorem replay_run (config : Pipeline) (plan : Plan) (out : Output) (stamp : Stamp)
    (canonical : plan.Canonical) (readable : Snapshot.Readable stamp)
    (marked : config.stamp = some stamp) (ran : config.run plan = .ok out)
    (legible : ∀ s, out.snapshot = some s → Json.Legible Json.depthLimit s.toDocument) :
    ∃ p g found s t, config.prepare plan = .ok (p, g, found) ∧ out.snapshot = some s ∧
      s.graph = g ∧ Snapshot.parse s.render = .ok t ∧
      (config.Retakable p g → ∃ again, config.replay t = .ok again ∧
        again.graph.render = out.graph.render) ∧
      (config.annotations = none → (∃ again, config.replay t = .ok again ∧
        again.graph.render = out.graph.render) → config.Retakable p g) := by
  obtain ⟨p, g, found, g', more, prepared, finished, rfl⟩ := run_ok_iff.1 ran
  have sound : Sound .any g := (arranged_of_prepare prepared).sound Content.any_closed
  rw [marked] at legible
  have shown := legible _ rfl
  refine ⟨p, g, found, Snapshot.capture g .transform stamp, _, prepared, by rw [marked]; rfl, rfl,
    Snapshot.parse_render shown rfl readable (sound_of_canonical canonical prepared),
    replay_of_retakable sound finished, ?_⟩
  rintro plain ⟨again, replayed, same⟩
  have depth : g.Legible (Json.depthLimit - 5) := Snapshot.legible_toDocument_iff.1 shown
  exact retakable_of_replay plain sound depth finished replayed same

/-! ### A run whose snapshot comes to something else -/

/-- A plan of one key vault. -/
def oneVault : Plan := { Plan.empty with resources := [resource "azurerm_key_vault" "a" []] }

theorem canonical_oneVault : oneVault.Canonical where
  resources r hr := by
    rw [List.mem_singleton.1 hr]
    exact ⟨.empty, by simp [resource], by simp [resource]⟩
  inputs := List.forall_mem_nil _
  calls := List.forall_mem_nil _

/-- A table with a phase that deletes key vaults. -/
def vaultsDeleted : Rules.Table := { Rules.Table.empty "azurerm" with
  phases := [⟨"clean", none,
    [("azurerm_key_vault", ⟨"drop", [.delete none false], none, .after⟩)]⟩] }

/-- The mark of a snapshot at the beginning of 1970. -/
def firstStamp : Stamp := ⟨⟨List.replicate 32 0⟩, ⟨0, 0⟩⟩

theorem readable_firstStamp : Snapshot.Readable firstStamp where
  runId := by decide +kernel
  createdAt := by decide +kernel

/-- A pipeline that deletes key vaults. -/
def withoutVaults : Pipeline :=
  { standard with tables := [vaultsDeleted], stamp := some firstStamp }

theorem isOk_run_withoutVaults : (withoutVaults.run oneVault).isOk = true := by
  decide +kernel

/-- The container of the vault is left alone, and is a container only to the run's providers. -/
theorem shared_services_left : (match withoutVaults.prepare oneVault with
    | .ok (p, g, _) => g.isBare && g.contains "azurerm_group.shared_services" &&
        (g.children "azurerm_group.shared_services").isEmpty &&
        p.isGroup (g.typeOf "azurerm_group.shared_services") &&
        (match withoutVaults.detectAgain g with
          | .ok (p', _) => !p'.isGroup (g.typeOf "azurerm_group.shared_services")
          | .error _ => true)
    | .error _ => false) = true := by
  decide +kernel

theorem isBare_oneVault (prepared : withoutVaults.prepare oneVault = .ok (p, g, found)) :
    g.isBare = true := by
  have left := shared_services_left
  rw [prepared] at left
  simp only [Bool.and_eq_true] at left
  exact left.1.1.1.1

theorem not_retakable_oneVault (prepared : withoutVaults.prepare oneVault = .ok (p, g, found)) :
    ¬withoutVaults.Retakable p g := by
  rintro ⟨p', more, detected, -, agree⟩
  have left := shared_services_left
  rw [prepared] at left
  simp only [detected, Bool.and_eq_true, Bool.not_eq_true', List.isEmpty_iff] at left
  obtain ⟨⟨⟨⟨-, inside⟩, childless⟩, group⟩, plain⟩ := left
  have same := agree _ inside childless
  rw [group, plain] at same
  exact absurd same (by simp)

theorem replay_run_oneVault : ∃ out, withoutVaults.run oneVault = .ok out ∧
    ∃ p g found s t, withoutVaults.prepare oneVault = .ok (p, g, found) ∧ out.snapshot = some s ∧
      s.graph = g ∧ Snapshot.parse s.render = .ok t ∧
      (withoutVaults.Retakable p g → ∃ again, withoutVaults.replay t = .ok again ∧
        again.graph.render = out.graph.render) ∧
      (withoutVaults.annotations = none → (∃ again, withoutVaults.replay t = .ok again ∧
        again.graph.render = out.graph.render) → withoutVaults.Retakable p g) := by
  have ok := isOk_run_withoutVaults
  cases ran : withoutVaults.run oneVault with
  | error e =>
    rw [ran] at ok
    exact absurd ok (by simp [Except.isOk, Except.toBool])
  | ok out =>
    refine ⟨out, rfl, replay_run withoutVaults oneVault out firstStamp canonical_oneVault
      readable_firstStamp rfl ran ?_⟩
    obtain ⟨p, g, found, g', more, prepared, finished, rfl⟩ := run_ok_iff.1 ran
    rintro _ ⟨⟩
    exact Snapshot.legible_toDocument_iff.2 (legible_of_isBare (isBare_oneVault prepared))

/-- The snapshot of a run can come to another document than the run. -/
theorem replay_differs : ∃ out s t, withoutVaults.run oneVault = .ok out ∧
    out.snapshot = some s ∧ Snapshot.parse s.render = .ok t ∧
      ∀ again, withoutVaults.replay t = .ok again → again.graph.render ≠ out.graph.render := by
  have ok := isOk_run_withoutVaults
  cases ran : withoutVaults.run oneVault with
  | error e =>
    rw [ran] at ok
    exact absurd ok (by simp [Except.isOk, Except.toBool])
  | ok out =>
    obtain ⟨p, g, found, g', more, prepared, finished, rfl⟩ := run_ok_iff.1 ran
    have bare := isBare_oneVault prepared
    refine ⟨_, Snapshot.capture g .transform firstStamp, _, rfl, rfl,
      Snapshot.parse_render (Snapshot.legible_toDocument_iff.2 (legible_of_isBare bare)) rfl
        readable_firstStamp (sound_of_canonical canonical_oneVault prepared), ?_⟩
    intro again replayed same
    have sound : Sound .any g := (arranged_of_prepare prepared).sound Content.any_closed
    exact not_retakable_oneVault prepared
      (retakable_of_replay rfl sound (legible_of_isBare bare) finished replayed same)

end Pipeline

end Cartograph

import Cartograph.Proofs.Replay

/-!
# Restored graphs

The snapshot of a graph that a plan was arranged into is written, read and restored. What comes back
is the graph but for attribute values whose documents do not tell them apart (`Graph.reread`), so it
is the graph itself exactly if it has no such values (`Graph.isPlain`, `Pipeline.restored_run`).
They are floats that are not finite, which are written like missing values, and maps with nothing
but a text under the key of placeholders, which are written like placeholders.
-/

namespace Cartograph

/-! ### Plain values -/

namespace Value

mutual

/-- Whether a value holds no float that is not finite, and no map that is taken for a
    placeholder. -/
def isPlain : Value → Bool
  | .float f => f.isFinite
  | .list items => allPlain items
  | .map entries => (placeholderOf? entries).isNone && allPlainEntries entries
  | _ => true

def allPlain : List Value → Bool
  | [] => true
  | v :: vs => isPlain v && allPlain vs

def allPlainEntries : List (String × Value) → Bool
  | [] => true
  | (_, v) :: es => isPlain v && allPlainEntries es

end

mutual

/-- The values that come back are the plain ones. -/
theorem reread_eq_self_iff : ∀ v : Value, v.reread = v ↔ v.isPlain
  | .float f => by
    rw [reread, isPlain]
    split
    · next finite => exact ⟨fun _ => finite, fun _ => rfl⟩
    · next infinite => exact ⟨fun h => absurd h (by simp), fun h => absurd h infinite⟩
  | .list items => by
    rw [reread, isPlain, list.injEq, rereadItems_eq_self_iff items]
  | .map entries => by
    rw [reread, isPlain]
    split
    · next s placeholder => simp [placeholder]
    · next no => rw [map.injEq, rereadEntries_eq_self_iff entries, no]; simp
  | .null | .bool _ | .int _ | .text _ | .unresolved _ => by simp [reread, isPlain]

theorem rereadItems_eq_self_iff : ∀ vs : List Value, rereadItems vs = vs ↔ allPlain vs
  | [] => by simp [rereadItems, allPlain]
  | v :: vs => by
    rw [rereadItems, allPlain, List.cons.injEq, reread_eq_self_iff v, rereadItems_eq_self_iff vs,
      Bool.and_eq_true]

theorem rereadEntries_eq_self_iff : ∀ es : Attributes,
    rereadEntries es = es ↔ allPlainEntries es
  | [] => by simp [rereadEntries, allPlainEntries]
  | (k, v) :: es => by
    rw [rereadEntries, allPlainEntries, List.cons.injEq, Prod.mk.injEq, reread_eq_self_iff v,
      rereadEntries_eq_self_iff es, Bool.and_eq_true]
    exact and_congr_left' (and_iff_right rfl)

end

end Value

/-- Members that a function leaves as they are. -/
theorem map_eq_self_iff {α : Type} {f : α → α} {l : List α} : l.map f = l ↔ ∀ a ∈ l, f a = a :=
  Iff.trans (by rw [List.map_id]) (List.map_inj_left (g := id))

namespace NodeMeta

/-- Whether all attribute values are plain. -/
def isPlain (m : NodeMeta) : Bool :=
  Value.allPlainEntries m.attributes && Value.allPlainEntries m.raw &&
    m.instances.all Value.allPlainEntries

theorem reread_eq_self_iff {m : NodeMeta} : m.reread = m ↔ m.isPlain := by
  obtain ⟨_, _, _, _, attributes, raw, instances, _, _, _, _, _, _, _⟩ := m
  have bags : instances.map Value.rereadEntries = instances ↔
      instances.all Value.allPlainEntries := by
    rw [map_eq_self_iff, List.all_eq_true]
    exact forall₂_congr fun as _ => Value.rereadEntries_eq_self_iff as
  unfold reread isPlain
  simp only [mk.injEq, true_and, and_true, Bool.and_eq_true, and_assoc,
    Value.rereadEntries_eq_self_iff, bags]

end NodeMeta

namespace Graph

variable {g : Graph}

/-- Whether all attribute values are plain. -/
def isPlain (g : Graph) : Bool := g.metadata.all fun e => e.2.isPlain

theorem reread_eq_self_iff : g.reread = g ↔ g.isPlain := by
  obtain ⟨adjacency, metadata, provider, title⟩ := g
  unfold reread mapMeta isPlain
  simp only [mk.injEq, true_and, and_true]
  rw [map_eq_self_iff, List.all_eq_true]
  refine forall₂_congr fun e _ => ?_
  rw [Prod.mk.injEq, and_iff_right rfl, NodeMeta.reread_eq_self_iff]

end Graph

/-! ### Documents that text says in full -/

namespace Json

mutual

/-- Whether a document is of so many levels, with integers that JSON text has and without finite
    floats, whose texts would have to be looked at. -/
def isLegible : Nat → Document → Bool
  | _, .int i => -(Nat.pow 2 63) ≤ i && i < Nat.pow 2 64
  | _, .float f => !f.isFinite
  | _, .plain _ => false
  | 0, .list _ => false
  | n + 1, .list items => allLegible n items
  | 0, .fields _ => false
  | n + 1, .fields entries => allLegibleEntries n entries
  | _, _ => true

def allLegible : Nat → List Document → Bool
  | _, [] => true
  | n, d :: ds => isLegible n d && allLegible n ds

def allLegibleEntries : Nat → List (Document.Key × Document) → Bool
  | _, [] => true
  | n, (k, d) :: es => !k.isPlain && isLegible n d && allLegibleEntries n es

end

mutual

theorem legible_of_isLegible : ∀ {n : Nat} {d : Document}, isLegible n d → Legible n d
  | _, .int i, h => by
    simp only [isLegible, Bool.and_eq_true, decide_eq_true_eq] at h
    exact .int h.1 h.2
  | _, .float f, h => by
    simp only [isLegible, Bool.not_eq_true'] at h
    exact .float fun finite => absurd (h.symm.trans finite) (by simp)
  | _, .null, _ => .null
  | _, .bool _, _ => .bool
  | _, .text _, _ => .text
  | _, .plain _, h => absurd h (by simp [isLegible])
  | 0, .list _, h => absurd h (by simp [isLegible])
  | n + 1, .list items, h => by
    rw [isLegible] at h
    exact .list (legible_of_allLegible h)
  | 0, .fields _, h => absurd h (by simp [isLegible])
  | n + 1, .fields entries, h => by
    rw [isLegible] at h
    obtain ⟨quoted, each⟩ := legible_of_allLegibleEntries h
    exact .fields quoted each

theorem legible_of_allLegible : ∀ {n : Nat} {ds : List Document}, allLegible n ds →
    ∀ d ∈ ds, Legible n d
  | _, [], _ => List.forall_mem_nil _
  | n, d :: ds, h => by
    rw [allLegible, Bool.and_eq_true] at h
    exact List.forall_mem_cons.2 ⟨legible_of_isLegible h.1, legible_of_allLegible h.2⟩

theorem legible_of_allLegibleEntries : ∀ {n : Nat} {es : List (Document.Key × Document)},
    allLegibleEntries n es → (∀ e ∈ es, e.1.isPlain = false) ∧ ∀ e ∈ es, Legible n e.2
  | _, [], _ => ⟨List.forall_mem_nil _, List.forall_mem_nil _⟩
  | n, (k, d) :: es, h => by
    rw [allLegibleEntries, Bool.and_eq_true, Bool.and_eq_true, Bool.not_eq_true'] at h
    obtain ⟨plain, rest⟩ := legible_of_allLegibleEntries h.2
    exact ⟨List.forall_mem_cons.2 ⟨h.1.1, plain⟩,
      List.forall_mem_cons.2 ⟨legible_of_isLegible h.1.2, rest⟩⟩

end

end Json

/-! ### Snapshots -/

namespace Snapshot

/-- The graph that is restored from the text of a snapshot. -/
def restored (s : Snapshot) : Except Error Graph := parse s.render >>= restore

variable {g : Graph} {stage : Stage} {stamp : Stamp}

/-- What is restored from the text of the snapshot of a sound graph with canonical content. -/
theorem restored_capture (readable : Readable stamp) (sound : Sound .canonical g)
    (legible : Json.Legible Json.depthLimit (capture g stage stamp).toDocument) :
    (capture g stage stamp).restored = .ok g.reread := by
  have read : parse (capture g stage stamp).render = .ok (capture g stage stamp).reread :=
    parse_render legible rfl readable sound
  have restores : (capture g stage stamp).reread.restore = .ok g.reread :=
    restore_reread (s := capture g stage stamp) rfl sound.wellFormed
  rw [restored, read]
  simp only [bind, Except.bind, restores]

end Snapshot

/-! ### Graphs of runs -/

namespace Pipeline

variable {p : Rules.Providers} {g : Graph} {found : List Diagnostic}

/-- The graph that a plan was arranged into comes back from the text of its snapshot but for
    attribute values that are not plain, and exactly then as it was. The run identifier and the time
    have to be read again from their texts, and JSON text has to say the whole snapshot: its
    integers, its floats and its depth. -/
theorem restored_run (config : Pipeline) (plan : Plan) (stage : Stage) (stamp : Stamp)
    (canonical : plan.Canonical) (readable : Snapshot.Readable stamp)
    (prepared : config.prepare plan = .ok (p, g, found))
    (legible : Json.Legible Json.depthLimit (Snapshot.capture g stage stamp).toDocument) :
    (Snapshot.capture g stage stamp).restored = .ok g.reread ∧
      ((Snapshot.capture g stage stamp).restored = .ok g ↔ g.isPlain) := by
  have comes : (Snapshot.capture g stage stamp).restored = .ok g.reread :=
    Snapshot.restored_capture readable (sound_of_canonical canonical prepared) legible
  refine ⟨comes, ?_⟩
  rw [comes, Except.ok.injEq, Graph.reread_eq_self_iff]

/-! ### A map that comes back as a placeholder -/

/-- A plan of a network with a map of one entry. -/
def taggedNetwork (key : String) : Plan := { Plan.empty with
  resources := [resource "aws_vpc" "a"
    [("tags", .text ("$\x7b\x7b\"" ++ key ++ "\" = \"x\"\x7d\x7d"))]] }

theorem canonical_taggedNetwork (key : String) : (taggedNetwork key).Canonical where
  resources r hr := by
    rw [List.mem_singleton.1 hr]
    refine ⟨.map (by simp [Keyed.IsSorted, resource]) ?_, by simp [resource], by simp [resource]⟩
    exact fun e he => List.mem_singleton.1 he ▸ .text
  inputs := List.forall_mem_nil _
  calls := List.forall_mem_nil _

/-- Whether a plan has a prepared graph of which something holds, and text says its snapshot. -/
def prepares (config : Pipeline) (plan : Plan) (what : Graph → Bool) : Bool :=
  match config.prepare plan with
  | .ok (_, g, _) => what g &&
      Json.isLegible Json.depthLimit (Snapshot.capture g .transform firstStamp).toDocument
  | .error _ => false

theorem exists_of_prepares {config : Pipeline} {plan : Plan} {what : Graph → Bool}
    (h : config.prepares plan what) : ∃ p g found, config.prepare plan = .ok (p, g, found) ∧
      what g ∧ Json.Legible Json.depthLimit (Snapshot.capture g .transform firstStamp).toDocument := by
  unfold prepares at h
  split at h
  · next p g found prepared =>
    rw [Bool.and_eq_true] at h
    exact ⟨p, g, found, prepared, h.1, Json.legible_of_isLegible h.2⟩
  · exact absurd h (by simp)

theorem prepares_named : standard.prepares (taggedNetwork "name") Graph.isPlain = true := by
  decide +kernel

theorem prepares_unresolved :
    standard.prepares (taggedNetwork "$unresolved") (fun g => !g.isPlain) = true := by
  decide +kernel

theorem restored_run_named : ∃ p g found,
    standard.prepare (taggedNetwork "name") = .ok (p, g, found) ∧ g.isPlain ∧
      (Snapshot.capture g .transform firstStamp).restored = .ok g.reread ∧
      ((Snapshot.capture g .transform firstStamp).restored = .ok g ↔ g.isPlain) := by
  obtain ⟨p, g, found, prepared, plain, legible⟩ := exists_of_prepares prepares_named
  exact ⟨p, g, found, prepared, plain, restored_run standard (taggedNetwork "name") .transform
    firstStamp (canonical_taggedNetwork _) readable_firstStamp prepared legible⟩

/-- A map with nothing but a text under the key of placeholders does not come back as it was. -/
theorem restored_differs : ∃ p g found g',
    standard.prepare (taggedNetwork "$unresolved") = .ok (p, g, found) ∧
      (Snapshot.capture g .transform firstStamp).restored = .ok g' ∧ g' ≠ g := by
  obtain ⟨p, g, found, prepared, notPlain, legible⟩ := exists_of_prepares prepares_unresolved
  have sound := sound_of_canonical (canonical_taggedNetwork _) prepared
  refine ⟨p, g, found, g.reread, prepared,
    Snapshot.restored_capture readable_firstStamp sound legible, fun same => ?_⟩
  rw [Graph.reread_eq_self_iff.1 same] at notPlain
  exact absurd notPlain (by simp)

end Pipeline

end Cartograph

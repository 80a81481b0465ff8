import Cartograph.Proofs.NodeMeta
import Cartograph.Snapshot

/-!
# Snapshots through JSON

What is read of a snapshot that was written is the snapshot itself, but for what the documents of
attribute values do not show (`Snapshot.reread`). A sound graph with canonical content comes back
with the same nodes, edges and types, nothing is missing in it (`Snapshot.restore_reread`), and it
has the document of the graph that was written (`Graph.render_reread`).
-/

namespace Cartograph

variable {g : Graph}

/-! ### Graphs -/

namespace Graph

/-- What is read of a graph that was written. -/
def reread (g : Graph) : Graph := g.mapMeta NodeMeta.reread

@[simp]
theorem children_reread (node : NodeId) : g.reread.children node = g.children node := rfl

@[simp]
theorem contains_reread (node : NodeId) : g.reread.contains node = g.contains node := rfl

theorem meta?_reread (node : NodeId) : g.reread.meta? node = (g.meta? node).map NodeMeta.reread :=
  Keyed.find?_map_value fun _ => NodeMeta.reread

theorem wellFormed_reread (h : g.WellFormed) : g.reread.WellFormed where
  nodup := h.nodup
  sameNodes node := by
    rw [meta?_reread, Option.isSome_map]
    exact h.sameNodes node
  closed := h.closed
  noRepetition := h.noRepetition
  noLoop := h.noLoop

theorem shown_adjacencyDocument (g : Graph) :
    Json.shown g.adjacencyDocument = g.adjacencyDocument := by
  show Json.shown (.object (g.adjacency.map fun e => (e.1, .list (e.2.map .text)))) =
    .object (g.adjacency.map fun e => (e.1, .list (e.2.map .text)))
  rw [Json.shown_object, List.map_map]
  congr 2
  funext e
  exact congrArg (Prod.mk e.1) (NodeMeta.shown_texts e.2)

theorem shown_metadataDocument (g : Graph) :
    Json.shown g.metadataDocument = g.reread.metadataDocument := by
  show Json.shown (.object (g.metadata.map fun e => (e.1, e.2.toDocument))) =
    .object ((g.metadata.map fun e => (e.1, e.2.reread)).map fun e => (e.1, e.2.toDocument))
  rw [Json.shown_object, List.map_map, List.map_map]
  congr 2
  funext e
  exact congrArg (Prod.mk e.1) e.2.shown_toDocument

/-- The document that is read of a graph. -/
theorem shown_toDocument (g : Graph) : Json.shown g.toDocument = g.reread.toDocument := by
  have provider : Json.shown (.text g.provider) = .text g.provider := rfl
  rw [toDocument, toDocument, Json.shown_object]
  simp only [List.map_append, NodeMeta.map_textOf, List.map_cons, List.map_nil, provider,
    shown_adjacencyDocument, shown_metadataDocument]
  rfl

/-- What is read of a graph has the same text. -/
theorem render_reread (g : Graph) : g.reread.render = g.render := by
  rw [render, render, ← shown_toDocument, Json.pretty_shown]

/-- The children stand in a field of their own. -/
theorem get?_toDocument (g : Graph) :
    (g.toDocument.record? ["title", "provider", "graph", "metadata"]).bind (·.get? "graph") =
      some g.adjacencyDocument := by
  have keys : ((g.title.map fun t => ("title", Document.text t)).toList ++
      [("provider", .text g.provider), ("graph", g.adjacencyDocument),
        ("metadata", g.metadataDocument)] |>.map (·.1)).Sublist
        ["title", "provider", "graph", "metadata"] := by
    rw [List.map_append]
    exact (NodeMeta.keys_textOf _ _).append (.refl ["provider", "graph", "metadata"])
  rw [toDocument, Document.record?_object (by decide) keys, Option.bind_some]
  simp

/-- A graph whose metadata JSON text says in full, at some depth. -/
def Legible (n : Nat) (g : Graph) : Prop := ∀ e ∈ g.metadata, e.2.Legible n

theorem legible_adjacencyDocument (n : Nat) (g : Graph) :
    Json.Legible (n + 2) g.adjacencyDocument := by
  refine Json.legible_object_iff.2 fun e he => ?_
  obtain ⟨_, -, rfl⟩ := List.mem_map.1 he
  exact Json.legible_texts n _

theorem legible_metadataDocument_iff {n : Nat} :
    Json.Legible (n + 4) g.metadataDocument ↔ g.Legible n := by
  unfold metadataDocument
  rw [Json.legible_object_iff]
  constructor
  · intro h e he
    exact NodeMeta.legible_toDocument_iff.1 (h _ (List.mem_map_of_mem he))
  · intro h e he
    obtain ⟨_, inside, rfl⟩ := List.mem_map.1 he
    exact NodeMeta.legible_toDocument_iff.2 (h _ inside)

/-- The document of a graph is legible if the graph is. -/
theorem legible_toDocument {n : Nat} (h : g.Legible n) : Json.Legible (n + 5) g.toDocument := by
  refine Json.legible_object_iff.2 fun e he => ?_
  rcases List.mem_append.1 he with title | rest
  · exact NodeMeta.legible_textOf e title
  · simp only [List.mem_cons, List.not_mem_nil, or_false] at rest
    rcases rest with rfl | rfl | rfl
    · exact .text
    · exact legible_adjacencyDocument (n + 2) g
    · exact legible_metadataDocument_iff.2 h

end Graph

/-! ### Decoding -/

namespace Snapshot

open Document.Record

variable {s : Snapshot}

/-- What is read of a snapshot that was written. -/
def reread (s : Snapshot) : Snapshot := { s with graph := s.graph.reread }

theorem adjacency?_document (nodup : g.nodes.Nodup) :
    adjacency? g.adjacencyDocument = some g.adjacency := by
  have texts (ss : List String) :
      (Document.list (ss.map .text)).listOf? Document.asText? = some ss := by
    have each : ∀ s ∈ ss, (Document.text s).asText? = some (id s) := fun _ _ => rfl
    rw [Document.listOf?_map id each, List.map_id]
  have decoded := Document.entriesOf?_map (Document.listOf? Document.asText?)
    (fun e : NodeId × List NodeId => e.1) (fun e => .list (e.2.map .text)) (fun e => e.2)
    (l := g.adjacency) fun e _ => texts e.2
  refine (congrArg _ decoded).trans ?_
  rw [Option.map_some, List.map_id', Keyed.ordered_eq_self nodup]

theorem metadata?_document {n : Nat} (sound : Sound .canonical g) (legible : g.Legible n) :
    metadata? g.reread.metadataDocument = some g.reread.metadata := by
  have decoded := Document.entriesOf?_map NodeMeta.ofDocument?
    (fun e : NodeId × NodeMeta => e.1) (fun e => e.2.reread.toDocument) (fun e => e.2.reread)
    (l := g.metadata) fun e he => ?_
  · have document : g.reread.metadataDocument =
        .object (g.metadata.map fun e => (e.1, e.2.reread.toDocument)) := by
      show Document.object (List.map _ (List.map _ g.metadata)) = _
      rw [List.map_map]
      rfl
    rw [metadata?, document, decoded, Option.map_some, Keyed.sorted_eq_self]
    · rfl
    · exact (Keyed.isSorted_map_value fun _ => NodeMeta.reread).2 sound.sorted
  · have found : g.meta? e.1 = some e.2 := Keyed.find?_of_mem sound.sorted.nodup he
    rw [← NodeMeta.shown_toDocument]
    exact NodeMeta.ofDocument?_shown (sound.holds _ _ found) (legible e he).countable

/-- The fields of the record of a snapshot. -/
def fieldsOf (s : Snapshot) : List (String × Document) :=
  [("format_version", .text s.formatVersion), ("stage", .text s.stage.name),
    ("run_id", .text s.stamp.runId.text), ("created_at", .text s.stamp.createdAt.text)]
  ++ (s.graph.title.map fun t => ("title", .text t)).toList
  ++ [("provider", .text s.graph.provider), ("graph", s.graph.adjacencyDocument),
    ("metadata", s.graph.metadataDocument)]

/-- The names of the fields in order. -/
def fieldNames : List String :=
  ["format_version", "stage", "run_id", "created_at", "title", "provider", "graph", "metadata"]

theorem keys_fieldsOf (s : Snapshot) : (s.fieldsOf.map (·.1)).Sublist fieldNames := by
  have names : fieldNames = ["format_version", "stage", "run_id", "created_at"] ++ ["title"] ++
    ["provider", "graph", "metadata"] := rfl
  rw [names, fieldsOf]
  simp only [List.map_append]
  exact .append (.append (.refl _) (NodeMeta.keys_textOf _ _)) (.refl _)

/-- The document that is read of a snapshot. -/
theorem shown_toDocument (s : Snapshot) : Json.shown s.toDocument = s.reread.toDocument := by
  have text (t : String) : Json.shown (.text t) = .text t := rfl
  rw [toDocument, toDocument, Json.shown_object]
  simp only [List.map_append, NodeMeta.map_textOf, List.map_cons, List.map_nil, text,
    Graph.shown_adjacencyDocument, Graph.shown_metadataDocument]
  rfl

theorem stage_ofDocument? (stage : Stage) : Stage.ofDocument? (.text stage.name) = some stage := by
  cases stage <;> decide

/-- A stamp that is read again from the texts of its parts. -/
structure Readable (stamp : Stamp) : Prop where
  runId : RunId.parse? stamp.runId.text = some stamp.runId
  createdAt : Moment.parse? stamp.createdAt.text = some stamp.createdAt

/-- A snapshot is read again if the parts of its graph are. -/
theorem ofDocument?_toDocument (readable : Readable s.stamp)
    (adjacency : adjacency? s.graph.adjacencyDocument = some s.graph.adjacency)
    (metadata : metadata? s.graph.metadataDocument = some s.graph.metadata) :
    ofDocument? s.toDocument = some s := by
  have record : s.toDocument.positionalRecord? fieldNames = some ⟨s.fieldsOf⟩ := by
    show (Document.object s.fieldsOf).record? fieldNames = _
    exact Document.record?_object (by decide) s.keys_fieldsOf
  obtain ⟨r, hr⟩ : ∃ r : Document.Record, r = ⟨s.fieldsOf⟩ := ⟨_, rfl⟩
  have version : r.required? "format_version" Document.asText? = some s.formatVersion :=
    required?_of (d := .text s.formatVersion) (by simp [hr, fieldsOf]) rfl
  have stage : r.required? "stage" Stage.ofDocument? = some s.stage :=
    required?_of (d := .text s.stage.name) (by simp [hr, fieldsOf]) (stage_ofDocument? s.stage)
  have runId : r.required? "run_id" (fun d => d.asText?.bind RunId.parse?) = some s.stamp.runId :=
    required?_of (d := .text s.stamp.runId.text) (by simp [hr, fieldsOf])
      ((Option.bind_some _ RunId.parse?).trans readable.runId)
  have createdAt : r.required? "created_at" (fun d => d.asText?.bind Moment.parse?) =
      some s.stamp.createdAt :=
    required?_of (d := .text s.stamp.createdAt.text) (by simp [hr, fieldsOf])
      ((Option.bind_some _ Moment.parse?).trans readable.createdAt)
  have title : r.optional? "title" Document.asText? = some s.graph.title :=
    optional?_text (by simp [hr, fieldsOf])
  have provider : r.required? "provider" Document.asText? = some s.graph.provider :=
    required?_of (d := .text s.graph.provider) (by simp [hr, fieldsOf]) rfl
  have adjacency : r.required? "graph" adjacency? = some s.graph.adjacency :=
    required?_of (d := s.graph.adjacencyDocument) (by simp [hr, fieldsOf]) adjacency
  have metadata : r.required? "metadata" metadata? = some s.graph.metadata :=
    required?_of (d := s.graph.metadataDocument) (by simp [hr, fieldsOf]) metadata
  unfold ofDocument?
  rw [show s.toDocument.positionalRecord? _ = some r from hr ▸ record]
  simp only [Option.bind_eq_bind, Option.bind_some, Option.pure_def, version, stage, runId,
    createdAt, title, provider, adjacency, metadata]

/-- What is read of the document of a snapshot with a sound graph of canonical content. -/
theorem ofDocument?_shown {n : Nat} (readable : Readable s.stamp)
    (sound : Sound .canonical s.graph) (legible : s.graph.Legible n) :
    ofDocument? (Json.shown s.toDocument) = some s.reread := by
  rw [shown_toDocument]
  exact ofDocument?_toDocument readable
    (adjacency?_document (Graph.wellFormed_reread sound.wellFormed).nodup)
    (metadata?_document sound legible)

/-! ### Taking up again -/

theorem checkVersion_current (h : s.formatVersion = currentVersion) : s.checkVersion = .ok () := by
  have current : Decimal.readBelow? (Nat.pow 2 32)
      (String.ofList (currentVersion.toList.takeWhile (· ≠ '.'))) = some majorVersion := by
    decide +kernel
  rw [checkVersion, h]
  exact if_pos current

/-- The document of a snapshot is legible exactly if its graph is. -/
theorem legible_toDocument_iff {n : Nat} :
    Json.Legible (n + 5) s.toDocument ↔ s.graph.Legible n := by
  show Json.Legible (n + 5) (.object s.fieldsOf) ↔ _
  rw [Json.legible_object_iff]
  constructor
  · intro h
    exact Graph.legible_metadataDocument_iff.1
      (h ("metadata", s.graph.metadataDocument) (by simp [fieldsOf]))
  · intro h e he
    simp only [fieldsOf, List.mem_append, List.mem_cons, List.not_mem_nil, or_false] at he
    rcases he with ((rfl | rfl | rfl | rfl) | title) | rfl | rfl | rfl
    · exact .text
    · exact .text
    · exact .text
    · exact .text
    · exact NodeMeta.legible_textOf e title
    · exact .text
    · exact Graph.legible_adjacencyDocument (n + 2) s.graph
    · exact Graph.legible_metadataDocument_iff.2 h

/-- The text of a snapshot is read, if it is legible. -/
theorem parse_render (legible : Json.Legible Json.depthLimit s.toDocument)
    (current : s.formatVersion = currentVersion) (readable : Readable s.stamp)
    (sound : Sound .canonical s.graph) : parse s.render = .ok s.reread := by
  have version : s.reread.checkVersion = .ok () := checkVersion_current current
  have decoded := ofDocument?_shown readable sound
    (legible_toDocument_iff (n := Json.depthLimit - 5).1 legible)
  unfold parse render
  rw [Json.parse?_pretty legible, Option.bind_some, decoded]
  simp only [bind, Except.bind, version]
  rfl

/-- Graphs with the same text have the same edges. -/
theorem adjacency_eq_of_render {g' : Graph} (legible : g.Legible (Json.depthLimit - 5))
    (legible' : g'.Legible (Json.depthLimit - 5)) (wf : g.WellFormed) (wf' : g'.WellFormed)
    (same : g.render = g'.render) : g.adjacency = g'.adjacency := by
  have documents : Json.shown g.toDocument = Json.shown g'.toDocument := by
    have read := Json.parse?_pretty (Graph.legible_toDocument legible)
    rw [show Json.pretty g.toDocument = Json.pretty g'.toDocument from same,
      Json.parse?_pretty (Graph.legible_toDocument legible')] at read
    exact (Option.some.inj read).symm
  have adjacencies : g.adjacencyDocument = g'.adjacencyDocument := by
    rw [Graph.shown_toDocument, Graph.shown_toDocument] at documents
    have read := Graph.get?_toDocument g.reread
    rw [documents, Graph.get?_toDocument] at read
    exact (Option.some.inj read).symm
  have read := adjacency?_document wf.nodup
  rw [adjacencies, adjacency?_document wf'.nodup] at read
  exact (Option.some.inj read).symm

/-- What is read of a well-formed graph can be restored. -/
theorem restore_reread (current : s.formatVersion = currentVersion)
    (wellFormed : s.graph.WellFormed) : s.reread.restore = .ok s.graph.reread := by
  have version : s.reread.checkVersion = .ok () := checkVersion_current current
  have intact : s.reread.graph.checkIntegrity "replay" = .ok () :=
    (Graph.wellFormed_reread wellFormed).check "replay"
  unfold restore
  simp only [bind, Except.bind, version, intact]
  rfl

end Snapshot

end Cartograph

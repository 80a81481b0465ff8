import Cartograph.Graph.Output
import Cartograph.Json.Reader
import Cartograph.Moment
import Cartograph.RunId

/-!
# Snapshots

A graph as it stood after a stage of a run, so that the run can be taken up from there. A snapshot
can be restored if its format has the same major version and nothing is missing in its graph
(`Snapshot.restore`).
-/

namespace Cartograph

/-- A stage of a run. -/
inductive Stage
  | interpret
  | build
  | expand
  | transform
  | validate
  | annotate
  deriving Repr, DecidableEq

namespace Stage

/-- All stages in their order. -/
def all : List Stage := [interpret, build, expand, transform, validate, annotate]

/-- The name of a stage. -/
def name : Stage → String
  | interpret => "interpret"
  | build => "build"
  | expand => "expand"
  | transform => "transform"
  | validate => "validate"
  | annotate => "annotate"

/-- The place of a stage. -/
def index (s : Stage) : Nat := all.idxOf s

/-- The stage of a name. -/
def ofName? (s : String) : Except Error Stage :=
  match all.find? fun t => t.name == s with
  | some t => .ok t
  | none => .error (.unknownStage s)

/-- The stage of a document. -/
def ofDocument? (d : Document) : Option Stage :=
  d.asTag?.bind fun s => (ofName? s).toOption

end Stage

/-- What marks a run: its identifier and its time. -/
structure Stamp where
  runId : RunId
  createdAt : Moment

/-- A graph as it stood after a stage. -/
structure Snapshot where
  formatVersion : String
  stage : Stage
  stamp : Stamp
  graph : Graph

namespace Snapshot

/-- The version of the format that is written. -/
def currentVersion : String := toString majorVersion ++ ".0"

/-- The snapshot of a graph. -/
def capture (g : Graph) (stage : Stage) (stamp : Stamp) : Snapshot :=
  ⟨currentVersion, stage, stamp, g⟩

/-- Fails unless the format has the major version that can be read. -/
def checkVersion (s : Snapshot) : Except Error Unit :=
  -- Without a dot the whole text is the major version.
  let major := String.ofList (s.formatVersion.toList.takeWhile (· ≠ '.'))
  if Decimal.readBelow? (Nat.pow 2 32) major = some majorVersion then .ok ()
  else .error (.snapshotVersion s.formatVersion)

/-! ### Documents -/

/-- The record of a snapshot. -/
def toDocument (s : Snapshot) : Document :=
  .object <|
    [("format_version", .text s.formatVersion), ("stage", .text s.stage.name),
      ("run_id", .text s.stamp.runId.text), ("created_at", .text s.stamp.createdAt.text)]
    ++ (s.graph.title.map fun t => ("title", .text t)).toList
    ++ [("provider", .text s.graph.provider), ("graph", s.graph.adjacencyDocument),
      ("metadata", s.graph.metadataDocument)]

/-- The text of a snapshot. -/
def render (s : Snapshot) : String := Json.pretty s.toDocument

/-- The children of each node. -/
def adjacency? (d : Document) : Option (List (NodeId × List NodeId)) :=
  (d.entriesOf? (Document.listOf? Document.asText?)).map Keyed.ordered

/-- Metadata by node. -/
def metadata? (d : Document) : Option (List (NodeId × NodeMeta)) :=
  (d.entriesOf? NodeMeta.ofDocument?).map Keyed.sorted

/-- The snapshot of a record. -/
def ofDocument? (d : Document) : Option Snapshot := do
  let r ← d.positionalRecord?
    ["format_version", "stage", "run_id", "created_at", "title", "provider", "graph", "metadata"]
  let text := Document.asText?
  pure {
    formatVersion := ← r.required? "format_version" text
    stage := ← r.required? "stage" Stage.ofDocument?
    stamp := {
      runId := ← r.required? "run_id" fun d => d.asText?.bind RunId.parse?
      createdAt := ← r.required? "created_at" fun d => d.asText?.bind Moment.parse? }
    graph := {
      title := ← r.optional? "title" text
      provider := ← r.required? "provider" text
      adjacency := ← r.required? "graph" adjacency?
      metadata := ← r.required? "metadata" metadata? } }

/-- The snapshot of a text, if its version can be read. -/
def parse (text : String) : Except Error Snapshot := do
  match (Json.parse? text).bind ofDocument? with
  | none => throw .json
  | some s => do
    s.checkVersion
    pure s

/-- The graph of a snapshot, if its version can be read and nothing is missing. -/
def restore (s : Snapshot) : Except Error Graph := do
  s.checkVersion
  s.graph.checkIntegrity "replay"
  pure s.graph

end Snapshot

end Cartograph

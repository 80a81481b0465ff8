import Cartograph.Operation
import Cartograph.Yaml.Reader

/-!
# Annotations as written

What a user adds to a graph by hand: a title, nodes, edges with or without labels, edges and nodes
that are to go, and labels and attributes of nodes. Sources and targets are given by patterns.

Notes are read from YAML or from a JSON record; everything in them may be left out. Parsing the
patterns makes `Annotations` of them; the first malformed one stops it.
-/

namespace Cartograph.Annotation

/-- Targets with the labels of the edges to them. -/
abbrev Targets := List (String × Option String)

/-- What is written about the nodes that a pattern matches. -/
structure NodeNotes where
  label : Option String
  attributes : Attributes
  edgeLabels : Targets

/-- What is written, with patterns as texts. -/
structure Notes where
  title : Option String
  add : List (String × Option Attributes)
  connect : List (String × Targets)
  disconnect : List (String × List String)
  remove : List String
  update : List (String × NodeNotes)

/-! ### Reading -/

/-- How a record is laid out: as a mapping, or also as a list. -/
abbrev RecordReader := List String → Document → Option Document.Record

/-- A target on its own, or targets with labels. A scalar has to be a text on its own. -/
def target? (d : Document) : Option Targets :=
  match d.settle with
  | .text s => some [(s, none)]
  | .fields entries => do
    let pairs ← entries.mapM fun (k, v) => do
      let name ← k.asText?
      let label ← v.asText?
      pure (name, label)
    pure ((Keyed.sorted pairs).map fun (name, label) => (name, some label))
  | _ => none

/-- All targets of a list. -/
def targets? (d : Document) : Option Targets := (d.listOf? target?).map List.flatten

/-- Entries by pattern. -/
def byPattern? {α : Type} (decode : Document → Option α) (d : Document) :
    Option (List (String × α)) :=
  (d.entriesOf? decode).map Keyed.ordered

def NodeNotes.ofDocument? (reader : RecordReader) (d : Document) : Option NodeNotes := do
  let r ← reader ["label", "attributes", "edge_labels"] d
  pure {
    label := ← r.optional? "label" Document.asText?
    attributes := ← r.withDefault? "attributes" NodeMeta.attributes? []
    edgeLabels := ← r.withDefault? "edge_labels" targets? [] }

/-- The notes of a record. -/
def Notes.ofDocument? (reader : RecordReader) (d : Document) : Option Notes := do
  let r ← reader ["title", "add", "connect", "disconnect", "remove", "update"] d
  pure {
    title := ← r.optional? "title" Document.asText?
    add := ← r.withDefault? "add" (byPattern? (Document.optional? NodeMeta.attributes?)) []
    connect := ← r.withDefault? "connect" (byPattern? targets?) []
    disconnect :=
      ← r.withDefault? "disconnect" (byPattern? (Document.listOf? Document.asText?)) []
    remove := ← r.withDefault? "remove" (Document.listOf? Document.asText?) []
    update := ← r.withDefault? "update" (byPattern? (NodeNotes.ofDocument? reader)) [] }

/-- The notes of a YAML text. -/
def Notes.ofYaml? (text : String) : Except Error Notes :=
  match (Yaml.parse? text).bind (Notes.ofDocument? fun names d => d.record? names) with
  | some n => .ok n
  | none => .error .yaml

/-- The notes of a JSON document. -/
def Notes.ofJson? (d : Document) : Except Error Notes :=
  match Notes.ofDocument? (fun names d => d.positionalRecord? names) d with
  | some n => .ok n
  | none => .error .json

end Annotation

/-! ### Parsing patterns -/

/-- Patterns with the labels of the edges to what they match. -/
abbrev Links := List (Pattern × Option String)

/-- What is said about the nodes that a pattern matches. -/
structure NodeUpdate where
  pattern : Pattern
  label : Option String
  attributes : Attributes
  edgeLabels : Links

/-- Annotations with all patterns parsed. -/
structure Annotations where
  title : Option String
  add : List (NodeId × Attributes)
  connect : List (Pattern × Links)
  disconnect : List (Pattern × List Pattern)
  remove : List Pattern
  update : List NodeUpdate

namespace Annotations

open Annotation

/-- The patterns of targets. -/
def linksOf (targets : Targets) : Except Error Links :=
  targets.mapM fun (target, label) => do pure (← Pattern.parse? target, label)

/-- A node that is to be added, which has to be named in full. -/
def addition (entry : String × Option Attributes) : Except Error (NodeId × Attributes) := do
  let (node, attributes) := entry
  let p ← Pattern.parse? node
  if p.isIdentifier then pure (p.text, attributes.getD [])
  else throw (.invalidPattern node .notAnIdentifier)

/-- The annotations that notes stand for. -/
def ofNotes (n : Notes) : Except Error Annotations := do
  let add ← n.add.mapM addition
  let connect ← n.connect.mapM fun (source, targets) => do
    pure (← Pattern.parse? source, ← linksOf targets)
  let disconnect ← n.disconnect.mapM fun (source, targets) => do
    let targets ← targets.mapM Pattern.parse?
    pure (← Pattern.parse? source, targets)
  let remove ← n.remove.mapM Pattern.parse?
  let update ← n.update.mapM fun (pattern, notes) => do
    let p ← Pattern.parse? pattern
    pure ⟨p, notes.label, notes.attributes, ← linksOf notes.edgeLabels⟩
  pure ⟨n.title, add, connect, disconnect, remove, update⟩

/-- Whether nothing is said. -/
def isEmpty (a : Annotations) : Bool :=
  a.title.isNone && a.add.isEmpty && a.connect.isEmpty && a.disconnect.isEmpty
    && a.remove.isEmpty && a.update.isEmpty

/-- The annotations of a YAML text. -/
def ofYaml? (text : String) : Except Error Annotations := do ofNotes (← Notes.ofYaml? text)

/-- The annotations of a JSON document. -/
def ofJson? (d : Document) : Except Error Annotations := do ofNotes (← Notes.ofJson? d)

end Annotations

end Cartograph

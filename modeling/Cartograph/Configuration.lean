import Cartograph.Error
import Cartograph.Resolution
import Cartograph.Toml.Reader

/-!
# Configuration

What a user sets once for all runs, in a TOML file with a section for each part of the program. All
sections and fields may be left out, and what is not known is passed over.

A file that cannot be read never stands in the way of a drawing: without one, and with a malformed
one, all fields have their defaults (`Configuration.ofFile`).
-/

namespace Cartograph

/-- What can be configured. -/
structure Configuration where
  /-- The number of passes for resolving a plan. -/
  maxIterations : Nat
  /-- A limit for the time of a run in seconds, or zero. -/
  timeoutSeconds : Nat
  /-- The files of rule tables beside those that are built in. -/
  providerFiles : List String
  /-- Whether nodes without edges are kept. -/
  keepStandalone : Bool
  /-- The command line that prints a plan, program first. -/
  acquisition : List String
  /-- How often a plan is asked for again after a failure that may pass. -/
  retries : Nat
  /-- The command line that draws an output document, program first. -/
  renderer : List String
  deriving Repr, DecidableEq

namespace Configuration

/-- The configuration where nothing is set. -/
def standard : Configuration where
  maxIterations := defaultBudget
  timeoutSeconds := 0
  providerFiles := []
  keepStandalone := false
  acquisition := []
  retries := 1
  renderer := []

/-- The name of the file that is read where no other is named. -/
def defaultFile : String := "archgraph.toml"

/-- A list of texts. -/
def texts? (d : Document) : Option (List String) := d.listOf? Document.asText?

/-- The record of a section that may be missing. -/
def section? (r : Document.Record) (name : String) (fields : List String) :
    Option Document.Record :=
  r.withDefault? name (Document.positionalRecord? fields) ⟨[]⟩

/-- The configuration of a record. -/
def ofDocument? (d : Document) : Option Configuration := do
  let r ← d.record? ["interpreter", "pipeline", "validator", "acquisition", "render"]
  let interpreter ← section? r "interpreter" ["max_iterations"]
  let pipeline ← section? r "pipeline" ["timeout_secs", "provider_files"]
  let validator ← section? r "validator" ["keep_standalone"]
  let acquisition ← section? r "acquisition" ["command", "retries"]
  let render ← section? r "render" ["command"]
  pure {
    maxIterations := ← interpreter.withDefault? "max_iterations" Document.asNat? defaultBudget
    timeoutSeconds := ← pipeline.withDefault? "timeout_secs" Document.asNat? 0
    providerFiles := ← pipeline.withDefault? "provider_files" texts? []
    keepStandalone := ← validator.withDefault? "keep_standalone" Document.asBool? false
    acquisition := ← acquisition.withDefault? "command" texts? []
    retries := ← acquisition.withDefault? "retries" Document.asNat? 1
    renderer := ← render.withDefault? "command" texts? [] }

/-- The configuration of a TOML text. -/
def parse (text : String) : Except Error Configuration :=
  match (Toml.parse? text).bind ofDocument? with
  | some c => .ok c
  | none => .error .toml

/-- The configuration of a file, given its text if there is one. -/
def ofFile (text : Option String) : Configuration :=
  match text.map parse with
  | some (.ok c) => c
  | _ => standard

/-- The record of a configuration. -/
def toDocument (c : Configuration) : Document :=
  let texts (xs : List String) : Document := .list (xs.map .text)
  .object [
    ("interpreter", .object [("max_iterations", .int c.maxIterations)]),
    ("pipeline", .object [("timeout_secs", .int c.timeoutSeconds),
      ("provider_files", texts c.providerFiles)]),
    ("validator", .object [("keep_standalone", .bool c.keepStandalone)]),
    ("acquisition", .object [("command", texts c.acquisition), ("retries", .int c.retries)]),
    ("render", .object [("command", texts c.renderer)])]

end Configuration

end Cartograph

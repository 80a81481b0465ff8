import Cartograph.Graph.Statistics
import Cartograph.Help
import Cartograph.Pipeline
import Cartograph.Rendering

/-!
# The program

What the program does with its arguments, on a host (`Program.run`). It prints to two streams and
ends with a code: 0 if all went well, 1 after an error, 2 if the arguments made no sense.

An error ends a request where it is (`Act`); what has been printed and written by then stays. Its
message names what was being done, the error, and what lies behind it.
-/

namespace Cartograph.Program

/-- What has been printed. -/
structure Printed where
  out : String
  err : String
  deriving Repr, DecidableEq

/-- An error with what was being done, from the outside in. -/
structure Failure where
  chain : List String
  deriving Repr, DecidableEq

/-- The wording of a failure. -/
def Failure.message (f : Failure) : String := ": ".intercalate f.chain

/-- A part of the program: it may fail, and what it has printed until then stays. -/
abbrev Act (m : Type → Type) (α : Type) : Type := ExceptT Failure (StateT Printed m) α

variable {m : Type → Type} [Monad m]

/-- An action on the host. -/
def perform {α : Type} (x : m α) : Act m α := ExceptT.lift (StateT.lift x)

/-- Prints to the first stream. -/
def say (text : String) : Act m Unit :=
  ExceptT.lift (modify fun p => { p with out := p.out ++ text })

/-- Prints to the second stream. -/
def warn (text : String) : Act m Unit :=
  ExceptT.lift (modify fun p => { p with err := p.err ++ text })

/-- Fails with a message. -/
def fail {α : Type} (chain : List String) : Act m α := throw ⟨chain⟩

/-- A result, or a failure while something was being done. -/
def result {α : Type} (doing : List String) (x : Except Error α) : Act m α :=
  match x with
  | .ok a => pure a
  | .error e => fail (doing ++ e.chain)

/-- The result of an action on the host. -/
def resultOf {α : Type} (doing : List String) (x : m (Except Error α)) : Act m α := do
  result doing (← perform x)

/-! ### Files -/

/-- What a reader makes of the text of a file. -/
def load {α : Type} (h : Host m) (path : String) (reader : String → Except Error α) :
    m (Except Error α) := do
  match ← h.read path with
  | .ok text => pure (reader text)
  | .error k => pure (.error (.io k))

/-- Writes a file. -/
def save (h : Host m) (path text : String) : m (Except Error Unit) := do
  match ← h.write path text with
  | .ok _ => pure (.ok ())
  | .error k => pure (.error (.io k))

/-- Reads several files; the first fault stops it. -/
def loadAll {α : Type} (h : Host m) (reader : String → Except Error α) :
    List String → m (Except Error (List α))
  | [] => pure (.ok [])
  | path :: rest => do
    match ← load h path reader with
    | .error e => pure (.error e)
    | .ok a => pure ((← loadAll h reader rest).map (a :: ·))

/-- The configuration that a file holds. -/
def configuration (h : Host m) (path : String) : m Configuration := do
  pure (Configuration.ofFile (← h.read path).toOption)

/-! ### Parts of requests -/

/-- The pipeline of a configuration. -/
def pipeline (h : Host m) (c : Configuration) (doing : List String) : Act m Pipeline := do
  let tables ← resultOf doing (loadAll h Rules.Table.ofYaml? c.providerFiles)
  pure { Pipeline.standard with
    budget := c.maxIterations
    tables := tables
    keepStandalone := c.keepStandalone }

/-- The pipeline with the annotations of a file, if one is named. -/
def annotated (h : Host m) (path : Option String) (p : Pipeline) : Act m Pipeline :=
  match path with
  | none => pure p
  | some path => do
    let a ← resultOf ["failed to read annotations " ++ path] (load h path Annotations.ofYaml?)
    pure { p with annotations := some a }

/-- Where a plan is to come from. -/
def source (h : Host m) (c : Configuration) (input : Option String) (fromCommand : Bool) :
    Act m (Acquisition.Source m) :=
  match input, fromCommand with
  | some path, false => pure (Acquisition.ofFile h path)
  | none, true =>
    match Acquisition.ofCommand? h c.acquisition with
    | some s => pure s
    | none => fail ["no acquisition command configured ([acquisition] command)"]
  | _, _ => fail ["pass either --input or --from-command"]

/-- The plan that is asked for. -/
def acquire (h : Host m) (c : Configuration) (input : Option String) (fromCommand : Bool) :
    Act m Plan := do
  let s ← source h c input fromCommand
  resultOf ["failed to acquire plan from " ++ s.description] (Acquisition.fetch s c.retries)

/-- The snapshot in a file. -/
def snapshot (h : Host m) (path : String) : Act m Snapshot :=
  resultOf ["failed to read snapshot " ++ path] (load h path Snapshot.parse)

/-- Reports findings. -/
def report (found : List Diagnostic) : Act m Unit :=
  if found.isEmpty then pure ()
  else warn (toString found.length ++ " diagnostic(s):\n"
    ++ String.join (found.map fun d => "  " ++ d.text ++ "\n"))

/-- Writes the output document to a file, or prints it. -/
def emit (h : Host m) (output : Option String) (g : Graph) : Act m Unit :=
  match output with
  | some path => resultOf ["failed to write " ++ path] (save h path g.render)
  | none => say (g.render ++ "\n")

/-- Draws a graph, and passes on what the renderer has printed. -/
def draw (h : Host m) (c : Configuration) (g : Graph) : Act m Unit :=
  match Rendering.draw? h c.renderer g with
  | none => fail ["no renderer configured ([render] command)"]
  | some action => do
    let text ← resultOf [] action
    if text = "" then pure ()
    else warn (String.ofList (Text.trimRight text.toList) ++ "\n")

/-! ### Requests -/

/-- Does what is asked for. -/
def serve (h : Host m) (c : Configuration) : Request → Act m Unit
  | .build input fromCommand annotations output snapshot render => do
    let plan ← acquire h c input fromCommand
    let p ← pipeline h c ["failed to load provider tables"]
    let p ← annotated h annotations p
    -- A stamp is asked for only if it will be written.
    let stamp ← if snapshot.isSome then some <$> perform h.stamp else pure none
    let done ← result [] ({ p with stamp := stamp }.run plan)
    report done.diagnostics
    match snapshot, done.snapshot with
    | some path, some s => resultOf ["failed to write snapshot " ++ path] (save h path s.render)
    | _, _ => pure ()
    emit h output done.graph
    if render then draw h c done.graph
  | .replay path annotations output => do
    let s ← snapshot h path
    let p ← annotated h annotations (← pipeline h c [])
    let done ← result [] (p.replay s)
    report done.diagnostics
    emit h output done.graph
  | .validate path => do
    let s ← snapshot h path
    let p ← pipeline h c ["failed to load provider tables"]
    let g ← result [] (p.check s)
    say ("✓ " ++ path ++ " is valid\n  Nodes: " ++ toString g.size ++ "\n  Edges: "
      ++ toString g.edgeCount ++ "\n")
  | .stats input => do
    let plan ← resultOf ["failed to read plan " ++ input] (Acquisition.load h input)
    let p ← pipeline h c []
    let done ← result [] (p.run plan)
    say (Json.pretty done.graph.statistics.toDocument ++ "\n")
    if done.diagnostics.isEmpty then pure ()
    else say ("Diagnostics: " ++ toString done.diagnostics.length ++ "\n")

/-- What the program has printed, and the code that it ends with. -/
structure Outcome where
  out : String
  err : String
  code : Nat
  deriving Repr, DecidableEq

/-- The wording of a fault in the arguments. -/
def faultMessage : UsageFault → String
  | .help => "help was asked for"
  | .nothingAsked => "no subcommand was given"
  | .missingSubcommand => "a subcommand is required but was not given"
  | .unknownSubcommand => "unrecognized subcommand"
  | .unknownArgument => "unexpected argument"
  | .missingArgument => "a required argument was not given"
  | .missingValue => "a value is required but none was supplied"
  | .needlessValue => "a flag was given a value"
  | .conflict => "an argument cannot be used with another, or more than once"

/-- The outcome of arguments that do not say what is to be done. -/
def refuse (args : List String) : UsageFault → Outcome
  | .help => ⟨CommandLine.help args, "", 0⟩
  | .nothingAsked => ⟨"", CommandLine.help args, 2⟩
  | fault => ⟨"", "error: " ++ faultMessage fault ++ "\n\nFor more information, try '--help'.\n", 2⟩

/-- Runs the program. -/
def run (h : Host m) (args : List String) : m Outcome := do
  match CommandLine.parse args with
  | .error fault => pure (refuse args fault)
  | .ok line => do
    let c ← configuration h line.config
    let (ended, printed) ← (serve h c line.request).run.run ⟨"", ""⟩
    match ended with
    | .ok _ => pure ⟨printed.out, printed.err, 0⟩
    | .error f => pure ⟨printed.out, printed.err ++ "Error: " ++ f.message ++ "\n", 1⟩

end Cartograph.Program

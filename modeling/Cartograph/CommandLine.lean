import Cartograph.Configuration

/-!
# The command line

What the arguments of the program ask for (`Request`), and how they are read (`CommandLine.parse`).

A level of the command line, the program's own or that of a subcommand, has a list of options
(`Level`). An option stands as `--name value`, `--name=value`, `-n value` or `-nvalue`; flags take
no value, and short ones may stand together. An option with its value is settled when the next one
comes or the level ends, so an earlier fault is found before a later one (`Reading.settle`). What
is wrong with a subcommand is found before what is wrong around it.
-/

namespace Cartograph

/-- What is to be done. -/
inductive Request
  | build (input : Option String) (fromCommand : Bool) (annotations output snapshot : Option String)
    (render : Bool)
  | replay (snapshot : String) (annotations output : Option String)
  | validate (snapshot : String)
  | stats (input : String)
  deriving Repr, DecidableEq

/-- What is asked for, with the options that come before the subcommand. -/
structure CommandLine where
  config : String
  verbose : Bool
  request : Request
  deriving Repr, DecidableEq

/-- Why the arguments do not say what is to be done. -/
inductive UsageFault
  /-- Help is asked for. -/
  | help
  /-- There are no arguments at all, so that help may be of use. -/
  | nothingAsked
  | missingSubcommand
  | unknownSubcommand
  | unknownArgument
  | missingArgument
  /-- An option lacks its value, or the value is empty. -/
  | missingValue
  /-- A flag is given a value. -/
  | needlessValue
  /-- An option is given twice, or two that exclude each other. -/
  | conflict
  deriving Repr, DecidableEq

namespace CommandLine

/-! ### Options -/

/-- An option. -/
structure Opt where
  name : String
  short : Option Char
  takesValue : Bool
  deriving Repr, DecidableEq

/-- The option that asks for help on each level. -/
def helpOption : Opt := ⟨"help", some 'h', false⟩

/-- A level of the command line. -/
structure Level where
  options : List Opt
  subcommands : List String

/-- The option of a long name. -/
def Level.long? (l : Level) (name : String) : Option Opt :=
  (helpOption :: l.options).find? fun o => o.name == name

/-- The option of a short name. -/
def Level.short? (l : Level) (c : Char) : Option Opt :=
  (helpOption :: l.options).find? fun o => o.short == some c

/-- The program's own level. -/
def top : Level where
  options := [⟨"config", some 'c', true⟩, ⟨"verbose", some 'v', false⟩]
  subcommands := ["build", "replay", "validate", "stats"]

/-- The level of a subcommand. -/
def level? (name : String) : Option Level :=
  let input : Opt := ⟨"input", some 'i', true⟩
  let annotations : Opt := ⟨"annotations", some 'a', true⟩
  let output : Opt := ⟨"output", some 'o', true⟩
  let options? : Option (List Opt) := match name with
    | "build" => some [input, ⟨"from-command", none, false⟩, annotations, output,
        ⟨"snapshot", none, true⟩, ⟨"render", none, false⟩]
    | "replay" => some [⟨"snapshot", some 's', true⟩, annotations, output]
    | "validate" => some [⟨"snapshot", some 's', true⟩]
    | "stats" => some [input]
    | _ => none
  options?.map fun options => ⟨options, []⟩

/-! ### Reading options -/

/-- What has been read of a level. -/
structure Reading where
  /-- The options that are settled, with their values. -/
  given : List (String × String)
  /-- The option that is not settled, with its value if that has come. -/
  pending : Option (Opt × Option String)

namespace Reading

def start : Reading := ⟨[], none⟩

/-- Whether an option waits for its value. -/
def waits (r : Reading) : Bool := r.pending.any fun p => p.2.isNone

/-- Settles an option. A flag has no value. -/
def give (r : Reading) (o : Opt) (value : String) : Except UsageFault Reading :=
  if Keyed.contains o.name r.given then .error .conflict
  else if o.takesValue && value == "" then .error .missingValue
  else .ok ⟨r.given ++ [(o.name, value)], none⟩

/-- Settles the pending option. -/
def settle (r : Reading) : Except UsageFault Reading :=
  match r.pending with
  | none => .ok r
  | some (_, none) => .error .missingValue
  | some (o, some value) => give { r with pending := none } o value

/-- Takes up an option with the value that is attached to it, if any. -/
def takeUp (r : Reading) (o : Opt) (attached : Option String) : Except UsageFault Reading := do
  let r ← r.settle
  if o = helpOption then throw .help
  else if !o.takesValue then r.give o ""
  else match attached with
    | some value => r.give o value
    | none => pure { r with pending := some (o, none) }

/-- The value that the waiting option gets. -/
def takeValue (r : Reading) (value : String) : Reading :=
  { r with pending := r.pending.map fun p => (p.1, some value) }

/-- The value of an option. -/
def get? (r : Reading) (name : String) : Option String := Keyed.find? name r.given

/-- Whether an option is given. -/
def has (r : Reading) (name : String) : Bool := Keyed.contains name r.given

/-- The value of an option that has to be given. -/
def require (r : Reading) (name : String) : Except UsageFault String :=
  match r.get? name with
  | some value => .ok value
  | none => .error .missingArgument

end Reading

/-- Reads an option behind its two hyphens. -/
def readLong (l : Level) (cs : List Char) (r : Reading) : Except UsageFault Reading :=
  let name := cs.takeWhile (· ≠ '=')
  let attached := if name.length < cs.length then
      some (String.ofList (cs.drop (name.length + 1)))
    else none
  match l.long? (String.ofList name) with
  | none => .error .unknownArgument
  | some o =>
    if !o.takesValue && attached.isSome then .error .needlessValue else r.takeUp o attached

/-- The value attached to a short option. An equals sign may stand in front of it. -/
def attachedValue : List Char → Option String
  | [] => none
  | '=' :: cs => some (String.ofList cs)
  | cs => some (String.ofList cs)

/-- Reads options behind a single hyphen. -/
def readShort (l : Level) : List Char → Reading → Except UsageFault Reading
  | [], r => .ok r
  | c :: cs, r =>
    match l.short? c with
    | none => .error .unknownArgument
    | some o =>
      if o.takesValue then r.takeUp o (attachedValue cs)
      else do readShort l cs (← r.takeUp o none)

/-- The fault of a word that is no option, and no subcommand in its place. After `--` not even the
    name of a subcommand is one. -/
def wordFault (l : Level) (literal : Bool) (word : String) : UsageFault :=
  if l.subcommands.isEmpty then .unknownArgument
  else if literal && (word == "help" || l.subcommands.contains word) then .unknownArgument
  else .unknownSubcommand

/-- Whether a word is a subcommand of a level. -/
def isSubcommand (l : Level) (word : String) : Bool :=
  !l.subcommands.isEmpty && (word == "help" || l.subcommands.contains word)

/-- Reads a level up to its end or to a subcommand, which is returned with the arguments behind it.
    -/
def readLevel (l : Level) : List String → Reading →
    Except UsageFault (Reading × Option (String × List String))
  | [], r => .ok (r, none)
  | arg :: rest, r =>
    if !r.waits && isSubcommand l arg then .ok (r, some (arg, rest))
    else match arg.toList with
      | ['-', '-'] =>
        match rest with
        | [] => .ok (r, none)
        | word :: _ => .error (wordFault l true word)
      | '-' :: '-' :: cs => do readLevel l rest (← readLong l cs r)
      | '-' :: c :: cs => do readLevel l rest (← readShort l (c :: cs) r)
      | _ => if r.waits then readLevel l rest (r.takeValue arg) else .error (wordFault l false arg)

/-! ### Requests -/

/-- What the options of a subcommand ask for. -/
def requestOf (name : String) (r : Reading) : Except UsageFault Request := do
  if name = "build" then
    if r.has "input" && r.has "from-command" then throw .conflict
    if !r.has "input" && !r.has "from-command" then throw .missingArgument
    pure (.build (r.get? "input") (r.has "from-command") (r.get? "annotations") (r.get? "output")
      (r.get? "snapshot") (r.has "render"))
  else if name = "replay" then
    pure (.replay (← r.require "snapshot") (r.get? "annotations") (r.get? "output"))
  else if name = "validate" then pure (.validate (← r.require "snapshot"))
  else pure (.stats (← r.require "input"))

/-- Reads a subcommand. -/
def readRequest (name : String) (args : List String) : Except UsageFault Request :=
  match level? name with
  | none => .error .unknownSubcommand
  | some l => do
    let (r, _) ← readLevel l args .start
    requestOf name (← r.settle)

/-- The fault of asking for help on a subcommand: there may be none of that name. -/
def helpFault : List String → UsageFault
  | [] => .help
  | [word] => if isSubcommand top word then .help else .unknownSubcommand
  | _ => .unknownSubcommand

/-- Reads the arguments of the program. -/
def parse (args : List String) : Except UsageFault CommandLine := do
  let (r, next) ← readLevel top args .start
  match next with
  | none => do
    let r ← r.settle
    throw (if r.given.isEmpty then .nothingAsked else .missingSubcommand)
  | some (name, rest) => do
    if name = "help" then throw (helpFault rest)
    let request ← readRequest name rest
    let r ← r.settle
    pure ⟨(r.get? "config").getD Configuration.defaultFile, r.has "verbose", request⟩

example : parse ["-v", "stats", "-i=p"] = .ok ⟨"archgraph.toml", true, .stats "p"⟩ := by rfl
example : parse ["stats", "-i", "--help"] = .error .missingValue := by rfl

end CommandLine

end Cartograph

import Cartograph.CommandLine

/-!
# Help on the command line

What the program prints when it is asked for help (`CommandLine.help`): what a level of the
command line is for, how it is used, and what each of its subcommands and options means.
-/

namespace Cartograph.CommandLine

/-- The name of the program. -/
def programName : String := "archgraph"

/-- What a level is for; the program's own has no name. -/
def purpose (level : String) : String :=
  match level with
  | "build" => "Build the diagram graph from an exported plan"
  | "replay" => "Resume from a snapshot: validate, annotate, emit"
  | "validate" => "Check a snapshot against the structural invariants"
  | "stats" => "Show graph statistics for a plan"
  | "help" => "Print this message or the help of the given subcommand(s)"
  | _ => "Infrastructure-as-code dependency graphs to architecture diagrams"

/-- What an option means on a level. -/
def meaning (level option : String) : String :=
  match level, option with
  | _, "help" => "Print help"
  | "", "config" => "Configuration file [default: " ++ Configuration.defaultFile ++ "]"
  | "", "verbose" => "Debug logging"
  | "build", "input" => "Plan JSON exported by the infrastructure tool"
  | "build", "from-command" => "Run the configured acquisition command instead of reading a file"
  | "build", "annotations" => "Annotation YAML applied after the automatic passes"
  | "build", "output" => "Write the output document here (default: stdout)"
  | "build", "snapshot" => "Also write a replay snapshot taken after the provider phases"
  | "build", "render" => "Hand the result to the configured renderer"
  | _, _ => ""

/-- The options that a level cannot do without. -/
def requiredOptions (level : String) : List String :=
  match level with
  | "replay" => ["snapshot"]
  | "validate" => ["snapshot"]
  | "stats" => ["input"]
  | _ => []

/-- An option with the place of its value. -/
def Opt.form (o : Opt) : String :=
  "--" ++ o.name ++ (if o.takesValue then " <" ++ o.name.toUpper ++ ">" else "")

/-- An option with its short form in front. -/
def Opt.forms (o : Opt) : String :=
  (match o.short with
    | some c => "-" ++ String.singleton c ++ ", "
    | none => "    ") ++ o.form

/-- Rows of two columns, indented. -/
def rows (entries : List (String × String)) : String :=
  let width := (entries.map fun e => e.1.length).foldl max 0
  String.join (entries.map fun (left, right) =>
    "  " ++ left ++ String.ofList (List.replicate (width - left.length + 2) ' ') ++ right ++ "\n")

/-- How a level is used. -/
def usage (name : String) (l : Level) : String :=
  let required := requiredOptions name
  let free := (l.options.filter fun o => !required.contains o.name).isEmpty
  let parts := [programName] ++ (if name = "" then [] else [name])
    ++ (if free then [] else ["[OPTIONS]"])
    ++ (l.options.filter fun o => required.contains o.name).map Opt.form
    ++ (if l.subcommands.isEmpty then [] else ["<COMMAND>"])
  "Usage: " ++ " ".intercalate parts ++ "\n"

/-- The help on a level. -/
def levelHelp (name : String) (l : Level) : String :=
  let commands := if l.subcommands.isEmpty then "" else
    "Commands:\n" ++ rows ((l.subcommands ++ ["help"]).map fun c => (c, purpose c)) ++ "\n"
  let options := rows ((l.options ++ [helpOption]).map fun o => (o.forms, meaning name o.name))
  purpose name ++ "\n\n" ++ usage name l ++ "\n" ++ commands ++ "Options:\n" ++ options

/-- The help that arguments ask for: on the first subcommand among them, or on the program. -/
def help (args : List String) : String :=
  match args.find? fun a => (level? a).isSome with
  | some name => levelHelp name ((level? name).getD top)
  | none => levelHelp "" top

end Cartograph.CommandLine

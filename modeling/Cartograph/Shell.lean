import Cartograph.Shell.Script
import Cartograph.Shell.Tool

/-!
# A small shell

Plans are acquired and documents are drawn by commands that the user chooses. They are run by a
shell of the library's own, so that what a command does is a function of the files it finds
(`Host`), the text it is given to read, and its command line.

A program is named by its command line (`program`): the shell itself, which takes a script, or one
of the few tools that are programs of their own. Scripts may call all tools. A shell that a script
calls has less depth than the one it is called from, so every run comes to an end.
-/

namespace Cartograph.Shell

variable {m : Type → Type} [Monad m]

/-- What a script knows while it runs. -/
structure State where
  /-- The name that the script was called by, and its arguments. -/
  args : List String
  settings : List (String × String)
  /-- What there is to read. -/
  input : String
  writes : Writes
  /-- How the last command ended. -/
  last : Ending
  /-- Whether the script is over. -/
  isOver : Bool

namespace State

/-- The state after one more text. -/
def write (s : State) (c : Channel) (text : String) : State :=
  { s with writes := s.writes ++ [(c, text)] }

/-- The state after a command that ended. -/
def ended (s : State) (e : Ending) : State := { s with last := e }

/-- The state after a complaint of the shell itself. -/
def complain (s : State) (text : String) (code : Nat) : State :=
  (s.write .err ("sh: 1: " ++ text ++ "\n")).ended (.status code)

end State

/-! ### Parameters -/

/-- What a script takes the number of its own process for. -/
def processNumber : String := "1000"

/-- The value of a parameter. -/
def State.parameter (s : State) (name : String) : String :=
  if name = "?" then toString s.last.code
  else if name = "$" then processNumber
  else if name = "#" then toString (s.args.length - 1)
  else if name = "@" ∨ name = "*" then " ".intercalate (s.args.drop 1)
  else match name.toNat? with
    | some n => s.args[n]?.getD ""
    | none => (Keyed.find? name s.settings).getD ""

/-- Words under construction: those that are done, and the open one. -/
structure Fields where
  done : List String
  current : Option (List Char)

namespace Fields

/-- Adds a character to the open word. -/
def add (f : Fields) (c : Char) : Fields := { f with current := some (f.current.getD [] ++ [c]) }

/-- Ends the open word. -/
def close (f : Fields) : Fields :=
  ⟨f.done ++ (f.current.map String.ofList).toList, none⟩

/-- Adds a piece of a word. -/
def addPiece (s : State) (f : Fields) : Piece → Fields
  | .char c _ => f.add c
  | .parameter name quoted =>
    (s.parameter name).toList.foldl (fun f c =>
      if !quoted && (c == ' ' || c == '\t' || c == '\n') then f.close else f.add c) f

end Fields

/-- The words that a word stands for. -/
def State.words (s : State) (w : Word) : List String :=
  let fields := w.pieces.foldl (Fields.addPiece s) ⟨[], none⟩
  let fields := if w.hasQuotes && fields.done.isEmpty then
      { fields with current := some (fields.current.getD []) }
    else fields
  fields.close.done

/-- The one text that a word stands for. -/
def State.text (s : State) (w : Word) : String :=
  String.ofList (w.pieces.flatMap fun
    | .char c _ => [c]
    | .parameter name _ => (s.parameter name).toList)

/-! ### Redirections -/

/-- Where a stream leads to. -/
inductive Sink
  | channel (c : Channel)
  | file (path : String)
  /-- A stream that has not been opened. -/
  | closed
  deriving Repr, DecidableEq

/-- Where the output streams lead to, and what there is to read. -/
structure Streams where
  out : Sink
  err : Sink
  input : String

namespace Streams

/-- Where a stream leads to. -/
def sink (s : Streams) (stream : Nat) : Sink :=
  if stream = 1 then s.out else if stream = 2 then s.err else .closed

/-- Leads a stream elsewhere. -/
def lead (s : Streams) (stream : Nat) (sink : Sink) : Streams :=
  if stream = 1 then { s with out := sink }
  else if stream = 2 then { s with err := sink }
  else s

end Streams

/-- The path of a file that leads to a stream. -/
def streamPath? (path : String) : Option Nat :=
  if path = "/dev/stdout" then some 1 else if path = "/dev/stderr" then some 2 else none

/-- Applies a redirection; a complaint if it cannot be done. -/
def redirect (h : Host m) (path : String) (r : Redirection) (s : Streams) :
    m (Except String Streams) := do
  match r.direction with
  | .duplicate => pure (.ok (s.lead r.stream (match path.toNat? with
      | some n => s.sink n
      | none => .closed)))
  | .input => do
    match ← h.read path with
    | .ok text => pure (.ok { s with input := text })
    | .error _ => pure (.error ("cannot open " ++ path ++ ": No such file"))
  | direction =>
    match streamPath? path with
    | some n => pure (.ok (s.lead r.stream (s.sink n)))
    | none => do
      let before ← h.read path
      let kept := match direction, before with
        | .append, .ok text => text
        | _, _ => ""
      match ← h.write path kept with
      | .ok _ => pure (.ok (s.lead r.stream (.file path)))
      | .error .isADirectory => pure (.error ("cannot create " ++ path ++ ": Is a directory"))
      | .error _ => pure (.error ("cannot create " ++ path ++ ": Directory nonexistent"))

/-- Applies redirections one after the other. -/
def redirectAll (h : Host m) (s : State) : List Redirection → Streams → m (Except String Streams)
  | [], streams => pure (.ok streams)
  | r :: rest, streams => do
    match ← redirect h (s.text r.target) r streams with
    | .ok streams => redirectAll h s rest streams
    | .error e => pure (.error e)

/-- Brings what has been written to where the streams lead, and returns what is left for the
    channels. -/
def deliver (h : Host m) (streams : Streams) : Writes → m Writes
  | [] => pure []
  | (c, text) :: rest => do
    let sink := match c with
      | .out => streams.out
      | .err => streams.err
    match sink with
    | .channel d => do pure ((d, text) :: (← deliver h streams rest))
    | .file path => do
      let before ← h.read path
      let _ ← h.write path ((before.toOption.getD "") ++ text)
      deliver h streams rest
    | .closed => deliver h streams rest

/-! ### Commands -/

/-- How the shell runs a tool or a program of the given name: what it has done, or nothing if there
    is no such name. -/
abbrev Caller (m : Type → Type) := String → List String → String → Option (m Ran)

/-- The signal that the arguments of `kill` name, and its targets. -/
def killArguments (args : List String) : Option (Nat × List String) :=
  let number? (name : String) : Option Nat :=
    match name.toNat? with
    | some n => some n
    | none =>
      let short := (Text.dropStart? "SIG" name).getD name
      (Ending.signalNames.find? fun e => e.2 == short).map (·.1)
  match args with
  | "-s" :: name :: targets => (number? name).map (·, targets)
  | a :: targets =>
    match Text.dropStart? "-" a with
    | some name => (number? name).map (·, targets)
    | none => some (15, a :: targets)
  | [] => none

/-- Sends a signal, which ends the script if it is sent to it. -/
def kill (args : List String) (s : State) : State :=
  match killArguments args with
  | none => s.complain "kill: usage" 2
  | some (n, targets) =>
    if targets.contains processNumber ∧ n ≠ 0 ∧ (Ending.signalNames.lookup n).isSome then
      { s with last := .signal n, isOver := true }
    else if targets.all (· == processNumber) then s.ended .success
    else s.complain "kill: No such process" 1

/-- Ends the script. -/
def exit (args : List String) (s : State) : State :=
  match args with
  | [] => { s with isOver := true }
  | a :: _ =>
    match Decimal.readDigits? a.toList with
    | some n => { s with last := .status (n % 256), isOver := true }
    | none => { s.complain ("exit: Illegal number: " ++ a) 2 with isOver := true }

/-- Runs a command whose words are known. -/
def runWords (call : Caller m) (words : List String) (s : State) : m State := do
  match words with
  | [] => pure (s.ended .success)
  | name :: args =>
    if name = "exit" then pure (exit args s)
    else if name = "kill" then pure (kill args s)
    else match call name args s.input with
      | some action => do
        let ran ← action
        pure { s with writes := s.writes ++ ran.writes, last := ran.ending, input := ran.unread }
      | none => pure (s.complain (name ++ ": not found") 127)

/-- Runs something with its streams led elsewhere. -/
def withRedirections (h : Host m) (rs : List Redirection) (body : State → m State) (s : State) :
    m State := do
  match ← redirectAll h s rs ⟨.channel .out, .channel .err, s.input⟩ with
  | .error e => pure (s.complain e 2)
  | .ok streams => do
    let reads := rs.any fun r => r.direction == .input
    let t ← body { s with input := streams.input, writes := [] }
    let left ← deliver h streams t.writes
    pure { t with writes := s.writes ++ left, input := if reads then s.input else t.input }

/-- The state around a command that ran on its own: what it has set is forgotten, but a signal ends
    both. -/
def State.afterIsolated (s t : State) : State :=
  let killed := match t.last with
    | .signal _ => t.isOver
    | _ => false
  { s with writes := t.writes, last := t.last, input := t.input, isOver := killed }

/-- Runs a script. -/
def Script.run (h : Host m) (call : Caller m) : Script → State → m State
  | .simple settings words rs, s => do
    let named := settings.map fun (name, w) => (name, s.text w)
    let expanded := words.flatMap s.words
    let setting (t : State) : State :=
      { t with settings := named.foldl (fun m (k, v) => Keyed.put k v m) t.settings }
    if expanded.isEmpty then
      withRedirections h rs (fun t => pure ((setting t).ended .success)) s
    else withRedirections h rs (runWords call expanded) s
  | .group isolated body rs, s => do
    let t ← withRedirections h rs (Script.run h call body) s
    pure (if isolated then s.afterIsolated t else t)
  | .pipe first second, s => do
    let t ← Script.run h call first { s with writes := [] }
    let passed := t.writes.text .out
    let others := t.writes.filter fun w => w.1 != .out
    let u ← Script.run h call second { s with input := passed, writes := s.writes ++ others }
    pure { s.afterIsolated u with input := t.input }
  | .both first second, s => do
    let t ← Script.run h call first s
    if t.isOver || t.last != .success then pure t else Script.run h call second t
  | .either first second, s => do
    let t ← Script.run h call first s
    if t.isOver || t.last == .success then pure t else Script.run h call second t
  | .negate body, s => do
    let t ← Script.run h call body s
    if t.isOver then pure t
    else pure (t.ended (.status (if t.last = .success then 1 else 0)))
  | .sequence first second, s => do
    let t ← Script.run h call first s
    if t.isOver then pure t else Script.run h call second t
  | .conditional condition yes no, s => do
    let t ← Script.run h call condition s
    if t.isOver then pure t
    else if t.last = .success then Script.run h call yes t
    else Script.run h call no t

/-! ### Programs -/

/-- The depth of shells in shells. -/
def mostDepth : Nat := 32

/-- Runs a script, given as a text. -/
def runText (h : Host m) (call : Caller m) (text : String) (args : List String) (input : String) :
    m Ran := do
  match Script.parse? text with
  | none => pure (.complain "sh: 1: Syntax error: malformed script" input 2)
  | some script =>
    let s ← script.run h call ⟨args, [], input, [], .success, false⟩
    pure ⟨s.writes, s.last, s.input⟩

/-- Runs the shell with its arguments: a script behind `-c`, a file, or what there is to read. -/
def runShell (h : Host m) (call : Caller m) (args : List String) (input : String) : m Ran := do
  match args with
  | "-c" :: text :: more => runText h call text (if more.isEmpty then ["sh"] else more) input
  | ["-c"] => pure (.complain "sh: 0: -c requires an argument" input 2)
  | path :: more =>
    match ← h.read path with
    | .ok text => runText h call text (path :: more) input
    | .error _ => pure (.complain ("sh: 0: cannot open " ++ path ++ ": No such file") input 2)
  | [] => runText h call input ["sh"] ""

/-- The name of a program without the directories that programs lie in. -/
def baseName (name : String) : String :=
  ((Text.dropStart? "/usr/bin/" name).or (Text.dropStart? "/bin/" name)).getD name

/-- Whether a tool is a program of its own. -/
def isProgram (name : String) : Bool := name == "cat" || name == "true"

/-- How a script at some depth calls tools and shells. -/
def caller (h : Host m) : Nat → Caller m
  | 0 => fun name args input => tool? h (baseName name) args input
  | depth + 1 => fun name args input =>
    if baseName name = "sh" then some (runShell h (caller h depth) args input)
    else tool? h (baseName name) args input

/-- Runs the program of a name with its arguments and a text to read. -/
def program (h : Host m) (name : String) (args : List String) (input : String) :
    m (Except IoKind Ran) :=
  let base := baseName name
  if base = "sh" ∨ isProgram base then
    match caller h mostDepth name args input with
    | some action => do pure (.ok (← action))
    | none => pure (.error .notFound)
  else pure (.error .notFound)

end Cartograph.Shell

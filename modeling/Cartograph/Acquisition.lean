import Cartograph.Plan
import Cartograph.Shell
import Cartograph.Text.LetterCase

/-!
# Acquisition of plans

A plan comes from a source that may fail (`Source`): a file, or a command that prints it. A
failure that may pass is worth another try, but no more than one (`fetch`): whatever the source
does, it is asked at most twice.

Whether the failure of a command may pass is told from what it has printed (`mayPass`).
-/

namespace Cartograph.Acquisition

variable {m : Type → Type}

/-- Something that a plan comes from. -/
structure Source (m : Type → Type) where
  /-- The words for the source in messages. -/
  description : String
  request : m (Except Error Plan)

/-! ### Files -/

/-- The plan of a text. -/
def planOf (text : String) : Except Error Plan :=
  match Plan.ofJson? text with
  | some p => .ok p
  | none => .error .json

/-- The plan in a file. -/
def load [Monad m] (h : Host m) (path : String) : m (Except Error Plan) := do
  match ← h.read path with
  | .ok text => pure (planOf text)
  | .error k => pure (.error (.io k))

/-- The source that is a file. -/
def ofFile [Monad m] (h : Host m) (path : String) : Source m := ⟨path, load h path⟩

/-! ### Commands -/

/-- What tells of trouble that may pass. -/
def passingSigns : List String :=
  ["timeout", "timed out", "connection reset", "connection refused", "temporarily unavailable",
    "too many requests", "rate exceeded", "throttl"]

/-- Whether what a command has printed tells of trouble that may pass. -/
def mayPass (printed : String) : Bool :=
  let text := Text.lower printed
  passingSigns.any fun sign => Text.isPart sign text

/-- What a program that failed has printed: complaints first. -/
def printed (ran : Shell.Ran) : String := ran.writes.text .err ++ ran.writes.text .out

/-- The plan that a program has printed. -/
def planOfRan (tool : String) (ran : Shell.Ran) : Except Error Plan :=
  if ran.ending = .success then planOf (ran.writes.text .out)
  else
    let text := printed ran
    .error (.externalTool tool ran.ending.message (Text.trim text) (mayPass text))

/-- Runs a command for the plan that it prints. -/
def runCommand [Monad m] (h : Host m) (tool : String) (args : List String) :
    m (Except Error Plan) := do
  match ← Shell.program h tool args "" with
  | .ok ran => pure (planOfRan tool ran)
  | .error k => pure (.error (.io k))

/-- The source that is a command line, program first. -/
def ofCommand? [Monad m] (h : Host m) : List String → Option (Source m)
  | [] => none
  | tool :: args => some ⟨" ".intercalate (tool :: args), runCommand h tool args⟩

/-! ### Trying again -/

/-- The number of times that a source is asked again, whatever is configured. -/
def mostRetries : Nat := 1

/-- Asks a source, and again after failures that may pass, up to a number of times. -/
def requestAgain [Monad m] (s : Source m) : Nat → m (Except Error Plan)
  | 0 => s.request
  | n + 1 => do
    match ← s.request with
    | .error e => if e.isTransient then requestAgain s n else pure (.error e)
    | .ok p => pure (.ok p)

/-- The plan of a source. -/
def fetch [Monad m] (s : Source m) (retries : Nat) : m (Except Error Plan) :=
  requestAgain s (min retries mostRetries)

end Cartograph.Acquisition

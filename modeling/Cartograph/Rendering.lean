import Cartograph.Acquisition
import Cartograph.Graph.Output

/-!
# Rendering

A finished graph is drawn by a command that reads the output document. What it prints is of use
only if it ends well. Its failure is final: the same document would make it fail again.
-/

namespace Cartograph.Rendering

variable {m : Type → Type} [Monad m]

/-- The number of bytes that a program may leave unread before they stand in the way of the writer.
    -/
def pipeCapacity : Nat := 65536

/-- What a program that was given a document has printed. -/
def resultOfRan (tool : String) (ran : Shell.Ran) : Except Error String :=
  if ran.ending ≠ .success then
    .error (.externalTool tool ran.ending.message (Text.trim (Acquisition.printed ran)) false)
  else if pipeCapacity < ran.unread.utf8ByteSize then .error (.io .brokenPipe)
  else .ok (ran.writes.text .out)

/-- Draws a graph with a command line, program first. -/
def draw? (h : Host m) (command : List String) (g : Graph) : Option (m (Except Error String)) :=
  match command with
  | [] => none
  | tool :: args => some do
    match ← Shell.program h tool args g.render with
    | .ok ran => pure (resultOfRan tool ran)
    | .error k => pure (.error (.io k))

end Cartograph.Rendering

import Cartograph.Program
import Std.Time.DateTime.Timestamp

/-!
# The executable

Runs the program on the real file system: the host of `Program.run` reads and writes files, takes
random bytes for the identifiers of runs, and asks the clock for their time. It prints what the
program has printed and ends with its code.
-/

namespace Cartograph.Main

/-- The kind of a failure of the file system. -/
def kindOf : IO.Error → IoKind
  | .noFileOrDirectory .. => .notFound
  | .permissionDenied .. => .permissionDenied
  | .inappropriateType .. => .isADirectory
  | .timeExpired .. => .timedOut
  | .interrupted .. => .interrupted
  | .resourceVanished .. => .brokenPipe
  | _ => .invalidData

/-- An action whose failures are answers. -/
def attempt {α : Type} (x : IO α) : IO (Except IoKind α) := do
  match ← x.toBaseIO with
  | .ok a => pure (.ok a)
  | .error e => pure (.error (kindOf e))

/-- A new stamp. -/
def newStamp : IO Stamp := do
  let bytes ← IO.getRandomBytes 16
  let nanos := (← Std.Time.Timestamp.now).toNanosecondsSinceUnixEpoch.val
  let billion : Int := 1000000000
  pure ⟨RunId.ofRandom (bytes.toList.map UInt8.toNat), ⟨nanos / billion, (nanos % billion).toNat⟩⟩

/-- The host that is the machine. -/
def host : Host IO where
  read path := attempt (IO.FS.readFile path)
  write path text := attempt (IO.FS.writeFile path text)
  remove path := attempt (IO.FS.removeFile path)
  stamp := newStamp

end Cartograph.Main

def main (args : List String) : IO UInt32 := do
  let outcome ← Cartograph.Program.run Cartograph.Main.host args
  (← IO.getStdout).putStr outcome.out
  (← IO.getStderr).putStr outcome.err
  pure outcome.code.toUInt32

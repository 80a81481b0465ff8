import Cartograph.Glob
import Cartograph.NodeId

/-!
# Errors

What stops a run: a broken structure, an input that cannot be read, a rule that makes no sense, or a
tool that failed. Each is a cause (`Error`), and its wording is `Error.message`.
-/

namespace Cartograph

/-- Why reading or writing failed. -/
inductive IoKind
  | notFound
  | permissionDenied
  | connectionRefused
  | connectionReset
  | connectionAborted
  | timedOut
  | interrupted
  | wouldBlock
  | isADirectory
  | notADirectory
  | invalidData
  | brokenPipe
  deriving Repr, DecidableEq

namespace IoKind

/-- The name of a kind. -/
def name : IoKind → String
  | notFound => "NotFound"
  | permissionDenied => "PermissionDenied"
  | connectionRefused => "ConnectionRefused"
  | connectionReset => "ConnectionReset"
  | connectionAborted => "ConnectionAborted"
  | timedOut => "TimedOut"
  | interrupted => "Interrupted"
  | wouldBlock => "WouldBlock"
  | isADirectory => "IsADirectory"
  | notADirectory => "NotADirectory"
  | invalidData => "InvalidData"
  | brokenPipe => "BrokenPipe"

/-- The wording of a failure. -/
def message : IoKind → String
  | notFound => "No such file or directory (os error 2)"
  | permissionDenied => "Permission denied (os error 13)"
  | connectionRefused => "Connection refused (os error 111)"
  | connectionReset => "Connection reset by peer (os error 104)"
  | connectionAborted => "Software caused connection abort (os error 103)"
  | timedOut => "timed out"
  | interrupted => "operation interrupted"
  | wouldBlock => "operation would block"
  | isADirectory => "Is a directory (os error 21)"
  | notADirectory => "Not a directory (os error 20)"
  | invalidData => "stream did not contain valid UTF-8"
  | brokenPipe => "Broken pipe (os error 32)"

/-- Whether trying again may help. -/
def isTransient : IoKind → Bool
  | timedOut => true
  | interrupted => true
  | connectionReset => true
  | connectionAborted => true
  | wouldBlock => true
  | _ => false

end IoKind

/-- What is wrong with a resource pattern. -/
inductive PatternFault
  | empty
  /-- A pattern that has to name one resource does not. -/
  | notAnIdentifier
  | glob (fault : Glob.Fault)
  /-- A regular expression is malformed. -/
  | regex
  deriving Repr, DecidableEq

/-- The wording of a fault. -/
def PatternFault.message : PatternFault → String
  | empty => "empty pattern"
  | notAnIdentifier => "add needs a full resource identifier"
  | glob fault => fault.message
  | regex => "malformed regular expression"

/-- What is wrong with a handler. -/
inductive HandlerFault
  | noDescription
  | nothingToDo
  deriving Repr, DecidableEq

/-- The wording of a fault. -/
def HandlerFault.message : HandlerFault → String
  | noDescription => "description is required"
  | nothingToDo => "needs at least one operation or a callback"

/-- What stops a run. -/
inductive Error
  | io (kind : IoKind)
  | json
  | yaml
  | toml
  /-- Two containers, neither inside the other, hold one child. -/
  | sharedChild (phase : String) (first second child : NodeId)
  | danglingReference (phase : String) (parent child : NodeId)
  | metadataMismatch (phase : String) (node : NodeId)
  | snapshotVersion (found : String)
  | invalidHandler (pattern : String) (fault : HandlerFault)
  | invalidPattern (pattern : String) (fault : PatternFault)
  | unknownCallback (name : String)
  | unknownStage (name : String)
  | externalTool (tool status output : String) (transient : Bool)
  | cancelled (phase : String)
  deriving Repr, DecidableEq

/-- The major version of the snapshots that can be read. -/
def majorVersion : Nat := 1

namespace Error

/-- The wording of an error. -/
def message : Error → String
  | io kind => "IO error: " ++ kind.message
  | json => "JSON error: malformed document"
  | yaml => "YAML error: malformed document"
  | toml => "TOML error: malformed document"
  | sharedChild phase first second child =>
    "[" ++ phase ++ "] group nodes '" ++ first ++ "' and '" ++ second ++ "' share child '" ++ child
      ++ "'"
  | danglingReference phase parent child =>
    "[" ++ phase ++ "] '" ++ parent ++ "' references unknown node '" ++ child ++ "'"
  | metadataMismatch phase node =>
    "[" ++ phase ++ "] node '" ++ node
      ++ "' has no metadata entry (or metadata without a graph entry)"
  | snapshotVersion found =>
    "Snapshot format " ++ found ++ " is incompatible with pipeline major version "
      ++ toString majorVersion
  | invalidHandler pattern fault => "Handler for '" ++ pattern ++ "' is invalid: " ++ fault.message
  | invalidPattern pattern fault => "Invalid pattern '" ++ pattern ++ "': " ++ fault.message
  | unknownCallback name => "Unknown callback '" ++ name ++ "'"
  | unknownStage name => "Unknown pipeline stage '" ++ name ++ "'"
  | externalTool tool status output _ => tool ++ " failed (" ++ status ++ "): " ++ output
  | cancelled phase => "Run cancelled during phase '" ++ phase ++ "'"

/-- The wordings of an error and of what lies behind it. -/
def chain (e : Error) : List String :=
  match e with
  | io kind => [e.message, kind.message]
  | e => [e.message]

/-- Whether trying again may help: only failures that look like trouble with a network or a time
    limit. -/
def isTransient : Error → Bool
  | io kind => kind.isTransient
  | externalTool _ _ _ transient => transient
  | _ => false

end Error

end Cartograph

import Cartograph.Decimal.Reader

/-!
# Node identifiers

An identifier such as `module.net.aws_subnet.private~2` has up to four parts: the path of the module
that declares the resource (any number of `module.<name>` pairs), the resource type, the name, and
the number of an instance behind a tilde. What follows the last tilde counts as an instance number
only if it is a number; otherwise it belongs to the name.

`parts` takes an identifier apart, `qualified` and `withSuffix` put one together.
-/

namespace Cartograph

/-- The identifier of a node, as text. -/
abbrev NodeId := String

namespace NodeId

/-- The parts of an identifier; the module path of the root module is empty. -/
structure Parts where
  module : String
  resourceType : String
  name : String
  suffix : Option Nat
  deriving Repr, DecidableEq

/-- What stands before and behind the last tilde. -/
def splitTilde? (cs : List Char) : Option (List Char × List Char) :=
  if '~' ∈ cs then
    some ((cs.reverse.dropWhile (· ≠ '~')).tail.reverse, (cs.reverse.takeWhile (· ≠ '~')).reverse)
  else none

/-- An identifier without its instance number, and the number. -/
def splitSuffix (id : String) : String × Option Nat :=
  match splitTilde? id.toList with
  | none => (id, none)
  | some (before, after) =>
    match Decimal.readNat? (String.ofList after) with
    | none => (id, none)
    | some n => (String.ofList before, some n)

/-- The segments of a dotted text. -/
def segments (s : String) : List (List Char) := s.toList.splitOn '.'

/-- Segments joined by dots. -/
def dotted (segs : List (List Char)) : String := String.ofList (['.'].intercalate segs)

/-- The leading pairs of the word `module` and a name, and the segments behind them, of which at
    least two are left. -/
def takeModules : List (List Char) → List (List Char) × List (List Char)
  | word :: name :: a :: b :: rest =>
    if word = "module".toList then
      let (path, inner) := takeModules (a :: b :: rest)
      (word :: name :: path, inner)
    else ([], word :: name :: a :: b :: rest)
  | segs => ([], segs)

/-- The module path of an identifier and the rest. -/
def splitModule (id : String) : String × String :=
  match takeModules (segments id) with
  | ([], _) => ("", id)
  | (path, inner) => (dotted path, dotted inner)

/-- The parts of an identifier. Without a dot behind the module path there is no name. -/
def parts (id : String) : Parts :=
  let (base, suffix) := splitSuffix id
  let (module, inner) := splitModule base
  match segments inner with
  | [] => ⟨module, inner, "", suffix⟩
  | [_] => ⟨module, inner, "", suffix⟩
  | ty :: name => ⟨module, String.ofList ty, dotted name, suffix⟩

/-- The identifier without its instance number. -/
def base (id : String) : String := (splitSuffix id).1

/-- The instance number. -/
def suffix? (id : String) : Option Nat := (splitSuffix id).2

/-- The identifier of an instance. -/
def withSuffix (base : String) (n : Nat) : String := base ++ "~" ++ toString n

/-- The resource type that an identifier names. -/
def resourceType (id : String) : String := (parts id).resourceType

/-- The identifier without its module path. -/
def bare (id : String) : String := (splitModule id).2

/-- The identifier of a resource declared in a module; the root module is empty. -/
def qualified (module resourceType name : String) : String :=
  if module = "" then resourceType ++ "." ++ name
  else module ++ "." ++ resourceType ++ "." ++ name

/-- The part of a resource type before the first underscore, which names its provider. -/
def providerOf (resourceType : String) : String :=
  String.ofList (resourceType.toList.takeWhile (· ≠ '_'))

/-- A character that a name segment may hold. -/
def isNameChar (c : Char) : Bool := c.isAlphanum || c == '_'

/-- Characters as a name segment so far (in reverse), one underscore for each run of others. -/
def sanitizeStep (out : List Char) (c : Char) : List Char :=
  if isNameChar c then c.toLower :: out
  else if out.head? = some '_' then out
  else '_' :: out

/-- Any text as a name segment: letters in lower case, digits and underscores, no underscore at
    either end. -/
def sanitize (s : String) : String :=
  let out := s.toList.foldl sanitizeStep []
  String.ofList ((out.dropWhile (· == '_')).reverse.dropWhile (· == '_'))

example : parts "module.net.module.sub.aws_subnet.private~12" =
    ⟨"module.net.module.sub", "aws_subnet", "private", some 12⟩ := by decide +kernel
example : parts "module.x.y" = ⟨"", "module", "x.y", none⟩ := by decide +kernel
example : sanitize " us-East--1a" = "us_east_1a" := by decide +kernel

end NodeId

end Cartograph

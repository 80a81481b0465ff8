import Cartograph.Regex.Machine

/-!
# Replacing matches

All matches of an expression are replaced by a template, in which `$1`, `$name` and the same in
braces stand for what a group matched, and `$$` for a dollar sign. The name behind a dollar sign is
as long as it can be; a group that is unknown or took no part in the match stands for nothing.
-/

namespace Cartograph.Regex

/-- A piece of a template. -/
inductive Piece
  | text (c : Char)
  | group (name : List Char)

/-- A character of the name of a group behind a dollar sign. -/
def isReferenceChar (c : Char) : Bool := c.isAlphanum || c == '_'

/-- The piece behind a dollar sign, and what follows it. -/
def reference (cs : List Char) : Piece × List Char :=
  match cs with
  | '$' :: rest => (.text '$', rest)
  | '\x7b' :: rest =>
    match rest.dropWhile (· ≠ '\x7d') with
    | _ :: after => (.group (rest.takeWhile (· ≠ '\x7d')), after)
    | [] => (.text '$', cs)
  | _ =>
    match cs.takeWhile isReferenceChar with
    | [] => (.text '$', cs)
    | name => (.group name, cs.drop name.length)

/-- The pieces of a template. -/
def pieces : List Char → List Piece
  | [] => []
  | c :: rest =>
    if c = '$' then
      let (piece, after) := reference rest
      if _h : after.length < rest.length + 1 then piece :: pieces after else [piece]
    else .text c :: pieces rest
termination_by cs => cs.length

/-- The number of a group by its name or number. -/
def Program.group? (p : Program) (name : List Char) : Option Nat :=
  match Decimal.readNat? (String.ofList name) with
  | some n => some n
  | none => (p.names.find? (·.1 == String.ofList name)).map (·.2)

/-- What a group matched in a text. -/
def captured (text : List Char) (slots : Slots) (group : Nat) : List Char :=
  match span? slots group with
  | some (first, last) => (text.drop first).take (last - first)
  | none => []

/-- The template filled in for a match. -/
def Program.fill (p : Program) (text : List Char) (template : List Piece) (slots : Slots) :
    List Char :=
  template.flatMap fun
    | .text c => [c]
    | .group name => ((p.group? name).map (captured text slots)).getD []

/-- The text from a position on, with matches replaced. -/
def Program.splice (p : Program) (text : List Char) (template : List Piece) (position : Nat) :
    List Slots → List Char
  | [] => text.drop position
  | slots :: rest =>
    match span? slots 0 with
    | none => p.splice text template position rest
    | some (first, last) =>
      (text.drop position).take (first - position) ++ p.fill text template slots
        ++ p.splice text template last rest

/-- A text with all matches replaced by a template. -/
def Program.replaceAll (p : Program) (text template : String) : String :=
  let cs := text.toList
  String.ofList (p.splice cs (pieces template.toList) 0 (p.matches none none 0 cs))

end Cartograph.Regex

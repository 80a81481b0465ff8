import Cartograph.Error
import Cartograph.NodeMeta

/-!
# Resource patterns

A pattern selects nodes. With a wildcard it is a glob, tested against the identifier with and
without its module path and instance number, and against the resource type. Without one it names a
node with all its instances if it holds a dot (`isIdentifier`), and a resource type otherwise.
-/

namespace Cartograph

/-- A resource pattern: its text without blanks around it, and the glob if it is one. -/
structure Pattern where
  text : String
  glob : Option Glob
  deriving Repr, DecidableEq

namespace Pattern

/-- Whether a character makes a pattern a glob. -/
def isWildcardChar (c : Char) : Bool := c == '*' || c == '?' || c == '['

/-- The pattern of a text. -/
def parse? (s : String) : Except Error Pattern :=
  let t := Text.trim s
  if t = "" then .error (.invalidPattern t .empty)
  else if t.toList.any isWildcardChar then
    match Glob.compile? t with
    | .ok g => .ok ⟨t, some g⟩
    | .error f => .error (.invalidPattern t (.glob f))
  else .ok ⟨t, none⟩

/-- The pattern of a resource type without wildcard. -/
def ofType (ty : String) : Pattern := ⟨ty, none⟩

/-- Whether the pattern has a wildcard. -/
def isWildcard (p : Pattern) : Bool := p.glob.isSome

/-- Whether the text holds a dot. -/
def hasDot (p : Pattern) : Bool := '.' ∈ p.text.toList

/-- Whether the pattern names one node, with its instances, rather than a type. -/
def isIdentifier (p : Pattern) : Bool := !p.isWildcard && p.hasDot

/-- The forms of an identifier that a pattern may name: with and without module path and instance
    number. -/
def forms (node : NodeId) : List String :=
  let base := NodeId.base node
  [node, NodeId.bare node, base, NodeId.bare base]

/-- Whether a node with the given metadata is selected. -/
def matchesNode (p : Pattern) (node : NodeId) (found : Option NodeMeta) : Bool :=
  let ty := NodeMeta.typeOf node found
  match p.glob with
  | some g => (forms node ++ [ty]).any g.test
  | none => if p.hasDot then (forms node).contains p.text else ty == p.text

/-- Whether a type on its own is selected. -/
def matchesType (p : Pattern) (ty : String) : Bool :=
  match p.glob with
  | some g => g.test ty
  | none => !p.hasDot && ty == p.text

end Pattern

end Cartograph

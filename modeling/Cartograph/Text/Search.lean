/-!
# Finding a text in a text

Whether one list of characters occurs in another (`occurs`), which is so exactly if the other is the
one between two texts (`occurs_iff`).
-/

namespace Cartograph.Text

/-- Whether a list occurs in another as a run of neighbours. -/
def occurs (part : List Char) : List Char → Bool
  | [] => part.isPrefixOf []
  | c :: cs => part.isPrefixOf (c :: cs) || occurs part cs

/-- Whether a text occurs in another. -/
def isPart (part s : String) : Bool := occurs part.toList s.toList

/-- What follows a text at the beginning of another. -/
def dropStart? (start s : String) : Option String :=
  if start.toList.isPrefixOf s.toList then some (String.ofList (s.toList.drop start.length))
  else none

/-- What precedes a text at the end of another. -/
def dropEnd? (tail s : String) : Option String :=
  if tail.toList.isSuffixOf s.toList then
    some (String.ofList (s.toList.take (s.length - tail.length)))
  else none

theorem occurs_iff (part cs : List Char) : occurs part cs = true ↔ part <:+: cs := by
  induction cs with
  | nil => simp [occurs]
  | cons c cs ih => simp [occurs, ih, List.infix_cons_iff]

end Cartograph.Text

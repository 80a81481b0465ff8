import Cartograph.NodeId
import Cartograph.Text.Search

/-!
# Mentions

Where a text speaks of a node. An identifier is *mentioned* in a text (`mentions`) if it begins a
word of identifier characters; one that ends where the word ends, or before a dot, is preferred to
one that just begins a longer word, and the longest of them counts. A name *occurs whole* if no
character that could continue it stands beside it (`occursWhole`).
-/

namespace Cartograph.Mention

/-- A character of identifiers without instance numbers. -/
def isIdChar (c : Char) : Bool := c.isAlphanum || c == '_' || c == '-' || c == '.'

/-- A character of one segment of an identifier. -/
def isSegmentChar (c : Char) : Bool := c.isAlphanum || c == '_' || c == '-'

/-- The runs of identifier characters in a text, which may be empty. -/
def words (s : String) : List (List Char) := s.toList.splitBy fun a b => isIdChar a && isIdChar b

/-- The beginnings of a word, shortest first, each with what follows it. -/
def beginnings : List Char → List Char → List (List Char × List Char)
  | _, [] => []
  | done, c :: rest => (done ++ [c], rest) :: beginnings (done ++ [c]) rest

/-- Whether a beginning of a word ends a segment of it. -/
def endsSegment (rest : List Char) : Bool := rest.isEmpty || rest.head? == some '.'

/-- The identifier that a word mentions. -/
def mentionIn? (known : List NodeId) (word : List Char) : Option NodeId :=
  let hits := (beginnings [] word).filterMap fun (start, rest) =>
    let id := String.ofList start
    if known.contains id then some (id, endsSegment rest) else none
  let exact := (hits.filter (·.2)).getLast?
  (exact.or hits.getLast?).map (·.1)

/-- The known identifiers that a text mentions, in order. -/
def mentions (known : List NodeId) (s : String) : List NodeId :=
  ((words s).filter fun w => w.all isIdChar).filterMap (mentionIn? known)

/-- Whether a text occurs in another with its neighbours as demanded: `before` of the character in
    front of it and `after` of the one behind it. Occurrences are taken from left to right and do
    not overlap; the first `skip` characters belong to one that failed. -/
def occursBetween (before after : Option Char → Bool) (part : List Char) :
    Nat → Option Char → List Char → Bool
  | _, previous, [] => part.isEmpty && before previous && after none
  | skip + 1, _, c :: cs => occursBetween before after part skip (some c) cs
  | 0, previous, c :: cs =>
    if part.isPrefixOf (c :: cs) then
      (before previous && after (((c :: cs).drop part.length).head?))
        || occursBetween before after part (part.length - 1) (some c) cs
    else occursBetween before after part 0 (some c) cs

/-- No neighbour, or one that is not of a kind. -/
def free (kind : Char → Bool) (neighbour : Option Char) : Bool := !neighbour.any kind

/-- Whether a name occurs in a text and is not part of a longer name. -/
def occursWhole (s name : String) : Bool :=
  occursBetween (free isSegmentChar) (free isSegmentChar) name.toList 0 none s.toList

/-- Whether a text names an identifier in full; an instance number may only be followed by a dot or
    the end of the word. -/
def namesId (s : String) (id : NodeId) : Bool :=
  let after := if (NodeId.suffix? id).isSome
    then fun c => c == some '.' || free isIdChar c
    else free isSegmentChar
  occursBetween (free isIdChar) after id.toList 0 none s.toList

example : mentions ["a.b", "a.bc", "a"] "x=a.bc.id, a.bcd" = ["a.bc", "a"] := by decide +kernel

end Cartograph.Mention

/-!
# Glob patterns

Wildcards over texts: `?` stands for any character, `*` for any run of characters, `[a-z_]` for
one of the characters listed, `[!a-z]` for any other, and `**`, which must be a whole component
between slashes, for any run of components. All other characters stand for themselves, and case
matters.

`compile?` reads a pattern or says where it is malformed; `Glob.test` tells whether the whole text
fits.
-/

namespace Cartograph

/-- What a bracket expression lists: the characters from one to another. -/
structure Glob.Range where
  first : Char
  last : Char
  deriving Repr, DecidableEq

/-- One element of a pattern. -/
inductive Glob.Element
  | char (c : Char)
  | any
  | within (ranges : List Glob.Range)
  | except (ranges : List Glob.Range)
  | run
  | components
  deriving Repr, DecidableEq

/-- A compiled pattern. -/
structure Glob where
  elements : List Glob.Element
  deriving Repr, DecidableEq

namespace Glob

/-- What is wrong with a pattern. -/
inductive Problem
  | tooManyStars
  | notAComponent
  | invalidRange
  deriving Repr, DecidableEq

/-- A problem with the number of the character it was found at. -/
structure Fault where
  position : Nat
  problem : Problem
  deriving Repr, DecidableEq

/-- The wording of a problem. -/
def Problem.message : Problem → String
  | tooManyStars => "wildcards are either regular `*` or recursive `**`"
  | notAComponent => "recursive wildcards must form a single path component"
  | invalidRange => "invalid range pattern"

/-- The wording of a fault. -/
def Fault.message (f : Fault) : String :=
  "Pattern syntax error near position " ++ toString f.position ++ ": " ++ f.problem.message

/-! ### Compiling -/

/-- The ranges that the inside of a bracket expression lists. -/
def ranges : List Char → List Range
  | a :: '-' :: b :: rest => ⟨a, b⟩ :: ranges rest
  | a :: rest => ⟨a, a⟩ :: ranges rest
  | [] => []

/-- The inside of a bracket expression up to the closing bracket, and what follows it. The first
    character belongs to the inside even if it is a closing bracket. -/
def inside? : List Char → Option (List Char × List Char)
  | [] => none
  | c :: rest =>
    if ']' ∈ rest then
      some (c :: rest.takeWhile (· ≠ ']'), (rest.dropWhile (· ≠ ']')).tail)
    else none

/-- A bracket expression whose opening bracket has been read, and what follows it. -/
def bracket? : List Char → Option (Element × List Char)
  | '!' :: rest => (inside? rest).map fun (body, after) => (.except (ranges body), after)
  | rest => (inside? rest).map fun (body, after) => (.within (ranges body), after)

/-- What a run of at least two stars at `position` means, between the character before it and the
    characters after it, and what follows it. The slash that ends the component belongs to it. -/
def stars (before : Option Char) (count position : Nat) (after : List Char) :
    Except Fault (List Char) :=
  if 2 < count then .error ⟨position + 2, .tooManyStars⟩
  else if before = none ∨ before = some '/' then
    match after with
    | [] => .ok []
    | '/' :: rest => .ok rest
    | _ => .error ⟨position + 2, .notAComponent⟩
  else .error ⟨position - 1, .notAComponent⟩

/-- The elements of the pattern `cs`, of which the first character has the number `position` and
    stands behind the character `before`. -/
def compileFrom (before : Option Char) (position : Nat) (cs : List Char) :
    Except Fault (List Element) :=
  match cs with
  | [] => .ok []
  | c :: rest =>
    let goOn (e : Element) (after : List Char) : Except Fault (List Element) :=
      if _h : after.length < rest.length + 1 then
        let taken := rest.length + 1 - after.length
        (compileFrom ((c :: rest)[taken - 1]?) (position + taken) after).map (e :: ·)
      else .ok [e]
    if c = '?' then goOn .any rest
    else if c = '*' then
      match rest with
      | '*' :: _ =>
        let after := rest.dropWhile (· = '*')
        match stars before (rest.length + 1 - after.length) position after with
        | .error f => .error f
        | .ok after => goOn .components after
      | _ => goOn .run rest
    else if c = '[' then
      match bracket? rest with
      | none => .error ⟨position, .invalidRange⟩
      | some (e, after) => goOn e after
    else goOn (.char c) rest
termination_by cs.length

/-- The pattern of a text. -/
def compile? (s : String) : Except Fault Glob := (compileFrom none 0 s.toList).map Glob.mk

/-! ### Matching -/

/-- Whether a character lies in one of the ranges. -/
def listed (rs : List Range) (c : Char) : Bool := rs.any fun r => r.first ≤ c && c ≤ r.last

/-- Whether an element that stands for one character stands for this one. -/
def Element.accepts : Element → Char → Bool
  | char d, c => d == c
  | any, _ => true
  | within rs, c => listed rs c
  | except rs, c => !listed rs c
  | run, _ => false
  | components, _ => false

/-- All ends of a list, the longest first. -/
def ends : List Char → List (List Char)
  | [] => [[]]
  | c :: cs => (c :: cs) :: ends cs

/-- The ends of a list that begin a component, and the empty end. -/
def componentEnds : List Char → List (List Char)
  | [] => [[]]
  | c :: cs => if c = '/' then cs :: componentEnds cs else componentEnds cs

/-- Whether the elements fit a list of characters as a whole. -/
def fits : List Element → List Char → Bool
  | [], cs => cs.isEmpty
  | .run :: es, cs => (ends cs).any (fits es)
  | .components :: es, cs => fits es cs || (componentEnds cs).any (fits es)
  | _ :: _, [] => false
  | e :: es, c :: cs => e.accepts c && fits es cs

/-- Whether a pattern fits a whole text. -/
def test (g : Glob) (s : String) : Bool := fits g.elements s.toList

end Glob

end Cartograph

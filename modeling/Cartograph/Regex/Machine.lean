import Cartograph.Regex.Reader

/-!
# Running regular expressions

An expression is compiled into a list of instructions (`compile`), which a machine runs on a text by
following all ways through the instructions at once, in the order of preference and each instruction
at most once for a position (`follow`, `advance`). So a match takes time proportional to the length
of the text times the length of the expression, and of several matches from one position the most
preferred is found.

The captures of a match are kept as positions: those of group `i` in the places `2 * i` and
`2 * i + 1`.
-/

namespace Cartograph.Regex

/-- An instruction; a number is the place of the instruction to go on with. -/
inductive Instruction
  | accept
  | one (s : CharSet) (next : Nat)
  | look (l : Look) (next : Nat)
  /-- Goes on with either, preferring the first. -/
  | fork (first second : Nat)
  | save (slot : Nat) (next : Nat)
  deriving Inhabited

/-- Instructions so far. -/
abbrev Code := Array Instruction

/-- Appends an instruction; its place is the result. -/
def emit (i : Instruction) (code : Code) : Nat × Code := (code.size, code.push i)

/-- A fork that prefers to go on with `again` or, if not greedy, with `leave`. -/
def preference (greedy : Bool) (again leave : Nat) : Instruction :=
  if greedy then .fork again leave else .fork leave again

/-- Instructions for `n` copies of what `body` compiles, before `next`. -/
def copies (body : Nat → Code → Nat × Code) : Nat → Nat → Code → Nat × Code
  | 0, next, code => (next, code)
  | n + 1, next, code =>
    let (entry, code) := copies body n next code
    body entry code

/-- Instructions for up to `n` copies, each of which may be left out together with all after it. -/
def optionalCopies (body : Nat → Code → Nat × Code) (greedy : Bool) (leave : Nat) :
    Nat → Code → Nat × Code
  | 0, code => (leave, code)
  | n + 1, code =>
    let (inner, code) := optionalCopies body greedy leave n code
    let (entry, code) := body inner code
    emit (preference greedy entry leave) code

/-- Instructions for one or more copies. -/
def oneOrMore (body : Nat → Code → Nat × Code) (greedy : Bool) (next : Nat) (code : Code) :
    Nat × Code :=
  let (loop, code) := emit .accept code
  let (entry, code) := body loop code
  (entry, code.set! loop (preference greedy entry next))

/-- Instructions for an expression before the instruction `next`: where they begin, and all
    instructions so far. -/
def compile : Regex → Nat → Code → Nat × Code
  | .empty, next, code => (next, code)
  | .one s, next, code => emit (.one s next) code
  | .look l, next, code => emit (.look l next) code
  | .seq a b, next, code =>
    let (entry, code) := compile b next code
    compile a entry code
  | .alt a b, next, code =>
    let (second, code) := compile b next code
    let (first, code) := compile a next code
    emit (.fork first second) code
  | .times a least (some most) greedy, next, code =>
    let (entry, code) := optionalCopies (compile a) greedy next (most - least) code
    copies (compile a) least entry code
  | .times a 0 none greedy, next, code =>
    let (entry, code) := oneOrMore (compile a) greedy next code
    emit (preference greedy entry next) code
  | .times a (n + 1) none greedy, next, code =>
    let (entry, code) := oneOrMore (compile a) greedy next code
    copies (compile a) n entry code
  | .group i a, next, code =>
    let (leave, code) := emit (.save (2 * i + 1) next) code
    let (entry, code) := compile a leave code
    emit (.save (2 * i) entry) code

/-- The positions of the captures. -/
abbrev Slots := Array (Option Nat)

/-- A way through the instructions that waits for a character, or has arrived. -/
structure Thread where
  place : Nat
  slots : Slots

/-- The ways found at a position in order of preference, in reverse, and the places visited. -/
structure Visit where
  threads : List Thread
  seen : List Nat

/-- Follows the instructions from a place until they need a character. Since no place is visited
    twice at a position, as many steps as there are instructions are always enough. -/
def follow (code : Code) (before after : Option Char) (position : Nat) :
    Nat → Nat → Slots → Visit → Visit
  | 0, _, _, v => v
  | steps + 1, place, slots, v =>
    if v.seen.contains place then v
    else
      let v := { v with seen := place :: v.seen }
      match code[place]? with
      | none => v
      | some .accept => { v with threads := ⟨place, slots⟩ :: v.threads }
      | some (.one _ _) => { v with threads := ⟨place, slots⟩ :: v.threads }
      | some (.look l next) =>
        if l.holds before after then follow code before after position steps next slots v else v
      | some (.fork a b) =>
        follow code before after position steps b slots
          (follow code before after position steps a slots v)
      | some (.save slot next) =>
        follow code before after position steps next (slots.set! slot (some position)) v

/-- One character on all ways: the ways that go on, and the captures of the most preferred way that
    has arrived, which cuts off all less preferred ones. -/
def advance (code : Code) (c after : Option Char) (position : Nat) :
    List Thread → Visit → Visit × Option Slots
  | [], v => (v, none)
  | t :: rest, v =>
    match code[t.place]? with
    | some .accept => (v, some t.slots)
    | some (.one s next) =>
      if c.any s.test then
        advance code c after position rest
          (follow code c after (position + 1) (code.size + 1) next t.slots v)
      else advance code c after position rest v
    | _ => advance code c after position rest v

/-- Runs all ways on the characters from a position on; `best` is the match found so far. -/
def runThreads (code : Code) (position : Nat) (threads : List Thread) (best : Option Slots) :
    List Char → Option Slots
  | [] => ((advance code none none position threads ⟨[], []⟩).2).or best
  | c :: rest =>
    if threads.isEmpty then best
    else
      let (v, arrived) := advance code (some c) rest.head? position threads ⟨[], []⟩
      runThreads code (position + 1) v.threads.reverse (arrived.or best) rest

/-- An expression ready to run. -/
structure Program where
  code : Code
  entry : Nat
  slots : Nat
  names : List (String × Nat)

/-- The program of an expression. The match as a whole is group 0. -/
def Compiled.program (r : Compiled) : Program :=
  let (last, code) := emit .accept #[]
  let (entry, code) := compile (.group 0 r.regex) last code
  ⟨code, entry, 2 * (r.groups + 1), r.names⟩

/-- The most preferred match that begins at a position, between the character before it and the
    characters after it. -/
def Program.matchAt (p : Program) (before : Option Char) (position : Nat) (cs : List Char) :
    Option Slots :=
  let start := follow p.code before cs.head? position (p.code.size + 1) p.entry
    (Array.replicate p.slots none) ⟨[], []⟩
  runThreads p.code position start.threads.reverse none cs

/-- The first match that begins at a position or later. -/
def Program.find (p : Program) (before : Option Char) (position : Nat) (cs : List Char) :
    Option Slots :=
  match p.matchAt before position cs with
  | some slots => some slots
  | none =>
    match cs with
    | [] => none
    | c :: rest => p.find (some c) (position + 1) rest

/-- Whether the expression matches anywhere in a text. -/
def Program.test (p : Program) (s : String) : Bool := (p.find none 0 s.toList).isSome

/-- The positions of a group in a match. -/
def span? (slots : Slots) (group : Nat) : Option (Nat × Nat) := do
  let first ← (slots[2 * group]?).join
  let last ← (slots[2 * group + 1]?).join
  pure (first, last)

/-- The matches from a position on that do not overlap: the rest `cs` of the text stands behind the
    character `before`, and `ended` is where the match before ended. An empty match there does not
    count, and the search goes on behind the next character. -/
def Program.matches (p : Program) (ended : Option Nat) (before : Option Char) (position : Nat)
    (cs : List Char) : List Slots :=
  match p.find before position cs with
  | none => []
  | some slots =>
    match span? slots 0 with
    | none => []
    | some (first, last) =>
      if first = last ∧ ended = some last then
        match cs with
        | [] => []
        | c :: rest => p.matches none (some c) (position + 1) rest
      else if _h : position < last then
        let taken := last - position
        if _h : (cs.drop taken).length < cs.length then
          slots :: p.matches (some last) (cs[taken - 1]?) last (cs.drop taken)
        else [slots]
      else
        match cs with
        | [] => [slots]
        | c :: rest => slots :: p.matches (some last) (some c) (position + 1) rest
termination_by cs.length

end Cartograph.Regex

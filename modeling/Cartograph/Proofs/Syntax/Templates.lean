import Mathlib
import Cartograph.Proofs.Syntax.Locality

/-!
# Templates that are written

A template is written from literals and expressions (`Segment`, `write`): each `$` of a literal that
comes before a brace is doubled, and each expression is put in braces behind a `$`. Reading it gives
back these literals and, for each expression, the tokens that the expression has on its own, further
on (`tokenizeTemplate_write`).

An expression may be written if it can be cut into tokens, its brackets match, and it does not end
in a comment that would go on past the brace (`Inner`). The brace that closes is then found through
all that the expression holds (`Inner.tokens_braced`).
-/

namespace Cartograph.Expression

variable {s t : List Char} {o d : Nat} {pending : List Char} {started : Bool} {ts : List Spanned}
  {ps : List Part} {last : Place}

/-! ### Brackets -/

/-- How many brackets tokens open. -/
def openings (ts : List Spanned) : Nat := ts.countP (·.token.opens)

/-- How many brackets tokens close. -/
def closings (ts : List Spanned) : Nat := ts.countP (·.token.closes)

/-- As many brackets are opened as are closed, and at no place have more been closed. -/
structure Balanced (ts : List Spanned) : Prop where
  total : closings ts = openings ts
  front : ∀ front, front <+: ts → closings front ≤ openings front

instance (ts : List Spanned) : Decidable (Balanced ts) :=
  decidable_of_iff (closings ts = openings ts ∧ ∀ front ∈ ts.inits, closings front ≤ openings front)
    ⟨fun h => ⟨h.1, fun front part => h.2 front ((List.mem_inits ..).2 part)⟩,
      fun h => ⟨h.total, fun front part => h.front front ((List.mem_inits ..).1 part)⟩⟩

theorem openings_cons (t : Token) (n : Nat) (ts : List Spanned) :
    openings (.mk t n :: ts) = openings ts + if t.opens then 1 else 0 := List.countP_cons

theorem closings_cons (t : Token) (n : Nat) (ts : List Spanned) :
    closings (.mk t n :: ts) = closings ts + if t.closes then 1 else 0 := List.countP_cons

theorem Token.not_opens_of_closes {t : Token} (h : t.closes) : t.opens = false := by
  cases t with
  | mark m =>
    revert h
    cases m <;> decide
  | _ => rfl

theorem depthBehind_eq (t : Token) : depthBehind d t =
    if t.opens then d + 1 else if t.closes then d - 1 else d := by
  cases t <;> rfl

theorem closes_of_counts (total : closings ts = d + openings ts)
    (front : ∀ front, front <+: ts → closings front ≤ d + openings front) : Closes d ts := by
  induction ts generalizing d with
  | nil => exact total.symm
  | cons t ts ih =>
    obtain ⟨t, n⟩ := t
    have some (closes : t.closes) : 0 < d := by
      have first := front [.mk t n] ⟨ts, rfl⟩
      simp [closings, openings, Spanned.token, closes, Token.not_opens_of_closes closes] at first
      exact first
    have depth : d + (if t.opens then 1 else 0) =
        depthBehind d t + if t.closes then 1 else 0 := by
      rw [depthBehind_eq]
      by_cases closes : t.closes
      · simp [closes, Token.not_opens_of_closes closes, Nat.sub_add_cancel (some closes)]
      · by_cases opens : t.opens <;> simp [closes, opens]
    rw [closings_cons, openings_cons] at total
    refine ⟨some, ih (by omega) fun later h => ?_⟩
    have := front (.mk t n :: later) (List.cons_prefix_cons.2 ⟨rfl, h⟩)
    rw [closings_cons, openings_cons] at this
    omega

theorem Balanced.closes (h : Balanced ts) : Closes 0 ts :=
  closes_of_counts (by rw [h.total, Nat.zero_add]) fun front part => by
    rw [Nat.zero_add]
    exact h.front front part

/-! ### Expressions in braces -/

/-- The end of an expression is a comment that goes on to the end of the line: what stands before it
    can be cut into tokens, so it begins neither in a text nor in another comment. -/
def EndsInComment (source : String) : Prop :=
  ∃ before comment, source.toList = before ++ comment ∧ LineComment comment ∧
    ∃ ts, tokenize (String.ofList before) = .ok ts

theorem not_endsInComment {source : String} (h : ∀ c ∈ source.toList, c ≠ '#' ∧ c ≠ '/') :
    ¬EndsInComment source := by
  rintro ⟨before, comment, whole, line, -⟩
  cases comment with
  | nil => exact absurd line.next (by simp [lineCommentNext])
  | cons c comment =>
    obtain ⟨hash, slash⟩ := h c (by simp [whole])
    rcases lineCommentNext_cons line.next with rfl | rfl
    · exact hash rfl
    · exact slash rfl

/-- An expression that may be written in braces, with its tokens. -/
structure Inner where
  source : String
  tokens : List Spanned
  read : tokenize source = .ok tokens
  balanced : Balanced tokens
  ended : ¬EndsInComment source

/-- In braces an expression has the tokens that it has on its own, up to the brace that closes. -/
theorem Inner.tokens_braced (e : Inner) (o : Nat) (t : List Char) :
    Expression.tokens true 0 ⟨e.source.toList ++ '\x7d' :: t, o⟩ =
      .ok (Spanned.shiftAll o e.tokens, ⟨t, o + bytes e.source.toList + 1⟩) := by
  obtain ⟨last, read⟩ := tokenize_iff.1 e.read
  rcases tokens_close read e.balanced.closes with brace | ⟨before, comment, whole, line, r, kept⟩
  · have braced := brace o t
    rw [Nat.zero_add] at braced
    obtain ⟨u, reach⟩ := tokens_reaches braced
    obtain rfl : e.source.toList ++ ['\x7d'] = u :=
      List.append_cancel_right ((List.append_assoc ..).trans reach.rest)
    rw [braced]
    have offset := reach.offset
    rw [bytes_append, ← Nat.add_assoc] at offset
    exact congrArg (fun n => Except.ok (_, Place.mk t n)) offset
  · refine absurd ⟨before, comment, whole, line, r.1, tokenize_iff.2 ⟨r.2, ?_⟩⟩ e.ended
    rw [String.toList_ofList]
    exact kept

/-! ### Literals -/

/-- How a literal is written: the `$` before each brace twice. -/
def doubled : List Char → List Char
  | '$' :: '\x7b' :: rest => '$' :: '$' :: '\x7b' :: doubled rest
  | c :: rest => c :: doubled rest
  | [] => []

theorem doubled_cons {c : Char} (plain : ∀ rest, c = '$' → s ≠ '\x7b' :: rest) :
    doubled (c :: s) = c :: doubled s := by
  rw [doubled]
  intro rest dollar same
  exact plain rest dollar same

theorem head?_doubled (s : List Char) : (doubled s).head? = s.head? := by
  fun_cases doubled s <;> rfl

theorem bytes_doubled (s : List Char) : bytes ('$' :: '$' :: '\x7b' :: s) = 3 + bytes s := by
  have dollar : '$'.utf8Size = 1 := rfl
  have brace : '\x7b'.utf8Size = 1 := rfl
  rw [bytes_cons, bytes_cons, bytes_cons, dollar, brace]
  omega

/-- A brace that comes first is that of the literal. -/
theorem head?_doubled_append (brace : t.head? ≠ some '\x7b')
    (first : (doubled s ++ t).head? = some '\x7b') : ∃ rest, s = '\x7b' :: rest := by
  rw [List.head?_append, head?_doubled] at first
  cases s with
  | nil => exact absurd first brace
  | cons c s => exact ⟨s, by rw [Option.some.inj first]⟩

/-- No interpolation begins inside a literal. -/
theorem take_doubled_append (brace : t.head? ≠ some '\x7b')
    (dollar : s = [] → t.take 2 ≠ ['$', '\x7b']) : (doubled s ++ t).take 2 ≠ ['$', '\x7b'] := by
  intro same
  fun_cases doubled s with
  | case1 rest => simp [doubled] at same
  | case2 c rest plain =>
    rw [doubled_cons plain, List.cons_append, List.take_succ_cons, List.cons.injEq] at same
    have first : (doubled rest ++ t).head? = some '\x7b' := by
      have behind := congrArg List.head? same.2
      rwa [List.head?_take, if_neg (by simp)] at behind
    obtain ⟨rest', rfl⟩ := head?_doubled_append brace first
    exact plain rest' same.1 rfl
  | case3 => exact dollar rfl same

/-- A literal is read as it was before it was written, if what follows does not go on with it. -/
theorem parts_doubled (brace : t.head? ≠ some '\x7b')
    (dollar : s.getLast? = some '$' → t.take 2 ≠ ['$', '\x7b'])
    (more : parts .bare (s.reverse ++ pending) started ⟨t, o + bytes (doubled s)⟩ =
      .ok (ps, last)) :
    parts .bare pending started ⟨doubled s ++ t, o⟩ = .ok (ps, last) := by
  fun_induction doubled s generalizing o pending with
  | case1 rest ih =>
    refine parts_iff.2 (.dollar rfl (ih (fun last => dollar ?_) ?_))
    · rw [List.getLast?_cons, List.getLast?_cons, last]
      rfl
    · rw [bytes_doubled, ← Nat.add_assoc] at more
      simpa using more
  | case2 c rest plain ih =>
    have front : (c :: (doubled rest ++ t)).take 2 ≠ ['$', '\x7b'] := by
      have := take_doubled_append (s := c :: rest) brace (by simp)
      rwa [doubled_cons plain] at this
    -- A `$` before the next part would be read as doubled, but no literal ends in one there.
    have doubled : (c :: (doubled rest ++ t)).take 3 ≠ ['$', '$', '\x7b'] := by
      intro same
      rw [List.take_succ_cons, List.cons.injEq] at same
      refine take_doubled_append brace (fun none => dollar ?_) same.2
      rw [none, same.1]
      rfl
    refine parts_iff.2 (.plain rfl doubled front (absurd rfl) (ih (fun last => dollar ?_) ?_))
    · rw [List.getLast?_cons, last]
      rfl
    · simpa [bytes_cons, Nat.add_assoc] using more
  | case3 => exact more

/-! ### Templates -/

/-- A part of a template to be written. -/
inductive Segment
  | literal (s : String)
  | expression (e : Inner)

/-- How a part is written. -/
def Segment.text : Segment → List Char
  | literal s => doubled s.toList
  | expression e => '$' :: '\x7b' :: (e.source.toList ++ ['\x7d'])

/-- The text of a template. -/
def write (segments : List Segment) : String := String.ofList (segments.flatMap Segment.text)

/-- What may come behind a part: no literal behind another one, and no expression behind a `$`. -/
def Segment.Follows : Segment → Segment → Prop
  | literal _, literal _ => False
  | literal s, expression _ => s.toList.getLast? ≠ some '$'
  | expression _, _ => True

/-- Parts that may be written one behind the other. -/
structure Writable (segments : List Segment) : Prop where
  some : segments ≠ []
  literals : ∀ s, Segment.literal s ∈ segments → s ≠ ""
  follows : segments.IsChain Segment.Follows

/-- The parts that are read, from an offset on. -/
def partsAt : Nat → List Segment → List Part
  | _, [] => []
  | o, .literal s :: rest => .literal s :: partsAt (o + bytes (Segment.literal s).text) rest
  | o, .expression e :: rest => .interpolation (Spanned.shiftAll (o + 2) e.tokens)
      (Text.trim e.source) :: partsAt (o + bytes (Segment.expression e).text) rest

theorem bytes_expression (e : Inner) (o : Nat) :
    o + bytes (Segment.expression e).text = o + 2 + bytes e.source.toList + 1 := by
  have dollar : '$'.utf8Size = 1 := rfl
  have left : '\x7b'.utf8Size = 1 := rfl
  have right : '\x7d'.utf8Size = 1 := rfl
  rw [Segment.text, bytes_cons, bytes_cons, bytes_append, bytes_cons, bytes_nil, dollar, left,
    right]
  omega

theorem literalPart_reverse {s : String} (some : s ≠ "") :
    literalPart s.toList.reverse = [.literal s] := by
  unfold literalPart
  rw [if_neg (by simpa using some), List.reverse_reverse, String.ofList_toList]

/-- What comes behind a literal does not go on with it. -/
theorem text_of_follows {s : String} {segments : List Segment}
    (next : ∀ segment ∈ segments.head?, Segment.Follows (.literal s) segment) :
    (segments.flatMap Segment.text).head? ≠ some '\x7b' ∧ (s.toList.getLast? = some '$' →
      (segments.flatMap Segment.text).take 2 ≠ ['$', '\x7b']) := by
  cases segments with
  | nil => simp
  | cons segment segments =>
    have follows := next segment rfl
    cases segment with
    | literal => exact absurd follows id
    | expression e => exact ⟨by simp [Segment.text], fun last => absurd last follows⟩

theorem parts_segments {segments : List Segment} (pending : List Char) (started : Bool) (o : Nat)
    (literals : ∀ s, Segment.literal s ∈ segments → s ≠ "")
    (follows : segments.IsChain Segment.Follows)
    (first : ∀ s, segments.head? = some (.literal s) → pending = [])
    (some : segments = [] → pending = [] → started = true) :
    ∃ last, parts .bare pending started ⟨segments.flatMap Segment.text, o⟩ =
      .ok (literalPart pending ++ partsAt o segments, last) := by
  induction segments generalizing o pending started with
  | nil =>
    refine ⟨⟨[], o⟩, (parts_iff.2 (.ended rfl rfl)).trans ?_⟩
    rw [if_neg fun none => ?_]
    · rw [partsAt, List.append_nil]
    · obtain ⟨none, not⟩ := Bool.and_eq_true_iff.1 none
      rw [some rfl (List.isEmpty_iff.1 none)] at not
      exact absurd not (by simp)
  | cons segment segments ih =>
    obtain ⟨next, chain⟩ := List.isChain_cons.1 follows
    have others (s) (h : Segment.literal s ∈ segments) := literals s (List.mem_cons_of_mem _ h)
    cases segment with
    | literal s =>
      -- The literal is pending until the next part, which is no literal, or the end.
      obtain rfl := first s rfl
      have some : s ≠ "" := literals s List.mem_cons_self
      obtain ⟨last, more⟩ := ih s.toList.reverse started (o + bytes (doubled s.toList)) others chain
        (fun s' head => absurd (next _ head) id) (fun _ none => absurd none (by simpa using some))
      obtain ⟨brace, dollar⟩ := text_of_follows next
      rw [literalPart_reverse some] at more
      rw [← List.append_nil s.toList.reverse] at more
      exact ⟨last, parts_doubled brace dollar more⟩
    | expression e =>
      -- What is pending goes before the interpolation, and nothing is pending behind it.
      obtain ⟨last, more⟩ := ih [] true (o + bytes (Segment.expression e).text) others chain
        (fun _ _ => rfl) (fun _ _ => rfl)
      have braced := e.tokens_braced (o + 2) (segments.flatMap Segment.text)
      rw [← List.singleton_append, ← List.append_assoc] at braced
      rw [bytes_expression] at more
      refine ⟨last, (parts_interpolation braced more).trans ?_⟩
      rw [List.dropLast_concat, partsAt, bytes_expression]
      rfl

/-- What is written is read back: the literals, and the tokens of the expressions at their
    places. -/
theorem tokenizeTemplate_write {segments : List Segment} (h : Writable segments) :
    tokenizeTemplate (write segments) = .ok (partsAt 0 segments) := by
  obtain ⟨last, read⟩ := parts_segments [] false 0 h.literals h.follows (fun _ _ => rfl)
    (fun none => absurd none h.some)
  unfold tokenizeTemplate Place.start write
  rw [String.toList_ofList, read]
  rfl

/-- The field of an object, with a brace in quotes. -/
def field : Inner where
  source := " \x7ba = \"\x7d\"\x7d[\"a\"] "
  tokens := [.mk (.mark .leftBrace) 1, .mk (.ident "a") 2, .mk (.mark .assign) 4,
    .mk (.text [.literal "\x7d"]) 6, .mk (.mark .rightBrace) 9, .mk (.mark .leftBracket) 10,
    .mk (.text [.literal "a"]) 11, .mk (.mark .rightBracket) 14]
  read := by cbv
  balanced := by decide
  ended := not_endsInComment (by simp)

theorem tokenizeTemplate_write_field :
    tokenizeTemplate "$$\x7bliteral\x7d $\x7b \x7ba = \"\x7d\"\x7d[\"a\"] \x7d$" =
      .ok [.literal "$\x7bliteral\x7d ", .interpolation [.mk (.mark .leftBrace) 15,
        .mk (.ident "a") 16, .mk (.mark .assign) 18, .mk (.text [.literal "\x7d"]) 20,
        .mk (.mark .rightBrace) 23, .mk (.mark .leftBracket) 24, .mk (.text [.literal "a"]) 25,
        .mk (.mark .rightBracket) 28] "\x7ba = \"\x7d\"\x7d[\"a\"]", .literal "$"] := by
  have writable :
      Writable [.literal "$\x7bliteral\x7d ", .expression field, .literal "$"] :=
    ⟨by simp, by simp, by simp [Segment.Follows]⟩
  have read := tokenizeTemplate_write writable
  calc
    _ = tokenizeTemplate (write [.literal "$\x7bliteral\x7d ", .expression field, .literal "$"]) :=
      rfl
    _ = _ := read
    _ = _ := rfl

end Cartograph.Expression

import Mathlib
import Cartograph.Proofs.Syntax.Tokens

/-!
# What tokens hang on

What is read inside an interpolation or a quoted text hangs on no character behind it: the same
tokens come out, further on, whatever brace follows (`tokens_replace`, `parts_replace`). So an
expression whose brackets match may be put in braces and has the tokens that it has on its own, as
long as it does not end in a comment that takes in the brace (`tokens_close`).

What a token cannot be cut off from is told by its first character (`Apart`), and what a comment
cannot be told from by the brace (`Closing`).
-/

namespace Cartograph.Expression

variable {s t u v w x y : List Char} {o k d n : Nat} {c : Char}

/-! ### What is read -/

mutual

/-- Reading tokens goes on from where it begins. -/
theorem tokens_reaches {closing : Bool} {d : Nat} {p last : Place} {ts : List Spanned}
    (h : tokens closing d p = .ok (ts, last)) : ∃ u, Reaches p u last := by
  cases tokens_iff.1 h with
  | ended off skipped =>
    obtain ⟨t, reach, -⟩ := trivia_of_skipTrivia skipped
    exact ⟨t, reach⟩
  | @closed o s on zero skipped =>
    obtain ⟨t, reach, -⟩ := trivia_of_skipTrivia skipped
    have brace : Reaches ⟨'\x7d' :: s, o⟩ ['\x7d'] ⟨s, o + 1⟩ := ⟨rfl, rfl⟩
    exact ⟨_, reach.trans brace⟩
  | @text o s ps r ts last skipped read shorter more =>
    obtain ⟨t, reach, -⟩ := trivia_of_skipTrivia skipped
    have quote : Reaches ⟨'"' :: s, o⟩ ['"'] ⟨s, o + 1⟩ := ⟨rfl, rfl⟩
    have := skipTrivia_length skipped
    have inside : s.length < p.rest.length := this
    obtain ⟨u, inner⟩ := parts_reaches read
    obtain ⟨w, rest⟩ := tokens_reaches more
    exact ⟨_, ((reach.trans quote).trans inner).trans rest⟩
  | @lexeme o c s t n ts last skipped plain inside found more =>
    obtain ⟨u, reach, -⟩ := trivia_of_skipTrivia skipped
    have shorter : (Place.advance ⟨c :: s, o⟩ n).rest.length < p.rest.length := by
      have some := lexeme?_bounds found
      have skipped := reach.length_le
      rw [Place.advance, List.length_drop]
      dsimp only at skipped ⊢
      omega
    obtain ⟨w, rest⟩ := tokens_reaches more
    exact ⟨_, (reach.trans (reaches_advance ⟨c :: s, o⟩ n)).trans rest⟩
termination_by p.rest.length

/-- Reading parts goes on from where it begins. -/
theorem parts_reaches {frame : Frame} {pending : List Char} {started : Bool} {p last : Place}
    {ps : List Part} (h : parts frame pending started p = .ok (ps, last)) :
    ∃ u, Reaches p u last := by
  cases parts_iff.1 h with
  | ended bare same =>
    subst same
    exact ⟨[], .refl _⟩
  | @quote start o s quoted same =>
    subst same
    exact ⟨['"'], rfl, rfl⟩
  | @dollar o s ps last same more =>
    have dollar : Reaches p ['$', '$', '\x7b'] ⟨s, o + 3⟩ := same ▸ ⟨rfl, rfl⟩
    have shorter := dollar.length_lt (by simp)
    obtain ⟨u, rest⟩ := parts_reaches more
    exact ⟨_, dollar.trans rest⟩
  | @interpolation o s ts r ps last same read shorter more =>
    have brace : Reaches p ['$', '\x7b'] ⟨s, o + 2⟩ := same ▸ ⟨rfl, rfl⟩
    have inside := brace.length_lt (by simp)
    obtain ⟨u, inner⟩ := tokens_reaches read
    obtain ⟨w, rest⟩ := parts_reaches more
    exact ⟨_, (brace.trans inner).trans rest⟩
  | @escaped start o n s c ps last quoted same read more =>
    have slash : Reaches p ['\\'] ⟨s, o + 1⟩ := same ▸ ⟨rfl, rfl⟩
    have escape := reaches_advance ⟨s, o + 1⟩ n
    have shorter := Nat.lt_of_le_of_lt escape.length_le (slash.length_lt (by simp))
    obtain ⟨u, rest⟩ := parts_reaches more
    exact ⟨_, (slash.trans escape).trans rest⟩
  | @plain o c s ps last same _ _ _ more =>
    have first : Reaches p [c] ⟨s, o + c.utf8Size⟩ := same ▸ ⟨rfl, rfl⟩
    have shorter := first.length_lt (by simp)
    obtain ⟨u, rest⟩ := parts_reaches more
    exact ⟨_, first.trans rest⟩
termination_by p.rest.length

end

/-! ### Offsets -/

mutual

/-- A token that stands further on in a text. -/
def Token.shift (k : Nat) : Token → Token
  | .ident name => .ident name
  | .number n => .number n
  | .text parts => .text (Part.shiftAll k parts)
  | .mark m => .mark m

/-- A part that stands further on in a text. -/
def Part.shift (k : Nat) : Part → Part
  | .literal s => .literal s
  | .interpolation tokens source => .interpolation (Spanned.shiftAll k tokens) source

def Part.shiftAll (k : Nat) : List Part → List Part
  | [] => []
  | p :: ps => p.shift k :: Part.shiftAll k ps

/-- A token with its offset, further on in a text. -/
def Spanned.shift (k : Nat) : Spanned → Spanned
  | .mk t n => .mk (t.shift k) (n + k)

def Spanned.shiftAll (k : Nat) : List Spanned → List Spanned
  | [] => []
  | s :: rest => s.shift k :: Spanned.shiftAll k rest

end

/-! ### What follows -/

/-- What is left at the end is left behind all that is read. -/
theorem Reaches.whole {last : Place} (h : Reaches ⟨s, o⟩ u last) (left : last.rest = v ++ t) :
    s = u ++ v ++ t := by
  rw [List.append_assoc, ← left]
  exact h.rest

theorem Closing.apart (h : Closing s) : Apart s := fun c first => .inl (h c first)

theorem closing_nil : Closing [] := by simp [Closing]

theorem closing_brace (s : List Char) : Closing ('\x7d' :: s) :=
  fun _ first => (Option.some.inj first).symm

theorem skipTrivia_replace (h : skipTrivia ⟨s ++ t, o⟩ = .ok ⟨u ++ t, n⟩) (some : u ≠ [])
    (closing : Closing w) (k : Nat) :
    skipTrivia ⟨s ++ w, o + k⟩ = .ok ⟨u ++ w, n + k⟩ := by
  obtain ⟨l, reach, trivia⟩ := trivia_of_skipTrivia h
  obtain rfl : s = l ++ u := List.append_cancel_right (reach.rest.trans (List.append_assoc ..).symm)
  have offset : n = o + bytes l := reach.offset
  rw [List.append_assoc, skipTrivia_of_trivia (trivia.replace some closing), offset,
    Nat.add_right_comm]

theorem codePoint?_length {c : Char} (h : codePoint? s = some c) : 4 ≤ s.length := by
  unfold codePoint? at h
  dsimp only at h
  split at h
  · next four =>
    rw [List.length_take] at four
    omega
  · exact absurd h (by simp)

theorem codePoint?_append (four : u.length = 4) (s : List Char) :
    codePoint? (u ++ s) = codePoint? u := by
  have same : (u ++ s).take 4 = u.take 4 := List.take_append_of_le_length (Nat.le_of_eq four.symm)
  unfold codePoint?
  rw [same]

/-- An escape that stands for one character, with the text that it takes up. -/
theorem escape_cases {c : Char} {p : Place} (h : escape p = .ok (c, n)) :
    (∃ d rest, p.rest = d :: rest ∧ n = 1 ∧ ∀ rest o, escape ⟨d :: rest, o⟩ = .ok (c, 1)) ∨
      ∃ rest, p.rest = 'u' :: rest ∧ n = 5 ∧ codePoint? rest = some c := by
  obtain ⟨cs, o⟩ := p
  unfold escape at h
  dsimp only at h
  split at h
  case h_6 rest =>
    split at h
    · next d found =>
      cases h
      exact .inr ⟨rest, rfl, rfl, found⟩
    · exact absurd h (by simp [Place.fault])
  case h_7 => exact absurd h (by simp [Place.fault])
  all_goals
    cases h
    exact .inl ⟨_, _, rfl, rfl, fun _ _ => rfl⟩

theorem escape_bounds {c : Char} {p : Place} (h : escape p = .ok (c, n)) : n ≤ p.rest.length := by
  rcases escape_cases h with ⟨d, rest, same, rfl, -⟩ | ⟨rest, same, rfl, code⟩
  · rw [same]
    exact Nat.succ_le_succ (Nat.zero_le _)
  · rw [same]
    exact Nat.succ_le_succ (codePoint?_length code)

/-- An escape hangs on its own characters. -/
theorem escape_replace {c : Char} (h : escape ⟨u ++ s, o⟩ = .ok (c, u.length)) (t : List Char)
    (n : Nat) : escape ⟨u ++ t, n⟩ = .ok (c, u.length) := by
  rcases escape_cases h with ⟨d, rest, same, one, always⟩ | ⟨rest, same, five, code⟩
  · obtain ⟨a, rfl⟩ := List.length_eq_one_iff.1 one
    obtain ⟨rfl, -⟩ := List.cons.inj same
    exact always t n
  · cases u with
    | nil => exact absurd five (by simp)
    | cons a u =>
      obtain ⟨rfl, rfl⟩ := List.cons.inj same
      have four : u.length = 4 := Nat.succ.inj five
      have code : codePoint? (u ++ s) = some c := code
      rw [codePoint?_append four] at code
      have read : codePoint? (u ++ t) = some c := by rw [codePoint?_append four, code]
      simp only [five, List.cons_append, escape, read]

theorem take_append_apart {m : List Char} (ht : Apart t) (hw : Apart w) (s : List Char)
    (inner : ∀ c ∈ m, ¬Separates c) :
    (s ++ t).take m.length = m ↔ (s ++ w).take m.length = m := by
  rw [eq_comm, ← List.prefix_iff_eq_take, eq_comm, ← List.prefix_iff_eq_take,
    ← List.isPrefixOf_iff_prefix, ← List.isPrefixOf_iff_prefix,
    isPrefixOf_append_apart ht s inner, isPrefixOf_append_apart hw s inner]

/-- A name, number or mark hangs on its own characters, with anything set apart behind it. -/
theorem lexeme?_replace {tok : Token} {m : Nat} (found : lexeme? (c :: s) = some (tok, m))
    (left : (Place.advance ⟨c :: s, o⟩ m).rest = u ++ t) (ht : Apart t) :
    ∃ x, s = x ++ (u ++ t) ∧ ∀ w, Apart w → lexeme? (c :: (x ++ (u ++ w))) = some (tok, m) ∧
      ∀ o, Place.advance ⟨c :: (x ++ (u ++ w)), o⟩ m = ⟨u ++ w, o + bytes (c :: x)⟩ := by
  obtain ⟨some, le⟩ := lexeme?_bounds found
  obtain ⟨m, rfl⟩ : ∃ l, m = l + 1 := ⟨m - 1, by omega⟩
  have rest : s.drop m = u ++ t := left
  have length : (s.take m).length = m := by
    rw [List.length_take]
    exact Nat.min_eq_left (Nat.le_of_succ_le_succ le)
  have whole : s = s.take m ++ (u ++ t) := by rw [← rest, List.take_append_drop]
  refine ⟨s.take m, whole, fun w hw => ⟨?_, fun n => ?_⟩⟩
  · have same := lexeme?_append ht (s := c :: (s.take m ++ u)) (by simp)
    have other := lexeme?_append hw (s := c :: (s.take m ++ u)) (by simp)
    rw [List.cons_append, List.append_assoc] at same other
    rw [other, ← same, ← whole, found]
  · have behind := advance_append (c :: s.take m) (u ++ w) n
    rwa [List.length_cons, length] at behind

theorem shiftAll_finish (k : Nat) (pending : List Char) (started : Bool) :
    Part.shiftAll k (if pending.isEmpty && !started then [.literal ""] else literalPart pending) =
      if pending.isEmpty && !started then [.literal ""] else literalPart pending := by
  unfold literalPart
  split_ifs <;> rfl

theorem shiftAll_interpolation (k : Nat) (pending : List Char) (ts : List Spanned) (source : String)
    (ps : List Part) :
    Part.shiftAll k (literalPart pending ++ .interpolation ts source :: ps) = literalPart pending ++
      .interpolation (Spanned.shiftAll k ts) source :: Part.shiftAll k ps := by
  unfold literalPart
  split_ifs <;> rfl

/-- What an interpolation has between its braces. -/
theorem source_append (x z : List Char) :
    (x ++ z).take ((x ++ z).length - z.length - 1) = x.dropLast := by
  rw [List.length_append, Nat.add_sub_cancel, List.dropLast_eq_take,
    List.take_append_of_le_length (Nat.sub_le ..)]

theorem parts_interpolation {frame : Frame} {pending : List Char} {started : Bool} {x z : List Char}
    {ts : List Spanned} {ps : List Part} {last : Place}
    (read : tokens true 0 ⟨x ++ z, o + 2⟩ = .ok (ts, ⟨z, n⟩))
    (more : parts frame [] true ⟨z, n⟩ = .ok (ps, last)) :
    parts frame pending started ⟨'$' :: '\x7b' :: (x ++ z), o⟩ = .ok (literalPart pending ++
      .interpolation ts (String.ofList (Text.trimChars x.dropLast)) :: ps, last) := by
  have shorter : z.length < ('$' :: '\x7b' :: (x ++ z)).length := by
    simp only [List.length_append, List.length_cons]
    omega
  have step : PartsStep frame pending started _ _ _ := .interpolation rfl read shorter more
  rwa [source_append, ← parts_iff] at step

/-- Only quoted texts hold places of their own. -/
theorem shift_of_lexeme {tok : Token} (h : lexeme? s = some (tok, n)) (k : Nat) :
    tok.shift k = tok := by
  unfold lexeme? at h
  split at h
  · exact absurd h (by simp)
  · split_ifs at h
    · cases h
      rfl
    · cases h
      rfl
    · obtain ⟨m, -, same⟩ := Option.map_eq_some_iff.1 h
      cases same
      rfl

section Steps

variable {closing : Bool} {b : List Char} {l m : Nat} {tok : Token} {ts : List Spanned}
  {last : Place}

theorem lexeme_shorter (skipped : skipTrivia ⟨u ++ t, o⟩ = .ok ⟨c :: s, n⟩)
    (found : lexeme? (c :: s) = some (tok, m))
    (behind : Place.advance ⟨c :: s, n⟩ m = ⟨v ++ w ++ t, l⟩) :
    v.length + w.length < u.length := by
  have skipped := skipTrivia_length skipped
  have bounds := lexeme?_bounds found
  have left : (c :: s).drop m = v ++ w ++ t := congrArg Place.rest behind
  have left := congrArg List.length left
  simp only [List.length_append, List.length_drop] at skipped left
  omega

/-- A name, number or mark is read again before other tokens. -/
theorem tokens_lexeme_replace (ht : Apart t) (hw : Closing w)
    (skipped : skipTrivia ⟨u ++ t, o⟩ = .ok ⟨c :: s, n⟩) (plain : c ≠ '"')
    (inside : ¬(closing = true ∧ d = 0 ∧ c = '\x7d')) (found : lexeme? (c :: s) = some (tok, m))
    (behind : Place.advance ⟨c :: s, n⟩ m = ⟨b ++ t, l⟩)
    (more : tokens closing (depthBehind d tok) ⟨b ++ w, l + k⟩ = .ok (ts, last)) :
    tokens closing d ⟨u ++ w, o + k⟩ = .ok (.mk tok (n + k) :: ts, last) := by
  obtain ⟨x, rfl, always⟩ := lexeme?_replace found (congrArg Place.rest behind) ht
  obtain ⟨again, place⟩ := always w hw.apart
  obtain rfl : n + bytes (c :: x) = l := by
    rw [(always t ht).2] at behind
    exact congrArg Place.offset behind
  rw [← List.append_assoc x, ← List.cons_append] at skipped
  have skipped := skipTrivia_replace skipped (by simp) hw k
  rw [List.cons_append, List.append_assoc x] at skipped
  refine tokens_iff.2 (.lexeme skipped plain inside again ?_)
  rw [place, Nat.add_right_comm]
  exact more

/-- A quoted text is read again before other tokens. -/
theorem tokens_text_replace {ps : List Part} (hw : Closing w)
    (skipped : skipTrivia ⟨u ++ t, o⟩ = .ok ⟨'"' :: (v ++ b ++ t), n⟩)
    (read : parts (.quoted (n + k)) [] false ⟨v ++ b ++ w, n + 1 + k⟩ = .ok (ps, ⟨b ++ w, l⟩))
    (more : tokens closing d ⟨b ++ w, l⟩ = .ok (ts, last)) :
    tokens closing d ⟨u ++ w, o + k⟩ = .ok (.mk (.text ps) (n + k) :: ts, last) := by
  have again := skipTrivia_replace (u := '"' :: (v ++ b)) skipped (by simp) hw k
  rw [Nat.add_right_comm] at read
  refine tokens_iff.2 (.text again read ?_ more)
  have skipped := skipTrivia_length skipped
  simp only [List.length_cons, List.length_append] at skipped ⊢
  omega

end Steps

-- Of the text `a ++ t` the part `a` is the own one: reading ends in it, with `v` of it left. The
-- rest `t` makes way for `w`, and all offsets grow by `k`. The induction is on the own text.
mutual

/-- The tokens up to the brace that closes do not hang on what follows it. -/
theorem tokens_replace {d o k : Nat} {a t v w : List Char} {last : Place} {ts : List Spanned}
    (ht : Apart t) (hw : Closing w) (h : tokens true d ⟨a ++ t, o⟩ = .ok (ts, last))
    (left : last.rest = v ++ t) : tokens true d ⟨a ++ w, o + k⟩ =
      .ok (Spanned.shiftAll k ts, ⟨v ++ w, last.offset + k⟩) := by
  cases tokens_iff.1 h with
  | ended off => exact absurd off (by simp)
  | @closed n s on zero skipped =>
    obtain rfl : s = v ++ t := left
    have skipped := skipTrivia_replace (u := '\x7d' :: v) skipped (by simp) hw k
    refine (tokens_iff.2 (.closed rfl zero skipped)).trans ?_
    rw [Nat.add_right_comm]
    rfl
  | @text n s ps r ts last skipped read shorter more =>
    -- The text takes up `x`, and the tokens behind it take up `y`.
    obtain ⟨x, inner⟩ := parts_reaches read
    obtain ⟨y, rest⟩ := tokens_reaches more
    obtain ⟨cs, l⟩ := r
    obtain rfl := rest.whole left
    obtain rfl : s = x ++ (y ++ v) ++ t := inner.rest.trans (List.append_assoc ..).symm
    have size : x.length + (y.length + v.length) < a.length := by
      have := skipTrivia_length skipped
      simp only [List.length_append, List.length_cons] at this
      omega
    have less : y.length + v.length < a.length := Nat.lt_of_le_of_lt (Nat.le_add_left ..) size
    exact tokens_text_replace hw skipped (parts_replace ht hw read rfl)
      (tokens_replace ht hw more left)
  | @lexeme n c s tok m ts last skipped plain inside found more =>
    obtain ⟨y, rest⟩ := tokens_reaches more
    obtain ⟨cs, l, behind⟩ : ∃ cs l, Place.advance ⟨c :: s, n⟩ m = ⟨cs, l⟩ := ⟨_, _, rfl⟩
    rw [behind] at more rest
    obtain rfl := rest.whole left
    have less : y.length + v.length < a.length := lexeme_shorter skipped found behind
    rw [Spanned.shiftAll, Spanned.shift, shift_of_lexeme found]
    exact tokens_lexeme_replace ht hw skipped plain inside found behind
      (tokens_replace (k := k) ht hw more left)
termination_by a.length

/-- The parts of a quoted text do not hang on what follows it. -/
theorem parts_replace {start n o k : Nat} {pending : List Char} {started : Bool}
    {a t v w : List Char} {last : Place} {ps : List Part} (ht : Apart t) (hw : Closing w)
    (h : parts (.quoted start) pending started ⟨a ++ t, o⟩ = .ok (ps, last))
    (left : last.rest = v ++ t) : parts (.quoted n) pending started ⟨a ++ w, o + k⟩ =
      .ok (Part.shiftAll k ps, ⟨v ++ w, last.offset + k⟩) := by
  cases parts_iff.1 h with
  | ended bare => exact absurd bare (by simp)
  | @quote _ m s quoted same =>
    obtain rfl : s = v ++ t := left
    obtain ⟨text, rfl⟩ := Place.mk.inj same
    obtain rfl : a = '"' :: v := List.append_cancel_right text
    refine (parts_iff.2 (.quote rfl rfl)).trans ?_
    rw [Nat.add_right_comm, shiftAll_finish]
    rfl
  | @dollar m s ps last same more =>
    obtain ⟨y, rest⟩ := parts_reaches more
    obtain ⟨text, rfl⟩ := Place.mk.inj same
    have inner := rest.whole left
    rw [inner] at more text
    have whole : a = '$' :: '$' :: '\x7b' :: (y ++ v) := List.append_cancel_right text
    have less : y.length + v.length < a.length := by simp [whole]; omega
    have more := parts_replace (n := n) (k := k) ht hw more left
    rw [Nat.add_right_comm] at more
    rw [whole]
    exact parts_iff.2 (.dollar rfl more)
  | @interpolation m s ts r ps last same read shorter more =>
    obtain ⟨x, inner⟩ := tokens_reaches read
    obtain ⟨y, rest⟩ := parts_reaches more
    obtain ⟨cs, l⟩ := r
    obtain rfl := rest.whole left
    obtain rfl : s = x ++ (y ++ v ++ t) := inner.rest
    obtain ⟨text, rfl⟩ := Place.mk.inj same
    rw [← List.append_assoc x] at text read
    have whole : a = '$' :: '\x7b' :: (x ++ (y ++ v)) := List.append_cancel_right text
    have size : x.length + (y.length + v.length) < a.length := by simp [whole]
    have less : y.length + v.length < a.length := Nat.lt_of_le_of_lt (Nat.le_add_left ..) size
    have read := tokens_replace (k := k) ht hw read rfl
    have more := parts_replace (n := n) (k := k) ht hw more left
    rw [Nat.add_right_comm, List.append_assoc x] at read
    rw [shiftAll_interpolation, whole, source_append, List.cons_append, List.cons_append,
      List.append_assoc x]
    exact parts_interpolation read more
  | @escaped start m e s c ps last quoted same read more =>
    obtain ⟨y, rest⟩ := parts_reaches more
    obtain ⟨text, rfl⟩ := Place.mk.inj same
    -- The escape stays inside the text, so its characters are the same whatever follows.
    have behind : s.drop e = y ++ v ++ t := rest.whole left
    have length : (s.take e).length = e := by
      rw [List.length_take]
      exact Nat.min_eq_left (escape_bounds read)
    have inner := List.take_append_drop e s
    rw [behind] at inner
    generalize s.take e = x at length inner
    subst length inner
    rw [← List.append_assoc, ← List.cons_append] at text
    have whole : a = '\\' :: (x ++ (y ++ v)) := List.append_cancel_right text
    have less : y.length + v.length < a.length := by simp [whole]
    rw [advance_append] at more
    have more := parts_replace (n := n) (k := k) ht hw more left
    have read := escape_replace read (y ++ v ++ w) (o + k + 1)
    rw [whole, List.cons_append, List.append_assoc x]
    refine parts_iff.2 (.escaped rfl rfl read ?_)
    rw [advance_append, Nat.add_right_comm o, Nat.add_right_comm]
    exact more
  | @plain m c s ps last same nodollar nobrace noquote more =>
    obtain ⟨y, rest⟩ := parts_reaches more
    obtain ⟨text, rfl⟩ := Place.mk.inj same
    have inner := rest.whole left
    rw [inner] at more text nodollar nobrace
    have whole : a = c :: (y ++ v) := List.append_cancel_right text
    have less : y.length + v.length < a.length := by simp [whole]
    have more := parts_replace (n := n) (k := k) ht hw more left
    rw [Nat.add_right_comm] at more
    rw [whole]
    -- Neither `t` nor `w` makes up for the end of what begins an interpolation.
    have dollar := take_append_apart (m := ['$', '$', '\x7b']) ht hw.apart (c :: (y ++ v))
      (by simp [Separates])
    have brace := take_append_apart (m := ['$', '\x7b']) ht hw.apart (c :: (y ++ v))
      (by simp [Separates])
    exact parts_iff.2 (.plain rfl (dollar.not.1 nodollar) (brace.not.1 nobrace)
      (fun _ => noquote (by simp)) more)
termination_by a.length

end

/-! ### The brace that closes -/

theorem Apart.of_lineComment (h : LineComment s) : Apart s := by
  intro c first
  obtain ⟨s, rfl⟩ := List.head?_eq_some_iff.1 first
  rcases lineCommentNext_cons h.next with rfl | rfl <;> decide

/-- A token that opens a bracket. -/
def Token.opens : Token → Bool
  | .mark m => m.opens
  | _ => false

/-- A token that closes a bracket. -/
def Token.closes : Token → Bool
  | .mark m => m.closes
  | _ => false

/-- Tokens inside some brackets that are open close just these: none closes a bracket that is not
    open, and none is open at the end. -/
def Closes : Nat → List Spanned → Prop
  | d, [] => d = 0
  | d, .mk t _ :: rest => (t.closes → 0 < d) ∧ Closes (depthBehind d t) rest

/-- Tokens whose brackets match may be put in braces, unless a comment goes on to the end of the
    line. -/
theorem tokens_close {ts : List Spanned} {last : Place}
    (h : tokens false d ⟨s, o⟩ = .ok (ts, last)) (closes : Closes d ts) :
    (∀ k t, tokens true d ⟨s ++ '\x7d' :: t, o + k⟩ =
      .ok (Spanned.shiftAll k ts, ⟨t, last.offset + k + 1⟩)) ∨
    ∃ before comment, s = before ++ comment ∧ LineComment comment ∧
      ∃ r, tokens false d ⟨before, o⟩ = .ok r := by
  induction size : s.length using Nat.strong_induction_on generalizing s o d ts with
  | _ n ih =>
  cases tokens_iff.1 h with
  | @ended l _ skipped =>
    obtain rfl : d = 0 := closes
    obtain ⟨a, reach, trivia⟩ := trivia_of_skipTrivia skipped
    obtain rfl : s = a := reach.rest.trans (List.append_nil a)
    obtain rfl : l = o + bytes s := reach.offset
    -- Only a comment at the very end takes in a brace behind it.
    rcases trivia.close with brace | ⟨before, comment, whole, line, kept⟩
    · refine .inl fun k t => ?_
      have step := tokens_iff.2 (.closed rfl rfl (skipTrivia_of_trivia (brace t) (o + k)))
      rwa [Nat.add_right_comm o] at step
    · have again := skipTrivia_of_trivia kept o
      rw [List.append_nil] at again
      exact .inr ⟨before, comment, whole, line, _, tokens_iff.2 (.ended rfl again)⟩
  | closed on => exact absurd on (by simp)
  | @text l a ps r ts last skipped read shorter more =>
    obtain ⟨x, inner⟩ := parts_reaches read
    obtain ⟨b, j⟩ := r
    obtain rfl : a = x ++ b := inner.rest
    rcases ih _ (size ▸ shorter) more closes.2 rfl with
      brace | ⟨before, comment, rfl, line, r, rest⟩
    · refine .inl fun k t => ?_
      rw [← List.append_nil s, ← List.append_nil (x ++ b)] at skipped
      rw [← List.append_nil (x ++ b)] at read
      exact tokens_text_replace (closing_brace t) skipped
        (parts_replace apart_nil (closing_brace t) read (List.append_nil b).symm) (brace k t)
    · -- What stands before the comment is read as it was with the comment behind it.
      obtain ⟨a, reach, -⟩ := trivia_of_skipTrivia skipped
      obtain rfl : s = a ++ '"' :: (x ++ before) ++ comment := by simpa using reach.rest
      rw [← List.append_assoc x] at skipped read
      have rest : tokens false d ⟨before ++ [], j + 0⟩ = .ok (r.1, r.2) := by simpa using rest
      have again := tokens_text_replace closing_nil skipped
        (parts_replace (.of_lineComment line) closing_nil read rfl) rest
      rw [List.append_nil, Nat.add_zero] at again
      exact .inr ⟨_, comment, rfl, line, _, again⟩
  | @lexeme l c a tok m ts last skipped plain inside found more =>
    obtain ⟨b, j, behind⟩ : ∃ b j, Place.advance ⟨c :: a, l⟩ m = ⟨b, j⟩ := ⟨_, _, rfl⟩
    rw [behind] at more
    have shorter : b.length < n := by
      have skipped := skipTrivia_length skipped
      have bounds := lexeme?_bounds found
      have left := congrArg (·.rest.length) behind
      simp only [Place.advance, List.length_drop] at skipped left
      omega
    rcases ih b.length shorter more closes.2 rfl with brace | ⟨before, comment, rfl, line, r, rest⟩
    · refine .inl fun k t => ?_
      rw [← List.append_nil s] at skipped
      rw [← List.append_nil b] at behind
      rw [Spanned.shiftAll, Spanned.shift, shift_of_lexeme found]
      refine tokens_lexeme_replace apart_nil (closing_brace t) skipped plain ?_ found behind
        (brace k t)
      -- The brace that ends the expression is not taken for one of its own.
      rintro ⟨-, zero, rfl⟩
      cases found
      exact absurd (closes.1 rfl) (by simp [zero])
    · obtain ⟨a', reach, -⟩ := trivia_of_skipTrivia skipped
      obtain ⟨x, rfl⟩ : ∃ x, s = x ++ (before ++ comment) := by
        have left := List.take_append_drop m (c :: a)
        rw [show (c :: a).drop m = _ from congrArg Place.rest behind] at left
        exact ⟨a' ++ (c :: a).take m, by rw [List.append_assoc, left]; exact reach.rest⟩
      rw [← List.append_assoc] at skipped
      have rest : tokens false (depthBehind d tok) ⟨before ++ [], j + 0⟩ = .ok (r.1, r.2) := by
        simpa using rest
      have again := tokens_lexeme_replace (.of_lineComment line) closing_nil skipped plain inside
        found behind rest
      rw [List.append_nil, Nat.add_zero] at again
      exact .inr ⟨x ++ before, comment, (List.append_assoc ..).symm, line, _, again⟩

end Cartograph.Expression

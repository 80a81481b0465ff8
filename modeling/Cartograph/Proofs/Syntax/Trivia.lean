import Mathlib
import Cartograph.Expression.Lexer

/-!
# Blanks and comments

What stands between tokens is a run of blanks and comments (`Trivia`), and `skipTrivia` goes past
just that (`skipTrivia_eq_ok_iff`). Only its end hangs on what follows: a comment that goes to the
end of the line goes on where no new line begins (`Trivia.replace`, `Trivia.close`).
-/

namespace Cartograph.Expression

variable {p q r : Place} {s t u w : List Char} {o n : Nat} {c : Char}

/-! ### Places -/

@[simp]
theorem bytes_nil : bytes [] = 0 := rfl

@[simp]
theorem bytes_cons : bytes (c :: s) = c.utf8Size + bytes s := rfl

@[simp]
theorem bytes_append (s t : List Char) : bytes (s ++ t) = bytes s + bytes t := by
  induction s with
  | nil => exact (Nat.zero_add _).symm
  | cons c s ih => rw [List.cons_append, bytes_cons, ih, bytes_cons, Nat.add_assoc]

/-- A place is reached from another one by reading a text. -/
structure Reaches (p : Place) (u : List Char) (q : Place) : Prop where
  rest : p.rest = u ++ q.rest
  offset : q.offset = p.offset + bytes u

theorem Reaches.refl (p : Place) : Reaches p [] p := ⟨rfl, rfl⟩

theorem Reaches.trans (h : Reaches p u q) (h' : Reaches q w r) : Reaches p (u ++ w) r where
  rest := by rw [h.rest, h'.rest, List.append_assoc]
  offset := by rw [h'.offset, h.offset, bytes_append, Nat.add_assoc]

theorem Reaches.eq (h : Reaches p u q) : q = ⟨q.rest, p.offset + bytes u⟩ := by
  rw [← h.offset]

theorem Reaches.length_le (h : Reaches p u q) : q.rest.length ≤ p.rest.length := by
  rw [h.rest, List.length_append]
  exact Nat.le_add_left ..

theorem Reaches.length_lt (h : Reaches p u q) (some : u ≠ []) :
    q.rest.length < p.rest.length := by
  rw [h.rest, List.length_append]
  exact Nat.lt_add_of_pos_left (List.length_pos_of_ne_nil some)

theorem reaches_advance (p : Place) (n : Nat) : Reaches p (p.rest.take n) (p.advance n) :=
  ⟨(List.take_append_drop n p.rest).symm, rfl⟩

theorem advance_append (u s : List Char) (o : Nat) :
    Place.advance ⟨u ++ s, o⟩ u.length = ⟨s, o + bytes u⟩ := by
  rw [Place.advance, List.drop_left, List.take_left]

/-! ### Comments -/

theorem commentLength?_append (h : commentLength? w = some w.length) (s : List Char) :
    commentLength? (w ++ s) = some w.length := by
  fun_induction commentLength? w with
  | case1 rest =>
    obtain rfl : rest = [] := List.eq_nil_of_length_eq_zero (by simpa using h.symm)
    rfl
  | case2 c rest other ih =>
    obtain ⟨n, inner, same⟩ := Option.map_eq_some_iff.1 h
    have inside := ih (by rw [inner, Nat.succ.inj same])
    rw [List.cons_append, commentLength?, inside]
    · rfl
    · intro tail star slash
      cases rest with
      | nil => exact absurd inner (by simp [commentLength?])
      | cons d rest => exact other rest star (by rw [(List.cons.inj slash).1])
  | case3 => exact absurd h (by simp)

theorem commentLength?_take (h : commentLength? s = some n) :
    n ≤ s.length ∧ commentLength? (s.take n) = some n := by
  fun_induction commentLength? s generalizing n with
  | case1 rest =>
    obtain rfl := Option.some.inj h
    exact ⟨by simp, rfl⟩
  | case2 c rest other ih =>
    obtain ⟨m, inner, rfl⟩ := Option.map_eq_some_iff.1 h
    obtain ⟨le, again⟩ := ih inner
    refine ⟨Nat.succ_le_succ le, ?_⟩
    rw [List.take_succ_cons, commentLength?, again]
    · rfl
    · intro tail star slash
      have front := List.take_append_drop m rest
      rw [slash, List.cons_append] at front
      exact other _ star front.symm
  | case3 => exact absurd h (by simp)

theorem lineCommentNext_cons (h : lineCommentNext (c :: s) = true) : c = '#' ∨ c = '/' := by
  unfold lineCommentNext at h
  split at h
  · next same => exact .inl (List.cons.inj same).1
  · next same => exact .inr (List.cons.inj same).1
  · exact absurd h (by simp)

theorem lineCommentNext_append (h : lineCommentNext w = true) (s : List Char) :
    lineCommentNext (w ++ s) = true := by
  unfold lineCommentNext at h
  split at h
  · rfl
  · rfl
  · exact absurd h (by simp)

/-! ### Trivia -/

/-- Neither a blank nor a comment begins here. -/
def Stops (s : List Char) : Prop :=
  ∀ c ∈ s.head?, Text.isBlank c = false ∧ lineCommentNext s = false ∧ s.take 2 ≠ ['/', '*']

/-- Nothing is left, or nothing of the line. -/
def LineEnds (s : List Char) : Prop := ∀ c ∈ s.head?, c = '\n'

/-- A place behind the rest of a line. -/
theorem skip_line (s : List Char) (o : Nat) : ∃ w t, s = w ++ t ∧ '\n' ∉ w ∧ LineEnds t ∧
    (lineCommentNext s = true → lineCommentNext w = true) ∧
      Place.skip ⟨s, o⟩ (· ≠ '\n') = ⟨t, o + bytes w⟩ := by
  refine ⟨s.takeWhile (· ≠ '\n'), s.dropWhile (· ≠ '\n'), List.takeWhile_append_dropWhile.symm, ?_,
    ?_, ?_, ?_⟩
  · intro inside
    simpa using List.mem_takeWhile_imp inside
  · intro c first
    have stopped := List.head?_dropWhile_not (· ≠ '\n') s
    rw [Option.mem_def.1 first] at stopped
    simpa using stopped
  · intro next
    unfold lineCommentNext at next
    split at next
    · simp [lineCommentNext]
    · simp [lineCommentNext]
    · exact absurd next (by simp)
  · have behind := advance_append (s.takeWhile (· ≠ '\n')) (s.dropWhile (· ≠ '\n')) o
    rwa [List.takeWhile_append_dropWhile] at behind

theorem takeWhile_line (inside : '\n' ∉ w) (ends : LineEnds s) :
    (w ++ s).takeWhile (· ≠ '\n') = w := by
  induction w with
  | nil =>
    cases s with
    | nil => rfl
    | cons c s => simp [ends c rfl]
  | cons c w ih =>
    obtain ⟨first, others⟩ := not_or.1 (List.mem_cons.not.1 inside)
    rw [List.cons_append, List.takeWhile_cons_of_pos (by simpa using Ne.symm first), ih others]

/-- Blanks and comments that end where a text begins. -/
inductive Trivia : List Char → List Char → Prop
  | done {s : List Char} : Stops s → Trivia [] s
  | blank {c : Char} {t s : List Char} : Text.isBlank c = true → Trivia t s → Trivia (c :: t) s
  | line {w t s : List Char} : lineCommentNext w = true → '\n' ∉ w → LineEnds (t ++ s) →
      Trivia t s → Trivia (w ++ t) s
  | block {w t s : List Char} : commentLength? w = some w.length → Trivia t s →
      Trivia ('/' :: '*' :: (w ++ t)) s

theorem skipTrivia_cons (c : Char) (s : List Char) (o : Nat) : skipTrivia ⟨c :: s, o⟩ =
    if Text.isBlank c then skipTrivia ⟨s, o + c.utf8Size⟩
    else if lineCommentNext (c :: s) then skipTrivia (Place.skip ⟨c :: s, o⟩ (· ≠ '\n'))
    else if (c :: s).take 2 = ['/', '*'] then
      match commentLength? ((c :: s).drop 2) with
      | none => .error ⟨.unterminatedComment, o⟩
      | some n => skipTrivia (Place.advance ⟨c :: s, o⟩ (n + 2))
    else .ok ⟨c :: s, o⟩ := by
  have shorter (n : Nat) (pos : 0 < n) :
      (Place.advance ⟨c :: s, o⟩ n).rest.length < (c :: s).length := by
    rw [Place.advance, List.length_drop, List.length_cons]
    omega
  rw [skipTrivia.eq_def]
  dsimp only
  by_cases blank : Text.isBlank c = true
  · rw [if_pos blank, if_pos blank]
  rw [if_neg blank, if_neg blank]
  by_cases line : lineCommentNext (c :: s) = true
  · rw [if_pos line, if_pos line]
    refine dif_pos (shorter _ (List.length_pos_of_ne_nil fun none => ?_))
    have first : c ≠ '\n' := by
      rintro rfl
      exact absurd line (by simp [lineCommentNext])
    exact absurd none (by simp [first])
  rw [if_neg line, if_neg line]
  by_cases block : (c :: s).take 2 = ['/', '*']
  · rw [if_pos block, if_pos block]
    cases commentLength? ((c :: s).drop 2) with
    | none => rfl
    | some n => exact dif_pos (shorter _ (Nat.succ_pos _))
  · rw [if_neg block, if_neg block]

/-- Trivia are gone past. -/
theorem skipTrivia_of_trivia (h : Trivia t s) (o : Nat) :
    skipTrivia ⟨t ++ s, o⟩ = .ok ⟨s, o + bytes t⟩ := by
  induction h generalizing o with
  | @done s stops =>
    rw [List.nil_append]
    cases s with
    | nil =>
      rw [skipTrivia.eq_def]
      rfl
    | cons c s =>
      obtain ⟨plain, line, block⟩ := stops c rfl
      rw [skipTrivia_cons, if_neg (by simp [plain]), if_neg (by simp [line]), if_neg block]
      rfl
  | blank blank _ ih =>
    rw [List.cons_append, skipTrivia_cons, if_pos blank, ih, bytes_cons, Nat.add_assoc]
  | @line w t s next inside ends _ ih =>
    rw [List.append_assoc, bytes_append, ← Nat.add_assoc, ← ih]
    cases w with
    | nil => exact absurd next (by simp [lineCommentNext])
    | cons c w =>
      have plain : Text.isBlank c = false := by
        rcases lineCommentNext_cons next with rfl | rfl <;> decide
      rw [List.cons_append, skipTrivia_cons, if_neg (by simp [plain]), ← List.cons_append,
        if_pos (lineCommentNext_append next _), Place.skip, takeWhile_line inside ends,
        advance_append]
  | @block w t s length _ ih =>
    have whole : commentLength? (w ++ t ++ s) = some w.length := by
      rw [List.append_assoc]
      exact commentLength?_append length _
    have behind := advance_append ('/' :: '*' :: w) (t ++ s) o
    have two : ('/' :: ('*' :: (w ++ t) ++ s)).take 2 = ['/', '*'] := rfl
    have inner : ('/' :: ('*' :: (w ++ t) ++ s)).drop 2 = w ++ t ++ s := rfl
    rw [List.cons_append, skipTrivia_cons, if_neg (by decide), if_neg (by simp [lineCommentNext]),
      if_pos two, inner, whole]
    dsimp only
    rw [List.cons_append, List.append_assoc]
    refine (congrArg skipTrivia behind).trans ?_
    rw [ih, ← List.cons_append, ← List.cons_append, bytes_append, Nat.add_assoc]

/-- What is gone past is trivia. -/
theorem trivia_of_skipTrivia (h : skipTrivia p = .ok q) :
    ∃ t, Reaches p t q ∧ Trivia t q.rest := by
  obtain ⟨cs, o⟩ := p
  induction size : cs.length using Nat.strong_induction_on generalizing cs o with
  | _ n ih =>
    cases cs with
    | nil =>
      rw [skipTrivia.eq_def] at h
      cases h
      exact ⟨[], .refl _, .done (by simp [Stops])⟩
    | cons c s =>
      rw [skipTrivia_cons] at h
      split_ifs at h with blank line block
      · obtain ⟨t, reach, trivia⟩ := ih s.length (by simp [← size]) s _ h rfl
        have first : Reaches ⟨c :: s, o⟩ [c] ⟨s, o + c.utf8Size⟩ := ⟨rfl, rfl⟩
        exact ⟨c :: t, first.trans reach, .blank blank trivia⟩
      · obtain ⟨w, rest, whole, inside, ends, next, behind⟩ := skip_line (c :: s) o
        rw [behind] at h
        have shorter : rest.length < n := by
          have : w ≠ [] := by
            rintro rfl
            exact absurd (next line) (by simp [lineCommentNext])
          have := List.length_pos_of_ne_nil this
          rw [← size, whole, List.length_append]
          omega
        obtain ⟨t, reach, trivia⟩ := ih rest.length shorter rest _ h rfl
        have first : Reaches ⟨c :: s, o⟩ w ⟨rest, o + bytes w⟩ := ⟨whole, rfl⟩
        refine ⟨w ++ t, first.trans reach, .line (next line) inside ?_ trivia⟩
        rwa [← reach.rest]
      · split at h
        · exact absurd h (by simp)
        · next m length =>
          obtain ⟨le, again⟩ := commentLength?_take length
          have shorter : ((c :: s).drop (m + 2)).length < n := by
            rw [List.length_drop, size]
            have : 0 < n := by simp [← size]
            omega
          obtain ⟨t, reach, trivia⟩ := ih _ shorter _ _ h rfl
          have first := (reaches_advance ⟨c :: s, o⟩ (m + 2)).trans reach
          have text : (c :: s).take (m + 2) = '/' :: '*' :: ((c :: s).drop 2).take m := by
            rw [Nat.add_comm, List.take_add, block]
            rfl
          refine ⟨_, first, ?_⟩
          dsimp only
          rw [text]
          refine .block ?_ trivia
          rw [again, List.length_take, Nat.min_eq_left le]
      · cases h
        exact ⟨[], .refl _, .done fun d same => by
          cases Option.some.inj same
          exact ⟨by simpa using blank, by simpa using line, block⟩⟩

theorem skipTrivia_eq_ok_iff :
    skipTrivia p = .ok q ↔ ∃ t, Reaches p t q ∧ Trivia t q.rest := by
  refine ⟨trivia_of_skipTrivia, ?_⟩
  rintro ⟨t, reach, trivia⟩
  rw [reach.eq, ← skipTrivia_of_trivia trivia, ← reach.rest]

/-! ### What follows -/

/-- A comment that goes on where no new line begins. -/
structure LineComment (s : List Char) : Prop where
  next : lineCommentNext s = true
  inside : '\n' ∉ s

/-- What a brace may close: nothing is left, or the brace comes next. -/
def Closing (s : List Char) : Prop := ∀ c ∈ s.head?, c = '\x7d'

theorem lineCommentNext_iff :
    lineCommentNext (c :: s) = true ↔ c = '#' ∨ c = '/' ∧ s.head? = some '/' := by
  unfold lineCommentNext
  split
  · next same => simp [(List.cons.inj same).1]
  · next same => simp [(List.cons.inj same).1, (List.cons.inj same).2]
  · next hash slash =>
    refine iff_of_false (by simp) ?_
    rintro (rfl | ⟨rfl, first⟩)
    · exact hash s rfl
    · obtain ⟨rest, rfl⟩ := List.head?_eq_some_iff.1 first
      exact slash rest rfl

theorem stops_cons_iff : Stops (c :: s) ↔ Text.isBlank c = false ∧ c ≠ '#' ∧
    (c = '/' → s.head? ≠ some '/' ∧ s.head? ≠ some '*') := by
  have block : (c :: s).take 2 = ['/', '*'] ↔ c = '/' ∧ s.head? = some '*' := by
    cases s <;> simp
  unfold Stops
  rw [List.head?_cons, ← Bool.not_eq_true (lineCommentNext _), lineCommentNext_iff, Ne, block]
  simp only [Option.mem_def, Option.some.injEq, forall_eq']
  tauto

theorem Stops.replace (h : Stops (u ++ s)) (some : u ≠ []) (closing : Closing t) :
    Stops (u ++ t) := by
  obtain ⟨c, u, rfl⟩ := List.exists_cons_of_ne_nil some
  obtain ⟨plain, hash, slash⟩ := stops_cons_iff.1 h
  refine stops_cons_iff.2 ⟨plain, hash, fun same => ?_⟩
  cases u with
  | cons d u => exact slash same
  | nil => exact ⟨fun first => absurd (closing _ first) (by decide),
      fun first => absurd (closing _ first) (by decide)⟩

/-- Trivia before some text are trivia whatever a brace follows that text. -/
theorem Trivia.replace (h : Trivia t (u ++ s)) (some : u ≠ []) (closing : Closing w) :
    Trivia t (u ++ w) := by
  generalize same : u ++ s = v at h
  induction h with
  | done stops => exact .done (.replace (same ▸ stops) some closing)
  | blank blank _ ih => exact .blank blank (ih same)
  | @line l t v next inside ends _ ih =>
    refine .line next inside ?_ (ih same)
    subst same
    intro c first
    refine ends c ?_
    obtain ⟨d, u, rfl⟩ := List.exists_cons_of_ne_nil some
    cases t <;> exact first
  | block length _ ih => exact .block length (ih same)

/-- Behind trivia at the end a brace may close, unless they end in a comment to the end of the
    line. -/
theorem Trivia.close (h : Trivia t []) : (∀ s, Trivia t ('\x7d' :: s)) ∨
    ∃ before comment, t = before ++ comment ∧ LineComment comment ∧ Trivia before [] := by
  generalize same : [] = v at h
  induction h with
  | done stops =>
    exact .inl fun s => .done (stops_cons_iff.2 ⟨by decide, by decide, fun same => by cases same⟩)
  | @blank c t v blank _ ih =>
    obtain brace | ⟨before, comment, rfl, line, trivia⟩ := ih same
    · exact .inl fun s => .blank blank (brace s)
    · exact .inr ⟨c :: before, comment, rfl, line, .blank blank trivia⟩
  | @line l t v next inside ends trivia ih =>
    subst same
    rw [List.append_nil] at ends
    cases t with
    | nil => exact .inr ⟨[], l, List.append_nil l, ⟨next, inside⟩, trivia⟩
    | cons c t =>
      obtain rfl := ends c rfl
      obtain brace | ⟨before, comment, whole, line, kept⟩ := ih rfl
      · exact .inl fun s => .line next inside (fun d first => ends d first) (brace s)
      · -- No comment begins with the line break.
        cases before with
        | nil =>
          rw [List.nil_append] at whole
          exact absurd line.next (by simp [← whole, lineCommentNext])
        | cons d before =>
          obtain ⟨rfl, rfl⟩ := List.cons.inj whole
          exact .inr ⟨l ++ '\n' :: before, comment, by simp, line,
            .line next inside (fun d first => ends d first) kept⟩
  | @block l t v length _ ih =>
    obtain brace | ⟨before, comment, rfl, line, trivia⟩ := ih same
    · exact .inl fun s => .block length (brace s)
    · exact .inr ⟨'/' :: '*' :: (l ++ before), comment, by simp, line, .block length trivia⟩

end Cartograph.Expression

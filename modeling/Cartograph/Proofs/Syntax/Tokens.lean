import Mathlib
import Cartograph.Proofs.Syntax.Lexemes
import Cartograph.Proofs.Syntax.Trivia

/-!
# Tokens and parts of templates

Reading tokens, or the parts of a template, comes to what its first step says (`TokensStep`,
`PartsStep`): one case for each thing that may come next, with what is read behind it. A case goes
with its text, so these are used to read a text whose shape is known as well as to take apart what
has been read (`tokens_iff`, `parts_iff`).

The tests by which the readers are bounded never fail, since nothing is read twice
(`tokens_shrinks`).
-/

namespace Cartograph.Expression

variable {p q r last : Place} {s t u w : List Char} {o d n : Nat} {c : Char}
  {closing started : Bool} {frame : Frame} {pending : List Char} {ts : List Spanned}
  {ps : List Part}

/-! ### Steps -/

/-- What reading tokens comes to, by what comes next. -/
inductive TokensStep (closing : Bool) (d : Nat) (p : Place) : List Spanned → Place → Prop
  | ended {o : Nat} : closing = false → skipTrivia p = .ok ⟨[], o⟩ →
      TokensStep closing d p [] ⟨[], o⟩
  | closed {o : Nat} {s : List Char} : closing = true → d = 0 →
      skipTrivia p = .ok ⟨'\x7d' :: s, o⟩ → TokensStep closing d p [] ⟨s, o + 1⟩
  | text {o : Nat} {s : List Char} {ps : List Part} {r : Place} {ts : List Spanned} {last : Place} :
      skipTrivia p = .ok ⟨'"' :: s, o⟩ → parts (.quoted o) [] false ⟨s, o + 1⟩ = .ok (ps, r) →
      r.rest.length < p.rest.length → tokens closing d r = .ok (ts, last) →
      TokensStep closing d p (.mk (.text ps) o :: ts) last
  | lexeme {o : Nat} {c : Char} {s : List Char} {t : Token} {n : Nat} {ts : List Spanned}
      {last : Place} : skipTrivia p = .ok ⟨c :: s, o⟩ → c ≠ '"' →
      ¬(closing = true ∧ d = 0 ∧ c = '\x7d') → lexeme? (c :: s) = some (t, n) →
      tokens closing (depthBehind d t) (Place.advance ⟨c :: s, o⟩ n) = .ok (ts, last) →
      TokensStep closing d p (.mk t o :: ts) last

theorem tokensStep_of_tokens (h : tokens closing d p = .ok (ts, last)) :
    TokensStep closing d p ts last := by
  rw [tokens.eq_def] at h
  split at h
  · exact absurd h (by simp)
  · next q skipped =>
    obtain ⟨rest, o⟩ := q
    dsimp only at h
    split at h
    · split at h
      · exact absurd h (by simp [Place.fault])
      · next off =>
        cases h
        exact .ended (by simpa using off) skipped
    · next c s =>
      split at h
      · next close =>
        cases h
        simp only [Bool.and_eq_true, beq_iff_eq] at close
        obtain ⟨⟨on, zero⟩, rfl⟩ := close
        exact .closed on zero skipped
      · next inside =>
        simp only [Bool.and_eq_true, beq_iff_eq, and_assoc] at inside
        split at h
        · next quote =>
          subst quote
          split at h
          · split at h
            · exact absurd h (by simp)
            · next ps r read =>
              split at h
              · next shorter =>
                split at h
                · exact absurd h (by simp)
                · next ts last more =>
                  cases h
                  exact .text skipped read shorter more
              · exact absurd h (by simp [Place.fault])
          · exact absurd h (by simp [Place.fault])
        · next plain =>
          split at h
          · exact absurd h (by simp [Place.fault])
          · next t n found =>
            split at h
            · split at h
              · exact absurd h (by simp)
              · next ts last more =>
                cases h
                exact .lexeme skipped plain inside found more
            · exact absurd h (by simp [Place.fault])

theorem skipTrivia_length (h : skipTrivia p = .ok q) : q.rest.length ≤ p.rest.length := by
  obtain ⟨t, reach, -⟩ := trivia_of_skipTrivia h
  exact reach.length_le

theorem tokens_of_step (h : TokensStep closing d p ts last) :
    tokens closing d p = .ok (ts, last) := by
  rw [tokens.eq_def]
  cases h with
  | ended off skipped =>
    rw [skipped]
    dsimp only
    rw [off]
    rfl
  | closed on zero skipped =>
    rw [skipped]
    dsimp only
    rw [on, zero]
    rfl
  | @text o s ps r ts last skipped read shorter more =>
    have behind : (Place.advance ⟨'"' :: s, o⟩ 1).rest.length < p.rest.length :=
      Nat.lt_of_lt_of_le (Nat.lt_succ_self _) (skipTrivia_length skipped)
    rw [skipped]
    dsimp only
    rw [if_neg (by simp), if_pos rfl, dif_pos behind]
    have place : Place.advance ⟨'"' :: s, o⟩ 1 = ⟨s, o + 1⟩ := rfl
    rw [place, read]
    dsimp only
    rw [dif_pos shorter, more]
  | @lexeme o c s t n ts last skipped plain inside found more =>
    have behind : (Place.advance ⟨c :: s, o⟩ n).rest.length < p.rest.length := by
      have some := lexeme?_bounds found
      have skipped := skipTrivia_length skipped
      rw [Place.advance, List.length_drop]
      dsimp only at skipped ⊢
      omega
    rw [skipped]
    dsimp only
    rw [if_neg (by simpa [and_assoc] using inside), if_neg plain, found]
    dsimp only
    rw [dif_pos behind, more]

/-- Tokens are read from what is left. -/
theorem tokens_shrinks (h : tokens closing d p = .ok (ts, last)) :
    last.rest.length ≤ p.rest.length := by
  induction size : p.rest.length using Nat.strong_induction_on generalizing p d ts with
  | _ n ih =>
    cases tokensStep_of_tokens h with
    | ended => exact Nat.zero_le _
    | closed _ _ skipped =>
      have := skipTrivia_length skipped
      rw [List.length_cons] at this
      dsimp only at this ⊢
      omega
    | text _ _ shorter more =>
      have := ih _ (size ▸ shorter) more rfl
      omega
    | @lexeme o c s t m ts last skipped _ _ found more =>
      have some := lexeme?_bounds found
      have skipped := skipTrivia_length skipped
      have shorter : (Place.advance ⟨c :: s, o⟩ m).rest.length < n := by
        rw [Place.advance, List.length_drop]
        dsimp only at skipped ⊢
        omega
      have := ih _ shorter more rfl
      omega

/-- What reading the parts of a template comes to, by what comes next. -/
inductive PartsStep (frame : Frame) (pending : List Char) (started : Bool) (p : Place) :
    List Part → Place → Prop
  | ended {o : Nat} : frame = .bare → p = ⟨[], o⟩ → PartsStep frame pending started p
      (if pending.isEmpty && !started then [.literal ""] else literalPart pending) ⟨[], o⟩
  | quote {start o : Nat} {s : List Char} : frame = .quoted start → p = ⟨'"' :: s, o⟩ →
      PartsStep frame pending started p
        (if pending.isEmpty && !started then [.literal ""] else literalPart pending) ⟨s, o + 1⟩
  | dollar {o : Nat} {s : List Char} {ps : List Part} {last : Place} :
      p = ⟨'$' :: '$' :: '\x7b' :: s, o⟩ →
      parts frame ('\x7b' :: '$' :: pending) started ⟨s, o + 3⟩ = .ok (ps, last) →
      PartsStep frame pending started p ps last
  | interpolation {o : Nat} {s : List Char} {ts : List Spanned} {r : Place} {ps : List Part}
      {last : Place} : p = ⟨'$' :: '\x7b' :: s, o⟩ → tokens true 0 ⟨s, o + 2⟩ = .ok (ts, r) →
      r.rest.length < p.rest.length → parts frame [] true r = .ok (ps, last) →
      PartsStep frame pending started p (literalPart pending ++ .interpolation ts
        (String.ofList (Text.trimChars (s.take (s.length - r.rest.length - 1)))) :: ps) last
  | escaped {start o n : Nat} {s : List Char} {c : Char} {ps : List Part} {last : Place} :
      frame = .quoted start → p = ⟨'\\' :: s, o⟩ → escape ⟨s, o + 1⟩ = .ok (c, n) →
      parts frame (c :: pending) started (Place.advance ⟨s, o + 1⟩ n) = .ok (ps, last) →
      PartsStep frame pending started p ps last
  | plain {o : Nat} {c : Char} {s : List Char} {ps : List Part} {last : Place} :
      p = ⟨c :: s, o⟩ → (c :: s).take 3 ≠ ['$', '$', '\x7b'] → (c :: s).take 2 ≠ ['$', '\x7b'] →
      (frame ≠ .bare → c ≠ '"' ∧ c ≠ '\\') →
      parts frame (c :: pending) started ⟨s, o + c.utf8Size⟩ = .ok (ps, last) →
      PartsStep frame pending started p ps last

theorem partsStep_of_parts (h : parts frame pending started p = .ok (ps, last)) :
    PartsStep frame pending started p ps last := by
  obtain ⟨cs, o⟩ := p
  rw [parts.eq_def] at h
  dsimp only at h
  split at h
  · next dollar =>
    obtain ⟨s, rfl⟩ : ∃ s, cs = '$' :: '$' :: '\x7b' :: s :=
      ⟨cs.drop 3, by rw [← List.take_append_drop 3 cs, dollar]; simp⟩
    split at h
    · exact .dollar rfl h
    · next long => exact absurd (Nat.lt_of_succ_le (Nat.le_add_right _ 2)) long
  · next plain =>
    split at h
    · next brace =>
      obtain ⟨s, rfl⟩ : ∃ s, cs = '$' :: '\x7b' :: s :=
        ⟨cs.drop 2, by rw [← List.take_append_drop 2 cs, brace]; simp⟩
      split at h
      · split at h
        · exact absurd h (by simp)
        · next ts r read =>
          split at h
          · next shorter =>
            split at h
            · exact absurd h (by simp)
            · next ps last more =>
              cases h
              exact .interpolation rfl read shorter more
          · next long =>
            have inner := tokens_shrinks read
            exact absurd (Nat.lt_of_le_of_lt inner (Nat.lt_of_succ_le (Nat.le_add_right _ 1))) long
      · next long => exact absurd (Nat.lt_of_succ_le (Nat.le_add_right _ 1)) long
    · next nobrace =>
      split at h
      · split at h
        · exact absurd h (by simp)
        · cases h
          exact .ended rfl rfl
      · next c s =>
        split at h
        · split at h
          · next bare => exact .plain rfl plain nobrace (fun quoted => absurd bare quoted) h
          · next quoted =>
            obtain ⟨start, rfl⟩ : ∃ start, frame = .quoted start := by
              cases frame with
              | quoted start => exact ⟨start, rfl⟩
              | bare => exact absurd rfl quoted
            split at h
            · next quote =>
              subst quote
              cases h
              exact .quote rfl rfl
            · next noquote =>
              split at h
              · next slash =>
                subst slash
                split at h
                · exact absurd h (by simp)
                · next c n read =>
                  split at h
                  · exact .escaped rfl rfl read h
                  · next long =>
                    have inner : (Place.advance ⟨s, o + '\\'.utf8Size⟩ n).rest.length ≤ s.length :=
                      (reaches_advance ..).length_le
                    exact absurd (Nat.lt_succ_of_le inner) long
              · next noslash => exact .plain rfl plain nobrace (fun _ => ⟨noquote, noslash⟩) h
        · next long => exact absurd (Nat.lt_succ_self _) long

theorem parts_of_step (h : PartsStep frame pending started p ps last) :
    parts frame pending started p = .ok (ps, last) := by
  rw [parts.eq_def]
  cases h with
  | ended bare same =>
    subst bare same
    rfl
  | quote quoted same =>
    subst quoted same
    dsimp only
    refine (if_neg (by simp)).trans ((if_neg (by simp)).trans ?_)
    refine (dif_pos (Nat.lt_succ_self _)).trans ?_
    exact (if_neg (by simp)).trans (if_pos rfl)
  | dollar same more =>
    subst same
    dsimp only
    refine (if_pos rfl).trans ((dif_pos ?_).trans more)
    exact Nat.lt_of_succ_le (Nat.le_add_right _ 2)
  | @interpolation o s ts r ps last same read shorter more =>
    subst same
    have place : Place.advance ⟨'$' :: '\x7b' :: s, o⟩ 2 = ⟨s, o + 2⟩ := rfl
    dsimp only
    refine (if_neg (by simp)).trans ((if_pos rfl).trans ((dif_pos ?_).trans ?_))
    · exact Nat.lt_of_succ_le (Nat.le_add_right _ 1)
    · rw [place, read]
      dsimp only at shorter ⊢
      rw [dif_pos shorter, more]
  | @escaped start o n s c ps last quoted same read more =>
    subst quoted same
    dsimp only
    refine (if_neg (by simp)).trans ((if_neg (by simp)).trans ?_)
    refine (dif_pos (Nat.lt_succ_self _)).trans ?_
    refine (if_neg (by simp)).trans ((if_neg (by simp)).trans ((if_pos rfl).trans ?_))
    have place : ({ rest := s, offset := o + '\\'.utf8Size } : Place) = ⟨s, o + 1⟩ := rfl
    rw [place, read]
    refine (dif_pos ?_).trans more
    exact Nat.lt_succ_of_le (reaches_advance ⟨s, o + 1⟩ n).length_le
  | plain same nodollar nobrace noquote more =>
    subst same
    dsimp only
    refine (if_neg nodollar).trans ((if_neg nobrace).trans ?_)
    refine (dif_pos (Nat.lt_succ_self _)).trans ?_
    by_cases bare : frame = .bare
    · exact (if_pos bare).trans more
    · obtain ⟨quote, slash⟩ := noquote bare
      exact (if_neg bare).trans ((if_neg quote).trans ((if_neg slash).trans more))

theorem tokens_iff : tokens closing d p = .ok (ts, last) ↔ TokensStep closing d p ts last :=
  ⟨tokensStep_of_tokens, tokens_of_step⟩

theorem parts_iff :
    parts frame pending started p = .ok (ps, last) ↔ PartsStep frame pending started p ps last :=
  ⟨partsStep_of_parts, parts_of_step⟩

theorem tokenize_iff {s : String} :
    tokenize s = .ok ts ↔ ∃ last, tokens false 0 ⟨s.toList, 0⟩ = .ok (ts, last) := by
  unfold tokenize Place.start
  cases tokens false 0 ⟨s.toList, 0⟩ with
  | error f => simp [Except.map]
  | ok r =>
    obtain ⟨ts, last⟩ := r
    simp [Except.map]

end Cartograph.Expression

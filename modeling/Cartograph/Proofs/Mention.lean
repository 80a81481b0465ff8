import Mathlib.Data.List.Forall2
import Mathlib.Data.List.Pairwise
import Mathlib.Data.List.ReduceOption
import Mathlib.Data.List.SplitBy
import Cartograph.Mention

/-!
# What a text mentions

A text is read by its maximal runs of identifier characters (`Runs`): there is one way to cut it
into them and what lies between (`runs_iff`). Each run *names* at most one of the known identifiers
that it begins with (`Names`): the longest of those behind which the run ends or a dot comes, and
only if there is none the longest of the others. The identifiers that a text mentions are what its
runs name, in order, and nothing else is (`mentions_eq_iff`).
-/

namespace Cartograph.Mention

variable {known : List NodeId} {run rest cs : List Char} {runs : List (List Char)} {id : NodeId}
  {s : String}

/-! ### Runs -/

/-- The maximal runs of identifier characters in a text, in order. -/
inductive Runs : List Char → List (List Char) → Prop
  | nil : Runs [] []
  | skip {c : Char} {cs : List Char} {runs : List (List Char)} :
      isIdChar c = false → Runs cs runs → Runs (c :: cs) runs
  | run {run rest : List Char} {runs : List (List Char)} :
      run ≠ [] → (∀ c ∈ run, isIdChar c) → (∀ c ∈ rest.head?, isIdChar c = false) →
      Runs rest runs → Runs (run ++ rest) (run :: runs)

/-- Whether two neighbours belong to one word. -/
def joined (a b : Char) : Bool := isIdChar a && isIdChar b

/-- The words of identifier characters in a text. -/
def idWords (cs : List Char) : List (List Char) :=
  (cs.splitBy joined).filter fun w => w.all isIdChar

theorem idWords_skip {c : Char} (other : isIdChar c = false) : idWords (c :: cs) = idWords cs := by
  have apart : ∀ a ∈ [c].getLast?, ∀ b ∈ cs.head?, joined a b = false := by
    intro a last b _
    obtain rfl : c = a := by simpa using last
    rw [joined, other, Bool.false_and]
  have single : [c].splitBy joined = [[c]] :=
    List.splitBy_of_isChain (List.cons_ne_nil _ _) (.singleton c)
  have cut : (c :: cs).splitBy joined = [c] :: cs.splitBy joined := by
    rw [← List.singleton_append, List.splitBy_append apart, single]
    rfl
  rw [idWords, cut, List.filter_cons_of_neg (by simp [other])]
  rfl

theorem idWords_run (some : run ≠ []) (inside : ∀ c ∈ run, isIdChar c)
    (boundary : ∀ c ∈ rest.head?, isIdChar c = false) :
    idWords (run ++ rest) = run :: idWords rest := by
  have apart : ∀ a ∈ run.getLast?, ∀ b ∈ rest.head?, joined a b = false := by
    intro a _ b first
    rw [joined, boundary b first, Bool.and_false]
  have whole : run.splitBy joined = [run] := by
    refine List.splitBy_of_isChain some (List.Pairwise.isChain ?_)
    refine List.pairwise_of_forall_mem_list fun a ha b hb => ?_
    rw [joined, inside a ha, inside b hb, Bool.and_self]
  rw [idWords, List.splitBy_append apart, whole, List.singleton_append,
    List.filter_cons_of_pos (by simpa using inside)]
  rfl

/-- Every text has runs. -/
theorem exists_runs (cs : List Char) : ∃ runs, Runs cs runs := by
  induction h : cs.length using Nat.strongRecOn generalizing cs with
  | _ n ih =>
    subst h
    cases cs with
    | nil => exact ⟨[], .nil⟩
    | cons c cs =>
      -- A run is as long as there are identifier characters, and the runs behind it are shorter.
      by_cases inside : isIdChar c = true
      · obtain ⟨runs, others⟩ := ih (cs.dropWhile isIdChar).length
          (Nat.lt_succ_of_le (List.dropWhile_sublist _).length_le) _ rfl
        have boundary : ∀ d ∈ (cs.dropWhile isIdChar).head?, isIdChar d = false := by
          intro d first
          have := List.head?_dropWhile_not isIdChar cs
          rw [first] at this
          simpa using this
        have word : ∀ d ∈ c :: cs.takeWhile isIdChar, isIdChar d :=
          List.forall_mem_cons.2 ⟨inside, List.all_eq_true.1 List.all_takeWhile⟩
        have run := Runs.run (List.cons_ne_nil _ _) word boundary others
        rw [List.cons_append, List.takeWhile_append_dropWhile] at run
        exact ⟨_, run⟩
      · obtain ⟨runs, others⟩ := ih cs.length (Nat.lt_succ_self _) cs rfl
        exact ⟨runs, .skip (by simpa using inside) others⟩

theorem Runs.eq_idWords (h : Runs cs runs) : runs = idWords cs := by
  induction h with
  | nil => rfl
  | skip other _ ih => rw [ih, idWords_skip other]
  | run some inside boundary _ ih => rw [ih, idWords_run some inside boundary]

/-- A text has its runs in one way only. -/
theorem runs_iff : Runs cs runs ↔ runs = idWords cs := by
  refine ⟨Runs.eq_idWords, ?_⟩
  rintro rfl
  obtain ⟨runs, h⟩ := exists_runs cs
  exact h.eq_idWords ▸ h

/-! ### The identifier that a run names -/

/-- A run begins with a known identifier, and what comes behind it is of a kind. The empty text is
    no identifier. -/
def BeginsWith (known : List NodeId) (run : List Char) (kind : List Char → Prop) (id : NodeId) :
    Prop :=
  id ∈ known ∧ id ≠ "" ∧ ∃ rest, run = id.toList ++ rest ∧ kind rest

/-- Nothing, or a dot first. -/
def Bounded (rest : List Char) : Prop := rest = [] ∨ rest.head? = some '.'

/-- Of the identifiers with a property, none is longer. -/
def IsLongest (P : NodeId → Prop) (id : NodeId) : Prop :=
  P id ∧ ∀ other, P other → other.length ≤ id.length

/-- The identifier that a run names, if any: an identifier behind which a segment ends comes before
    all others, and then the longer one. -/
inductive Names (known : List NodeId) (run : List Char) : Option NodeId → Prop
  | whole {id : NodeId} : IsLongest (BeginsWith known run Bounded) id → Names known run (some id)
  | part {id : NodeId} : (∀ other, ¬BeginsWith known run Bounded other) →
      IsLongest (BeginsWith known run fun rest => ¬Bounded rest) id → Names known run (some id)
  | none : (∀ other, ¬BeginsWith known run Bounded other) →
      (∀ other, ¬BeginsWith known run (fun rest => ¬Bounded rest) other) → Names known run none

/-- Beginnings of one run that are equally long are the same. -/
theorem IsLongest.unique {kind : List Char → Prop} {other : NodeId}
    (h : IsLongest (BeginsWith known run kind) id)
    (h' : IsLongest (BeginsWith known run kind) other) : id = other := by
  have length : id.toList.length = other.toList.length :=
    Nat.le_antisymm (h'.2 id h.1) (h.2 other h'.1)
  obtain ⟨-, -, rest, shape, -⟩ := h.1
  obtain ⟨-, -, rest', shape', -⟩ := h'.1
  exact String.toList_inj.1 (List.append_inj_left (shape.symm.trans shape') length)

theorem Names.unique {a b : Option NodeId} (h : Names known run a) (h' : Names known run b) :
    a = b := by
  cases h with
  | whole longest =>
    cases h' with
    | whole longest' => exact congrArg some (longest.unique longest')
    | part nowhere => exact absurd longest.1 (nowhere _)
    | none nowhere => exact absurd longest.1 (nowhere _)
  | part nowhere longest =>
    cases h' with
    | whole longest' => exact absurd longest'.1 (nowhere _)
    | part _ longest' => exact congrArg some (longest.unique longest')
    | none _ nothing => exact absurd longest.1 (nothing _)
  | none nowhere nothing =>
    cases h' with
    | whole longest' => exact absurd longest'.1 (nowhere _)
    | part _ longest' => exact absurd longest'.1 (nothing _)
    | none => rfl

/-! ### The search within a run -/

theorem mem_beginnings {done start : List Char} : (start, rest) ∈ beginnings done run ↔
    ∃ taken, taken ≠ [] ∧ run = taken ++ rest ∧ start = done ++ taken := by
  induction run generalizing done with
  | nil => simp [beginnings]
  | cons c run ih =>
    rw [beginnings, List.mem_cons, ih]
    constructor
    · rintro (same | ⟨taken, -, rfl, rfl⟩)
      · obtain ⟨rfl, rfl⟩ := Prod.mk.inj same
        exact ⟨[c], List.cons_ne_nil _ _, rfl, rfl⟩
      · exact ⟨c :: taken, List.cons_ne_nil _ _, rfl, by simp⟩
    · rintro ⟨taken, some, shape, rfl⟩
      cases taken with
      | nil => exact absurd rfl some
      | cons d taken =>
        obtain ⟨rfl, rfl⟩ := List.cons.inj shape
        cases taken with
        | nil => exact .inl rfl
        | cons e taken => exact .inr ⟨e :: taken, List.cons_ne_nil _ _, rfl, by simp⟩

/-- The beginnings get longer. -/
theorem pairwise_beginnings (done run : List Char) :
    (beginnings done run).Pairwise fun a b => a.1.length < b.1.length := by
  induction run generalizing done with
  | nil => exact .nil
  | cons c run ih =>
    refine .cons ?_ (ih _)
    rintro ⟨start, rest⟩ inside
    obtain ⟨taken, some, -, rfl⟩ := mem_beginnings.1 inside
    have := List.length_pos_of_ne_nil some
    simp only [List.length_append, List.length_singleton]
    omega

/-- The known identifiers that a run begins with, and whether a segment of it ends behind them. -/
def hits (known : List NodeId) (run : List Char) : List (NodeId × Bool) :=
  (beginnings [] run).filterMap fun (start, rest) =>
    let id := String.ofList start
    if known.contains id then some (id, endsSegment rest) else none

theorem mem_hits {bounded : Bool} : (id, bounded) ∈ hits known run ↔
    BeginsWith known run (fun rest => endsSegment rest = bounded) id := by
  rw [hits, List.mem_filterMap]
  constructor
  · rintro ⟨⟨start, rest⟩, inside, found⟩
    obtain ⟨taken, some, rfl, rfl⟩ := mem_beginnings.1 inside
    obtain ⟨listed, same⟩ := (Option.ite_none_right_eq_some.1 found).imp_right Option.some.inj
    obtain ⟨rfl, ends⟩ := Prod.mk.inj same
    refine ⟨by simpa using listed, by simpa using some, rest, by simp, ends⟩
  · rintro ⟨listed, some, rest, rfl, ends⟩
    refine ⟨(id.toList, rest), mem_beginnings.2 ⟨id.toList, by simpa using some, rfl, rfl⟩, ?_⟩
    dsimp only
    rw [String.ofList_toList, if_pos (by simpa using listed), ends]

theorem pairwise_hits (known : List NodeId) (run : List Char) :
    (hits known run).Pairwise fun a b => a.1.length < b.1.length := by
  refine (pairwise_beginnings [] run).filterMap _ ?_
  rintro ⟨start, rest⟩ ⟨start', rest'⟩ shorter x found x' found'
  obtain ⟨-, rfl⟩ := (Option.ite_none_right_eq_some.1 found).imp_right Option.some.inj
  obtain ⟨-, rfl⟩ := (Option.ite_none_right_eq_some.1 found').imp_right Option.some.inj
  rwa [String.length_ofList, String.length_ofList]

/-- The last of identifiers that get longer is the longest. -/
theorem longest_of_getLast? {l : List (NodeId × Bool)} {x : NodeId × Bool}
    (longer : l.Pairwise fun a b => a.1.length < b.1.length) (last : l.getLast? = some x) :
    x ∈ l ∧ ∀ y ∈ l, y.1.length ≤ x.1.length := by
  obtain ⟨front, rfl⟩ := List.getLast?_eq_some_iff.1 last
  refine ⟨by simp, fun y inside => ?_⟩
  rcases List.mem_append.1 inside with before | same
  · exact Nat.le_of_lt ((List.pairwise_append.1 longer).2.2 y before x List.mem_cons_self)
  · rw [List.mem_singleton.1 same]

theorem endsSegment_iff : endsSegment rest = true ↔ Bounded rest := by
  rw [endsSegment, Bounded, Bool.or_eq_true, List.isEmpty_iff, beq_iff_eq]

theorem mem_hits_true : (id, true) ∈ hits known run ↔ BeginsWith known run Bounded id := by
  simp only [mem_hits, BeginsWith, endsSegment_iff]

theorem mem_hits_false :
    (id, false) ∈ hits known run ↔ BeginsWith known run (fun rest => ¬Bounded rest) id := by
  simp only [mem_hits, BeginsWith, ← endsSegment_iff, Bool.not_eq_true]

theorem mem_filter_hits {x : NodeId × Bool} :
    x ∈ (hits known run).filter (·.2) ↔ x.2 = true ∧ BeginsWith known run Bounded x.1 := by
  obtain ⟨id, bounded⟩ := x
  rw [List.mem_filter]
  constructor
  · rintro ⟨inside, rfl⟩
    exact ⟨rfl, mem_hits_true.1 inside⟩
  · rintro ⟨rfl, begins⟩
    exact ⟨mem_hits_true.2 begins, rfl⟩

/-- The search finds what a run names. -/
theorem names_mentionIn? (known : List NodeId) (run : List Char) :
    Names known run (mentionIn? known run) := by
  have shape : mentionIn? known run =
      ((((hits known run).filter (·.2)).getLast?).or (hits known run).getLast?).map (·.1) := rfl
  have longer := pairwise_hits known run
  rw [shape]
  cases exact : ((hits known run).filter (·.2)).getLast? with
  | some x =>
    obtain ⟨inside, longest⟩ := longest_of_getLast? (longer.filter _) exact
    refine .whole ⟨(mem_filter_hits.1 inside).2, fun other begins => ?_⟩
    exact longest (other, true) (mem_filter_hits.2 ⟨rfl, begins⟩)
  | none =>
    -- Then all that is found ends within a segment.
    have nowhere : ∀ other, ¬BeginsWith known run Bounded other := fun other begins => by
      have inside : (other, true) ∈ (hits known run).filter (·.2) :=
        mem_filter_hits.2 ⟨rfl, begins⟩
      rw [List.getLast?_eq_none_iff.1 exact] at inside
      exact List.not_mem_nil inside
    rw [Option.none_or]
    cases last : (hits known run).getLast? with
    | some x =>
      obtain ⟨id, bounded⟩ := x
      obtain ⟨inside, longest⟩ := longest_of_getLast? longer last
      cases bounded with
      | true => exact absurd (mem_hits_true.1 inside) (nowhere id)
      | false =>
        exact .part nowhere ⟨mem_hits_false.1 inside, fun other begins =>
          longest (other, false) (mem_hits_false.2 begins)⟩
    | none =>
      refine .none nowhere fun other begins => ?_
      have inside := mem_hits_false.2 begins
      rw [List.getLast?_eq_none_iff.1 last] at inside
      exact List.not_mem_nil inside

/-! ### All mentions of a text -/

theorem names_iff {a : Option NodeId} : Names known run a ↔ mentionIn? known run = a :=
  ⟨(names_mentionIn? known run).unique, fun same => same ▸ names_mentionIn? known run⟩

/-- A text mentions what its runs name, in order, whatever identifiers are known. -/
theorem mentions_eq_iff {ids : List NodeId} : mentions known s = ids ↔
    ∃ runs named, Runs s.toList runs ∧ List.Forall₂ (Names known) runs named ∧
      ids = named.reduceOption := by
  have all : mentions known s = ((idWords s.toList).map (mentionIn? known)).reduceOption := by
    rw [List.reduceOption, List.filterMap_map]
    rfl
  constructor
  · rintro rfl
    refine ⟨_, _, runs_iff.2 rfl, ?_, all⟩
    exact List.forall₂_map_right_iff.2 (List.forall₂_same.2 fun run _ => names_mentionIn? known run)
  · rintro ⟨runs, named, cut, each, rfl⟩
    have found : List.Forall₂ Eq (runs.map (mentionIn? known)) named :=
      List.forall₂_map_left_iff.2 (each.imp fun _ _ => names_iff.1)
    rw [List.forall₂_eq_eq_eq] at found
    rw [all, ← runs_iff.1 cut, found]

end Cartograph.Mention

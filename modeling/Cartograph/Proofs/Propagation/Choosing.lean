import Mathlib.Data.List.Perm.Basic
import Cartograph.Arrangement.Propagation
import Cartograph.Proofs.Decimal.Order

/-!
# The greatest and the least of some values

Values are put together one after the other, and where one of two has to go, the one that came first
stays if it has the same place as the other, or if the two cannot be compared. So the order of the
values makes no difference exactly if they are all the same, or all numbers of which the extreme one
is not tied between the two zeros (`Steady`, `total_perm` and `steady_of_first`): a value that is no
number stays for good if it comes first, and goes otherwise.

Integers are compared as integers, and other numbers as what they are rounded to; as rounding keeps
the order (`ofInt_sharper`), it does not matter when it takes place.
-/

namespace Cartograph.Arrangement

open Decimal

variable {aggregation : Aggregation} {a b f t t' : Float} {fs : List Float} {i j : Int}
  {u v w : Value} {vs ws : List Value}

/-! ### Two numbers -/

/-- An aggregation that chooses one of two numbers. -/
def Extreme (aggregation : Aggregation) : Prop := aggregation = .max ∨ aggregation = .min

/-- The number that is chosen of two. -/
def sharper (aggregation : Aggregation) : Float → Float → Float :=
  if aggregation = .min then smaller else greater

/-- The integer that is chosen of two. -/
def sharperInt (aggregation : Aggregation) : Int → Int → Int :=
  if aggregation = .min then min else max

/-- The place of a number in the order in which numbers are preferred. -/
def weight (aggregation : Aggregation) (f : Float) : Int :=
  if aggregation = .min then -rank f else rank f

/-- Of two, what is no number gives way, and the second gives way to the first if it is not before
    it. -/
theorem chosen_congr {p q : Prop} [Decidable p] [Decidable q]
    (before : a.isNaN = false → b.isNaN = false → (p ↔ q)) :
    (if a.isNaN then b else if b.isNaN then a else if p then b else a) =
      if a.isNaN then b else if b.isNaN then a else if q then b else a := by
  refine ite_congr rfl (fun _ => rfl) fun ha => ite_congr rfl (fun _ => rfl) fun hb => ?_
  exact if_congr (before (Bool.not_eq_true _ ▸ ha) (Bool.not_eq_true _ ▸ hb)) rfl rfl

theorem sharper_eq : sharper aggregation a b = if a.isNaN then b else if b.isNaN then a
    else if weight aggregation a < weight aggregation b then b else a := by
  unfold sharper weight
  split
  · exact chosen_congr fun ha hb => (lt_iff_rank hb ha).trans Int.neg_lt_neg_iff.symm
  · exact chosen_congr fun ha hb => lt_iff_rank ha hb

theorem sharperInt_comm : sharperInt aggregation i j = sharperInt aggregation j i := by
  unfold sharperInt
  split
  · exact Int.min_comm i j
  · exact Int.max_comm i j

theorem rank_eq_of_weight_eq (same : weight aggregation a = weight aggregation b) :
    rank a = rank b := by
  unfold weight at same
  split at same <;> omega

/-- It does not matter whether integers are rounded before one is chosen or afterwards. -/
theorem ofInt_sharper :
    sharper aggregation (ofInt i) (ofInt j) = ofInt (sharperInt aggregation i j) := by
  have second (le : weight aggregation (ofInt i) ≤ weight aggregation (ofInt j)) :
      sharper aggregation (ofInt i) (ofInt j) = ofInt j := by
    rw [sharper_eq, isNaN_ofInt, isNaN_ofInt, if_neg Bool.false_ne_true,
      if_neg Bool.false_ne_true]
    rcases Int.lt_or_eq_of_le le with lt | same
    · exact if_pos lt
    · rw [if_neg (by omega)]
      exact ofInt_eq_of_rank_eq (rank_eq_of_weight_eq same)
  have first (le : weight aggregation (ofInt j) ≤ weight aggregation (ofInt i)) :
      sharper aggregation (ofInt i) (ofInt j) = ofInt i := by
    rw [sharper_eq, isNaN_ofInt, isNaN_ofInt, if_neg Bool.false_ne_true,
      if_neg Bool.false_ne_true, if_neg (by omega)]
  unfold weight at first second
  unfold sharperInt
  rcases Int.le_total i j with le | le
  · have places := rank_ofInt_mono le
    split
    · rw [Int.min_eq_left le, first (by rw [if_pos ‹_›, if_pos ‹_›]; omega)]
    · rw [Int.max_eq_right le, second (by rw [if_neg ‹_›, if_neg ‹_›]; omega)]
  · have places := rank_ofInt_mono le
    split
    · rw [Int.min_eq_right le, second (by rw [if_pos ‹_›, if_pos ‹_›]; omega)]
    · rw [Int.max_eq_left le, first (by rw [if_neg ‹_›, if_neg ‹_›]; omega)]

/-! ### The best of some numbers -/

/-- A number that no other of some numbers goes before. -/
structure Best (aggregation : Aggregation) (fs : List Float) (t : Float) : Prop where
  inside : t ∈ fs
  first : ∀ f ∈ fs, f.isNaN = false →
    t.isNaN = false ∧ weight aggregation f ≤ weight aggregation t

theorem best_sharper : Best aggregation [a, b] (sharper aggregation a b) := by
  rw [sharper_eq]
  by_cases ha : a.isNaN = true
  · rw [if_pos ha]
    refine ⟨by simp, fun f hf number => ?_⟩
    rcases List.mem_pair.1 hf with rfl | rfl
    · rw [ha] at number
      cases number
    · exact ⟨number, Int.le_refl _⟩
  · by_cases hb : b.isNaN = true
    · rw [if_neg ha, if_pos hb]
      refine ⟨by simp, fun f hf number => ?_⟩
      rcases List.mem_pair.1 hf with rfl | rfl
      · exact ⟨number, Int.le_refl _⟩
      · rw [hb] at number
        cases number
    · rw [if_neg ha, if_neg hb]
      rw [Bool.not_eq_true] at ha hb
      split
      · refine ⟨by simp, fun f hf _ => ⟨hb, ?_⟩⟩
        rcases List.mem_pair.1 hf with rfl | rfl <;> omega
      · refine ⟨by simp, fun f hf _ => ⟨ha, ?_⟩⟩
        rcases List.mem_pair.1 hf with rfl | rfl <;> omega

theorem best_foldl (a : Float) (fs : List Float) :
    Best aggregation (a :: fs) (fs.foldl (sharper aggregation) a) := by
  induction fs generalizing a with
  | nil =>
    refine ⟨List.mem_singleton_self a, fun f hf number => ?_⟩
    cases List.mem_singleton.1 hf
    exact ⟨number, Int.le_refl _⟩
  | cons b fs ih =>
    have both : Best aggregation [a, b] (sharper aggregation a b) := best_sharper
    obtain ⟨inside, first⟩ := ih (sharper aggregation a b)
    rw [List.foldl_cons]
    refine ⟨?_, fun f hf number => ?_⟩
    · rcases List.mem_cons.1 inside with same | later
      · rw [same]
        have := both.inside
        simp only [List.mem_cons, List.not_mem_nil, or_false] at this ⊢
        exact this.imp_right .inl
      · simp [later]
    · -- One of the first two numbers is behind the better one of them, and that behind the best.
      by_cases later : f ∈ fs
      · exact first f (List.mem_cons_of_mem _ later) number
      · obtain ⟨number', le⟩ := both.first f (by simpa [later] using hf) number
        obtain ⟨number'', le'⟩ := first _ List.mem_cons_self number'
        exact ⟨number'', Int.le_trans le le'⟩

/-- A number is on the preferred side of zero. -/
def Ahead (aggregation : Aggregation) (f : Float) : Prop :=
  if aggregation = .min then f < signed false 0 else signed false 0 < f

/-- Both zeros are among some numbers, and none is ahead of them. -/
def Tied (aggregation : Aggregation) (fs : List Float) : Prop :=
  signed false 0 ∈ fs ∧ signed true 0 ∈ fs ∧ ∀ f ∈ fs, ¬Ahead aggregation f

theorem ahead_iff : Ahead aggregation f ↔ f.isNaN = false ∧ 0 < weight aggregation f := by
  have zero : (signed false 0).isNaN = false := by decide +kernel
  have place : rank (signed false 0) = 0 := by decide +kernel
  unfold Ahead weight
  split
  · refine ⟨fun lt => ?_, fun ⟨number, lt⟩ => (lt_iff_rank number zero).2 (by omega)⟩
    have number := (isNaN_of_lt lt).1
    have := (lt_iff_rank number zero).1 lt
    exact ⟨number, by omega⟩
  · refine ⟨fun lt => ?_, fun ⟨number, lt⟩ => (lt_iff_rank zero number).2 (by omega)⟩
    have number := (isNaN_of_lt lt).2
    have := (lt_iff_rank zero number).1 lt
    exact ⟨number, by omega⟩

/-- A zero stays if nothing is ahead of it. -/
theorem foldl_sharper_zero (zero : rank t = 0) (number : t.isNaN = false)
    (none : ∀ f ∈ fs, ¬Ahead aggregation f) : fs.foldl (sharper aggregation) t = t := by
  have place : weight aggregation t = 0 := by
    unfold weight
    split <;> omega
  induction fs with
  | nil => rfl
  | cons f fs ih =>
    have stays : sharper aggregation t f = t := by
      rw [sharper_eq, number, if_neg Bool.false_ne_true, place]
      split
      · rfl
      · next number' =>
        rw [Bool.not_eq_true] at number'
        exact if_neg fun lt => none f List.mem_cons_self (ahead_iff.2 ⟨number', lt⟩)
    rw [List.foldl_cons, stays]
    exact ih fun f hf => none f (List.mem_cons_of_mem _ hf)

theorem Best.of_perm {gs : List Float} (h : Best aggregation fs t) (perm : fs.Perm gs) :
    Best aggregation gs t :=
  ⟨perm.mem_iff.1 h.inside, fun f hf => h.first f (perm.mem_iff.2 hf)⟩

/-- The best of some numbers is unique, unless it is either zero. -/
theorem Best.unique (h : Best aggregation fs t) (h' : Best aggregation fs t')
    (untied : ¬Tied aggregation fs) : t = t' := by
  cases hN : t.isNaN with
  | true =>
    cases hN' : t'.isNaN with
    | true =>
      rw [Float.isNaN_eq_decide_eq_nan, decide_eq_true_eq] at hN hN'
      exact hN.trans hN'.symm
    | false =>
      have := (h.first t' h'.inside hN').1
      rw [hN] at this
      cases this
  | false =>
    obtain ⟨hN', le⟩ := h'.first t h.inside hN
    have le' := (h.first t' h'.inside hN').2
    have same : weight aggregation t = weight aggregation t' := Int.le_antisymm le le'
    -- Their places are the same, so they are, but for the two zeros.
    by_cases zero : rank t = 0
    · have none : ∀ f ∈ fs, ¬Ahead aggregation f := by
        intro f hf ahead
        obtain ⟨number, lt⟩ := ahead_iff.1 ahead
        have le := (h.first f hf number).2
        have : weight aggregation t = 0 := by
          unfold weight
          split <;> omega
        omega
      have zero' : rank t' = 0 := (rank_eq_of_weight_eq same).symm.trans zero
      rcases eq_zero_of_rank_eq_zero zero with plus | minus
      · rcases eq_zero_of_rank_eq_zero zero' with plus' | minus'
        · exact plus.trans plus'.symm
        · exact absurd ⟨plus ▸ h.inside, minus' ▸ h'.inside, none⟩ untied
      · rcases eq_zero_of_rank_eq_zero zero' with plus' | minus'
        · exact absurd ⟨plus' ▸ h'.inside, minus ▸ h.inside, none⟩ untied
        · exact minus.trans minus'.symm
    · exact eq_of_rank_eq (rank_eq_of_weight_eq same) zero

/-! ### Two values -/

theorem numeric_of_not_ints {ofInts : Int → Int → Int} {ofFloats : Float → Float → Float}
    (other : ∀ i j, ¬(v = .int i ∧ w = .int j)) : numeric ofInts ofFloats v w =
      v.asFloat?.bind fun x => w.asFloat?.map fun y => .float (ofFloats x y) := by
  unfold numeric
  split
  · exact absurd ⟨rfl, rfl⟩ (other _ _)
  · cases v.asFloat? with
    | none => rfl
    | some x =>
      cases w.asFloat? with
      | none => rfl
      | some y => rfl

/-- A value that has taken up another, or has refused it. -/
def takeUp (aggregation : Aggregation) (v w : Value) : Value :=
  (combine aggregation (some v) w).getD v

theorem combine_extreme (extreme : Extreme aggregation) : combine aggregation (some v) w =
    numeric (sharperInt aggregation) (sharper aggregation) v w := by
  rcases extreme with rfl | rfl
  · rfl
  · rfl

theorem takeUp_ints (extreme : Extreme aggregation) :
    takeUp aggregation (.int i) (.int j) = .int (sharperInt aggregation i j) := by
  rw [takeUp, combine_extreme extreme]
  rfl

theorem takeUp_of_not_ints (extreme : Extreme aggregation)
    (other : ∀ i j, ¬(v = .int i ∧ w = .int j)) :
    takeUp aggregation v w = (v.asFloat?.bind fun x =>
      w.asFloat?.map fun y => .float (sharper aggregation x y)).getD v := by
  rw [takeUp, combine_extreme extreme, numeric_of_not_ints other]

/-- What is no number takes up nothing. -/
theorem takeUp_of_none (extreme : Extreme aggregation) (none : v.asFloat? = none) :
    takeUp aggregation v w = v := by
  rw [takeUp_of_not_ints extreme, none]
  · rfl
  · rintro i j ⟨rfl, -⟩
    cases none

/-- As a number, a value takes up other numbers, and nothing else. -/
theorem asFloat?_takeUp (extreme : Extreme aggregation) (number : v.asFloat? = some a) :
    (takeUp aggregation v w).asFloat? =
      some ((w.asFloat?.map (sharper aggregation a)).getD a) := by
  by_cases both : ∃ i j, v = .int i ∧ w = .int j
  · obtain ⟨i, j, rfl, rfl⟩ := both
    cases number
    rw [takeUp_ints extreme]
    exact congrArg some ofInt_sharper.symm
  · rw [takeUp_of_not_ints extreme fun i j h => both ⟨i, j, h⟩, number]
    cases w.asFloat? with
    | none => exact number
    | some b => rfl

theorem takeUp_float (extreme : Extreme aggregation) :
    ∃ t, takeUp aggregation (.float a) w = .float t := by
  rw [takeUp_of_not_ints extreme (by simp)]
  cases w.asFloat? with
  | none => exact ⟨a, rfl⟩
  | some b => exact ⟨_, rfl⟩

/-! ### Some values -/

/-- Some values put together. -/
def total (aggregation : Aggregation) (vs : List Value) : Option Value :=
  vs.foldl (fun sum v => (combine aggregation sum v).or sum) none

theorem total_cons : total aggregation (v :: vs) = some (vs.foldl (takeUp aggregation) v) := by
  have step : ∀ v, vs.foldl (fun sum v => (combine aggregation sum v).or sum) (some v) =
      some (vs.foldl (takeUp aggregation) v) := by
    induction vs with
    | nil => exact fun _ => rfl
    | cons w vs ih =>
      intro v
      rw [List.foldl_cons, List.foldl_cons, ← ih]
      congr 1
      unfold takeUp
      cases combine aggregation (some v) w <;> rfl
  exact step v

theorem foldl_takeUp_of_none (extreme : Extreme aggregation) (none : v.asFloat? = none) :
    vs.foldl (takeUp aggregation) v = v := by
  induction vs with
  | nil => rfl
  | cons w vs ih => rw [List.foldl_cons, takeUp_of_none extreme none, ih]

theorem asFloat?_foldl_takeUp (extreme : Extreme aggregation) (number : v.asFloat? = some a) :
    (vs.foldl (takeUp aggregation) v).asFloat? =
      some ((vs.filterMap Value.asFloat?).foldl (sharper aggregation) a) := by
  induction vs generalizing v a with
  | nil => exact number
  | cons w vs ih =>
    rw [List.foldl_cons, ih (asFloat?_takeUp extreme number)]
    cases found : w.asFloat? with
    | none => rw [List.filterMap_cons_none found]; rfl
    | some b => rw [List.filterMap_cons_some found]; rfl

theorem foldl_takeUp_float (extreme : Extreme aggregation) :
    ∃ t, vs.foldl (takeUp aggregation) (.float a) = .float t := by
  induction vs generalizing a with
  | nil => exact ⟨a, rfl⟩
  | cons w vs ih =>
    obtain ⟨b, hb⟩ := takeUp_float (a := a) (w := w) extreme
    rw [List.foldl_cons, hb]
    exact ih

/-- Numbers that are not all integers give no integer, if there are two of them. -/
theorem foldl_takeUp_mixed (extreme : Extreme aggregation)
    (numbers : ∀ w ∈ v :: vs, w.asFloat?.isSome) (several : vs ≠ [])
    (mixed : ∃ w ∈ v :: vs, ∀ i, w ≠ .int i) :
    ∃ t, vs.foldl (takeUp aggregation) v = .float t := by
  induction vs generalizing v with
  | nil => exact absurd rfl several
  | cons w vs ih =>
    rw [List.foldl_cons]
    by_cases both : ∃ i j, v = .int i ∧ w = .int j
    · obtain ⟨i, j, rfl, rfl⟩ := both
      rw [takeUp_ints extreme]
      -- Two integers become one, and what is not an integer is still to come.
      obtain ⟨x, hx, other⟩ := mixed
      have later : x ∈ vs := by
        simp only [List.mem_cons] at hx
        exact (hx.resolve_left (other i)).resolve_left (other j)
      refine ih ?_ (List.ne_nil_of_mem later) ⟨x, List.mem_cons_of_mem _ later, other⟩
      intro y hy
      rcases List.mem_cons.1 hy with rfl | hy
      · rfl
      · exact numbers y (by simp [hy])
    · obtain ⟨x, hx⟩ := Option.isSome_iff_exists.1 (numbers v (by simp))
      obtain ⟨y, hy⟩ := Option.isSome_iff_exists.1 (numbers w (by simp))
      rw [takeUp_of_not_ints extreme fun i j h => both ⟨i, j, h⟩, hx, hy]
      exact foldl_takeUp_float extreme

/-- Integers give one of them to which the others make no difference. -/
theorem foldl_takeUp_ints (extreme : Extreme aggregation) (ints : ∀ w ∈ v :: vs, ∃ i, w = .int i) :
    ∃ k, vs.foldl (takeUp aggregation) v = .int k ∧ .int k ∈ v :: vs ∧
      ∀ j, .int j ∈ v :: vs → sharperInt aggregation k j = k := by
  obtain ⟨i, rfl⟩ := ints v List.mem_cons_self
  induction vs generalizing i with
  | nil =>
    refine ⟨i, rfl, List.mem_cons_self, fun j hj => ?_⟩
    cases List.mem_singleton.1 hj
    unfold sharperInt
    split <;> omega
  | cons w vs ih =>
    obtain ⟨j, rfl⟩ := ints w (by simp)
    rw [List.foldl_cons, takeUp_ints extreme]
    obtain ⟨k, eq, inside, best⟩ := ih (sharperInt aggregation i j) fun x hx => by
      rcases List.mem_cons.1 hx with rfl | hx
      · exact ⟨_, rfl⟩
      · exact ints x (by simp [hx])
    have chosen : sharperInt aggregation i j = i ∨ sharperInt aggregation i j = j := by
      unfold sharperInt
      split <;> omega
    -- What the chosen one of two makes no difference to, the other one makes none to either.
    have beside : sharperInt aggregation k i = k ∧ sharperInt aggregation k j = k := by
      have both := best _ List.mem_cons_self
      unfold sharperInt at both ⊢
      by_cases least : aggregation = .min
      · simp only [if_pos least] at both ⊢
        omega
      · simp only [if_neg least] at both ⊢
        omega
    refine ⟨k, eq, ?_, fun l hl => ?_⟩
    · rcases List.mem_cons.1 inside with same | later
      · rcases chosen with left | right
        · rw [same, left]; exact List.mem_cons_self
        · rw [same, right]; simp
      · simp [later]
    · simp only [List.mem_cons, Value.int.injEq] at hl
      rcases hl with rfl | rfl | later
      · exact beside.1
      · exact beside.2
      · exact best l (List.mem_cons_of_mem _ later)

/-! ### In any order -/

/-- Values of which the extreme one does not depend on their order. -/
def Steady (aggregation : Aggregation) (vs : List Value) : Prop :=
  (∀ v ∈ vs, ∀ w ∈ vs, v = w) ∨
    (∀ v ∈ vs, v.asFloat?.isSome) ∧ ¬Tied aggregation (vs.filterMap Value.asFloat?)

/-- Integers are steady, as none of them is the negative zero. -/
theorem steady_of_ints (ints : ∀ v ∈ vs, ∃ i, v = .int i) : Steady aggregation vs := by
  refine .inr ⟨fun v hv => ?_, fun tied => ?_⟩
  · obtain ⟨i, rfl⟩ := ints v hv
    rfl
  · obtain ⟨v, hv, zero⟩ := List.mem_filterMap.1 tied.2.1
    obtain ⟨i, rfl⟩ := ints v hv
    exact ofInt_ne_negativeZero i (Option.some.inj zero)

theorem foldl_takeUp_ints_perm (extreme : Extreme aggregation)
    (ints : ∀ w ∈ v :: vs, ∃ i, w = .int i) (perm : (w :: ws).Perm (v :: vs)) :
    ws.foldl (takeUp aggregation) w = vs.foldl (takeUp aggregation) v := by
  obtain ⟨k, eq, inside, best⟩ := foldl_takeUp_ints extreme ints
  obtain ⟨k', eq', inside', best'⟩ := foldl_takeUp_ints extreme
    fun x hx => ints x (perm.mem_iff.1 hx)
  have same := best k' (perm.mem_iff.1 inside')
  have same' := best' k (perm.mem_iff.2 inside)
  rw [eq, eq', ← same', sharperInt_comm, same]

theorem best_total (extreme : Extreme aggregation) (number : v.asFloat?.isSome)
    (whole : vs.foldl (takeUp aggregation) v = .float t) :
    Best aggregation ((v :: vs).filterMap Value.asFloat?) t := by
  obtain ⟨a, ha⟩ := Option.isSome_iff_exists.1 number
  have eq : (vs.foldl (takeUp aggregation) v).asFloat? = _ := asFloat?_foldl_takeUp extreme ha
  rw [whole] at eq
  cases eq
  rw [List.filterMap_cons_some ha]
  exact best_foldl a _

/-- Steady values give the same in any order. -/
theorem total_perm (extreme : Extreme aggregation) (steady : Steady aggregation vs)
    (perm : ws.Perm vs) : total aggregation ws = total aggregation vs := by
  cases vs with
  | nil => rw [perm.eq_nil]
  | cons v vs =>
    cases ws with
    | nil => exact absurd perm.symm.eq_nil (by simp)
    | cons w ws =>
      rcases steady with same | ⟨numbers, untied⟩
      · have all : v :: vs = List.replicate (v :: vs).length v :=
          List.eq_replicate_of_mem fun x hx => same x hx v List.mem_cons_self
        rw [all] at perm ⊢
        rw [List.perm_replicate.1 perm]
      rw [total_cons, total_cons]
      refine congrArg some ?_
      by_cases ints : ∀ x ∈ v :: vs, ∃ i, x = .int i
      · exact foldl_takeUp_ints_perm extreme ints perm
      by_cases several : vs = []
      · subst several
        cases List.perm_singleton.1 perm
        rfl
      -- Of several numbers that are not all integers, a floating-point number comes out.
      have mixed : ∃ x ∈ v :: vs, ∀ i, x ≠ .int i := by
        simpa only [not_forall, not_exists, exists_prop] using ints
      have numbers' : ∀ x ∈ w :: ws, x.asFloat?.isSome := fun x hx =>
        numbers x (perm.mem_iff.1 hx)
      obtain ⟨t, eq⟩ := foldl_takeUp_mixed extreme numbers several mixed
      obtain ⟨t', eq'⟩ := foldl_takeUp_mixed extreme numbers'
        (fun none => several (by simpa [none] using perm.length_eq.symm))
        (mixed.imp fun x hx => ⟨perm.mem_iff.2 hx.1, hx.2⟩)
      have best := best_total extreme (numbers v List.mem_cons_self) eq
      have best' := best_total extreme (numbers' w List.mem_cons_self) eq'
      rw [eq, eq', (best'.of_perm (perm.filterMap _)).unique best untied]

/-- Conversely, if the value that comes first makes no difference, values are steady. -/
theorem steady_of_first {found : Option Value} (extreme : Extreme aggregation)
    (firsts : ∀ v ∈ vs, ∃ ws, (v :: ws).Perm vs ∧ total aggregation (v :: ws) = found) :
    Steady aggregation vs := by
  by_cases same : ∀ v ∈ vs, ∀ w ∈ vs, v = w
  · exact .inl same
  refine .inr ⟨fun v hv => ?_, ?_⟩
  · -- What is no number would stay in the first place, and nothing else gives it.
    by_contra none
    rw [Bool.not_eq_true, Option.isSome_eq_false_iff, Option.isNone_iff_eq_none] at none
    obtain ⟨x, hx, ne⟩ : ∃ x ∈ vs, x ≠ v := by
      by_contra all
      have all : ∀ x ∈ vs, x = v := by simpa only [not_exists, not_and, not_not] using all
      exact same fun x hx y hy => (all x hx).trans (all y hy).symm
    obtain ⟨ws, -, first⟩ := firsts v hv
    obtain ⟨xs, -, second⟩ := firsts x hx
    rw [total_cons, foldl_takeUp_of_none extreme none] at first
    rw [total_cons, ← first] at second
    have second := Option.some.inj second
    cases number : x.asFloat? with
    | none => exact ne ((foldl_takeUp_of_none extreme number).symm.trans second)
    | some a =>
      have value : (xs.foldl (takeUp aggregation) x).asFloat? = _ :=
        asFloat?_foldl_takeUp extreme number
      rw [second, none] at value
      cases value
  · -- Of two zeros the one in the first place would stay.
    rintro ⟨plus, minus, behind⟩
    have stays : ∀ t ∈ vs.filterMap Value.asFloat?, rank t = 0 → t.isNaN = false →
        found.bind Value.asFloat? = some t := by
      intro t ht zero number
      obtain ⟨v, hv, value⟩ := List.mem_filterMap.1 ht
      obtain ⟨ws, perm, first⟩ := firsts v hv
      rw [← first, total_cons, Option.bind_some, asFloat?_foldl_takeUp extreme value]
      refine congrArg some (foldl_sharper_zero zero number fun f hf => behind f ?_)
      obtain ⟨w, hw, value'⟩ := List.mem_filterMap.1 hf
      exact List.mem_filterMap.2 ⟨w, perm.mem_iff.1 (List.mem_cons_of_mem _ hw), value'⟩
    have both := (stays _ plus (by decide +kernel) (by decide +kernel)).symm.trans
      (stays _ minus (by decide +kernel) (by decide +kernel))
    exact absurd (Option.some.inj both) (by decide +kernel)

end Cartograph.Arrangement

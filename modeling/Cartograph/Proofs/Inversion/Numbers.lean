import Mathlib.Data.List.Perm.Subperm
import Mathlib.Order.Bounds.Basic
import Cartograph.Arrangement.Inversion

/-!
# Numbers of copies

Each of several nodes that refer to one gets a copy with a number of its own. The first of the nodes
with an instance number keeps it (`Keeps`), and the others take the least numbers that are free, in
order. These rules (`Numbering`) leave nothing open: the numbers that `copyNumbers` gives follow
them, and there are no others that do (`eq_copyNumbers_iff`).

First comes what is kept, then what is filled in: while numbers are filled in, all that are kept are
taken, and no number before the next one is free (`Filling`).
-/

namespace Cartograph.Arrangement

open NodeId (suffix?)

variable {nodes : List NodeId} {q : NodeId} {numbers taken : List Nat} {i n next : Nat}

/-- The node in a place of a list has a number that none before it has. -/
def Keeps (nodes : List NodeId) (i n : Nat) : Prop :=
  nodes[i]?.bind suffix? = some n ∧ ∀ q ∈ nodes.take i, suffix? q ≠ some n

/-- What is expected of the numbers for a list of nodes. -/
structure Numbering (nodes : List NodeId) (numbers : List Nat) : Prop where
  length : numbers.length = nodes.length
  nodup : numbers.Nodup
  keeps : ∀ i n, Keeps nodes i n → numbers[i]? = some n
  /-- A node that keeps none gets the least positive number that no node has, of those that are left
      by the nodes before it. -/
  least : ∀ i c, (∀ n, ¬Keeps nodes i n) → numbers[i]? = some c →
    IsLeast {m | 0 < m ∧ (∀ q ∈ nodes, suffix? q ≠ some m) ∧ m ∉ numbers.take i} c

/-! ### Numbers that are kept -/

/-- The number of a node, unless it is taken. -/
def kept? (taken : List Nat) (q : NodeId) : Option Nat := (suffix? q).filter (· ∉ taken)

theorem keptNumbers_cons (taken : List Nat) (q : NodeId) (rest : List NodeId) :
    keptNumbers taken (q :: rest) =
      kept? taken q :: keptNumbers ((kept? taken q).toList ++ taken) rest := by
  rw [keptNumbers]
  split
  · next n number =>
    split
    · next there => simp [kept?, number, Option.filter, there]
    · next free => simp [kept?, number, Option.filter, free]
  · next none => simp [kept?, none]

theorem kept?_eq_some : kept? taken q = some n ↔ suffix? q = some n ∧ n ∉ taken := by
  rw [kept?, Option.filter_eq_some_iff, decide_eq_true_iff]

/-- Behind a node what was taken is, and the number of the node. -/
theorem not_mem_kept : n ∉ (kept? taken q).toList ++ taken ↔ suffix? q ≠ some n ∧ n ∉ taken := by
  rw [List.mem_append, Option.mem_toList, kept?_eq_some]
  tauto

theorem length_keptNumbers (taken : List Nat) (nodes : List NodeId) :
    (keptNumbers taken nodes).length = nodes.length := by
  induction nodes generalizing taken with
  | nil => rfl
  | cons q rest ih => rw [keptNumbers_cons, List.length_cons, ih, List.length_cons]

theorem getElem?_keptNumbers : (keptNumbers taken nodes)[i]? = some (some n) ↔
    Keeps nodes i n ∧ n ∉ taken := by
  induction nodes generalizing taken i with
  | nil => simp [keptNumbers, Keeps]
  | cons q rest ih =>
    rw [keptNumbers_cons]
    cases i with
    | zero => simp [Keeps, kept?_eq_some]
    | succ i =>
      have behind : Keeps (q :: rest) (i + 1) n ↔ suffix? q ≠ some n ∧ Keeps rest i n := by
        simp [Keeps, and_left_comm]
      rw [List.getElem?_cons_succ, ih, behind, not_mem_kept]
      tauto

theorem mem_keptNumbers : some n ∈ keptNumbers taken nodes ↔
    n ∉ taken ∧ ∃ q ∈ nodes, suffix? q = some n := by
  induction nodes generalizing taken with
  | nil => simp [keptNumbers]
  | cons q rest ih =>
    rw [keptNumbers_cons, List.mem_cons, ih, eq_comm, kept?_eq_some, not_mem_kept,
      List.exists_mem_cons_iff]
    tauto

/-! ### Numbers that are filled in -/

theorem freeNumber_isLeast (taken : List Nat) (n : Nat) :
    IsLeast {m | n ≤ m ∧ m ∉ taken} (freeNumber taken n) := by
  have exists_free : ∃ m ∈ List.range' n (taken.length + 1), m ∉ taken := by
    by_contra none
    push Not at none
    have le := (List.subperm_of_subset List.nodup_range' none).length_le
    rw [List.length_range'] at le
    exact Nat.not_succ_le_self _ le
  obtain ⟨k, found⟩ : ∃ k, (List.range' n (taken.length + 1)).find? (· ∉ taken) = some k := by
    rw [← Option.isSome_iff_exists, List.find?_isSome]
    simpa using exists_free
  rw [freeNumber, found, Option.getD_some]
  obtain ⟨free, inside, first⟩ := List.find?_range'_eq_some.1 found
  refine ⟨⟨(List.mem_range'_1.1 inside).1, by simpa using free⟩, fun m ⟨from_n, free'⟩ => ?_⟩
  by_contra before
  have := first m from_n (Nat.lt_of_not_le before)
  simp [free'] at this

/-- With no number below the next one free, the least free number is given. -/
theorem freeNumber_isLeast_pos (below : ∀ m, 0 < m → m < next → m ∈ taken) (pos : 0 < next) :
    IsLeast {m | 0 < m ∧ m ∉ taken} (freeNumber taken next) := by
  obtain ⟨⟨le, free⟩, least⟩ := freeNumber_isLeast taken next
  refine ⟨⟨Nat.lt_of_lt_of_le pos le, free⟩, fun m ⟨pos, free⟩ => ?_⟩
  exact least ⟨Nat.le_of_not_lt fun before => free (below m pos before), free⟩

theorem length_fillNumbers (taken : List Nat) (next : Nat) (kept : List (Option Nat)) :
    (fillNumbers taken next kept).length = kept.length := by
  induction kept generalizing taken next with
  | nil => rfl
  | cons x rest ih =>
    cases x <;> rw [fillNumbers, List.length_cons, ih, List.length_cons]

/-- All kept numbers are taken, and so are the positive ones before the next. -/
structure Filling (taken : List Nat) (next : Nat) (kept : List (Option Nat)) : Prop where
  pos : 0 < next
  below : ∀ m, 0 < m → m < next → m ∈ taken
  taken : ∀ n, some n ∈ kept → n ∈ taken

variable {kept : List (Option Nat)}

theorem Filling.of_some (h : Filling taken next (some n :: kept)) : Filling taken next kept :=
  ⟨h.pos, h.below, fun k inside => h.taken k (List.mem_cons_of_mem _ inside)⟩

theorem Filling.of_none (h : Filling taken next (none :: kept)) :
    Filling (freeNumber taken next :: taken) (freeNumber taken next) kept := by
  obtain ⟨⟨pos, -⟩, least⟩ := freeNumber_isLeast_pos h.below h.pos
  refine ⟨pos, fun m pos before => List.mem_cons_of_mem _ ?_, fun k inside => ?_⟩
  · by_contra free
    exact absurd (least ⟨pos, free⟩) (Nat.not_le_of_lt before)
  · exact List.mem_cons_of_mem _ (h.taken k (List.mem_cons_of_mem _ inside))

theorem fillNumbers_kept (h : kept[i]? = some (some n)) :
    (fillNumbers taken next kept)[i]? = some n := by
  induction kept generalizing taken next i with
  | nil => exact absurd h (by simp)
  | cons x rest ih =>
    cases i with
    | zero =>
      obtain rfl : x = some n := by simpa using h
      rfl
    | succ i =>
      cases x <;> exact ih h

theorem fillNumbers_least (f : Filling taken next kept) {c : Nat} (h : kept[i]? = some none)
    (found : (fillNumbers taken next kept)[i]? = some c) :
    IsLeast {m | 0 < m ∧ m ∉ taken ∧ m ∉ (fillNumbers taken next kept).take i} c := by
  induction kept generalizing taken next i with
  | nil => exact absurd h (by simp)
  | cons x rest ih =>
    cases i with
    | zero =>
      obtain rfl : x = none := by simpa using h
      obtain rfl : freeNumber taken next = c := by simpa [fillNumbers] using found
      simpa using freeNumber_isLeast_pos f.below f.pos
    | succ i =>
      cases x with
      | none =>
        -- What is filled in here is taken behind it.
        convert ih f.of_none h found using 1
        ext m
        simp only [fillNumbers, List.take_succ_cons, List.mem_cons, Set.mem_ofPred_eq]
        tauto
      | some k =>
        have there : k ∈ taken := f.taken k List.mem_cons_self
        convert ih f.of_some h found using 1
        ext m
        simp only [fillNumbers, List.take_succ_cons, List.mem_cons, Set.mem_ofPred_eq]
        have other : m ∉ taken → m ≠ k := fun free same => free (same ▸ there)
        tauto

/-- A number that is filled in is not taken. -/
theorem mem_fillNumbers (h : n ∈ fillNumbers taken next kept) : some n ∈ kept ∨ n ∉ taken := by
  induction kept generalizing taken next with
  | nil => exact absurd h List.not_mem_nil
  | cons x rest ih =>
    cases x with
    | none =>
      rcases List.mem_cons.1 h with rfl | later
      · exact .inr (freeNumber_isLeast taken next).1.2
      · exact (ih later).imp (List.mem_cons_of_mem _) fun free inside =>
          free (List.mem_cons_of_mem _ inside)
    | some k =>
      rcases List.mem_cons.1 h with rfl | later
      · exact .inl List.mem_cons_self
      · exact (ih later).imp_left (List.mem_cons_of_mem _)

theorem nodup_fillNumbers (f : Filling taken next kept) (once : (kept.filterMap id).Nodup) :
    (fillNumbers taken next kept).Nodup := by
  induction kept generalizing taken next with
  | nil => exact List.nodup_nil
  | cons x rest ih =>
    cases x with
    | none =>
      refine List.nodup_cons.2 ⟨fun again => ?_, ih f.of_none once⟩
      rcases mem_fillNumbers again with kept | free
      · exact (freeNumber_isLeast taken next).1.2 (f.taken _ (List.mem_cons_of_mem _ kept))
      · exact free List.mem_cons_self
    | some k =>
      obtain ⟨first, once⟩ := List.nodup_cons.1 once
      refine List.nodup_cons.2 ⟨fun again => ?_, ih f.of_some once⟩
      rcases mem_fillNumbers again with kept | free
      · exact first (List.mem_filterMap.2 ⟨_, kept, rfl⟩)
      · exact free (f.taken k List.mem_cons_self)

/-! ### All numbers -/

theorem nodup_keptNumbers (taken : List Nat) (nodes : List NodeId) :
    ((keptNumbers taken nodes).filterMap id).Nodup := by
  induction nodes generalizing taken with
  | nil => exact List.nodup_nil
  | cons q rest ih =>
    rw [keptNumbers_cons]
    cases first : kept? taken q with
    | none => exact ih _
    | some n =>
      refine List.nodup_cons.2 ⟨fun again => ?_, ih _⟩
      obtain ⟨_, inside, rfl⟩ := List.mem_filterMap.1 again
      exact (mem_keptNumbers.1 inside).1 List.mem_cons_self

theorem filling_copyNumbers (nodes : List NodeId) :
    Filling ((keptNumbers [] nodes).filterMap id) 1 (keptNumbers [] nodes) :=
  ⟨Nat.one_pos, fun _ pos before => absurd pos (Nat.not_lt_of_le (Nat.le_of_lt_succ before)),
    fun n inside => List.mem_filterMap.2 ⟨some n, inside, rfl⟩⟩

/-- There is a number for each copy. -/
theorem length_copyNumbers (nodes : List NodeId) : (copyNumbers nodes).length = nodes.length := by
  rw [copyNumbers, length_fillNumbers, length_keptNumbers]

theorem getElem?_keptNumbers_nil :
    (keptNumbers [] nodes)[i]? = some (some n) ↔ Keeps nodes i n := by
  simp [getElem?_keptNumbers]

theorem numbering_copyNumbers (nodes : List NodeId) : Numbering nodes (copyNumbers nodes) := by
  have filling := filling_copyNumbers nodes
  refine ⟨length_copyNumbers nodes, nodup_fillNumbers filling (nodup_keptNumbers [] nodes),
    fun i n keeps => fillNumbers_kept (getElem?_keptNumbers_nil.2 keeps), fun i c other found => ?_⟩
  have inside : i < (keptNumbers [] nodes).length := by
    obtain ⟨inside, -⟩ := List.getElem?_eq_some_iff.1 found
    rwa [length_copyNumbers, ← length_keptNumbers []] at inside
  have unkept : (keptNumbers [] nodes)[i]? = some none := by
    cases place : (keptNumbers [] nodes)[i] with
    | none => rw [List.getElem?_eq_getElem inside, place]
    | some n =>
      refine absurd (getElem?_keptNumbers_nil.1 ?_) (other n)
      rw [List.getElem?_eq_getElem inside, place]
  convert fillNumbers_least filling unkept found using 1
  ext m
  simp [mem_keptNumbers, copyNumbers]

section

variable {numbers' : List Nat}

/-- Behind the same numbers only one follows the rules. -/
theorem Numbering.next_unique (h : Numbering nodes numbers) (h' : Numbering nodes numbers')
    (before : numbers.take i = numbers'.take i) : numbers[i]? = numbers'[i]? := by
  have length : numbers.length = numbers'.length := h.length.trans h'.length.symm
  by_cases inside : i < numbers.length
  · by_cases keeper : ∃ n, Keeps nodes i n
    · obtain ⟨n, keeps⟩ := keeper
      rw [h.keeps i n keeps, h'.keeps i n keeps]
    · have found := List.getElem?_eq_getElem inside
      have found' := List.getElem?_eq_getElem (length ▸ inside)
      have least := h.least i _ (not_exists.1 keeper) found
      have least' := h'.least i _ (not_exists.1 keeper) found'
      rw [before] at least
      rw [found, found', least.unique least']
  · rw [List.getElem?_eq_none (Nat.le_of_not_lt inside),
      List.getElem?_eq_none (length ▸ Nat.le_of_not_lt inside)]

theorem Numbering.unique (h : Numbering nodes numbers) (h' : Numbering nodes numbers') :
    numbers = numbers' := by
  have upTo : ∀ i, numbers.take i = numbers'.take i := by
    intro i
    induction i with
    | zero => rfl
    | succ i ih => rw [List.take_add_one, List.take_add_one, ih, h.next_unique h' ih]
  have whole := upTo nodes.length
  rwa [← h.length, List.take_length, h.length, ← h'.length, List.take_length] at whole

end

/-- The numbers of copies are distinct, one for each node. Of nodes with one number the first keeps
    it, and the other nodes get the least positive numbers that are left, in order. No other numbers
    are given so. -/
theorem eq_copyNumbers_iff : numbers = copyNumbers nodes ↔ Numbering nodes numbers :=
  ⟨fun same => same ▸ numbering_copyNumbers nodes, fun h => h.unique (numbering_copyNumbers nodes)⟩

end Cartograph.Arrangement

/-!
# Keyed lists

Finite maps as lists of pairs; the keys are texts, or anything else with a decidable order. Two
disciplines share the look-up:

* a *sorted* list is kept in the order of its keys by `insert`, so that equal maps are equal lists
  and every printing of a map is the same text;
* an *ordered* list keeps each key where it first came by `put`, which replaces a value in place.

Texts are ordered by their characters' code points. The laws say what a look-up finds after each
operation (`find?_insert`, `find?_put`, `find?_erase`).
-/

namespace Cartograph.Keyed

variable {κ α : Type} [DecidableEq κ]

/-- The value of the first pair with the key. -/
def find? (k : κ) : List (κ × α) → Option α
  | [] => none
  | (j, a) :: rest => if j = k then some a else find? k rest

/-- Whether a pair has the key. -/
def contains (k : κ) (xs : List (κ × α)) : Bool := (find? k xs).isSome

/-- Sets the value of a key in a sorted list. -/
def insert [LT κ] [DecidableLT κ] (k : κ) (a : α) : List (κ × α) → List (κ × α)
  | [] => [(k, a)]
  | (j, b) :: rest =>
    if k = j then (k, a) :: rest
    else if k < j then (k, a) :: (j, b) :: rest
    else (j, b) :: insert k a rest

/-- Sets the value of a key in an ordered list: in its place if it has one, else at the end. -/
def put (k : κ) (a : α) : List (κ × α) → List (κ × α)
  | [] => [(k, a)]
  | (j, b) :: rest => if j = k then (k, a) :: rest else (j, b) :: put k a rest

/-- Removes all pairs with the key. -/
def erase (k : κ) (xs : List (κ × α)) : List (κ × α) := xs.filter (·.1 ≠ k)

/-- Changes the values of a key. -/
def modify (k : κ) (f : α → α) (xs : List (κ × α)) : List (κ × α) :=
  xs.map fun (j, a) => if j = k then (j, f a) else (j, a)

/-- Sets several keys of a sorted list, one after the other. -/
def insertAll [LT κ] [DecidableLT κ] (xs new : List (κ × α)) : List (κ × α) :=
  new.foldl (fun m (k, a) => insert k a m) xs

/-- The sorted list of pairs in any order; of several with one key the last counts. -/
def sorted [LT κ] [DecidableLT κ] (xs : List (κ × α)) : List (κ × α) := insertAll [] xs

/-- The ordered list of pairs; of several with one key the last value stands in the first place. -/
def ordered (xs : List (κ × α)) : List (κ × α) :=
  xs.foldl (fun m (k, a) => put k a m) []

/-- Adds a key to a sorted list of keys. -/
def insertKey [LT κ] [DecidableLT κ] (k : κ) : List κ → List κ
  | [] => [k]
  | j :: rest =>
    if k = j then j :: rest
    else if k < j then k :: j :: rest
    else j :: insertKey k rest

/-- The sorted list of the given keys, each once. -/
def keySet [LT κ] [DecidableLT κ] (ks : List κ) : List κ := ks.foldl (fun s k => insertKey k s) []

/-! ### Look-up -/

theorem find?_insert [LT κ] [DecidableLT κ] (k j : κ) (a : α) (xs : List (κ × α)) :
    find? j (insert k a xs) = if k = j then some a else find? j xs := by
  induction xs with
  | nil => simp [insert, find?]
  | cons x rest ih =>
    obtain ⟨i, b⟩ := x
    unfold insert
    split
    · subst_vars
      simp only [find?]
      split <;> rfl
    · split
      · simp only [find?]
      · simp only [find?, ih]
        split <;> split <;> simp_all

theorem find?_put (k j : κ) (a : α) (xs : List (κ × α)) :
    find? j (put k a xs) = if k = j then some a else find? j xs := by
  induction xs with
  | nil => simp [put, find?]
  | cons x rest ih =>
    obtain ⟨i, b⟩ := x
    unfold put
    split
    · subst_vars
      simp only [find?]
      split <;> rfl
    · simp only [find?, ih]
      split <;> split <;> simp_all

theorem find?_erase (k j : κ) (xs : List (κ × α)) :
    find? j (erase k xs) = if k = j then none else find? j xs := by
  induction xs with
  | nil => simp [erase, find?]
  | cons x rest ih =>
    obtain ⟨i, b⟩ := x
    unfold erase at ih ⊢
    by_cases h : i = k
    · subst h
      simp only [List.filter_cons, ne_eq, not_true_eq_false, decide_false, Bool.false_eq_true,
        if_false, ih, find?]
      split <;> rfl
    · simp only [List.filter_cons, ne_eq, h, not_false_eq_true, decide_true, if_true, find?, ih]
      split <;> split <;> simp_all

/-- Putting a value in an ordered list keeps the order of the keys it has. -/
theorem keys_put (k : κ) (a : α) (xs : List (κ × α)) :
    (put k a xs).map (·.1) = if k ∈ xs.map (·.1) then xs.map (·.1) else xs.map (·.1) ++ [k] := by
  induction xs with
  | nil => simp [put]
  | cons x rest ih =>
    obtain ⟨i, b⟩ := x
    unfold put
    by_cases h : i = k
    · simp [h]
    · have h' : ¬k = i := fun e => h e.symm
      simp only [h, if_false, List.map_cons, ih, List.mem_cons, h', false_or]
      split <;> simp

theorem mem_insertKey [LT κ] [DecidableLT κ] (k j : κ) (ks : List κ) :
    j ∈ insertKey k ks ↔ j = k ∨ j ∈ ks := by
  induction ks with
  | nil => simp [insertKey]
  | cons i rest ih =>
    unfold insertKey
    split
    · simp_all
    · split
      · simp
      · simp only [List.mem_cons, ih]
        constructor
        · rintro (h | h | h) <;> simp [h]
        · rintro (h | h | h) <;> simp [h]

end Cartograph.Keyed

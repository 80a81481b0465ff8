import Cartograph.Keyed

/-!
# Laws of keyed lists

What the operations do to the keys of a list, and what a look-up finds in a list that was changed
entry by entry. A *sorted* list is one whose keys strictly increase (`IsSorted`): `insert` keeps it
so, a look-up by key then finds every pair, and sorting it again changes nothing (`sorted_eq_self`).
-/

namespace Cartograph.Keyed

variable {κ α β : Type} [DecidableEq κ] {k j : κ} {a : α} {xs : List (κ × α)}

/-! ### Keys -/

theorem find?_isSome_iff : (find? k xs).isSome ↔ k ∈ xs.map (·.1) := by
  induction xs with
  | nil => simp [find?]
  | cons x rest ih =>
    obtain ⟨i, b⟩ := x
    by_cases h : i = k
    · simp [find?, h]
    · have h' : ¬k = i := fun e => h e.symm
      simp [find?, h, h', ih]

theorem contains_iff : contains k xs = true ↔ k ∈ xs.map (·.1) := find?_isSome_iff

theorem find?_eq_none_iff : find? k xs = none ↔ k ∉ xs.map (·.1) := by
  rw [← find?_isSome_iff, Option.not_isSome_iff_eq_none]

theorem mem_of_find? (h : find? k xs = some a) : (k, a) ∈ xs := by
  induction xs with
  | nil => simp [find?] at h
  | cons x rest ih =>
    obtain ⟨i, b⟩ := x
    unfold find? at h
    split at h
    · next e => simp_all
    · exact List.mem_cons_of_mem _ (ih h)

/-- With pairwise different keys, every pair is what its key finds. -/
theorem find?_of_mem (nodup : (xs.map (·.1)).Nodup) (h : (k, a) ∈ xs) : find? k xs = some a := by
  induction xs with
  | nil => exact absurd h List.not_mem_nil
  | cons x rest ih =>
    obtain ⟨i, b⟩ := x
    rw [List.map_cons, List.nodup_cons] at nodup
    rcases List.mem_cons.1 h with e | h
    · cases e
      simp [find?]
    · have ne : i ≠ k := by
        intro e
        exact nodup.1 (e ▸ List.mem_map_of_mem (f := (·.1)) h)
      rw [find?, if_neg ne]
      exact ih nodup.2 h

theorem find?_append (ys : List (κ × α)) :
    find? k (xs ++ ys) = (find? k xs).or (find? k ys) := by
  induction xs with
  | nil => simp [find?]
  | cons x rest ih =>
    obtain ⟨i, b⟩ := x
    rw [List.cons_append, find?, find?]
    split
    · rfl
    · exact ih

/-- A look-up in a list whose values were changed by key. -/
theorem find?_map_value (f : κ → α → β) :
    find? k (xs.map fun (i, b) => (i, f i b)) = (find? k xs).map (f k) := by
  induction xs with
  | nil => rfl
  | cons x rest ih =>
    obtain ⟨i, b⟩ := x
    by_cases h : i = k
    · subst h
      simp [find?]
    · simpa [find?, h] using ih

/-- A look-up of a key that only the key `j` became. -/
theorem find?_map_key {key : κ → κ} (f : α → β) (only : ∀ i ∈ xs.map (·.1), key i = k ↔ i = j) :
    find? k (xs.map fun (i, b) => (key i, f b)) = (find? j xs).map f := by
  induction xs with
  | nil => rfl
  | cons x rest ih =>
    obtain ⟨i, b⟩ := x
    have here := only i List.mem_cons_self
    have rest := ih fun i' h => only i' (List.mem_cons_of_mem _ h)
    by_cases h : i = j
    · have h' : key j = k := h ▸ here.2 h
      simp [find?, h', h]
    · have h' : ¬key i = k := fun e => h (here.1 e)
      simpa [find?, h, h'] using rest

theorem find?_map_key_none {key : κ → κ} (f : α → β) (no : ∀ i ∈ xs.map (·.1), key i ≠ k) :
    find? k (xs.map fun (i, b) => (key i, f b)) = none := by
  rw [find?_eq_none_iff]
  intro h
  rw [List.map_map] at h
  obtain ⟨⟨i, b⟩, inside, e⟩ := List.mem_map.1 h
  exact no i (List.mem_map_of_mem inside) e

theorem find?_modify (f : α → α) :
    find? k (modify j f xs) = if j = k then (find? k xs).map f else find? k xs := by
  have shape : modify j f xs = xs.map fun (i, b) => (i, if i = j then f b else b) := by
    unfold modify
    refine List.map_congr_left fun ⟨i, b⟩ _ => ?_
    by_cases h : i = j <;> simp [h]
  rw [shape, find?_map_value fun i b => if i = j then f b else b]
  by_cases h : j = k
  · subst h
    simp
  · have h' : ¬k = j := fun e => h e.symm
    simp [h, h']

theorem keys_modify (f : α → α) : (modify j f xs).map (·.1) = xs.map (·.1) := by
  unfold modify
  rw [List.map_map]
  refine List.map_congr_left fun ⟨i, b⟩ _ => ?_
  by_cases h : i = j <;> simp [h]

theorem keys_erase : (erase k xs).map (·.1) = (xs.map (·.1)).filter (· ≠ k) := by
  unfold erase
  rw [List.filter_map]
  rfl

theorem erase_comm : erase k (erase j xs) = erase j (erase k xs) := by
  unfold erase
  rw [List.filter_filter, List.filter_filter]
  exact congrArg (List.filter · xs) (funext fun _ => Bool.and_comm _ _)

/-- Setting other keys changes nothing for a look-up. -/
theorem find?_insertAll_of_not_mem [LT κ] [DecidableLT κ] {new : List (κ × α)}
    (other : k ∉ new.map (·.1)) : find? k (insertAll xs new) = find? k xs := by
  induction new generalizing xs with
  | nil => rfl
  | cons x rest ih =>
    rw [List.map_cons, List.mem_cons, not_or] at other
    refine (ih other.2).trans ?_
    rw [find?_insert, if_neg (Ne.symm other.1)]

/-! ### Values changed alike -/

theorem contains_map_value (f : α → β) :
    contains k (xs.map fun e => (e.1, f e.2)) = contains k xs := by
  rw [contains, contains, find?_map_value fun _ => f, Option.isSome_map]

theorem insert_map_value [LT κ] [DecidableLT κ] (f : α → β) (xs : List (κ × α)) :
    (insert k a xs).map (fun e => (e.1, f e.2)) =
      insert k (f a) (xs.map fun e => (e.1, f e.2)) := by
  induction xs with
  | nil => rfl
  | cons x rest ih =>
    simp only [insert, List.map_cons]
    split
    · rfl
    · split
      · rfl
      · rw [List.map_cons, ih]

theorem insertAll_map_value [LT κ] [DecidableLT κ] (f : α → β) (xs new : List (κ × α)) :
    (insertAll xs new).map (fun e => (e.1, f e.2)) =
      insertAll (xs.map fun e => (e.1, f e.2)) (new.map fun e => (e.1, f e.2)) := by
  induction new generalizing xs with
  | nil => rfl
  | cons x rest ih =>
    refine (ih _).trans ?_
    rw [insert_map_value]
    rfl

theorem erase_map_value (f : α → β) (xs : List (κ × α)) :
    (erase k xs).map (fun e => (e.1, f e.2)) = erase k (xs.map fun e => (e.1, f e.2)) := by
  rw [erase, erase, List.filter_map]
  rfl

theorem modify_map_value (f : α → α) (f' : β → β) {h : α → β} (same : ∀ a, h (f a) = f' (h a))
    (xs : List (κ × α)) :
    (modify k f xs).map (fun e => (e.1, h e.2)) = modify k f' (xs.map fun e => (e.1, h e.2)) := by
  unfold modify
  rw [List.map_map, List.map_map]
  refine List.map_congr_left fun e _ => ?_
  by_cases here : e.1 = k
  · simp [here, same]
  · simp [here]

/-! ### Order -/

omit [DecidableEq κ] in
/-- Keys that some pairs are asked for stand in their order. -/
theorem filterMap_sublist {f : κ × α → Option κ} (h : ∀ x k, f x = some k → k = x.1) :
    (xs.filterMap f).Sublist (xs.map (·.1)) := by
  induction xs with
  | nil => exact .slnil
  | cons x rest ih =>
    cases found : f x with
    | none =>
      rw [List.filterMap_cons_none found]
      exact ih.cons _
    | some k =>
      rw [List.filterMap_cons_some found, h x k found]
      exact ih.cons_cons _

/-- A list in which each key stands once is what putting its pairs one by one gives. -/
theorem ordered_eq_self (nodup : (xs.map (·.1)).Nodup) : ordered xs = xs := by
  have step : ∀ (rest done : List (κ × α)), ((done ++ rest).map (·.1)).Nodup →
      rest.foldl (fun m (k, a) => put k a m) done = done ++ rest := by
    intro rest
    induction rest with
    | nil => simp
    | cons x rest ih =>
      obtain ⟨i, b⟩ := x
      intro done nodup
      have new : i ∉ done.map (·.1) := by
        intro h
        rw [List.map_append, List.nodup_append] at nodup
        exact nodup.2.2 i h i (by simp) rfl
      have grown : put i b done = done ++ [(i, b)] := by
        clear ih nodup
        induction done with
        | nil => rfl
        | cons y done ih =>
          obtain ⟨j, c⟩ := y
          simp only [List.map_cons, List.mem_cons, not_or] at new
          rw [put, if_neg fun e => new.1 e.symm, ih new.2, List.cons_append]
      have grow := ih (done ++ [(i, b)]) (by simpa using nodup)
      rw [List.append_assoc, ← grown] at grow
      exact grow
  exact step xs [] nodup

/-! ### Sorted lists -/

section Sorted

variable [LE κ] [LT κ] [DecidableLT κ] [Std.IsLinearOrder κ] [Std.LawfulOrderLT κ]

/-- The keys strictly increase. -/
def IsSorted (xs : List (κ × α)) : Prop := (xs.map (·.1)).Pairwise (· < ·)

omit [DecidableEq κ] [DecidableLT κ] in
theorem lt_of_not_lt_of_ne {i j : κ} (ne : i ≠ j) (h : ¬i < j) : j < i :=
  Std.lt_of_le_of_ne (Std.not_lt.1 h) ne.symm

omit [DecidableEq κ] [DecidableLT κ] [Std.IsLinearOrder κ] in
theorem IsSorted.nodup (h : IsSorted xs) : (xs.map (·.1)).Nodup := by
  refine List.Pairwise.imp ?_ h
  intro i j lt e
  exact Std.lt_irrefl (e ▸ lt)

omit [LE κ] [Std.IsLinearOrder κ] [Std.LawfulOrderLT κ] in
theorem mem_keys_insert : j ∈ (insert k a xs).map (·.1) ↔ j = k ∨ j ∈ xs.map (·.1) := by
  rw [← find?_isSome_iff, find?_insert, ← find?_isSome_iff]
  by_cases h : k = j
  · simp [h]
  · have h' : ¬j = k := fun e => h e.symm
    simp [h, h']

omit [LE κ] [Std.IsLinearOrder κ] [Std.LawfulOrderLT κ] in
theorem mem_keys_insertAll {new : List (κ × α)} :
    j ∈ (insertAll xs new).map (·.1) ↔ j ∈ new.map (·.1) ∨ j ∈ xs.map (·.1) := by
  induction new generalizing xs with
  | nil => simp [insertAll]
  | cons x rest ih =>
    obtain ⟨k, a⟩ := x
    rw [insertAll, List.foldl_cons, ← insertAll, ih, mem_keys_insert, List.map_cons, List.mem_cons,
      or_left_comm, or_assoc]

omit [LE κ] [Std.IsLinearOrder κ] [Std.LawfulOrderLT κ] in
/-- What is picked from a list does not change with entries that nothing is picked from. -/
theorem filterMap_insert {f : κ × α → Option β} (none : ∀ b, f (k, b) = none) :
    (insert k a xs).filterMap f = xs.filterMap f := by
  induction xs with
  | nil => rw [insert, List.filterMap_cons, none]
  | cons x rest ih =>
    obtain ⟨i, b⟩ := x
    rw [insert]
    split
    · next same => rw [List.filterMap_cons, List.filterMap_cons, none, ← same, none]
    · split
      · rw [List.filterMap_cons, none]
      · rw [List.filterMap_cons, List.filterMap_cons, ih]

omit [LE κ] [Std.IsLinearOrder κ] [Std.LawfulOrderLT κ] in
theorem mem_insert {x : κ × α} (h : x ∈ insert k a xs) : x = (k, a) ∨ x ∈ xs := by
  induction xs with
  | nil => exact .inl (List.mem_singleton.1 h)
  | cons y rest ih =>
    obtain ⟨i, b⟩ := y
    unfold insert at h
    split at h
    · rcases List.mem_cons.1 h with rfl | h
      · exact .inl rfl
      · exact .inr (List.mem_cons_of_mem _ h)
    · split at h
      · exact (List.mem_cons.1 h).imp id id
      · rcases List.mem_cons.1 h with rfl | h
        · exact .inr List.mem_cons_self
        · exact (ih h).imp id (List.mem_cons_of_mem _)

omit [LE κ] [Std.IsLinearOrder κ] [Std.LawfulOrderLT κ] in
theorem mem_insertAll {x : κ × α} {new : List (κ × α)} (h : x ∈ insertAll xs new) :
    x ∈ xs ∨ x ∈ new := by
  induction new generalizing xs with
  | nil => exact .inl h
  | cons y new ih =>
    rcases ih h with h | h
    · rcases mem_insert h with rfl | h
      · exact .inr List.mem_cons_self
      · exact .inl h
    · exact .inr (List.mem_cons_of_mem _ h)

omit [LE κ] [Std.IsLinearOrder κ] [Std.LawfulOrderLT κ] in
theorem mem_sorted {x : κ × α} (h : x ∈ sorted xs) : x ∈ xs :=
  (mem_insertAll h).resolve_left List.not_mem_nil

theorem IsSorted.insert (h : IsSorted xs) : IsSorted (insert k a xs) := by
  induction xs with
  | nil => simp [IsSorted, Keyed.insert]
  | cons x rest ih =>
    obtain ⟨i, b⟩ := x
    obtain ⟨first, tail⟩ := List.pairwise_cons.1 h
    unfold Keyed.insert
    split
    · next e =>
      subst e
      exact h
    · next ne =>
      split
      · next lt =>
        refine List.pairwise_cons.2 ⟨fun j hj => ?_, h⟩
        rcases List.mem_cons.1 hj with rfl | hj
        · exact lt
        · exact Std.lt_trans lt (first j hj)
      · next nlt =>
        refine List.pairwise_cons.2 ⟨fun j hj => ?_, ih tail⟩
        rcases mem_keys_insert.1 hj with rfl | hj
        · exact lt_of_not_lt_of_ne ne nlt
        · exact first j hj

theorem IsSorted.insertAll (h : IsSorted xs) (new : List (κ × α)) :
    IsSorted (insertAll xs new) := by
  induction new generalizing xs with
  | nil => exact h
  | cons x new ih => exact ih h.insert

theorem isSorted_sorted (xs : List (κ × α)) : IsSorted (sorted xs) :=
  IsSorted.insertAll (by simp [IsSorted]) xs

omit [LE κ] [DecidableLT κ] [Std.IsLinearOrder κ] [Std.LawfulOrderLT κ] in
theorem IsSorted.erase (h : IsSorted xs) : IsSorted (erase k xs) := by
  unfold IsSorted
  rw [keys_erase]
  exact List.Pairwise.filter _ h

omit [DecidableEq κ] [LE κ] [DecidableLT κ] [Std.IsLinearOrder κ] [Std.LawfulOrderLT κ] in
theorem IsSorted.of_keys_eq {ys : List (κ × β)} (h : IsSorted xs)
    (same : ys.map (·.1) = xs.map (·.1)) : IsSorted ys := by
  unfold IsSorted
  rw [same]
  exact h

omit [DecidableEq κ] [LE κ] [DecidableLT κ] [Std.IsLinearOrder κ] [Std.LawfulOrderLT κ] in
theorem isSorted_map_value (f : κ → α → β) :
    IsSorted (xs.map fun (i, b) => (i, f i b)) ↔ IsSorted xs := by
  rw [IsSorted, IsSorted, List.map_map]
  rfl

omit [LE κ] [DecidableLT κ] [Std.IsLinearOrder κ] [Std.LawfulOrderLT κ] in
theorem IsSorted.modify {f : α → α} (h : IsSorted xs) : IsSorted (modify k f xs) := by
  unfold IsSorted
  rwa [keys_modify]

theorem insert_of_forall_lt (h : ∀ j ∈ xs.map (·.1), j < k) : insert k a xs = xs ++ [(k, a)] := by
  induction xs with
  | nil => rfl
  | cons x rest ih =>
    obtain ⟨i, b⟩ := x
    have lt : i < k := h i (by simp)
    have ne : k ≠ i := fun e => Std.lt_irrefl (e ▸ lt)
    have nlt : ¬k < i := fun gt => Std.lt_irrefl (Std.lt_trans lt gt)
    rw [insert, if_neg ne, if_neg nlt, ih fun j hj => h j (List.mem_cons_of_mem _ hj),
      List.cons_append]

theorem sorted_eq_self (h : IsSorted xs) : sorted xs = xs := by
  have step : ∀ (rest done : List (κ × α)), IsSorted (done ++ rest) →
      insertAll done rest = done ++ rest := by
    intro rest
    induction rest with
    | nil => simp [insertAll]
    | cons x rest ih =>
      obtain ⟨i, b⟩ := x
      intro done h
      have below : ∀ j ∈ done.map (·.1), j < i := by
        intro j hj
        unfold IsSorted at h
        rw [List.map_append, List.pairwise_append] at h
        exact h.2.2 j hj i (by simp)
      have grow := ih (done ++ [(i, b)]) (by rwa [List.append_assoc])
      rw [List.append_assoc, ← insert_of_forall_lt below] at grow
      exact grow
  exact step xs [] h

theorem insert_comm_of_lt {b : α} (lt : k < j) :
    insert k a (insert j b xs) = insert j b (insert k a xs) := by
  have ne : k ≠ j := fun e => Std.lt_irrefl (e ▸ lt)
  have nlt : ¬j < k := fun gt => Std.lt_irrefl (Std.lt_trans lt gt)
  induction xs with
  | nil => simp [insert, ne, ne.symm, lt, nlt]
  | cons x rest ih =>
    obtain ⟨i, c⟩ := x
    by_cases here : j = i
    · subst here
      simp [insert, ne, ne.symm, lt, nlt]
    by_cases before : j < i
    · -- Both are put before the first pair.
      have lt' := Std.lt_trans lt before
      have ne' : k ≠ i := fun e => Std.lt_irrefl (e ▸ lt')
      simp [insert, here, before, ne, ne.symm, ne', lt, lt', nlt]
    by_cases there : k = i
    · subst there
      simp [insert, here, before]
    · by_cases first : k < i
      · simp [insert, here, before, there, first, ne.symm, nlt]
      · simp [insert, here, before, there, first, ih]

theorem insert_comm {b : α} (ne : k ≠ j) :
    insert k a (insert j b xs) = insert j b (insert k a xs) := by
  by_cases lt : k < j
  · exact insert_comm_of_lt lt
  · exact (insert_comm_of_lt (lt_of_not_lt_of_ne ne lt)).symm

theorem insertAll_insert {new : List (κ × α)} (other : k ∉ new.map (·.1)) :
    insertAll (insert k a xs) new = insert k a (insertAll xs new) := by
  induction new generalizing xs with
  | nil => rfl
  | cons x rest ih =>
    obtain ⟨j, b⟩ := x
    rw [List.map_cons, List.mem_cons, not_or] at other
    exact (congrArg (insertAll · rest) (insert_comm (Ne.symm other.1))).trans (ih other.2)

/-- Pairs with different keys can be set in either order. -/
theorem insertAll_comm {new new' : List (κ × α)}
    (disjoint : ∀ k ∈ new.map (·.1), k ∉ new'.map (·.1)) :
    insertAll (insertAll xs new) new' = insertAll (insertAll xs new') new := by
  induction new generalizing xs with
  | nil => rfl
  | cons x rest ih =>
    obtain ⟨k, a⟩ := x
    obtain ⟨first, others⟩ := List.forall_mem_cons.1 disjoint
    refine (ih others).trans ?_
    exact congrArg (insertAll · rest) (insertAll_insert first)

end Sorted

/-! ### Sets of keys -/

section KeySet

variable [LT κ] [DecidableLT κ] {ks : List κ}

@[simp]
theorem mem_keySet : k ∈ keySet ks ↔ k ∈ ks := by
  have step : ∀ (rest done : List κ),
      k ∈ rest.foldl (fun s i => insertKey i s) done ↔ k ∈ done ∨ k ∈ rest := by
    intro rest
    induction rest with
    | nil => simp
    | cons i rest ih =>
      intro done
      rw [List.foldl_cons, ih, mem_insertKey, List.mem_cons, or_assoc, or_left_comm]
  simpa [keySet] using step ks []

theorem pairwise_insertKey [LE κ] [Std.IsLinearOrder κ] [Std.LawfulOrderLT κ]
    (h : ks.Pairwise (· < ·)) : (insertKey k ks).Pairwise (· < ·) := by
  induction ks with
  | nil => simp [insertKey]
  | cons i rest ih =>
    obtain ⟨first, tail⟩ := List.pairwise_cons.1 h
    unfold insertKey
    split
    · exact h
    · next ne =>
      split
      · next lt =>
        refine List.pairwise_cons.2 ⟨fun j hj => ?_, h⟩
        rcases List.mem_cons.1 hj with rfl | hj
        · exact lt
        · exact Std.lt_trans lt (first j hj)
      · next nlt =>
        refine List.pairwise_cons.2 ⟨fun j hj => ?_, ih tail⟩
        rcases (mem_insertKey k j rest).1 hj with rfl | hj
        · exact lt_of_not_lt_of_ne ne nlt
        · exact first j hj

theorem pairwise_keySet [LE κ] [Std.IsLinearOrder κ] [Std.LawfulOrderLT κ] (ks : List κ) :
    (keySet ks).Pairwise (· < ·) := by
  have step : ∀ (rest done : List κ), done.Pairwise (· < ·) →
      (rest.foldl (fun s i => insertKey i s) done).Pairwise (· < ·) := by
    intro rest
    induction rest with
    | nil => exact fun _ h => h
    | cons i rest ih => exact fun done h => ih _ (pairwise_insertKey h)
  exact step ks [] List.Pairwise.nil

theorem nodup_keySet [LE κ] [Std.IsLinearOrder κ] [Std.LawfulOrderLT κ] (ks : List κ) :
    (keySet ks).Nodup := by
  refine (pairwise_keySet ks).imp ?_
  intro i j lt e
  exact Std.lt_irrefl (e ▸ lt)

/-- A search through a set finds what its least key with anything to find has. -/
theorem findSome?_keySet [LE κ] [Std.IsLinearOrder κ] [Std.LawfulOrderLT κ] {f : κ → Option α} :
    (keySet ks).findSome? f = some a ↔
      ∃ k ∈ ks, f k = some a ∧ ∀ j ∈ ks, j < k → f j = none := by
  have sorted := pairwise_keySet ks
  have found : ∀ {a}, (keySet ks).findSome? f = some a →
      ∃ k ∈ ks, f k = some a ∧ ∀ j ∈ ks, j < k → f j = none := by
    intro a h
    obtain ⟨before, k, after, split, here, none⟩ := List.findSome?_eq_some_iff.1 h
    rw [split, List.pairwise_append, List.pairwise_cons] at sorted
    refine ⟨k, mem_keySet.1 (by simp [split]), here, fun j hj lt => ?_⟩
    rw [← mem_keySet, split, List.mem_append, List.mem_cons] at hj
    rcases hj with inside | rfl | inside
    · exact none j inside
    · exact absurd lt Std.lt_irrefl
    · exact absurd (Std.lt_trans lt (sorted.2.1.1 j inside)) Std.lt_irrefl
  refine ⟨found, fun ⟨k, hk, here, least⟩ => ?_⟩
  cases h : (keySet ks).findSome? f with
  | none =>
    rw [List.findSome?_eq_none_iff] at h
    exact absurd (h k (mem_keySet.2 hk)) (by simp [here])
  | some b =>
    obtain ⟨j, hj, there, least'⟩ := found h
    -- Each of the two keys is the least one, so they are the same.
    have same : j = k := by
      refine Decidable.byContradiction fun ne => ?_
      by_cases lt : j < k
      · exact absurd (least j hj lt) (by simp [there])
      · exact absurd (least' k hk (lt_of_not_lt_of_ne ne lt)) (by simp [here])
    rw [← there, same, here]

end KeySet

end Cartograph.Keyed

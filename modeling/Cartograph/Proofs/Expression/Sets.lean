import Mathlib
import Cartograph.Proofs.Expression.Functions
import Cartograph.Proofs.Keyed

/-!
# Sets of values

The members of a list, each once, are those that the list begins with (`distinct_append_singleton`);
only texts are put in order. So the set of a list hangs on the order of the list, unless its members
are all texts, or all the same value that equals itself (`setOf_invariant_iff`).
-/

namespace Cartograph.Expression

variable {v w : Value} {items items' : List Value}

/-- A list of texts. -/
def Texts (items : List Value) : Prop := ∀ w ∈ items, ∃ t, w = .text t

/-- Lists with the same members, in any order and repeated at will. -/
def SameMembers (items items' : List Value) : Prop := ∀ w, w ∈ items' ↔ w ∈ items

/-! ### Members, each once -/

/-- A member at the end is left out if one like it is there. -/
theorem distinct_append_singleton (items : List Value) (v : Value) :
    distinct (items ++ [v]) =
      if (distinct items).any (sameValue · v) then distinct items else distinct items ++ [v] := by
  unfold distinct
  rw [List.foldl_append, List.foldl_cons, List.foldl_nil, List.any_reverse]
  split
  · rfl
  · exact List.reverse_cons

theorem head?_distinct (v : Value) (items : List Value) :
    (distinct (v :: items)).head? = some v := by
  induction items using List.reverseRecOn with
  | nil => rfl
  | append_singleton items w ih =>
    rw [← List.cons_append, distinct_append_singleton]
    split
    · exact ih
    · rw [List.head?_append, ih]
      rfl

/-- What is left out of a list is like something that is left in. -/
theorem exists_same_of_mem (inside : w ∈ items) :
    w ∈ distinct items ∨ ∃ v ∈ distinct items, sameValue v w := by
  induction items using List.reverseRecOn with
  | nil => exact absurd inside List.not_mem_nil
  | append_singleton items v ih =>
    rw [distinct_append_singleton]
    rcases List.mem_append.1 inside with before | last
    · split
      · exact ih before
      · rcases ih before with left | ⟨u, there, same⟩
        · exact .inl (List.mem_append_left _ left)
        · exact .inr ⟨u, List.mem_append_left _ there, same⟩
    · obtain rfl := List.mem_singleton.1 last
      split
      · next found => exact .inr (List.any_eq_true.1 found)
      · exact .inl (List.mem_append_right _ last)

/-- Of a value that equals itself only one is left. -/
theorem distinct_of_all_eq (itself : sameValue v v) (all : ∀ w ∈ items, w = v)
    (some : items ≠ []) : distinct items = [v] := by
  induction items using List.reverseRecOn with
  | nil => exact absurd rfl some
  | append_singleton items w ih =>
    have last : w = v := all w (List.mem_append_right _ (List.mem_singleton_self w))
    rw [distinct_append_singleton, last]
    by_cases none : items = []
    · rw [none]
      rfl
    · rw [ih (fun u hu => all u (List.mem_append_left _ hu)) none]
      exact if_pos (by simpa using itself)

/-! ### Texts -/

theorem texts_distinct_iff : Texts (distinct items) ↔ Texts items := by
  refine ⟨fun texts w inside => ?_, fun texts w inside => texts w (mem_of_mem_distinct inside)⟩
  rcases exists_same_of_mem inside with left | ⟨v, there, same⟩
  · exact texts w left
  · obtain ⟨t, rfl⟩ := texts v there
    exact ⟨t, eq_text_of_sameValue same⟩

/-- A text that is left out is left in elsewhere. -/
theorem text_mem_distinct_iff {t : String} (texts : Texts items) :
    .text t ∈ distinct items ↔ .text t ∈ items := by
  refine ⟨mem_of_mem_distinct, fun inside => ?_⟩
  rcases exists_same_of_mem inside with left | ⟨v, there, same⟩
  · exact left
  · obtain ⟨u, rfl⟩ := texts v (mem_of_mem_distinct there)
    rwa [eq_text_of_sameValue same]

theorem mapM_asText?_eq_some_iff {ts : List String} :
    items.mapM Value.asText? = some ts ↔ items = ts.map .text := by
  induction items generalizing ts with
  | nil => cases ts <;> simp
  | cons w rest ih =>
    rw [List.mapM_cons]
    cases w with
    | text t =>
      cases ts with
      | nil => simp [Value.asText?, Option.bind_eq_some_iff]
      | cons u us => simp [Value.asText?, Option.bind_eq_some_iff, ih, and_comm]
    | _ => cases ts <;> simp [Value.asText?]

theorem texts_iff : Texts items ↔ ∃ ts : List String, items = ts.map .text := by
  constructor
  · intro texts
    refine ⟨items.filterMap Value.asText?, ?_⟩
    induction items with
    | nil => rfl
    | cons w rest ih =>
      obtain ⟨⟨t, rfl⟩, others⟩ := List.forall_mem_cons.1 texts
      exact congrArg (Value.text t :: ·) (ih others)
  · rintro ⟨ts, rfl⟩ w inside
    obtain ⟨t, -, rfl⟩ := List.mem_map.1 inside
    exact ⟨t, rfl⟩

/-- A list of texts is a set in order. -/
theorem exists_setOf_eq (texts : Texts items) : ∃ ts : List String,
    setOf items = (Keyed.keySet ts).map .text ∧ ∀ t, t ∈ ts ↔ .text t ∈ items := by
  obtain ⟨ts, left⟩ := texts_iff.1 (texts_distinct_iff.2 texts)
  refine ⟨ts, ?_, fun t => ?_⟩
  · unfold setOf
    dsimp only
    rw [mapM_asText?_eq_some_iff.2 left]
  · rw [← text_mem_distinct_iff texts, left, List.mem_map]
    simp

/-- Any other list is left in its order. -/
theorem setOf_of_not_texts (other : ¬Texts items) : setOf items = distinct items := by
  unfold setOf
  dsimp only
  split
  · next ts found =>
    exact absurd (texts_distinct_iff.1 (texts_iff.2 ⟨ts, mapM_asText?_eq_some_iff.1 found⟩)) other
  · rfl

/-- The printed members of a set of texts are in order, and each is there once. -/
theorem pairwise_setOf (texts : Texts items) :
    ((setOf items).map Value.toText).Pairwise (· < ·) := by
  obtain ⟨ts, set, -⟩ := exists_setOf_eq texts
  rw [set, List.map_map]
  exact (List.map_id (Keyed.keySet ts)).symm ▸ Keyed.pairwise_keySet ts

/-! ### Order and repetition -/

theorem SameMembers.texts (same : SameMembers items items') (texts : Texts items) :
    Texts items' := fun w inside => texts w ((same w).1 inside)

theorem keySet_congr {ks ls : List String} (same : ∀ k, k ∈ ks ↔ k ∈ ls) :
    Keyed.keySet ks = Keyed.keySet ls := by
  have members : (Keyed.keySet ks).Perm (Keyed.keySet ls) :=
    (List.perm_ext_iff_of_nodup (Keyed.nodup_keySet ks) (Keyed.nodup_keySet ls)).2 fun k => by
      rw [Keyed.mem_keySet, Keyed.mem_keySet, same]
  refine members.eq_of_pairwise (fun a b _ _ before after => ?_) (Keyed.pairwise_keySet ks)
    (Keyed.pairwise_keySet ls)
  exact absurd (Std.lt_trans before after) (Std.lt_irrefl)

/-- The set of a list of texts hangs on its members alone. -/
theorem setOf_congr (texts : Texts items) (same : SameMembers items items') :
    setOf items' = setOf items := by
  obtain ⟨ts, set, member⟩ := exists_setOf_eq texts
  obtain ⟨ts', set', member'⟩ := exists_setOf_eq (same.texts texts)
  rw [set, set', keySet_congr fun t => ?_]
  rw [member, member', same]

/-- The set of a list is the same for any order and repetition of its members just if they are all
    texts, or all one value that equals itself. -/
theorem setOf_invariant_iff :
    (∀ items', SameMembers items items' → setOf items' = setOf items) ↔
      Texts items ∨ ∃ v, sameValue v v ∧ ∀ w ∈ items, w = v := by
  constructor
  · intro invariant
    refine or_iff_not_imp_left.2 fun other => ?_
    obtain ⟨v, inside, plain⟩ : ∃ v ∈ items, ∀ t, v ≠ .text t := by
      simpa [Texts] using other
    -- Any other list with these members is left in its order, too.
    have left (items' : List Value) (same : SameMembers items items') :
        distinct items' = distinct items := by
      have other' : ¬Texts items' := fun texts => other fun w hw => texts w ((same w).2 hw)
      rw [← setOf_of_not_texts other, ← setOf_of_not_texts other']
      exact invariant items' same
    have front (w : Value) (hw : w ∈ items) : (distinct items).head? = some w := by
      rw [← left (w :: items) fun u => by simp +contextual [hw], head?_distinct]
    have all : ∀ w ∈ items, w = v := fun w hw =>
      Option.some.inj ((front w hw).symm.trans (front v inside))
    refine ⟨v, ?_, all⟩
    have once := left [v] fun u => by grind
    have twice := left [v, v] fun u => by grind
    by_contra differs
    have two : distinct [v, v] = [v, v] := by simp [distinct, differs]
    have one : distinct [v] = [v] := rfl
    exact absurd ((two.symm.trans twice).trans (once.symm.trans one)) (by simp)
  · rintro (texts | ⟨v, itself, all⟩) items' same
    · exact setOf_congr texts same
    · by_cases none : items = []
      · rw [none] at same ⊢
        rw [List.eq_nil_iff_forall_not_mem.2 fun w hw => List.not_mem_nil ((same w).1 hw)]
      · have none' : items' ≠ [] := by
          obtain ⟨w, hw⟩ := List.exists_mem_of_ne_nil items none
          exact List.ne_nil_of_mem ((same w).2 hw)
        have all' : ∀ w ∈ items', w = v := fun w hw => all w ((same w).1 hw)
        unfold setOf
        rw [distinct_of_all_eq itself all none, distinct_of_all_eq itself all' none']

end Cartograph.Expression

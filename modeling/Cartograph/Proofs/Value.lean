import Cartograph.Proofs.Decimal
import Cartograph.Proofs.Json.RoundTrip
import Cartograph.Proofs.Keyed
import Cartograph.Value

/-!
# Values through JSON

A value is *canonical* if its integers have 64 bits and its maps are sorted (`Value.Canonical`).
What is read of such a value's document is the value itself, but for two things (`Value.reread`): a
float that is not finite is missing, and a map with nothing but a text under the key of
placeholders is a placeholder (`Value.ofDocument?_shown`). Neither shows in the value's document
(`Value.toDocument_reread`).
-/

namespace Cartograph.Value

/-! ### Canonical values -/

/-- Integers have 64 bits, and maps are sorted. -/
inductive Canonical : Value → Prop
  | null : Canonical .null
  | bool {b : Bool} : Canonical (.bool b)
  | int {i : Int} : Decimal.IsWord i → Canonical (.int i)
  | float {f : Float} : Canonical (.float f)
  | text {s : String} : Canonical (.text s)
  | list {items : List Value} : (∀ v ∈ items, Canonical v) → Canonical (.list items)
  | unresolved {e : String} : Canonical (.unresolved e)
  | map {entries : Attributes} : Keyed.IsSorted entries → (∀ e ∈ entries, Canonical e.2) →
    Canonical (.map entries)

variable {v : Value} {entries : Attributes}

theorem Canonical.isWord {i : Int} (h : Canonical (.int i)) : Decimal.IsWord i := by
  cases h with
  | int word => exact word

theorem Canonical.list_iff {items : List Value} :
    Canonical (.list items) ↔ ∀ v ∈ items, v.Canonical := by
  constructor
  · intro h
    cases h with
    | list h => exact h
  · exact .list

theorem Canonical.map_iff :
    Canonical (.map entries) ↔ Keyed.IsSorted entries ∧ ∀ e ∈ entries, e.2.Canonical := by
  constructor
  · intro h
    cases h with
    | map sorted h => exact ⟨sorted, h⟩
  · exact fun h => .map h.1 h.2

theorem Canonical.empty : Canonical (.map []) :=
  .map (by simp [Keyed.IsSorted]) (List.forall_mem_nil _)

theorem Canonical.find (h : Canonical (.map entries)) {key : String}
    (found : Keyed.find? key entries = some v) : v.Canonical :=
  (Canonical.map_iff.1 h).2 _ (Keyed.mem_of_find? found)

theorem Canonical.insert (h : Canonical (.map entries)) {key : String} (hv : v.Canonical) :
    Canonical (.map (Keyed.insert key v entries)) := by
  obtain ⟨sorted, each⟩ := Canonical.map_iff.1 h
  refine .map sorted.insert fun e he => ?_
  rcases Keyed.mem_insert he with rfl | he
  · exact hv
  · exact each e he

/-! ### Reading again -/

/-- The text of the placeholder that a map is taken for. -/
def placeholderOf? : Attributes → Option String
  | [(k, .text s)] => if k = placeholderKey then some s else none
  | _ => none

theorem placeholderOf?_eq_some_iff {entries : Attributes} {s : String} :
    placeholderOf? entries = some s ↔ entries = [(placeholderKey, .text s)] := by
  constructor
  · intro h
    unfold placeholderOf? at h
    split at h
    · split at h
      · next same =>
        cases h
        rw [same]
      · exact absurd h (by simp)
    · exact absurd h (by simp)
  · rintro rfl
    rfl

mutual

/-- What is read of a value that was written. -/
def reread : Value → Value
  | .float f => if f.isFinite then .float f else .null
  | .list items => .list (rereadItems items)
  | .map entries =>
    match placeholderOf? entries with
    | some s => .unresolved s
    | none => .map (rereadEntries entries)
  | v => v

def rereadItems : List Value → List Value
  | [] => []
  | v :: vs => reread v :: rereadItems vs

def rereadEntries : List (String × Value) → List (String × Value)
  | [] => []
  | (k, v) :: es => (k, reread v) :: rereadEntries es

end

@[simp]
theorem rereadItems_eq (vs : List Value) : rereadItems vs = vs.map reread := by
  induction vs with
  | nil => rfl
  | cons v vs ih => rw [rereadItems, ih, List.map_cons]

@[simp]
theorem rereadEntries_eq (es : Attributes) :
    rereadEntries es = es.map fun e => (e.1, e.2.reread) := by
  induction es with
  | nil => rfl
  | cons e es ih => rw [rereadEntries, ih, List.map_cons]

@[simp]
theorem documentsOfList_eq (vs : List Value) : documentsOfList vs = vs.map toDocument := by
  induction vs with
  | nil => rfl
  | cons v vs ih => rw [documentsOfList, ih, List.map_cons]

@[simp]
theorem documentsOfEntries_eq (es : Attributes) :
    documentsOfEntries es = es.map fun e => Document.entry e.1 e.2.toDocument := by
  induction es with
  | nil => rfl
  | cons e es ih => rw [documentsOfEntries, ih, List.map_cons]

mutual

/-- A value has the document that is read again. -/
theorem toDocument_reread : ∀ v : Value, v.reread.toDocument = Json.shown v.toDocument
  | .float f => by
    show (reread (.float f)).toDocument = Json.shownScalar (.float f)
    rw [reread, Json.shownScalar]
    split <;> rfl
  | .list items => by
    rw [reread, toDocument, toDocument, Json.shown, documents_reread items]
  | .map entries => by
    rw [reread]
    split
    · next s placeholder =>
      rw [placeholderOf?_eq_some_iff.1 placeholder]
      rfl
    · rw [toDocument, toDocument, Json.shown, entries_reread entries]
  | .null | .bool _ | .int _ | .text _ | .unresolved _ => rfl

theorem documents_reread : ∀ vs : List Value,
    documentsOfList (rereadItems vs) = Json.shownItems (documentsOfList vs)
  | [] => rfl
  | v :: vs => by
    rw [rereadItems, documentsOfList, documentsOfList, Json.shownItems, toDocument_reread v,
      documents_reread vs]

theorem entries_reread : ∀ es : Attributes,
    documentsOfEntries (rereadEntries es) = Json.shownEntries (documentsOfEntries es)
  | [] => rfl
  | (k, v) :: es => by
    rw [rereadEntries, documentsOfEntries, documentsOfEntries, Document.entry, Json.shownEntries,
      toDocument_reread v, entries_reread es, Document.entry]

end

/-- Reading again makes no text. -/
theorem eq_text_of_reread {v : Value} {s : String} (h : v.reread = .text s) : v = .text s := by
  cases v with
  | text t => exact h
  | float f =>
    rw [reread] at h
    split at h <;> exact absurd h (by simp)
  | map entries =>
    rw [reread] at h
    split at h <;> exact absurd h (by simp)
  | null | bool _ | int _ | list _ | unresolved _ => exact absurd h (by simp [reread])

/-- Nor does it make a map that is taken for a placeholder. -/
theorem placeholderOf?_reread (entries : Attributes) :
    placeholderOf? (rereadEntries entries) = placeholderOf? entries := by
  refine Option.ext fun s => ?_
  rw [placeholderOf?_eq_some_iff, placeholderOf?_eq_some_iff]
  constructor
  · intro h
    match entries with
    | [] => exact absurd h (by simp)
    | (k, v) :: es =>
      rw [rereadEntries] at h
      obtain ⟨first, none⟩ := List.cons.inj h
      obtain ⟨rfl, text⟩ := Prod.mk.inj first
      obtain rfl : es = [] := by simpa using none
      rw [eq_text_of_reread text]
  · rintro rfl
    rfl

mutual

/-- What is read again stays what it is. -/
theorem reread_reread : ∀ v : Value, v.reread.reread = v.reread
  | .float f => by
    rw [reread]
    split
    · next finite => rw [reread, if_pos finite]
    · rfl
  | .list items => by rw [reread, reread, items_reread items]
  | .map entries => by
    rw [reread]
    split
    · rfl
    · next no => rw [reread, placeholderOf?_reread, no, entries_reread_reread entries]
  | .null | .bool _ | .int _ | .text _ | .unresolved _ => rfl

theorem items_reread : ∀ vs : List Value, rereadItems (rereadItems vs) = rereadItems vs
  | [] => rfl
  | v :: vs => by rw [rereadItems, rereadItems, reread_reread v, items_reread vs]

theorem entries_reread_reread : ∀ es : Attributes,
    rereadEntries (rereadEntries es) = rereadEntries es
  | [] => rfl
  | (k, v) :: es => by rw [rereadEntries, rereadEntries, reread_reread v, entries_reread_reread es]

end

/-! ### Reading what was written -/

theorem settleList_eq_self {ds : List Document} (h : ∀ d ∈ ds, d.settle = d) :
    Document.settleList ds = ds := by
  induction ds with
  | nil => rfl
  | cons d ds ih =>
    rw [Document.settleList, h d List.mem_cons_self, ih fun d hd => h d (List.mem_cons_of_mem _ hd)]

theorem settleEntries_eq_self {es : List (Document.Key × Document)}
    (h : ∀ e ∈ es, e.2.settle = e.2) : Document.settleEntries es = es := by
  induction es with
  | nil => rfl
  | cons e es ih =>
    rw [Document.settleEntries, h e List.mem_cons_self,
      ih fun e he => h e (List.mem_cons_of_mem _ he)]

/-- Nothing in the document of a value is left open. -/
theorem settle_shown {v : Value} (h : v.Canonical) :
    (Json.shown v.toDocument).settle = Json.shown v.toDocument := by
  induction h with
  | null | bool | int | text | unresolved => rfl
  | @float f =>
    show (Json.shownScalar (.float f)).settle = Json.shownScalar (.float f)
    rw [Json.shownScalar]
    split <;> rfl
  | @list items _ ih =>
    rw [toDocument, Json.shown, Document.settle, documentsOfList_eq, Json.shownItems_eq,
      settleList_eq_self]
    simpa using ih
  | @map entries _ _ ih =>
    rw [toDocument, Json.shown, Document.settle, documentsOfEntries_eq, Json.shownEntries_eq,
      settleEntries_eq_self]
    intro _ member
    obtain ⟨_, inner, rfl⟩ := List.mem_map.1 member
    obtain ⟨e, he, rfl⟩ := List.mem_map.1 inner
    exact ih e he

theorem ofSettledList?_map {vs : List Value}
    (h : ∀ v ∈ vs, ofSettled? (Json.shown v.toDocument) = some v.reread) :
    ofSettledList? ((vs.map toDocument).map Json.shown) = some (vs.map reread) := by
  induction vs with
  | nil => rfl
  | cons v vs ih =>
    rw [List.map_cons, List.map_cons, ofSettledList?, h v List.mem_cons_self,
      ih fun v hv => h v (List.mem_cons_of_mem _ hv)]
    rfl

theorem ofSettledEntries?_map {es : Attributes}
    (h : ∀ e ∈ es, ofSettled? (Json.shown e.2.toDocument) = some e.2.reread) :
    ofSettledEntries? ((es.map fun e => Document.entry e.1 e.2.toDocument).map
      fun e => (e.1, Json.shown e.2)) = some (es.map fun e => (e.1, e.2.reread)) := by
  induction es with
  | nil => rfl
  | cons e es ih =>
    have first := h e List.mem_cons_self
    rw [List.map_cons, List.map_cons, ofSettledEntries?,
      ih fun e he => h e (List.mem_cons_of_mem _ he)]
    simp only [Document.entry, Document.Key.asText?, first]
    rfl

/-- Only a text is written as one. -/
theorem eq_text_of_shown {v : Value} {s : String} (h : Json.shown v.toDocument = .text s) :
    v = .text s := by
  cases v with
  | text t =>
    cases h
    rfl
  | float f =>
    have : Json.shownScalar (.float f) = .text s := h
    rw [Json.shownScalar] at this
    split at this <;> exact absurd this (by simp)
  | null | bool _ | int _ | list _ | unresolved _ | map _ =>
    exact absurd h (by simp [toDocument, Json.shown, Json.shownScalar, Document.object])

/-- What is read of a value's document. -/
theorem ofSettled?_shown {v : Value} (h : v.Canonical) :
    ofSettled? (Json.shown v.toDocument) = some v.reread := by
  induction h with
  | null | bool | text => rfl
  | @int i word =>
    show some (ofInt i) = some (.int i)
    rw [ofInt, if_pos (show _ ∧ _ from word)]
  | @float f =>
    show ofSettled? (Json.shownScalar (.float f)) = _
    rw [Json.shownScalar, reread]
    split <;> rfl
  | unresolved => rfl
  | @list items _ ih =>
    rw [toDocument, Json.shown, documentsOfList_eq, Json.shownItems_eq, ofSettled?,
      ofSettledList?_map ih, reread, rereadItems_eq]
    rfl
  | @map entries sorted _ ih =>
    rw [toDocument, Json.shown, documentsOfEntries_eq, Json.shownEntries_eq, reread,
      rereadEntries_eq]
    have read := ofSettledEntries?_map ih
    split
    · next s placeholder =>
      rw [placeholderOf?_eq_some_iff.1 placeholder]
      rfl
    · next no =>
      by_cases single : ∃ k s, entries = [(k, .text s)]
      · obtain ⟨k, s, rfl⟩ := single
        have other : k ≠ placeholderKey := by
          intro same
          rw [placeholderOf?, if_pos same] at no
          exact absurd no (by simp)
        show some (if k = placeholderKey then _ else _) = _
        rw [if_neg other]
        rfl
      · rw [ofSettled?.eq_9, read]
        · show some (Value.map (Keyed.sorted _)) = _
          rw [Keyed.sorted_eq_self ((Keyed.isSorted_map_value fun _ => reread).2 sorted)]
        · intro k s same
          cases entries with
          | nil => exact absurd same (by simp)
          | cons e es =>
            obtain ⟨first, none⟩ := List.cons.inj same
            obtain rfl : es = [] := by simpa using none
            have text := eq_text_of_shown (Prod.mk.inj first).2
            exact single ⟨e.1, s, by rw [← text]⟩

/-- A canonical value is read again but for what its document does not show. -/
theorem ofDocument?_shown {v : Value} (h : v.Canonical) :
    ofDocument? (Json.shown v.toDocument) = some v.reread := by
  rw [ofDocument?, settle_shown h, ofSettled?_shown h]

end Cartograph.Value

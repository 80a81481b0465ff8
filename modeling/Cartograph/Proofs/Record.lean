import Cartograph.NodeMeta
import Cartograph.Proofs.Json.RoundTrip
import Cartograph.Proofs.Results

/-!
# Records through JSON

A record whose fields are among the known ones, in their order, is decoded field by field
(`Document.record?_object`). A field is looked up in the parts that the record was put together
from, which may leave it out.
-/

namespace Cartograph

/-! ### What text says of lists and records -/

namespace Json

theorem shown_list (ds : List Document) : shown (.list ds) = .list (ds.map shown) := by
  rw [shown, shownItems_eq]

theorem shown_object (es : List (String × Document)) :
    shown (.object es) = .object (es.map fun e => (e.1, shown e.2)) := by
  rw [Document.object, Document.object, shown, shownEntries_eq, List.map_map, List.map_map]
  rfl

/-- A record is legible if its fields are. -/
theorem legible_object_iff {n : Nat} {es : List (String × Document)} :
    Legible (n + 1) (.object es) ↔ ∀ e ∈ es, Legible n e.2 := by
  rw [Document.object]
  constructor
  · intro h e he
    cases h with
    | fields _ each => exact each _ (List.mem_map_of_mem he)
  · intro h
    refine .fields (fun e he => ?_) fun e he => ?_
    · obtain ⟨_, -, rfl⟩ := List.mem_map.1 he
      rfl
    · obtain ⟨_, inside, rfl⟩ := List.mem_map.1 he
      exact h _ inside

theorem legible_list_iff {n : Nat} {ds : List Document} :
    Legible (n + 1) (.list ds) ↔ ∀ d ∈ ds, Legible n d := by
  constructor
  · intro h
    cases h with
    | list each => exact each
  · exact .list

/-- A list of texts is legible. -/
theorem legible_texts (n : Nat) (ss : List String) : Legible (n + 1) (.list (ss.map .text)) := by
  refine legible_list_iff.2 fun d hd => ?_
  obtain ⟨_, -, rfl⟩ := List.mem_map.1 hd
  exact .text

end Json

namespace Document

/-- All entries of a record can be decoded, so the record can. -/
theorem entriesOf?_map {α β : Type} (decode : Document → Option α) (key : β → String)
    (f : β → Document) (g : β → α) {l : List β} (h : ∀ b ∈ l, decode (f b) = some (g b)) :
    (object (l.map fun b => (key b, f b))).entriesOf? decode =
      some (l.map fun b => (key b, g b)) := by
  show ((l.map fun b => (key b, f b)).map fun e => entry e.1 e.2).mapM _ = _
  rw [List.map_map, List.mapM_map]
  refine mapM_some fun b hb => ?_
  show (decode (f b)).map _ = _
  rw [h b hb]
  rfl

/-- All members of a list can be decoded, so the list can. -/
theorem listOf?_map {α β : Type} {decode : Document → Option α} {f : β → Document} (g : β → α)
    {l : List β} (h : ∀ a ∈ l, decode (f a) = some (g a)) :
    (list (l.map f)).listOf? decode = some (l.map g) := by
  show (l.map f).mapM decode = _
  rw [List.mapM_map]
  exact mapM_some h

/-! ### Records -/

/-- A record with known fields in their order. -/
theorem record?_object {names : List String} {es : List (String × Document)} (nodup : names.Nodup)
    (sub : (es.map (·.1)).Sublist names) : (object es).record? names = some ⟨es⟩ := by
  have texts : (es.map fun e => entry e.1 e.2).map (fun e => (e.1.text, e.2)) = es := by
    rw [List.map_map]
    exact List.map_id es
  have known : es.filter (fun e => names.contains e.1) = es := by
    refine List.filter_eq_self.2 fun e he => ?_
    exact List.contains_iff_mem.2 (sub.subset (List.mem_map_of_mem he))
  show (if _ then _ else _) = _
  rw [if_pos]
  · exact congrArg (fun found => some (Record.mk found)) ((congrArg _ texts).trans known)
  · show (((es.map fun e => entry e.1 e.2).map fun e => (e.1.text, e.2)).filter _ |>.map _).Nodup
    rw [texts, known]
    exact sub.nodup nodup

namespace Record

variable {name other : String} {d : Document} {xs ys : List (String × Document)}

@[simp]
theorem get?_nil : get? ⟨[]⟩ name = none := rfl

@[simp]
theorem get?_cons :
    get? ⟨(other, d) :: xs⟩ name = if other = name then some d else get? ⟨xs⟩ name := by
  unfold get?
  rw [List.find?_cons]
  by_cases same : other = name
  · simp [same]
  · rw [if_neg same, beq_false_of_ne same]

@[simp]
theorem get?_append : get? ⟨xs ++ ys⟩ name = (get? ⟨xs⟩ name).or (get? ⟨ys⟩ name) := by
  unfold get?
  rw [List.find?_append]
  cases List.find? _ xs <;> rfl

variable {α : Type} {r : Record} {decode : Document → Option α} {a default : α} {skip : Bool}

theorem required?_of (found : r.get? name = some d) (decoded : decode d = some a) :
    r.required? name decode = some a := by
  rw [required?, found]
  exact decoded

theorem withDefault?_of (found : r.get? name = some d) (decoded : decode d = some a) :
    r.withDefault? name decode default = some a := by
  rw [withDefault?, found]
  exact decoded

/-- A field that is left out for its default. -/
theorem withDefault?_of_skip (found : r.get? name = if skip then none else some d)
    (same : skip = true → a = default) (decoded : decode d = some a) :
    r.withDefault? name decode default = some a := by
  rw [withDefault?, found]
  cases skip with
  | true => rw [same rfl]; rfl
  | false => exact decoded

theorem optional?_text {s : Option String} (found : r.get? name = s.map .text) :
    r.optional? name asText? = some s := by
  rw [optional?, found]
  cases s <;> rfl

/-! ### Fields that are decoded -/

variable {P : α → Prop}

/-- What every decoded value is like, a field is like if its default is. -/
theorem holds_of_withDefault? (h : r.withDefault? name decode default = some a)
    (missing : P default) (each : ∀ d a, decode d = some a → P a) : P a := by
  unfold withDefault? at h
  split at h
  · cases h
    exact missing
  · exact each _ a h

theorem holds_of_optional? {o : Option α} (h : r.optional? name decode = some o)
    (each : ∀ d a, decode d = some a → P a) : ∀ a ∈ o, P a := by
  unfold Record.optional? at h
  split at h
  · cases h
    simp
  · next d _ =>
    unfold Document.optional? at h
    split at h
    · cases h
      simp
    · obtain ⟨a, read, rfl⟩ := Option.map_eq_some_iff.1 h
      simpa using each d a read

/-- The members of a list under a field are decoded one by one. -/
theorem members_of_field {as : List α}
    (h : r.withDefault? name (Document.listOf? decode) [] = some as)
    (each : ∀ d a, decode d = some a → P a) : ∀ a ∈ as, P a := by
  refine holds_of_withDefault? (P := fun as => ∀ a ∈ as, P a) h (List.forall_mem_nil _) ?_
  intro d as read a ha
  obtain ⟨items, -, read⟩ := Option.bind_eq_some_iff.1 read
  obtain ⟨item, -, read⟩ := of_mem_mapM read a ha
  exact each item a read

end Record

end Document

end Cartograph

import Cartograph.Proofs.Canonical
import Cartograph.Proofs.Record

/-!
# Metadata through JSON

What is read of metadata that were written are the metadata themselves, but for what the documents
of their attributes do not show (`NodeMeta.reread`). All fields come back if the content is
canonical and the number of instances is one that JSON has (`NodeMeta.ofDocument?_shown`).
-/

namespace Cartograph.NodeMeta

open Document.Record

variable {m : NodeMeta} {as : Attributes}

/-! ### Written metadata -/

/-- What is read of metadata that were written. -/
def reread (m : NodeMeta) : NodeMeta :=
  { m with
    attributes := Value.rereadEntries m.attributes
    raw := Value.rereadEntries m.raw
    instances := m.instances.map Value.rereadEntries }

theorem attributesDocument_reread (as : Attributes) :
    attributesDocument (Value.rereadEntries as) = Json.shown (attributesDocument as) := by
  rw [attributesDocument, attributesDocument, Value.toDocument, Value.toDocument, Json.shown,
    Value.entries_reread]

theorem map_optionalField (skip : Bool) (name : String) (d : Document) :
    (optionalField skip name d).map (fun e => (e.1, Json.shown e.2)) =
      optionalField skip name (Json.shown d) := by
  unfold optionalField
  split <;> rfl

theorem map_textOf (name : String) (o : Option String) :
    (o.map fun s => (name, Document.text s)).toList.map (fun e => (e.1, Json.shown e.2)) =
      (o.map fun s => (name, Document.text s)).toList := by
  cases o <;> rfl

theorem isEmpty_rereadEntries (as : Attributes) :
    (Value.rereadEntries as).isEmpty = as.isEmpty := by
  cases as <;> rfl

/-- Texts are what they say. -/
theorem shown_texts (ss : List String) :
    Json.shown (.list (ss.map .text)) = .list (ss.map .text) := by
  rw [Json.shown_list, List.map_map]
  rfl

theorem shown_labels (labels : List (String × String)) :
    Json.shown (.object (labels.map fun e => (e.1, .text e.2))) =
      .object (labels.map fun e => (e.1, .text e.2)) := by
  rw [Json.shown_object, List.map_map]
  rfl

theorem instances_reread (bags : List Attributes) :
    Json.shown (.list (bags.map attributesDocument)) =
      .list ((bags.map Value.rereadEntries).map attributesDocument) := by
  rw [Json.shown_list, List.map_map, List.map_map]
  congr 2
  funext as
  exact (attributesDocument_reread as).symm

/-- The document that is read of metadata. -/
theorem shown_toDocument (m : NodeMeta) : Json.shown m.toDocument = m.reread.toDocument := by
  have text (s : String) : Json.shown (.text s) = .text s := rfl
  have bool (b : Bool) : Json.shown (.bool b) = .bool b := rfl
  have int (i : Int) : Json.shown (.int i) = .int i := rfl
  have labels := shown_labels m.edgeLabels
  have texts := shown_texts m.instanceKeys
  rw [toDocument, toDocument, Json.shown_object]
  simp only [List.map_append, map_optionalField, map_textOf, List.map_cons, List.map_nil, text,
    bool, int, instances_reread, ← attributesDocument_reread, texts, labels]
  simp only [reread, isEmpty_rereadEntries, List.isEmpty_map]
  rfl

/-! ### Decoding -/

theorem attributes?_shown (h : (Value.map as).Canonical) :
    attributes? (Json.shown (attributesDocument as)) = some (Value.rereadEntries as) := by
  obtain ⟨sorted, each⟩ := Value.Canonical.map_iff.1 h
  have document : attributesDocument as =
      .object (as.map fun e => (e.1, e.2.toDocument)) := by
    rw [attributesDocument, Value.toDocument, Value.documentsOfEntries_eq, Document.object,
      List.map_map]
    rfl
  rw [document, Json.shown_object, List.map_map, attributes?]
  have decoded := Document.entriesOf?_map Value.ofDocument? (fun e => e.1)
    (fun e : String × Value => Json.shown e.2.toDocument) (fun e => e.2.reread) fun e he =>
      Value.ofDocument?_shown (each e he)
  refine (congrArg _ decoded).trans ?_
  rw [Option.map_some, Keyed.sorted_eq_self ((Keyed.isSorted_map_value fun _ => Value.reread).2
    sorted), Value.rereadEntries_eq]

theorem labels?_shown {labels : List (String × String)} (h : Keyed.IsSorted labels) :
    labels? (.object (labels.map fun e => (e.1, .text e.2))) = some labels := by
  rw [labels?, Document.entriesOf?_map Document.asText? _ _ (fun e => e.2) fun _ _ => rfl]
  rw [Option.map_some, List.map_id', Keyed.sorted_eq_self h]

theorem keys_optionalField (skip : Bool) (name : String) (d : Document) :
    ((optionalField skip name d).map (·.1)).Sublist [name] := by
  unfold optionalField
  split
  · exact List.nil_sublist _
  · exact .refl _

theorem keys_textOf (name : String) (o : Option String) :
    ((o.map fun s => (name, Document.text s)).toList.map (·.1)).Sublist [name] := by
  cases o with
  | none => exact List.nil_sublist _
  | some _ => exact .refl _

/-- The fields of the record of metadata. -/
def fieldsOf (m : NodeMeta) : List (String × Document) :=
  [("resource_type", .text m.resourceType), ("name", .text m.name)]
    ++ optionalField (m.module = "") "module" (.text m.module)
    ++ [("provider", .text m.provider), ("attributes", attributesDocument m.attributes)]
    ++ optionalField m.raw.isEmpty "raw" (attributesDocument m.raw)
    ++ optionalField m.instances.isEmpty "instances" (.list (m.instances.map attributesDocument))
    ++ optionalField m.instanceKeys.isEmpty "instance_keys" (.list (m.instanceKeys.map .text))
    ++ [("hidden", .bool m.hidden), ("cardinality", .int m.cardinality),
      ("synthetic", .bool m.synthetic)]
    ++ (m.variant.map fun v => ("variant", .text v)).toList
    ++ (m.label.map fun l => ("label", .text l)).toList
    ++ optionalField m.edgeLabels.isEmpty "edge_labels"
      (.object (m.edgeLabels.map fun e => (e.1, .text e.2)))

theorem keys_fieldsOf (m : NodeMeta) : (m.fieldsOf.map (·.1)).Sublist fieldNames := by
  have names : fieldNames = ["resource_type", "name"] ++ ["module"] ++ ["provider", "attributes"] ++
    ["raw"] ++ ["instances"] ++ ["instance_keys"] ++ ["hidden", "cardinality", "synthetic"] ++
    ["variant"] ++ ["label"] ++ ["edge_labels"] := rfl
  rw [names, fieldsOf]
  simp only [List.map_append]
  refine .append (.append (.append ?_ (keys_textOf _ _)) (keys_textOf _ _))
    (keys_optionalField _ _ _)
  refine .append (.append (.append (.append ?_ (keys_optionalField _ _ _))
    (keys_optionalField _ _ _)) (keys_optionalField _ _ _)) (.refl _)
  exact .append (.append (.refl _) (keys_optionalField _ _ _)) (.refl _)

theorem positionalRecord?_toDocument (m : NodeMeta) :
    m.toDocument.positionalRecord? fieldNames = some ⟨m.fieldsOf⟩ := by
  show (Document.object m.fieldsOf).record? fieldNames = _
  exact Document.record?_object (by decide) m.keys_fieldsOf

@[simp]
theorem get?_optionalField (skip : Bool) (name other : String) (d : Document) :
    Document.Record.get? ⟨optionalField skip name d⟩ other =
      if name = other then (if skip then none else some d) else none := by
  unfold optionalField
  split
  · split <;> rfl
  · rw [Document.Record.get?_cons]
    rfl

@[simp]
theorem get?_textOf (name other : String) (o : Option String) :
    Document.Record.get? ⟨(o.map fun s => (name, Document.text s)).toList⟩ other =
      if name = other then o.map .text else none := by
  cases o with
  | none =>
    rw [Option.map_none, Option.map_none, ite_self]
    rfl
  | some s => rw [Option.map_some, Option.toList_some, Document.Record.get?_cons]; rfl

/-- Metadata are read again if their attributes are. -/
theorem ofDocument?_toDocument {m : NodeMeta}
    (attributes : attributes? (attributesDocument m.attributes) = some m.attributes)
    (raw : attributes? (attributesDocument m.raw) = some m.raw)
    (instances : ∀ as ∈ m.instances, attributes? (attributesDocument as) = some as)
    (fits : m.cardinality < Nat.pow 2 64) (labels : Keyed.IsSorted m.edgeLabels) :
    ofDocument? m.toDocument = some m := by
  have bags : (Document.list (m.instances.map attributesDocument)).listOf? attributes? =
      some m.instances := by
    rw [Document.listOf?_map id instances, List.map_id]
  have keys : (Document.list (m.instanceKeys.map .text)).listOf? Document.asText? =
      some m.instanceKeys := by
    have texts : ∀ s ∈ m.instanceKeys, (Document.text s).asText? = some (id s) := fun _ _ => rfl
    rw [Document.listOf?_map id texts, List.map_id]
  have count : (Document.int m.cardinality).asNat? = some m.cardinality := by
    have low : (0 : Int) ≤ m.cardinality := by omega
    have high : (m.cardinality : Int) < Nat.pow 2 64 := by exact_mod_cast fits
    rw [Document.asNat?, Document.asNatBelow?, Document.asNatBelow?.check, if_pos ⟨low, high⟩]
    simp
  -- The fields one by one; those that are left out have their defaults.
  obtain ⟨r, hr⟩ : ∃ r : Document.Record, r = ⟨m.fieldsOf⟩ := ⟨_, rfl⟩
  have resourceType : r.required? "resource_type" Document.asText? = some m.resourceType :=
    required?_of (d := .text m.resourceType) (by simp [hr, fieldsOf]) rfl
  have name : r.required? "name" Document.asText? = some m.name :=
    required?_of (d := .text m.name) (by simp [hr, fieldsOf]) rfl
  have module : r.withDefault? "module" Document.asText? "" = some m.module :=
    withDefault?_of_skip (d := .text m.module) (by simp [hr, fieldsOf]) of_decide_eq_true rfl
  have provider : r.withDefault? "provider" Document.asText? "" = some m.provider :=
    withDefault?_of (d := .text m.provider) (by simp [hr, fieldsOf]) rfl
  have attributes : r.withDefault? "attributes" attributes? [] = some m.attributes :=
    withDefault?_of (d := attributesDocument m.attributes) (by simp [hr, fieldsOf]) attributes
  have raw : r.withDefault? "raw" attributes? [] = some m.raw :=
    withDefault?_of_skip (d := attributesDocument m.raw) (by simp [hr, fieldsOf])
      List.isEmpty_iff.1 raw
  have instances :
      r.withDefault? "instances" (Document.listOf? attributes?) [] = some m.instances :=
    withDefault?_of_skip (d := .list (m.instances.map attributesDocument))
      (by simp [hr, fieldsOf]) List.isEmpty_iff.1 bags
  have instanceKeys :
      r.withDefault? "instance_keys" (Document.listOf? Document.asText?) [] =
        some m.instanceKeys :=
    withDefault?_of_skip (d := .list (m.instanceKeys.map .text)) (by simp [hr, fieldsOf])
      List.isEmpty_iff.1 keys
  have hidden : r.withDefault? "hidden" Document.asBool? false = some m.hidden :=
    withDefault?_of (d := .bool m.hidden) (by simp [hr, fieldsOf]) rfl
  have cardinality : r.withDefault? "cardinality" Document.asNat? 1 = some m.cardinality :=
    withDefault?_of (d := .int m.cardinality) (by simp [hr, fieldsOf]) count
  have synthetic : r.withDefault? "synthetic" Document.asBool? false = some m.synthetic :=
    withDefault?_of (d := .bool m.synthetic) (by simp [hr, fieldsOf]) rfl
  have variant : r.optional? "variant" Document.asText? = some m.variant :=
    optional?_text (by simp [hr, fieldsOf])
  have label : r.optional? "label" Document.asText? = some m.label :=
    optional?_text (by simp [hr, fieldsOf])
  have edgeLabels : r.withDefault? "edge_labels" labels? [] = some m.edgeLabels :=
    withDefault?_of_skip (d := .object (m.edgeLabels.map fun e => (e.1, .text e.2)))
      (by simp [hr, fieldsOf]) List.isEmpty_iff.1 (labels?_shown labels)
  rw [ofDocument?, positionalRecord?_toDocument, ← hr]
  simp only [bind, Option.bind, pure, resourceType, name, module, provider, attributes, raw,
    instances, instanceKeys, hidden, cardinality, synthetic, variant, label, edgeLabels]

/-- What is read of the document of metadata with canonical content. -/
theorem ofDocument?_shown {m : NodeMeta} (h : m.Holds .canonical)
    (fits : m.cardinality < Nat.pow 2 64) :
    ofDocument? (Json.shown m.toDocument) = some m.reread := by
  have bag {as : Attributes} (h : (Value.map as).Canonical) :
      attributes? (attributesDocument (Value.rereadEntries as)) =
        some (Value.rereadEntries as) := by
    rw [attributesDocument_reread, attributes?_shown h]
  rw [shown_toDocument]
  refine ofDocument?_toDocument (bag h.attributes) (bag h.raw) ?_ fits h.labels
  intro _ member
  obtain ⟨as, has, rfl⟩ := List.mem_map.1 member
  exact bag (h.instances as has)

/-! ### Legible metadata -/

/-- Metadata whose documents JSON text says in full, at some depth. -/
structure Legible (n : Nat) (m : NodeMeta) : Prop where
  attributes : Json.Legible (n + 2) (attributesDocument m.attributes)
  raw : Json.Legible (n + 2) (attributesDocument m.raw)
  instances : ∀ as ∈ m.instances, Json.Legible (n + 1) (attributesDocument as)
  countable : m.cardinality < Nat.pow 2 64

theorem legible_optionalField {n : Nat} {skip : Bool} {name : String} {d : Document}
    (h : skip = false → Json.Legible n d) :
    ∀ e ∈ optionalField skip name d, Json.Legible n e.2 := by
  intro e he
  unfold optionalField at he
  cases skip with
  | true => exact absurd he (by simp)
  | false =>
    rw [List.mem_singleton.1 he]
    exact h rfl

theorem legible_textOf {n : Nat} {name : String} {o : Option String} :
    ∀ e ∈ (o.map fun s => (name, Document.text s)).toList, Json.Legible n e.2 := by
  intro e he
  cases o with
  | none => exact absurd he (by simp)
  | some s =>
    rw [List.mem_singleton.1 he]
    exact .text

theorem legible_attributes_nil (n : Nat) : Json.Legible (n + 1) (attributesDocument []) :=
  Json.legible_object_iff.2 fun _ h => absurd h List.not_mem_nil

/-- A node's record is legible if its attributes are, at the depth where they stand. -/
theorem legible_toDocument_iff {n : Nat} : Json.Legible (n + 3) m.toDocument ↔ m.Legible n := by
  show Json.Legible (n + 3) (.object m.fieldsOf) ↔ _
  rw [Json.legible_object_iff]
  constructor
  · intro h
    refine ⟨h ("attributes", attributesDocument m.attributes) (by simp [fieldsOf]), ?_, ?_, ?_⟩
    · by_cases none : m.raw = []
      · exact none ▸ legible_attributes_nil _
      · exact h ("raw", attributesDocument m.raw) (by simp [fieldsOf, optionalField, none])
    · by_cases none : m.instances = []
      · exact none ▸ fun _ h => absurd h List.not_mem_nil
      · intro as has
        have all := h ("instances", .list (m.instances.map attributesDocument))
          (by simp [fieldsOf, optionalField, none])
        exact Json.legible_list_iff.1 all _ (List.mem_map_of_mem has)
    · cases h ("cardinality", .int m.cardinality) (by simp [fieldsOf]) with
      | int _ high => exact_mod_cast high
  · intro h
    have count : Json.Legible (n + 2) (.int m.cardinality) := by
      refine .int ?_ (by exact_mod_cast h.countable)
      have : (0 : Int) ≤ Nat.pow 2 63 := Int.natCast_nonneg _
      omega
    have bags : Json.Legible (n + 2) (.list (m.instances.map attributesDocument)) := by
      refine Json.legible_list_iff.2 fun d hd => ?_
      obtain ⟨as, has, rfl⟩ := List.mem_map.1 hd
      exact h.instances as has
    have labels : Json.Legible (n + 2) (.object (m.edgeLabels.map fun e => (e.1, .text e.2))) := by
      refine Json.legible_object_iff.2 fun e he => ?_
      obtain ⟨_, -, rfl⟩ := List.mem_map.1 he
      exact .text
    -- The fields stand in the order of the record.
    unfold fieldsOf
    simp only [List.forall_mem_append, List.forall_mem_cons]
    have nothing : ∀ e ∈ ([] : List (String × Document)), Json.Legible (n + 2) e.2 :=
      fun _ h => absurd h List.not_mem_nil
    refine ⟨⟨⟨⟨⟨⟨⟨⟨⟨⟨.text, .text, nothing⟩, legible_optionalField fun _ => .text⟩,
      .text, h.attributes, nothing⟩, legible_optionalField fun _ => h.raw⟩,
      legible_optionalField fun _ => bags⟩,
      legible_optionalField fun _ => Json.legible_texts _ _⟩, .bool, count, .bool, nothing⟩,
      legible_textOf⟩, legible_textOf⟩, legible_optionalField fun _ => labels⟩

/-- Metadata that identifiers say are legible. -/
theorem legible_forId (n : Nat) (id : NodeId) : (forId id).Legible n where
  attributes := legible_attributes_nil _
  raw := legible_attributes_nil _
  instances _ h := absurd h List.not_mem_nil
  countable := show 1 < Nat.pow 2 64 by decide

end Cartograph.NodeMeta

import Cartograph.Expression.Functions
import Cartograph.Proofs.Results
import Cartograph.Proofs.Value

/-!
# What functions make of canonical values

A function of canonical values has a canonical value, if any (`callFunction_canonical`): what it
takes out of lists and maps is canonical, the maps it makes are sorted, and the integers it makes
have 64 bits. What is the same as a text or a placeholder is equal to it.
-/

namespace Cartograph.Expression

open Value

variable {name : String} {v w : Value} {items args : List Value}

/-! ### Texts and placeholders -/

/-- Only the text itself is the same. -/
theorem eq_text_of_sameValue {s : String} (h : sameValue (.text s) v = true) : v = .text s := by
  cases v with
  | text t =>
    rw [sameValue] at h
    rw [eq_of_beq h]
  | _ => exact absurd h (by simp [sameValue])

/-- Only the placeholder itself is the same. -/
theorem eq_unresolved_of_sameValue {e : String} (h : sameValue (.unresolved e) v = true) :
    v = .unresolved e := by
  cases v with
  | unresolved f =>
    rw [sameValue] at h
    rw [eq_of_beq h]
  | _ => exact absurd h (by simp [sameValue])

/-! ### Canonical values -/

theorem ofNumber_canonical (f : Float) : (ofNumber f).Canonical := by
  unfold ofNumber
  split
  · exact .int (Decimal.isWord_truncate f)
  · exact .float

theorem texts_canonical (ss : List String) : ∀ v ∈ ss.map Value.text, v.Canonical := by
  intro v hv
  obtain ⟨s, -, rfl⟩ := List.mem_map.1 hv
  exact .text

theorem getD_canonical (h : ∀ v ∈ items, v.Canonical) (i : Nat) :
    (items.getD i .null).Canonical := by
  rw [List.getD_eq_getElem?_getD]
  cases found : items[i]? with
  | none => exact .null
  | some v => exact h v (List.mem_of_getElem? found)

theorem insertAll_canonical {xs new : Attributes} (hxs : (Value.map xs).Canonical)
    (hnew : (Value.map new).Canonical) : (Value.map (Keyed.insertAll xs new)).Canonical := by
  obtain ⟨sorted, each⟩ := Canonical.map_iff.1 hxs
  refine .map (sorted.insertAll new) fun e he => ?_
  rcases Keyed.mem_insertAll he with old | new
  · exact each e old
  · exact (Canonical.map_iff.1 hnew).2 e new

/-! ### Lists -/

theorem mem_of_mem_distinct (h : v ∈ distinct items) : v ∈ items := by
  have kept : ∀ (items out : List Value), v ∈ items.foldl
      (fun out v => if out.any (sameValue · v) then out else v :: out) out →
      v ∈ out ∨ v ∈ items := by
    intro items
    induction items with
    | nil => exact fun _ h => .inl h
    | cons w rest ih =>
      intro out h
      rcases ih _ h with before | after
      · dsimp only at before
        split at before
        · exact .inl before
        · rcases List.mem_cons.1 before with rfl | before
          · exact .inr List.mem_cons_self
          · exact .inl before
      · exact .inr (List.mem_cons_of_mem _ after)
  rcases kept items [] (List.mem_reverse.1 h) with none | found
  · exact absurd none List.not_mem_nil
  · exact found

theorem setOf_canonical (h : ∀ v ∈ items, v.Canonical) : ∀ v ∈ setOf items, v.Canonical := by
  unfold setOf
  dsimp only
  split
  · exact texts_canonical _
  · exact fun v hv => h v (mem_of_mem_distinct hv)

mutual

theorem flattenValue_canonical : ∀ {v : Value}, v.Canonical → ∀ w ∈ flattenValue v, w.Canonical
  | .list items, h => by
    rw [flattenValue]
    exact flattenItems_canonical (Canonical.list_iff.1 h)
  | .null, h | .bool _, h | .int _, h | .float _, h | .text _, h | .unresolved _, h
  | .map _, h => by
    rw [flattenValue]
    simpa using h

theorem flattenItems_canonical : ∀ {items : List Value}, (∀ v ∈ items, v.Canonical) →
    ∀ w ∈ flattenItems items, w.Canonical
  | [], _ => by
    rw [flattenItems]
    exact List.forall_mem_nil _
  | v :: vs, h => by
    rw [flattenItems]
    obtain ⟨first, others⟩ := List.forall_mem_cons.1 h
    exact List.forall_mem_append.2 ⟨flattenValue_canonical first, flattenItems_canonical others⟩

end

theorem rangeFrom_canonical (bound step : Float) (n : Nat) (x : Float) :
    Yields (∀ v ∈ ·, v.Canonical) (rangeFrom bound step x n) := by
  induction n generalizing x with
  | zero => exact .ite (fun _ => .error _) fun _ => .ok (List.forall_mem_nil _)
  | succ n ih =>
    refine .ite (fun _ => (ih (x + step)).map fun vs hvs => ?_) fun _ => .ok (List.forall_mem_nil _)
    exact List.forall_mem_cons.2 ⟨ofNumber_canonical x, hvs⟩

theorem range_canonical (ns : List Float) : Yields (∀ v ∈ ·, v.Canonical) (range ns) := by
  unfold range
  split
  · exact rangeFrom_canonical _ _ _ _
  · exact rangeFrom_canonical _ _ _ _
  · exact .ite (fun _ => .error _) fun _ => rangeFrom_canonical _ _ _ _
  · exact .ok (List.forall_mem_nil _)

/-! ### Arguments -/

theorem listArg_canonical (h : v.Canonical) :
    Yields (∀ w ∈ ·, w.Canonical) (listArg name v) := by
  unfold listArg
  split
  · exact .ok (Canonical.list_iff.1 h)
  · exact .error _

theorem mapArg_canonical (h : v.Canonical) :
    Yields (fun entries => (Value.map entries).Canonical) (mapArg name v) := by
  unfold mapArg
  split
  · exact .ok h
  · exact .error _

/-! ### Calls -/

theorem callUnary?_canonical {f : Value → Outcome Value} (known : callUnary? name = some f)
    (h : v.Canonical) : Yields Value.Canonical (f v) := by
  have size (n : Nat) : (Value.int (Decimal.ofSize n)).Canonical := .int (Decimal.isWord_ofSize n)
  unfold callUnary? at known
  split at known
  case h_1 =>
    cases known
    dsimp only
    split
    · exact .ok (size _)
    · exact .ok (size _)
    · exact .ok (size _)
    · exact .error _
  case h_2 =>
    cases known
    refine .mapAny fun es => .list fun v hv => ?_
    obtain ⟨e, -, rfl⟩ := List.mem_map.1 hv
    exact .text
  case h_3 =>
    cases known
    refine (mapArg_canonical h).map fun es hes => .list fun v hv => ?_
    obtain ⟨e, he, rfl⟩ := List.mem_map.1 hv
    exact (Canonical.map_iff.1 hes).2 e he
  case h_4 =>
    cases known
    exact (listArg_canonical h).map fun _ => .list
  case h_5 =>
    cases known
    exact (listArg_canonical h).map fun _ hvs => .list (setOf_canonical hvs)
  case h_6 =>
    cases known
    exact (mapArg_canonical h).map fun _ hes => hes
  case h_7 =>
    cases known
    dsimp only
    split
    · exact .ok .null
    · exact .mapAny fun _ => .text
  case h_8 =>
    cases known
    dsimp only
    split
    · exact .ok .null
    · exact .mapAny ofNumber_canonical
  case h_9 | h_10 =>
    cases known
    exact .mapAny fun _ => .text
  case h_11 =>
    cases known
    exact (listArg_canonical h).map fun _ hvs => .list (flattenItems_canonical hvs)
  case h_12 =>
    cases known
    exact (listArg_canonical h).map fun _ hvs => .list fun v hv => hvs v (mem_of_mem_distinct hv)
  case h_13 => exact absurd known (by simp)

theorem callBinary?_canonical {f : Value → Value → Outcome Value}
    (known : callBinary? name = some f) (h : v.Canonical) : Yields Value.Canonical (f v w) := by
  unfold callBinary? at known
  split at known
  · cases known
    refine (listArg_canonical h).bind fun items hitems => .ite (fun _ => .error _) fun _ => ?_
    exact .then_ fun _ => .ok (getD_canonical hitems _)
  · cases known
    exact .then_ fun _ => .then_ fun _ => .ok (.list (texts_canonical _))
  · cases known
    exact .mapAny fun _ => .bool
  · exact absurd known (by simp)

theorem extreme_canonical (better : Float → Float → Float) :
    Yields Value.Canonical (extreme name better args) := by
  refine .then_ fun ns => ?_
  split
  · exact .ok (ofNumber_canonical _)
  · exact .ok (ofNumber_canonical _)

theorem replace_canonical (text search new : Value) :
    Yields Value.Canonical (replace name text search new) := by
  refine .then_ fun text => .then_ fun search => .then_ fun new => ?_
  split
  · exact .ok .text
  · split
    · exact .error _
    · exact .ok .text

theorem lookup_canonical {key : Value} {rest : List Value} (h : v.Canonical)
    (hrest : ∀ w ∈ rest, w.Canonical) :
    Yields Value.Canonical (callVariadic "lookup" (v :: key :: rest)) := by
  refine (mapArg_canonical h).bind fun entries hentries => .then_ fun key => ?_
  split
  · next found => exact .ok (hentries.find found)
  · exact .ok (hrest _ List.mem_cons_self)
  · exact .error _

theorem concat_canonical (h : ∀ v ∈ args, v.Canonical) :
    Yields Value.Canonical (callVariadic "concat" args) := by
  have lists : Yields (∀ l ∈ ·, ∀ v ∈ l, v.Canonical) (args.mapM (listArg "concat")) :=
    .mapM fun v hv => listArg_canonical (h v hv)
  refine lists.map fun ls hls => .list fun v hv => ?_
  obtain ⟨l, hl, hv⟩ := List.mem_flatten.1 hv
  exact hls l hl v hv

theorem merge_canonical (h : ∀ v ∈ args, v.Canonical) :
    Yields Value.Canonical (callVariadic "merge" args) := by
  have maps : Yields (∀ es ∈ ·, (Value.map es).Canonical)
      ((args.filter fun v => !v.isNull).mapM (mapArg "merge")) :=
    .mapM fun v hv => mapArg_canonical (h v (List.mem_filter.1 hv).1)
  refine maps.bind fun ms hms => .ok ?_
  refine List.foldlRecOn (motive := fun es => (Value.map es).Canonical) ms Keyed.insertAll .empty ?_
  exact fun es hes new hnew => insertAll_canonical hes (hms new hnew)

theorem callVariadic_canonical (h : ∀ v ∈ args, v.Canonical) :
    Yields Value.Canonical (callVariadic name args) := by
  unfold callVariadic
  split
  · refine lookup_canonical (h _ List.mem_cons_self) fun w hw => ?_
    exact h w (List.mem_cons_of_mem _ (List.mem_cons_of_mem _ hw))
  · exact concat_canonical h
  · exact .then_ fun _ => .then_ fun _ => .ok .text
  · exact extreme_canonical _
  · exact extreme_canonical _
  · exact .then_ fun _ => .mapAny fun _ => .text
  · split
    · next found => exact .ok (h _ (List.mem_of_find?_eq_some found))
    · exact .error _
  · exact merge_canonical h
  · exact .then_ fun ns => (range_canonical ns).map fun _ => .list
  · exact replace_canonical _ _ _
  · exact .error _

/-- A function of canonical values has a canonical value. -/
theorem callFunction_canonical (h : ∀ v ∈ args, v.Canonical) :
    Yields Value.Canonical (callFunction name args) := by
  unfold callFunction
  split
  · next _ known =>
    split
    · exact callUnary?_canonical known (h _ List.mem_cons_self)
    · exact .error _
  · next _ _ known =>
    split
    · exact callBinary?_canonical known (h _ List.mem_cons_self)
    · exact .error _
  · split
    · exact callVariadic_canonical h
    · exact .ite (fun _ => .error _) fun _ => callVariadic_canonical h

end Cartograph.Expression

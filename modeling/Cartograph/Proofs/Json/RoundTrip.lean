import Cartograph.Proofs.Json.Tokens

/-!
# Documents through JSON text

What JSON text says of a document is the document itself, but for numbers that are not finite,
which are missing in it (`shown`). A document is *legible* if JSON has a number for each of its
integers, its finite floats are read back from their texts, and it does not nest too deeply
(`Legible`). The text of a legible document is read as what it says (`parse?_pretty`).

The text is cut into the document's tokens (`tokenize_pretty`), and these are assembled to the
document wherever a value may stand (`assemble_tokens`).
-/

namespace Cartograph.Json

variable {d : Document} {n level : Nat} {cs : List Char}

/-! ### What text says -/

/-- What JSON text says of a scalar. -/
def shownScalar : Document → Document
  | .float f => if f.isFinite then .float f else .null
  | d => d

mutual

/-- What JSON text says of a document. -/
def shown : Document → Document
  | .list items => .list (shownItems items)
  | .fields entries => .fields (shownEntries entries)
  | d => shownScalar d

def shownItems : List Document → List Document
  | [] => []
  | d :: ds => shown d :: shownItems ds

def shownEntries : List (Document.Key × Document) → List (Document.Key × Document)
  | [] => []
  | (k, d) :: es => (k, shown d) :: shownEntries es

end

@[simp]
theorem shownItems_eq (ds : List Document) : shownItems ds = ds.map shown := by
  induction ds with
  | nil => rfl
  | cons d ds ih => rw [shownItems, ih, List.map_cons]

@[simp]
theorem shownEntries_eq (es : List (Document.Key × Document)) :
    shownEntries es = es.map fun e => (e.1, shown e.2) := by
  induction es with
  | nil => rfl
  | cons e es ih => rw [shownEntries, ih, List.map_cons]

/-- A document of at most so many levels that JSON text says in full. -/
inductive Legible : Nat → Document → Prop
  | null {n : Nat} : Legible n .null
  | bool {n : Nat} {b : Bool} : Legible n (.bool b)
  | int {n : Nat} {i : Int} : -(Nat.pow 2 63) ≤ i → i < Nat.pow 2 64 → Legible n (.int i)
  | float {n : Nat} {f : Float} : (f.isFinite → ReadsBack f) → Legible n (.float f)
  | text {n : Nat} {s : String} : Legible n (.text s)
  | list {n : Nat} {items : List Document} : (∀ d ∈ items, Legible n d) →
    Legible (n + 1) (.list items)
  | fields {n : Nat} {entries : List (Document.Key × Document)} :
    (∀ e ∈ entries, e.1.isPlain = false) → (∀ e ∈ entries, Legible n e.2) →
    Legible (n + 1) (.fields entries)

/-! ### Tokens -/

mutual

/-- The tokens of a document. -/
def tokens : Document → List Token
  | .list [] => [.openList, .closeList]
  | .list (d :: ds) => .openList :: (tokens d ++ tokensOfItems ds ++ [.closeList])
  | .fields [] => [.openFields, .closeFields]
  | .fields ((k, d) :: es) =>
    .openFields :: .scalar (.text k.text) :: .colon ::
      (tokens d ++ tokensOfEntries es ++ [.closeFields])
  | d => [.scalar d]

/-- The tokens of the members behind the first. -/
def tokensOfItems : List Document → List Token
  | [] => []
  | d :: ds => .comma :: (tokens d ++ tokensOfItems ds)

/-- The tokens of the entries behind the first. -/
def tokensOfEntries : List (Document.Key × Document) → List Token
  | [] => []
  | (k, d) :: es => .comma :: .scalar (.text k.text) :: .colon :: (tokens d ++ tokensOfEntries es)

end

theorem toList_intercalate_cons (separator part : String) (parts : List String) :
    (separator.intercalate (part :: parts)).toList =
      part.toList ++ parts.flatMap fun p => separator.toList ++ p.toList := by
  induction parts generalizing part with
  | nil => simp
  | cons p parts ih =>
    rw [String.intercalate_cons_cons, String.toList_append, String.toList_append, ih]
    simp

/-- The lines of all parts behind the first. -/
def linesOf (level : Nat) (parts : List String) : List Char :=
  parts.flatMap fun p => ',' :: '\n' :: (List.replicate (2 * (level + 1)) ' ' ++ p.toList)

theorem linesOf_cons (level : Nat) (part : String) (parts : List String) :
    linesOf level (part :: parts) ++ cs =
      ',' :: '\n' :: (List.replicate (2 * (level + 1)) ' ' ++ (part.toList ++
        (linesOf level parts ++ cs))) := by
  simp [linesOf]

/-- The text of a list or mapping that is not empty. -/
theorem toList_block (left right part : String) (level : Nat) (parts : List String) :
    (block left right level (part :: parts)).toList =
      left.toList ++ '\n' :: (List.replicate (2 * (level + 1)) ' ' ++ (part.toList ++
        (linesOf level parts ++ '\n' :: (List.replicate (2 * level) ' ' ++ right.toList)))) := by
  rw [block, if_neg (by simp), List.map_cons, linesOf]
  simp only [String.toList_append, toList_intercalate_cons, List.flatMap_map, indent,
    String.toList_ofList, List.append_assoc]
  rfl

/-! ### From text to tokens -/

/-- The text of a scalar is its token. -/
theorem tokenize_scalar (legible : Legible n d) (single : tokens d = [.scalar d])
    (bound : Boundary cs) :
    tokenize ((scalar d).toList ++ cs) = (tokenize cs).map (.scalar (shownScalar d) :: ·) := by
  cases legible with
  | null => exact tokenize_null
  | @bool _ b =>
    cases b with
    | true => exact tokenize_true
    | false => exact tokenize_false
  | int low high => exact tokenize_append bound rfl (tokenize_int low high)
  | @float _ f back =>
    show tokenize ((number f).toList ++ cs) = _
    by_cases finite : f.isFinite
    · rw [tokenize_append bound rfl (back finite), shownScalar, if_pos finite]
    · rw [number, if_neg finite, shownScalar, if_neg finite]
      exact tokenize_null
  | text => exact tokenize_string _
  | @list _ items =>
    cases items with
    | nil => exact absurd single (by simp [tokens])
    | cons d ds => exact absurd single (by simp [tokens])
  | @fields _ entries =>
    cases entries with
    | nil => exact absurd single (by simp [tokens])
    | cons e es => exact absurd single (by simp [tokens])

/-- No part of a list or mapping runs into the next. -/
theorem boundary_linesOf (parts : List String) (bound : Boundary cs) :
    Boundary (linesOf level parts ++ cs) := by
  cases parts with
  | nil => exact bound
  | cons part parts =>
    rw [linesOf_cons]
    exact boundary_cons (by decide)

theorem boundary_newline : Boundary ('\n' :: cs) := boundary_cons (by decide)

theorem tokenize_entry (key : String) (value : String) :
    tokenize ((string key ++ ": " ++ value).toList ++ cs) =
      (tokenize (value.toList ++ cs)).map fun ts => .scalar (.text key) :: .colon :: ts := by
  have colon : (": " : String).toList = [':', ' '] := rfl
  simp [colon, Function.comp_def]

/-- Members behind the first, each on its line, are cut into their tokens if each of them is. -/
theorem tokenize_items {ds : List Document}
    (each : ∀ d ∈ ds, ∀ cs, Boundary cs →
      tokenize ((prettyAt (level + 1) d).toList ++ cs) =
        (tokenize cs).map (tokens (shown d) ++ ·))
    (bound : Boundary cs) :
    tokenize (linesOf level (prettyItems level ds) ++ cs) =
      (tokenize cs).map (tokensOfItems (ds.map shown) ++ ·) := by
  induction ds with
  | nil => simp [prettyItems, tokensOfItems, linesOf]
  | cons d ds ih =>
    have rest := ih fun d hd => each d (List.mem_cons_of_mem _ hd)
    rw [prettyItems, linesOf_cons, tokenize_comma, tokenize_newline, tokenize_spaces,
      each d List.mem_cons_self _ (boundary_linesOf _ bound), rest]
    simp [tokensOfItems, Function.comp_def]

/-- Entries behind the first, each on its line, are cut into their tokens if each of them is. -/
theorem tokenize_entries {es : List (Document.Key × Document)}
    (each : ∀ e ∈ es, ∀ cs, Boundary cs →
      tokenize ((prettyAt (level + 1) e.2).toList ++ cs) =
        (tokenize cs).map (tokens (shown e.2) ++ ·))
    (bound : Boundary cs) :
    tokenize (linesOf level (prettyEntries level es) ++ cs) =
      (tokenize cs).map (tokensOfEntries (es.map fun e => (e.1, shown e.2)) ++ ·) := by
  induction es with
  | nil => simp [prettyEntries, tokensOfEntries, linesOf]
  | cons e es ih =>
    obtain ⟨k, d⟩ := e
    have rest := ih fun e he => each e (List.mem_cons_of_mem _ he)
    rw [prettyEntries, linesOf_cons, tokenize_comma, tokenize_newline, tokenize_spaces,
      tokenize_entry, each (k, d) List.mem_cons_self _ (boundary_linesOf _ bound), rest]
    simp [tokensOfEntries, Function.comp_def]

/-- The text of a legible document is cut into the tokens of what it says. -/
theorem tokenize_pretty (legible : Legible n d) (bound : Boundary cs) :
    tokenize ((prettyAt level d).toList ++ cs) = (tokenize cs).map (tokens (shown d) ++ ·) := by
  induction legible generalizing level cs with
  | @null n => exact tokenize_scalar (n := n) .null rfl bound
  | @bool n b => exact tokenize_scalar (n := n) .bool rfl bound
  | @int n i low high => exact tokenize_scalar (n := n) (.int low high) rfl bound
  | @float n f back =>
    have single : tokens (shown (.float f)) = [shownScalar (.float f)].map .scalar := by
      show tokens (shownScalar (.float f)) = _
      unfold shownScalar
      dsimp only
      split <;> rfl
    rw [single]
    exact tokenize_scalar (n := n) (.float back) rfl bound
  | @text n s => exact tokenize_scalar (n := n) .text rfl bound
  | @list n items _ ih =>
    cases items with
    | nil =>
      have text : (prettyAt level (.list [])).toList = ['[', ']'] := by
        simp [prettyAt, prettyItems, block]
      rw [text]
      simp [shown, tokens, Function.comp_def]
    | cons d ds =>
      have rest : ∀ cs, Boundary cs → tokenize (linesOf level (prettyItems level ds) ++ cs) =
          (tokenize cs).map (tokensOfItems (ds.map shown) ++ ·) := fun cs =>
        tokenize_items fun d hd cs bound => ih d (List.mem_cons_of_mem _ hd) bound
      rw [prettyAt, prettyItems, toList_block]
      simp only [String.reduceToList, List.cons_append, List.nil_append, List.append_assoc,
        tokenize_openList, tokenize_newline, tokenize_spaces]
      rw [ih d List.mem_cons_self (boundary_linesOf _ boundary_newline), rest _ boundary_newline]
      simp [shown, tokens, tokenize_spaces, Function.comp_def]
  | @fields n entries _ _ ih =>
    cases entries with
    | nil =>
      have text : (prettyAt level (.fields [])).toList = ['\x7b', '\x7d'] := by
        simp [prettyAt, prettyEntries, block]
      rw [text]
      simp [shown, tokens, Function.comp_def]
    | cons e es =>
      obtain ⟨k, d⟩ := e
      have rest : ∀ cs, Boundary cs → tokenize (linesOf level (prettyEntries level es) ++ cs) =
          (tokenize cs).map (tokensOfEntries (es.map fun e => (e.1, shown e.2)) ++ ·) := fun cs =>
        tokenize_entries fun e he cs bound => ih e (List.mem_cons_of_mem _ he) bound
      rw [prettyAt, prettyEntries, toList_block]
      simp only [String.reduceToList, List.cons_append, List.nil_append, List.append_assoc,
        tokenize_openFields, tokenize_newline, tokenize_spaces, tokenize_entry]
      rw [ih (k, d) List.mem_cons_self (boundary_linesOf _ boundary_newline),
        rest _ boundary_newline]
      simp [shown, tokens, tokenize_spaces, Function.comp_def]

/-! ### From tokens to documents -/

/-- Where a value may stand. -/
def Awaits (e : Expectation) : Prop := e = .value ∨ e = .firstItem

/-- What takes the tokens of a member takes those of all. -/
theorem assemble_items {stack : List Frame} {ds done : List Document}
    (each : ∀ d ∈ ds, ∀ done : List Document,
      (tokens d).foldlM Assembly.step ⟨.items done :: stack, .value⟩ =
        some (Assembly.put (.items done :: stack) d)) :
    (tokensOfItems ds).foldlM Assembly.step ⟨.items done :: stack, .separator none⟩ =
      some ⟨.items (ds.reverse ++ done) :: stack, .separator none⟩ := by
  induction ds generalizing done with
  | nil => rfl
  | cons d ds ih =>
    rw [tokensOfItems, List.foldlM_cons]
    show (tokens d ++ tokensOfItems ds).foldlM Assembly.step ⟨.items done :: stack, .value⟩ = _
    rw [List.foldlM_append, each d List.mem_cons_self done]
    show (tokensOfItems ds).foldlM Assembly.step ⟨.items (d :: done) :: stack, .separator none⟩ = _
    rw [ih fun d hd => each d (List.mem_cons_of_mem _ hd)]
    simp

/-- What takes the tokens of an entry's value takes those of all entries. -/
theorem assemble_entries {stack : List Frame} {es done : List (Document.Key × Document)}
    (quoted : ∀ e ∈ es, e.1.isPlain = false)
    (each : ∀ e ∈ es, ∀ (done : List (Document.Key × Document)) (key : String),
      (tokens e.2).foldlM Assembly.step ⟨.entries done key :: stack, .value⟩ =
        some (Assembly.put (.entries done key :: stack) e.2)) :
    (tokensOfEntries es).foldlM Assembly.step ⟨.entries done "" :: stack, .separator none⟩ =
      some ⟨.entries (es.reverse ++ done) "" :: stack, .separator none⟩ := by
  induction es generalizing done with
  | nil => rfl
  | cons e es ih =>
    obtain ⟨⟨key, isPlain⟩, d⟩ := e
    obtain rfl : isPlain = false := quoted _ List.mem_cons_self
    rw [tokensOfEntries, List.foldlM_cons]
    show (tokens d ++ tokensOfEntries es).foldlM Assembly.step
      ⟨.entries done key :: stack, .value⟩ = _
    rw [List.foldlM_append, each (_, d) List.mem_cons_self done key]
    show (tokensOfEntries es).foldlM Assembly.step
      ⟨.entries (Document.entry key d :: done) "" :: stack, .separator none⟩ = _
    rw [ih (fun e he => quoted e (List.mem_cons_of_mem _ he)) fun e he =>
      each e (List.mem_cons_of_mem _ he)]
    simp [Document.entry]

/-- The tokens of what a legible document says are assembled to it where a value may stand. -/
theorem assemble_tokens (legible : Legible n d) {stack : List Frame} {e : Expectation}
    (awaits : Awaits e) (shallow : stack.length + n ≤ depthLimit) :
    (tokens (shown d)).foldlM Assembly.step ⟨stack, e⟩ = some (Assembly.put stack (shown d)) := by
  induction legible generalizing stack e with
  | null | bool | int | text => rcases awaits with rfl | rfl <;> rfl
  | @float n f =>
    have single : shown (.float f) = if f.isFinite then .float f else .null := rfl
    rw [single]
    split
    · rcases awaits with rfl | rfl <;> rfl
    · rcases awaits with rfl | rfl <;> rfl
  | @list n items _ ih =>
    have enter : Assembly.step ⟨stack, e⟩ .openList =
        some ⟨.items [] :: stack, .firstItem⟩ := by
      have room : stack.length < depthLimit := by omega
      rcases awaits with rfl | rfl <;> exact if_pos room
    have inside : ∀ done : List Document, (Frame.items done :: stack).length + n ≤ depthLimit := by
      simp
      omega
    rw [shown, shownItems_eq]
    cases items with
    | nil =>
      rw [List.map_nil, tokens, List.foldlM_cons, enter]
      rfl
    | cons d ds =>
      rw [List.map_cons, tokens, List.foldlM_cons, enter]
      show (tokens (shown d) ++ tokensOfItems (ds.map shown) ++ [Token.closeList]).foldlM
        Assembly.step ⟨.items [] :: stack, .firstItem⟩ = _
      rw [List.append_assoc, List.foldlM_append, ih d List.mem_cons_self (.inr rfl) (inside _)]
      show (tokensOfItems (ds.map shown) ++ [Token.closeList]).foldlM Assembly.step
        ⟨.items [shown d] :: stack, .separator none⟩ = _
      rw [List.foldlM_append, assemble_items]
      · show some (Assembly.put stack (.list ((ds.map shown).reverse ++ [shown d]).reverse)) = _
        simp
      · intro _ member done
        obtain ⟨d, hd, rfl⟩ := List.mem_map.1 member
        exact ih d (List.mem_cons_of_mem _ hd) (.inl rfl) (inside _)
  | @fields n entries quoted _ ih =>
    have enter : Assembly.step ⟨stack, e⟩ .openFields =
        some ⟨.entries [] "" :: stack, .firstKey⟩ := by
      have room : stack.length < depthLimit := by omega
      rcases awaits with rfl | rfl <;> exact if_pos room
    have inside : ∀ (done : List (Document.Key × Document)) (key : String),
        (Frame.entries done key :: stack).length + n ≤ depthLimit := by
      simp
      omega
    rw [shown, shownEntries_eq]
    cases entries with
    | nil =>
      rw [List.map_nil, tokens, List.foldlM_cons, enter]
      rfl
    | cons x es =>
      obtain ⟨⟨key, isPlain⟩, d⟩ := x
      obtain rfl : isPlain = false := quoted _ List.mem_cons_self
      rw [List.map_cons, tokens, List.foldlM_cons, enter]
      show (tokens (shown d) ++ tokensOfEntries (es.map fun (e : _ × _) => (e.1, shown e.2)) ++
        [Token.closeFields]).foldlM Assembly.step ⟨.entries [] key :: stack, .value⟩ = _
      rw [List.append_assoc, List.foldlM_append,
        ih (_, d) List.mem_cons_self (.inl rfl) (inside _ _)]
      show (tokensOfEntries (es.map fun (e : _ × _) => (e.1, shown e.2)) ++
        [Token.closeFields]).foldlM Assembly.step
        ⟨.entries [Document.entry key (shown d)] "" :: stack, .separator none⟩ = _
      rw [List.foldlM_append, assemble_entries]
      · show some (Assembly.put stack (.fields
          ((es.map fun (e : _ × _) => (e.1, shown e.2)).reverse ++
            [Document.entry key (shown d)]).reverse)) = _
        simp [Document.entry]
      · intro _ member
        obtain ⟨e, he, rfl⟩ := List.mem_map.1 member
        exact quoted e (List.mem_cons_of_mem _ he)
      · intro _ member done key
        obtain ⟨e, he, rfl⟩ := List.mem_map.1 member
        exact ih e (List.mem_cons_of_mem _ he) (.inl rfl) (inside _ _)

/-- The text of a legible document is read as what it says. -/
theorem parse?_pretty (legible : Legible depthLimit d) :
    parse? (pretty d) = some (shown d) := by
  have cut : tokenize (pretty d).toList = some (tokens (shown d)) := by
    have : tokenize ((prettyAt 0 d).toList ++ []) = _ := tokenize_pretty legible boundary_nil
    rw [List.append_nil] at this
    rw [pretty, this, tokenize]
    simp
  rw [parse?, cut]
  show ((tokens (shown d)).foldlM Assembly.step ⟨[], .value⟩ >>= _) = _
  rw [assemble_tokens legible (.inl rfl) (by simp)]
  rfl

/-! ### The text of what it says -/

mutual

theorem prettyAt_shown : ∀ (d : Document) (level : Nat), prettyAt level (shown d) = prettyAt level d
  | .list items, level => by
    rw [shown, prettyAt, prettyAt, prettyItems_shown items level]
  | .fields entries, level => by
    rw [shown, prettyAt, prettyAt, prettyEntries_shown entries level]
  | .float f, level => by
    show prettyAt level (shownScalar (.float f)) = number f
    rw [shownScalar]
    split
    · rfl
    · next infinite => rw [number, if_neg infinite]; rfl
  | .null, _ | .bool _, _ | .int _, _ | .text _, _ | .plain _, _ => rfl

theorem prettyItems_shown : ∀ (ds : List Document) (level : Nat),
    prettyItems level (shownItems ds) = prettyItems level ds
  | [], _ => rfl
  | d :: ds, level => by
    rw [shownItems, prettyItems, prettyItems, prettyAt_shown d, prettyItems_shown ds]

theorem prettyEntries_shown : ∀ (es : List (Document.Key × Document)) (level : Nat),
    prettyEntries level (shownEntries es) = prettyEntries level es
  | [], _ => rfl
  | (k, d) :: es, level => by
    rw [shownEntries, prettyEntries, prettyEntries, prettyAt_shown d, prettyEntries_shown es]

end

/-- A document has the text of what its text says. -/
theorem pretty_shown (d : Document) : pretty (shown d) = pretty d := prettyAt_shown d 0

end Cartograph.Json

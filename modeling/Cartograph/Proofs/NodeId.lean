import Cartograph.NodeMeta
import Cartograph.Proofs.Decimal

/-!
# Plain identifiers

An identifier is *plain* (`NodeId.IsPlain`) if it is a type and a name with a dot between them, and
no instance number. It then names its type (`IsPlain.resourceType_eq`). Made-up names come from
texts of any kind, but `sanitize` leaves nothing in them that would make an identifier less plain.

An instance's identifier is never plain. It has the number that it was made with
(`suffix?_withSuffix`), and instances of different nodes, or with different numbers, are different
(`withSuffix_inj`). Nodes of one type in different modules, or with different names, are different
as long as the names have no dots (`qualified_eq_iff`).
-/

namespace Cartograph.NodeId

variable {id : NodeId} {ty name s b c : String} {n k : Nat}

/-- One dot, and no tilde. -/
def IsPlain (id : NodeId) : Prop := id.toList.count '.' = 1 ∧ '~' ∉ id.toList

theorem isPlain_join (ty name : String) :
    IsPlain (ty ++ "." ++ name) ↔
      '.' ∉ ty.toList ∧ '.' ∉ name.toList ∧ '~' ∉ ty.toList ∧ '~' ∉ name.toList := by
  have shape : (ty ++ "." ++ name).toList = ty.toList ++ '.' :: name.toList := by simp
  rw [IsPlain, shape, List.count_append, List.count_cons_self, List.mem_append, List.mem_cons]
  constructor
  · rintro ⟨one, tilde⟩
    simp only [not_or] at tilde
    exact ⟨List.count_eq_zero.1 (by omega), List.count_eq_zero.1 (by omega), tilde.1, tilde.2.2⟩
  · rintro ⟨h₁, h₂, h₃, h₄⟩
    rw [List.count_eq_zero.2 h₁, List.count_eq_zero.2 h₂]
    exact ⟨rfl, by simp [h₃, h₄]⟩

theorem not_isPlain_withSuffix (base : String) (n : Nat) : ¬IsPlain (withSuffix base n) := by
  intro h
  refine h.2 ?_
  simp [withSuffix]

/-! ### The type of a plain identifier -/

theorem splitSuffix_of_no_tilde (h : '~' ∉ id.toList) : splitSuffix id = (id, none) := by
  rw [splitSuffix, splitTilde?, if_neg h]

/-- A type and a name are no module path. -/
theorem splitModule_of_two {a b : List Char} (h : segments id = [a, b]) :
    splitModule id = ("", id) := by
  rw [splitModule, h]
  rfl

theorem IsPlain.resourceType_eq (h : IsPlain (ty ++ "." ++ name)) :
    resourceType (ty ++ "." ++ name) = ty := by
  obtain ⟨dotType, dotName, -, -⟩ := (isPlain_join _ _).1 h
  have segs : segments (ty ++ "." ++ name) = [ty.toList, name.toList] := by
    have shape : (ty ++ "." ++ name).toList = ty.toList ++ '.' :: name.toList := by simp
    rw [segments, shape, List.splitOn_append_cons_self_of_not_mem dotType,
      List.splitOn_eq_singleton dotName]
  rw [resourceType, parts, splitSuffix_of_no_tilde h.2]
  dsimp only
  rw [splitModule_of_two segs]
  dsimp only
  rw [segs]
  exact String.ofList_toList

/-- The identifier of a resource, if it is plain, names the resource's type. -/
theorem IsPlain.resourceType_qualified {module : String} (h : IsPlain (qualified module ty name)) :
    resourceType (qualified module ty name) = ty := by
  unfold qualified at h ⊢
  split
  · next root =>
    rw [if_pos root] at h
    exact h.resourceType_eq
  · next inner =>
    -- In a module there would be two dots.
    rw [if_neg inner] at h
    have dots := (isPlain_join (module ++ "." ++ ty) _).1 h
    exact absurd (show '.' ∈ (module ++ "." ++ ty).toList by simp) dots.1

/-! ### Made-up names -/

/-- Only capital letters change, and what they become is a letter. -/
theorem toLower_ne {c d : Char} (h : c ≠ d) (letter : d.toNat < 97 ∨ 122 < d.toNat) :
    c.toLower ≠ d := by
  unfold Char.toLower
  split
  · next upper =>
    obtain ⟨low, high⟩ := upper
    intro e
    have same : (c.val + ('a'.val - 'A'.val)).toNat = d.toNat := congrArg Char.toNat e
    rw [← same, UInt32.toNat_add] at letter
    rw [ge_iff_le, UInt32.le_iff_toNat_le] at low
    rw [UInt32.le_iff_toNat_le] at high
    have bounds : 'A'.val.toNat = 65 ∧ 'Z'.val.toNat = 90 ∧ ('a'.val - 'A'.val).toNat = 32 := by
      decide
    omega
  · exact h
theorem isNameChar_toLower {c : Char} (h : isNameChar c) : c.toLower ≠ '.' ∧ c.toLower ≠ '~' := by
  constructor
  · refine toLower_ne ?_ (by decide)
    rintro rfl
    exact absurd h (by decide)
  · refine toLower_ne ?_ (by decide)
    rintro rfl
    exact absurd h (by decide)

theorem sanitizeStep_clean {out : List Char} {c : Char} (h : '.' ∉ out ∧ '~' ∉ out) :
    '.' ∉ sanitizeStep out c ∧ '~' ∉ sanitizeStep out c := by
  unfold sanitizeStep
  split
  · next kept =>
    obtain ⟨dot, tilde⟩ := isNameChar_toLower kept
    simp [h, dot.symm, tilde.symm]
  · split
    · exact h
    · simp [h]

theorem sanitize_clean (s : String) : '.' ∉ (sanitize s).toList ∧ '~' ∉ (sanitize s).toList := by
  have fold : ∀ (cs out : List Char), ('.' ∉ out ∧ '~' ∉ out) →
      '.' ∉ cs.foldl sanitizeStep out ∧ '~' ∉ cs.foldl sanitizeStep out := by
    intro cs
    induction cs with
    | nil => exact fun _ h => h
    | cons c cs ih => exact fun out h => ih _ (sanitizeStep_clean h)
  have trimmed : ∀ {c : Char} {cs : List Char}, c ∉ cs →
      c ∉ (cs.dropWhile (· == '_')).reverse.dropWhile (· == '_') := by
    intro c cs h inside
    have outer := (List.dropWhile_sublist _).subset inside
    exact h ((List.dropWhile_sublist _).subset (List.mem_reverse.1 outer))
  obtain ⟨dot, tilde⟩ := fold s.toList [] (by simp)
  rw [sanitize, String.toList_ofList]
  exact ⟨trimmed dot, trimmed tilde⟩

/-- A type with a made-up name. -/
theorem isPlain_sanitize (dot : '.' ∉ ty.toList) (tilde : '~' ∉ ty.toList) (s : String) :
    IsPlain (ty ++ "." ++ sanitize s) :=
  (isPlain_join _ _).2 ⟨dot, (sanitize_clean s).1, tilde, (sanitize_clean s).2⟩

/-- A small letter is not lost. -/
theorem count_le_count_sanitize {c : Char} (name : isNameChar c = true) (small : c.toLower = c)
    (letter : c ≠ '_') (s : String) : s.toList.count c ≤ (sanitize s).toList.count c := by
  have fold : ∀ cs out : List Char,
      out.count c + cs.count c ≤ (cs.foldl sanitizeStep out).count c := by
    intro cs
    induction cs with
    | nil => exact fun _ => Nat.le_refl _
    | cons d cs ih =>
      intro out
      refine Nat.le_trans ?_ (ih (sanitizeStep out d))
      rw [List.count_cons]
      by_cases same : d = c
      · subst same
        rw [sanitizeStep, if_pos name, small, List.count_cons]
        omega
      · have kept : out.count c ≤ (sanitizeStep out d).count c := by
          unfold sanitizeStep
          split
          · exact List.count_le_count_cons
          · split
            · exact Nat.le_refl _
            · exact List.count_le_count_cons
        rw [if_neg (by simpa using same)]
        omega
  have trimmed : ∀ cs : List Char, (cs.dropWhile (· == '_')).count c = cs.count c := by
    intro cs
    induction cs with
    | nil => rfl
    | cons d cs ih =>
      rw [List.dropWhile_cons]
      split
      · next blank =>
        have other : d ≠ c := fun same => letter (same ▸ eq_of_beq blank)
        rw [ih, List.count_cons_of_ne other]
      · rfl
  have all := fold s.toList []
  rw [sanitize, String.toList_ofList, trimmed, List.count_reverse, trimmed]
  simpa using all

/-! ### Instance numbers -/

theorem toList_withSuffix (b : String) (n : Nat) :
    (withSuffix b n).toList = b.toList ++ '~' :: Nat.toDigits 10 n := by
  simp [withSuffix]

/-- The last tilde is the one that counts. -/
theorem splitTilde?_append {before after : List Char} (last : '~' ∉ after) :
    splitTilde? (before ++ '~' :: after) = some (before, after) := by
  have others : ∀ d ∈ after.reverse, d ≠ '~' := by
    rintro _ inside rfl
    exact last (List.mem_reverse.1 inside)
  rw [splitTilde?, if_pos (by simp), List.reverse_append, List.reverse_cons,
    List.append_assoc, List.takeWhile_append_of_pos (by simpa using others),
    List.dropWhile_append_of_pos (by simpa using others)]
  simp

/-- The last tilde of an instance's identifier stands before the number. -/
theorem splitTilde?_withSuffix (b : String) (n : Nat) :
    splitTilde? (withSuffix b n).toList = some (b.toList, Nat.toDigits 10 n) := by
  rw [toList_withSuffix]
  refine splitTilde?_append fun inside => ?_
  exact absurd (Decimal.isDigit_toDigits n _ inside) (by decide)

theorem withSuffix_inj (same : withSuffix b n = withSuffix c k) : b = c ∧ n = k := by
  have parts := splitTilde?_withSuffix b n
  rw [same, splitTilde?_withSuffix] at parts
  obtain ⟨bases, digits⟩ := Prod.mk.inj (Option.some.inj parts)
  have numbers := congrArg Decimal.digitsValue digits
  rw [Decimal.digitsValue_toDigits, Decimal.digitsValue_toDigits] at numbers
  exact ⟨String.toList_inj.1 bases.symm, numbers.symm⟩

theorem readNat?_toDigits (word : n < Nat.pow 2 64) :
    Decimal.readNat? (String.ofList (Nat.toDigits 10 n)) = some n := by
  have read : Decimal.readDigits? (Nat.toDigits 10 n) = some n := by
    rw [Decimal.readDigits?, if_pos, Decimal.digitsValue_toDigits]
    exact ⟨Nat.toDigits_ne_nil, List.all_eq_true.2 (Decimal.isDigit_toDigits n)⟩
  unfold Decimal.readNat? Decimal.readBelow?
  rw [String.toList_ofList]
  split
  · next ds same =>
    -- No number begins with a sign.
    have sign := Decimal.isDigit_toDigits n '+' (same ▸ List.mem_cons_self)
    exact absurd sign (by decide)
  · dsimp only
    rw [read, Option.bind_some]
    exact if_pos word

theorem lt_of_readNat? {s : String} (h : Decimal.readNat? s = some n) : n < Nat.pow 2 64 := by
  obtain ⟨_, -, h⟩ := Option.bind_eq_some_iff.1 h
  split at h
  · next word => exact Option.some.inj h ▸ word
  · exact absurd h (by simp)

/-- Instance numbers are words. -/
theorem lt_of_suffix? (h : suffix? id = some n) : n < Nat.pow 2 64 := by
  unfold suffix? splitSuffix at h
  split at h
  · exact absurd h (by simp)
  · split at h
    · exact absurd h (by simp)
    · next number =>
      cases h
      exact lt_of_readNat? number

theorem splitSuffix_withSuffix (b : String) (word : n < Nat.pow 2 64) :
    splitSuffix (withSuffix b n) = (b, some n) := by
  rw [splitSuffix, splitTilde?_withSuffix]
  dsimp only
  rw [readNat?_toDigits word, String.ofList_toList]

/-- An instance's identifier has its number, if it is a word. -/
theorem suffix?_withSuffix (b : String) (word : n < Nat.pow 2 64) :
    suffix? (withSuffix b n) = some n := by
  rw [suffix?, splitSuffix_withSuffix b word]

theorem base_withSuffix (b : String) (word : n < Nat.pow 2 64) : base (withSuffix b n) = b := by
  rw [base, splitSuffix_withSuffix b word]

/-- Without an instance number nothing is left out. -/
theorem base_of_suffix?_none (plain : suffix? id = none) : base id = id := by
  unfold suffix? splitSuffix at plain
  unfold base splitSuffix
  split
  · rfl
  · next before after tilde =>
    rw [tilde] at plain
    dsimp only at plain
    split
    · rfl
    · next number => simp [number] at plain

/-- The number of an instance does not count for its type. -/
theorem resourceType_numbered (id : NodeId) (word : n < Nat.pow 2 64) :
    resourceType (withSuffix (base id) n) = resourceType id := by
  have instanced := splitSuffix_withSuffix (base id) word
  have own : splitSuffix id = (base id, suffix? id) := rfl
  rw [resourceType, parts, instanced, resourceType, parts, own]
  dsimp only
  split <;> rfl

/-- An instance is of the type of the node that it is an instance of. -/
theorem resourceType_withSuffix (plain : suffix? b = none) (word : n < Nat.pow 2 64) :
    resourceType (withSuffix b n) = resourceType b := by
  have numbered := resourceType_numbered b word
  rwa [base_of_suffix?_none plain] at numbered

/-! ### Qualified names -/

/-- Texts without a dot behind the last dot. -/
theorem append_dot_inj {as bs cs ds : List Char} (left : '.' ∉ bs) (right : '.' ∉ ds)
    (same : as ++ '.' :: bs = cs ++ '.' :: ds) : as = cs ∧ bs = ds := by
  rcases List.append_eq_append_iff.1 same with ⟨more, rfl, rest⟩ | ⟨more, rfl, rest⟩
  · cases more with
    | nil => exact ⟨by simp, (List.cons.inj rest).2⟩
    | cons d more =>
      obtain ⟨-, rfl⟩ := List.cons.inj rest
      exact absurd (by simp) left
  · cases more with
    | nil => exact ⟨by simp, (List.cons.inj rest).2.symm⟩
    | cons d more =>
      obtain ⟨-, rfl⟩ := List.cons.inj rest
      exact absurd (by simp) right

/-- The last dot of an identifier stands before its name, if that has none. -/
theorem qualified_eq_iff {module module' name' : String} (dot : '.' ∉ name.toList)
    (dot' : '.' ∉ name'.toList) :
    qualified module ty name = qualified module' ty name' ↔ module = module' ∧ name = name' := by
  refine ⟨fun same => ?_, fun ⟨e, e'⟩ => by rw [e, e']⟩
  have shape : ∀ module name, (qualified module ty name).toList =
      (if module = "" then [] else module.toList ++ ['.']) ++ ty.toList ++ '.' :: name.toList := by
    intro module name
    unfold qualified
    split <;> simp
  have texts := congrArg String.toList same
  rw [shape, shape] at texts
  obtain ⟨owners, names⟩ := append_dot_inj dot dot' texts
  refine ⟨?_, String.toList_inj.1 names⟩
  have modules := List.append_cancel_right owners
  split at modules
  · next root =>
    split at modules
    · next root' => rw [root, root']
    · exact absurd modules (by simp)
  · split at modules
    · exact absurd modules (by simp)
    · exact String.toList_inj.1 (List.append_cancel_right modules)
end Cartograph.NodeId

import Mathlib.Data.List.Induction
import Cartograph.Plan
import Cartograph.Proofs.NodeId

/-!
# Addresses of resources

A resource is declared under a type and a name, in a module that calls lead to from the root
(`NodeId.Address`). The parts of its identifier are those that it is declared with, and an instance
has its number beside, so that no two resources have one identifier (`Address.parts_identifier`).
What the words say does not count: a call, a type or a name may well be the word `module`.
-/

namespace Cartograph.NodeId

/-! ### Segments -/

theorem dotted_append {as bs : List (List Char)} (some : as ≠ []) (some' : bs ≠ []) :
    dotted (as ++ bs) = dotted as ++ "." ++ dotted bs := by
  apply String.toList_inj.1
  induction as with
  | nil => exact absurd rfl some
  | cons a as ih =>
    cases as with
    | nil => simp [dotted, List.intercalate_cons_of_ne_nil some']
    | cons a' as =>
      have rest := ih (List.cons_ne_nil _ _)
      simp only [dotted, String.toList_append, String.toList_ofList] at rest ⊢
      rw [List.cons_append, List.intercalate_cons_of_ne_nil (by simp), rest,
        List.intercalate_cons_of_ne_nil (List.cons_ne_nil _ _)]
      simp

theorem dotted_singleton (s : String) : dotted [s.toList] = s := by
  rw [dotted, List.intercalate_singleton, String.ofList_toList]

theorem dotted_pair (s t : String) : dotted [s.toList, t.toList] = s ++ "." ++ t := by
  rw [← List.singleton_append, dotted_append (List.cons_ne_nil _ _) (List.cons_ne_nil _ _),
    dotted_singleton, dotted_singleton]

/-- Segments without dots are found again. -/
theorem segments_dotted {segs : List (List Char)} (some : segs ≠ [])
    (dotless : ∀ seg ∈ segs, '.' ∉ seg) : segments (dotted segs) = segs := by
  rw [segments, dotted, String.toList_ofList, List.splitOn_intercalate '.' dotless some]

/-! ### Paths of modules -/

/-- The path of the module that calls lead to from the root: empty, or as in `module.a.module.b`. -/
def modulePath (calls : List String) : String := calls.foldl Plan.childPath ""

/-- The segments of the path of a module. -/
def moduleSegments (calls : List String) : List (List Char) :=
  calls.flatMap fun name => ["module".toList, name.toList]

theorem moduleSegments_cons (name : String) (calls : List String) :
    moduleSegments (name :: calls) = "module".toList :: name.toList :: moduleSegments calls := rfl

theorem moduleSegments_eq_nil {calls : List String} : moduleSegments calls = [] ↔ calls = [] := by
  cases calls with
  | nil => exact iff_of_true rfl rfl
  | cons name calls => exact iff_of_false (List.cons_ne_nil _ _) (List.cons_ne_nil _ _)

theorem moduleSegments_inj {calls calls' : List String}
    (same : moduleSegments calls = moduleSegments calls') : calls = calls' := by
  induction calls generalizing calls' with
  | nil =>
    cases calls' with
    | nil => rfl
    | cons => exact absurd same (List.cons_ne_nil _ _).symm
  | cons name calls ih =>
    cases calls' with
    | nil => exact absurd same (List.cons_ne_nil _ _)
    | cons name' calls' =>
      rw [moduleSegments_cons, moduleSegments_cons] at same
      obtain ⟨names, rest⟩ := List.cons.inj (List.cons.inj same).2
      rw [String.toList_inj.1 names, ih rest]

theorem modulePath_concat (calls : List String) (name : String) :
    modulePath (calls ++ [name]) = Plan.childPath (modulePath calls) name :=
  List.foldl_append ..

theorem modulePath_eq_empty {calls : List String} : modulePath calls = "" ↔ calls = [] := by
  refine ⟨fun root => ?_, fun none => none ▸ rfl⟩
  rcases List.eq_nil_or_concat calls with none | ⟨calls, name, rfl⟩
  · exact none
  · rw [List.concat_eq_append, modulePath_concat, Plan.childPath] at root
    split at root <;> simp at root

theorem modulePath_eq_dotted (calls : List String) :
    modulePath calls = dotted (moduleSegments calls) := by
  induction calls using List.reverseRecOn with
  | nil => rfl
  | append_singleton calls name ih =>
    have last : moduleSegments (calls ++ [name]) =
        moduleSegments calls ++ ["module".toList, name.toList] := List.flatMap_append
    rw [modulePath_concat, last, Plan.childPath]
    split
    · next root =>
      obtain rfl := modulePath_eq_empty.1 root
      exact (dotted_pair "module" name).symm
    · next inner =>
      have some := moduleSegments_eq_nil.not.2 (modulePath_eq_empty.not.1 inner)
      rw [dotted_append some (List.cons_ne_nil _ _), dotted_pair, ← ih]
      apply String.toList_inj.1
      simp

/-- The segments of an identifier are those of its parts. -/
theorem qualified_eq_dotted (calls : List String) (ty name : String) :
    qualified (modulePath calls) ty name =
      dotted (moduleSegments calls ++ [ty.toList, name.toList]) := by
  unfold qualified
  split
  · next root =>
    obtain rfl := modulePath_eq_empty.1 root
    exact (dotted_pair ty name).symm
  · next inner =>
    have some := moduleSegments_eq_nil.not.2 (modulePath_eq_empty.not.1 inner)
    rw [dotted_append some (List.cons_ne_nil _ _), dotted_pair, ← modulePath_eq_dotted]
    simp [String.append_assoc]

/-- As many pairs are taken off as there are calls, whatever the words are. -/
theorem takeModules_append (calls : List String) (ty name : List Char) :
    takeModules (moduleSegments calls ++ [ty, name]) = (moduleSegments calls, [ty, name]) := by
  induction calls with
  | nil => rfl
  | cons call calls ih =>
    -- Type and name are always left, so a pair in front of them is taken off.
    obtain ⟨a, b, rest, long⟩ :
        ∃ a b rest, moduleSegments calls ++ [ty, name] = a :: b :: rest := by
      cases calls with
      | nil => exact ⟨_, _, _, rfl⟩
      | cons => exact ⟨_, _, _, rfl⟩
    rw [moduleSegments_cons, List.cons_append, List.cons_append, long, takeModules, if_pos rfl,
      ← long, ih]

/-- Nothing is lost. -/
theorem takeModules_append_takeModules (segs : List (List Char)) :
    (takeModules segs).1 ++ (takeModules segs).2 = segs := by
  fun_induction takeModules segs with
  | case1 name a b rest path inner taken ih =>
    rw [taken] at ih
    rw [List.cons_append, List.cons_append, ih]
  | case2 => rfl
  | case3 => rfl

/-- The path is what is taken off, also where nothing is. -/
theorem splitModule_eq (id : NodeId) : splitModule id =
    (dotted (takeModules (segments id)).1, dotted (takeModules (segments id)).2) := by
  have all := takeModules_append_takeModules (segments id)
  unfold splitModule
  split
  · next inner taken =>
    rw [taken] at all ⊢
    obtain rfl : inner = segments id := all
    have whole : dotted (segments id) = id := by
      rw [dotted, segments, List.intercalate_splitOn, String.ofList_toList]
    rw [whole]
    rfl
  · next taken => rw [taken]

/-! ### Numbers -/

/-- A text that ends in a tilde and a number, as the reader of numbers has it. -/
def Numbered (s : String) : Prop :=
  ∃ stem digits n, s = stem ++ "~" ++ digits ∧ Decimal.readNat? digits = some n

/-- A number is written with digits, apart from its sign. -/
theorem not_mem_of_readNat? {s : String} {n : Nat} {c : Char} (h : Decimal.readNat? s = some n)
    (sign : c ≠ '+') (other : c.isDigit = false) : c ∉ s.toList := by
  have apart : ∀ {cs : List Char} {k : Nat}, Decimal.readDigits? cs = some k → c ∉ cs := by
    intro cs k digits inside
    obtain ⟨⟨-, all⟩, -⟩ := Option.ite_none_right_eq_some.1 digits
    exact Bool.eq_false_iff.1 other (List.all_eq_true.1 all c inside)
  obtain ⟨k, digits, -⟩ := Option.bind_eq_some_iff.1 h
  split at digits
  · next cs signed =>
    rw [signed]
    exact fun inside => (List.mem_cons.1 inside).elim sign (apart digits)
  · exact apart digits

theorem splitTilde?_eq_some {cs before after : List Char}
    (h : splitTilde? cs = some (before, after)) : cs = before ++ '~' :: after := by
  have inside : '~' ∈ cs.reverse := List.mem_reverse.2 (Option.ite_none_right_eq_some.1 h).1
  obtain ⟨as, bs, shape, first⟩ := List.eq_append_cons_of_mem inside
  -- The first tilde from behind is the last one.
  have split : cs = bs.reverse ++ '~' :: as.reverse := by
    simpa using congrArg List.reverse shape
  rw [split, splitTilde?_append (by simpa using first)] at h
  obtain ⟨rfl, rfl⟩ := Prod.mk.inj (Option.some.inj h)
  exact split

/-- Without a number the whole identifier is its base. -/
theorem splitSuffix_of_not_numbered {id : NodeId} (h : ¬Numbered id) :
    splitSuffix id = (id, none) := by
  unfold splitSuffix
  split
  · rfl
  · next before after tilde =>
    split
    · rfl
    · next n number =>
      refine absurd ⟨String.ofList before, String.ofList after, n, ?_, number⟩ h
      apply String.toList_inj.1
      simp [splitTilde?_eq_some tilde]

/-- The instances are those with a number. -/
theorem numbered_iff {s : String} : Numbered s ↔ (suffix? s).isSome := by
  constructor
  · rintro ⟨stem, digits, n, rfl, number⟩
    have last : '~' ∉ digits.toList := not_mem_of_readNat? number (by decide) (by decide)
    have split : splitTilde? (stem ++ "~" ++ digits).toList =
        some (stem.toList, digits.toList) := by
      simpa using splitTilde?_append last
    rw [suffix?, splitSuffix, split]
    dsimp only
    rw [String.ofList_toList, number]
    rfl
  · intro some
    by_contra h
    simp [suffix?, splitSuffix_of_not_numbered h] at some

instance (s : String) : Decidable (Numbered s) := decidable_of_iff _ numbered_iff.symm

/-- A number stands behind the last dot. -/
theorem Numbered.of_append {owner name : String} (h : Numbered (owner ++ "." ++ name)) :
    Numbered name := by
  obtain ⟨stem, digits, n, same, number⟩ := h
  have texts : owner.toList ++ '.' :: name.toList = stem.toList ++ '~' :: digits.toList := by
    simpa using congrArg String.toList same
  rcases List.append_eq_append_iff.1 texts with ⟨more, -, rest⟩ | ⟨more, -, rest⟩
  · -- The tilde comes behind the dot, so it belongs to the name.
    cases more with
    | nil => exact absurd (List.cons.inj rest).1 (by decide)
    | cons _ more =>
      refine ⟨String.ofList more, digits, n, String.toList_inj.1 ?_, number⟩
      simp [(List.cons.inj rest).2]
  · -- The tilde comes before the dot, which would be part of a number.
    cases more with
    | nil => exact absurd (List.cons.inj rest).1 (by decide)
    | cons _ more =>
      have dot : '.' ∈ digits.toList := by simp [(List.cons.inj rest).2]
      exact absurd dot (not_mem_of_readNat? number (by decide) (by decide))

/-- A name stands behind the last dot of an identifier. -/
theorem exists_owner (module ty name : String) :
    ∃ owner, qualified module ty name = owner ++ "." ++ name := by
  unfold qualified
  split
  · exact ⟨ty, rfl⟩
  · exact ⟨module ++ "." ++ ty, rfl⟩

/-! ### Addresses -/

/-- Where a resource is declared: under a type and a name, in the module that calls lead to from the
    root. No part has a dot, and the name is not that of an instance. -/
@[ext]
structure Address where
  calls : List String
  resourceType : String
  name : String
  calls_dotless : ∀ call ∈ calls, '.' ∉ call.toList
  type_dotless : '.' ∉ resourceType.toList
  name_dotless : '.' ∉ name.toList
  name_unnumbered : ¬Numbered name

namespace Address

variable (a : Address)

/-- The identifier of the resource. -/
def identifier : NodeId := qualified (modulePath a.calls) a.resourceType a.name

/-- The segments of the identifier. -/
def idSegments : List (List Char) :=
  moduleSegments a.calls ++ [a.resourceType.toList, a.name.toList]

theorem identifier_eq_dotted : a.identifier = dotted a.idSegments := qualified_eq_dotted _ _ _

theorem idSegments_dotless : ∀ seg ∈ a.idSegments, '.' ∉ seg := by
  intro seg inside
  rcases List.mem_append.1 inside with module | own
  · obtain ⟨call, listed, inside⟩ := List.mem_flatMap.1 module
    simp only [List.mem_cons, List.not_mem_nil, or_false] at inside
    rcases inside with rfl | rfl
    · decide
    · exact a.calls_dotless call listed
  · simp only [List.mem_cons, List.not_mem_nil, or_false] at own
    rcases own with rfl | rfl
    · exact a.type_dotless
    · exact a.name_dotless

theorem segments_identifier : segments a.identifier = a.idSegments := by
  rw [identifier_eq_dotted, segments_dotted (by simp [idSegments]) a.idSegments_dotless]

theorem splitModule_identifier :
    splitModule a.identifier = (modulePath a.calls, a.resourceType ++ "." ++ a.name) := by
  rw [splitModule_eq, segments_identifier, idSegments, takeModules_append, ← modulePath_eq_dotted,
    dotted_pair]

theorem splitSuffix_identifier : splitSuffix a.identifier = (a.identifier, none) := by
  refine splitSuffix_of_not_numbered fun numbered => a.name_unnumbered ?_
  obtain ⟨owner, shape⟩ := exists_owner (modulePath a.calls) a.resourceType a.name
  rw [identifier, shape] at numbered
  exact numbered.of_append

/-- Whatever number an identifier has, its other parts are those of the module, the type and the
    name. -/
theorem parts_of_splitSuffix {id : NodeId} {number : Option Nat}
    (split : splitSuffix id = (a.identifier, number)) :
    parts id = ⟨modulePath a.calls, a.resourceType, a.name, number⟩ := by
  have segs : segments (a.resourceType ++ "." ++ a.name) =
      [a.resourceType.toList, a.name.toList] := by
    rw [← dotted_pair, segments_dotted (List.cons_ne_nil _ _)]
    simp [a.type_dotless, a.name_dotless]
  rw [parts, split]
  dsimp only
  rw [splitModule_identifier]
  dsimp only
  rw [segs]
  dsimp only
  rw [String.ofList_toList, dotted_singleton]

/-- The parts of a resource's identifier are those that it is declared with, and its instances have
    their numbers beside. No other resource has the same identifier. -/
theorem parts_identifier :
    parts a.identifier = ⟨modulePath a.calls, a.resourceType, a.name, none⟩ ∧
      (∀ n < Nat.pow 2 64, parts (withSuffix a.identifier n) =
        ⟨modulePath a.calls, a.resourceType, a.name, some n⟩) ∧
      ∀ b : Address, b.identifier = a.identifier → b = a := by
  refine ⟨a.parts_of_splitSuffix a.splitSuffix_identifier, fun n word => ?_, fun b same => ?_⟩
  · exact a.parts_of_splitSuffix (splitSuffix_withSuffix a.identifier word)
  · -- Equal identifiers have equal segments, of which the last two are type and name.
    have segs : b.idSegments = a.idSegments := by
      rw [← b.segments_identifier, same, a.segments_identifier]
    obtain ⟨modules, own⟩ := List.append_inj' segs rfl
    obtain ⟨types, names⟩ := List.cons.inj own
    exact Address.ext (moduleSegments_inj modules) (String.toList_inj.1 types)
      (String.toList_inj.1 (List.cons.inj names).1)

/-- A resource of which all words are `module`, but one. -/
def modules : Address where
  calls := ["module", "net"]
  resourceType := "module"
  name := "module~x"
  calls_dotless := by decide
  type_dotless := by decide
  name_dotless := by decide
  name_unnumbered := by decide +kernel

/-- The theorem where all words but one are `module`. -/
theorem parts_identifier_modules :
    modules.identifier = "module.module.module.net.module.module~x" ∧
      parts modules.identifier = ⟨"module.module.module.net", "module", "module~x", none⟩ ∧
      parts (withSuffix modules.identifier 7) =
        ⟨"module.module.module.net", "module", "module~x", some 7⟩ := by
  have path : modulePath modules.calls = "module.module.module.net" := by decide +kernel
  obtain ⟨whole, instances, -⟩ := modules.parts_identifier
  rw [path] at whole instances
  exact ⟨by decide +kernel, whole, instances 7 (by decide)⟩

end Address

end Cartograph.NodeId

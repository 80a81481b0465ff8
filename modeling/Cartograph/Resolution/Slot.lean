import Cartograph.NodeId

/-!
# Slots

A slot is something in a plan that has a value of its own and that expressions can refer to. Slots
are resolved in a fixed order: variables, locals and outputs first, then the numbers of instances,
then attributes; among equals by module and name, or by resource, instance and name (`Slot.lt`).
-/

namespace Cartograph.Resolution

/-- Something with a value of its own. -/
inductive Slot
  /-- A variable of a module. -/
  | input (module name : String)
  /-- A named expression of a module. -/
  | named (module name : String)
  /-- What a module gives back. -/
  | output (module name : String)
  /-- What says how many instances a resource has. -/
  | extent (resource : NodeId)
  /-- An attribute of an instance, counted from zero. -/
  | attr (resource : NodeId) (number : Nat) (name : String)
  deriving Repr, DecidableEq

namespace Slot

/-- The place of a slot's kind. -/
def rank : Slot → Nat
  | input .. => 0
  | named .. => 1
  | output .. => 2
  | extent _ => 3
  | attr .. => 4

/-- The module or resource of a slot. -/
def owner : Slot → String
  | input module _ => module
  | named module _ => module
  | output module _ => module
  | extent resource => resource
  | attr resource _ _ => resource

/-- The instance of a slot. -/
def number : Slot → Nat
  | attr _ number _ => number
  | _ => 0

/-- The name of a slot. -/
def name : Slot → String
  | input _ name => name
  | named _ name => name
  | output _ name => name
  | extent _ => ""
  | attr _ _ name => name

/-- The order in which slots are resolved. -/
def lt (a b : Slot) : Prop :=
  a.rank < b.rank ∨ a.rank = b.rank ∧ (a.owner < b.owner ∨ a.owner = b.owner ∧
    (a.number < b.number ∨ a.number = b.number ∧ a.name < b.name))

instance : LT Slot := ⟨lt⟩

instance : DecidableLT Slot := fun a b => by
  change Decidable (lt a b)
  unfold lt
  infer_instance

/-- Kind, owner, instance and name make up a slot. -/
theorem eq_of_parts {a b : Slot} (h : a.rank = b.rank) (ho : a.owner = b.owner)
    (hn : a.number = b.number) (hm : a.name = b.name) : a = b := by
  cases a <;> cases b <;> simp_all [rank, owner, number, name]

/-- The resource that a slot belongs to. -/
def resource? : Slot → Option NodeId
  | extent resource => some resource
  | attr resource _ _ => some resource
  | _ => none

/-- Whether a slot says how many instances a resource has. -/
def isExtent : Slot → Bool
  | extent _ => true
  | _ => false

/-- A name in a module. -/
def inModule (module text : String) : String :=
  if module = "" then text else module ++ "." ++ text

/-- The text of a slot in messages. -/
def text : Slot → String
  | input module name => inModule module ("var." ++ name)
  | named module name => inModule module ("local." ++ name)
  | output module name => module ++ ".output." ++ name
  | extent resource => resource ++ ".count"
  | attr resource number name => resource ++ "[" ++ toString number ++ "]." ++ name

end Slot

end Cartograph.Resolution

import Cartograph.Text.Quoted

/-!
# What keeps an expression from having a value

An evaluation either ends with a value or says why there is none (`Stop`): something it depends on
is still *pending*, so that a later attempt may succeed, or there is an *obstacle*, which no later
attempt can remove.
-/

namespace Cartograph.Expression

/-- Why an expression has no value, for good. Types are given by their names. -/
inductive Obstacle
  /-- A name that nothing is known by; the text says which. -/
  | missing (message : String)
  | unresolvedOperand
  | notNegatable (type : String)
  | conditionType (type : String)
  | logicalType (type : String)
  | needNumbers (left right : String)
  | divisionByZero
  | moduloByZero
  | notIterable (type : String)
  | filterType
  | duplicateKey (key : String)
  | noArguments
  | unresolvedArgument
  | notExpandable (type : String)
  | noAttribute (name : String)
  | notReadable (name type : String)
  | indexType (type : String)
  | indexRange (index : Int) (length : Nat)
  | noKey (key : String)
  | notIndexable (type : String)
  | notAKey (type : String)
  | arity (name : String) (least : Nat) (most : Nat) (given : Nat)
  | argumentType (name wanted type : String)
  | lengthOf (type : String)
  | emptyElement
  | lookupKey (key : String)
  | nothingToCoalesce
  | zeroStep
  | tooManyElements
  | malformedRegex
  | unsupportedFunction (name : String)
  | tooFewArguments
  | unsupportedVerb (verb : Option Char)
  deriving Repr, DecidableEq

/-- The wording of a verb that may be missing. -/
def verbText : Option Char → String
  | some c => "Some(" ++ Text.quoteChar c ++ ")"
  | none => "None"

/-- The wording of an obstacle. -/
def Obstacle.message : Obstacle → String
  | missing message => message
  | unresolvedOperand => "depends on an unresolved value"
  | notNegatable type => "cannot negate " ++ type
  | conditionType type => "condition is " ++ type ++ ", not bool"
  | logicalType type => "logical operand is " ++ type
  | needNumbers left right => "operator needs numbers, got " ++ left ++ " and " ++ right
  | divisionByZero => "division by zero"
  | moduloByZero => "modulo by zero"
  | notIterable type => "cannot iterate over " ++ type
  | filterType => "for condition is not bool"
  | duplicateKey key => "duplicate key '" ++ key ++ "' in for expression"
  | noArguments => "try() has no arguments"
  | unresolvedArgument => "argument is unresolved"
  | notExpandable type => "cannot expand " ++ type
  | noAttribute name => "no attribute '" ++ name ++ "'"
  | notReadable name type => "cannot read '" ++ name ++ "' of " ++ type
  | indexType type => "list index must be a number, got " ++ type
  | indexRange index length =>
    "index " ++ toString index ++ " out of range for list of " ++ toString length
  | noKey key => "no key '" ++ key ++ "'"
  | notIndexable type => "cannot index " ++ type
  | notAKey type => type ++ " cannot be used as a key"
  | arity name least most given =>
    name ++ "() takes " ++ toString least ++ ".." ++ toString most ++ " arguments, got "
      ++ toString given
  | argumentType name wanted type => name ++ "() expects a " ++ wanted ++ ", got " ++ type
  | lengthOf type => "length() of " ++ type
  | emptyElement => "element() of an empty list"
  | lookupKey key => "lookup() found no key '" ++ key ++ "'"
  | nothingToCoalesce => "coalesce() found no non-empty argument"
  | zeroStep => "range() step cannot be zero"
  | tooManyElements => "range() produces too many elements"
  | malformedRegex => "replace() pattern: malformed regular expression"
  | unsupportedFunction name => "unsupported function " ++ name ++ "()"
  | tooFewArguments => "format() has too few arguments"
  | unsupportedVerb verb => "format() verb " ++ verbText verb ++ " not supported"

/-- Why an evaluation ended without a value. -/
inductive Stop
  | pending
  | obstacle (o : Obstacle)
  deriving Repr, DecidableEq

/-- The wording of a stop. -/
def Stop.message : Stop → String
  | pending => "pending"
  | obstacle o => o.message

end Cartograph.Expression

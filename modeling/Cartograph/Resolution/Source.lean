import Cartograph.Expression.Evaluation
import Cartograph.Expression.Parser
import Cartograph.Text.Quoted
import Cartograph.Text.Search

/-!
# Sources of values

A value as written, with its templates parsed (`Source.ofValue`). Evaluating one strictly
(`Source.eval`) fails where one of its expressions fails; evaluating it leniently
(`Source.evalLenient`) leaves a placeholder there and keeps the rest. Where the strict evaluation
succeeds both agree (`evalLenient_of_eval`).
-/

namespace Cartograph.Resolution

open Expression

/-- A value with its templates parsed. -/
inductive Source
  | literal (v : Value)
  /-- An expression and the text of its placeholder. -/
  | expr (e : Expr) (text : String)
  | list (items : List Source)
  | map (entries : List (String × Source))
  deriving Inhabited

namespace Source

/-- The text of a template's placeholder: the expression if the template is nothing else, otherwise
    the whole template in quotes. -/
def placeholder (template : String) : String :=
  let whole := Text.quote template
  match (Text.dropStart? "$\x7b" (Text.trim template)).bind (Text.dropEnd? "\x7d") with
  | none => whole
  | some inner =>
    if Text.isPart "$\x7b" inner || Text.isPart "\x7d" inner then whole else Text.trim inner

mutual

/-- A value with its templates parsed, and what is to be said about malformed ones, which are left
    as they are. -/
def ofValue : Value → Source × List String
  | .text s =>
    if Text.isPart "$\x7b" s then
      match parseTemplate s with
      | .ok e => (expr e (placeholder s), [])
      | .error f => (literal (.text s), ["cannot parse '" ++ s ++ "': " ++ f.message])
    else (literal (.text s), [])
  | .list items =>
    let (sources, faults) := ofList items
    (list sources, faults)
  | .map entries =>
    let (sources, faults) := ofEntries entries
    (map sources, faults)
  | .null => (literal .null, [])
  | .bool b => (literal (.bool b), [])
  | .int i => (literal (.int i), [])
  | .float f => (literal (.float f), [])
  | .unresolved e => (literal (.unresolved e), [])

def ofList : List Value → List Source × List String
  | [] => ([], [])
  | v :: vs =>
    let (source, faults) := ofValue v
    let (sources, more) := ofList vs
    (source :: sources, faults ++ more)

def ofEntries : List (String × Value) → List (String × Source) × List String
  | [] => ([], [])
  | (k, v) :: es =>
    let (source, faults) := ofValue v
    let (sources, more) := ofEntries es
    ((k, source) :: sources, faults ++ more)

end

mutual

/-- The value of a source, if all its expressions have one. -/
def eval (scope : Scope) (env : Bindings) : Source → Result Value
  | literal v => .ok v
  | expr e _ => Expression.eval scope e env
  | list items => (evalAll scope env items).map .list
  | map entries => (evalEach scope env entries).map .map

def evalAll (scope : Scope) (env : Bindings) : List Source → Result (List Value)
  | [] => .ok []
  | s :: ss => do
    let v ← eval scope env s
    let vs ← evalAll scope env ss
    pure (v :: vs)

def evalEach (scope : Scope) (env : Bindings) : List (String × Source) → Result Attributes
  | [] => .ok []
  | (k, s) :: es => do
    let v ← eval scope env s
    let vs ← evalEach scope env es
    pure ((k, v) :: vs)

end

mutual

/-- The value of a source with placeholders for the expressions that have none. -/
def evalLenient (scope : Scope) (env : Bindings) : Source → Value
  | literal v => v
  | expr e text =>
    match Expression.eval scope e env with
    | .ok v => v
    | .error _ => .unresolved text
  | list items => .list (evalLenientAll scope env items)
  | map entries => .map (evalLenientEach scope env entries)

def evalLenientAll (scope : Scope) (env : Bindings) : List Source → List Value
  | [] => []
  | s :: ss => evalLenient scope env s :: evalLenientAll scope env ss

def evalLenientEach (scope : Scope) (env : Bindings) : List (String × Source) → Attributes
  | [] => []
  | (k, s) :: es => (k, evalLenient scope env s) :: evalLenientEach scope env es

end

mutual

/-- The references in a source, from left to right. -/
def references : Source → List Reference
  | literal _ => []
  | expr e _ => e.references
  | list items => referencesOfAll items
  | map entries => referencesOfEach entries

def referencesOfAll : List Source → List Reference
  | [] => []
  | s :: ss => references s ++ referencesOfAll ss

def referencesOfEach : List (String × Source) → List Reference
  | [] => []
  | (_, s) :: es => references s ++ referencesOfEach es

end

mutual

/-- Leniency changes nothing where there is nothing to be lenient about. -/
theorem evalLenient_of_eval {scope : Scope} {env : Bindings} :
    ∀ {s : Source} {v : Value}, eval scope env s = .ok v → evalLenient scope env s = v
  | literal _, _, h => by simpa [eval, evalLenient] using h
  | expr _ _, _, h => by
    rw [eval] at h
    simp [evalLenient, h]
  | list items, v, h => by
    rw [eval] at h
    cases hs : evalAll scope env items with
    | error _ => simp [hs, Except.map] at h
    | ok vs =>
      simp only [hs, Except.map, Except.ok.injEq] at h
      rw [evalLenient, evalLenientAll_of_evalAll hs, h]
  | map entries, v, h => by
    rw [eval] at h
    cases hs : evalEach scope env entries with
    | error _ => simp [hs, Except.map] at h
    | ok vs =>
      simp only [hs, Except.map, Except.ok.injEq] at h
      rw [evalLenient, evalLenientEach_of_evalEach hs, h]

theorem evalLenientAll_of_evalAll {scope : Scope} {env : Bindings} :
    ∀ {ss : List Source} {vs : List Value},
      evalAll scope env ss = .ok vs → evalLenientAll scope env ss = vs
  | [], _, h => by simpa [evalAll, evalLenientAll] using h
  | s :: ss, vs, h => by
    rw [evalAll] at h
    cases hs : eval scope env s with
    | error _ => simp [hs, bind, Except.bind] at h
    | ok w =>
      cases hr : evalAll scope env ss with
      | error _ => simp [hs, hr, bind, Except.bind] at h
      | ok ws =>
        simp only [hs, hr, bind, Except.bind, pure, Except.pure, Except.ok.injEq] at h
        rw [evalLenientAll, evalLenient_of_eval hs, evalLenientAll_of_evalAll hr, h]

theorem evalLenientEach_of_evalEach {scope : Scope} {env : Bindings} :
    ∀ {es : List (String × Source)} {vs : Attributes},
      evalEach scope env es = .ok vs → evalLenientEach scope env es = vs
  | [], _, h => by simpa [evalEach, evalLenientEach] using h
  | (k, s) :: es, vs, h => by
    rw [evalEach] at h
    cases hs : eval scope env s with
    | error _ => simp [hs, bind, Except.bind] at h
    | ok w =>
      cases hr : evalEach scope env es with
      | error _ => simp [hs, hr, bind, Except.bind] at h
      | ok ws =>
        simp only [hs, hr, bind, Except.bind, pure, Except.pure, Except.ok.injEq] at h
        rw [evalLenientEach, evalLenient_of_eval hs, evalLenientEach_of_evalEach hr, h]

end

end Source

end Cartograph.Resolution

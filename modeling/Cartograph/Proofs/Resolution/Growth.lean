import Cartograph.Proofs.Expression.Pending
import Cartograph.Resolution.State

/-!
# Growing states

A state of a resolution grows (`State.Grows`) when pending slots get values and resources get the
instances that were not known, with the slots of their attributes. Nothing that is known is lost,
and no slot comes to a resource whose instances are known; so the answers of a scope stay what they
are (`State.Grows.scope`), also the one that an attribute nobody has written down gets. Sources then
have the results that they had, unless they were waiting for something (`State.Grows.evaluate`).
-/

namespace Cartograph.Resolution

open Expression

/-! ### Sources -/

namespace Source

variable {s t : Scope} {env : Bindings}

mutual

/-- A source that is not pending keeps its result, whatever else becomes known. -/
theorem eval_before (h : s.Before t) :
    ∀ source : Source, Before (eval s env source) (eval t env source)
  | literal v => by
    rw [eval, eval]
    exact .refl _
  | expr e text => by
    rw [eval, eval]
    exact Expression.eval_before h e env
  | list items => by
    rw [eval, eval]
    exact (evalAll_before h items).map _
  | map entries => by
    rw [eval, eval]
    exact (evalEach_before h entries).map _

theorem evalAll_before (h : s.Before t) : ∀ sources : List Source,
    Before (evalAll s env sources) (evalAll t env sources)
  | [] => by
    rw [evalAll, evalAll]
    exact .refl _
  | source :: rest => by
    rw [evalAll, evalAll]
    exact (eval_before h source).bind fun _ => (evalAll_before h rest).bind fun _ => .refl _

theorem evalEach_before (h : s.Before t) : ∀ entries : List (String × Source),
    Before (evalEach s env entries) (evalEach t env entries)
  | [] => by
    rw [evalEach, evalEach]
    exact .refl _
  | (k, source) :: rest => by
    rw [evalEach, evalEach]
    exact (eval_before h source).bind fun _ => (evalEach_before h rest).bind fun _ => .refl _

end

end Source

/-! ### What is known -/

/-- The earlier value is missing, or the later one is the same. -/
def Fills {α : Type} (x y : Option α) : Prop := x = none ∨ x = y

namespace Fills

variable {α β : Type} {x y z : Option α}

theorem refl (x : Option α) : Fills x x := .inr rfl

theorem trans (h : Fills x y) (h' : Fills y z) : Fills x z := by
  rcases h with none | rfl
  · exact .inl none
  · exact h'

theorem some {a : α} (h : Fills x y) (hx : x = some a) : y = Option.some a :=
  (h.resolve_left (by simp [hx])).symm.trans hx

theorem bind {f g : α → Option β} (h : Fills x y) (each : ∀ a, Fills (f a) (g a)) :
    Fills (x >>= f) (y >>= g) := by
  rcases h with rfl | rfl
  · exact .inl rfl
  · cases x with
    | none => exact refl _
    | some a => exact each a

theorem map (h : Fills x y) (f : α → β) : Fills (x.map f) (y.map f) := by
  rcases h with rfl | rfl
  · exact .inl rfl
  · exact refl _

theorem mapM {f : α → Option β} {g : α → Option β} (l : List α) (each : ∀ a, Fills (f a) (g a)) :
    Fills (l.mapM f) (l.mapM g) := by
  induction l with
  | nil => exact refl _
  | cons a rest ih =>
    rw [List.mapM_cons, List.mapM_cons]
    exact (each a).bind fun _ => ih.bind fun _ => refl _

theorem trans_entries {κ : Type} {l₁ l₂ l₃ : List (κ × Option β)}
    (h : List.Forall₂ (fun e e' => e.1 = e'.1 ∧ Fills e.2 e'.2) l₁ l₂)
    (h' : List.Forall₂ (fun e e' => e.1 = e'.1 ∧ Fills e.2 e'.2) l₂ l₃) :
    List.Forall₂ (fun e e' => e.1 = e'.1 ∧ Fills e.2 e'.2) l₁ l₃ := by
  induction h generalizing l₃ with
  | nil => exact h'
  | cons first _ ih =>
    cases h' with
    | cons second rest =>
      exact .cons ⟨first.1.trans second.1, first.2.trans second.2⟩ (ih rest)

/-- Lists of things that are partly known, with the same keys. -/
theorem mapM_entries {κ : Type} {l l' : List (κ × Option β)}
    (h : List.Forall₂ (fun e e' => e.1 = e'.1 ∧ Fills e.2 e'.2) l l') :
    Fills (l.mapM fun e => e.2.map fun v => (e.1, v))
      (l'.mapM fun e => e.2.map fun v => (e.1, v)) := by
  induction h with
  | nil => exact refl _
  | @cons e e' _ _ first _ ih =>
    rw [List.mapM_cons, List.mapM_cons, ← first.1]
    exact (first.2.map _).bind fun _ => ih.bind fun _ => refl _

/-- Entries that are picked from a list, and from the same list when its members have changed. -/
theorem filterMap_map {γ κ : Type} {f : γ → Option (κ × Option β)} {g : γ → γ} {l : List γ}
    (each : ∀ a ∈ l, Option.Rel (fun e e' => e.1 = e'.1 ∧ Fills e.2 e'.2) (f a) (f (g a))) :
    List.Forall₂ (fun e e' => e.1 = e'.1 ∧ Fills e.2 e'.2) (l.filterMap f)
      ((l.map g).filterMap f) := by
  induction l with
  | nil => exact .nil
  | cons a rest ih =>
    obtain ⟨first, others⟩ := List.forall_mem_cons.1 each
    rw [List.map_cons, List.filterMap_cons, List.filterMap_cons]
    revert first
    generalize f a = x
    generalize f (g a) = y
    intro first
    cases first with
    | none => exact ih others
    | some first => exact .cons first (ih others)

end Fills

/-- A slot keeps its source, and its value if it has one. -/
structure Cell.Grows (c c' : Cell) : Prop where
  module : c'.module = c.module
  source : c'.source = c.source
  instanceOf : c'.instanceOf = c.instanceOf
  value : Fills c.value c'.value

/-- A resource keeps its instances, if they are known. -/
structure Declared.Grows (d d' : Declared) : Prop where
  record : d'.record = d.record
  repetition : d'.repetition = d.repetition
  attributes : d'.attributes = d.attributes
  known : d.instances = none ∨ d = d'

namespace State

/-- Everything that is known stays known. -/
structure Grows (s t : State) : Prop where
  modules : t.modules = s.modules
  data : t.data = s.data
  cell : ∀ slot c, Keyed.find? slot s.cells = some c →
    ∃ c', Keyed.find? slot t.cells = some c' ∧ c.Grows c'
  /-- A new slot is an attribute of a resource whose instances were not known. -/
  fresh : ∀ slot, Keyed.find? slot s.cells = none → Keyed.find? slot t.cells = none ∨
    ∃ id i name d, slot = .attr id i name ∧ Keyed.find? id s.declared = some d ∧ d.instances = none
  undeclared : ∀ id, Keyed.find? id s.declared = none → Keyed.find? id t.declared = none
  declared : ∀ id d, Keyed.find? id s.declared = some d →
    ∃ d', Keyed.find? id t.declared = some d' ∧ d.Grows d'
  outputs : ∀ path, List.Forall₂ (fun e e' => e.1 = e'.1 ∧ Fills e.2 e'.2) (s.outputsOf path)
    (t.outputsOf path)

namespace Grows

variable {s t u : State} {id : NodeId} {slot : Slot}

/-- Findings do not count. -/
theorem of_same (modules : t.modules = s.modules) (data : t.data = s.data)
    (cells : t.cells = s.cells) (declared : t.declared = s.declared) : Grows s t where
  modules := modules
  data := data
  cell slot c h := ⟨c, cells ▸ h, rfl, rfl, rfl, .refl _⟩
  fresh slot h := .inl (cells ▸ h)
  undeclared id h := declared ▸ h
  declared id d h := ⟨d, declared ▸ h, rfl, rfl, rfl, .inr rfl⟩
  outputs path := by
    have same : t.outputsOf path = s.outputsOf path := by rw [outputsOf, cells, outputsOf]
    rw [same]
    exact List.forall₂_same.2 fun e _ => ⟨rfl, .refl _⟩

theorem refl (s : State) : Grows s s := of_same rfl rfl rfl rfl

theorem trans (h : Grows s t) (h' : Grows t u) : Grows s u where
  modules := h'.modules.trans h.modules
  data := h'.data.trans h.data
  cell slot c hc := by
    obtain ⟨c₁, hc₁, g⟩ := h.cell slot c hc
    obtain ⟨c₂, hc₂, g'⟩ := h'.cell slot c₁ hc₁
    exact ⟨c₂, hc₂, g'.module.trans g.module, g'.source.trans g.source,
      g'.instanceOf.trans g.instanceOf, g.value.trans g'.value⟩
  fresh slot hs := by
    rcases h.fresh slot hs with ht | new
    · rcases h'.fresh slot ht with hu | ⟨id, i, name, d, same, found, unknown⟩
      · exact .inl hu
      · -- What is not known later on was not known before.
        cases hd : Keyed.find? id s.declared with
        | none => exact absurd (found.symm.trans (h.undeclared id hd)) (by simp)
        | some d₀ =>
          obtain ⟨d₁, hd₁, g⟩ := h.declared id d₀ hd
          cases found.symm.trans hd₁
          refine .inr ⟨id, i, name, d₀, same, hd, ?_⟩
          rcases g.known with unknown' | rfl
          · exact unknown'
          · exact unknown
    · exact .inr new
  undeclared id hs := h'.undeclared id (h.undeclared id hs)
  declared id d hd := by
    obtain ⟨d₁, hd₁, g⟩ := h.declared id d hd
    obtain ⟨d₂, hd₂, g'⟩ := h'.declared id d₁ hd₁
    refine ⟨d₂, hd₂, g'.record.trans g.record, g'.repetition.trans g.repetition,
      g'.attributes.trans g.attributes, ?_⟩
    rcases g.known with unknown | rfl
    · exact .inl unknown
    · exact g'.known
  outputs path := Fills.trans_entries (h.outputs path) (h'.outputs path)

/-! ### What names stand for -/

theorem slotAnswer (h : Grows s t) {taken : Nat} (old : ∀ id i name, slot ≠ .attr id i name) :
    (s.slotAnswer slot taken).Before (t.slotAnswer slot taken) := by
  rw [State.slotAnswer, State.slotAnswer]
  cases hs : Keyed.find? slot s.cells with
  | none =>
    rcases h.fresh slot hs with ht | ⟨id, i, name, _, same, -⟩
    · rw [ht]
      exact .inr rfl
    · exact absurd same (old id i name)
  | some c =>
    obtain ⟨c', ht, grows⟩ := h.cell slot c hs
    rw [ht]
    dsimp only
    rcases grows.value with waits | same
    · exact .inl (by rw [waits])
    · exact .inr (by rw [same])

theorem answerWith_before {x y : Option Value} (h : Fills x y) (taken : Nat) :
    (answerWith x taken).Before (answerWith y taken) := by
  rcases h with rfl | rfl
  · exact .inl rfl
  · exact .inr rfl

section Instances

variable {d : Declared} (known : d.instances ≠ none) (found : Keyed.find? id s.declared = some d)
include known found

theorem attrValue? (h : Grows s t) (i : Nat) (name : String) :
    Fills (s.attrValue? id d i name) (t.attrValue? id d i name) := by
  rw [State.attrValue?, State.attrValue?]
  cases hs : Keyed.find? (.attr id i name) s.cells with
  | none =>
    -- What is not written down now is not written down later, since the instances are known.
    rcases h.fresh _ hs with ht | ⟨_, _, _, d', same, found', unknown⟩
    · rw [ht]
      exact .refl _
    · cases same
      cases found.symm.trans found'
      exact absurd unknown known
  | some c =>
    obtain ⟨c', ht, grows⟩ := h.cell _ c hs
    rw [ht]
    exact grows.value

theorem objectValue? (h : Grows s t) (i : Nat) :
    Fills (s.objectValue? id d i) (t.objectValue? id d i) :=
  (Fills.mapM _ fun (e : String × Source) => (h.attrValue? known found i e.1).map _).bind
    fun _ => .refl _

theorem everyValue? (h : Grows s t) (n : Nat) (name : Option String) :
    Fills (s.everyValue? id d n name) (t.everyValue? id d n name) := by
  refine Fills.mapM _ fun i => ?_
  cases name with
  | none => exact h.objectValue? known found i
  | some a => exact h.attrValue? known found i a

theorem instancesAnswer (h : Grows s t) (n : Nat) (steps : List Step) :
    (s.instancesAnswer id d n steps).Before (t.instancesAnswer id d n steps) := by
  have attr := fun i name => h.attrValue? known found i name
  have object := fun i => h.objectValue? known found i
  have every := fun name => (h.everyValue? known found n name).map Value.list
  have whole := (h.everyValue? known found n none).map fun vs =>
    Value.map (Keyed.sorted (d.keys.zip vs))
  rw [State.instancesAnswer.eq_def, State.instancesAnswer.eq_def]
  split
  · split
    · exact .inr rfl
    · split
      · exact answerWith_before (attr _ _) _
      · exact answerWith_before (object _) _
  · exact answerWith_before (every _) _
  · exact answerWith_before (every _) _
  · split
    · exact answerWith_before (attr _ _) _
    · exact answerWith_before (every _) _
  · split
    · exact answerWith_before (object _) _
    · exact answerWith_before (every _) _
    · exact answerWith_before whole _

end Instances

theorem resourceAnswer (h : Grows s t) (module resourceType : String) (steps : List Step) :
    (s.resourceAnswer module resourceType steps).Before
      (t.resourceAnswer module resourceType steps) := by
  rw [State.resourceAnswer.eq_def, State.resourceAnswer.eq_def]
  split
  · next name rest =>
    dsimp only
    cases found : Keyed.find? (NodeId.qualified module resourceType name) s.declared with
    | none =>
      rw [h.undeclared _ found]
      exact .inr rfl
    | some d =>
      obtain ⟨d', found', grows⟩ := h.declared _ d found
      rw [found']
      dsimp only
      -- As long as the instances are unknown, every answer about the resource is pending.
      rcases grows.known with unknown | rfl
      · exact .inl (by rw [unknown])
      · cases known : d.instances with
        | none => exact .inl rfl
        | some instances => exact h.instancesAnswer (by simp [known]) found instances.length rest
  · exact .inr rfl

theorem dataAnswer (h : Grows s t) (module : String) (steps : List Step) :
    s.dataAnswer module steps = t.dataAnswer module steps := by
  have same : ∀ id, s.dataAttributes id = t.dataAttributes id := by
    intro id
    rw [dataAttributes, dataAttributes, h.data]
  rw [State.dataAnswer.eq_def, State.dataAnswer.eq_def]
  split
  · dsimp only
    rw [same]
  · rfl

theorem moduleAnswer (h : Grows s t) (module : String) (steps : List Step) :
    (s.moduleAnswer module steps).Before (t.moduleAnswer module steps) := by
  rw [State.moduleAnswer.eq_def, State.moduleAnswer.eq_def]
  split
  · next name rest =>
    dsimp only
    rw [h.modules]
    split
    · exact .inr rfl
    · split
      · exact h.slotAnswer (by simp)
      · -- All outputs of a module are known only together.
        rcases Fills.mapM_entries (h.outputs (Plan.childPath module name)) with waits | same
        · exact .inl (by rw [waits])
        · rw [same]
          exact .inr rfl
  · exact .inr rfl

theorem tableAnswer (h : Grows s t) (table : String) {slot : String → Slot}
    (old : ∀ name id i a, slot name ≠ .attr id i a) (steps : List Step) :
    (s.tableAnswer table slot steps).Before (t.tableAnswer table slot steps) := by
  rw [State.tableAnswer.eq_def, State.tableAnswer.eq_def]
  split
  · exact h.slotAnswer (old _)
  · exact .inr rfl

/-- What a scope has answered it answers still. -/
theorem scope (h : Grows s t) (module : String) : (s.scope module).Before (t.scope module) := by
  intro root steps
  rw [State.scope, State.scope]
  dsimp only
  split
  case h_1 | h_2 => exact h.tableAnswer _ (by simp) steps
  case h_3 => exact h.moduleAnswer module steps
  case h_6 => exact .inr (h.dataAnswer module steps)
  case h_10 => exact h.resourceAnswer module root steps
  all_goals exact .inr rfl

/-- A slot whose evaluation is not pending evaluates to the same from now on. -/
theorem evaluate (h : Grows s t) {c c' : Cell} (grows : c.Grows c') :
    Before (s.evaluate c) (t.evaluate c') := by
  rw [State.evaluate, State.evaluate, grows.source, grows.module, grows.instanceOf]
  exact Source.eval_before (h.scope c.module) c.source

end Grows

end State

end Cartograph.Resolution

import Cartograph.Proofs.Resolution.Staged

/-!
# The course of a resolution

A run visits pending slots in its passes, breaks cycles, passes again and closes out what is left.
Here is its log: the visits of the pass loop (`State.visits`), each with the state in which it is
made, and everything that is recorded of slots (`State.recordings`), each with the state that the
value was found in.

All of these states are stages, the slot is pending in each, and each grows to the last state of the
run (`State.Staged.run`). So whatever a visit records is in the last state too, and each value in
the last state was recorded at some point of the log.
-/

namespace Cartograph.Resolution.State

open Expression

variable {s t u : State} {slot other : Slot} {v : Value} {budget : Nat}

/-! ### The log -/

/-- The states before the steps for the members of a list, each with the member. -/
def history {α : Type} (step : State → α → State) : List α → State → List (State × α)
  | [], _ => []
  | a :: rest, s => (s, a) :: history step rest (step s a)

/-- The state after a visit. -/
def visited (s : State) (slot : Slot) : State := (s.visit slot).1

/-- The visits that at most so many passes make. -/
def visits : Nat → State → List (State × Slot)
  | 0, _ => []
  | budget + 1, s =>
    if s.pending.isEmpty then []
    else
      let (t, changed) := s.pass
      history visited s.pending s ++
        if !changed && t.stuckExtents.isEmpty then []
        else visits budget (if changed then t else t.releaseExtents)

/-- The state after the first passes. -/
def passed (budget : Nat) (s : State) : State := (passes budget s).1

/-- The state before what is left over is closed out: where cycles were broken, after further
    passes. -/
def tried (budget : Nat) (s : State) : State :=
  let (t, broken) := (s.passed budget).breakCycles
  if broken then t.passed budget else t

/-- The visits that the passes of a run make. -/
def visitsOf (budget : Nat) (s : State) : List (State × Slot) :=
  let (t, broken) := (s.passed budget).breakCycles
  visits budget s ++ if broken then visits budget t else []

/-- What a run records of slots: values or placeholders at visits, placeholders of slots on cycles
    before any of them is recorded, and placeholders of what is left over. -/
def recordings (budget : Nat) (s : State) : List (State × Slot) :=
  (visitsOf budget s).filter (fun e => (e.1.visit e.2).2)
    ++ (s.passed budget).cycleMembers.map (fun slot => (s.passed budget, slot))
    ++ history (closeSlot budget) (s.tried budget).pending (s.tried budget)

theorem run_eq (budget : Nat) (s : State) :
    (s.run budget).1 = (s.tried budget).pending.foldl (closeSlot budget) (s.tried budget) := by
  rw [run, tried, passed]
  dsimp only
  split
  · rfl
  · rfl

/-! ### Values -/

theorem value?_settle (waits : s.IsPending slot) (plain : slot.isExtent = false) (v : Value) :
    (s.settle slot v).value? slot = some v := by
  have there := (isPending_iff.1 waits).1
  cases slot with
  | extent => exact absurd plain (by simp [Slot.isExtent])
  | _ => exact value?_setValue there

theorem value?_fail (waits : s.IsPending slot) (plain : slot.isExtent = false) (message : String) :
    (s.fail slot message).value? slot = some (s.placeholderOf slot) := by
  have there := (isPending_iff.1 waits).1
  cases slot with
  | extent => exact absurd plain (by simp [Slot.isExtent])
  | _ => exact value?_setValue there

/-- A visit records the placeholder of the state in which it is made, which is the value if there is
    one. -/
theorem value?_visit (waits : s.IsPending slot) (plain : slot.isExtent = false)
    (led : (s.visit slot).2 = true) :
    (s.visit slot).1.value? slot = some (s.placeholderOf slot) := by
  have there := waits
  obtain ⟨c, found, -⟩ := there
  have lenient : s.placeholderOf slot =
      c.source.evalLenient (s.scope c.module) c.instanceOf.bindings := by
    rw [placeholderOf, found]
  rw [visit, found] at led ⊢
  dsimp only at led ⊢
  split at led
  · next v value =>
    rw [value?_settle waits plain, lenient, Source.evalLenient_of_eval value]
  · exact absurd led (by simp)
  · exact value?_fail waits plain _

theorem Staged.grows_visited (h : s.Staged) (waits : s.IsPending slot) :
    s.Grows (s.visited slot) := by
  rcases h.visit waits with ⟨moves, -⟩ | ⟨same, -⟩
  · exact moves.grows
  · rw [visited, same]
    exact .refl s

/-! ### Lists of pending slots -/

section Fold

variable {α : Type} {step : State → α → State} {slotOf : α → Slot} {l : List α}

/-- What it comes to that pending slots are stepped through, each by a move or with nothing to
    show. -/
structure Folds (step : State → α → State) (slotOf : α → Slot) (l : List α) (s t : State) :
    Prop where
  staged : t.Staged
  grows : s.Grows t
  values : ∀ other, other ∉ l.map slotOf → t.value? other = s.value? other
  entries : ∀ e ∈ history step l s, e.1.Staged ∧ e.1.IsPending (slotOf e.2) ∧ s.Grows e.1 ∧
    (step e.1 e.2).Grows t
  /-- A slot has in the end what its own step has left. -/
  origin : ∀ a ∈ l, ∃ u, (u, a) ∈ history step l s ∧
    t.value? (slotOf a) = (step u a).value? (slotOf a)

theorem Staged.folds (h : s.Staged) (nodup : (l.map slotOf).Nodup)
    (waits : ∀ a ∈ l, s.IsPending (slotOf a))
    (each : ∀ t a, t.Staged → t.IsPending (slotOf a) →
      Moves t (slotOf a) (step t a) ∨ step t a = t) :
    Folds step slotOf l s (l.foldl step s) := by
  induction l generalizing s with
  | nil => exact ⟨h, .refl s, fun _ _ => rfl, fun _ e => absurd e List.not_mem_nil,
      fun _ e => absurd e List.not_mem_nil⟩
  | cons a rest ih =>
    obtain ⟨first, waits⟩ := List.forall_mem_cons.1 waits
    rw [List.map_cons, List.nodup_cons] at nodup
    have ne : ∀ b ∈ rest, slotOf b ≠ slotOf a := fun b hb e =>
      nodup.1 (e ▸ List.mem_map_of_mem hb)
    -- The first step keeps the slots of the rest pending, whether it moves or not.
    have here : (step s a).Staged ∧ s.Grows (step s a) ∧
        (∀ other, other ≠ slotOf a → (step s a).value? other = s.value? other) ∧
        ∀ b ∈ rest, (step s a).IsPending (slotOf b) := by
      rcases each s a h first with moves | same
      · exact ⟨moves.staged, moves.grows, moves.values, fun b hb =>
          (waits b hb).moves moves (ne b hb)⟩
      · rw [same]
        exact ⟨h, .refl s, fun _ _ => rfl, waits⟩
    obtain ⟨staged, grows, values, waits⟩ := here
    have later := ih staged nodup.2 waits
    refine ⟨later.staged, grows.trans later.grows, fun other fresh => ?_, ?_, ?_⟩
    · rw [List.map_cons, List.mem_cons, not_or] at fresh
      exact (later.values other fresh.2).trans (values other fresh.1)
    · rw [history]
      refine List.forall_mem_cons.2 ⟨⟨h, first, .refl s, later.grows⟩, fun e he => ?_⟩
      obtain ⟨staged, waits, since, until_⟩ := later.entries e he
      exact ⟨staged, waits, grows.trans since, until_⟩
    · rw [history]
      refine List.forall_mem_cons.2 ⟨⟨s, List.mem_cons_self, later.values _ nodup.1⟩,
        fun b hb => ?_⟩
      obtain ⟨u, inside, same⟩ := later.origin b hb
      exact ⟨u, List.mem_cons_of_mem _ inside, same⟩

end Fold

/-! ### Passes -/

/-- What visits lead to. -/
structure Visits (log : List (State × Slot)) (s t : State) : Prop where
  staged : t.Staged
  grows : s.Grows t
  entries : ∀ e ∈ log, e.1.Staged ∧ e.1.IsPending e.2 ∧ s.Grows e.1 ∧ (visited e.1 e.2).Grows t
  origin : ∀ slot v, slot.isExtent = false → t.value? slot = some v → s.value? slot = some v ∨
    ∃ u, (u, slot) ∈ log ∧ (u.visit slot).2 = true ∧ u.placeholderOf slot = v

theorem Visits.none (h : s.Staged) : Visits [] s s :=
  ⟨h, .refl s, fun _ e => absurd e List.not_mem_nil, fun _ _ _ known => .inl known⟩

theorem Visits.append {log log' : List (State × Slot)} (h : Visits log s t)
    (h' : Visits log' t u) : Visits (log ++ log') s u where
  staged := h'.staged
  grows := h.grows.trans h'.grows
  entries e he := by
    rcases List.mem_append.1 he with he | he
    · obtain ⟨staged, waits, since, until_⟩ := h.entries e he
      exact ⟨staged, waits, since, until_.trans h'.grows⟩
    · obtain ⟨staged, waits, since, until_⟩ := h'.entries e he
      exact ⟨staged, waits, h.grows.trans since, until_⟩
  origin slot v plain known := by
    rcases h'.origin slot v plain known with before | ⟨w, inside, led, found⟩
    · rcases h.origin slot v plain before with before | ⟨w, inside, led, found⟩
      · exact .inl before
      · exact .inr ⟨w, List.mem_append_left _ inside, led, found⟩
    · exact .inr ⟨w, List.mem_append_right _ inside, led, found⟩

theorem visitAll_eq (slots : List Slot) (s : State) :
    (visitAll slots s).1 = slots.foldl visited s := by
  induction slots generalizing s with
  | nil => rfl
  | cons slot rest ih => exact ih _

theorem Staged.pass (h : s.Staged) : Visits (history visited s.pending s) s s.pass.1 := by
  have folds : Folds visited id s.pending s s.pass.1 := by
    rw [State.pass, visitAll_eq]
    refine h.folds (by simpa using nodup_pending h.sorted)
      (fun slot inside => (mem_pending h.sorted).1 inside) fun t slot h waits => ?_
    rcases h.visit waits with ⟨moves, -⟩ | ⟨same, -⟩
    · exact .inl moves
    · exact .inr (congrArg (·.1) same)
  refine ⟨folds.staged, folds.grows, folds.entries, fun slot v plain known => ?_⟩
  by_cases inside : slot ∈ s.pending
  · obtain ⟨u, logged, same⟩ := folds.origin slot inside
    obtain ⟨staged, waits, -⟩ : u.Staged ∧ u.IsPending slot ∧ _ := folds.entries _ logged
    have recorded : (u.visit slot).1.value? slot = some v := same.symm.trans known
    rcases Bool.eq_false_or_eq_true (u.visit slot).2 with led | idle
    · rw [value?_visit waits plain led] at recorded
      exact .inr ⟨u, logged, led, Option.some.inj recorded⟩
    · -- An idle visit leaves the slot pending.
      rcases staged.visit waits with ⟨-, led⟩ | ⟨unchanged, -⟩
      · exact absurd (led.symm.trans idle) (by simp)
      · rw [unchanged, (isPending_iff.1 waits).2] at recorded
        exact absurd recorded (by simp)
  · exact .inl ((folds.values slot (by simpa using inside)).symm.trans known)

theorem mem_stuckExtents : slot ∈ s.stuckExtents ↔ slot ∈ s.pending ∧ slot.isExtent = true := by
  rw [stuckExtents, List.mem_filter]

theorem Staged.releaseExtents (h : s.Staged) : Visits [] s s.releaseExtents := by
  have folds : Folds (fun s slot => s.fail slot "cardinality depends on unresolved values") id
      s.stuckExtents s s.releaseExtents := by
    refine h.folds ?_ (fun slot inside => ?_) fun t slot h waits => .inl (h.fail waits _)
    · rw [List.map_id]
      exact (nodup_pending h.sorted).filter _
    · exact (mem_pending h.sorted).1 (mem_stuckExtents.1 inside).1
  refine ⟨folds.staged, folds.grows, fun _ e => absurd e List.not_mem_nil,
    fun slot v plain known => .inl ?_⟩
  refine (folds.values slot fun inside => ?_).symm.trans known
  rw [List.map_id] at inside
  exact absurd ((mem_stuckExtents.1 inside).2.symm.trans plain) (by simp)

theorem Staged.passes (h : s.Staged) (budget : Nat) : Visits (visits budget s) s (s.passed budget)
    := by
  rw [passed]
  induction budget generalizing s with
  | zero => exact .none h
  | succ budget ih =>
    have first := h.pass
    rw [visits, State.passes]
    dsimp only
    split
    · exact .none h
    · split
      · -- No progress, and nothing to give up.
        rw [List.append_nil]
        exact first
      · refine first.append ?_
        split
        · exact ih first.staged
        · exact (first.staged.releaseExtents.append (ih first.staged.releaseExtents.staged))

/-! ### Cycles and leftovers -/

theorem mem_cycleMembers (h : slot ∈ s.cycleMembers) : slot ∈ s.pending :=
  (List.mem_filter.1 h).1

/-- Breaking cycles records the placeholders that the slots on them have before. -/
theorem Staged.breakCycles (h : s.Staged) : s.breakCycles.1.Staged ∧ s.Grows s.breakCycles.1 ∧
    ∀ slot v, slot.isExtent = false → s.breakCycles.1.value? slot = some v →
      s.value? slot = some v ∨ slot ∈ s.cycleMembers ∧ s.placeholderOf slot = v := by
  have slots : (s.cycleMembers.map fun slot => (slot, s.placeholderOf slot)).map (·.1) =
      s.cycleMembers := by
    rw [List.map_map]
    exact List.map_id _
  have folds : Folds (fun s (e : Slot × Value) => (s.report .referenceCycle e.1.resource?
      (e.1.text ++ " is part of a reference cycle")).settle e.1 e.2) (·.1)
      (s.cycleMembers.map fun slot => (slot, s.placeholderOf slot)) s s.breakCycles.1 := by
    refine h.folds ?_ (fun e inside => ?_) fun t e h waits =>
      .inl (.of_report ((h.report _ _ _).settle waits e.2))
    · -- Members are pending slots, each once.
      rw [slots]
      exact (nodup_pending h.sorted).filter _
    · obtain ⟨slot, member, rfl⟩ := List.mem_map.1 inside
      exact (mem_pending h.sorted).1 (mem_cycleMembers member)
  refine ⟨folds.staged, folds.grows, fun slot v plain known => ?_⟩
  by_cases member : slot ∈ s.cycleMembers
  · obtain ⟨u, logged, same⟩ := folds.origin (slot, s.placeholderOf slot)
      (List.mem_map_of_mem (f := fun slot => (slot, s.placeholderOf slot)) member)
    have waits : u.IsPending slot := (folds.entries _ logged).2.1
    have recorded := value?_settle (s := u.report .referenceCycle slot.resource?
      (slot.text ++ " is part of a reference cycle")) waits plain (s.placeholderOf slot)
    exact .inr ⟨member, Option.some.inj (recorded.symm.trans (same.symm.trans known))⟩
  · exact .inl ((folds.values slot (by rwa [slots])).symm.trans known)

theorem value?_closeSlot (waits : s.IsPending slot) (plain : slot.isExtent = false)
    (budget : Nat) : (s.closeSlot budget slot).value? slot = some (s.placeholderOf slot) :=
  value?_settle (s := s.report .unresolved slot.resource? _) waits plain _

theorem Staged.closings (h : s.Staged) (budget : Nat) :
    Folds (closeSlot budget) id s.pending s (s.pending.foldl (closeSlot budget) s) := by
  refine h.folds (by simpa using nodup_pending h.sorted)
    (fun slot inside => (mem_pending h.sorted).1 inside) fun t slot h waits => ?_
  exact .inl (.of_report ((h.report _ _ _).settle waits _))

/-! ### Runs -/

/-- What a run comes to, by its log. -/
structure Ran (budget : Nat) (s t : State) : Prop where
  staged : t.Staged
  grows : s.Grows t
  visits : ∀ e ∈ s.visitsOf budget, e.1.Staged ∧ e.1.IsPending e.2 ∧ s.Grows e.1 ∧
    (visited e.1 e.2).Grows t
  recordings : ∀ e ∈ s.recordings budget, e.1.Staged ∧ e.1.IsPending e.2 ∧ s.Grows e.1 ∧
    e.1.Grows t
  origin : ∀ slot v, slot.isExtent = false → t.value? slot = some v → s.value? slot = some v ∨
    ∃ u, (u, slot) ∈ s.recordings budget ∧ u.placeholderOf slot = v

/-- The passes after cycles were broken, if there were any. -/
theorem Staged.tried (h : s.Staged) (budget : Nat) :
    Visits (if (s.passed budget).breakCycles.2 then visits budget (s.passed budget).breakCycles.1
      else []) (s.passed budget).breakCycles.1 (s.tried budget) := by
  have broken := (h.passes budget).staged.breakCycles.1
  rw [State.tried]
  dsimp only
  split
  · exact broken.passes budget
  · exact .none broken

theorem Staged.run (h : s.Staged) (budget : Nat) : Ran budget s (s.run budget).1 := by
  have first := h.passes budget
  obtain ⟨-, breaking, cycles⟩ := first.staged.breakCycles
  have second := h.tried budget
  have closing := second.staged.closings budget
  rw [← run_eq] at closing
  have sinceBroken := second.grows.trans closing.grows
  have visits : ∀ e ∈ s.visitsOf budget, e.1.Staged ∧ e.1.IsPending e.2 ∧ s.Grows e.1 ∧
      (visited e.1 e.2).Grows (s.run budget).1 := by
    intro e he
    rcases List.mem_append.1 he with he | he
    · obtain ⟨staged, waits, since, until_⟩ := first.entries e he
      exact ⟨staged, waits, since, until_.trans (breaking.trans sinceBroken)⟩
    · obtain ⟨staged, waits, since, until_⟩ := second.entries e he
      exact ⟨staged, waits, first.grows.trans (breaking.trans since), until_.trans closing.grows⟩
  refine ⟨closing.staged, first.grows.trans (breaking.trans sinceBroken), visits, fun e he => ?_,
    fun slot v plain known => ?_⟩
  · rcases List.mem_append.1 he with he | he
    · rcases List.mem_append.1 he with he | he
      · obtain ⟨staged, waits, since, until_⟩ := visits e (List.mem_filter.1 he).1
        exact ⟨staged, waits, since, (staged.grows_visited waits).trans until_⟩
      · obtain ⟨slot, member, rfl⟩ := List.mem_map.1 he
        exact ⟨first.staged, (mem_pending first.staged.sorted).1 (mem_cycleMembers member),
          first.grows, breaking.trans sinceBroken⟩
    · obtain ⟨staged, waits, since, until_⟩ := closing.entries e he
      refine ⟨staged, waits, first.grows.trans (breaking.trans (second.grows.trans since)),
        .trans ?_ until_⟩
      exact (grows_report _ _ _ _).trans ((staged.report _ _ _).settle waits _).grows
  · -- From the last part of the run to the first: what was not recorded there was known before.
    have ofVisit : ∀ u, (u, slot) ∈ s.visitsOf budget → (u.visit slot).2 = true →
        (u, slot) ∈ s.recordings budget := fun u logged led =>
      List.mem_append_left _ (List.mem_append_left _ (List.mem_filter.2 ⟨logged, led⟩))
    by_cases left : slot ∈ (s.tried budget).pending
    · obtain ⟨u, logged, same⟩ := closing.origin slot left
      have waits : u.IsPending slot := (closing.entries _ logged).2.1
      have closed := (value?_closeSlot waits plain budget).symm.trans (same.symm.trans known)
      exact .inr ⟨u, List.mem_append_right _ logged, Option.some.inj closed⟩
    · have known := (closing.values slot (by simpa using left)).symm.trans known
      rcases second.origin slot v plain known with known | ⟨u, logged, led, found⟩
      · rcases cycles slot v plain known with known | ⟨member, found⟩
        · rcases first.origin slot v plain known with known | ⟨u, logged, led, found⟩
          · exact .inl known
          · exact .inr ⟨u, ofVisit u (List.mem_append_left _ logged) led, found⟩
        · refine .inr ⟨s.passed budget, ?_, found⟩
          exact List.mem_append_left _ (List.mem_append_right _ (List.mem_map_of_mem member))
      · exact .inr ⟨u, ofVisit u (List.mem_append_right _ logged) led, found⟩

end Cartograph.Resolution.State

import Mathlib.Data.List.Perm.Subperm
import Mathlib.Data.Prod.Lex
import Mathlib.Order.WellFounded
import Cartograph.Proofs.Resolution.Course

/-!
# Coming to rest

Passes stop on their own when nothing is pending any more, or when a pass leads to nothing and no
number of instances is left to be given up (`State.AtRest`). For every plan there are budgets that
are large enough for that (`State.Staged.tried_rests`): a value for a number of instances leaves
fewer numbers pending, though it may bring new attributes along, and any other value leaves fewer
slots pending. So each pass that leads to something lowers the rank of the state (`State.rank`), the
number of pending numbers first.
-/

namespace Cartograph.Resolution.State

variable {s t u : State} {slot other : Slot} {slots : List Slot}

/-- A further pass finds nothing to do. -/
def AtRest (s : State) : Prop :=
  s.pending = [] ∨ s.pass.2 = false ∧ s.stuckExtents = []

theorem AtRest.stuckExtents (h : s.AtRest) : s.stuckExtents = [] := by
  rcases h with none | ⟨-, none⟩
  · rw [State.stuckExtents, none]
    rfl
  · exact none

/-- How many numbers of instances are pending, and how many slots. -/
def rank (s : State) : ℕ ×ₗ ℕ := toLex (s.stuckExtents.length, s.pending.length)

/-! ### Steps -/

theorem length_lt_of_erase {l l' : List Slot} (nodup : l'.Nodup) (inside : slot ∈ l)
    (fewer : ∀ other ∈ l', other ∈ l ∧ other ≠ slot) : l'.length < l.length := by
  have sub : l' ⊆ l.erase slot := fun other h =>
    (List.mem_erase_of_ne (fewer other h).2).2 (fewer other h).1
  have le := (List.subperm_of_subset nodup sub).length_le
  have shorter := List.length_erase_of_mem inside
  have some := List.length_pos_of_mem inside
  omega

/-- A slot that gets a value lowers the rank. -/
theorem Staged.rank_lt (h : s.Staged) (waits : s.IsPending slot) (moves : Moves s slot t) :
    t.rank < s.rank := by
  have inside := (mem_pending h.sorted).2 waits
  have nodup := nodup_pending moves.staged.sorted
  have before : ∀ other ∈ t.stuckExtents, other ∈ s.stuckExtents ∧ other ≠ slot := by
    intro other later
    obtain ⟨later, extent⟩ := mem_stuckExtents.1 later
    rcases moves.pending other ((mem_pending moves.staged.sorted).1 later) with
      ⟨ne, waits⟩ | ⟨id, i, name, -, rfl⟩
    · exact ⟨mem_stuckExtents.2 ⟨(mem_pending h.sorted).2 waits, extent⟩, ne⟩
    · exact absurd extent (by simp [Slot.isExtent])
  have fewer := (List.subperm_of_subset (nodup.filter _) fun _ h => (before _ h).1).length_le
  rw [rank, rank, Prod.Lex.toLex_lt_toLex]
  -- New slots come only with the number of a resource's instances, which counts first.
  rcases Bool.eq_false_or_eq_true slot.isExtent with extent | plain
  · exact .inl (length_lt_of_erase (nodup.filter _) (mem_stuckExtents.2 ⟨inside, extent⟩) before)
  · rcases Nat.lt_or_eq_of_le fewer with less | same
    · exact .inl less
    · refine .inr ⟨same, length_lt_of_erase nodup inside fun other later => ?_⟩
      rcases moves.pending other ((mem_pending moves.staged.sorted).1 later) with
        ⟨ne, waits⟩ | ⟨id, i, name, rfl, -⟩
      · exact ⟨(mem_pending h.sorted).2 waits, ne⟩
      · exact absurd plain (by simp [Slot.isExtent])

/-- Visits that lead to something lower the rank, and others change nothing. -/
theorem Staged.visitAll (h : s.Staged) (nodup : slots.Nodup) (waits : ∀ x ∈ slots, s.IsPending x) :
    (visitAll slots s).2 = true ∧ (visitAll slots s).1.rank < s.rank ∨
      visitAll slots s = (s, false) := by
  induction slots generalizing s with
  | nil => exact .inr rfl
  | cons slot rest ih =>
    obtain ⟨fresh, nodup⟩ := List.nodup_cons.1 nodup
    obtain ⟨first, waits⟩ := List.forall_mem_cons.1 waits
    rw [State.visitAll]
    dsimp only
    rcases h.visit first with ⟨moves, led⟩ | ⟨idle, -⟩
    · have less := h.rank_lt first moves
      rw [led]
      refine .inl ⟨rfl, ?_⟩
      rcases ih moves.staged nodup fun x hx => (waits x hx).moves moves fun e => fresh (e ▸ hx) with
        ⟨-, later⟩ | same
      · exact later.trans less
      · rw [same]
        exact less
    · rw [idle]
      exact ih h nodup waits

theorem Staged.pass_cases (h : s.Staged) :
    s.pass.2 = true ∧ s.pass.1.rank < s.rank ∨ s.pass = (s, false) :=
  h.visitAll (nodup_pending h.sorted) fun _ => (mem_pending h.sorted).1

/-- Giving up on numbers of instances lowers the rank, if there are any. -/
theorem Staged.rank_releaseExtents (h : s.Staged) (stuck : s.stuckExtents ≠ []) :
    s.releaseExtents.rank < s.rank := by
  have loop : ∀ (slots : List Slot) (s : State), s.Staged → slots.Nodup →
      (∀ x ∈ slots, s.IsPending x) → slots ≠ [] →
      (slots.foldl (fun s x => s.fail x "cardinality depends on unresolved values") s).rank <
        s.rank := by
    intro slots
    induction slots with
    | nil => exact fun _ _ _ _ some => absurd rfl some
    | cons slot rest ih =>
      intro s h nodup waits _
      obtain ⟨fresh, nodup⟩ := List.nodup_cons.1 nodup
      obtain ⟨first, waits⟩ := List.forall_mem_cons.1 waits
      have moves := h.fail first "cardinality depends on unresolved values"
      have less := h.rank_lt first moves
      by_cases last : rest = []
      · rw [last]
        exact less
      · have waits := fun x hx => (waits x hx).moves moves fun e => fresh (e ▸ hx)
        exact (ih _ moves.staged nodup waits last).trans less
  refine loop _ s h ((nodup_pending h.sorted).filter _) (fun x hx => ?_) stuck
  exact (mem_pending h.sorted).1 (mem_stuckExtents.1 hx).1

/-! ### Passes -/

/-- The state that the next pass begins with. -/
def next (s : State) : State := if s.pass.2 then s.pass.1 else s.pass.1.releaseExtents

theorem passed_succ (waiting : ¬s.pending.isEmpty = true) (budget : Nat) :
    s.passed (budget + 1) = if !s.pass.2 && s.pass.1.stuckExtents.isEmpty then s.pass.1
      else s.next.passed budget := by
  rw [passed, State.passes, if_neg waiting]
  dsimp only
  split
  · rfl
  · rfl

theorem Staged.next (h : s.Staged) (go : ¬(!s.pass.2 && s.pass.1.stuckExtents.isEmpty) = true) :
    s.next.Staged ∧ s.next.rank < s.rank := by
  rw [State.next]
  rcases h.pass_cases with ⟨led, less⟩ | idle
  · rw [if_pos led]
    exact ⟨h.pass.staged, less⟩
  · rw [idle] at go ⊢
    refine ⟨h.releaseExtents.staged, h.rank_releaseExtents fun none => go ?_⟩
    simp [none]

/-- With a budget that is large enough passes stop on their own, and a larger one changes
    nothing. -/
theorem Staged.passes_rest (h : s.Staged) :
    ∃ enough, ∀ budget, enough ≤ budget → s.passed budget = s.passed enough ∧
      (s.passed enough).AtRest := by
  -- The state that the next pass begins with is of lower rank.
  induction rank_eq : s.rank using WellFoundedLT.induction generalizing s with
  | ind r ih =>
    subst rank_eq
    by_cases done : s.pending.isEmpty = true
    · have stays : ∀ budget, s.passed budget = s := by
        intro budget
        cases budget with
        | zero => rfl
        | succ budget => rw [passed, State.passes, if_pos done]
      refine ⟨0, fun budget _ => ⟨(stays budget).trans (stays 0).symm, ?_⟩⟩
      exact stays 0 ▸ .inl (List.isEmpty_iff.1 done)
    · have succ := passed_succ done
      by_cases stop : (!s.pass.2 && s.pass.1.stuckExtents.isEmpty) = true
      · -- The pass has led to nothing, so a further one leads to nothing either.
        simp only [if_pos stop] at succ
        have idle : s.pass = (s, false) := by
          rcases h.pass_cases with ⟨led, -⟩ | idle
          · rw [led] at stop
            exact absurd stop (by simp)
          · exact idle
        have rest : s.AtRest := by
          rw [idle] at stop
          exact .inr ⟨by rw [idle], by simpa using stop⟩
        refine ⟨1, fun budget le => ?_⟩
        obtain ⟨more, rfl⟩ := Nat.exists_eq_add_of_le' le
        rw [succ more, succ 0, idle]
        exact ⟨rfl, rest⟩
      · simp only [if_neg stop] at succ
        obtain ⟨staged, less⟩ := h.next stop
        obtain ⟨enough, later⟩ := ih _ less staged rfl
        refine ⟨enough + 1, fun budget le => ?_⟩
        obtain ⟨more, rfl⟩ := Nat.exists_eq_add_of_le' (Nat.le_of_add_left_le le)
        rw [succ more, succ enough]
        exact later more (by omega)

/-- With a budget that is large enough, the passes before leftovers are closed out stop on their
    own. -/
theorem Staged.tried_rests (h : s.Staged) :
    ∃ enough, ∀ budget, enough ≤ budget → (s.tried budget).AtRest := by
  obtain ⟨enough, first⟩ := h.passes_rest
  have rest := (first enough (Nat.le_refl _)).2
  obtain ⟨broken, -, -⟩ := (h.passes enough).staged.breakCycles
  obtain ⟨enough', second⟩ := broken.passes_rest
  refine ⟨max enough enough', fun budget le => ?_⟩
  rw [State.tried, (first budget (by omega)).1]
  dsimp only
  split
  · rw [(second budget (by omega)).1]
    exact (second budget (by omega)).2
  · next unbroken =>
    -- Without cycles nothing has changed.
    have none : (s.passed enough).cycleMembers = [] := by
      simpa [State.breakCycles] using unbroken
    have same : (s.passed enough).breakCycles.1 = s.passed enough := by
      rw [State.breakCycles, none]
      rfl
    rw [same]
    exact rest

end Cartograph.Resolution.State

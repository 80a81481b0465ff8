import Cartograph.Proofs.Resolution.Run

/-!
# States that are alike

Two states of a resolution are *alike* (`State.Alike`) if they differ in the order of the paths of
modules and in the order of what was found only. Names stand for the same in both
(`State.Alike.scope`). So whatever is done in the one is done in the other, up to the order of
findings, and the whole runs are alike again, with the same number of passes (`State.Alike.run`).
-/

namespace Cartograph

/-- A loop over one list, each turn of which keeps a relation. -/
theorem foldl_respects {σ α : Type} {R : σ → σ → Prop} {step : σ → α → σ} {l : List α} {s t : σ}
    (respects : ∀ s t x, R s t → R (step s x) (step t x)) (h : R s t) :
    R (l.foldl step s) (l.foldl step t) := by
  induction l generalizing s t with
  | nil => exact h
  | cons x rest ih => exact ih (respects s t x h)

namespace Resolution.State

open Expression

/-- States that differ in the order of modules and findings only. -/
structure Alike (s t : State) : Prop where
  modules : ∀ path, path ∈ s.modules ↔ path ∈ t.modules
  declared : s.declared = t.declared
  data : s.data = t.data
  cells : s.cells = t.cells
  diagnostics : s.diagnostics.Perm t.diagnostics

namespace Alike

variable {s t u : State}

theorem refl (s : State) : Alike s s := ⟨fun _ => .rfl, rfl, rfl, rfl, .refl _⟩

theorem symm (h : Alike s t) : Alike t s :=
  ⟨fun path => (h.modules path).symm, h.declared.symm, h.data.symm, h.cells.symm,
    h.diagnostics.symm⟩

theorem trans (h : Alike s t) (h' : Alike t u) : Alike s u :=
  ⟨fun path => (h.modules path).trans (h'.modules path), h.declared.trans h'.declared,
    h.data.trans h'.data, h.cells.trans h'.cells, h.diagnostics.trans h'.diagnostics⟩

theorem foldl {α : Type} {step : State → α → State} (h : Alike s t)
    (each : ∀ s t x, Alike s t → Alike (step s x) (step t x)) (members : List α) :
    Alike (members.foldl step s) (members.foldl step t) := foldl_respects each h

/-! ### What names stand for -/

theorem moduleAnswer (h : Alike s t) (module : String) (steps : List Step) :
    s.moduleAnswer module steps = t.moduleAnswer module steps := by
  obtain ⟨modules, declared, data, cells, diagnostics⟩ := s
  obtain ⟨modules', declared', data', cells', diagnostics'⟩ := t
  obtain ⟨same, rfl, rfl, rfl, -⟩ := h
  have contains (path : String) : modules.contains path = modules'.contains path := by
    rw [Bool.eq_iff_iff, List.contains_iff_mem, List.contains_iff_mem]
    exact same path
  unfold State.moduleAnswer
  simp only [contains]
  rfl

theorem scope (h : Alike s t) : s.scope = t.scope := by
  have module := h.moduleAnswer
  obtain ⟨modules, declared, data, cells, diagnostics⟩ := s
  obtain ⟨modules', declared', data', cells', diagnostics'⟩ := t
  obtain ⟨-, rfl, rfl, rfl, -⟩ := h
  unfold State.scope
  simp only [module]
  rfl

theorem evaluate (h : Alike s t) (c : Cell) : s.evaluate c = t.evaluate c := by
  rw [State.evaluate, h.scope, State.evaluate]

theorem placeholderOf (h : Alike s t) (slot : Slot) :
    s.placeholderOf slot = t.placeholderOf slot := by
  rw [State.placeholderOf, h.cells, h.scope, State.placeholderOf]

theorem pending (h : Alike s t) : s.pending = t.pending := by
  rw [State.pending, h.cells, State.pending]

theorem stuckExtents (h : Alike s t) : s.stuckExtents = t.stuckExtents := by
  rw [State.stuckExtents, h.pending, State.stuckExtents]

theorem slotsOf (h : Alike s t) : s.slotsOf = t.slotsOf := by
  unfold State.slotsOf outputsOf
  rw [h.cells]

theorem waitsFor (h : Alike s t) : s.waitsFor = t.waitsFor := by
  unfold State.waitsFor
  rw [h.cells, h.slotsOf]

theorem cycleMembers (h : Alike s t) : s.cycleMembers = t.cycleMembers := by
  unfold State.cycleMembers
  rw [h.pending, h.waitsFor]

/-! ### Steps -/

theorem report (h : Alike s t) (kind : Diagnostic.Kind) (node : Option NodeId)
    (message : String) : Alike (s.report kind node message) (t.report kind node message) :=
  ⟨h.modules, h.declared, h.data, h.cells, h.diagnostics.append_right _⟩

theorem setValue (h : Alike s t) (slot : Slot) (v : Value) :
    Alike (s.setValue slot v) (t.setValue slot v) :=
  ⟨h.modules, h.declared, h.data, by rw [State.setValue, h.cells, State.setValue], h.diagnostics⟩

theorem addSlot (h : Alike s t) (slot : Slot) (module : String) (source : Source) (i : Instance) :
    Alike (s.addSlot slot module source i) (t.addSlot slot module source i) :=
  ⟨h.modules, h.declared, h.data, by rw [State.addSlot, h.cells, State.addSlot], h.diagnostics⟩

theorem setInstances (h : Alike s t) (id : NodeId) (instances : List Instance)
    (keys : List String) :
    Alike (s.setInstances id instances keys) (t.setInstances id instances keys) := by
  rw [State.setInstances, State.setInstances, h.declared]
  split
  · exact h
  · refine foldl ?_ (fun _ _ _ h => ?_) _
    · exact ⟨h.modules, rfl, h.data, h.cells, h.diagnostics⟩
    · refine h.foldl (fun _ _ _ h => ?_) _
      exact h.addSlot _ _ _ _

theorem assumeSingle (h : Alike s t) (id : NodeId) (message : String) :
    Alike (s.assumeSingle id message) (t.assumeSingle id message) := by
  rw [State.assumeSingle, State.assumeSingle, h.declared]
  split
  · exact h
  · exact ((h.report _ _ _).setInstances _ _ _).setValue _ _

theorem fail (h : Alike s t) (slot : Slot) (message : String) :
    Alike (s.fail slot message) (t.fail slot message) := by
  unfold State.fail
  split
  · exact h.assumeSingle _ _
  · rw [h.placeholderOf]
    exact (h.report _ _ _).setValue _ _

theorem settle (h : Alike s t) (slot : Slot) (v : Value) :
    Alike (s.settle slot v) (t.settle slot v) := by
  unfold State.settle
  split
  · rw [h.declared]
    split
    · exact h.setValue _ _
    · split
      · exact (h.setInstances _ _ _).setValue _ _
      · exact h.assumeSingle _ _
  · exact h.setValue _ _

theorem visit (h : Alike s t) (slot : Slot) :
    Alike (s.visit slot).1 (t.visit slot).1 ∧ (s.visit slot).2 = (t.visit slot).2 := by
  unfold State.visit
  rw [h.cells]
  split
  · exact ⟨h, rfl⟩
  · rw [h.evaluate]
    split
    · exact ⟨h.settle _ _, rfl⟩
    · exact ⟨h, rfl⟩
    · exact ⟨h.fail _ _, rfl⟩

theorem visitAll (h : Alike s t) (slots : List Slot) :
    Alike (visitAll slots s).1 (visitAll slots t).1 ∧
      (visitAll slots s).2 = (visitAll slots t).2 := by
  induction slots generalizing s t with
  | nil => exact ⟨h, rfl⟩
  | cons slot rest ih =>
    obtain ⟨visited, changed⟩ := h.visit slot
    obtain ⟨later, more⟩ := ih visited
    refine ⟨later, ?_⟩
    unfold State.visitAll
    dsimp only
    rw [changed, more]

theorem pass (h : Alike s t) : Alike s.pass.1 t.pass.1 ∧ s.pass.2 = t.pass.2 := by
  rw [State.pass, State.pass, h.pending]
  exact h.visitAll t.pending

theorem releaseExtents (h : Alike s t) : Alike s.releaseExtents t.releaseExtents := by
  rw [State.releaseExtents, State.releaseExtents, h.stuckExtents]
  exact h.foldl (fun _ _ slot h => h.fail slot _) _

theorem passes (h : Alike s t) (budget : Nat) :
    Alike (passes budget s).1 (passes budget t).1 ∧
      (passes budget s).2 = (passes budget t).2 := by
  induction budget generalizing s t with
  | zero => exact ⟨h, rfl⟩
  | succ budget ih =>
    obtain ⟨after, changed⟩ := h.pass
    have go : Alike (if s.pass.2 then s.pass.1 else s.pass.1.releaseExtents)
        (if t.pass.2 then t.pass.1 else t.pass.1.releaseExtents) := by
      rw [changed]
      split
      · exact after
      · exact after.releaseExtents
    obtain ⟨later, number⟩ := ih go
    unfold State.passes
    dsimp only
    rw [h.pending, after.stuckExtents, changed] at *
    split
    · exact ⟨h, rfl⟩
    · split
      · exact ⟨after, rfl⟩
      · exact ⟨later, congrArg (· + 1) number⟩

theorem breakCycles (h : Alike s t) :
    Alike s.breakCycles.1 t.breakCycles.1 ∧ s.breakCycles.2 = t.breakCycles.2 := by
  have members : (s.cycleMembers.map fun slot => (slot, s.placeholderOf slot)) =
      t.cycleMembers.map fun slot => (slot, t.placeholderOf slot) := by
    rw [h.cycleMembers]
    exact List.map_congr_left fun slot _ => by rw [h.placeholderOf]
  unfold State.breakCycles
  rw [members]
  refine ⟨h.foldl (fun _ _ _ h => ?_) _, rfl⟩
  exact (h.report _ _ _).settle _ _

theorem closeSlot (h : Alike s t) (budget : Nat) (slot : Slot) :
    Alike (s.closeSlot budget slot) (t.closeSlot budget slot) := by
  rw [State.closeSlot, State.closeSlot, h.placeholderOf]
  exact (h.report _ _ _).settle _ _

/-- Runs that begin alike end alike, after as many passes. -/
theorem run (h : Alike s t) (budget : Nat) :
    Alike (s.run budget).1 (t.run budget).1 ∧ (s.run budget).2 = (t.run budget).2 := by
  obtain ⟨settled, first⟩ := h.passes budget
  obtain ⟨uncut, broken⟩ := settled.breakCycles
  unfold State.run
  dsimp only
  rw [first, broken]
  split
  · obtain ⟨again, second⟩ := uncut.passes budget
    rw [again.pending, second]
    exact ⟨again.foldl (fun _ _ slot h => h.closeSlot budget slot) _, rfl⟩
  · rw [uncut.pending]
    exact ⟨uncut.foldl (fun _ _ slot h => h.closeSlot budget slot) _, rfl⟩

/-! ### Results -/

theorem finalAttributes (h : Alike s t) : s.finalAttributes = t.finalAttributes := by
  unfold State.finalAttributes finalValue
  rw [h.cells]

theorem resource? (h : Alike s t) : s.resource? = t.resource? := by
  unfold State.resource? referencesOf targetsOf
  rw [h.cells, h.declared, h.finalAttributes]

end Alike

end Resolution.State

end Cartograph

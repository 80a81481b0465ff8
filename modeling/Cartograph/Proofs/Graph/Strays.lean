import Cartograph.Arrangement.Step
import Cartograph.Proofs.Graph.Labels

/-!
# Nodes with labels for themselves

No node is its own child, so a label that a node has for itself is stray. Here these are the only
stray labels (`Graph.Straying`), and what has to be known is which nodes have them. For each mutator
but the two that put one node in the place of another, a lemma says which they are afterwards, and
so do loops of such steps (`Straying.eachSilent`, `Straying.eachSilent_gone`).
-/

namespace Cartograph.Graph

variable {g g' : Graph} {own own' : NodeId → Prop} {a b k n u v : NodeId} {m : NodeMeta}

/-- The given nodes have labels for themselves, and no other labels are stray. -/
structure Straying (g : Graph) (own : NodeId → Prop) : Prop where
  wellFormed : g.WellFormed
  only : ∀ a b, g.Stray a b → a = b
  self : ∀ n, (g.labelOf n n).isSome ↔ own n

namespace Straying

theorem of_iff (s : Straying g own) (same : ∀ n, own n ↔ own' n) : Straying g own' :=
  { s with self := fun n => (s.self n).trans (same n) }

theorem stray_iff (s : Straying g own) : g.Stray a b ↔ a = b ∧ own a := by
  constructor
  · intro stray
    have same := s.only a b stray
    exact ⟨same, (s.self a).1 (same ▸ stray.1)⟩
  · rintro ⟨rfl, has⟩
    exact ⟨(s.self a).2 has, s.wellFormed.noLoop a⟩

theorem labelClean_iff (s : Straying g own) : g.LabelClean ↔ ∀ n, ¬own n := by
  rw [labelClean_iff_not_stray]
  simp only [s.stray_iff]
  exact ⟨fun none n has => none n n ⟨rfl, has⟩, fun none a _ stray => none a stray.2⟩

/-- Only what is there has labels. -/
theorem contains (s : Straying g own) (has : own n) : g.contains n := by
  have labelled := (s.self n).2 has
  rw [s.wellFormed.contains_iff]
  cases found : g.meta? n with
  | none => simp [labelOf, found] at labelled
  | some m => rfl

/-- A graph without labels. -/
theorem of_unlabelled (wf : g.WellFormed) (none : ∀ n m, g.meta? n = some m → m.edgeLabels = []) :
    Straying g fun _ => False := by
  have free : ∀ a b, g.labelOf a b = Option.none := by
    intro a b
    cases found : g.meta? a with
    | none => rw [labelOf, found, Option.bind_none]
    | some m => rw [labelOf_eq found, none a m found, Keyed.find?]
  exact ⟨wf, fun a b stray => absurd stray.1 (by simp [free]), fun n => by simp [free]⟩

/-- A graph that differs neither in children nor in metadata. -/
theorem of_same (s : Straying g own) (wf : g'.WellFormed)
    (children : ∀ n, g'.children n = g.children n) (meta? : ∀ n, g'.meta? n = g.meta? n) :
    Straying g' own := by
  have labels : ∀ a b, g'.labelOf a b = g.labelOf a b := fun a b => by rw [labelOf, meta?, labelOf]
  refine ⟨wf, fun a b stray => s.only a b ?_, fun n => by rw [labels, s.self]⟩
  rwa [Stray, labels, Edge, children] at stray

/-! ### Mutators -/

theorem insertNode (s : Straying g own) (none : m.edgeLabels = []) :
    Straying (g.insertNode k m) fun n => own n ∧ n ≠ k where
  wellFormed := wellFormed_insertNode s.wellFormed
  only a b stray := s.only a b (stray.of_insertNode none)
  self n := by
    rw [labelOf_insertNode, none]
    by_cases here : k = n
    · simp [Keyed.find?, here]
    · simp [here, Ne.symm here, s.self]

/-- A node that is made has no label for itself yet. -/
theorem insertAbsent (s : Straying g own) (absent : ¬g.contains k) (none : m.edgeLabels = []) :
    Straying (g.insertNode k m) own :=
  (s.insertNode none).of_iff fun _ =>
    and_iff_left_of_imp fun has same => absent (same ▸ s.contains has)

theorem addEdge (s : Straying g own) : Straying (g.addEdge u v).1 own where
  wellFormed := wellFormed_addEdge s.wellFormed
  only a b stray := s.only a b stray.of_addEdge
  self n := by rw [labelOf_addEdge, s.self]

theorem removeEdge (s : Straying g own) : Straying (g.removeEdge u v).1 own where
  wellFormed := wellFormed_removeEdge s.wellFormed
  only a b stray := s.only a b stray.of_removeEdge
  self n := by
    have no : ¬(n = u ∧ n = v ∧ v ∈ g.children u) := by
      rintro ⟨rfl, rfl, loop⟩
      exact s.wellFormed.noLoop n loop
    rw [labelOf_removeEdge, if_neg no, s.self]

theorem removeNode (s : Straying g own) :
    Straying (g.removeNode k).1 fun n => own n ∧ n ≠ k where
  wellFormed := wellFormed_removeNode s.wellFormed
  only a b stray := s.only a b stray.of_removeNode
  self n := by
    rw [labelOf_removeNode]
    by_cases here : n = k
    · simp [here]
    · simp [here, s.self]

/-- Metadata that keep their labels and get none but for edges. -/
theorem modifyMeta {f : NodeMeta → NodeMeta} (s : Straying g own)
    (keeps : ∀ m b, b ∈ m.edgeLabels.map (·.1) → b ∈ (f m).edgeLabels.map (·.1))
    (edges : ∀ m b, b ∈ (f m).edgeLabels.map (·.1) → b ∈ m.edgeLabels.map (·.1) ∨ g.Edge u b) :
    Straying (g.modifyMeta u f) own := by
  -- Labels that were not there are for edges, so none of them is for the node itself.
  have labels : ∀ a b, ((g.modifyMeta u f).labelOf a b).isSome →
      (g.labelOf a b).isSome ∨ g.Edge a b := by
    intro a b labelled
    rw [labelOf, meta?_modifyMeta (s.wellFormed.sameNodes u)] at labelled
    split at labelled
    · next here =>
      subst here
      cases found : g.meta? u with
      | none => simp [found] at labelled
      | some m =>
        rw [found, Option.map_some, Option.bind_some, Keyed.find?_isSome_iff] at labelled
        rw [labelOf_eq found, Keyed.find?_isSome_iff]
        exact edges m b labelled
    · exact .inl labelled
  refine ⟨wellFormed_modifyMeta s.wellFormed, fun a b stray => ?_, fun n => ?_⟩
  · obtain ⟨labelled, no⟩ := stray
    rw [Edge, children_modifyMeta] at no
    exact s.only a b ⟨(labels a b labelled).resolve_right no, no⟩
  · rw [← s.self]
    refine ⟨fun labelled => (labels n n labelled).resolve_right (s.wellFormed.noLoop n),
      fun labelled => ?_⟩
    rw [labelOf, meta?_modifyMeta (s.wellFormed.sameNodes u)]
    split
    · cases found : g.meta? n with
      | none => simp [labelOf, found] at labelled
      | some m =>
        rw [labelOf_eq found, Keyed.find?_isSome_iff] at labelled
        rw [Option.map_some, Option.bind_some, Keyed.find?_isSome_iff]
        exact keeps m n labelled
    · exact labelled

/-! ### Loops -/

section Loops

variable {α : Type} {step : Graph → α → Graph} {l : List α}

theorem eachSilent (s : Straying g own)
    (each : ∀ g x, Straying g own → Straying (step g x) own) :
    Straying (Arrangement.eachSilent step l g) own :=
  List.foldlRecOn l step (motive := fun g => Straying g own) s fun g s x _ => each g x s

/-- Each step deals with one node, which has no label for itself then. -/
theorem eachSilent_gone {gone : α → NodeId} (s : Straying g own)
    (each : ∀ g own x, Straying g own → Straying (step g x) fun n => own n ∧ n ≠ gone x) :
    Straying (Arrangement.eachSilent step l g) fun n => own n ∧ n ∉ l.map gone := by
  induction l generalizing g own with
  | nil => exact s.of_iff fun n => by simp
  | cons x rest ih => exact (ih (each g own x s)).of_iff fun n => by simp [and_assoc]

end Loops

end Straying

end Cartograph.Graph

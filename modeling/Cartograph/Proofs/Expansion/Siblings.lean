import Cartograph.Proofs.Expansion.Edges

/-!
# What becomes of siblings

The siblings of a split *stand* for its node if it is gone and each of them has its own part of the
node's metadata (`Stands`). Other splits keep it so: they have other nodes and make siblings with
other names, and neither of these is the name of a node without number. A split that metadata ask
for is therefore refused with a finding, or its siblings stand for the node in the end
(`stands_expand`).
-/

namespace Cartograph.Expansion

open Graph Arrangement Rules

variable {p : Providers} {g h : Graph} {s s' : Split} {m : NodeMeta} {n : NodeId}
  {splits : List Split} {nodes : List NodeId} {found found' : List Diagnostic}

/-- The siblings of a split stand for its node, which had some metadata. -/
structure Stands (s : Split) (m : NodeMeta) (g : Graph) : Prop where
  gone : ¬g.contains s.node
  sibling : ∀ i < s.count,
    (g.meta? (s.sibling i)).map NodeMeta.unlabelled = some (siblingMeta s m i)

/-- Siblings get no labels. -/
theorem Stands.of_unlabelled {m' : NodeMeta} (stands : Stands s m' g)
    (same : m'.unlabelled = m.unlabelled) : Stands s m g := by
  refine ⟨stands.gone, fun i below => (stands.sibling i below).trans ?_⟩
  change some (siblingMeta s m'.unlabelled i) = some (siblingMeta s m.unlabelled i)
  rw [same]

theorem mem_of_isMade (yes : isMade g s) : s ∈ if isMade g s then [s] else [] := by
  rw [if_pos yes]
  exact List.mem_singleton_self s

theorem Replaces.stands (r : Replaces s m g h) (word : s.count < Nat.pow 2 64)
    (plain : NodeId.suffix? s.node = none) : Stands s m h where
  gone there := by
    rcases (r.contains s.node).1 there with inside | ⟨other, -⟩
    · exact not_mem_siblings word plain inside
    · exact other rfl
  sibling := r.sibling

section Stands

variable (stands : Stands s m g) (word : s.count < Nat.pow 2 64)
  (plain : NodeId.suffix? s.node = none)
include stands word plain

/-- Another split makes siblings with other names, and its node is not one of the siblings. -/
theorem Stands.split (wf : g.WellFormed) (sensible : Sensible g s')
    (plain' : NodeId.suffix? s'.node = none) (word' : isMade g s' → s'.count < Nat.pow 2 64) :
    Stands s m (split g s').1 := by
  rcases split_made wf sensible with ⟨made, m', found, r⟩ | ⟨-, same⟩
  · -- What is split is there, but the node is not there any more.
    have ne : s'.node ≠ s.node := fun e =>
      stands.gone (e ▸ wf.contains_iff.2 (by rw [found]; rfl))
    refine ⟨fun there => ?_, fun i below => ?_⟩
    · rcases (r.contains s.node).1 there with inside | ⟨-, there⟩
      · exact not_mem_siblings (word' made) plain inside
      · exact stands.gone there
    · have inside : s.sibling i ∈ s.siblings := Split.mem_siblings.2 ⟨i, below, rfl⟩
      rw [r.unlabelled (s.sibling i) ?_ ?_]
      · exact stands.sibling i below
      · exact fun e => not_mem_siblings word plain' (e ▸ inside)
      · intro again
        obtain ⟨j, -, e⟩ := Split.mem_siblings.1 again
        exact ne (NodeId.withSuffix_inj e).1
  · rw [same]
    exact stands

theorem Stands.each_split (wf : g.WellFormed) (sensible : ∀ s' ∈ splits, ∀ g, Sensible g s')
    (plains : ∀ s' ∈ splits, NodeId.suffix? s'.node = none)
    (words : ∀ s' ∈ made splits g, s'.count < Nat.pow 2 64) :
    Stands s m (each Expansion.split splits g).1 := by
  induction splits generalizing g with
  | nil => exact stands
  | cons s' rest ih =>
    rw [List.forall_mem_cons] at sensible plains
    rw [made, List.forall_mem_append] at words
    have here := stands.split word plain wf (sensible.1 g) plains.1 fun yes =>
      words.1 s' (mem_of_isMade yes)
    exact ih here (descends_split wf (sensible.1 g)).wellFormed sensible.2 plains.2 words.2

/-- Separating containers splits other nodes, or takes edges away. -/
theorem Stands.separate (wf : g.WellFormed)
    (words : ∀ s' ∈ madeFor p g n, s'.count < Nat.pow 2 64) :
    Stands s m (separate p g n).1 := by
  rcases separate_cases p wf n with ⟨-, same, -⟩ | ⟨s', some, same, rfl, sensible, plain', -⟩ |
    ⟨-, -, -, keep, -, same⟩
  · rw [same]
    exact stands
  · rw [same]
    rw [madeFor_some some] at words
    exact stands.split word plain wf sensible plain' fun yes => words s' (mem_of_isMade yes)
  · rw [same]
    refine ⟨fun there => stands.gone (contains_removeParents.1 there), fun i below => ?_⟩
    rw [unlabelled_removeParents]
    exact stands.sibling i below

theorem Stands.each_separate (wf : g.WellFormed)
    (words : ∀ s' ∈ madeBetween p nodes g, s'.count < Nat.pow 2 64) :
    Stands s m (each (Expansion.separate p) nodes g).1 := by
  induction nodes generalizing g with
  | nil => exact stands
  | cons n rest ih =>
    rw [madeBetween, List.forall_mem_append] at words
    have here := stands.separate word plain wf words.1
    exact ih here (leaves_separate p wf n).wellFormed words.2

end Stands

/-- The finding that a sibling's name is taken. -/
def Refused (s : Split) (found : List Diagnostic) : Prop := ∃ taken ∈ s.siblings,
  skipped (some s.node) ("cannot expand, '" ++ taken ++ "' already exists") ∈ found

theorem Refused.mono (r : Refused s found) (more : found ⊆ found') : Refused s found' := by
  obtain ⟨taken, sibling, reported⟩ := r
  exact ⟨taken, sibling, more reported⟩

theorem refused_of_not_made (there : g.meta? s.node = some m) (no : isMade g s = false) :
    Refused s (split g s).2 := by
  rw [isMade, there, Option.isSome_some, Bool.true_and, Option.isNone_eq_false_iff] at no
  obtain ⟨taken, first⟩ := Option.isSome_iff_exists.1 no
  refine ⟨taken, List.mem_of_find?_eq_some first, ?_⟩
  rw [split, there]
  dsimp only
  rw [first]
  exact List.mem_singleton_self _

/-- A split keeps what is known of other nodes. -/
theorem unlabelled_split (wf : g.WellFormed) (sensible : Sensible g s) (ne : n ≠ s.node)
    (plain : NodeId.suffix? n = none) (word : isMade g s → s.count < Nat.pow 2 64) :
    ((split g s).1.meta? n).map NodeMeta.unlabelled = (g.meta? n).map NodeMeta.unlabelled := by
  rcases split_made wf sensible with ⟨yes, m', -, r⟩ | ⟨-, same⟩
  · exact r.unlabelled n ne (not_mem_siblings (word yes) plain)
  · rw [same]

/-- A split among others, all of other nodes. -/
theorem stands_each (wf : g.WellFormed) (sensible : ∀ s' ∈ splits, ∀ g, Sensible g s')
    (plains : ∀ s' ∈ splits, NodeId.suffix? s'.node = none)
    (words : ∀ s' ∈ made splits g, s'.count < Nat.pow 2 64)
    (known : (g.meta? s.node).map NodeMeta.unlabelled = some m.unlabelled) (inside : s ∈ splits)
    (only : ∀ s' ∈ splits, s'.node = s.node → s' = s) :
    Refused s (each split splits g).2 ∨
      s.count < Nat.pow 2 64 ∧ Stands s m (each split splits g).1 := by
  induction splits generalizing g with
  | nil => exact absurd inside List.not_mem_nil
  | cons s' rest ih =>
    rw [List.forall_mem_cons] at sensible plains only
    rw [made, List.forall_mem_append] at words
    have word := fun yes : isMade g s' => words.1 s' (mem_of_isMade yes)
    have after := (descends_split wf (sensible.1 g)).wellFormed
    by_cases same : s'.node = s.node
    · -- It is made or refused here, and later splits are of other nodes.
      cases only.1 same
      obtain ⟨m', there, labels⟩ := Option.map_eq_some_iff.1 known
      rcases split_made wf (sensible.1 g) with ⟨yes, m'', there', r⟩ | ⟨no, -⟩
      · cases there.symm.trans there'
        have stands := (r.stands (word yes) plains.1).of_unlabelled labels
        exact .inr ⟨word yes,
          stands.each_split (word yes) plains.1 after sensible.2 plains.2 words.2⟩
      · exact .inl ((refused_of_not_made there no).mono (List.subset_append_left _ _))
    · have later : s ∈ rest := (List.mem_cons.1 inside).resolve_left fun e => same (by rw [e])
      have kept := unlabelled_split wf (sensible.1 g) (Ne.symm same) (plains.2 s later) word
      refine (ih after sensible.2 plains.2 words.2 (kept.trans known) later only.2).imp_left ?_
      exact fun refused => refused.mono (List.subset_append_right _ _)

/-- A split that metadata ask for is refused, or its siblings stand for the node in the end. -/
theorem stands_expand (wf : g.WellFormed) {node : NodeId} (found : g.meta? node = some m)
    (planned : plan? p node m = some s)
    (words : ∀ s' ∈ splitsMade p g, s'.count < Nat.pow 2 64) :
    Refused s (expand p g).2 ∨ Stands s m (expand p g).1 := by
  obtain ⟨rfl, plain⟩ := suffix?_of_plan planned
  have inside : s ∈ plannedSplits p g := by
    refine List.mem_filterMap.2 ⟨s.node, mem_sortedNodes.2 (wf.contains_iff.2 ?_), ?_⟩
    · rw [found]
      rfl
    · rw [found, Option.bind_some, planned]
  -- Each node is asked for one split.
  have only : ∀ s' ∈ plannedSplits p g, s'.node = s.node → s' = s := fun s' hs' same => by
    obtain ⟨m', found', asks⟩ := mem_plannedSplits hs'
    rw [same, found] at found'
    cases found'
    rw [same, planned] at asks
    exact (Option.some.inj asks).symm
  rw [splitsMade, List.forall_mem_append] at words
  rcases stands_each wf (fun _ => sensible_of_mem_plannedSplits)
    (fun _ => suffix?_of_mem_plannedSplits) words.1 (by rw [found]; rfl) inside only with
    refused | ⟨word, stands⟩
  · exact .inl (refused.mono (List.subset_append_left _ _))
  · exact .inr (stands.each_separate word plain (descends_planned p wf).wellFormed words.2)

end Cartograph.Expansion

import Cartograph.Proofs.Graph.Moving

/-!
# Labels of edges

A graph keeps labels apart from its edges, with the metadata of the node that an edge begins at. So
they are looked at on their own (`Graph.labelOf`). A label without its edge is *stray*
(`Graph.Stray`), and a graph is *clean* if it has none (`Graph.LabelClean`). Nothing but the mutators
sees to that: the check for missing children does not look at labels.

A `Mutation` is a call of one of the mutators that change nodes and edges. For each, a lemma says
which labels there are afterwards; all of them leave a clean graph clean but one: a child that is
replaced leaves its label behind (`labelClean_apply_iff`).
-/

namespace Cartograph.Graph

variable {g : Graph} {n a b u v old new : NodeId} {m : NodeMeta} {l : String}

/-- The label for an edge, if there is one. -/
def labelOf (g : Graph) (a b : NodeId) : Option String :=
  (g.meta? a).bind fun m => Keyed.find? b m.edgeLabels

/-- A label is stored, but the edge that it is for is not there. -/
def Stray (g : Graph) (a b : NodeId) : Prop := (g.labelOf a b).isSome ∧ ¬g.Edge a b

/-- Every label that is stored with a node is for one of its children. -/
def LabelClean (g : Graph) : Prop :=
  ∀ node m, g.meta? node = some m → ∀ label ∈ m.edgeLabels, g.hasEdge node label.1

theorem labelOf_eq (found : g.meta? a = some m) : g.labelOf a b = Keyed.find? b m.edgeLabels := by
  rw [labelOf, found]
  rfl

theorem labelClean_iff : g.LabelClean ↔ ∀ a b, (g.labelOf a b).isSome → g.Edge a b := by
  constructor
  · intro clean a b some
    obtain ⟨m, found⟩ : ∃ m, g.meta? a = .some m := by
      cases found : g.meta? a with
      | none => simp [labelOf, found] at some
      | some m => exact ⟨m, rfl⟩
    rw [labelOf_eq found, Keyed.find?_isSome_iff] at some
    obtain ⟨label, inside, rfl⟩ := List.mem_map.1 some
    exact hasEdge_iff.1 (clean a m found label inside)
  · intro clean a m found label inside
    refine hasEdge_iff.2 (clean a label.1 ?_)
    rw [labelOf_eq found, Keyed.find?_isSome_iff]
    exact List.mem_map_of_mem inside

/-- No label is for a node that is not there. -/
theorem LabelClean.find?_eq_none (wf : g.WellFormed) (clean : g.LabelClean)
    (free : ¬g.contains new) (found : g.meta? n = some m) :
    Keyed.find? new m.edgeLabels = none := by
  refine Option.not_isSome_iff_eq_none.1 fun taken => free ?_
  rw [← labelOf_eq found] at taken
  exact wf.closed n new (labelClean_iff.1 clean n new taken)

theorem labelClean_iff_not_stray : g.LabelClean ↔ ∀ a b, ¬g.Stray a b := by
  rw [labelClean_iff]
  simp only [Stray, not_and, not_not]

/-- All metadata are looked through, not only those that a look-up finds. -/
theorem labelClean_of_metadata
    (each : ∀ e ∈ g.metadata, ∀ label ∈ e.2.edgeLabels, g.hasEdge e.1 label.1) : g.LabelClean :=
  fun _ _ found => each _ (Keyed.mem_of_find? found)

/-! ### Labels in a changed graph -/

theorem labelOf_insertNode : (g.insertNode n m).labelOf u v =
    if n = u then Keyed.find? v m.edgeLabels else g.labelOf u v := by
  rw [labelOf, meta?_insertNode]
  split <;> rfl

/-- A node that is made has no labels. -/
theorem labelOf_ensureNode : (g.ensureNode n).1.labelOf u v = g.labelOf u v := by
  rw [labelOf, labelOf, meta?_ensureNode]
  cases g.meta? u with
  | some m => rfl
  | none =>
    rw [Option.none_or]
    split <;> rfl

/-- Nodes that an edge brings with it have no labels. -/
theorem labelOf_addEdge : (g.addEdge a b).1.labelOf u v = g.labelOf u v := by
  by_cases ne : a = b
  · subst ne
    rw [addEdge_self]
  · rw [labelOf, labelOf, meta?_addEdge ne]
    cases g.meta? u with
    | some m => rfl
    | none =>
      rw [Option.none_or]
      split
      · rfl
      · rw [Option.none_or]
        split <;> rfl

/-- An edge takes its label with it. -/
theorem labelOf_removeEdge : (g.removeEdge a b).1.labelOf u v =
    if u = a ∧ v = b ∧ b ∈ g.children a then none else g.labelOf u v := by
  rw [labelOf, meta?_removeEdge]
  by_cases there : a = u ∧ b ∈ g.children a
  · obtain ⟨rfl, edge⟩ := there
    rw [if_pos ⟨rfl, edge⟩, Option.bind_map, labelOf]
    cases g.meta? a with
    | none => exact (ite_self _).symm
    | some m =>
      refine (Keyed.find?_erase b v m.edgeLabels).trans ?_
      by_cases same : b = v
      · rw [if_pos same, if_pos ⟨rfl, same.symm, edge⟩]
      · rw [if_neg same, if_neg fun h => same h.2.1.symm]
        rfl
  · rw [if_neg there, if_neg fun h => there ⟨h.1.symm, h.2.2⟩, labelOf]

theorem labelOf_removeNode : (g.removeNode n).1.labelOf u v =
    if u = n ∨ v = n then none else g.labelOf u v := by
  rw [labelOf, meta?_removeNode]
  by_cases source : u = n
  · rw [if_pos source, if_pos (.inl source)]
    rfl
  · rw [if_neg source, Option.bind_map, labelOf]
    simp only [source, false_or]
    cases g.meta? u with
    | none => exact (ite_self _).symm
    | some m => exact (Keyed.find?_erase n v m.edgeLabels).trans (by simp only [eq_comm]; rfl)

theorem find?_moveLabel (ne : old ≠ new) :
    Keyed.find? v (moveLabel old new m).edgeLabels =
      if v = old then none
      else if v = new then (Keyed.find? old m.edgeLabels).or (Keyed.find? new m.edgeLabels)
      else Keyed.find? v m.edgeLabels := by
  unfold moveLabel
  cases found : Keyed.find? old m.edgeLabels with
  | none =>
    by_cases same : v = old
    · rw [if_pos same, same]
      exact found
    · rw [if_neg same, Option.none_or]
      by_cases here : v = new
      · rw [if_pos here, here]
      · rw [if_neg here]
  | some label =>
    refine (Keyed.find?_insert new v label _).trans ?_
    rw [Keyed.find?_erase, Option.some_or]
    by_cases same : v = old
    · rw [if_pos same, if_neg fun e => ne (e.trans same).symm, if_pos same.symm]
    · rw [if_neg same, if_neg (Ne.symm same)]
      simp only [eq_comm]

/-- A label in a graph with a new name is one from before, with the new name for the old one. -/
theorem exists_label_of_renameNode (wf : g.WellFormed) (clean : g.LabelClean)
    (can : g.Renameable old new) (some : ((g.renameNode old new).1.labelOf u v).isSome) :
    ∃ x y, (g.labelOf x y).isSome ∧ u = renamed old new x ∧ v = renamed old new y := by
  -- Which node had the labels before.
  obtain ⟨x, rfl, at_x⟩ : ∃ x, u = renamed old new x ∧
      (((g.meta? x).map (moveLabel old new)).bind fun m => Keyed.find? v m.edgeLabels).isSome := by
    rw [labelOf, meta?_renameNode can wf.sameNodes] at some
    split at some
    · next here => exact ⟨old, by rw [here, renamed, if_pos rfl], some⟩
    · split at some
      · exact absurd some (by simp)
      · next other => exact ⟨u, by rw [renamed, if_neg other], some⟩
  rw [Option.bind_map] at at_x
  cases found : g.meta? x with
  | none => simp [found] at at_x
  | some m =>
    rw [found, Option.bind_some, Function.comp, find?_moveLabel can.1] at at_x
    split at at_x
    · exact absurd at_x (by simp)
    · next other =>
      split at at_x
      · next here =>
        rw [clean.find?_eq_none wf can.2.2 found, Option.or_none, ← labelOf_eq found] at at_x
        exact ⟨x, old, at_x, rfl, by rw [here, renamed, if_pos rfl]⟩
      · rw [← labelOf_eq found] at at_x
        exact ⟨x, v, at_x, rfl, by rw [renamed, if_neg other]⟩

/-- A child that is replaced leaves its label. -/
theorem labelOf_replaceChild (ne : a ≠ new) :
    (g.replaceChild a old new).1.labelOf u v = g.labelOf u v := by
  rw [labelOf, meta?_replaceChild ne, ← meta?_ensureNode, ← labelOf, labelOf_ensureNode]

/-! ### Mutations -/

/-- A call of a mutator for nodes and edges. -/
inductive Mutation
  | insertNode (node : NodeId) (m : NodeMeta)
  | ensureNode (node : NodeId)
  | removeNode (node : NodeId)
  | renameNode (old new : NodeId)
  | addEdge (source target : NodeId)
  | removeEdge (source target : NodeId)
  | replaceChild (parent old new : NodeId)

namespace Mutation

/-- What becomes of a graph. -/
def apply (g : Graph) : Mutation → Graph
  | insertNode node m => g.insertNode node m
  | ensureNode node => (g.ensureNode node).1
  | removeNode node => (g.removeNode node).1
  | renameNode old new => (g.renameNode old new).1
  | addEdge source target => (g.addEdge source target).1
  | removeEdge source target => (g.removeEdge source target).1
  | replaceChild parent old new => (g.replaceChild parent old new).1

/-- Whether a mutation brings no labels. -/
def BringsNone : Mutation → Prop
  | insertNode _ m => m.edgeLabels = []
  | _ => True

/-- Whether a mutation replaces a child whose edge has a label. -/
def Strands (g : Graph) : Mutation → Prop
  | replaceChild parent old new =>
    parent ≠ new ∧ g.hasEdge parent old ∧ (g.labelOf parent old).isSome
  | _ => False

end Mutation

theorem Stray.of_insertNode (h : (g.insertNode n m).Stray a b) (none : m.edgeLabels = []) :
    g.Stray a b := by
  obtain ⟨some, no⟩ := h
  rw [labelOf_insertNode, none] at some
  split at some
  · exact absurd some (by simp [Keyed.find?])
  · exact ⟨some, fun edge => no (edge_insertNode.2 edge)⟩

theorem Stray.of_ensureNode (h : (g.ensureNode n).1.Stray a b) : g.Stray a b := by
  rwa [Stray, labelOf_ensureNode, Edge, children_ensureNode] at h

theorem Stray.of_addEdge (h : (g.addEdge u v).1.Stray a b) : g.Stray a b := by
  by_cases same : u = v
  · rwa [same, addEdge_self] at h
  · rw [Stray, labelOf_addEdge, edge_addEdge same, not_or] at h
    exact ⟨h.1, h.2.1⟩

theorem Stray.of_removeEdge (h : (g.removeEdge u v).1.Stray a b) : g.Stray a b := by
  obtain ⟨some, no⟩ := h
  rw [labelOf_removeEdge] at some
  split at some
  · exact absurd some (by simp)
  · next kept =>
    refine ⟨some, fun edge => no (edge_removeEdge.2 ⟨edge, fun same => kept ?_⟩)⟩
    exact ⟨same.1, same.2, same.1 ▸ same.2 ▸ edge⟩

theorem Stray.of_removeNode (h : (g.removeNode n).1.Stray a b) : g.Stray a b := by
  obtain ⟨some, no⟩ := h
  rw [labelOf_removeNode] at some
  split at some
  · exact absurd some (by simp)
  · next other =>
    rw [not_or] at other
    exact ⟨some, fun edge => no (mem_children_removeNode.2 ⟨other.1, other.2, edge⟩)⟩

/-- What brings no stray labels leaves a clean graph clean. -/
theorem LabelClean.of_stray {g' : Graph} (clean : g.LabelClean)
    (back : ∀ a b, g'.Stray a b → g.Stray a b) : g'.LabelClean :=
  labelClean_iff_not_stray.2 fun a b stray => labelClean_iff_not_stray.1 clean a b (back a b stray)

theorem LabelClean.insertNode (clean : g.LabelClean) (none : m.edgeLabels = []) :
    (g.insertNode n m).LabelClean := clean.of_stray fun _ _ stray => stray.of_insertNode none

theorem LabelClean.ensureNode (clean : g.LabelClean) : (g.ensureNode n).1.LabelClean :=
  clean.of_stray fun _ _ stray => stray.of_ensureNode

theorem LabelClean.addEdge (clean : g.LabelClean) : (g.addEdge u v).1.LabelClean :=
  clean.of_stray fun _ _ stray => stray.of_addEdge

theorem LabelClean.removeEdge (clean : g.LabelClean) : (g.removeEdge u v).1.LabelClean :=
  clean.of_stray fun _ _ stray => stray.of_removeEdge

theorem LabelClean.removeNode (clean : g.LabelClean) : (g.removeNode n).1.LabelClean :=
  clean.of_stray fun _ _ stray => stray.of_removeNode

theorem LabelClean.renameNode (wf : g.WellFormed) (clean : g.LabelClean) :
    (g.renameNode old new).1.LabelClean := by
  by_cases can : g.Renameable old new
  · refine labelClean_iff.2 fun a b some => ?_
    obtain ⟨x, y, some, hx, hy⟩ := exists_label_of_renameNode wf clean can some
    exact (edge_renameNode can).2 ⟨x, y, labelClean_iff.1 clean x y some, hx, hy⟩
  · rwa [renameNode_of_not_renameable can]

/-- A child that makes room is a child no longer, also for itself. -/
theorem not_mem_replaceIn {cs : List NodeId} (nodup : cs.Nodup) (there : old ∈ cs) :
    old ∉ replaceIn old new cs := by
  by_cases same : new = old
  · subst same
    rw [replaceIn, if_pos (List.contains_iff_mem.2 there), nodup.mem_erase_iff]
    exact fun h => h.1 rfl
  · rw [mem_replaceIn_iff nodup there same]
    exact fun h => h.elim (fun e => same e.symm) fun h => h.2 rfl

/-- Other children stay. -/
theorem mem_replaceIn_of_ne {cs : List NodeId} (nodup : cs.Nodup) (there : old ∈ cs)
    (inside : v ∈ cs) (ne : v ≠ old) : v ∈ replaceIn old new cs := by
  by_cases same : new = old
  · subst same
    rw [replaceIn, if_pos (List.contains_iff_mem.2 there), nodup.mem_erase_iff]
    exact ⟨ne, inside⟩
  · exact (mem_replaceIn_iff nodup there same).2 (.inr ⟨inside, ne⟩)

theorem labelClean_replaceChild_iff (wf : g.WellFormed) (clean : g.LabelClean) :
    (g.replaceChild a old new).1.LabelClean ↔
      ¬(a ≠ new ∧ g.hasEdge a old ∧ (g.labelOf a old).isSome) := by
  by_cases ne : a = new
  · subst ne
    rw [replaceChild_self]
    exact iff_of_true clean.removeEdge fun h => h.1 rfl
  rw [labelClean_iff]
  simp only [labelOf_replaceChild ne, Edge, children_replaceChild ne]
  constructor
  · rintro cleaned ⟨-, edge, some⟩
    have there := hasEdge_iff.1 edge
    have stays := cleaned a old some
    rw [if_pos ⟨rfl, there⟩] at stays
    exact not_mem_replaceIn (wf.noRepetition a) there stays
  · intro unlabelled u v some
    have edge : v ∈ g.children u := labelClean_iff.1 clean u v some
    split
    · next here =>
      obtain ⟨rfl, there⟩ := here
      refine mem_replaceIn_of_ne (wf.noRepetition _) there edge fun same => ?_
      exact unlabelled ⟨ne, hasEdge_iff.2 there, same ▸ some⟩
    · exact edge

/-- A mutation that brings no labels leaves a clean graph clean, unless it replaces a child whose
    edge has a label, be it by another node or by itself: then the label is left without its
    edge. -/
theorem labelClean_apply_iff (wf : g.WellFormed) (clean : g.LabelClean) {μ : Mutation}
    (none : μ.BringsNone) : (μ.apply g).LabelClean ↔ ¬μ.Strands g := by
  cases μ with
  | insertNode node m => exact iff_of_true (clean.insertNode none) not_false
  | ensureNode node => exact iff_of_true clean.ensureNode not_false
  | removeNode node => exact iff_of_true clean.removeNode not_false
  | renameNode old new => exact iff_of_true (clean.renameNode wf) not_false
  | addEdge source target => exact iff_of_true clean.addEdge not_false
  | removeEdge source target => exact iff_of_true clean.removeEdge not_false
  | replaceChild parent old new => exact labelClean_replaceChild_iff wf clean

/-- A network with two subnets, of which each edge has a label. -/
def signposted : Graph :=
  let g := ((Graph.empty "aws").addEdge "aws_vpc.a" "aws_subnet.b").1
  let g := (g.addEdge "aws_vpc.a" "aws_subnet.c").1
  g.modifyMeta "aws_vpc.a" fun m =>
    { m with edgeLabels := [("aws_subnet.b", "front"), ("aws_subnet.c", "back")] }

theorem wellFormed_signposted : signposted.WellFormed := by
  unfold signposted
  exact wellFormed_modifyMeta (wellFormed_addEdge (wellFormed_addEdge (wellFormed_empty "aws")))

theorem labelClean_signposted : signposted.LabelClean :=
  labelClean_of_metadata (by decide +kernel)

/-- The theorem where a subnet is renamed, and where one takes the place of the other. -/
theorem labelClean_apply_iff_signposted :
    (signposted.WellFormed ∧ signposted.LabelClean ∧
      ((Mutation.renameNode "aws_subnet.b" "aws_subnet.d").apply signposted).LabelClean ∧
      ((Mutation.renameNode "aws_subnet.b" "aws_subnet.d").apply signposted).labelOf "aws_vpc.a"
        "aws_subnet.d" = some "front") ∧
    ¬((Mutation.replaceChild "aws_vpc.a" "aws_subnet.b" "aws_subnet.c").apply
      signposted).LabelClean := by
  have wf := wellFormed_signposted
  have clean := labelClean_signposted
  refine ⟨⟨wf, clean, ?_, by decide +kernel⟩, fun cleaned => ?_⟩
  · exact (labelClean_apply_iff wf clean (μ := .renameNode _ _) trivial).2 not_false
  · exact (labelClean_apply_iff wf clean (μ := .replaceChild _ _ _) trivial).1 cleaned
      ⟨by decide, by decide +kernel⟩

/-- A subnet that takes another one's place leaves the label of the edge to it. -/
theorem label_left_behind : signposted.WellFormed ∧ signposted.LabelClean ∧
    ¬((Mutation.replaceChild "aws_vpc.a" "aws_subnet.b" "aws_subnet.c").apply
      signposted).LabelClean := by
  refine ⟨wellFormed_signposted, labelClean_signposted, fun cleaned => ?_⟩
  have edge := labelClean_iff.1 cleaned "aws_vpc.a" "aws_subnet.b" (by decide +kernel)
  exact absurd (hasEdge_iff.2 edge) (by decide +kernel)

end Cartograph.Graph

import Cartograph.Proofs.Expansion.Splitting
import Cartograph.Proofs.Graph.Labels

/-!
# Nodes divided into siblings

A split is refused as a whole, or it is made as a whole: then the node is gone, its siblings are the
only new nodes, and each of them is known by what is its own, be it a bag of attributes, a key or a
label (`Divided`). Labels go with edges: an edge of a sibling has the label of the edge that it
comes from, and siblings have no other labels.

A label is set right after the edge that it is for (`labelOf_each`). The labels of edges to siblings
are read off the edges to the node, which are there until the node goes (`labelOf_withParents`);
then all labels at the node go too.
-/

namespace Cartograph

/-- Metadata that differ in the labels of edges only. -/
theorem NodeMeta.eq_of_unlabelled {m m' : NodeMeta} (same : m'.unlabelled = m.unlabelled) :
    m' = { m with edgeLabels := m'.edgeLabels } := by
  change { m'.unlabelled with edgeLabels := m'.edgeLabels } =
    { m.unlabelled with edgeLabels := m'.edgeLabels }
  rw [same]

namespace Expansion

open Graph Arrangement

variable {g : Graph} {s : Split} {m : NodeMeta} {n a b u v : NodeId} {i : Nat}

/-! ### Labels in a changed graph -/

theorem labelOf_setLabel (wf : g.WellFormed) (there : g.contains a) (label : Option String) :
    (setLabel g a b label).labelOf u v =
      if (u, v) = (a, b) then label.or (g.labelOf u v) else g.labelOf u v := by
  cases label with
  | none => rw [Option.none_or, ite_self, setLabel]
  | some l =>
    obtain ⟨m, found⟩ := wf.exists_meta there
    rw [labelOf, setLabel, meta?_modifyMeta (wf.sameNodes a)]
    by_cases source : a = u
    · subst source
      rw [if_pos rfl, labelOf_eq found, found]
      refine (Keyed.find?_insert b v l m.edgeLabels).trans ?_
      by_cases target : b = v
      · rw [if_pos target, if_pos (by rw [target]), Option.some_or]
      · rw [if_neg target, if_neg fun e => target (Prod.mk.inj e).2.symm]
    · rw [if_neg source, if_neg fun e => source (Prod.mk.inj e).1.symm, labelOf]

theorem labelOf_link (wf : g.WellFormed) (there : g.contains a)
    (label : NodeId → NodeId → Option String) :
    (setLabel (g.addEdge a b).1 a b (label a b)).labelOf u v =
      if (u, v) = (a, b) then (label u v).or (g.labelOf u v) else g.labelOf u v := by
  have there : (g.addEdge a b).1.contains a := by
    by_cases ne : a = b
    · subst ne
      rwa [addEdge_self]
    · exact (contains_addEdge ne).2 (.inl rfl)
  rw [labelOf_setLabel (wellFormed_addEdge wf) there, labelOf_addEdge]
  split
  · next same =>
    cases same
    rfl
  · rfl

/-- Edges one after the other, each with its label, if it has one. What labels are read off is kept
    by each (`I`). -/
theorem labelOf_each {links : List Link} {step : Graph → Link → Graph}
    {ends : Link → NodeId × NodeId} {I : Graph → Prop} (label : NodeId → NodeId → Option String)
    (start : I g) (each : ∀ l ∈ links, ∀ g', I g' → I (step g' l) ∧
      ∀ u v, (step g' l).labelOf u v =
        if (u, v) = ends l then (label u v).or (g'.labelOf u v) else g'.labelOf u v) :
    (eachSilent step links g).labelOf u v =
      if ∃ l ∈ links, (u, v) = ends l then (label u v).or (g.labelOf u v) else g.labelOf u v := by
  unfold eachSilent
  induction links generalizing g with
  | nil => rw [List.foldl_nil, if_neg (by simp)]
  | cons l rest ih =>
    obtain ⟨first, others⟩ := List.forall_mem_cons.1 each
    obtain ⟨kept, labels⟩ := first g start
    rw [List.foldl_cons, ih kept others, labels]
    simp only [List.exists_mem_cons_iff]
    by_cases here : (u, v) = ends l
    · -- An edge that comes again gets the same label again.
      rw [if_pos here, ← Option.or_assoc, Option.or_self, ite_self, if_pos (.inl here)]
    · rw [if_neg here]
      simp only [here, false_or]

/-! ### Labels of siblings -/

/-- Siblings begin without labels. -/
theorem labelOf_withSiblings : (withSiblings s m g).labelOf u v =
    if u ∈ s.siblings then none else g.labelOf u v := by
  unfold withSiblings eachSilent
  split
  · next sibling =>
    obtain ⟨i, below, rfl⟩ := Split.mem_siblings.1 sibling
    rw [labelOf, meta?_foldl_sibling (List.mem_range.2 below)]
    rfl
  · next other => rw [labelOf, meta?_foldl_others other, labelOf]

section Replacing

variable (wf : g.WellFormed) (sensible : Sensible g s) (fresh : ∀ n ∈ s.siblings, ¬g.contains n)
include wf sensible fresh

theorem labelOf_withChildren (m : NodeMeta) : (withChildren s m g).labelOf u v =
    if ∃ l ∈ outgoing s m g, (u, v) = (s.sibling l.1, l.2)
    then (Keyed.find? v m.edgeLabels).or ((withSiblings s m g).labelOf u v)
    else (withSiblings s m g).labelOf u v := by
  refine labelOf_each
    (I := fun g' => g'.WellFormed ∧ ∀ n, g'.contains n ↔ (withSiblings s m g).contains n)
    (fun _ v => Keyed.find? v m.edgeLabels) ⟨wellFormed_withSiblings wf, fun _ => .rfl⟩
    fun l hl g' ⟨wf', same⟩ => ?_
  obtain ⟨ne, source, target⟩ := outgoing_ends wf sensible fresh hl
  have linked := linked_link wf' ne ((same _).2 source) ((same _).2 target)
    fun _ => Keyed.find? l.2 m.edgeLabels
  exact ⟨⟨linked.wellFormed, fun n => (linked.contains n).trans (same n)⟩, fun u v =>
    labelOf_link wf' ((same _).2 source) fun _ v => Keyed.find? v m.edgeLabels⟩

/-- The labels of the edges to the node are there until it goes. -/
theorem labelOf_withParents (m : NodeMeta) : (withParents s m g).labelOf u v =
    if ∃ l ∈ incoming s m g, (u, v) = (l.2, s.sibling l.1)
    then ((withChildren s m g).labelOf u s.node).or ((withChildren s m g).labelOf u v)
    else (withChildren s m g).labelOf u v := by
  have children := linked_withChildren wf sensible fresh m
  refine labelOf_each
    (I := fun g' => (g'.WellFormed ∧ ∀ n, g'.contains n ↔ (withSiblings s m g).contains n) ∧
      ∀ u, g'.labelOf u s.node = (withChildren s m g).labelOf u s.node)
    (fun u _ => (withChildren s m g).labelOf u s.node)
    ⟨⟨children.wellFormed, children.contains⟩, fun _ => rfl⟩
    fun l hl g' ⟨⟨wf', same⟩, labels⟩ => ?_
  obtain ⟨ne, source, target⟩ := incoming_ends wf sensible fresh hl
  obtain ⟨below, edge⟩ := mem_incoming wf sensible hl
  have linked := linked_link wf' ne ((same _).2 source) ((same _).2 target) fun g' =>
    g'.labelOf l.2 s.node
  have step : ∀ u v, (linkParent s g' l).labelOf u v = if (u, v) = (l.2, s.sibling l.1)
      then ((withChildren s m g).labelOf u s.node).or (g'.labelOf u v) else g'.labelOf u v := by
    intro u v
    have read : linkParent s g' l = setLabel (g'.addEdge l.2 (s.sibling l.1)).1 l.2
        (s.sibling l.1) ((withChildren s m g).labelOf l.2 s.node) := by
      rw [← labels, ← labelOf_addEdge]
      rfl
    rw [read]
    exact labelOf_link wf' ((same _).2 source) fun u _ => (withChildren s m g).labelOf u s.node
  refine ⟨⟨⟨linked.wellFormed, fun n => (linked.contains n).trans (same n)⟩, fun u => ?_⟩, step⟩
  have other : s.sibling l.1 ≠ s.node := sibling_ne fresh below (wf.closed _ _ edge)
  rw [step, if_neg fun e => other (Prod.mk.inj e).2.symm]
  exact labels u

/-! ### The graph without the node -/

/-- No edge to a sibling begins at one. -/
theorem not_incoming (below : i < s.count) :
    ¬∃ l ∈ incoming s m g, (s.sibling i, b) = (l.2, s.sibling l.1) := by
  rintro ⟨l, link, same⟩
  have parent := (mem_incoming wf sensible link).2.contains
  exact sibling_ne fresh below parent (Prod.mk.inj same).1

omit wf in
/-- No edge from a sibling begins at another node. -/
theorem not_outgoing (there : g.contains a) :
    ¬∃ l ∈ outgoing s m g, (a, b) = (s.sibling l.1, l.2) := by
  rintro ⟨l, link, same⟩
  have below := ((pairs_outgoing sensible m).sound l link).1
  exact sibling_ne fresh below there (Prod.mk.inj same).1.symm

theorem hasEdge_from_sibling (there : g.contains s.node) (below : i < s.count) :
    (replaceNode s m g).1.hasEdge (s.sibling i) b ↔
      b ≠ s.node ∧ ∃ l ∈ outgoing s m g, (s.sibling i, b) = (s.sibling l.1, l.2) := by
  rw [hasEdge_iff, ← Edge, edge_replaceNode wf sensible fresh]
  constructor
  · rintro ⟨-, target, before | child | parent⟩
    · exact absurd rfl (sibling_ne fresh below before.contains)
    · exact ⟨target, child⟩
    · exact absurd parent (not_incoming wf sensible fresh below)
  · rintro ⟨target, child⟩
    exact ⟨sibling_ne fresh below there, target, .inr (.inl child)⟩

theorem hasEdge_to_sibling (there : g.contains a) (ne : a ≠ s.node) (target : b ≠ s.node) :
    b ∈ s.siblings ∧ (replaceNode s m g).1.hasEdge a b ↔
      ∃ l ∈ incoming s m g, (a, b) = (l.2, s.sibling l.1) := by
  rw [hasEdge_iff, ← Edge, edge_replaceNode wf sensible fresh]
  constructor
  · rintro ⟨inside, -, -, before | child | parent⟩
    · exact absurd (wf.closed _ _ before) (fresh b inside)
    · exact absurd child (not_outgoing sensible fresh there)
    · exact parent
  · rintro ⟨l, link, same⟩
    have below := (mem_incoming wf sensible link).1
    exact ⟨Split.mem_siblings.2 ⟨l.1, below, (Prod.mk.inj same).2.symm⟩, ne, target,
      .inr (.inr ⟨l, link, same⟩)⟩

/-- A sibling has the labels of its edges, and no others. -/
theorem labelOf_sibling (there : g.contains s.node) (below : i < s.count) :
    (replaceNode s m g).1.labelOf (s.sibling i) b =
      if (replaceNode s m g).1.hasEdge (s.sibling i) b then Keyed.find? b m.edgeLabels
      else none := by
  have ne : s.sibling i ≠ s.node := sibling_ne fresh below there
  have inside : s.sibling i ∈ s.siblings := Split.mem_siblings.2 ⟨i, below, rfl⟩
  simp only [hasEdge_from_sibling wf sensible fresh there below]
  rw [replaceNode_eq, labelOf_removeNode, labelOf_withParents wf sensible fresh,
    if_neg (not_incoming wf sensible fresh below), labelOf_withChildren wf sensible fresh,
    labelOf_withSiblings, if_pos inside, Option.or_none]
  by_cases target : b = s.node
  · rw [if_pos (.inr target), if_neg fun both => both.1 target]
  · simp only [ne, ne_eq, target, or_self, if_false, not_false_eq_true, true_and]

/-- A node has the labels of its edges to the node for those to its siblings, and keeps its other
    labels, but for the one to the node. -/
theorem labelOf_other (there : g.contains a) (ne : a ≠ s.node) :
    (replaceNode s m g).1.labelOf a b =
      if b = s.node then none
      else if b ∈ s.siblings ∧ (replaceNode s m g).1.hasEdge a b
        then (g.labelOf a s.node).or (g.labelOf a b)
      else g.labelOf a b := by
  have before : ∀ c, (withChildren s m g).labelOf a c = g.labelOf a c := fun c => by
    rw [labelOf_withChildren wf sensible fresh, if_neg (not_outgoing sensible fresh there),
      labelOf_withSiblings, if_neg fun inside => fresh a inside there]
  by_cases target : b = s.node
  · rw [if_pos target, replaceNode_eq, labelOf_removeNode, if_pos (.inr target)]
  · simp only [hasEdge_to_sibling wf sensible fresh there ne target]
    rw [if_neg target, replaceNode_eq, labelOf_removeNode, if_neg (not_or.2 ⟨ne, target⟩),
      labelOf_withParents wf sensible fresh, before, before]

end Replacing

/-! ### A divided node -/

/-- A graph in which a node is replaced by its siblings, with all that is known of the nodes. -/
structure Divided (s : Split) (m : NodeMeta) (g h : Graph) : Prop extends Replaces s m g h where
  gone : ¬h.contains s.node
  /-- A sibling is known as the node was, but for what it has of its own. -/
  known : ∀ i < s.count, ∃ labels, h.meta? (s.sibling i) = some { m with
      cardinality := 1
      instances := []
      instanceKeys := (m.instanceKeys[i]?).toList
      attributes := (s.instances[i]?).getD m.attributes
      edgeLabels := labels } ∧
    ∀ b, Keyed.find? b labels =
      if h.hasEdge (s.sibling i) b then Keyed.find? b m.edgeLabels else none
  /-- Other nodes have other labels only for the node and for siblings. A label for a sibling that
      was there before the sibling stays if the edge to the node has none. -/
  relabelled : ∀ a k, a ≠ s.node → g.meta? a = some k →
    ∃ labels, h.meta? a = some { k with edgeLabels := labels } ∧
      ∀ b, Keyed.find? b labels =
        if b = s.node then none
        else if b ∈ s.siblings ∧ h.hasEdge a b
          then (Keyed.find? s.node k.edgeLabels).or (Keyed.find? b k.edgeLabels)
        else Keyed.find? b k.edgeLabels

theorem divided_replaceNode (wf : g.WellFormed) (sensible : Sensible g s)
    (fresh : ∀ n ∈ s.siblings, ¬g.contains n) (found : g.meta? s.node = some m) :
    Divided s m g (replaceNode s m g).1 := by
  have r := replaces_replaceNode wf sensible fresh found
  have there : g.contains s.node := wf.contains_iff.2 (by rw [found]; rfl)
  refine ⟨r, fun still => ?_, fun i below => ?_, fun a k ne known => ?_⟩
  · rcases (r.contains _).1 still with inside | ⟨other, -⟩
    · exact fresh _ inside there
    · exact other rfl
  · obtain ⟨m', known, same⟩ := Option.map_eq_some_iff.1 (r.sibling i below)
    refine ⟨m'.edgeLabels, ?_, fun b => ?_⟩
    · rw [known, NodeMeta.eq_of_unlabelled (m := siblingMeta s m i) same]
      rfl
    · rw [← labelOf_eq known, labelOf_sibling wf sensible fresh there below]
  · have held : g.contains a := wf.contains_iff.2 (by rw [known]; rfl)
    have outside : a ∉ s.siblings := fun inside => fresh a inside held
    have rest := r.unlabelled a ne outside
    rw [known] at rest
    obtain ⟨k', known', same⟩ := Option.map_eq_some_iff.1 rest
    refine ⟨k'.edgeLabels, ?_, fun b => ?_⟩
    · rw [known', ← NodeMeta.eq_of_unlabelled same]
    · rw [← labelOf_eq known', labelOf_other wf sensible fresh held ne, labelOf_eq known,
        labelOf_eq known]

/-- A sensible split, as all are that an expansion tries (`sensible_of_plan`, `separate_cases`), is
    refused as a whole if the name of a sibling is taken: the graph stays as it is, and the name is
    reported. Else it is made as a whole: the node is divided into its siblings. -/
theorem split_refused_or_divided (wf : g.WellFormed) (sensible : Sensible g s)
    (found : g.meta? s.node = some m) :
    ((∃ n ∈ s.siblings, g.contains n) → ∃ taken ∈ s.siblings, g.contains taken ∧
      split g s = (g, [skipped (some s.node)
        ("cannot expand, '" ++ taken ++ "' already exists")])) ∧
    ((∀ n ∈ s.siblings, ¬g.contains n) → Divided s m g (split g s).1) := by
  constructor
  · rintro ⟨n, inside, there⟩
    obtain ⟨taken, first⟩ := Option.isSome_iff_exists.1
      (List.find?_isSome.2 ⟨n, inside, there⟩)
    refine ⟨taken, List.mem_of_find?_eq_some first, List.find?_some first, ?_⟩
    rw [split, found]
    dsimp only
    rw [first]
  · intro fresh
    have free : s.siblings.find? g.contains = none :=
      List.find?_eq_none.2 fun n inside there => fresh n inside there
    rw [split, found]
    dsimp only
    rw [free]
    exact divided_replaceNode wf sensible fresh found

/-- A machine that stands for two, in a subnet and with two disks, of which one edge has a label. -/
def fleet : Graph :=
  let g := ((Graph.empty "aws").addEdge "aws_subnet.a" "aws_instance.web").1
  let g := (g.addEdge "aws_instance.web" "aws_ebs_volume.disk~1").1
  let g := (g.addEdge "aws_instance.web" "aws_ebs_volume.disk~2").1
  let g := g.modifyMeta "aws_subnet.a" fun m =>
    { m with edgeLabels := [("aws_instance.web", "hosts")] }
  g.modifyMeta "aws_instance.web" fun m => { m with
    cardinality := 2
    instances := [[("zone", .text "north")], [("zone", .text "south")]]
    instanceKeys := ["blue", "green"]
    edgeLabels := [("aws_ebs_volume.disk~1", "boots from")] }

theorem wellFormed_fleet : fleet.WellFormed := by
  unfold fleet
  refine wellFormed_modifyMeta (wellFormed_modifyMeta ?_)
  exact wellFormed_addEdge (wellFormed_addEdge (wellFormed_addEdge (wellFormed_empty "aws")))

/-- The split that the machine asks for. -/
def zoned : Split :=
  ⟨"aws_instance.web", 2, [[("zone", .text "north")], [("zone", .text "south")]], []⟩

/-- The theorem at this machine, and where there is a second machine already. -/
theorem split_refused_or_divided_fleet :
    (fleet.WellFormed ∧ Sensible fleet zoned ∧
      (∃ m, fleet.meta? zoned.node = some m ∧ m.instanceKeys = ["blue", "green"] ∧
        Divided zoned m fleet (split fleet zoned).1) ∧
      (split fleet zoned).1.edges = [("aws_subnet.a", "aws_instance.web~1"),
        ("aws_subnet.a", "aws_instance.web~2"), ("aws_instance.web~1", "aws_ebs_volume.disk~1"),
        ("aws_instance.web~2", "aws_ebs_volume.disk~2")] ∧
      (split fleet zoned).1.labelOf "aws_subnet.a" "aws_instance.web~2" = some "hosts" ∧
      (split fleet zoned).1.labelOf "aws_instance.web~1" "aws_ebs_volume.disk~1" =
        some "boots from") ∧
    ∃ taken ∈ zoned.siblings,
      split (fleet.addEdge "aws_subnet.a" "aws_instance.web~2").1 zoned =
        ((fleet.addEdge "aws_subnet.a" "aws_instance.web~2").1,
          [skipped (some "aws_instance.web") ("cannot expand, '" ++ taken ++ "' already exists")])
    := by
  have sensible : ∀ g, Sensible g zoned := fun _ =>
    ⟨by decide, by decide, fun _ h => absurd h List.not_mem_nil⟩
  obtain ⟨m, found⟩ := wellFormed_fleet.exists_meta
    (show fleet.contains zoned.node by decide +kernel)
  have keys : (fleet.meta? zoned.node).map (·.instanceKeys) = some ["blue", "green"] := by
    decide +kernel
  have divided := (split_refused_or_divided wellFormed_fleet (sensible fleet) found).2
    (by decide +kernel)
  have crowded : (fleet.addEdge "aws_subnet.a" "aws_instance.web~2").1.WellFormed :=
    wellFormed_addEdge wellFormed_fleet
  obtain ⟨m', found'⟩ := crowded.exists_meta (n := zoned.node) (by decide +kernel)
  obtain ⟨taken, sibling, -, refused⟩ := (split_refused_or_divided crowded (sensible _) found').1
    (by decide +kernel)
  rw [found] at keys
  exact ⟨⟨wellFormed_fleet, sensible fleet, ⟨m, found, Option.some.inj keys, divided⟩,
    by decide +kernel⟩, taken, sibling, refused⟩

end Expansion

end Cartograph

import Cartograph.Proofs.Filling
import Cartograph.Proofs.Graph.Cutting
import Cartograph.Proofs.Placeholders

/-!
# The frame of validation

What validation leaves alone (`Validation.Frame`). It is stated of the program as it runs, which
changes the graph it is given and reads it again after each change (`Validation.validateInPlace`):
a graph that is refused stays as it was, and of one that is not only the nodes without edges and the
containers without children notice anything.

A placeholder takes the place of a node that has its name (`Validation.meta?_addPlaceholder`). So a
container without children may be made a placeholder before its turn comes, and then it gets none
of its own (`Validation.validate_unpadded`). Exactly the containers without children get
placeholders where this makes no difference to any node that waits for its turn, and only there
(`Validation.Clear`).
-/

namespace Cartograph.Validation

open Graph Arrangement Containment

variable {g g' h : Graph} {p : Rules.Providers} {keep : Bool} {a k n : NodeId}
  {l : List NodeId} {r : Report}

-- Nothing here depends on how an identifier is taken apart.
attribute [local irreducible] NodeId.parts

/-! ### Removing nodes without edges -/

/-- Nobody loses a child. -/
theorem children_removeNode_loose (loose : Loose g n) :
    (g.removeNode n).1.children k = g.children k := by
  rw [children_removeNode]
  split
  · next same =>
    subst same
    exact (List.eq_nil_iff_forall_not_mem.2 fun a => (loose a).1).symm
  · refine List.filter_eq_self.2 fun c inside => decide_eq_true fun same => ?_
    exact (loose k).2 (same ▸ inside)

theorem loose_removeNode (loose : Loose g n) (other : Loose g k) :
    Loose (g.removeNode n).1 k := fun a =>
  ⟨fun edge => (other a).1 ((edge_removeNode_loose loose).1 edge),
    fun edge => (other a).2 ((edge_removeNode_loose loose).1 edge)⟩

theorem children_removeAll {nodes : List NodeId} (loose : ∀ n ∈ nodes, Loose g n) :
    (removeAll nodes g).children k = g.children k := by
  induction nodes generalizing g with
  | nil => rfl
  | cons n rest ih =>
    obtain ⟨here, others⟩ := List.forall_mem_cons.1 loose
    refine (ih fun m hm => loose_removeNode here (others m hm)).trans ?_
    exact children_removeNode_loose here

theorem nodes_removeAll {nodes : List NodeId} :
    (removeAll nodes g).nodes = g.nodes.filter (· ∉ nodes) := by
  induction nodes generalizing g with
  | nil => exact (List.filter_eq_self.2 fun _ _ => by simp).symm
  | cons n rest ih =>
    refine ih.trans ?_
    rw [nodes_removeNode, List.filter_filter]
    refine List.filter_congr fun k _ => ?_
    simp only [List.mem_cons, not_or, Bool.decide_and, Bool.and_comm]

/-- The others lose the labels of edges to the nodes that go. -/
theorem meta?_removeAll {nodes : List NodeId} : (removeAll nodes g).meta? k =
    if k ∈ nodes then none else (g.meta? k).map (dropLabels (· ∈ nodes)) := by
  induction nodes generalizing g with
  | nil =>
    have none : (fun c : NodeId => decide (c ∈ ([] : List NodeId))) = fun _ => false := by simp
    rw [if_neg List.not_mem_nil, none, funext dropLabels_none, Option.map_id']
    rfl
  | cons n rest ih =>
    refine ih.trans ?_
    have one : ∀ m, dropLabel n m = dropLabels (· = n) m := fun m => by
      simp only [dropLabel, dropLabels, Keyed.erase, decide_not]
    have both : (fun c : NodeId => decide (c = n) || decide (c ∈ rest)) =
        fun c => decide (c ∈ n :: rest) := by
      funext c
      simp only [List.mem_cons, Bool.decide_or]
    rw [meta?_removeNode]
    by_cases last : k ∈ rest
    · rw [if_pos last, if_pos (List.mem_cons_of_mem _ last)]
    · by_cases here : k = n
      · simp [here]
      · rw [if_neg last, if_neg here, if_neg (by simp [here, last]), Option.map_map]
        refine congrArg (Option.map · _) (funext fun m => ?_)
        rw [Function.comp, one, dropLabels_dropLabels, both]

theorem children_kept (wf : g.WellFormed) : (kept keep p g).children k = g.children k :=
  children_removeAll fun _ h => (loose_of_dropped wf h).1

theorem mem_dropped : n ∈ dropped keep p g ↔
    keep = false ∧ g.contains n ∧ g.children n = [] ∧ g.parents n = [] ∧
      p.isGroup (g.typeOf n) = false := by
  unfold dropped standalone
  cases keep <;> simp [List.mem_filter, mem_sortedNodes, and_assoc]

/-- Nodes that go are no containers. -/
theorem mem_hollow_kept (wf : g.WellFormed) : n ∈ hollow p (kept keep p g) ↔ n ∈ hollow p g := by
  rw [hollow, hollow, List.mem_filter, List.mem_filter, mem_sortedNodes, mem_sortedNodes,
    contains_kept_iff wf, isHollow, isHollow, children_kept wf]
  by_cases gone : n ∈ dropped keep p g
  · simp [gone, (loose_of_dropped wf gone).2]
  · simp [gone, typeOf_kept wf gone]

/-! ### Placeholders -/

theorem children_addPlaceholder_self (n : NodeId) (none : g.children n = []) :
    (addPlaceholder g n).children n = [placeholderFor n] := by
  unfold addPlaceholder
  dsimp only
  rw [children_addEdge (placeholderFor_ne n).symm, children_insertNode, none,
    if_pos ⟨rfl, List.not_mem_nil⟩, List.nil_append]

/-- A placeholder that is new stands behind all other nodes. -/
theorem nodes_addPlaceholder (there : g.contains n) : (addPlaceholder g n).nodes =
    if g.contains (placeholderFor n) then g.nodes else g.nodes ++ [placeholderFor n] := by
  unfold addPlaceholder
  dsimp only
  rw [nodes_addEdge_of_contains (contains_insertNode.2 (.inr there))
    (contains_insertNode.2 (.inl rfl)), nodes_insertNode]

theorem placeholderMeta_addPlaceholder :
    placeholderMeta (addPlaceholder g n) k = placeholderMeta g k := by
  unfold placeholderMeta madeUpMeta addPlaceholder
  rw [provider_addEdge]
  rfl

theorem nodes_addPlaceholders (there : ∀ n ∈ l, g.contains n) :
    ∃ fresh, (eachSilent addPlaceholder l g).nodes = g.nodes ++ fresh ∧
      ∀ n ∈ fresh, n ∈ l.map placeholderFor := by
  induction l generalizing g with
  | nil => exact ⟨[], (List.append_nil _).symm, fun _ h => h⟩
  | cons n rest ih =>
    obtain ⟨here, others⟩ := List.forall_mem_cons.1 there
    obtain ⟨fresh, nodes, named⟩ := ih (contains_addPlaceholder_of_forall here others)
    rw [nodes_addPlaceholder here] at nodes
    by_cases taken : g.contains (placeholderFor n)
    · rw [if_pos taken] at nodes
      exact ⟨fresh, nodes, fun m hm => List.mem_cons_of_mem _ (named m hm)⟩
    · rw [if_neg taken, List.append_assoc] at nodes
      refine ⟨placeholderFor n :: fresh, nodes, fun m hm => ?_⟩
      rcases List.mem_cons.1 hm with rfl | hm
      · exact List.mem_cons_self
      · exact List.mem_cons_of_mem _ (named m hm)

theorem meta?_addPlaceholders (wf : g.WellFormed) (there : ∀ n ∈ l, g.contains n) :
    (eachSilent addPlaceholder l g).meta? k =
      if k ∈ l.map placeholderFor then some (placeholderMeta g k) else g.meta? k := by
  induction l generalizing g with
  | nil => rfl
  | cons n rest ih =>
    obtain ⟨here, others⟩ := List.forall_mem_cons.1 there
    refine (ih (wellFormed_addPlaceholder wf)
      (contains_addPlaceholder_of_forall here others)).trans ?_
    rw [meta?_addPlaceholder wf here, placeholderMeta_addPlaceholder, List.map_cons]
    by_cases later : k ∈ rest.map placeholderFor
    · rw [if_pos later, if_pos (List.mem_cons_of_mem _ later)]
    · rw [if_neg later]
      refine if_congr ?_ rfl rfl
      rw [List.mem_cons, or_iff_left later, eq_comm]

theorem children_addPlaceholders (once : l.Nodup) (childless : ∀ n ∈ l, g.children n = []) :
    (eachSilent addPlaceholder l g).children k =
      if k ∈ l then [placeholderFor k] else g.children k := by
  induction l generalizing g with
  | nil => rfl
  | cons n rest ih =>
    obtain ⟨fresh, once⟩ := List.nodup_cons.1 once
    obtain ⟨none, others⟩ := List.forall_mem_cons.1 childless
    have still : ∀ m ∈ rest, (addPlaceholder g n).children m = [] := by
      intro m hm
      have other : m ≠ n := fun same => fresh (same ▸ hm)
      exact (children_addPlaceholder other).trans (others m hm)
    refine (ih once still).trans ?_
    by_cases own : k = n
    · subst own
      rw [if_neg fresh, if_pos List.mem_cons_self, children_addPlaceholder_self k none]
    · rw [children_addPlaceholder own]
      refine if_congr ?_ rfl rfl
      rw [List.mem_cons, or_iff_right own]

/-! ### Whose turn it is -/

theorem filling_sublist (l : List NodeId) : (filling p g l).Sublist l := by
  induction l generalizing g with
  | nil => exact .slnil
  | cons n rest ih =>
    rw [filling]
    split
    · exact ih.cons_cons n
    · exact ih.cons n

theorem childless_of_mem_filling (once : l.Nodup) (h : n ∈ filling p g l) :
    g.children n = [] := by
  induction l generalizing g with
  | nil => exact absurd h List.not_mem_nil
  | cons m rest ih =>
    obtain ⟨fresh, once⟩ := List.nodup_cons.1 once
    rw [filling] at h
    split at h
    · next hollow =>
      rcases List.mem_cons.1 h with rfl | later
      · rw [isHollow, Bool.and_eq_true, List.isEmpty_iff] at hollow
        exact hollow.1
      · have other : n ≠ m := fun same => fresh (same ▸ (filling_sublist rest).subset later)
        exact (children_addPlaceholder other).symm.trans (ih once later)
    · exact ih once h

/-- A node is filled exactly if it is a container without children, unless it was made a placeholder
    before its turn and that made a difference to what it is. -/
theorem mem_filling_iff (wf : g.WellFormed) (there : ∀ m ∈ l, g.contains m)
    (sorted : l.Pairwise (· < ·))
    (steady : ∀ m ∈ filling p g l, m < n → placeholderFor m = n →
      p.isGroup (g.typeOf n) = p.isGroup placeholderType) :
    n ∈ filling p g l ↔ n ∈ l ∧ isHollow p g n := by
  induction l generalizing g with
  | nil => simp [filling]
  | cons a rest ih =>
    obtain ⟨here, others⟩ := List.forall_mem_cons.1 there
    obtain ⟨first, sorted⟩ := List.pairwise_cons.1 sorted
    rw [filling] at steady ⊢
    by_cases hollow : isHollow p g a
    · rw [if_pos hollow] at steady ⊢
      by_cases own : n = a
      · subst own
        simp [hollow]
      rw [List.mem_cons, or_iff_right own, List.mem_cons, or_iff_right own]
      by_cases later : n ∈ rest
      -- The node waits in a graph in which it may have become the placeholder that was just made.
      · have now := steady a List.mem_cons_self (first n later)
        rw [ih (wellFormed_addPlaceholder wf) (contains_addPlaceholder_of_forall here others) sorted
          fun m hm lt made => (isGroup_addPlaceholder wf here now).trans
            (steady m (List.mem_cons_of_mem _ hm) lt made),
          isHollow_addPlaceholder wf here own fun _ => now]
      · exact iff_of_false (fun h => later ((filling_sublist rest).subset h)) fun h => later h.1
    · rw [if_neg hollow] at steady ⊢
      rw [ih wf others sorted steady, List.mem_cons, or_and_right]
      refine (or_iff_right ?_).symm
      rintro ⟨rfl, hollow'⟩
      exact hollow hollow'

/-- A node that is made a placeholder before its turn is then looked at as one. -/
theorem placeholder_mem_filling_iff (wf : g.WellFormed)
    (there : ∀ m ∈ l, g.contains m) (sorted : l.Pairwise (· < ·)) (filled : a ∈ filling p g l)
    (before : a < placeholderFor a) (waiting : placeholderFor a ∈ l)
    (childless : g.children (placeholderFor a) = []) :
    placeholderFor a ∈ filling p g l ↔ p.isGroup placeholderType := by
  induction l generalizing g with
  | nil => exact absurd filled List.not_mem_nil
  | cons x rest ih =>
    obtain ⟨here, others⟩ := List.forall_mem_cons.1 there
    obtain ⟨first, ordered⟩ := List.pairwise_cons.1 sorted
    -- The node whose turn it is cannot be the placeholder, as its container comes before it.
    have notFirst : a ∈ x :: rest → placeholderFor a ≠ x := by
      rintro inside rfl
      rcases List.mem_cons.1 inside with same | later
      · exact placeholderFor_ne a same.symm
      · exact absurd (first a later) (String.lt_asymm before)
    have inside : a ∈ x :: rest := (filling_sublist _).subset filled
    have other := notFirst inside
    have later : placeholderFor a ∈ rest := (List.mem_cons.1 waiting).resolve_left other
    rw [filling] at filled ⊢
    split at filled
    · next hollow =>
      have wf' : (addPlaceholder g x).WellFormed := wellFormed_addPlaceholder wf
      have there' := contains_addPlaceholder_of_forall here others
      have childless' : (addPlaceholder g x).children (placeholderFor a) = [] :=
        (children_addPlaceholder other).trans childless
      rw [if_pos hollow, List.mem_cons, or_iff_right other]
      rcases List.mem_cons.1 filled with rfl | filled
      · have type := typeOf_placeholder wf here
        have turn := mem_filling_iff (p := p) (n := placeholderFor a) wf' there' ordered
          fun _ _ _ _ => by rw [type]
        rw [turn, isHollow, childless', type]
        simp [later]
      · exact ih wf' there' ordered filled later childless'
    · next hollow =>
      rw [if_neg hollow]
      exact ih wf others ordered filled later childless

/-- A node without children that is made a placeholder before its turn comes is a container exactly
    if placeholders are, so its turn comes out the same. -/
def Clear (p : Rules.Providers) (g : Graph) : Prop :=
  ∀ m ∈ hollow p g, m < placeholderFor m → g.contains (placeholderFor m) →
    g.children (placeholderFor m) = [] →
    p.isGroup (g.typeOf (placeholderFor m)) = p.isGroup placeholderType

/-- Exactly the containers without children are filled if it comes out the same for all that are
    made placeholders before their turn, and only then. -/
theorem clear_iff (wf : g.WellFormed) :
    Clear p g ↔ ∀ n, n ∈ filling p g g.sortedNodes ↔ n ∈ hollow p g := by
  have there : ∀ m ∈ g.sortedNodes, g.contains m := fun m => mem_sortedNodes.1
  have sorted : g.sortedNodes.Pairwise (· < ·) := Keyed.pairwise_keySet g.nodes
  constructor
  · intro clear n
    rw [filling_eq_filter wf there sorted fun m hm hollow' lt waiting =>
      clear m (List.mem_filter.2 ⟨hm, hollow'⟩) lt (there _ waiting)]
    rfl
  · intro same m hollow' lt waiting none
    have filled : m ∈ filling p g g.sortedNodes := (same m).2 hollow'
    have waiting' : placeholderFor m ∈ g.sortedNodes := mem_sortedNodes.2 waiting
    have turn := placeholder_mem_filling_iff wf there sorted filled lt waiting' none
    rw [same, hollow, List.mem_filter, and_iff_right waiting', isHollow, none] at turn
    simpa using Bool.eq_iff_iff.2 turn

/-! ### Validation in place -/

/-- Removes a node without children now and without parents before, unless it is a container, and
    says so. -/
def sweep (p : Rules.Providers) (before : Graph) (s : Graph × List NodeId) (node : NodeId) :
    Graph × List NodeId :=
  let (g, removed) := s
  if (g.children node).isEmpty && (before.parents node).isEmpty && !p.isGroup (g.typeOf node) then
    ((g.removeNode node).1, removed ++ [node])
  else s

/-- Validation that changes the graph it is given: what it answers, and what has become of the
    graph by then. -/
def validateInPlace (keepStandalone : Bool) (p : Rules.Providers) (g : Graph) :
    Except Error Report × Graph :=
  match checkShared p g with
  | .error e => (.error e, g)
  | .ok () =>
    let (swept, removed) :=
      if keepStandalone then (g, []) else g.sortedNodes.foldl (sweep p g) (g, [])
    let (filled, placeholders) := fillAll p swept
    match filled.checkIntegrity "validate" with
    -- Nothing is taken back by now.
    | .error e => (.error e, filled)
    | .ok () => (.ok ⟨removed, placeholders⟩, filled)

/-- What is found turn by turn is what could be said at once. -/
theorem foldl_sweep (wf : g.WellFormed) (once : l.Nodup)
    (same : ∀ k, h.children k = g.children k) (types : ∀ n ∈ l, h.typeOf n = g.typeOf n)
    (made : List NodeId) :
    let test := fun n =>
      (g.children n).isEmpty && (g.parents n).isEmpty && !p.isGroup (g.typeOf n)
    l.foldl (sweep p g) (h, made) = (removeAll (l.filter test) h, made ++ l.filter test) := by
  intro test
  induction l generalizing h made with
  | nil => simp [removeAll, eachSilent]
  | cons n rest ih =>
    obtain ⟨fresh, once⟩ := List.nodup_cons.1 once
    obtain ⟨type, types⟩ := List.forall_mem_cons.1 types
    have turn : sweep p g (h, made) n =
        if test n then ((h.removeNode n).1, made ++ [n]) else (h, made) := by
      unfold sweep
      dsimp only
      rw [same, type]
    rw [List.foldl_cons, turn, List.filter_cons]
    split
    · next standalone =>
      simp only [test, Bool.and_eq_true, List.isEmpty_iff] at standalone
      obtain ⟨⟨children, parents⟩, -⟩ := standalone
      -- Nobody's children change with it, so the next turn reads what the first one would have.
      have loose : Loose h n := by
        intro a
        rw [Edge, Edge, same, same, children, ← mem_parents wf.nodup, parents]
        exact ⟨List.not_mem_nil, List.not_mem_nil⟩
      rw [ih once (fun k => (children_removeNode_loose loose).trans (same k)) fun m hm => ?_]
      · rw [List.append_assoc]
        rfl
      · have other : m ≠ n := fun e => fresh (e ▸ hm)
        exact (typeOf_removeNode other).trans (types m hm)
    · exact ih once same types made

/-- Looking again after each removal makes no difference, and a graph that is refused stays as it
    was. -/
theorem validateInPlace_eq (wf : g.WellFormed) : validateInPlace keep p g =
    match validate keep p g with
    | .ok (g', r) => (.ok r, g')
    | .error e => (.error e, g) := by
  have swept : (if keep then (g, []) else g.sortedNodes.foldl (sweep p g) (g, [])) =
      (kept keep p g, dropped keep p g) := by
    cases keep with
    | true => rfl
    | false => exact foldl_sweep wf (Keyed.nodup_keySet g.nodes) (fun _ => rfl) (fun _ _ => rfl) []
  unfold validateInPlace
  rw [swept]
  by_cases drawable : Drawable p g
  · obtain ⟨_, -, filled⟩ := filled_fillAll (p := p) (wellFormed_kept (p := p) keep wf)
    have intact := filled.wellFormed.check "validate"
    rw [validate_of_drawable wf drawable keep, (checkShared_ok_iff wf).2 drawable]
    dsimp only
    rw [intact]
  · obtain ⟨a, b, c, -, -, -, -, refused⟩ := checkShared_error wf drawable
    rw [validate, refused]
    rfl

/-! ### The frame -/

/-- What validation does to a graph, and that it does nothing else. -/
structure Frame (keepStandalone : Bool) (p : Rules.Providers) (g g' : Graph) (r : Report) :
    Prop where
  /-- Only nodes without edges go that are no containers. -/
  removed : ∀ n, n ∈ r.removed ↔ keepStandalone = false ∧ g.contains n ∧ g.children n = [] ∧
    g.parents n = [] ∧ p.isGroup (g.typeOf n) = false
  /-- The others stay in their order, and new placeholders come after them. -/
  order : ∃ fresh, g'.nodes = g.nodes.filter (· ∉ r.removed) ++ fresh ∧
    ∀ n ∈ fresh, n ∈ r.placeholders
  /-- Only the labels of edges to nodes that went are lost. -/
  metadata : ∀ n, n ∉ r.removed → n ∉ r.placeholders →
    g'.meta? n = (g.meta? n).map (dropLabels (· ∈ r.removed))
  /-- Placeholders are hidden and made up. -/
  hidden : ∀ n ∈ r.placeholders, ∃ m, g'.meta? n = some m ∧ m.hidden ∧ m.synthetic
  /-- Nodes that are no placeholders get one as their only child if they are containers without
      children, and keep their children otherwise. -/
  children : ∀ n, n ∉ r.placeholders →
    g'.children n = if n ∈ hollow p g then [placeholderFor n] else g.children n
  /-- No other child comes or goes. -/
  childless : ∀ n, g'.children n = g.children n ∨
    (g.children n = [] ∧ g'.children n = [placeholderFor n])
  /-- The placeholders are the children that are new. -/
  placeholders : ∀ q, q ∈ r.placeholders ↔ ∃ n, g.children n = [] ∧ g'.children n = [q]

/-- The children after validation. -/
theorem children_fillAll_kept (wf : g.WellFormed) : (fillAll p (kept keep p g)).1.children n =
    if n ∈ filling p (kept keep p g) (kept keep p g).sortedNodes then [placeholderFor n]
    else g.children n := by
  have once : (kept keep p g).sortedNodes.Nodup := Keyed.nodup_keySet _
  rw [fillAll_eq_filling, children_addPlaceholders ((filling_sublist _).nodup once)
    fun m hm => childless_of_mem_filling once hm, children_kept wf]

theorem frame_of_ok (wf : g.WellFormed) (ok : validate keep p g = .ok (g', r)) :
    Frame keep p g g' r := by
  obtain ⟨-, rfl, rfl⟩ := (validate_ok_iff wf).1 ok
  have wf' : (kept keep p g).WellFormed := wellFormed_kept keep wf
  have children : ∀ n, (fillAll p (kept keep p g)).1.children n = _ :=
    fun n => children_fillAll_kept wf
  have sorted : (kept keep p g).sortedNodes.Pairwise (· < ·) := Keyed.pairwise_keySet _
  have there : ∀ m ∈ (kept keep p g).sortedNodes, (kept keep p g).contains m :=
    fun m => mem_sortedNodes.1
  rw [fillAll_eq_filling] at children ⊢
  generalize turns : filling p (kept keep p g) (kept keep p g).sortedNodes = filled at children ⊢
  have inside : ∀ m ∈ filled, (kept keep p g).contains m := fun m hm =>
    there m ((filling_sublist _).subset (turns ▸ hm))
  have none : ∀ m ∈ filled, g.children m = [] := fun m hm => by
    rw [← children_kept wf]
    exact childless_of_mem_filling (Keyed.nodup_keySet _) (turns ▸ hm)
  refine
    { removed := fun n => mem_dropped
      order := ?order
      metadata := fun n stays other => ?metadata
      hidden := fun n made => ?hidden
      children := fun n other => ?children
      childless := fun n => ?childless
      placeholders := fun q => ?placeholders }
  case order =>
    obtain ⟨fresh, nodes, named⟩ := nodes_addPlaceholders inside
    refine ⟨fresh, ?_, named⟩
    rw [nodes, kept, nodes_removeAll]
  case metadata =>
    rw [meta?_addPlaceholders wf' inside, if_neg other, kept, meta?_removeAll, if_neg stays]
  case hidden =>
    rw [meta?_addPlaceholders wf' inside, if_pos made]
    exact ⟨_, rfl, rfl, rfl⟩
  case children =>
    rw [children]
    refine if_congr ?_ rfl rfl
    have steady : ∀ m ∈ filled, m < n → placeholderFor m = n →
        p.isGroup ((kept keep p g).typeOf n) = p.isGroup placeholderType :=
      fun m hm _ made => absurd (made ▸ List.mem_map_of_mem hm) other
    rw [← turns] at steady ⊢
    rw [mem_filling_iff wf' there sorted steady, ← mem_hollow_kept wf, hollow, List.mem_filter]
  case childless =>
    rw [children]
    split
    · next hn => exact .inr ⟨none n hn, rfl⟩
    · exact .inl rfl
  case placeholders =>
    rw [List.mem_map]
    constructor
    · rintro ⟨n, hn, rfl⟩
      exact ⟨n, none n hn, by rw [children, if_pos hn]⟩
    · rintro ⟨n, before, after⟩
      rw [children] at after
      split at after
      · next hn => exact ⟨n, hn, List.singleton_inj.1 after⟩
      · rw [before] at after
        exact absurd after (by simp)

/-- Validation in place refuses the same graphs, for a shared child, and leaves them as they were;
    of any other graph it changes only what it says. Exactly the containers without children get a
    placeholder as their child exactly if it makes no difference to any node that it is made a
    placeholder before its turn. -/
theorem validate_frame (wf : g.WellFormed) (keep : Bool) (p : Rules.Providers) :
    (∀ e, validate keep p g = .error e →
      (∃ a b c, e = .sharedChild "validate" a b c) ∧ validateInPlace keep p g = (.error e, g)) ∧
    ∀ g' r, validate keep p g = .ok (g', r) →
      validateInPlace keep p g = (.ok r, g') ∧ Frame keep p g g' r ∧
      ((∀ n, g'.children n = if n ∈ hollow p g then [placeholderFor n] else g.children n) ↔
        Clear p (kept keep p g)) := by
  refine ⟨fun e refused => ?_, fun g' r ok => ⟨?_, frame_of_ok wf ok, ?_⟩⟩
  · refine ⟨?_, by rw [validateInPlace_eq wf, refused]⟩
    by_cases drawable : Drawable p g
    · rw [validate_of_drawable wf drawable keep] at refused
      exact absurd refused (by simp)
    · obtain ⟨a, b, c, -, -, -, -, refused'⟩ := validate_of_not_drawable wf drawable keep
      exact ⟨a, b, c, (Except.error.inj (refused'.symm.trans refused)).symm⟩
  · rw [validateInPlace_eq wf, ok]
  · obtain ⟨-, rfl, rfl⟩ := (validate_ok_iff wf).1 ok
    rw [clear_iff (wellFormed_kept keep wf)]
    refine forall_congr' fun n => ?_
    rw [children_fillAll_kept wf, mem_hollow_kept wf]
    have filled : n ∈ filling p (kept keep p g) (kept keep p g).sortedNodes →
        g.children n = [] := fun hn =>
      children_kept wf ▸ childless_of_mem_filling (Keyed.nodup_keySet _) hn
    have waiting : n ∈ hollow p g → g.children n = [] := fun hn =>
      List.isEmpty_iff.1 (Bool.and_eq_true_iff.1 (List.mem_filter.1 hn).2).1
    split <;> split <;> simp_all

/-- A subnet with an instance, and a network and an address without edges. -/
def scattered : Graph :=
  let subnet := ((Graph.empty "aws").addEdge "aws_subnet.a" "aws_instance.web").1
  (subnet.insertNode "aws_vpc.empty" (NodeMeta.forId "aws_vpc.empty")).insertNode "aws_eip.lone"
    (NodeMeta.forId "aws_eip.lone")

/-- Two networks that share a subnet. -/
def straddled : Graph :=
  (((Graph.empty "aws").addEdge "aws_vpc.a" "aws_subnet.s").1.addEdge "aws_vpc.b" "aws_subnet.s").1

/-- The theorem at a graph that is tidied and at one that is refused. -/
theorem validate_frame_scattered :
    (scattered.WellFormed ∧ ∃ g' r, validate false networks scattered = .ok (g', r) ∧
      r = ⟨["aws_eip.lone"], ["tv_placeholder.aws_vpc_empty"]⟩ ∧
      Frame false networks scattered g' r ∧
      ∀ n, g'.children n =
        if n ∈ hollow networks scattered then [placeholderFor n] else scattered.children n) ∧
    straddled.WellFormed ∧
      ∃ e, validateInPlace false networks straddled = (.error e, straddled) := by
  have wf : scattered.WellFormed := wellFormed_insertNode (wellFormed_insertNode
    (wellFormed_addEdge (wellFormed_empty "aws")))
  have drawable : Drawable networks scattered := drawable_of_allNested wf (by decide +kernel)
  have ok := validate_of_drawable wf drawable false
  have clear : Clear networks (kept false networks scattered) := by
    unfold Clear
    decide +kernel
  obtain ⟨-, frame, padded⟩ := (validate_frame wf false networks).2 _ _ ok
  have wf' : straddled.WellFormed :=
    wellFormed_addEdge (wellFormed_addEdge (wellFormed_empty "aws"))
  have conflict : isConflict networks straddled "aws_vpc.a" "aws_vpc.b" "aws_subnet.s" := by
    decide +kernel
  obtain ⟨_, _, _, -, -, -, -, refused⟩ :=
    validate_of_not_drawable wf' (not_drawable_of_conflict wf'.nodup conflict) false
  exact ⟨⟨wf, _, _, ok, by decide +kernel, frame, padded.2 clear⟩, wf', _,
    ((validate_frame wf' false networks).1 _ refused).2⟩

/-- A network, and a second one that has the name of the first one's placeholder. -/
def overwritten : Graph :=
  ((Graph.empty "aws").insertNode "aws_vpc.a" (NodeMeta.forId "aws_vpc.a")).insertNode
    "tv_placeholder.aws_vpc_a"
    { NodeMeta.forId "tv_placeholder.aws_vpc_a" with resourceType := "aws_vpc" }

/-- A container without children may get no placeholder. -/
theorem validate_unpadded : overwritten.WellFormed ∧
    "tv_placeholder.aws_vpc_a" ∈ hollow networks overwritten ∧
    ∃ g' r, validate false networks overwritten = .ok (g', r) ∧
      g'.children "tv_placeholder.aws_vpc_a" = [] := by
  have wf : overwritten.WellFormed :=
    wellFormed_insertNode (wellFormed_insertNode (wellFormed_empty "aws"))
  have drawable : Drawable networks overwritten := drawable_of_allNested wf (by decide +kernel)
  exact ⟨wf, by decide +kernel, _, _, validate_of_drawable wf drawable false, by decide +kernel⟩

end Cartograph.Validation

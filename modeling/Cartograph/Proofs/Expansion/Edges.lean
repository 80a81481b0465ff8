import Mathlib.Tactic.Tauto
import Cartograph.Proofs.Containment
import Cartograph.Proofs.Expansion.Splitting

/-!
# Where edges come from

The log of an expansion has the splits that it makes (`splitsMade`): first those that metadata ask
for, then those between containers. With it every node of the result has an *origin*, the node that
it was split from, and every other node is its own (`origin`).

Each step makes a graph that *descends* from the one before it (`Descends`): its edges come from
edges between the origins, and every edge is the origin of one that is still there, or of one that a
numbered node has lost to a single container (`Dropped`). What a container and a numbered node have
lost, they do not get back, as neither of them is ever split between containers (`Fixed`). So
descent goes through the whole expansion (`expand_edges`).
-/

namespace Cartograph.Expansion

open Graph Arrangement Rules Containment

variable {p : Providers} {g g' g'' h : Graph} {s : Split} {m : NodeMeta} {n a b c : NodeId}
  {splits : List Split} {nodes : List NodeId} {found found' : List Diagnostic}

/-! ### The log -/

/-- Whether a split is made: its node is there, and no name of a sibling is taken. -/
def isMade (g : Graph) (s : Split) : Bool :=
  (g.meta? s.node).isSome && (s.siblings.find? g.contains).isNone

/-- The splits of a list that are made, one after the other. -/
def made : List Split → Graph → List Split
  | [], _ => []
  | s :: rest, g => (if isMade g s then [s] else []) ++ made rest (split g s).1

/-- The split that puts a node into its containers, with a sibling for each. -/
def separation? (p : Providers) (g : Graph) (node : NodeId) : Option Split :=
  if !g.contains node || p.isGroup (g.typeOf node) || (NodeId.suffix? node).isSome then none
  else match innermostGroups p g node with
    | first :: second :: rest =>
      some ⟨node, (first :: second :: rest).length, [], first :: second :: rest⟩
    | _ => none

/-- The splits that separating the containers of a node makes: one or none. -/
def madeFor (p : Providers) (g : Graph) (node : NodeId) : List Split :=
  ((separation? p g node).filter (isMade g)).toList

/-- The splits between containers that are made. -/
def madeBetween (p : Providers) : List NodeId → Graph → List Split
  | [], _ => []
  | node :: rest, g => madeFor p g node ++ madeBetween p rest (separate p g node).1

/-- The graph with the splits that metadata ask for. -/
def planned (p : Providers) (g : Graph) : Graph := (each split (plannedSplits p g) g).1

/-- All splits that an expansion makes. -/
def splitsMade (p : Providers) (g : Graph) : List Split :=
  made (plannedSplits p g) g ++ madeBetween p (planned p g).sortedNodes (planned p g)

/-- The node that a node of the result was split from. -/
def origin (splits : List Split) (n : NodeId) : NodeId := splits.foldr Split.origin n

theorem origin_append (splits splits' : List Split) :
    origin (splits ++ splits') = origin splits ∘ origin splits' :=
  funext fun _ => List.foldr_append

/-- What is no sibling is its own origin. -/
theorem origin_eq_self (other : ∀ s ∈ splits, n ∉ s.siblings) : origin splits n = n := by
  induction splits with
  | nil => rfl
  | cons s rest ih =>
    obtain ⟨first, others⟩ := List.forall_mem_cons.1 other
    change s.origin (origin rest n) = n
    rw [ih others]
    exact if_neg first

theorem suffix?_of_mem_siblings (word : s.count < Nat.pow 2 64) (h : n ∈ s.siblings) :
    (NodeId.suffix? n).isSome := by
  obtain ⟨i, below, rfl⟩ := Split.mem_siblings.1 h
  rw [Split.sibling, NodeId.suffix?_withSuffix _ (by omega)]
  rfl

theorem not_mem_siblings (word : s.count < Nat.pow 2 64) (plain : NodeId.suffix? n = none) :
    n ∉ s.siblings := by
  intro inside
  have numbered := suffix?_of_mem_siblings word inside
  rw [plain] at numbered
  exact absurd numbered (by simp)

/-- The origin of a sibling is the node that was split, as long as numbers are words. -/
theorem origin_of_mem_siblings (plain : ∀ s ∈ splits, NodeId.suffix? s.node = none)
    (words : ∀ s ∈ splits, s.count < Nat.pow 2 64) (inside : s ∈ splits)
    (sibling : n ∈ s.siblings) : origin splits n = s.node := by
  induction splits generalizing s with
  | nil => exact absurd inside List.not_mem_nil
  | cons t rest ih =>
    obtain ⟨firstPlain, plain⟩ := List.forall_mem_cons.1 plain
    obtain ⟨firstWord, words⟩ := List.forall_mem_cons.1 words
    change t.origin (origin rest n) = s.node
    by_cases later : ∃ s' ∈ rest, n ∈ s'.siblings
    · -- Splits with a common sibling are splits of one node, and that is no sibling.
      obtain ⟨s', inside', sibling'⟩ := later
      obtain ⟨i, -, same⟩ := Split.mem_siblings.1 sibling
      obtain ⟨j, -, same'⟩ := Split.mem_siblings.1 sibling'
      have node : s'.node = s.node := (NodeId.withSuffix_inj (same'.trans same.symm)).1
      rw [ih plain words inside' sibling', ← node]
      exact if_neg (not_mem_siblings firstWord (plain s' inside'))
    · have later : ∀ s' ∈ rest, n ∉ s'.siblings := fun s' hs' hn => later ⟨s', hs', hn⟩
      rcases List.mem_cons.1 inside with rfl | inside
      · rw [origin_eq_self later]
        exact if_pos sibling
      · exact absurd sibling (later s inside)

/-! ### Descent -/

/-- A graph made from another one: its edges come from edges between the origins, and every edge
    is the origin of one, unless it is lost. -/
structure Descends (origin : NodeId → NodeId) (lost : NodeId → NodeId → Prop) (g h : Graph) :
    Prop where
  wellFormed : h.WellFormed
  edge : ∀ a b, h.Edge a b → g.Edge (origin a) (origin b)
  kept : ∀ a b, g.Edge a b → ∃ a' b', origin a' = a ∧ origin b' = b ∧ (h.Edge a' b' ∨ lost a' b')

namespace Descends

variable {f f' : NodeId → NodeId} {lost lost' : NodeId → NodeId → Prop}

theorem refl (wf : g.WellFormed) : Descends id lost g g :=
  ⟨wf, fun _ _ h => h, fun a b h => ⟨a, b, rfl, rfl, .inl h⟩⟩

theorem mono (d : Descends f lost g h) (more : ∀ a b, lost a b → lost' a b) :
    Descends f lost' g h :=
  ⟨d.wellFormed, d.edge, fun a b e => by
    obtain ⟨a', b', ha, hb, still⟩ := d.kept a b e
    exact ⟨a', b', ha, hb, still.imp_right (more a' b')⟩⟩

/-- What was lost first stays lost. -/
theorem trans (d : Descends f lost g g') (d' : Descends f' lost' g' g'')
    (stays : ∀ a b, lost a b → ∃ a' b', f' a' = a ∧ f' b' = b ∧ lost' a' b') :
    Descends (f ∘ f') lost' g g'' where
  wellFormed := d'.wellFormed
  edge a b e := d.edge _ _ (d'.edge a b e)
  kept a b e := by
    obtain ⟨a', b', rfl, rfl, there | gone⟩ := d.kept a b e
    · obtain ⟨a, b, rfl, rfl, still⟩ := d'.kept a' b' there
      exact ⟨a, b, rfl, rfl, still⟩
    · obtain ⟨a, b, rfl, rfl, still⟩ := stays a' b' gone
      exact ⟨a, b, rfl, rfl, .inr still⟩

end Descends

theorem Replaces.descends (r : Replaces s m g h) :
    Descends s.origin (fun _ _ => False) g h where
  wellFormed := r.wellFormed
  edge := r.edge
  kept a b e := by
    obtain ⟨a', b', ha, hb, edge⟩ := r.kept a b e
    exact ⟨a', b', ha, hb, .inl edge⟩

/-! ### Splits that metadata ask for -/

/-- A split is made or changes nothing. -/
theorem split_made (wf : g.WellFormed) (sensible : Sensible g s) :
    (isMade g s = true ∧ ∃ m, g.meta? s.node = some m ∧ Replaces s m g (split g s).1) ∨
      isMade g s = false ∧ (split g s).1 = g := by
  unfold isMade
  rcases split_cases wf sensible with ⟨none, same⟩ | ⟨m, taken, found, first, same⟩ | ⟨m, found, r⟩
  · exact .inr ⟨by rw [none]; rfl, by rw [same]⟩
  · exact .inr ⟨by rw [first]; simp, by rw [same]⟩
  · have free : s.siblings.find? g.contains = none :=
      List.find?_eq_none.2 fun n inside there => r.fresh n inside there
    exact .inl ⟨by rw [found, free]; rfl, m, found, r⟩

theorem descends_split (wf : g.WellFormed) (sensible : Sensible g s) :
    Descends (origin (if isMade g s then [s] else [])) (fun _ _ => False) g (split g s).1 := by
  rcases split_made wf sensible with ⟨yes, m, -, r⟩ | ⟨no, same⟩
  · rw [if_pos yes]
    exact r.descends
  · rw [if_neg (by simp [no]), same]
    exact .refl wf

/-- Splits without containers. -/
theorem descends_splits (wf : g.WellFormed) (sensible : ∀ s ∈ splits, ∀ g, Sensible g s) :
    Descends (origin (made splits g)) (fun _ _ => False) g (each split splits g).1 := by
  induction splits generalizing g with
  | nil => exact .refl wf
  | cons s rest ih =>
    obtain ⟨first, others⟩ := List.forall_mem_cons.1 sensible
    have here := descends_split wf (first g)
    rw [made, origin_append]
    exact here.trans (ih here.wellFormed others) fun _ _ gone => gone.elim

theorem suffix?_of_plan {node : NodeId} (h : plan? p node m = some s) :
    s.node = node ∧ NodeId.suffix? node = none := by
  unfold plan? at h
  split at h
  · exact absurd h (by simp)
  · next plain =>
    refine ⟨?_, by simpa using plain⟩
    split at h
    · cases h
      rfl
    · obtain ⟨⟨key, items⟩, -, h⟩ := Option.bind_eq_some_iff.1 h
      dsimp only at h
      split at h
      · exact absurd h (by simp)
      · cases h
        rfl

/-- A split that metadata ask for has siblings, a bag of attributes for each or none, and no
    containers. -/
theorem sensible_of_plan {node : NodeId} (h : plan? p node m = some s) (g : Graph) :
    Sensible g s := by
  unfold plan? at h
  split at h
  · exact absurd h (by simp)
  · split at h
    · next several =>
      cases h
      refine ⟨by dsimp only; omega, ?_, fun _ h => absurd h List.not_mem_nil⟩
      dsimp only
      split
      · next same => exact Nat.le_of_eq same
      · exact Nat.zero_le _
    · obtain ⟨⟨key, items⟩, -, h⟩ := Option.bind_eq_some_iff.1 h
      dsimp only at h
      split at h
      · exact absurd h (by simp)
      · next several =>
        cases h
        refine ⟨by dsimp only; omega, ?_, fun _ h => absurd h List.not_mem_nil⟩
        exact Nat.le_of_eq (List.length_map _)

theorem mem_plannedSplits (h : s ∈ plannedSplits p g) :
    ∃ m, g.meta? s.node = some m ∧ plan? p s.node m = some s := by
  obtain ⟨node, -, h⟩ := List.mem_filterMap.1 h
  obtain ⟨m, found, h⟩ := Option.bind_eq_some_iff.1 h
  obtain ⟨rfl, -⟩ := suffix?_of_plan h
  exact ⟨m, found, h⟩

theorem sensible_of_mem_plannedSplits (h : s ∈ plannedSplits p g) (g' : Graph) :
    Sensible g' s := by
  obtain ⟨m, -, planned⟩ := mem_plannedSplits h
  exact sensible_of_plan planned g'

theorem suffix?_of_mem_plannedSplits (h : s ∈ plannedSplits p g) :
    NodeId.suffix? s.node = none := by
  obtain ⟨m, -, planned⟩ := mem_plannedSplits h
  exact (suffix?_of_plan planned).2

theorem descends_planned (p : Providers) (wf : g.WellFormed) :
    Descends (origin (made (plannedSplits p g) g)) (fun _ _ => False) g (planned p g) :=
  descends_splits wf fun _ => sensible_of_mem_plannedSplits

/-! ### Splits between containers -/

/-- The innermost containers are those that are not redundant. -/
theorem mem_innermostGroups (wf : g.WellFormed) :
    c ∈ innermostGroups p g n ↔ Holds p g c n ∧ ¬Redundant p g c n := by
  rw [innermostGroups, Keyed.mem_keySet, List.mem_filter, mem_groupParents wf.nodup]
  refine and_congr_right fun held => ?_
  rw [Bool.not_eq_true', ← Bool.not_eq_true, not_iff_not, List.any_eq_true]
  constructor
  · rintro ⟨q, inner, h⟩
    simp only [Bool.and_eq_true, decide_eq_true_eq, List.contains_iff_mem] at h
    exact ⟨held.edge, q, h.1, (mem_groupParents wf.nodup).1 inner,
      ((mem_ancestors_iff wf.nodup).1 h.2).2⟩
  · rintro ⟨-, q, ne, inner, above⟩
    refine ⟨q, (mem_groupParents wf.nodup).2 inner, ?_⟩
    simp only [Bool.and_eq_true, decide_eq_true_eq, List.contains_iff_mem]
    exact ⟨ne, (mem_ancestors_iff wf.nodup).2 ⟨ne.symm, above⟩⟩

/-- A numbered node stays in one of its containers. -/
theorem keepOne_cases {first : NodeId} {containers : List NodeId} (inside : first ∈ containers) :
    ∃ keep ∈ containers, keepOne n first containers g =
      (removeParents (containers.filter (· ≠ keep)) n g,
        [guess n ("already numbered, kept only in '" ++ keep ++ "'")]) := by
  refine ⟨_, ?_, rfl⟩
  cases own : containers.find? fun c => NodeId.suffix? c = NodeId.suffix? n with
  | none => exact inside
  | some keep => exact List.mem_of_find?_eq_some own

/-- What separating the containers of a node does: nothing, as it has at most one innermost
    container, or a split with a sibling for each of them, or it leaves a numbered node in one. -/
theorem separate_cases (p : Providers) (wf : g.WellFormed) (n : NodeId) :
    (separation? p g n = none ∧ separate p g n = (g, []) ∧
      (g.contains n → p.isGroup (g.typeOf n) = false →
        ∀ a ∈ innermostGroups p g n, ∀ b ∈ innermostGroups p g n, a = b)) ∨
    (∃ s, separation? p g n = some s ∧ separate p g n = split g s ∧ s.node = n ∧ Sensible g s ∧
      NodeId.suffix? n = none ∧ p.isGroup (g.typeOf n) = false ∧
      s.containers = innermostGroups p g n ∧ s.containers.length = s.count) ∨
    separation? p g n = none ∧ (NodeId.suffix? n).isSome ∧ p.isGroup (g.typeOf n) = false ∧
      ∃ keep ∈ innermostGroups p g n,
        separate p g n = (removeParents ((innermostGroups p g n).filter (· ≠ keep)) n g,
          [guess n ("already numbered, kept only in '" ++ keep ++ "'")]) := by
  have held : ∀ c ∈ innermostGroups p g n, g.Edge c n := fun _ hc =>
    ((mem_innermostGroups wf).1 hc).1.edge
  unfold separation? separate
  generalize innermostGroups p g n = groups at held ⊢
  by_cases out : (!g.contains n || p.isGroup (g.typeOf n)) = true
  · rw [if_pos out, if_pos (by simp [out])]
    exact .inl ⟨rfl, rfl, fun there plain => by simp [there, plain] at out⟩
  rw [if_neg out]
  have group := (Bool.or_eq_false_iff.1 (Bool.eq_false_iff.2 out)).2
  have sole : ∀ {c : NodeId}, ∀ a ∈ [c], ∀ b ∈ [c], a = b := fun a ha b hb =>
    (List.mem_singleton.1 ha).trans (List.mem_singleton.1 hb).symm
  cases number : NodeId.suffix? n with
  | none =>
    rw [if_neg (by simpa using out)]
    match groups, held with
    | [], _ => exact .inl ⟨rfl, rfl, fun _ _ a ha => absurd ha List.not_mem_nil⟩
    | [_], _ => exact .inl ⟨rfl, rfl, fun _ _ => sole⟩
    | first :: second :: rest, held =>
      exact .inr (.inl ⟨_, rfl, rfl, rfl, ⟨Nat.succ_pos _, Nat.zero_le _, held⟩, rfl, group, rfl,
        rfl⟩)
  | some k =>
    rw [if_pos (by simp)]
    match groups with
    | [] => exact .inl ⟨rfl, rfl, fun _ _ a ha => absurd ha List.not_mem_nil⟩
    | [_] => exact .inl ⟨rfl, rfl, fun _ _ => sole⟩
    | first :: second :: rest =>
      exact .inr (.inr ⟨rfl, rfl, group, keepOne_cases List.mem_cons_self⟩)

/-- Removing edges from several nodes to one. -/
theorem edge_removeParents {sources : List NodeId} :
    (removeParents sources n g).Edge a b ↔ g.Edge a b ∧ ¬(a ∈ sources ∧ b = n) := by
  unfold removeParents eachSilent
  induction sources generalizing g with
  | nil => simp
  | cons c rest ih =>
    rw [List.foldl_cons, ih, Edge, mem_children_removeEdge, List.mem_cons, Edge, eq_comm (a := c)]
    tauto

theorem wellFormed_removeParents {sources : List NodeId} (wf : g.WellFormed) :
    (removeParents sources n g).WellFormed := by
  unfold removeParents eachSilent
  induction sources generalizing g with
  | nil => exact wf
  | cons c rest ih => exact ih (wellFormed_removeEdge wf)

theorem contains_removeParents {sources : List NodeId} :
    (removeParents sources n g).contains a ↔ g.contains a := by
  unfold removeParents eachSilent
  induction sources generalizing g with
  | nil => rfl
  | cons c rest ih => exact ih.trans contains_removeEdge

theorem unlabelled_removeParents {sources : List NodeId} :
    ((removeParents sources n g).meta? a).map NodeMeta.unlabelled =
      (g.meta? a).map NodeMeta.unlabelled := by
  unfold removeParents eachSilent
  induction sources generalizing g with
  | nil => rfl
  | cons c rest ih =>
    rw [List.foldl_cons, ih, meta?_removeEdge]
    split
    · rw [Option.map_map]
      rfl
    · rfl

/-- The type of a node does not depend on labels. -/
theorem typeOf_unlabelled (found : Option NodeMeta) :
    NodeMeta.typeOf n (found.map NodeMeta.unlabelled) = NodeMeta.typeOf n found := by
  cases found <;> rfl

theorem typeOf_of_unlabelled
    (same : (h.meta? n).map NodeMeta.unlabelled = (g.meta? n).map NodeMeta.unlabelled) :
    h.typeOf n = g.typeOf n := by
  rw [typeOf, ← typeOf_unlabelled, same, typeOf_unlabelled, typeOf]

theorem madeFor_none (h : separation? p g n = none) : madeFor p g n = [] := by
  rw [madeFor, h]
  rfl

theorem madeFor_some (h : separation? p g n = some s) :
    madeFor p g n = if isMade g s then [s] else [] := by
  rw [madeFor, h, Option.filter_some]
  split <;> rfl

/-- Containers and numbered nodes, none of which is split between containers. -/
structure Fixed (p : Providers) (g : Graph) (n : NodeId) : Prop where
  there : g.contains n
  kind : p.isGroup (g.typeOf n) = true ∨ (NodeId.suffix? n).isSome

/-- What separating the containers of a node leaves as it is. -/
structure Leaves (p : Providers) (g h : Graph) (splits : List Split) (other : NodeId → Prop) :
    Prop where
  wellFormed : h.WellFormed
  contains : ∀ n, Fixed p g n → h.contains n
  typeOf : ∀ n, Fixed p g n → h.typeOf n = g.typeOf n
  origin : ∀ n, Fixed p g n → origin splits n = n
  edge : ∀ a b, Fixed p g a → Fixed p g b → other b → (h.Edge a b ↔ g.Edge a b)

theorem Leaves.fixed {other : NodeId → Prop} (l : Leaves p g h splits other) (fixed : Fixed p g n) :
    Fixed p h n := ⟨l.contains n fixed, (l.typeOf n fixed).symm ▸ fixed.kind⟩

theorem leaves_refl {other : NodeId → Prop} (wf : g.WellFormed) : Leaves p g g [] other :=
  ⟨wf, fun _ fixed => fixed.there, fun _ _ => rfl, fun _ _ => rfl, fun _ _ _ _ _ => .rfl⟩

theorem leaves_separate (p : Providers) (wf : g.WellFormed) (n : NodeId) :
    Leaves p g (separate p g n).1 (madeFor p g n) (· ≠ n) := by
  rcases separate_cases p wf n with ⟨none, same, -⟩ |
    ⟨s, some, same, rfl, sensible, plain, group, -⟩ | ⟨none, -, -, keep, -, same⟩
  · rw [same, madeFor_none none]
    exact leaves_refl wf
  · rw [same, madeFor_some some]
    have ne : ∀ {a}, Fixed p g a → a ≠ s.node := by
      rintro a ⟨-, container | numbered⟩ rfl
      · exact absurd container (by simp [group])
      · exact absurd numbered (by simp [plain])
    rcases split_made wf sensible with ⟨yes, m, -, r⟩ | ⟨no, unchanged⟩
    · have outside : ∀ {a}, Fixed p g a → a ∉ s.siblings := fun fixed inside =>
        r.fresh _ inside fixed.there
      rw [if_pos yes]
      exact ⟨r.wellFormed, fun a fixed => (r.contains a).2 (.inr ⟨ne fixed, fixed.there⟩),
        fun a fixed => typeOf_of_unlabelled (r.unlabelled a (ne fixed) (outside fixed)),
        fun a fixed => if_neg (outside fixed),
        fun a b ha hb _ => r.others a b (ne ha) (ne hb) ha.there hb.there⟩
    · rw [if_neg (by simp [no]), unchanged]
      exact leaves_refl wf
  · rw [same, madeFor_none none]
    exact ⟨wellFormed_removeParents wf, fun a fixed => contains_removeParents.2 fixed.there,
      fun a _ => typeOf_of_unlabelled unlabelled_removeParents, fun _ _ => rfl,
      fun a b _ _ other => edge_removeParents.trans (and_iff_left fun h => other h.2)⟩

theorem leaves_each (p : Providers) (wf : g.WellFormed) (nodes : List NodeId) :
    Leaves p g (each (separate p) nodes g).1 (madeBetween p nodes g) (· ∉ nodes) := by
  induction nodes generalizing g with
  | nil => exact leaves_refl wf
  | cons n rest ih =>
    have first := leaves_separate p wf n
    have later := ih first.wellFormed
    refine ⟨later.wellFormed, fun a fixed => later.contains a (first.fixed fixed),
      fun a fixed => (later.typeOf a (first.fixed fixed)).trans (first.typeOf a fixed),
      fun a fixed => ?_, fun a b ha hb other => ?_⟩
    · rw [madeBetween, origin_append, Function.comp, later.origin a (first.fixed fixed)]
      exact first.origin a fixed
    · rw [List.mem_cons, not_or] at other
      exact (later.edge a b (first.fixed ha) (first.fixed hb) other.2).trans
        (first.edge a b ha hb other.1)

/-! ### Lost edges -/

/-- An edge that a container has lost, as the numbered node at its end was left in a single one. -/
structure Dropped (p : Providers) (h : Graph) (found : List Diagnostic) (a b : NodeId) : Prop where
  container : p.isGroup (h.typeOf a) = true
  contains : h.contains a ∧ h.contains b
  gone : ¬h.Edge a b
  reported : ∃ keep, keep ≠ a ∧ p.isGroup (h.typeOf keep) = true ∧ h.Edge keep b ∧
    guess b ("already numbered, kept only in '" ++ keep ++ "'") ∈ found

theorem Dropped.mono (d : Dropped p h found a b) (more : found ⊆ found') :
    Dropped p h found' a b := by
  obtain ⟨container, there, gone, keep, other, group, edge, reported⟩ := d
  exact ⟨container, there, gone, keep, other, group, edge, more reported⟩

theorem descends_separate (p : Providers) (wf : g.WellFormed) (n : NodeId) :
    Descends (origin (madeFor p g n)) (fun a b => b = n ∧
      Dropped p (separate p g n).1 (separate p g n).2 a b ∧ (NodeId.suffix? n).isSome) g
      (separate p g n).1 := by
  rcases separate_cases p wf n with ⟨none, same, -⟩ |
    ⟨s, some, same, rfl, sensible, plain, group, -⟩ | ⟨none, numbered, -, keep, kept, same⟩
  · rw [same, madeFor_none none]
    exact .refl wf
  · rw [same, madeFor_some some]
    exact (descends_split wf sensible).mono fun _ _ gone => gone.elim
  · have leaves := leaves_separate p wf n
    rw [same, madeFor_none none] at leaves ⊢
    have held := fun c (hc : c ∈ innermostGroups p g n) => ((mem_innermostGroups wf).1 hc).1
    have own : Fixed p g n := ⟨wf.closed _ _ (held keep kept).edge, .inr numbered⟩
    refine ⟨leaves.wellFormed, fun a b e => (edge_removeParents.1 e).1, fun a b e => ?_⟩
    refine ⟨a, b, rfl, rfl, ?_⟩
    by_cases removed : a ∈ (innermostGroups p g n).filter (· ≠ keep) ∧ b = n
    · obtain ⟨inside, rfl⟩ := removed
      obtain ⟨inside, other⟩ := List.mem_filter.1 inside
      obtain ⟨-, container⟩ := held a inside
      have fixed : Fixed p g a := ⟨e.contains, .inl container⟩
      have fixed' : Fixed p g keep :=
        ⟨(held keep kept).edge.contains, .inl (held keep kept).isGroup⟩
      refine .inr ⟨rfl, ⟨?_, ⟨leaves.contains a fixed, leaves.contains b own⟩, ?_, keep, ?_, ?_, ?_,
        List.mem_singleton.2 rfl⟩, numbered⟩
      · rw [leaves.typeOf a fixed]
        exact container
      · exact fun still => (edge_removeParents.1 still).2 ⟨List.mem_filter.2 ⟨inside, other⟩, rfl⟩
      · exact fun e => of_decide_eq_true other e.symm
      · rw [leaves.typeOf keep fixed']
        exact (held keep kept).isGroup
      · refine edge_removeParents.2 ⟨(held keep kept).edge, fun h => ?_⟩
        exact absurd rfl (of_decide_eq_true (List.mem_filter.1 h.1).2)
    · exact .inl (edge_removeParents.2 ⟨e, removed⟩)

/-- A lost edge stays lost while other nodes are separated. -/
theorem Dropped.stays (d : Dropped p g found a n) (wf : g.WellFormed)
    (numbered : (NodeId.suffix? n).isSome) (outside : n ∉ nodes) :
    origin (madeBetween p nodes g) a = a ∧ origin (madeBetween p nodes g) n = n ∧
      Dropped p (each (separate p) nodes g).1 found a n := by
  have leaves := leaves_each p wf nodes
  obtain ⟨container, ⟨ha, hn⟩, gone, keep, other, group, edge, reported⟩ := d
  have fixedA : Fixed p g a := ⟨ha, .inl container⟩
  have fixedN : Fixed p g n := ⟨hn, .inr numbered⟩
  have fixedKeep : Fixed p g keep := ⟨edge.contains, .inl group⟩
  refine ⟨leaves.origin a fixedA, leaves.origin n fixedN, ?_,
    ⟨leaves.contains a fixedA, leaves.contains n fixedN⟩,
    fun e => gone ((leaves.edge a n fixedA fixedN outside).1 e), keep, other, ?_,
    (leaves.edge keep n fixedKeep fixedN outside).2 edge, reported⟩
  · rw [leaves.typeOf a fixedA]
    exact container
  · rw [leaves.typeOf keep fixedKeep]
    exact group

theorem descends_each (p : Providers) (wf : g.WellFormed) (nodup : nodes.Nodup) :
    Descends (origin (madeBetween p nodes g))
      (Dropped p (each (separate p) nodes g).1 (each (separate p) nodes g).2) g
      (each (separate p) nodes g).1 := by
  induction nodes generalizing g with
  | nil => exact .refl wf
  | cons n rest ih =>
    obtain ⟨outside, nodup⟩ := List.nodup_cons.1 nodup
    have first := descends_separate p wf n
    have later := (ih first.wellFormed nodup).mono fun a b d =>
      d.mono (List.subset_append_right (separate p g n).2 _)
    rw [madeBetween, origin_append]
    refine first.trans later ?_
    rintro a _ ⟨rfl, dropped, numbered⟩
    obtain ⟨ha, hb, still⟩ := dropped.stays first.wellFormed numbered outside
    exact ⟨a, _, ha, hb, still.mono (List.subset_append_left _ _)⟩

/-! ### Expansion -/

theorem descends_expand (p : Providers) (wf : g.WellFormed) :
    Descends (origin (splitsMade p g)) (Dropped p (expand p g).1 (expand p g).2) g
      (expand p g).1 := by
  have first := descends_planned p wf
  have later := descends_each p first.wellFormed (Keyed.nodup_keySet (planned p g).nodes)
  rw [splitsMade, origin_append]
  refine first.trans (later.mono fun a b d => d.mono ?_) fun _ _ gone => gone.elim
  exact List.subset_append_right _ _

theorem mem_of_mem_made (h : s ∈ made splits g) : s ∈ splits := by
  induction splits generalizing g with
  | nil => exact absurd h List.not_mem_nil
  | cons t rest ih =>
    rcases List.mem_append.1 h with h | h
    · split at h
      · exact List.mem_singleton.1 h ▸ List.mem_cons_self
      · exact absurd h List.not_mem_nil
    · exact List.mem_cons_of_mem _ (ih h)

theorem suffix?_of_separation (h : separation? p g n = some s) :
    NodeId.suffix? s.node = none := by
  unfold separation? at h
  split at h
  · exact absurd h (by simp)
  · next plain =>
    split at h
    · cases h
      simp only [Bool.not_eq_true, Bool.or_eq_false_iff] at plain
      simpa using plain.2
    · exact absurd h (by simp)

theorem suffix?_of_madeBetween (h : s ∈ madeBetween p nodes g) :
    NodeId.suffix? s.node = none := by
  induction nodes generalizing g with
  | nil => exact absurd h List.not_mem_nil
  | cons n rest ih =>
    rcases List.mem_append.1 h with h | h
    · exact suffix?_of_separation (Option.filter_eq_some_iff.1 (Option.mem_toList.1 h)).1
    · exact ih h

/-- Only nodes without number are split. -/
theorem suffix?_of_splitsMade (h : s ∈ splitsMade p g) : NodeId.suffix? s.node = none := by
  rcases List.mem_append.1 h with h | h
  · exact suffix?_of_mem_plannedSplits (mem_of_mem_made h)
  · exact suffix?_of_madeBetween h

/-- An expansion neither makes up edges nor loses any. Of a well-formed graph, whatever the
    providers are: siblings have the node that they were split from as origin, as long as numbers
    are words, and every other node has itself. The ends of every edge of the result have an edge
    between their origins. The ends of every edge before are the origins of the ends of an edge of
    the result, or the copy of the one in some container was dropped, with a finding about the
    copy. -/
theorem expand_edges (p : Providers) (g : Graph) (wf : g.WellFormed) :
    (∀ n, (∀ s ∈ splitsMade p g, n ∉ s.siblings) → origin (splitsMade p g) n = n) ∧
    ((∀ s ∈ splitsMade p g, s.count < Nat.pow 2 64) →
      ∀ s ∈ splitsMade p g, ∀ n ∈ s.siblings, origin (splitsMade p g) n = s.node) ∧
    (∀ a b, (a, b) ∈ (expand p g).1.edges →
      (origin (splitsMade p g) a, origin (splitsMade p g) b) ∈ g.edges) ∧
    ∀ u v, (u, v) ∈ g.edges → ∃ a b, origin (splitsMade p g) a = u ∧
      origin (splitsMade p g) b = v ∧
      ((a, b) ∈ (expand p g).1.edges ∨ Dropped p (expand p g).1 (expand p g).2 a b) := by
  have descends := descends_expand p wf
  have nodup := descends.wellFormed.nodup
  refine ⟨fun n => origin_eq_self, fun words s inside n => ?_, fun a b e => ?_, fun u v e => ?_⟩
  · exact origin_of_mem_siblings (fun _ => suffix?_of_splitsMade) words inside
  · exact (mem_edges wf.nodup).2 (descends.edge a b ((mem_edges nodup).1 e))
  · obtain ⟨a, b, ha, hb, kept⟩ := descends.kept u v ((mem_edges wf.nodup).1 e)
    exact ⟨a, b, ha, hb, kept.imp_left (mem_edges nodup).2⟩

/-- A subnet with a resource of two instances, and a numbered node that another subnet holds too. -/
def crowded : Graph :=
  let g := ((Graph.empty "aws").addEdge "aws_subnet.a" "aws_instance.web").1
  let g := g.modifyMeta "aws_instance.web" fun m => { m with cardinality := 2 }
  ((g.addEdge "aws_subnet.a" "aws_lb.x~1").1.addEdge "aws_subnet.b" "aws_lb.x~1").1

theorem wellFormed_crowded : crowded.WellFormed :=
  wellFormed_addEdge (wellFormed_addEdge (wellFormed_modifyMeta
    (wellFormed_addEdge (wellFormed_empty "aws"))))

/-- Providers with the containers of the table for networks. -/
def subnets : Providers := ⟨[⟨Aws.table, [], []⟩]⟩

/-- The theorem at a graph with an edge that is doubled and one that is dropped. -/
theorem expand_edges_crowded : crowded.WellFormed ∧
    (expand subnets crowded).1.edges = [("aws_subnet.a", "aws_lb.x~1"),
      ("aws_subnet.a", "aws_instance.web~1"), ("aws_subnet.a", "aws_instance.web~2")] ∧
    (∀ a b, (a, b) ∈ (expand subnets crowded).1.edges →
      (origin (splitsMade subnets crowded) a, origin (splitsMade subnets crowded) b) ∈
        crowded.edges) ∧
    ∃ a b, origin (splitsMade subnets crowded) a = "aws_subnet.b" ∧
      origin (splitsMade subnets crowded) b = "aws_lb.x~1" ∧
      ((a, b) ∈ (expand subnets crowded).1.edges ∨
        Dropped subnets (expand subnets crowded).1 (expand subnets crowded).2 a b) := by
  obtain ⟨-, -, edges, kept⟩ := expand_edges subnets crowded wellFormed_crowded
  exact ⟨wellFormed_crowded, by decide +kernel, edges, kept _ _ (by decide +kernel)⟩

end Cartograph.Expansion

import Cartograph.Proofs.Tidying

/-!
# What validation leaves

Containers get placeholders one after the other, each as it is found when its turn comes
(`Validation.filling`). In a sound graph these are the containers without children in the graph that
is tidied (`Validation.hollow`), since no placeholder makes a container of a node or takes its type
(`Validation.fillAll_eq`). So providers only matter for nodes without children: two of them leave
the same of a graph exactly if they take the same such nodes for containers
(`Validation.Agree.iff_children`).
-/

namespace Cartograph.Validation

open Graph Arrangement Containment

variable {g g' : Graph} {p p' : Rules.Providers} {keep : Bool} {a b c k n : NodeId}
  {l : List NodeId}

-- Nothing here depends on how an identifier is taken apart.
attribute [local irreducible] NodeId.parts

/-! ### Containers without children -/

/-- Whether a node is a container without children. -/
def isHollow (p : Rules.Providers) (g : Graph) (n : NodeId) : Bool :=
  (g.children n).isEmpty && p.isGroup (g.typeOf n)

/-- The containers without children, sorted. -/
def hollow (p : Rules.Providers) (g : Graph) : List NodeId := g.sortedNodes.filter (isHollow p g)

/-! ### Placeholders -/

/-- A container is not its own placeholder. -/
theorem placeholderFor_ne (n : NodeId) : placeholderFor n ≠ n := by
  intro same
  have small := NodeId.count_le_count_sanitize (c := 'v') (by decide) (by decide) (by decide) n
  have longer : n.toList.count 'v' = 1 + (NodeId.sanitize n).toList.count 'v' := by
    conv_lhs => rw [← same, placeholderFor, String.toList_append, String.toList_append]
    rw [List.count_append, List.count_append]
    rfl
  omega

theorem children_addPlaceholder (ne : k ≠ n) :
    (addPlaceholder g n).children k = g.children k := by
  unfold addPlaceholder
  dsimp only
  rw [children_addEdge (placeholderFor_ne n).symm, if_neg fun h => ne h.1.symm, children_insertNode]

/-- The metadata of a placeholder. -/
def placeholderMeta (g : Graph) (node : NodeId) : NodeMeta :=
  { madeUpMeta g node with hidden := true }

/-- A placeholder takes the place of a node that has its name. -/
theorem meta?_addPlaceholder (wf : g.WellFormed) (there : g.contains n) :
    (addPlaceholder g n).meta? k =
      if placeholderFor n = k then some (placeholderMeta g k) else g.meta? k := by
  unfold addPlaceholder
  dsimp only
  rw [meta?_addEdge (placeholderFor_ne n).symm, meta?_insertNode]
  by_cases same : placeholderFor n = k
  · subst same
    simp [placeholderMeta]
  · obtain ⟨m, found⟩ := Option.isSome_iff_exists.1 ((wf.sameNodes n).symm.trans there)
    rw [if_neg same, if_neg same, if_neg same, Option.or_none]
    by_cases own : n = k
    · rw [← own, found]
      rfl
    · rw [if_neg own, Option.or_none]

theorem typeOf_placeholder (wf : g.WellFormed) (there : g.contains n) :
    (addPlaceholder g n).typeOf (placeholderFor n) = placeholderType := by
  have plain : (placeholderFor n).IsPlain := NodeId.isPlain_sanitize (by decide) (by decide) n
  have named : (placeholderMeta g (placeholderFor n)).resourceType = placeholderType :=
    (NodeMeta.forId_type (placeholderFor n)).trans plain.resourceType_eq
  rw [typeOf, meta?_addPlaceholder wf there, if_pos rfl, NodeMeta.typeOf, named,
    if_neg (by decide)]

theorem contains_addPlaceholder_of_forall (here : g.contains n) (there : ∀ m ∈ l, g.contains m) :
    ∀ m ∈ l, (addPlaceholder g n).contains m :=
  fun m hm => (contains_addPlaceholder here).2 (.inr (there m hm))

/-- Whether a node is a container stays the same if its becoming a placeholder does not matter. -/
theorem isGroup_addPlaceholder (wf : g.WellFormed) (there : g.contains a)
    (steady : placeholderFor a = n → p.isGroup (g.typeOf n) = p.isGroup placeholderType) :
    p.isGroup ((addPlaceholder g a).typeOf n) = p.isGroup (g.typeOf n) := by
  by_cases made : placeholderFor a = n
  · rw [steady made, ← made, typeOf_placeholder wf there]
  · rw [typeOf_addPlaceholder (Ne.symm made)]

theorem isHollow_addPlaceholder (wf : g.WellFormed) (there : g.contains a) (other : n ≠ a)
    (steady : g.children n = [] → placeholderFor a = n →
      p.isGroup (g.typeOf n) = p.isGroup placeholderType) :
    isHollow p (addPlaceholder g a) n = isHollow p g n := by
  rw [isHollow, isHollow, children_addPlaceholder other]
  by_cases none : g.children n = []
  · rw [isGroup_addPlaceholder wf there (steady none)]
  · rw [List.isEmpty_eq_false_iff.2 none, Bool.false_and, Bool.false_and]

/-! ### Whose turn it is -/

/-- Of some nodes those that get placeholders, if each is looked at in the graph that the ones
    before it have left. -/
def filling (p : Rules.Providers) : Graph → List NodeId → List NodeId
  | _, [] => []
  | g, n :: rest =>
    if isHollow p g n then n :: filling p (addPlaceholder g n) rest else filling p g rest

theorem foldl_fill (l made : List NodeId) : l.foldl (fill p) (g, made) =
    (eachSilent addPlaceholder (filling p g l) g, made ++ (filling p g l).map placeholderFor) := by
  induction l generalizing g made with
  | nil => simp [filling, eachSilent]
  | cons n rest ih =>
    have turn : fill p (g, made) n = if isHollow p g n then
        (addPlaceholder g n, made ++ [placeholderFor n]) else (g, made) := rfl
    rw [List.foldl_cons, turn, filling]
    split
    · rw [ih, List.map_cons, List.append_assoc]
      rfl
    · exact ih made

theorem fillAll_eq_filling : fillAll p g =
    (eachSilent addPlaceholder (filling p g g.sortedNodes) g,
      (filling p g g.sortedNodes).map placeholderFor) :=
  foldl_fill g.sortedNodes []

/-- If it makes no difference to any node that it is made a placeholder before its turn, the nodes
    that are filled are known beforehand. -/
theorem filling_eq_filter (wf : g.WellFormed) (there : ∀ m ∈ l, g.contains m)
    (sorted : l.Pairwise (· < ·))
    (clear : ∀ m ∈ l, isHollow p g m → m < placeholderFor m → placeholderFor m ∈ l →
      g.children (placeholderFor m) = [] →
      p.isGroup (g.typeOf (placeholderFor m)) = p.isGroup placeholderType) :
    filling p g l = l.filter (isHollow p g) := by
  induction l generalizing g with
  | nil => rfl
  | cons a rest ih =>
    obtain ⟨here, others⟩ := List.forall_mem_cons.1 there
    obtain ⟨first, ordered⟩ := List.pairwise_cons.1 sorted
    obtain ⟨clearHere, clearRest⟩ := List.forall_mem_cons.1 clear
    rw [filling, List.filter_cons]
    by_cases hollow : isHollow p g a
    · rw [if_pos hollow, if_pos hollow]
      have steady : ∀ n ∈ rest, g.children n = [] → placeholderFor a = n →
          p.isGroup (g.typeOf n) = p.isGroup placeholderType := by
        rintro _ later none rfl
        exact clearHere hollow (first _ later) (List.mem_cons_of_mem _ later) none
      have other : ∀ n ∈ rest, n ≠ a := by
        rintro _ later rfl
        exact absurd (first _ later) (String.lt_irrefl _)
      have same : ∀ n ∈ rest, isHollow p (addPlaceholder g a) n = isHollow p g n := fun n later =>
        isHollow_addPlaceholder wf here (other n later) (steady n later)
      rw [ih (wellFormed_addPlaceholder wf) (contains_addPlaceholder_of_forall here others) ordered,
        List.filter_congr same]
      intro m hm hollow' lt later none
      rw [children_addPlaceholder (other _ later)] at none
      rw [isGroup_addPlaceholder wf here (steady _ later none)]
      exact clearRest m hm (same m hm ▸ hollow') lt (List.mem_cons_of_mem _ later) none
    · rw [if_neg hollow, if_neg hollow]
      exact ih wf others ordered fun m hm hollow' lt later =>
        clearRest m hm hollow' lt (List.mem_cons_of_mem _ later)

/-- The containers that get placeholders are known beforehand. -/
theorem fillAll_eq {content : Content} (s : Sound content g) :
    fillAll p g = (eachSilent addPlaceholder (hollow p g) g,
      (hollow p g).map placeholderFor) := by
  have there : ∀ m ∈ g.sortedNodes, g.contains m := fun m => mem_sortedNodes.1
  -- In a sound graph a node with a placeholder's name has a placeholder's type.
  have typed : ∀ m ∈ g.sortedNodes, g.typeOf (placeholderFor m) = placeholderType := fun m hm => by
    rw [← typeOf_addPlaceholder_of_fits s, typeOf_placeholder s.wellFormed (there m hm)]
  rw [fillAll_eq_filling, filling_eq_filter s.wellFormed there (Keyed.pairwise_keySet g.nodes)
    fun m hm _ _ _ _ => by rw [typed m hm]]
  rfl

/-- The new edges are those to placeholders. -/
theorem edge_placeholders : (eachSilent addPlaceholder l g).Edge a c ↔
    g.Edge a c ∨ (a ∈ l ∧ c = placeholderFor a) := by
  induction l generalizing g with
  | nil => simp [eachSilent]
  | cons n rest ih =>
    refine (ih (g := addPlaceholder g n)).trans ?_
    rw [edge_addPlaceholder, or_assoc, List.mem_cons, or_and_right]
    refine or_congr_right (or_congr_left ⟨?_, ?_⟩)
    · rintro ⟨rfl, made, -⟩
      exact ⟨rfl, made⟩
    · rintro ⟨rfl, rfl⟩
      exact ⟨rfl, rfl, (placeholderFor_ne a).symm⟩

/-! ### Tidied graphs -/

/-- What validation makes of a drawable graph. -/
def tidied (keepStandalone : Bool) (p : Rules.Providers) (g : Graph) : Graph :=
  eachSilent addPlaceholder (hollow p (kept keepStandalone p g)) (kept keepStandalone p g)

theorem wellFormed_tidied (s : Sound .any g) : (tidied keep p g).WellFormed := by
  obtain ⟨_, -, filled⟩ := filled_fillAll (p := p) (wellFormed_kept (p := p) keep s.wellFormed)
  have wf := filled.wellFormed
  rwa [fillAll_eq (sound_kept Content.any_closed s)] at wf

theorem validate_iff_tidied (s : Sound .any g) {r : Report} :
    validate keep p g = .ok (g', r) ↔ Drawable p g ∧ g' = tidied keep p g ∧
      r = ⟨dropped keep p g, (hollow p (kept keep p g)).map placeholderFor⟩ := by
  rw [validate_ok_iff s.wellFormed, fillAll_eq (sound_kept Content.any_closed s)]
  rfl

/-- The same nodes without children are containers to both providers. -/
def Agree (p p' : Rules.Providers) (g : Graph) : Prop :=
  ∀ n, g.contains n → g.children n = [] → p.isGroup (g.typeOf n) = p'.isGroup (g.typeOf n)

theorem contains_kept_iff (wf : g.WellFormed) :
    (kept keep p g).contains k ↔ k ∉ dropped keep p g ∧ g.contains k :=
  (removeAll_loose wf fun _ h => (loose_of_dropped wf h).1).2.2.2 k

theorem typeOf_kept (wf : g.WellFormed) (h : k ∉ dropped keep p g) :
    (kept keep p g).typeOf k = g.typeOf k :=
  (removeAll_loose wf fun _ h => (loose_of_dropped wf h).1).2.2.1 k h

theorem children_kept_eq_nil_iff (p : Rules.Providers) (keep : Bool) (wf : g.WellFormed) :
    (kept keep p g).children k = [] ↔ g.children k = [] := by
  rw [List.eq_nil_iff_forall_not_mem, List.eq_nil_iff_forall_not_mem]
  exact forall_congr' fun a => not_congr (edge_kept wf)

/-- Exactly the containers among the nodes without children come to have one. -/
theorem childless_tidied_iff (p : Rules.Providers) (keep : Bool) (wf : g.WellFormed)
    (there : g.contains n) (none : g.children n = []) :
    (tidied keep p g).children n = [] ↔ p.isGroup (g.typeOf n) = false := by
  have edges : ∀ c, (tidied keep p g).Edge n c ↔
      n ∈ hollow p (kept keep p g) ∧ c = placeholderFor n := by
    intro c
    have no : ¬(kept keep p g).Edge n c := by
      have := (children_kept_eq_nil_iff p keep wf).2 none
      exact fun edge => List.not_mem_nil (this ▸ show c ∈ (kept keep p g).children n from edge)
    rw [tidied, edge_placeholders, or_iff_right no]
  have empty : (tidied keep p g).children n = [] ↔ n ∉ hollow p (kept keep p g) := by
    rw [List.eq_nil_iff_forall_not_mem]
    exact ⟨fun h inside => h _ ((edges _).2 ⟨inside, rfl⟩), fun h c edge => h ((edges c).1 edge).1⟩
  rw [empty, ← Bool.not_eq_true]
  refine not_congr ?_
  rw [hollow, List.mem_filter, mem_sortedNodes, contains_kept_iff wf, isHollow, Bool.and_eq_true,
    List.isEmpty_iff, children_kept_eq_nil_iff p keep wf]
  constructor
  · rintro ⟨⟨stays, -⟩, -, group⟩
    rwa [typeOf_kept wf stays] at group
  · intro group
    have stays : n ∉ dropped keep p g := by
      intro gone
      rw [(loose_of_dropped wf gone).2] at group
      exact absurd group (by simp)
    refine ⟨⟨stays, there⟩, none, ?_⟩
    rwa [typeOf_kept wf stays]

theorem Agree.dropped_eq (agree : Agree p p' g) : dropped keep p g = dropped keep p' g := by
  unfold dropped standalone
  split
  · rfl
  · refine List.filter_congr fun n hn => ?_
    by_cases none : g.children n = []
    · rw [agree n (mem_sortedNodes.1 hn) none]
    · rw [show (g.children n).isEmpty = false by simpa using none]
      rfl

/-- Providers that agree leave the same. -/
theorem Agree.tidied_eq (wf : g.WellFormed) (agree : Agree p p' g) :
    tidied keep p g = tidied keep p' g := by
  have stays : kept keep p g = kept keep p' g := by rw [kept, kept, agree.dropped_eq]
  have same : hollow p (kept keep p g) = hollow p' (kept keep p g) := by
    refine List.filter_congr fun n hn => ?_
    obtain ⟨here, there⟩ := (contains_kept_iff wf).1 (mem_sortedNodes.1 hn)
    unfold isHollow
    by_cases none : g.children n = []
    · rw [typeOf_kept wf here, agree n there none]
    · have some : ((kept keep p g).children n).isEmpty = false := by
        rw [← Bool.not_eq_true, List.isEmpty_iff, children_kept_eq_nil_iff p keep wf]
        exact none
      rw [some]
      rfl
  rw [tidied, tidied, ← stays, same]

/-- Two providers leave the same children to every node exactly if they agree. -/
theorem Agree.iff_children (wf : g.WellFormed) (keep : Bool) : Agree p p' g ↔
    ∀ n, (tidied keep p g).children n = (tidied keep p' g).children n := by
  constructor
  · exact fun agree n => by rw [agree.tidied_eq wf]
  · intro same n there none
    have here := childless_tidied_iff p keep wf there none
    rw [same n, childless_tidied_iff p' keep wf there none] at here
    cases first : p.isGroup (g.typeOf n) with
    | false => exact (here.2 first).symm
    | true =>
      cases second : p'.isGroup (g.typeOf n) with
      | true => rfl
      | false => exact absurd (here.1 second) (by simp [first])

end Cartograph.Validation

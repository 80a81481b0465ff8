import Cartograph.Proofs.Expansion.Siblings

/-!
# Which containers hold a sibling

Of the innermost containers of a node each gets a sibling of its own, and a numbered node stays in
one of them. So of two containers that hold a node in the end, one was no innermost container before
(`redundant_of_each`). Such a container is treated as any other parent: if it is the only one of its
type, it gets all siblings, also one whose own container is not inside it (`expand_straddling`).

Containers are never split between containers, and every node comes from one of the same type
(`Projects`). A container is therefore above another one only if it was before. If a way from one
to the other leads through containers alone (`Nests`), it stays; any other way may get lost where a
node on it is split. What this means for the containers of a node of an expanded graph is said by
`expand_containers`.
-/

namespace Cartograph.Expansion

open Graph Arrangement Rules Containment

variable {p : Providers} {g g' g'' h : Graph} {s : Split} {m : NodeMeta} {n k a b c : NodeId}
  {nodes : List NodeId} {i : Nat}

/-- The splits between containers that an expansion makes. -/
def separations (p : Providers) (g : Graph) : List Split :=
  madeBetween p (planned p g).sortedNodes (planned p g)

/-! ### Origins of containers -/

/-- A way from one container to another leads through containers alone. -/
def Nests (p : Providers) (g : Graph) : NodeId → NodeId → Prop :=
  Relation.TransGen fun a b => Holds p g a b ∧ p.isGroup (g.typeOf b) = true

theorem Nests.above (nests : Nests p g a b) : g.Above a b :=
  Relation.TransGen.mono (fun _ _ step => step.1.edge) _ _ nests

/-- A graph whose nodes come from nodes of another one of the same types. Containers come from
    themselves, and those that were nested through containers alone still are. -/
structure Projects (p : Providers) (f : NodeId → NodeId) (g h : Graph) : Prop where
  wellFormed : h.WellFormed
  contains : ∀ n, h.contains n → g.contains (f n)
  typeOf : ∀ n, h.contains n → h.typeOf n = g.typeOf (f n)
  own : ∀ n, h.contains n → p.isGroup (h.typeOf n) = true → f n = n
  edge : ∀ a b, h.Edge a b → g.Edge (f a) (f b)
  nests : ∀ a b, Nests p g a b → Nests p h a b

namespace Projects

variable {f f' : NodeId → NodeId}

theorem refl (wf : g.WellFormed) : Projects p id g g :=
  ⟨wf, fun _ there => there, fun _ _ => rfl, fun _ _ _ => rfl, fun _ _ edge => edge,
    fun _ _ nests => nests⟩

theorem trans (d : Projects p f g g') (d' : Projects p f' g' g'') :
    Projects p (f ∘ f') g g'' where
  wellFormed := d'.wellFormed
  contains n there := d.contains _ (d'.contains n there)
  typeOf n there := (d'.typeOf n there).trans (d.typeOf _ (d'.contains n there))
  own n there group := by
    have same := d'.own n there group
    have there' := d'.contains n there
    have type := d'.typeOf n there
    rw [same] at there' type
    rw [Function.comp, same, d.own n there' (type ▸ group)]
  edge a b edge := d.edge _ _ (d'.edge a b edge)
  nests a b nests := d'.nests a b (d.nests a b nests)

/-- What holds a node is a container of its origin. -/
theorem holds (d : Projects p f g h) (held : Holds p h a n) : Holds p g a (f n) := by
  have own := d.own a held.edge.contains held.isGroup
  have edge := d.edge a n held.edge
  have type := d.typeOf a held.edge.contains
  rw [own] at edge type
  exact ⟨edge, type ▸ held.isGroup⟩

theorem above (d : Projects p f g h) (above : h.Above a b) : g.Above (f a) (f b) :=
  Relation.TransGen.lift f d.edge _ _ above

/-- Of two containers, one is above the other only if it was before. -/
theorem above_of_held (d : Projects p f g h) (ha : Holds p h a n) (hb : Holds p h b c)
    (above : h.Above a b) : g.Above a b := by
  have path := d.above above
  rwa [d.own a ha.edge.contains ha.isGroup, d.own b hb.edge.contains hb.isGroup] at path

theorem redundant (d : Projects p f g h) (held : Holds p h a n) (outer : Redundant p h a n) :
    Redundant p g a (f n) := by
  obtain ⟨-, q, ne, inner, above⟩ := outer
  exact ⟨(d.holds held).edge, q, ne, d.holds inner, d.above_of_held held inner above⟩

end Projects

/-- A sibling is of the type of the node that was split. -/
theorem Replaces.typeOf_sibling (r : Replaces s m g h) (found : g.meta? s.node = some m)
    (plain : NodeId.suffix? s.node = none) (word : s.count < Nat.pow 2 64) (below : i < s.count) :
    h.typeOf (s.sibling i) = g.typeOf s.node := by
  rw [typeOf, ← typeOf_unlabelled, r.sibling i below, typeOf, found, Split.sibling]
  unfold NodeMeta.typeOf siblingMeta
  dsimp only
  rw [NodeId.resourceType_withSuffix plain (by omega)]

theorem Replaces.projects (r : Replaces s m g h) (wf : g.WellFormed)
    (found : g.meta? s.node = some m) (plain : NodeId.suffix? s.node = none)
    (group : p.isGroup (g.typeOf s.node) = false) (word : s.count < Nat.pow 2 64) :
    Projects p s.origin g h := by
  have there : g.contains s.node := wf.contains_iff.2 (by rw [found]; rfl)
  have outside : ∀ {n}, g.contains n → n ∉ s.siblings := fun there inside =>
    r.fresh _ inside there
  have self : ∀ {n}, g.contains n → s.origin n = n := fun there =>
    origin_of_contains r.fresh there
  have made : ∀ {n}, n ∈ s.siblings → s.origin n = s.node := fun sibling => if_pos sibling
  have type : ∀ n, h.contains n → h.typeOf n = g.typeOf (s.origin n) := by
    intro n inside
    rcases (r.contains n).1 inside with sibling | ⟨ne, there⟩
    · obtain ⟨i, below, rfl⟩ := Split.mem_siblings.1 sibling
      rw [Split.origin_sibling below, r.typeOf_sibling found plain word below]
    · rw [self there, typeOf_of_unlabelled (r.unlabelled n ne (outside there))]
  refine ⟨r.wellFormed, fun n inside => ?_, type, fun n inside container => ?_, r.edge,
    fun a b nests => Relation.TransGen.mono (fun u v step => ?_) _ _ nests⟩
  · rcases (r.contains n).1 inside with sibling | ⟨-, there⟩
    · rwa [made sibling]
    · rwa [self there]
  · rcases (r.contains n).1 inside with sibling | ⟨-, there⟩
    · rw [type n inside, made sibling, group] at container
      exact absurd container (by simp)
    · exact self there
  · have ne : ∀ {x}, p.isGroup (g.typeOf x) = true → x ≠ s.node := by
      rintro _ container rfl
      exact absurd container (by simp [group])
    have hu := step.1.edge.contains
    have hv := wf.closed u v step.1.edge
    have nu := ne step.1.isGroup
    have nv := ne step.2
    refine ⟨⟨(r.others u v nu nv hu hv).2 step.1.edge, ?_⟩, ?_⟩
    · rw [typeOf_of_unlabelled (r.unlabelled u nu (outside hu))]
      exact step.1.isGroup
    · rw [typeOf_of_unlabelled (r.unlabelled v nv (outside hv))]
      exact step.2

theorem projects_separate (p : Providers) (wf : g.WellFormed) (n : NodeId)
    (words : ∀ s ∈ madeFor p g n, s.count < Nat.pow 2 64) :
    Projects p (origin (madeFor p g n)) g (separate p g n).1 := by
  rcases separate_cases p wf n with ⟨none, same, -⟩ |
    ⟨s, some, same, rfl, sensible, plain, group, -⟩ | ⟨none, -, group, keep, -, same⟩
  · rw [same, madeFor_none none]
    exact .refl wf
  · rw [same]
    rw [madeFor_some some] at words ⊢
    rcases split_made wf sensible with ⟨yes, m, found, r⟩ | ⟨no, unchanged⟩
    · rw [if_pos yes] at words ⊢
      exact r.projects wf found plain group (words s (List.mem_singleton_self s))
    · rw [if_neg (by simp [no]), unchanged]
      exact .refl wf
  · rw [same, madeFor_none none]
    have type : ∀ k, (removeParents ((innermostGroups p g n).filter (· ≠ keep)) n g).typeOf k =
        g.typeOf k := fun _ => typeOf_of_unlabelled unlabelled_removeParents
    refine ⟨wellFormed_removeParents wf, fun k there => contains_removeParents.1 there,
      fun k _ => type k, fun _ _ _ => rfl, fun a b edge => (edge_removeParents.1 edge).1,
      fun a b nests => Relation.TransGen.mono (fun u v step => ?_) _ _ nests⟩
    refine ⟨⟨edge_removeParents.2 ⟨step.1.edge, fun cut => ?_⟩, (type u).symm ▸ step.1.isGroup⟩,
      (type v).symm ▸ step.2⟩
    -- Only edges to the node go, and that is no container.
    rw [cut.2, group] at step
    exact absurd step.2 (by simp)

theorem projects_each (p : Providers) (wf : g.WellFormed) (nodes : List NodeId)
    (words : ∀ s ∈ madeBetween p nodes g, s.count < Nat.pow 2 64) :
    Projects p (origin (madeBetween p nodes g)) g (each (separate p) nodes g).1 := by
  induction nodes generalizing g with
  | nil => exact .refl wf
  | cons n rest ih =>
    rw [madeBetween, List.forall_mem_append] at words
    have first := projects_separate p wf n words.1
    rw [madeBetween, origin_append]
    exact first.trans (ih first.wellFormed words.2)

/-! ### Several containers -/

/-- Of two containers that hold a node that a step has looked at, one held another container of it
    before the step. -/
theorem redundant_of_separate (wf : g.WellFormed) (there : g.contains n)
    (plain : p.isGroup (g.typeOf n) = false)
    (words : ∀ s ∈ madeFor p g n, s.count < Nat.pow 2 64)
    (own : origin (madeFor p g n) k = n) (ne : a ≠ b) (ha : Holds p (separate p g n).1 a k)
    (hb : Holds p (separate p g n).1 b k)
    (expanded : k = n → ∀ d ∈ (separate p g n).2, d.kind = .skipped → d.node ≠ some n) :
    Redundant p g a n ∨ Redundant p g b n := by
  by_contra inner
  rw [not_or] at inner
  have projects := projects_separate p wf n words
  have innerA := (mem_innermostGroups wf).2 ⟨own ▸ projects.holds ha, inner.1⟩
  have innerB := (mem_innermostGroups wf).2 ⟨own ▸ projects.holds hb, inner.2⟩
  rcases separate_cases p wf n with ⟨-, -, sole⟩ |
    ⟨s, some, same, rfl, sensible, -, -, containers, whole⟩ | ⟨none, -, -, keep, -, same⟩
  · exact ne (sole there plain a innerA b innerB)
  · rw [same] at ha hb expanded
    rw [madeFor_some some] at own
    rcases split_made wf sensible with ⟨yes, m, found, r⟩ | ⟨no, unchanged⟩
    · -- Each sibling is in the container at its own place.
      rw [if_pos yes] at own
      have sibling : k ∈ s.siblings := by
        rcases (r.contains k).1 (r.wellFormed.closed a k ha.edge) with sibling | ⟨other, before⟩
        · exact sibling
        · exact absurd ((origin_of_contains r.fresh before).symm.trans own) other
      obtain ⟨i, below, rfl⟩ := Split.mem_siblings.1 sibling
      rw [← containers] at innerA innerB
      have placeA := r.placed (Nat.le_of_eq whole) a innerA i below ha.edge
      have placeB := r.placed (Nat.le_of_eq whole) b innerB i below hb.edge
      exact ne (Option.some.inj (placeA.symm.trans placeB))
    · rw [if_neg (by simp [no])] at own
      obtain ⟨m, found⟩ := wf.exists_meta there
      obtain ⟨taken, -, reported⟩ := refused_of_not_made found no
      exact expanded own _ reported rfl rfl
  · -- A numbered node stays in one of them.
    rw [same] at ha hb
    rw [madeFor_none none] at own
    cases (own : k = n)
    have only : ∀ {c}, c ∈ innermostGroups p g k → (removeParents ((innermostGroups p g k).filter
        (· ≠ keep)) k g).Edge c k → c = keep := by
      intro c inside edge
      by_contra other
      exact (edge_removeParents.1 edge).2 ⟨List.mem_filter.2 ⟨inside, decide_eq_true other⟩, rfl⟩
    exact ne ((only innerA ha.edge).trans (only innerB hb.edge).symm)

theorem node_of_madeFor (h : s ∈ madeFor p g n) : s.node = n := by
  have some := (Option.filter_eq_some_iff.1 (Option.mem_toList.1 h)).1
  unfold separation? at some
  split at some
  · exact absurd some (by simp)
  · split at some
    · cases some
      rfl
    · exact absurd some (by simp)

theorem origin_madeFor_cases (p : Providers) (g : Graph) (n k : NodeId) :
    origin (madeFor p g n) k = k ∨ origin (madeFor p g n) k = n := by
  by_cases sibling : ∃ s ∈ madeFor p g n, k ∈ s.siblings
  · obtain ⟨s, inside, sibling⟩ := sibling
    have only : madeFor p g n = [s] := by
      unfold madeFor at inside ⊢
      rw [Option.mem_toList.1 inside]
      rfl
    rw [only, ← node_of_madeFor inside]
    exact .inr (if_pos sibling)
  · exact .inl (origin_eq_self fun s inside here => sibling ⟨s, inside, here⟩)

/-- A node is its own origin, or that is among the nodes that are looked at. -/
theorem origin_madeBetween_cases (p : Providers) (nodes : List NodeId) (g : Graph) (k : NodeId) :
    origin (madeBetween p nodes g) k = k ∨ origin (madeBetween p nodes g) k ∈ nodes := by
  induction nodes generalizing g with
  | nil => exact .inl rfl
  | cons n rest ih =>
    rw [madeBetween, origin_append, Function.comp]
    have later := ih (separate p g n).1
    rcases origin_madeFor_cases p g n (origin (madeBetween p rest (separate p g n).1) k) with e | e
    · rw [e]
      exact later.imp_right (List.mem_cons_of_mem n)
    · rw [e]
      exact .inr List.mem_cons_self

/-- Of two containers that hold a node after a run over different nodes, one held another container
    of its origin before, if that is one of them. -/
theorem redundant_of_each (wf : g.WellFormed) (nodup : nodes.Nodup)
    (words : ∀ s ∈ madeBetween p nodes g, s.count < Nat.pow 2 64)
    (plain : p.isGroup ((each (separate p) nodes g).1.typeOf k) = false)
    (listed : origin (madeBetween p nodes g) k ∈ nodes) (ne : a ≠ b)
    (ha : Holds p (each (separate p) nodes g).1 a k)
    (hb : Holds p (each (separate p) nodes g).1 b k)
    (expanded : ∀ d ∈ (each (separate p) nodes g).2, d.kind = .skipped → d.node ≠ some k) :
    Redundant p g a (origin (madeBetween p nodes g) k) ∨
      Redundant p g b (origin (madeBetween p nodes g) k) := by
  induction nodes generalizing g with
  | nil => exact absurd listed List.not_mem_nil
  | cons n rest ih =>
    obtain ⟨outside, nodup⟩ := List.nodup_cons.1 nodup
    rw [madeBetween, List.forall_mem_append] at words
    have first := projects_separate p wf n words.1
    have later := projects_each p first.wellFormed rest words.2
    have there := later.wellFormed.closed a k ha.edge
    rw [madeBetween, origin_append, Function.comp] at listed ⊢
    by_cases here : origin (madeFor p g n) (origin (madeBetween p rest (separate p g n).1) k) = n
    · have before := first.contains _ (later.contains k there)
      have type := (later.typeOf k there).trans (first.typeOf _ (later.contains k there))
      rw [here] at before type ⊢
      refine redundant_of_separate wf before (type ▸ plain) words.1 here ne (later.holds ha)
        (later.holds hb) fun same d inside skipped => ?_
      -- A node that this step leaves as it is stays so, as no later step looks at it.
      have own : n = k := by
        rcases origin_madeBetween_cases p rest (separate p g n).1 k with e | e
        · exact same.symm.trans e
        · exact absurd (same ▸ e) outside
      rw [own]
      exact expanded d (List.mem_append_left _ inside) skipped
    · have own := (origin_madeFor_cases p g n _).resolve_right here
      have listed := List.mem_of_ne_of_mem here listed
      rw [own] at listed
      exact (ih first.wellFormed nodup words.2 plain listed ha hb fun d inside =>
        expanded d (List.mem_append_right _ inside)).imp (first.redundant (later.holds ha))
          (first.redundant (later.holds hb))

/-- Of two containers that hold a node of an expanded graph, if no split of the node was refused:
    both held the node that it was split from before, and one of them held another container of it.
    If they were nested then, through containers alone, they are; if they were not nested, they are
    not. -/
theorem expand_containers (p : Providers) (g : Graph) (wf : g.WellFormed)
    (words : ∀ s ∈ separations p g, s.count < Nat.pow 2 64) :
    ∀ n, p.isGroup ((expand p g).1.typeOf n) = false →
      (∀ d ∈ (expand p g).2, d.kind = .skipped → d.node ≠ some n) →
      ∀ a b, a ≠ b → Holds p (expand p g).1 a n → Holds p (expand p g).1 b n →
        (Holds p (planned p g) a (origin (separations p g) n) ∧
          Holds p (planned p g) b (origin (separations p g) n)) ∧
        (Redundant p (planned p g) a (origin (separations p g) n) ∨
          Redundant p (planned p g) b (origin (separations p g) n)) ∧
        (Nests p (planned p g) a b ∨ Nests p (planned p g) b a → Related (expand p g).1 a b) ∧
        (Related (expand p g).1 a b → Related (planned p g) a b) := by
  intro n plain expanded a b ne ha hb
  have wf := (descends_planned p wf).wellFormed
  have projects := projects_each p wf _ words
  have there := projects.wellFormed.closed a n ha.edge
  refine ⟨⟨projects.holds ha, projects.holds hb⟩, ?_, ?_, ?_⟩
  · exact redundant_of_each wf (Keyed.nodup_keySet _) words plain
      (mem_sortedNodes.2 (projects.contains n there)) ne ha hb fun d inside =>
        expanded d (List.mem_append_right _ inside)
  · exact Or.imp (fun nests => (projects.nests a b nests).above)
      fun nests => (projects.nests b a nests).above
  · exact Or.imp (projects.above_of_held ha hb) (projects.above_of_held hb ha)

/-- A subnet in its network and another subnet, and a balancer in all three. -/
def straddling : Graph :=
  let g := ((Graph.empty "aws").addEdge "aws_vpc.main" "aws_subnet.a").1
  let g := ((g.addEdge "aws_subnet.a" "aws_lb.web").1.addEdge "aws_subnet.b" "aws_lb.web").1
  (g.addEdge "aws_vpc.main" "aws_lb.web").1

theorem wellFormed_straddling : straddling.WellFormed :=
  wellFormed_addEdge (wellFormed_addEdge (wellFormed_addEdge (wellFormed_addEdge
    (wellFormed_empty "aws"))))

/-- Nothing is reported of its expansion. The subnet in the network gets the first sibling, the
    other one the second, and the network gets both. -/
theorem siblings_straddling :
    (∀ s ∈ separations subnets straddling, s.count < Nat.pow 2 64) ∧
    (expand subnets straddling).2 = [] ∧
    (Holds subnets (planned subnets straddling) "aws_vpc.main" "aws_subnet.a" ∧
      subnets.isGroup ((planned subnets straddling).typeOf "aws_subnet.a") = true) ∧
    (Holds subnets (expand subnets straddling).1 "aws_subnet.a" "aws_lb.web~1" ∧
      Holds subnets (expand subnets straddling).1 "aws_vpc.main" "aws_lb.web~1" ∧
      subnets.isGroup ((expand subnets straddling).1.typeOf "aws_lb.web~1") = false) ∧
    isConflict subnets (expand subnets straddling).1 "aws_subnet.b" "aws_vpc.main"
      "aws_lb.web~2" = true ∧
    subnets.isGroup ((expand subnets straddling).1.typeOf "aws_lb.web~2") = false := by
  decide +kernel

/-- The theorem at the sibling for the subnet in the network. -/
theorem expand_containers_straddling :
    (∀ s ∈ separations subnets straddling, s.count < Nat.pow 2 64) ∧
    (expand subnets straddling).2 = [] ∧
    Holds subnets (expand subnets straddling).1 "aws_vpc.main" "aws_lb.web~1" ∧
    Holds subnets (expand subnets straddling).1 "aws_subnet.a" "aws_lb.web~1" ∧
    Related (expand subnets straddling).1 "aws_vpc.main" "aws_subnet.a" := by
  obtain ⟨words, silent, ⟨above, group⟩, ⟨subnet, network, plain⟩, -, -⟩ := siblings_straddling
  obtain ⟨-, -, stays, -⟩ := expand_containers subnets straddling wellFormed_straddling words
    "aws_lb.web~1" plain
    (fun d inside => by rw [silent] at inside; exact absurd inside List.not_mem_nil)
    _ _ (by decide) network subnet
  exact ⟨words, silent, network, subnet, stays (.inl (.single ⟨above, group⟩))⟩

/-- The network gets all siblings, also that of the subnet outside. -/
theorem expand_straddling : straddling.WellFormed ∧ (expand subnets straddling).2 = [] ∧
    subnets.isGroup ((expand subnets straddling).1.typeOf "aws_lb.web~2") = false ∧
    Shared subnets (expand subnets straddling).1 "aws_lb.web~2" := by
  obtain ⟨-, silent, -, -, conflict, plain⟩ := siblings_straddling
  have nodup := (descends_expand subnets wellFormed_straddling).wellFormed.nodup
  exact ⟨wellFormed_straddling, silent, plain, shared_of_conflict nodup conflict⟩

end Cartograph.Expansion

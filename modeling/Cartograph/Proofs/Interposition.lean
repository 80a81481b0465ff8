import Cartograph.Arrangement.Insertion
import Cartograph.Proofs.Graph.Ancestry

/-!
# Nodes in between

A node that is put between parents and children is shared by all of them that name it
(`Arrangement.Between`), so it joins every such parent with every such child. What is above what
afterwards is therefore said by the edges together with both halves of each way by a node in
between (`Arrangement.Link`): nothing is lost, and ways that cross at a shared node may be gained
(`Arrangement.above_insertIntermediate`).

The run keeps all edges of the parents that it has not come to, and may give them children that they
name themselves, which it skips (`Arrangement.Rerouting`).
-/

namespace Cartograph.Arrangement

open Graph

variable {g h : Graph} {p c i n a b u v : NodeId}

/-! ### Putting a node in between -/

section

variable {generator : NameGenerator}

theorem insertAbove_unnamed (none : generator.nodeId? c (h.meta? c) = none) :
    (insertAbove generator p h c).1 = h := by
  unfold insertAbove
  rw [none]

theorem insertAbove_end (named : generator.nodeId? c (h.meta? c) = some i)
    (same : i = p ∨ i = c) : (insertAbove generator p h c).1 = h := by
  unfold insertAbove
  rw [named]
  exact congrArg Prod.fst (if_pos same)

/-- The graph with the node that a child names, unless it is there. -/
def withNamed (generator : NameGenerator) (h : Graph) (i c : NodeId) : Graph :=
  if h.contains i then h else h.insertNode i (generator.metaFor i c (h.meta? c))

theorem insertAbove_named (named : generator.nodeId? c (h.meta? c) = some i)
    (outer : i ≠ p) (inner : i ≠ c) : (insertAbove generator p h c).1 =
      (((withNamed generator h i c).replaceChild p c i).1.addEdge i c).1 := by
  unfold insertAbove
  rw [named]
  exact congrArg Prod.fst (if_neg (not_or.2 ⟨outer, inner⟩))

theorem wellFormed_withNamed (wf : h.WellFormed) : (withNamed generator h i c).WellFormed := by
  unfold withNamed
  split
  · exact wf
  · exact wellFormed_insertNode wf

theorem edge_withNamed : (withNamed generator h i c).Edge a b ↔ h.Edge a b := by
  unfold withNamed
  split
  · rfl
  · exact edge_insertNode

theorem meta?_withNamed (there : h.contains n) :
    (withNamed generator h i c).meta? n = h.meta? n := by
  unfold withNamed
  split
  · rfl
  · next gone =>
    have ne : i ≠ n := by
      rintro rfl
      exact gone there
    rw [meta?_insertNode, if_neg ne]

/-- The new node takes the place of the child and holds it. -/
theorem edge_insertAbove (wf : h.WellFormed) (edge : h.Edge p c)
    (named : generator.nodeId? c (h.meta? c) = some i) (outer : i ≠ p) (inner : i ≠ c) :
    (insertAbove generator p h c).1.Edge a b ↔
      (h.Edge a b ∧ ¬(a = p ∧ b = c)) ∨ (a = p ∧ b = i) ∨ (a = i ∧ b = c) := by
  rw [insertAbove_named named outer inner, edge_addEdge inner,
    edge_replaceChild (wellFormed_withNamed wf) (edge_withNamed.2 edge) outer.symm inner,
    edge_withNamed, or_assoc]

theorem wellFormed_insertAbove (wf : h.WellFormed) : (insertAbove generator p h c).1.WellFormed := by
  cases named : generator.nodeId? c (h.meta? c) with
  | none => rwa [insertAbove_unnamed named]
  | some i =>
    by_cases same : i = p ∨ i = c
    · rwa [insertAbove_end named same]
    · obtain ⟨outer, inner⟩ := not_or.1 same
      rw [insertAbove_named named outer inner]
      exact wellFormed_addEdge (wellFormed_replaceChild (wellFormed_withNamed wf))

/-- The metadata of the nodes that were there stay. -/
theorem meta?_insertAbove (wf : h.WellFormed) (there : h.contains n) :
    (insertAbove generator p h c).1.meta? n = h.meta? n := by
  cases named : generator.nodeId? c (h.meta? c) with
  | none => rw [insertAbove_unnamed named]
  | some i =>
    by_cases same : i = p ∨ i = c
    · rw [insertAbove_end named same]
    · obtain ⟨outer, inner⟩ := not_or.1 same
      obtain ⟨m, found⟩ := wf.exists_meta there
      rw [insertAbove_named named outer inner, meta?_addEdge inner,
        meta?_replaceChild (Ne.symm outer), meta?_withNamed there, found]
      rfl

end

/-! ### Nodes with a place in between -/

section

variable (parent child : Pattern) (generator : NameGenerator) (g : Graph)

/-- A node has its place between a parent and a child: the patterns match the ends of an edge, and
    the child names the node, which is neither of the two. -/
structure Between (p c i : NodeId) : Prop where
  edge : g.Edge p c
  outer : parent.matchesNode p (g.meta? p)
  inner : child.matchesNode c (g.meta? c)
  named : generator.nodeId? c (g.meta? c) = some i
  ne_outer : i ≠ p
  ne_inner : i ≠ c

/-- A node has its place between some parent and some child. -/
def Intermediate (i : NodeId) : Prop := ∃ p c, Between parent child generator g p c i

/-- An edge, or one half of the way from a parent to a child by the node between them. -/
inductive Link (a b : NodeId) : Prop
  | edge : g.Edge a b → Link a b
  | upper {c : NodeId} : Between parent child generator g a c b → Link a b
  | lower {p : NodeId} : Between parent child generator g p b a → Link a b

/-- A way on which only nodes in between are passed. -/
inductive Through : NodeId → NodeId → Prop
  | last {a b : NodeId} : Link parent child generator g a b → Through a b
  | via {a i b : NodeId} : Link parent child generator g a i →
    Intermediate parent child generator g i → Through i b → Through a b

/-- The graph of a run that has still to come to some parents. -/
structure Rerouting (rest : List NodeId) (h : Graph) : Prop where
  wellFormed : h.WellFormed
  kept : ∀ n, g.contains n → h.contains n ∧ h.meta? n = g.meta? n
  within : ∀ a b, h.Edge a b → Link parent child generator g a b
  ahead : ∀ p ∈ rest, ∀ c, g.Edge p c → h.Edge p c
  -- What a parent gets before its turn names the parent itself.
  given : ∀ p ∈ rest, ∀ c, h.Edge p c → g.Edge p c ∨ ∃ q, Between parent child generator g q c p

end

variable {parent child : Pattern} {generator : NameGenerator} {rest : List NodeId}

/-! ### One child -/

/-- A child is passed over, or it leaves its place to the node between it and its parent. -/
theorem Rerouting.cases (wf : g.WellFormed) (r : Rerouting parent child generator g rest h)
    (edge : h.Edge p c) (own : g.Edge p c ∨ ∃ q, Between parent child generator g q c p)
    (outer : parent.matchesNode p (g.meta? p)) (inner : child.matchesNode c (g.meta? c)) :
    ((insertAbove generator p h c).1 = h ∧ ∀ i, ¬Between parent child generator g p c i) ∨
      ∃ i, Between parent child generator g p c i ∧
        ∀ a b, (insertAbove generator p h c).1.Edge a b ↔
          (h.Edge a b ∧ ¬(a = p ∧ b = c)) ∨ (a = p ∧ b = i) ∨ (a = i ∧ b = c) := by
  have there : g.contains c := own.elim (wf.closed p c) fun ⟨q, h⟩ => wf.closed q c h.edge
  have same : h.meta? c = g.meta? c := (r.kept c there).2
  cases named : generator.nodeId? c (g.meta? c) with
  | none =>
    refine .inl ⟨insertAbove_unnamed (same ▸ named), fun i between => ?_⟩
    rw [between.named] at named
    exact absurd named (by simp)
  | some i =>
    have named' : generator.nodeId? c (h.meta? c) = some i := same ▸ named
    by_cases ends : i = p ∨ i = c
    · refine .inl ⟨insertAbove_end named' ends, fun j between => ?_⟩
      rw [between.named] at named
      obtain rfl := Option.some.inj named
      exact ends.elim between.ne_outer between.ne_inner
    · obtain ⟨ne, ne'⟩ := not_or.1 ends
      refine .inr ⟨i, ⟨own.resolve_right ?_, outer, inner, named, ne, ne'⟩, fun a b =>
        edge_insertAbove r.wellFormed edge named' ne ne'⟩
      rintro ⟨q, between⟩
      exact ne (Option.some.inj (named.symm.trans between.named))

/-- What one child comes to. -/
structure Rerouted (parent child : Pattern) (generator : NameGenerator) (g : Graph)
    (rest : List NodeId) (p c : NodeId) (h h' : Graph) : Prop where
  rerouting : Rerouting parent child generator g rest h'
  along : ∀ a b, h.Edge a b → h'.Above a b
  others : ∀ d, d ≠ c → h.Edge p d → h'.Edge p d
  joined : ∀ i, Between parent child generator g p c i → h'.Above p i ∧ h'.Above i c

theorem Rerouting.step (wf : g.WellFormed) (r : Rerouting parent child generator g rest h)
    (passed : p ∉ rest) (edge : h.Edge p c)
    (own : g.Edge p c ∨ ∃ q, Between parent child generator g q c p)
    (outer : parent.matchesNode p (g.meta? p)) (inner : child.matchesNode c (g.meta? c)) :
    Rerouted parent child generator g rest p c h (insertAbove generator p h c).1 := by
  have kept : ∀ n, g.contains n → (insertAbove generator p h c).1.contains n ∧
      (insertAbove generator p h c).1.meta? n = g.meta? n := by
    intro n there
    obtain ⟨inside, same⟩ := r.kept n there
    have same' : (insertAbove generator p h c).1.meta? n = g.meta? n :=
      (meta?_insertAbove r.wellFormed inside).trans same
    refine ⟨?_, same'⟩
    rw [(wellFormed_insertAbove r.wellFormed).contains_iff, same', ← wf.contains_iff]
    exact there
  rcases r.cases wf edge own outer inner with ⟨same, none⟩ | ⟨i, between, edges⟩
  · rw [same]
    exact ⟨r, fun _ _ => Edge.above, fun _ _ edge => edge, fun i between => absurd between (none i)⟩
  · have upper : (insertAbove generator p h c).1.Edge p i := (edges p i).2 (.inr (.inl ⟨rfl, rfl⟩))
    have lower : (insertAbove generator p h c).1.Edge i c := (edges i c).2 (.inr (.inr ⟨rfl, rfl⟩))
    have stays : ∀ {a b}, h.Edge a b → ¬(a = p ∧ b = c) →
        (insertAbove generator p h c).1.Edge a b := fun edge ne => (edges _ _).2 (.inl ⟨edge, ne⟩)
    refine ⟨⟨wellFormed_insertAbove r.wellFormed, kept, ?_, ?_, ?_⟩, ?_, ?_, ?_⟩
    · intro a b edge
      rcases (edges a b).1 edge with ⟨old, -⟩ | ⟨rfl, rfl⟩ | ⟨rfl, rfl⟩
      · exact r.within a b old
      · exact .upper between
      · exact .lower between
    · intro q inside d edge
      exact stays (r.ahead q inside d edge) fun same => passed (same.1 ▸ inside)
    · intro q inside d edge
      rcases (edges q d).1 edge with ⟨old, -⟩ | ⟨rfl, -⟩ | ⟨rfl, rfl⟩
      · exact r.given q inside d old
      · exact absurd inside passed
      · exact .inr ⟨p, between⟩
    · intro a b edge
      by_cases same : a = p ∧ b = c
      · obtain ⟨rfl, rfl⟩ := same
        exact .tail (.single upper) lower
      · exact .single (stays edge same)
    · exact fun d ne edge => stays edge fun same => ne same.2
    · intro j between'
      obtain rfl := Option.some.inj (between.named.symm.trans between'.named)
      exact ⟨upper.above, lower.above⟩

/-! ### All children of a parent, and all parents -/

/-- What the children of a parent come to, one after the other. -/
theorem Rerouting.children (wf : g.WellFormed) (passed : p ∉ rest)
    (outer : parent.matchesNode p (g.meta? p)) {cs : List NodeId} (nodup : cs.Nodup)
    (inner : ∀ c ∈ cs, child.matchesNode c (g.meta? c))
    (own : ∀ c ∈ cs, g.Edge p c ∨ ∃ q, Between parent child generator g q c p)
    (r : Rerouting parent child generator g rest h) (edges : ∀ c ∈ cs, h.Edge p c) :
    Rerouting parent child generator g rest (each (insertAbove generator p) cs h).1 ∧
      (∀ a b, h.Above a b → (each (insertAbove generator p) cs h).1.Above a b) ∧
      ∀ c ∈ cs, ∀ i, Between parent child generator g p c i →
        (each (insertAbove generator p) cs h).1.Above p i ∧
          (each (insertAbove generator p) cs h).1.Above i c := by
  induction cs generalizing h with
  | nil => exact ⟨r, fun _ _ above => above, fun _ inside => absurd inside List.not_mem_nil⟩
  | cons c cs ih =>
    obtain ⟨fresh, nodup⟩ := List.nodup_cons.1 nodup
    rw [List.forall_mem_cons] at inner own edges
    have here := r.step wf passed edges.1 own.1 outer inner.1
    obtain ⟨rerouting, along, joined⟩ := ih nodup inner.2 own.2 here.rerouting fun d inside =>
      here.others d (fun same => fresh (same ▸ inside)) (edges.2 d inside)
    refine ⟨rerouting, fun a b above => along a b (above.lift here.along), ?_⟩
    intro d inside i between
    rcases List.mem_cons.1 inside with rfl | inside
    · obtain ⟨upper, lower⟩ := here.joined i between
      exact ⟨along _ _ upper, along _ _ lower⟩
    · exact joined d inside i between

/-- A parent's turn. -/
def insertBelow (child : Pattern) (generator : NameGenerator) (g : Graph) (p : NodeId) : Outcome :=
  each (insertAbove generator p) ((g.children p).filter fun c => child.matchesNode c (g.meta? c)) g

theorem Rerouting.parents (wf : g.WellFormed) {ps : List NodeId} (nodup : ps.Nodup)
    (outer : ∀ p ∈ ps, parent.matchesNode p (g.meta? p))
    (r : Rerouting parent child generator g ps h) :
    Rerouting parent child generator g [] (each (insertBelow child generator) ps h).1 ∧
      (∀ a b, h.Above a b → (each (insertBelow child generator) ps h).1.Above a b) ∧
      ∀ p ∈ ps, ∀ c i, Between parent child generator g p c i →
        (each (insertBelow child generator) ps h).1.Above p i ∧
          (each (insertBelow child generator) ps h).1.Above i c := by
  induction ps generalizing h with
  | nil => exact ⟨r, fun _ _ above => above, fun _ inside => absurd inside List.not_mem_nil⟩
  | cons p ps ih =>
    obtain ⟨passed, nodup⟩ := List.nodup_cons.1 nodup
    rw [List.forall_mem_cons] at outer
    have given := r.given p List.mem_cons_self
    have later : Rerouting parent child generator g ps h := { r with
      ahead := fun q inside => r.ahead q (List.mem_cons_of_mem _ inside)
      given := fun q inside => r.given q (List.mem_cons_of_mem _ inside) }
    -- Children of a parent whose turn it is are nodes of the graph before.
    have known : ∀ c, h.Edge p c → g.contains c := fun c edge =>
      (given c edge).elim (wf.closed p c) fun ⟨q, between⟩ => wf.closed q c between.edge
    have listed : ∀ c, c ∈ (h.children p).filter (fun c => child.matchesNode c (h.meta? c)) →
        h.Edge p c ∧ child.matchesNode c (g.meta? c) := by
      intro c inside
      obtain ⟨edge, inner⟩ := List.mem_filter.1 inside
      exact ⟨edge, (r.kept c (known c edge)).2 ▸ inner⟩
    obtain ⟨here, along, joined⟩ := later.children wf passed outer.1
      ((r.wellFormed.noRepetition p).filter _) (fun c inside => (listed c inside).2)
      (fun c inside => given c (listed c inside).1) (fun c inside => (listed c inside).1)
    obtain ⟨rerouting, along', joined'⟩ := ih nodup outer.2 here
    refine ⟨rerouting, fun a b above => along' a b (along a b above), ?_⟩
    intro q inside c i between
    rcases List.mem_cons.1 inside with rfl | inside
    · have edge : h.Edge q c := r.ahead q List.mem_cons_self c between.edge
      have inner : child.matchesNode c (h.meta? c) := (r.kept c (known c edge)).2 ▸ between.inner
      obtain ⟨upper, lower⟩ := joined c (List.mem_filter.2 ⟨edge, inner⟩) i between
      exact ⟨along' _ _ upper, along' _ _ lower⟩
    · exact joined' q inside c i between

/-! ### What is above what afterwards -/

theorem Through.links (h : Through parent child generator g a b) :
    Relation.TransGen (Link parent child generator g) a b := by
  induction h with
  | last link => exact .single link
  | via link _ _ ih => exact .head link ih

/-- A way that does not end at a node in between, up to the first node that is none. -/
theorem exists_through (last : ¬Intermediate parent child generator g v)
    (joins : ∀ a b, ¬Intermediate parent child generator g a →
      ¬Intermediate parent child generator g b → Through parent child generator g a b →
      g.Above a b) (way : Relation.TransGen (Link parent child generator g) a v) :
    ∃ b, ¬Intermediate parent child generator g b ∧ Through parent child generator g a b ∧
      (b = v ∨ g.Above b v) := by
  induction way using Relation.TransGen.head_induction_on with
  | single link => exact ⟨v, last, .last link, .inl rfl⟩
  | @head a w link _ ih =>
    obtain ⟨b, plain, through, rest⟩ := ih
    by_cases inter : Intermediate parent child generator g w
    · exact ⟨b, plain, .via link inter through, rest⟩
    · have above : g.Above w b := joins w b inter plain through
      exact ⟨w, inter, .last link, .inr (rest.elim (fun same => same ▸ above) above.trans)⟩

/-- Ways between nodes that are not in between are those of before if the parts of them that pass
    only nodes in between are. -/
theorem above_of_links (joins : ∀ a b, ¬Intermediate parent child generator g a →
      ¬Intermediate parent child generator g b → Through parent child generator g a b →
      g.Above a b) (first : ¬Intermediate parent child generator g u)
    (last : ¬Intermediate parent child generator g v)
    (way : Relation.TransGen (Link parent child generator g) u v) : g.Above u v := by
  obtain ⟨b, plain, through, rest⟩ := exists_through last joins way
  have above : g.Above u b := joins u b first plain through
  exact rest.elim (fun same => same ▸ above) above.trans

/-- A node is above another afterwards exactly if edges and ways by nodes in between lead there.
    Nothing is lost, and among the nodes that are not in between themselves nothing is gained
    exactly if what is joined by nodes in between alone was so before. -/
theorem above_insertIntermediate (wf : g.WellFormed) (parent child : Pattern)
    (generator : NameGenerator) :
    (∀ u v, (insertIntermediate parent child generator g).1.Above u v ↔
      Relation.TransGen (Link parent child generator g) u v) ∧
    (∀ u v, g.Above u v → (insertIntermediate parent child generator g).1.Above u v) ∧
    ((∀ u v, ¬Intermediate parent child generator g u → ¬Intermediate parent child generator g v →
        ((insertIntermediate parent child generator g).1.Above u v ↔ g.Above u v)) ↔
      ∀ u v, ¬Intermediate parent child generator g u → ¬Intermediate parent child generator g v →
        Through parent child generator g u v → g.Above u v) := by
  have start : Rerouting parent child generator g (g.nodesMatching parent) g :=
    ⟨wf, fun n there => ⟨there, rfl⟩, fun _ _ => .edge, fun _ _ _ edge => edge,
      fun _ _ _ => .inl⟩
  have matching : ∀ p ∈ g.nodesMatching parent, parent.matchesNode p (g.meta? p) :=
    fun p inside => (mem_nodesMatching.1 inside).2
  have nodup : (g.nodesMatching parent).Nodup := nodup_nodesMatching g parent
  obtain ⟨ended, along, joined⟩ := start.parents wf nodup matching
  have ways : ∀ u v, (insertIntermediate parent child generator g).1.Above u v ↔
      Relation.TransGen (Link parent child generator g) u v := by
    refine fun u v => ⟨Relation.TransGen.mono ended.within _ _,
      Relation.TransGen.lift' id (fun a b link => ?_) _ _⟩
    have listed : ∀ {p c i}, Between parent child generator g p c i →
        p ∈ g.nodesMatching parent := fun between =>
      mem_nodesMatching.2 ⟨between.edge.contains, between.outer⟩
    cases link with
    | edge edge => exact along a b edge.above
    | upper between => exact (joined a (listed between) _ b between).1
    | lower between => exact (joined _ (listed between) b a between).2
  refine ⟨ways, along, fun same u v first last through => ?_, fun joins u v first last => ?_⟩
  · exact (same u v first last).1 ((ways u v).2 through.links)
  · exact ⟨fun above => above_of_links joins first last ((ways u v).1 above), along u v⟩

/-! ### A zone of two networks -/

/-- The metadata of a node in the zone `z`. -/
def zoned (n : NodeId) : NodeMeta := { NodeMeta.forId n with attributes := [("zone", .text "z")] }

/-- Two networks, each with a subnet in the zone `z`. -/
def twoZoned : Graph :=
  let subnets := ((Graph.empty "aws").insertNode "aws_subnet.a" (zoned "aws_subnet.a")).insertNode
    "aws_subnet.b" (zoned "aws_subnet.b")
  ((subnets.addEdge "aws_vpc.a" "aws_subnet.a").1.addEdge "aws_vpc.b" "aws_subnet.b").1

theorem wellFormed_twoZoned : twoZoned.WellFormed :=
  wellFormed_addEdge (wellFormed_addEdge (wellFormed_insertNode (wellFormed_insertNode
    (wellFormed_empty "aws"))))

/-- Zones that are named by an attribute. -/
def zones : NameGenerator := ⟨"aws_az", "zone", "", none, false⟩

/-- The two networks with the zone that their subnets share. -/
def zonedNetworks : Graph :=
  (insertIntermediate (.ofType "aws_vpc") (.ofType "aws_subnet") zones twoZoned).1

theorem above_insertIntermediate_zones : twoZoned.WellFormed ∧
    zonedNetworks.Above "aws_vpc.a" "aws_subnet.a" ∧
    (zonedNetworks.Above "aws_vpc.a" "aws_subnet.b" ↔ Relation.TransGen
      (Link (.ofType "aws_vpc") (.ofType "aws_subnet") zones twoZoned)
      "aws_vpc.a" "aws_subnet.b") := by
  obtain ⟨ways, along, -⟩ := above_insertIntermediate wellFormed_twoZoned (.ofType "aws_vpc")
    (.ofType "aws_subnet") zones
  have edge : twoZoned.Edge "aws_vpc.a" "aws_subnet.a" := by
    unfold Edge
    decide +kernel
  exact ⟨wellFormed_twoZoned, along _ _ edge.above, ways _ _⟩

theorem not_intermediate {n : NodeId} (wf : g.WellFormed)
    (unnamed : ∀ c ∈ g.nodes, generator.nodeId? c (g.meta? c) ≠ some n) :
    ¬Intermediate parent child generator g n := by
  rintro ⟨p, c, between⟩
  exact unnamed c (mem_nodes.2 (wf.closed p c between.edge)) between.named

/-- A subnet of another network is below a network afterwards. -/
theorem insertIntermediate_joins : twoZoned.WellFormed ∧
    twoZoned.contains "aws_vpc.a" ∧ twoZoned.contains "aws_subnet.b" ∧
    ¬Intermediate (.ofType "aws_vpc") (.ofType "aws_subnet") zones twoZoned "aws_vpc.a" ∧
    ¬Intermediate (.ofType "aws_vpc") (.ofType "aws_subnet") zones twoZoned "aws_subnet.b" ∧
    ¬twoZoned.Above "aws_vpc.a" "aws_subnet.b" ∧
    zonedNetworks.Above "aws_vpc.a" "aws_subnet.b" := by
  have before : "aws_vpc.a" ∉ twoZoned.ancestors "aws_subnet.b" := by decide +kernel
  have edges : zonedNetworks.hasEdge "aws_vpc.a" "aws_az.z" ∧
      zonedNetworks.hasEdge "aws_az.z" "aws_subnet.b" := by decide +kernel
  refine ⟨wellFormed_twoZoned, by decide +kernel, by decide +kernel,
    not_intermediate wellFormed_twoZoned (by decide +kernel),
    not_intermediate wellFormed_twoZoned (by decide +kernel), fun above => ?_, ?_⟩
  · exact before ((mem_ancestors_iff wellFormed_twoZoned.nodup).2 ⟨by decide, above⟩)
  · exact .tail (.single (hasEdge_iff.1 edges.1)) (hasEdge_iff.1 edges.2)

end Cartograph.Arrangement

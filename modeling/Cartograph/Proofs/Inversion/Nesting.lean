import Cartograph.Proofs.Inversion.Run

/-!
# Containers of what was turned around

A node that is turned around comes between the nodes that referred to it and their containers.
These stay nested as long as a referring node leaves all its containers to the node around it, and
as long as what the node itself holds has no other container, since the node may go elsewhere.
`Nestable` asks for both, every turn keeps it (`Nestable.turn`), and so the graph is drawable at the
end (`drawable_reverseRelation`).

Without it that fails. Where two nodes refer to two numbered instances of one, copies of the second
take those of the first for their own, by the name, and do not come between them and what is inside
(`not_drawable_reverseRelation`).
-/

namespace Cartograph.Inversion

open Graph Arrangement Containment

variable {p : Rules.Providers} {pattern : Pattern} {g h h' : Graph}
  {made : List (NodeId × NodeId)} {A : List NodeId} {r s q n a b x : NodeId}

attribute [local irreducible] NodeId.splitSuffix NodeId.parts NodeId.withSuffix

/-! ### Containers after a turn -/

section

variable (wf : h.WellFormed) (t : Turned p h r made h')

include wf t

/-- Where a container of a node comes from. -/
theorem Turned.holds (group : p.isGroup (h.typeOf r)) (held : Holds p h' a x) :
    (Holds p h a x ∧ a ≠ r ∧ x ≠ r ∧
      ∀ c, (c, x) ∈ made → ¬Outer p h r (made.length = 1) x a) ∨
    (a, x) ∈ made ∨ (∃ q, (x, q) ∈ made ∧ Placed p h r (made.length = 1) q a) ∨
    ∃ q, made.head? = some (a, q) ∧ Holds p h r x := by
  have open' : ∀ {n}, n ≠ r → h.contains n → p.isGroup (h'.typeOf n) → p.isGroup (h.typeOf n) :=
    fun ne there group => t.typeOf_of_ne wf ne there ▸ group
  rcases (t.edge a x).1 held.edge with
    ⟨link, ha, hx, off⟩ | around | ⟨listed, placed⟩ | ⟨head, link⟩ | ⟨-, -, link, plain, -⟩
  · exact .inl ⟨⟨link, open' ha link.contains held.isGroup⟩, ha, hx, off⟩
  · exact .inr (.inl around)
  · exact .inr (.inr (.inl ⟨_, listed, placed⟩))
  · exact .inr (.inr (.inr ⟨_, head, link, group⟩))
  · have ne : a ≠ r := fun same => wf.noLoop r (same ▸ link)
    rw [open' ne link.contains held.isGroup] at plain
    exact absurd plain (by simp)

/-- A new node is in the containers that it was put into. -/
theorem Turned.placed (group : p.isGroup (h.typeOf r)) (inside : (x, q) ∈ made)
    (held : Holds p h' a x) : Placed p h r (made.length = 1) q a := by
  have old : h.contains x → x = r := t.fresh _ inside
  rcases t.holds wf group held with ⟨held, -, ne, -⟩ | around | ⟨q', listed, placed⟩ | ⟨-, -, held⟩
  · exact absurd (old (wf.closed a x held.edge)) ne
  · have refers := t.refers wf around
    have same : x = r := old refers.edge.contains
    exact absurd (same ▸ refers.edge) (wf.noLoop r)
  · obtain rfl : q = q' :=
      congrArg Prod.snd (List.inj_on_of_nodup_map t.nodup inside listed rfl)
    exact placed
  · have same : x = r := old (wf.closed r x held.edge)
    exact absurd (same ▸ held.edge) (wf.noLoop r)

/-- A referring node is in no container but the new node around it, unless one could be another new
    node by its name. -/
theorem Turned.sole (group : p.isGroup (h.typeOf r)) (inside : (n, x) ∈ made)
    (named : made.length ≠ 1 → ∀ c, Holds p h c x → NodeId.base c ≠ NodeId.base r)
    (held : Holds p h' a x) : a = n := by
  have refers := t.refers wf inside
  rcases t.holds wf group held with ⟨held, ne, -, off⟩ | around | ⟨q', listed, -⟩ | ⟨q', head, held⟩
  · refine absurd ⟨held, ne, ?_⟩ (off n inside)
    exact (Decidable.em (made.length = 1)).imp_right fun several => named several a held
  · exact congrArg Prod.fst (List.inj_on_of_nodup_map (t.once wf) around inside rfl)
  · have same : x = r := t.fresh _ listed refers.edge.contains
    exact absurd (same ▸ refers.edge) (wf.noLoop r)
  · by_cases alone : made.length = 1
    · obtain ⟨y, rfl⟩ := List.length_eq_one_iff.1 alone
      obtain rfl := List.mem_singleton.1 inside
      exact (congrArg Prod.fst (Option.some.inj head)).symm
    · exact absurd rfl (named alone r held)

/-- Another node is in the containers of before, or the first new node holds it. -/
theorem Turned.old_or_first (group : p.isGroup (h.typeOf r)) (new : ¬∃ q, (x, q) ∈ made)
    (inner : ¬∃ c, (c, x) ∈ made) (held : Holds p h' a x) :
    (Holds p h a x ∧ a ≠ r) ∨ ∃ q, made.head? = some (a, q) ∧ Holds p h r x := by
  rcases t.holds wf group held with ⟨held, ne, -⟩ | around | ⟨q, listed, -⟩ | first
  · exact .inl ⟨held, ne⟩
  · exact absurd ⟨a, around⟩ inner
  · exact absurd ⟨q, listed⟩ new
  · exact .inr first

end

/-! ### Nested containers -/

/-- Containers that stay nested when some nodes are turned around one after the other. -/
structure Nestable (p : Rules.Providers) (A : List NodeId) (h : Graph) : Prop where
  /-- Of two containers of a node one is above the other, clear of the nodes to come. -/
  nested : ∀ c a b, a ≠ b → Holds p h a c → Holds p h b c → Clear A h a b ∨ Clear A h b a
  /-- Where a node gets copies, what holds a node that refers to it could be none of them by its
      name. -/
  named : ∀ r ∈ A, 2 ≤ (referring p h r).length → ∀ q c, Refers p h q r → Holds p h c q →
    NodeId.base c ≠ NodeId.base r
  /-- Nor could a node whose turn comes before, and which the same node refers to. -/
  apart : A.Pairwise fun s r => 2 ≤ (referring p h r).length →
    ∀ q, Refers p h q s → Refers p h q r → NodeId.base s ≠ NodeId.base r

theorem Nestable.drawable (n : Nestable p A h) : Drawable p h := fun c a b ne ha hb =>
  (n.nested c a b ne ha hb).imp Clear.above Clear.above

/-- After a turn the containers of a node are nested. -/
theorem Nestable.nested_turn (n : Nestable p (r :: A) h) (ready : Ready p (r :: A) h)
    (t : Turned p h r made (invert p h r)) (ne : a ≠ b) (ha : Holds p (invert p h r) a x)
    (hb : Holds p (invert p h r) b x) :
    Clear A (invert p h r) a b ∨ Clear A (invert p h r) b a := by
  have wf := ready.wellFormed
  have group := ready.isGroup r List.mem_cons_self
  have still : ∀ {c}, Holds p h a c → Holds p h b c →
      Clear A (invert p h r) a b ∨ Clear A (invert p h r) b a := fun ha hb =>
    (n.nested _ a b ne ha hb).imp ready.clear_turn ready.clear_turn
  -- Nothing that the node holds has another container, since no path between them would be clear.
  have sole : ∀ {c d}, Holds p h r d → Holds p h c d → c = r := fun hr hc =>
    Decidable.byContradiction fun ne => (n.nested _ _ _ ne hc hr).elim
      (fun path => path.last List.mem_cons_self) fun path => path.first List.mem_cons_self
  by_cases new : ∃ q, (x, q) ∈ made
  · obtain ⟨q, inside⟩ := new
    rcases t.placed wf group inside ha, t.placed wf group inside hb with
      ⟨outA | ⟨none, ownA⟩, outB | ⟨none', ownB⟩⟩
    · exact still outA.1 outB.1
    · exact absurd outA (none' a)
    · exact absurd outB (none b)
    · exact still ownA ownB
  by_cases inner : ∃ c, (c, x) ∈ made
  · obtain ⟨c, inside⟩ := inner
    have several : made.length ≠ 1 → 2 ≤ (referring p h r).length := by
      rw [← t.referring.length_eq, List.length_map]
      have := List.length_pos_of_mem inside
      omega
    have named := fun many c held =>
      n.named r List.mem_cons_self (several many) x c (t.refers wf inside) held
    have same := t.sole wf group inside named ha
    exact absurd (same.trans (t.sole wf group inside named hb).symm) ne
  · rcases t.old_or_first wf group new inner ha, t.old_or_first wf group new inner hb with
      ⟨⟨oldA, neA⟩ | ⟨q, headA, ownA⟩, ⟨oldB, neB⟩ | ⟨q', headB, ownB⟩⟩
    · exact still oldA oldB
    · exact absurd (sole ownB oldA) neA
    · exact absurd (sole ownA oldB) neB
    · exact absurd (congrArg Prod.fst (Option.some.inj (headA.symm.trans headB))) ne

/-- A node that refers to one to come gets no container that could be a copy of that. -/
theorem Nestable.named_turn (n : Nestable p (r :: A) h) (ready : Ready p (r :: A) h)
    (t : Turned p h r made (invert p h r)) (inside : s ∈ A) (several : 2 ≤ (referring p h s).length)
    (refers : Refers p (invert p h r) q s) (old : Refers p h q s)
    (held : Holds p (invert p h r) a q) : NodeId.base a ≠ NodeId.base s := by
  have wf := ready.wellFormed
  have group := ready.isGroup r List.mem_cons_self
  have named := n.named s (List.mem_cons_of_mem r inside) several q
  rcases t.holds wf group held with ⟨held, -⟩ | around | ⟨q', listed, -⟩ | ⟨q', head, held⟩
  · exact named a old held
  · rw [t.base _ around]
    exact (List.pairwise_cons.1 n.apart).1 s inside several q (t.refers wf around) old
  · have type := t.typeOf _ listed
    exact absurd (type ▸ group) refers.not_isGroup
  · rw [t.base _ (List.mem_of_mem_head? head)]
    exact named r old held

/-- A turn leaves containers that stay nested. -/
theorem Nestable.turn (n : Nestable p (r :: A) h) (ready : Ready p (r :: A) h) :
    Nestable p A (invert p h r) := by
  have wf := ready.wellFormed
  have wf' := ready.step.wellFormed
  have refers : ∀ s ∈ A, ∀ q, Refers p (invert p h r) q s ↔ Refers p h q s := fun s inside =>
    ready.refers_turn inside
  have as_many : ∀ s ∈ A, (referring p (invert p h r) s).length = (referring p h s).length :=
    fun s inside => length_referring_congr wf' wf (refers s inside)
  refine ⟨fun x a b ne ha hb => ?_, fun s inside several q c refers' held => ?_,
    (List.pairwise_cons.1 n.apart).2.imp_of_mem fun {s s'} hs hs' apart several q one other => ?_⟩
  · rcases ready.turn with ⟨-, same⟩ | ⟨made, -, t⟩
    · rw [same] at ha hb ⊢
      exact (n.nested x a b ne ha hb).imp (Clear.mono (List.subset_cons_self r A))
        (Clear.mono (List.subset_cons_self r A))
    · exact n.nested_turn ready t ne ha hb
  · have old := (refers s inside q).1 refers'
    rw [as_many s inside] at several
    rcases ready.turn with ⟨-, same⟩ | ⟨made, -, t⟩
    · rw [same] at held
      exact n.named s (List.mem_cons_of_mem r inside) several q c old held
    · exact n.named_turn ready t inside several refers' old held
  · rw [as_many s' hs'] at several
    exact apart several q ((refers s hs q).1 one) ((refers s' hs' q).1 other)

theorem Nestable.run (n : Nestable p A h) (ready : Ready p A h) :
    Nestable p [] (eachSilent (invert p) A h) := by
  induction A generalizing h with
  | nil => exact n
  | cons r rest ih => exact ih (n.turn ready) ready.step

/-! ### The nodes that are turned around -/

/-- The nodes that a pattern selects and that others refer to. -/
def turning (p : Rules.Providers) (pattern : Pattern) (g : Graph) : List NodeId :=
  (g.nodesMatching pattern).filter fun r => referring p g r ≠ []

/-- Nodes that nothing refers to have no turn. -/
theorem Ready.skip (ready : Ready p A h) : eachSilent (invert p) A h =
    eachSilent (invert p) (A.filter fun r => referring p h r ≠ []) h := by
  induction A generalizing h with
  | nil => rfl
  | cons r rest ih =>
    have rest_eq : rest.filter (fun s => referring p (invert p h r) s ≠ []) =
        rest.filter fun s => referring p h s ≠ [] := by
      refine List.filter_congr fun s inside => ?_
      have as_many := length_referring_congr ready.step.wellFormed ready.wellFormed
        (ready.refers_turn inside)
      simp only [ne_eq, ← List.length_eq_zero_iff, as_many]
    have step := ih ready.step
    rw [rest_eq] at step
    by_cases none : referring p h r = []
    · rw [List.filter_cons_of_neg (by simpa using none)]
      rw [invert_unreferred none] at step
      show eachSilent (invert p) rest (invert p h r) = _
      rw [invert_unreferred none, step]
    · rw [List.filter_cons_of_pos (by simpa using none)]
      exact step

/-- Containers that are nested stay so when the relations of containers are turned around, if they
    are as `Nestable` says. -/
theorem drawable_reverseRelation (wf : g.WellFormed)
    (group : ∀ r ∈ g.nodesMatching pattern, p.isGroup (g.typeOf r))
    (small : g.size + g.edgeCount ≤ Nat.pow 2 64) (nestable : Nestable p (turning p pattern g) g) :
    Drawable p (reverseRelation p pattern g) := by
  have ready := ready_nodesMatching wf group small
  have ready' : Ready p (turning p pattern g) g := ready_of_small wf (ready.nodup.filter _)
    (fun r inside => ready.contains r (List.mem_filter.1 inside).1)
    (fun r inside => group r (List.mem_filter.1 inside).1) small
  rw [reverseRelation, ready.skip]
  exact (nestable.run ready').drawable

/-! ### An instance in a network and its subnet -/

/-- It is enough to look at the nodes of the graph, if of two containers of a node one holds the
    other. -/
theorem nestable_of_nodes (wf : g.WellFormed)
    (nested : ∀ c ∈ g.nodes, ∀ a ∈ groupParents p g c, ∀ b ∈ groupParents p g c, a ≠ b →
      a ∉ A ∧ b ∉ A ∧ (g.hasEdge a b ∨ g.hasEdge b a))
    (named : ∀ r ∈ A, 2 ≤ (referring p g r).length → ∀ q ∈ referring p g r,
      ∀ c ∈ groupParents p g q, NodeId.base c ≠ NodeId.base r)
    (apart : A.Pairwise fun s r => 2 ≤ (referring p g r).length →
      ∀ q ∈ referring p g s, q ∈ referring p g r → NodeId.base s ≠ NodeId.base r) :
    Nestable p A g := by
  have holder : ∀ {a c}, Holds p g a c → a ∈ groupParents p g c := (mem_groupParents wf.nodup).2
  have refer : ∀ {q r}, Refers p g q r → q ∈ referring p g r := (mem_referring wf).2
  refine ⟨fun c a b ne ha hb => ?_, fun r inside several q c refers held =>
    named r inside several q (refer refers) c (holder held),
    apart.imp fun apart several q one other => apart several q (refer one) (refer other)⟩
  obtain ⟨outA, outB, edge⟩ := nested c (mem_nodes.2 (wf.closed a c ha.edge)) a (holder ha) b
    (holder hb) ne
  exact edge.imp (fun edge => .single ⟨hasEdge_iff.1 edge, outA, outB⟩)
    fun edge => .single ⟨hasEdge_iff.1 edge, outB, outA⟩

/-- Two instances behind a security group, one of them in a network and a subnet of it. -/
def nestedGuarded : Graph :=
  let g := ((Graph.empty "aws").addEdge "aws_vpc.main" "aws_subnet.a").1
  let g := (g.addEdge "aws_vpc.main" "aws_instance.a").1
  let g := (g.addEdge "aws_subnet.a" "aws_instance.a").1
  let g := (g.addEdge "aws_instance.a" "aws_security_group.web").1
  (g.addEdge "aws_instance.b" "aws_security_group.web").1

theorem wellFormed_nestedGuarded : nestedGuarded.WellFormed :=
  wellFormed_addEdge (wellFormed_addEdge (wellFormed_addEdge (wellFormed_addEdge
    (wellFormed_addEdge (wellFormed_empty "aws")))))

theorem nestable_nestedGuarded : Nestable Expansion.subnets
    (turning Expansion.subnets (.ofType "aws_security_group") nestedGuarded) nestedGuarded :=
  nestable_of_nodes wellFormed_nestedGuarded (by decide +kernel) (by decide +kernel)
    (by decide +kernel)

theorem drawable_reverseRelation_nestedGuarded : nestedGuarded.WellFormed ∧
    (∀ r ∈ nestedGuarded.nodesMatching (.ofType "aws_security_group"),
      Expansion.subnets.isGroup (nestedGuarded.typeOf r)) ∧
    nestedGuarded.size + nestedGuarded.edgeCount ≤ Nat.pow 2 64 ∧
    Nestable Expansion.subnets
      (turning Expansion.subnets (.ofType "aws_security_group") nestedGuarded) nestedGuarded ∧
    Drawable Expansion.subnets
      (reverseRelation Expansion.subnets (.ofType "aws_security_group") nestedGuarded) := by
  have group : ∀ r ∈ nestedGuarded.nodesMatching (.ofType "aws_security_group"),
      Expansion.subnets.isGroup (nestedGuarded.typeOf r) := by decide +kernel
  have small : nestedGuarded.size + nestedGuarded.edgeCount ≤ Nat.pow 2 64 := by decide +kernel
  exact ⟨wellFormed_nestedGuarded, group, small, nestable_nestedGuarded,
    drawable_reverseRelation wellFormed_nestedGuarded group small nestable_nestedGuarded⟩

/-- Two instances behind two numbered security groups. -/
def doublyGuarded : Graph :=
  let g := ((Graph.empty "aws").addEdge "aws_instance.a" "aws_security_group.web~1").1
  let g := (g.addEdge "aws_instance.a" "aws_security_group.web~2").1
  let g := (g.addEdge "aws_instance.b" "aws_security_group.web~1").1
  (g.addEdge "aws_instance.b" "aws_security_group.web~2").1

theorem wellFormed_doublyGuarded : doublyGuarded.WellFormed :=
  wellFormed_addEdge (wellFormed_addEdge (wellFormed_addEdge (wellFormed_addEdge
    (wellFormed_empty "aws"))))

/-- An instance ends up in copies of both, and neither is in the other. -/
theorem not_drawable_reverseRelation : doublyGuarded.WellFormed ∧
    Drawable Expansion.subnets doublyGuarded ∧
    (∀ r ∈ doublyGuarded.nodesMatching (.ofType "aws_security_group"),
      Expansion.subnets.isGroup (doublyGuarded.typeOf r)) ∧
    ¬Drawable Expansion.subnets
      (reverseRelation Expansion.subnets (.ofType "aws_security_group") doublyGuarded) := by
  have group : ∀ r ∈ doublyGuarded.nodesMatching (.ofType "aws_security_group"),
      Expansion.subnets.isGroup (doublyGuarded.typeOf r) := by decide +kernel
  have drawable : Drawable Expansion.subnets doublyGuarded :=
    drawable_of_allNested wellFormed_doublyGuarded (by decide +kernel)
  have conflict : isConflict Expansion.subnets
      (reverseRelation Expansion.subnets (.ofType "aws_security_group") doublyGuarded)
      "aws_security_group.web~1" "aws_security_group.web~2" "aws_instance.a" := by decide +kernel
  have ready := ready_nodesMatching wellFormed_doublyGuarded group (by decide +kernel)
  exact ⟨wellFormed_doublyGuarded, drawable, group,
    not_drawable_of_conflict ready.wellFormed_each.nodup conflict⟩

end Cartograph.Inversion

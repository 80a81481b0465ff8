import Cartograph.Proofs.Inversion.Copies

/-!
# Turning nodes around one after the other

A node's turn comes when the graph is no longer the one it was selected from: nodes before it have
been copied, renamed and put elsewhere. `Onward` says what a turn leaves to those after it: the other
nodes, their metadata and, where they are containers, the nodes that refer to them. Nothing refers
to what is new. It holds of one turn (`onward_turn`) and so of several (`Ready.onward`).

A path that stays clear of the nodes that are still to come is never cut: what is between two of its
nodes at the end was put there (`Ready.clear`). So at the end every referring node is still inside
of the node that was put around it (`reverseRelation_turned`).
-/

namespace Cartograph.Inversion

open Graph Arrangement Containment

variable {p : Rules.Providers} {g h h' f : Graph} {made : List (NodeId × NodeId)}
  {A B : List NodeId} {r s q n a b : NodeId}

attribute [local irreducible] NodeId.splitSuffix NodeId.parts NodeId.withSuffix

/-! ### One turn -/

section

variable (wf : h.WellFormed) (t : Turned p h r made h')

include t

theorem Turned.not_made (there : h.contains n) (ne : n ≠ r) : n ∉ made.map Prod.fst := by
  intro inside
  obtain ⟨x, listed, rfl⟩ := List.mem_map.1 inside
  exact ne (t.fresh x listed there)

include wf

theorem Turned.refers {x : NodeId × NodeId} (inside : x ∈ made) : Refers p h x.2 r :=
  (mem_referring wf).1 (t.referring.subset (List.mem_map_of_mem inside))

theorem Turned.once : (made.map Prod.snd).Nodup :=
  t.referring.nodup_iff.2 ((wf.nodup_parents r).filter _)

theorem Turned.typeOf_of_ne (ne : n ≠ r) (there : h.contains n) : h'.typeOf n = h.typeOf n :=
  (t.keeps n ne).typeOf wf there

theorem Turned.hidden_of_ne (ne : n ≠ r) (there : h.contains n) :
    ((h'.meta? n).map (·.hidden)).getD false = ((h.meta? n).map (·.hidden)).getD false := by
  obtain ⟨m, found⟩ := wf.exists_meta there
  obtain ⟨m', found', alike⟩ := t.keeps n ne m found
  rw [found, found']
  exact (congrArg NodeMeta.hidden alike.unlabelled :)

/-- The nodes that refer to another container stay the same. -/
theorem Turned.refers_iff (group : p.isGroup (h.typeOf r)) (there : h.contains s)
    (group' : p.isGroup (h.typeOf s)) (ne : s ≠ r) : Refers p h' q s ↔ Refers p h q s := by
  have not_in : ∀ c, (c, s) ∉ made := fun c inside => (t.refers wf inside).not_isGroup group'
  constructor
  · intro refers
    rcases (t.edge q s).1 refers.edge with
      ⟨link, other, -, -⟩ | around | ⟨listed, -⟩ | ⟨head, -⟩ | ⟨-, same, -⟩
    · exact ⟨link, t.typeOf_of_ne wf other link.contains ▸ refers.plain,
        t.hidden_of_ne wf other link.contains ▸ refers.visible⟩
    · exact absurd around (not_in q)
    · exact absurd (List.mem_map_of_mem listed) (t.not_made there ne)
    · have type := t.typeOf _ (List.mem_of_mem_head? head)
      exact absurd (type ▸ group) refers.not_isGroup
    · exact absurd (by simp [same]) (t.not_made there ne)
  · intro refers
    have other : q ≠ r := by
      rintro rfl
      exact refers.not_isGroup group
    have link := refers.edge
    exact ⟨(t.edge q s).2 (.other link other ne fun c inside => absurd inside (not_in c)),
      t.typeOf_of_ne wf other link.contains ▸ refers.plain,
      t.hidden_of_ne wf other link.contains ▸ refers.visible⟩

/-- Nothing refers to the new nodes. -/
theorem Turned.not_refers {x : NodeId × NodeId} (inside : x ∈ made)
    (group : p.isGroup (h.typeOf r)) : ¬Refers p h' q x.1 := by
  intro refers
  have own : ∀ n, h.Edge n r → n ≠ r := fun n link same => wf.noLoop r (same ▸ link)
  rcases (t.edge q x.1).1 refers.edge with
    ⟨link, -, ne, -⟩ | around | ⟨-, placed⟩ | ⟨head, -⟩ | ⟨-, same, link, plain, ne⟩
  · exact ne (t.fresh x inside (wf.closed q x.1 link))
  · have link := (t.refers wf around).edge
    exact own _ link (t.fresh x inside link.contains)
  · obtain ⟨n, held, ne⟩ : ∃ n, Holds p h q n ∧ q ≠ r := by
      rcases placed with out | ⟨-, held⟩
      · exact ⟨_, out.1, out.2.1⟩
      · exact ⟨_, held, own q held.edge⟩
    exact refers.not_isGroup (t.typeOf_of_ne wf ne held.edge.contains ▸ held.isGroup)
  · have type := t.typeOf _ (List.mem_of_mem_head? head)
    exact refers.not_isGroup (type ▸ group)
  · -- A node that refers to the new one was hidden, or it would have got its own.
    have visible := t.hidden_of_ne wf (own q link) link.contains ▸ refers.visible
    have listed := t.referring.mem_iff.2 ((mem_referring wf).2 ⟨link, plain, visible⟩)
    rw [same] at listed
    exact ne (by simpa using listed)

end

theorem Turned.size_le (t : Turned p h r made h') : h'.size ≤ h.size + made.length := by
  have le := t.wellFormed.size_le (l := h.nodes ++ made.map Prod.fst) fun n there => by
    rw [List.mem_append, mem_nodes]
    exact ((t.contains n).1 there).elim .inr fun h => .inl h.2
  rwa [List.length_append, List.length_map, nodes, List.length_map] at le

/-! ### What is left to later turns -/

/-- What turns of some nodes leave as it was, and what is new. -/
structure Onward (p : Rules.Providers) (A : List NodeId) (h h' : Graph) : Prop where
  contains : ∀ n, n ∉ A → h.contains n → h'.contains n
  keeps : ∀ n, n ∉ A → h.contains n → Keeps (fun k => k ∈ A ∨ ¬h.contains k) h h' n
  refers : ∀ s, s ∉ A → h.contains s → p.isGroup (h.typeOf s) →
    ∀ q, Refers p h' q s ↔ Refers p h q s
  /-- Nothing refers to nodes that are new or had their turn. -/
  settled : ∀ n, h'.contains n → n ∈ A ∨ ¬h.contains n →
    p.isGroup (h'.typeOf n) ∧ ∀ q, ¬Refers p h' q n

theorem Onward.refl (h : Graph) : Onward p [] h h where
  contains _ _ := id
  keeps _ _ _ := .of_eq rfl
  refers _ _ _ _ _ := .rfl
  settled _ there off := absurd there (off.resolve_left List.not_mem_nil)

theorem Onward.trans (wf : h.WellFormed) (wf' : h'.WellFormed) (o : Onward p A h h')
    (o' : Onward p B h' f) : Onward p (A ++ B) h f where
  contains n other there := by
    rw [List.mem_append, not_or] at other
    exact o'.contains n other.2 (o.contains n other.1 there)
  keeps n other there := by
    rw [List.mem_append, not_or] at other
    refine .trans ((o.keeps n other.1 there).mono ?_)
      ((o'.keeps n other.2 (o.contains n other.1 there)).mono ?_)
    · exact fun k off => off.imp_left (List.mem_append_left B)
    · intro k off
      rcases off with inside | gone
      · exact .inl (List.mem_append_right A inside)
      · by_cases inside : k ∈ A
        · exact .inl (List.mem_append_left B inside)
        · exact .inr fun there => gone (o.contains k inside there)
  refers s other there group q := by
    rw [List.mem_append, not_or] at other
    have there' := o.contains s other.1 there
    have type := (o.keeps s other.1 there).typeOf wf there
    rw [o'.refers s other.2 there' (type ▸ group) q, o.refers s other.1 there group q]
  settled n there off := by
    by_cases new : n ∈ B ∨ ¬h'.contains n
    · exact o'.settled n there new
    · obtain ⟨other, there'⟩ := not_or.1 new
      have there' := Classical.not_not.1 there'
      obtain ⟨group, none⟩ := o.settled n there'
        (off.imp_left fun inside => (List.mem_append.1 inside).resolve_right other)
      have type := (o'.keeps n other there').typeOf wf' there'
      exact ⟨type ▸ group, fun q => mt (o'.refers n other there' group q).1 (none q)⟩

theorem onward_turned (wf : h.WellFormed) (group : p.isGroup (h.typeOf r))
    (t : Turned p h r made h') : Onward p [r] h h' where
  contains n other there := (t.contains n).2 (.inr ⟨List.ne_of_not_mem_cons other, there⟩)
  keeps n other there := by
    refine (t.keeps n (List.ne_of_not_mem_cons other)).mono fun k off => ?_
    by_cases same : k = r
    · exact .inl (List.mem_singleton.2 same)
    · exact .inr fun there => t.not_made there same (off.resolve_left same)
  refers s other there group' q :=
    t.refers_iff wf group there group' (List.ne_of_not_mem_cons other)
  settled n there off := by
    have new : n ∈ made.map Prod.fst := ((t.contains n).1 there).resolve_right fun old =>
      off.elim (fun same => old.1 (List.mem_singleton.1 same)) fun gone => gone old.2
    obtain ⟨x, listed, rfl⟩ := List.mem_map.1 new
    exact ⟨(t.typeOf x listed).symm ▸ group, fun q => t.not_refers wf listed group⟩

theorem onward_unreferred (wf : h.WellFormed) (group : p.isGroup (h.typeOf r))
    (none : referring p h r = []) : Onward p [r] h h where
  contains _ _ := id
  keeps _ _ _ := .of_eq rfl
  refers _ _ _ _ _ := .rfl
  settled n there off := by
    obtain rfl := List.mem_singleton.1 (off.resolve_right fun gone => gone there)
    refine ⟨group, fun q refers => ?_⟩
    have inside := (mem_referring wf).2 refers
    rw [none] at inside
    exact List.not_mem_nil inside

/-- A graph in which it is the turn of some containers, with numbers left for the copies. -/
structure Ready (p : Rules.Providers) (A : List NodeId) (h : Graph) : Prop where
  wellFormed : h.WellFormed
  nodup : A.Nodup
  contains : ∀ r ∈ A, h.contains r
  isGroup : ∀ r ∈ A, p.isGroup (h.typeOf r)
  small : h.size + (A.flatMap (referring p h)).length ≤ Nat.pow 2 64

/-- It is the turn of the first one: nothing refers to it, or it is turned around. -/
theorem Ready.turn (ready : Ready p (r :: A) h) :
    (referring p h r = [] ∧ invert p h r = h) ∨
      ∃ made, made ≠ [] ∧ Turned p h r made (invert p h r) := by
  by_cases none : referring p h r = []
  · exact .inl ⟨none, invert_unreferred none⟩
  · have small := ready.small
    rw [List.flatMap_cons, List.length_append] at small
    obtain ⟨made, t⟩ := turned_invert ready.wellFormed (ready.contains r List.mem_cons_self) none
      (by omega)
    refine .inr ⟨made, ?_, t⟩
    rintro rfl
    exact none t.referring.symm.eq_nil

theorem onward_turn (ready : Ready p (r :: A) h) : Onward p [r] h (invert p h r) := by
  have group := ready.isGroup r List.mem_cons_self
  rcases ready.turn with ⟨none, same⟩ | ⟨made, -, t⟩
  · rw [same]
    exact onward_unreferred ready.wellFormed group none
  · exact onward_turned ready.wellFormed group t

/-- As many nodes refer to a node if the same do. -/
theorem length_referring_congr (wf : h.WellFormed) (wf' : h'.WellFormed)
    (same : ∀ q, Refers p h q s ↔ Refers p h' q s) :
    (referring p h s).length = (referring p h' s).length := by
  refine List.Perm.length_eq ((List.perm_ext_iff_of_nodup ((wf.nodup_parents s).filter _)
    ((wf'.nodup_parents s).filter _)).2 fun q => ?_)
  exact (mem_referring wf).trans ((same q).trans (mem_referring wf').symm)

/-- What refers to the nodes to come stays the same. -/
theorem Ready.refers_turn (ready : Ready p (r :: A) h) (inside : s ∈ A) (q : NodeId) :
    Refers p (invert p h r) q s ↔ Refers p h q s := by
  have later := List.mem_cons_of_mem r inside
  refine (onward_turn ready).refers s (fun same => ?_) (ready.contains s later)
    (ready.isGroup s later) q
  exact (List.nodup_cons.1 ready.nodup).1 (List.mem_singleton.1 same ▸ inside)

theorem Ready.step (ready : Ready p (r :: A) h) : Ready p A (invert p h r) := by
  obtain ⟨fresh, nodup⟩ := List.nodup_cons.1 ready.nodup
  have wf := ready.wellFormed
  have wf' : (invert p h r).WellFormed := by
    rcases ready.turn with ⟨-, same⟩ | ⟨made, -, t⟩
    · rw [same]
      exact wf
    · exact t.wellFormed
  have onward := onward_turn ready
  have other : ∀ s ∈ A, s ∉ [r] := fun s inside same => fresh (List.mem_singleton.1 same ▸ inside)
  have there : ∀ s ∈ A, h.contains s := fun s inside =>
    ready.contains s (List.mem_cons_of_mem r inside)
  have group : ∀ s ∈ A, p.isGroup (h.typeOf s) := fun s inside =>
    ready.isGroup s (List.mem_cons_of_mem r inside)
  have as_many : ∀ s ∈ A, (referring p (invert p h r) s).length = (referring p h s).length :=
    fun s inside => length_referring_congr wf' wf (ready.refers_turn inside)
  refine ⟨wf', nodup, fun s inside => onward.contains s (other s inside) (there s inside),
    fun s inside => ?_, ?_⟩
  · rw [(onward.keeps s (other s inside) (there s inside)).typeOf wf (there s inside)]
    exact group s inside
  · have small := ready.small
    rw [List.flatMap_cons, List.length_append] at small
    rw [List.length_flatMap, List.map_congr_left as_many, ← List.length_flatMap]
    have le : (invert p h r).size ≤ h.size + (referring p h r).length := by
      rcases ready.turn with ⟨-, same⟩ | ⟨made, -, t⟩
      · rw [same]
        exact Nat.le_add_right _ _
      · rw [← t.referring.length_eq, List.length_map]
        exact t.size_le
    omega

theorem Ready.run (ready : Ready p (A ++ B) h) : Ready p B (eachSilent (invert p) A h) := by
  induction A generalizing h with
  | nil => exact ready
  | cons r rest ih => exact ih ready.step

/-- What the turns of the first nodes leave to the others. -/
theorem Ready.onward (ready : Ready p (A ++ B) h) :
    Onward p A h (eachSilent (invert p) A h) := by
  induction A generalizing h with
  | nil => exact .refl h
  | cons r rest ih =>
    exact (onward_turn ready).trans ready.wellFormed ready.step.wellFormed (ih ready.step)

/-! ### Paths -/

/-- A path that is clear of some nodes. -/
def Clear (A : List NodeId) (h : Graph) : NodeId → NodeId → Prop :=
  Relation.TransGen fun a b => h.Edge a b ∧ a ∉ A ∧ b ∉ A

theorem Clear.above (path : Clear A h a b) : h.Above a b :=
  Relation.TransGen.mono (fun _ _ step => step.1) _ _ path

theorem Clear.first (path : Clear A h a b) : a ∉ A := by
  obtain ⟨_, step, -⟩ := Relation.TransGen.head'_iff.1 path
  exact step.2.1

theorem Clear.last (path : Clear A h a b) : b ∉ A := by
  obtain ⟨_, -, step⟩ := Relation.TransGen.tail'_iff.1 path
  exact step.2.2

theorem Clear.mono (fewer : B ⊆ A) (path : Clear A h a b) : Clear B h a b :=
  Relation.TransGen.mono (fun _ _ step => ⟨step.1, mt (@fewer _) step.2.1, mt (@fewer _) step.2.2⟩)
    _ _ path

/-- The new nodes are none of those to come. -/
theorem Ready.made_not_mem (ready : Ready p (r :: A) h) (t : Turned p h r made h') :
    ∀ x ∈ made, x.1 ∉ A := by
  intro x listed inside
  have same := t.fresh x listed (ready.contains _ (List.mem_cons_of_mem r inside))
  exact (List.nodup_cons.1 ready.nodup).1 (same ▸ inside)

/-- A turn leaves a path that is clear of the node and of those to come. -/
theorem Ready.clear_turn (ready : Ready p (r :: A) h) (path : Clear (r :: A) h a b) :
    Clear A (invert p h r) a b := by
  refine Relation.TransGen.lift' id (fun x y step => ?_) _ _ path
  obtain ⟨link, hx, hy⟩ := step
  rw [List.mem_cons, not_or] at hx hy
  rcases ready.turn with ⟨-, same⟩ | ⟨made, -, t⟩
  · rw [same]
    exact .single ⟨link, hx.2, hy.2⟩
  · by_cases out : ∃ c, (c, y) ∈ made ∧ Outer p h r (made.length = 1) y x
    · -- The edge is left to the node around its end, so it leads there through that node.
      obtain ⟨c, inside, out⟩ := out
      have apart : c ∉ A := ready.made_not_mem t _ inside
      exact .head ⟨(t.edge x c).2 (.placed inside (.inl out)), hx.2, apart⟩
        (.single ⟨(t.edge c y).2 (.around inside), apart, hy.2⟩)
    · exact .single ⟨(t.edge x y).2 (.other link hx.1 hy.1 fun c inside h => out ⟨c, inside, h⟩),
        hx.2, hy.2⟩

theorem Ready.clear (ready : Ready p (A ++ B) h) (path : Clear (A ++ B) h a b) :
    Clear B (eachSilent (invert p) A h) a b := by
  induction A generalizing h with
  | nil => exact path
  | cons r rest ih => exact ih ready.step (ready.clear_turn path)

/-! ### What becomes of each node -/

/-- What becomes of a node of a graph `g` whose turn comes when the graph is `h`, and which at the end
    is `f`: the new nodes, each with the referring node that it is put around. -/
structure Replacement (p : Rules.Providers) (off : NodeId → Prop) (g h f : Graph) (r : NodeId)
    (made : List (NodeId × NodeId)) : Prop where
  /-- There is one for each node that refers to it at its turn. -/
  refers : ∀ q, q ∈ made.map Prod.snd ↔ Refers p h q r
  once : (made.map Prod.snd).Nodup
  nodup : (made.map Prod.fst).Nodup
  /-- No other node has one of the names. -/
  fresh : ∀ x ∈ made, h.contains x.1 → x.1 = r
  unreferred : made = [] → f.contains r ∧ Keeps off g f r
  named : made.length = 1 → ∀ x ∈ made, x.1 = r ∨
    ∃ i, NodeId.suffix? x.2 = some i ∧ x.1 = NodeId.withSuffix r i
  replaced : made ≠ [] → ∀ n, (invert p h r).contains n ↔
    n ∈ made.map Prod.fst ∨ (n ≠ r ∧ h.contains n)
  above : ∀ x ∈ made, f.Above x.1 x.2
  found : ∀ m, g.meta? r = some m → ∀ x ∈ made, ∃ m', f.meta? x.1 = some m' ∧
    m'.unlabelled = (if made.length = 1 then m else m.copied).unlabelled

/-- A node that nothing refers to stays. -/
theorem replacement_unreferred (onward : Onward p (A ++ B) g f) (there : g.contains r)
    (other : r ∉ A ++ B) (unreferred : ∀ q, ¬Refers p h q r) :
    Replacement p (fun k => k ∈ A ++ r :: B ∨ ¬g.contains k) g h f r [] where
  refers q := ⟨fun inside => absurd inside List.not_mem_nil,
    fun refers => absurd refers (unreferred q)⟩
  once := .nil
  nodup := .nil
  fresh _ inside := absurd inside List.not_mem_nil
  unreferred _ := by
    refine ⟨onward.contains r other there, (onward.keeps r other there).mono fun k off => ?_⟩
    rw [List.mem_append] at off
    rw [List.mem_append, List.mem_cons]
    exact off.imp_left (Or.imp_right .inr)
  named one := absurd one (by simp)
  replaced some := absurd rfl some
  above _ inside := absurd inside List.not_mem_nil
  found _ _ _ inside := absurd inside List.not_mem_nil

/-- A node that is turned around is replaced, and stays so in the turns after it. -/
theorem Turned.replacement {off : NodeId → Prop} (t : Turned p h r made (invert p h r))
    (some : made ≠ []) (ready : Ready p (r :: B) h) (before : Keeps off g h r) :
    Replacement p off g h (eachSilent (invert p) B (invert p h r)) r made := by
  have wf := ready.wellFormed
  have apart := ready.made_not_mem t
  have later : Ready p (B ++ []) (invert p h r) := (List.append_nil B).symm ▸ ready.step
  have edge : ∀ x ∈ made, (invert p h r).Edge x.1 x.2 := fun x inside =>
    (t.edge x.1 x.2).2 (.around inside)
  have inner : ∀ x ∈ made, x.2 ∉ B := fun x listed inside =>
    (t.refers wf listed).not_isGroup (ready.isGroup x.2 (List.mem_cons_of_mem r inside))
  refine ⟨fun q => ?_, t.once wf, t.nodup, t.fresh, fun none => absurd none some, t.named,
    fun _ => t.contains, fun x inside => ?_, fun m found x inside => ?_⟩
  · rw [t.referring.mem_iff, mem_referring wf]
  · refine (later.clear (.single ⟨edge x inside, ?_, ?_⟩)).above
    · simpa using apart x inside
    · simpa using inner x inside
  · obtain ⟨m₁, found₁, alike₁⟩ := before m found
    obtain ⟨m₂, found₂, same₂⟩ := t.found m₁ found₁ x inside
    obtain ⟨m₃, found₃, alike₃⟩ :=
      later.onward.keeps x.1 (apart x inside) (edge x inside).contains m₂ found₂
    refine ⟨m₃, found₃, alike₃.unlabelled.trans (same₂.trans ?_)⟩
    split
    · exact alike₁.unlabelled
    · exact congrArg NodeMeta.copied alike₁.unlabelled

/-- A node whose turn comes after those of `A` and before those of `B`. -/
theorem Ready.replacement (ready : Ready p (A ++ r :: B) g) :
    ∃ made, Replacement p (fun k => k ∈ A ++ r :: B ∨ ¬g.contains k) g (eachSilent (invert p) A g)
      (eachSilent (invert p) (A ++ r :: B) g) r made := by
  have before := ready.onward
  have turn := ready.run
  rw [show eachSilent (invert p) (A ++ r :: B) g =
    eachSilent (invert p) B (invert p (eachSilent (invert p) A g) r) from List.foldl_append ..]
  have there : g.contains r := ready.contains r (by simp)
  have not_before : r ∉ A := fun inside =>
    (List.nodup_append.1 ready.nodup).2.2 r inside r List.mem_cons_self rfl
  have not_after : r ∉ B := (List.nodup_cons.1 turn.nodup).1
  rcases turn.turn with ⟨none, same⟩ | ⟨made, some, t⟩
  · have later : Ready p (B ++ []) (eachSilent (invert p) A g) :=
      (List.append_nil B).symm ▸ same ▸ turn.step
    rw [same]
    refine ⟨[], replacement_unreferred
      (before.trans ready.wellFormed turn.wellFormed later.onward) there ?_ fun q refers => ?_⟩
    · exact fun inside => (List.mem_append.1 inside).elim not_before not_after
    · have inside := (mem_referring turn.wellFormed).2 refers
      rw [none] at inside
      exact List.not_mem_nil inside
  · refine ⟨made, t.replacement some turn ((before.keeps r not_before there).mono fun k off => ?_)⟩
    exact off.imp_left (List.mem_append_left _)

/-- A graph has numbers left for all copies if it has fewer nodes and edges than there are. -/
theorem ready_of_small (wf : g.WellFormed) (nodup : A.Nodup) (there : ∀ r ∈ A, g.contains r)
    (group : ∀ r ∈ A, p.isGroup (g.typeOf r)) (small : g.size + g.edgeCount ≤ Nat.pow 2 64) :
    Ready p A g := by
  refine ⟨wf, nodup, there, group, Nat.le_trans (Nat.add_le_add_left ?_ _) small⟩
  have length : (A.flatMap (referring p g)).length =
      (A.flatMap fun r => (referring p g r).map (·, r)).length := by
    simp only [List.length_flatMap, List.length_map]
  have sub : (A.flatMap fun r => (referring p g r).map (·, r)) ⊆ g.edges := by
    intro x inside
    obtain ⟨r, -, inside⟩ := List.mem_flatMap.1 inside
    obtain ⟨q, refers, rfl⟩ := List.mem_map.1 inside
    exact (mem_edges wf.nodup).2 ((mem_referring wf).1 refers).edge
  have once : (A.flatMap fun r => (referring p g r).map (·, r)).Nodup := by
    refine List.nodup_flatMap.2 ⟨fun r _ => ?_, nodup.imp fun ne => ?_⟩
    · exact ((wf.nodup_parents r).filter _).map fun a b same => congrArg Prod.fst same
    · intro x inside inside'
      obtain ⟨q, -, rfl⟩ := List.mem_map.1 inside
      obtain ⟨q', -, same⟩ := List.mem_map.1 inside'
      exact ne (congrArg Prod.snd same).symm
  rw [length]
  exact (List.subperm_of_subset once sub).length_le

/-- The relations of the nodes that a pattern selects can be turned around, if they are containers. -/
theorem ready_nodesMatching {pattern : Pattern} (wf : g.WellFormed)
    (group : ∀ r ∈ g.nodesMatching pattern, p.isGroup (g.typeOf r))
    (small : g.size + g.edgeCount ≤ Nat.pow 2 64) : Ready p (g.nodesMatching pattern) g :=
  ready_of_small wf (nodup_nodesMatching _ _)
    (fun _ inside => (mem_nodesMatching.1 inside).1) group small

theorem Ready.wellFormed_each (ready : Ready p A g) :
    (eachSilent (invert p) A g).WellFormed := by
  rw [← List.append_nil A] at ready
  exact ready.run.wellFormed

theorem mem_nodesMatching_type {pattern : Pattern} (whole : pattern.glob = none)
    (type : pattern.hasDot = false) :
    n ∈ g.nodesMatching pattern ↔ g.contains n ∧ g.typeOf n = pattern.text := by
  rw [mem_nodesMatching, Pattern.matchesNode, whole]
  simp [type, Graph.typeOf]

/-- After the relations of the nodes of a type of containers were turned around, no visible node but
    containers refers to a node of the type. Each of them was replaced at its turn as
    `Replacement` says, and the other nodes are there with their metadata. Numbers of instances have
    64 bits; with no more nodes and edges than that none is missing. -/
theorem reverseRelation_turned (pattern : Pattern) (wf : g.WellFormed)
    (whole : pattern.glob = none) (type : pattern.hasDot = false)
    (group : p.isGroup pattern.text) (small : g.size + g.edgeCount ≤ Nat.pow 2 64) :
    (∀ q n, Refers p (reverseRelation p pattern g) q n →
      (reverseRelation p pattern g).typeOf n ≠ pattern.text) ∧
    (∀ r, g.contains r → g.typeOf r = pattern.text → ∃ before after made,
      g.nodesMatching pattern = before ++ r :: after ∧
      Replacement p (fun k => k ∈ g.nodesMatching pattern ∨ ¬g.contains k) g
        (eachSilent (invert p) before g) (reverseRelation p pattern g) r made) ∧
    (∀ n, g.contains n → g.typeOf n ≠ pattern.text → (reverseRelation p pattern g).contains n ∧
      Keeps (fun k => k ∈ g.nodesMatching pattern ∨ ¬g.contains k) g
        (reverseRelation p pattern g) n) := by
  have matching := fun n => mem_nodesMatching_type (g := g) (n := n) whole type
  have ready : Ready p (g.nodesMatching pattern) g :=
    ready_nodesMatching wf (fun r inside => ((matching r).1 inside).2 ▸ group) small
  have wf' : (reverseRelation p pattern g).WellFormed := ready.wellFormed_each
  have onward : Onward p (g.nodesMatching pattern) g (reverseRelation p pattern g) :=
    Ready.onward (B := []) ((List.append_nil _).symm ▸ ready)
  refine ⟨fun q n refers same => ?_, fun r there same => ?_, fun n there other => ?_⟩
  · by_cases new : n ∈ g.nodesMatching pattern ∨ ¬g.contains n
    · exact (onward.settled n (wf'.closed q n refers.edge) new).2 q refers
    · obtain ⟨other, there⟩ := not_or.1 new
      have there := Classical.not_not.1 there
      rw [(onward.keeps n other there).typeOf wf there] at same
      exact other ((matching n).2 ⟨there, same⟩)
  · obtain ⟨before, after, split⟩ := List.append_of_mem ((matching r).2 ⟨there, same⟩)
    rw [split] at ready
    obtain ⟨made, replaced⟩ := ready.replacement
    rw [← split] at replaced
    exact ⟨before, after, made, split, replaced⟩
  · have outside : n ∉ g.nodesMatching pattern := fun inside => other ((matching n).1 inside).2
    exact ⟨onward.contains n outside there, onward.keeps n outside there⟩

/-! ### Two security groups -/

/-- Two instances of a subnet behind a security group, and a load balancer behind another one. -/
def guarded : Graph :=
  let g := ((Graph.empty "aws").addEdge "aws_subnet.a" "aws_instance.web~1").1
  let g := (g.addEdge "aws_subnet.a" "aws_instance.db").1
  let g := (g.addEdge "aws_instance.web~1" "aws_security_group.inner").1
  let g := (g.addEdge "aws_instance.db" "aws_security_group.inner").1
  (g.addEdge "aws_lb.front" "aws_security_group.outer").1

theorem wellFormed_guarded : guarded.WellFormed :=
  wellFormed_addEdge (wellFormed_addEdge (wellFormed_addEdge (wellFormed_addEdge
    (wellFormed_addEdge (wellFormed_empty "aws")))))

/-- The theorem at the security group that is copied. -/
theorem reverseRelation_turned_guarded : guarded.WellFormed ∧
    Expansion.subnets.isGroup "aws_security_group" ∧
    guarded.size + guarded.edgeCount ≤ Nat.pow 2 64 ∧
    (reverseRelation Expansion.subnets (.ofType "aws_security_group") guarded).edges =
      [("aws_subnet.a", "aws_security_group.inner~1"),
        ("aws_subnet.a", "aws_security_group.inner~2"),
        ("aws_security_group.outer", "aws_lb.front"),
        ("aws_security_group.inner~2", "aws_instance.db"),
        ("aws_security_group.inner~1", "aws_instance.web~1")] ∧
    ∃ before after made, guarded.nodesMatching (.ofType "aws_security_group") =
        before ++ "aws_security_group.inner" :: after ∧
      Replacement Expansion.subnets
        (fun k => k ∈ guarded.nodesMatching (.ofType "aws_security_group") ∨ ¬guarded.contains k)
        guarded (eachSilent (invert Expansion.subnets) before guarded)
        (reverseRelation Expansion.subnets (.ofType "aws_security_group") guarded)
        "aws_security_group.inner" made := by
  have group : Expansion.subnets.isGroup "aws_security_group" := by decide +kernel
  have small : guarded.size + guarded.edgeCount ≤ Nat.pow 2 64 := by decide +kernel
  obtain ⟨-, replaced, -⟩ := reverseRelation_turned (.ofType "aws_security_group")
    wellFormed_guarded rfl (by decide +kernel) group small
  exact ⟨wellFormed_guarded, group, small, by decide +kernel,
    replaced "aws_security_group.inner" (by decide +kernel) (by decide +kernel)⟩

end Cartograph.Inversion

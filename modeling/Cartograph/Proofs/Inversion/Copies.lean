import Cartograph.Proofs.Inversion.Numbers
import Cartograph.Proofs.Inversion.Turning

/-!
# Copies

A node that several others refer to goes, and each of them gets a copy around it, under the first
number that is free. The copies are made one after the other: `CopyAdded` says what one of them adds
to a graph, and `Copies` what the graph is after some of them. The edges are those of `Turn` all
along, since a copy leaves the containers of the other referring nodes alone
(`Copies.outer_iff`). With all copies made the node is turned around (`turned_invert`).

Numbers have 64 bits, so there have to be fewer nodes than numbers.
-/

namespace Cartograph.Inversion

open Graph Arrangement Containment

variable {p : Rules.Providers} {h h' : Graph} {r q c n a b : NodeId}

-- Nothing here depends on how an identifier is taken apart.
attribute [local irreducible] NodeId.splitSuffix NodeId.parts NodeId.withSuffix

/-! ### One copy -/

/-- There is a free instance, with a number of 64 bits. -/
theorem freeInstance_spec (fits : h.size < Nat.pow 2 64) (b : NodeId) (i : Nat) :
    freeInstance h b i < Nat.pow 2 64 ∧
      ¬h.contains (NodeId.withSuffix b (freeInstance h b i)) := by
  obtain ⟨numbers, same⟩ : ∃ numbers,
      numbers = (List.range' i (h.size + 1)).map (· % Nat.pow 2 64) := ⟨_, rfl⟩
  have word : ∀ j ∈ numbers, j < Nat.pow 2 64 := by
    rw [same]
    intro j inside
    obtain ⟨k, -, rfl⟩ := List.mem_map.1 inside
    exact Nat.mod_lt _ (Nat.two_pow_pos 64)
  have distinct : numbers.Nodup := by
    rw [same]
    refine List.Nodup.map_on (fun j hj k hk equal => ?_) List.nodup_range'
    rw [List.mem_range'_1] at hj hk
    -- The numbers lie less than the modulus apart.
    have below := Nat.sub_mod_eq_zero_of_mod_eq equal
    have above := Nat.sub_mod_eq_zero_of_mod_eq equal.symm
    rw [Nat.mod_eq_of_lt (by omega)] at below above
    omega
  have exists_free : ∃ j ∈ numbers, ¬h.contains (NodeId.withSuffix b j) := by
    refine Classical.byContradiction fun none => ?_
    have sub : numbers.map (NodeId.withSuffix b) ⊆ h.nodes := by
      intro n inside
      obtain ⟨j, hj, rfl⟩ := List.mem_map.1 inside
      exact mem_nodes.2 (Classical.not_not.1 fun free => none ⟨j, hj, free⟩)
    have nodup : (numbers.map (NodeId.withSuffix b)).Nodup :=
      distinct.map fun j k same => (NodeId.withSuffix_inj same).2
    have le := (List.subperm_of_subset nodup sub).length_le
    rw [List.length_map, same, List.length_map, List.length_range', nodes, List.length_map] at le
    exact absurd le (Nat.not_succ_le_self _)
  obtain ⟨j, inside, free⟩ := exists_free
  have found : ∃ k, (numbers.find? fun i => !h.contains (NodeId.withSuffix b i)) = some k := by
    rw [← Option.isSome_iff_exists, List.find?_isSome]
    exact ⟨j, inside, by simpa using free⟩
  obtain ⟨k, found⟩ := found
  have value : freeInstance h b i = k := by
    unfold freeInstance
    dsimp only
    rw [← same, found]
    rfl
  rw [value]
  exact ⟨word k (List.mem_of_find?_eq_some found), by simpa using List.find?_some found⟩

/-- A graph with a copy around a referring node, outside of containers. -/
def withCopy (t : Template) (h : Graph) (q copy : NodeId) (index : Nat) : Graph :=
  let h := h.insertNode copy t.found.copied
  let h := if index = 0 then addChildren copy t.children h else h
  (h.addEdge copy q).1

theorem addCopy_eq (p : Rules.Providers) (t : Template) (h : Graph) (q : NodeId) (i index : Nat) :
    addCopy p t h ((q, i), index) =
      let copy := NodeId.withSuffix (NodeId.base t.node) (freeInstance h (NodeId.base t.node) i)
      let h := withCopy t h q copy index
      let outer := (groupParents p h q).filter fun c =>
        c ≠ t.node ∧ NodeId.base c ≠ NodeId.base t.node
      if outer = [] then eachSilent (fun h c => (h.addEdge c copy).1) t.groups h
      else eachSilent (fun h c => (h.replaceChild c q copy).1) outer h := rfl

/-- The edges with a copy of a node around a referring one. -/
def CopyEdge (p : Rules.Providers) (t : Template) (q : NodeId) (index : Nat) (h : Graph)
    (copy a b : NodeId) : Prop :=
  (h.Edge a b ∧ ¬(b = q ∧ Outer p h t.node False q a)) ∨ (a = copy ∧ b = q) ∨
    (b = copy ∧ (Outer p h t.node False q a ∨
      ((∀ d, ¬Outer p h t.node False q d) ∧ a ∈ t.groups))) ∨
    (index = 0 ∧ a = copy ∧ b ∈ t.children)

/-- What a copy adds to a graph. -/
structure CopyAdded (p : Rules.Providers) (t : Template) (q : NodeId) (index : Nat) (h : Graph)
    (copy : NodeId) (h' : Graph) : Prop where
  wellFormed : h'.WellFormed
  fresh : ¬h.contains copy
  base : NodeId.base copy = NodeId.base t.node
  type : NodeId.resourceType copy = NodeId.resourceType t.node
  contains : ∀ n, h'.contains n ↔ n = copy ∨ h.contains n
  found : h'.meta? copy = some t.found.copied
  kept : ∀ n, n ≠ copy → h'.meta? n = h.meta? n
  edge : ∀ a b, h'.Edge a b ↔ CopyEdge p t q index h copy a b

/-- The parts of a template are nodes of a graph. -/
structure Fits (t : Template) (h : Graph) : Prop where
  children : ∀ c ∈ t.children, h.contains c
  groups : ∀ c ∈ t.groups, h.contains c

section

variable {t : Template} {copy : NodeId} {index : Nat}

theorem withCopy_spec (index : Nat) (wf : h.WellFormed) (fits : Fits t h) (hq : h.contains q)
    (fresh : ¬h.contains copy) : Moved (h.insertNode copy t.found.copied)
      (withCopy t h q copy index) fun a b =>
        (h.Edge a b ∨ (index = 0 ∧ a = copy ∧ b ∈ t.children)) ∨ (a = copy ∧ b = q) := by
  have wf₁ : (h.insertNode copy t.found.copied).WellFormed := wellFormed_insertNode wf
  have there : (h.insertNode copy t.found.copied).contains copy := contains_insertNode.2 (.inl rfl)
  have old : ∀ {n}, h.contains n → n ≠ copy ∧ (h.insertNode copy t.found.copied).contains n :=
    fun inside => ⟨fun same => fresh (same ▸ inside), contains_insertNode.2 (.inr inside)⟩
  have given : Moved (h.insertNode copy t.found.copied)
      (if index = 0 then addChildren copy t.children (h.insertNode copy t.found.copied)
        else h.insertNode copy t.found.copied) fun a b =>
      h.Edge a b ∨ (index = 0 ∧ a = copy ∧ b ∈ t.children) := by
    split
    · next first =>
      refine (moved_addChildren wf₁ there fun c inside => (old (fits.children c inside)).2).of_iff
        fun a b => ?_
      rw [edge_insertNode, and_iff_right first, ← and_assoc]
      refine or_congr_right (and_iff_left_of_imp ?_)
      rintro ⟨rfl, inside⟩
      exact (old (fits.children b inside)).1.symm
    · next later =>
      refine (Moved.refl wf₁).of_iff fun a b => ?_
      rw [edge_insertNode]
      exact ⟨.inl, fun h => h.resolve_right fun h => later h.1⟩
  have around := moved_addEdge given.wellFormed (Ne.symm (old hq).1)
    ((given.contains copy).2 there) ((given.contains q).2 (old hq).2)
  exact (given.trans around).of_iff fun a b => or_congr_left (given.edge a b)

/-- The containers of a referring node are the same with its copy. -/
theorem mem_outer_withCopy (index : Nat) (wf : h.WellFormed) (fits : Fits t h) (hq : h.contains q)
    (fresh : ¬h.contains copy) (base : NodeId.base copy = NodeId.base t.node) :
    n ∈ (groupParents p (withCopy t h q copy index) q).filter (fun c =>
      c ≠ t.node ∧ NodeId.base c ≠ NodeId.base t.node) ↔ Outer p h t.node False q n := by
  have moved := withCopy_spec index wf fits hq fresh
  rw [List.mem_filter, mem_groupParents moved.wellFormed.nodup, decide_eq_true_eq, Outer, false_or]
  refine and_congr_left fun other => ?_
  have ne : n ≠ copy := by
    rintro rfl
    exact other.2 base
  have type : (withCopy t h q copy index).typeOf n = h.typeOf n := by
    rw [moved.typeOf, Graph.typeOf, meta?_insertNode, if_neg (Ne.symm ne), Graph.typeOf]
  constructor
  · intro held
    refine ⟨?_, type ▸ held.isGroup⟩
    rcases (moved.edge n q).1 held.edge with (link | ⟨-, same, -⟩) | ⟨same, -⟩
    · exact link
    · exact absurd same ne
    · exact absurd same ne
  · exact fun held => ⟨(moved.edge n q).2 (.inl (.inl held.edge)), type.symm ▸ held.isGroup⟩

/-- The copy is put into the containers of the node if the referring one leaves none to it. -/
theorem copyEdge_unplaced (nobody : ∀ d, ¬Outer p h t.node False q d) :
    (((h.Edge a b ∨ (index = 0 ∧ a = copy ∧ b ∈ t.children)) ∨ (a = copy ∧ b = q)) ∨
      (a ∈ t.groups ∧ b = copy)) ↔ CopyEdge p t q index h copy a b := by
  constructor
  · rintro (((link | first) | around) | ⟨inside, rfl⟩)
    · exact .inl ⟨link, fun h => nobody a h.2⟩
    · exact .inr (.inr (.inr first))
    · exact .inr (.inl around)
    · exact .inr (.inr (.inl ⟨rfl, .inr ⟨nobody, inside⟩⟩))
  · rintro (⟨link, -⟩ | around | ⟨rfl, out | own⟩ | first)
    · exact .inl (.inl (.inl link))
    · exact .inl (.inr around)
    · exact absurd out (nobody a)
    · exact .inr ⟨own.2, rfl⟩
    · exact .inl (.inl (.inr first))

/-- It is put into those that the referring one leaves to it. -/
theorem copyEdge_placed (some : Outer p h t.node False q c)
    (apart : ∀ d, Outer p h t.node False q d → d ≠ copy) :
    ((((h.Edge a b ∨ (index = 0 ∧ a = copy ∧ b ∈ t.children)) ∨ (a = copy ∧ b = q)) ∧
      ¬(Outer p h t.node False q a ∧ b = q)) ∨ (Outer p h t.node False q a ∧ b = copy)) ↔
        CopyEdge p t q index h copy a b := by
  constructor
  · rintro (⟨(link | first) | around, off⟩ | ⟨out, rfl⟩)
    · exact .inl ⟨link, fun h => off ⟨h.2, h.1⟩⟩
    · exact .inr (.inr (.inr first))
    · exact .inr (.inl around)
    · exact .inr (.inr (.inl ⟨rfl, .inl out⟩))
  · rintro (⟨link, off⟩ | ⟨rfl, rfl⟩ | ⟨rfl, out | own⟩ | ⟨first, rfl, inside⟩)
    · exact .inl ⟨.inl (.inl link), fun h => off ⟨h.2, h.1⟩⟩
    · exact .inl ⟨.inr ⟨rfl, rfl⟩, fun h => apart a h.1 rfl⟩
    · exact .inr ⟨out, rfl⟩
    · exact absurd some (own.1 c)
    · exact .inl ⟨.inl (.inr ⟨first, rfl, inside⟩), fun h => apart a h.1 rfl⟩

/-- A copy is made under a free number. -/
theorem addCopy_spec (wf : h.WellFormed) (small : h.size < Nat.pow 2 64) (fits : Fits t h)
    (hq : h.contains q) (i index : Nat) :
    ∃ copy, CopyAdded p t q index h copy (addCopy p t h ((q, i), index)) := by
  obtain ⟨word, fresh⟩ := freeInstance_spec small (NodeId.base t.node) i
  rw [addCopy_eq]
  dsimp only
  obtain ⟨copy, named⟩ : ∃ copy, copy =
    NodeId.withSuffix (NodeId.base t.node) (freeInstance h (NodeId.base t.node) i) := ⟨_, rfl⟩
  have base : NodeId.base copy = NodeId.base t.node := named ▸ NodeId.base_withSuffix _ word
  have type : NodeId.resourceType copy = NodeId.resourceType t.node :=
    named ▸ NodeId.resourceType_numbered _ word
  rw [← named] at fresh ⊢
  have moved := withCopy_spec index wf fits hq fresh
  have outer := fun n => mem_outer_withCopy (p := p) (n := n) index wf fits hq fresh base
  have old : ∀ {n}, h.contains n → n ≠ copy ∧ (withCopy t h q copy index).contains n :=
    fun inside => ⟨fun same => fresh (same ▸ inside),
      (moved.contains _).2 (contains_insertNode.2 (.inr inside))⟩
  have there : (withCopy t h q copy index).contains copy :=
    (moved.contains copy).2 (contains_insertNode.2 (.inl rfl))
  -- Nothing but edges differs from the graph with the copy.
  have finish : ∀ {h' edges}, Moved (withCopy t h q copy index) h' edges →
      (∀ a b, edges a b ↔ CopyEdge p t q index h copy a b) → CopyAdded p t q index h copy h' := by
    intro h' edges last same
    refine ⟨last.wellFormed, fresh, base, type, fun n => ?_, ?_, fun n ne => ?_,
      fun a b => (last.edge a b).trans (same a b)⟩
    · rw [last.contains, moved.contains, contains_insertNode, eq_comm]
    · rw [last.meta?, moved.meta?, meta?_insertNode, if_pos rfl]
    · rw [last.meta?, moved.meta?, meta?_insertNode, if_neg (Ne.symm ne)]
  refine ⟨copy, ?_⟩
  split
  · next none =>
    refine finish (moved_addParents moved.wellFormed there fun c inside =>
      old (fits.groups c inside)) fun a b => ?_
    rw [moved.edge]
    refine copyEdge_unplaced fun d out => ?_
    have inside := (outer d).2 out
    rw [none] at inside
    exact List.not_mem_nil inside
  · next some =>
    obtain ⟨d, hd⟩ := List.exists_mem_of_ne_nil _ some
    have nodup : ((groupParents p (withCopy t h q copy index) q).filter fun c =>
        c ≠ t.node ∧ NodeId.base c ≠ NodeId.base t.node).Nodup :=
      ((moved.wellFormed.nodup_parents q).filter _).filter _
    have apart : ∀ c, Outer p h t.node False q c → c ≠ copy := by
      rintro c out rfl
      exact out.2.2.elim id fun ne => ne base
    refine finish (moved_replaceChildren moved.wellFormed there (Ne.symm (old hq).1) nodup
      fun c inside => ⟨apart c ((outer c).1 inside),
        (moved.edge c q).2 (.inl (.inl ((outer c).1 inside).1.edge))⟩) fun a b => ?_
    rw [moved.edge, outer]
    exact copyEdge_placed ((outer d).1 hd) apart

end

/-! ### All copies -/

/-- The graph after some of the copies were made. -/
structure Copies (p : Rules.Providers) (h : Graph) (r : NodeId) (m : NodeMeta)
    (made : List (NodeId × NodeId)) (f : Graph) : Prop where
  wellFormed : f.WellFormed
  nodup : (made.map Prod.fst).Nodup
  fresh : ∀ x ∈ made, h.contains x.1 → x.1 = r
  base : ∀ x ∈ made, NodeId.base x.1 = NodeId.base r
  type : ∀ x ∈ made, NodeId.resourceType x.1 = NodeId.resourceType r
  contains : ∀ n, f.contains n ↔ n ∈ made.map Prod.fst ∨ (n ≠ r ∧ h.contains n)
  keeps : ∀ n, n ≠ r → Keeps (· = r) h f n
  found : ∀ x ∈ made, f.meta? x.1 = some m.copied
  edge : ∀ a b, f.Edge a b ↔ Turn p h r False made a b

/-- What is needed to copy a node. -/
def templateOf (p : Rules.Providers) (h : Graph) (r : NodeId) (m : NodeMeta) : Template :=
  ⟨r, m, groupParents p h r, h.children r⟩

section

variable {m : NodeMeta} {made : List (NodeId × NodeId)} {f : Graph}

theorem copies_nil (wf : h.WellFormed) (r : NodeId) (m : NodeMeta) :
    Copies p h r m [] (h.removeNode r).1 where
  wellFormed := wellFormed_removeNode wf
  nodup := List.nodup_nil
  fresh _ inside := absurd inside List.not_mem_nil
  base _ inside := absurd inside List.not_mem_nil
  type _ inside := absurd inside List.not_mem_nil
  contains n := by
    rw [contains_removeNode]
    exact ⟨.inr, fun h => h.resolve_left List.not_mem_nil⟩
  keeps _ ne := keeps_removeNode ne
  found _ inside := absurd inside List.not_mem_nil
  edge a b := by
    rw [Edge, mem_children_removeNode]
    constructor
    · rintro ⟨ha, hb, link⟩
      exact .other link ha hb fun _ inside => absurd inside List.not_mem_nil
    · rintro (⟨link, ha, hb, -⟩ | around | ⟨listed, -⟩ | ⟨head, -⟩ | ⟨alone, -⟩)
      · exact ⟨ha, hb, link⟩
      · exact absurd around List.not_mem_nil
      · exact absurd listed List.not_mem_nil
      · exact absurd head (by simp)
      · exact alone.elim

/-- A node of the graph is no copy, unless it is the node that is copied. -/
theorem Copies.not_copy (c : Copies p h r m made f) (there : h.contains n) (ne : n ≠ r) :
    n ∉ made.map Prod.fst := by
  intro inside
  obtain ⟨x, listed, rfl⟩ := List.mem_map.1 inside
  exact ne (c.fresh x listed there)

/-- The copies leave the containers of the other referring nodes alone. -/
theorem Copies.outer_iff (wf : h.WellFormed) (c : Copies p h r m made f) (there : h.contains q)
    (ne : q ≠ r) (later : q ∉ made.map Prod.snd) (n : NodeId) :
    Outer p f r False q n ↔ Outer p h r False q n := by
  unfold Outer
  refine and_congr_left fun other => ?_
  have apart : n ∉ made.map Prod.fst := by
    intro inside
    obtain ⟨x, listed, rfl⟩ := List.mem_map.1 inside
    exact other.2.elim id fun base => base (c.base x listed)
  have edges : f.Edge n q ↔ h.Edge n q := by
    rw [c.edge]
    constructor
    · rintro (⟨link, -⟩ | around | ⟨listed, -⟩ | ⟨head, -⟩ | ⟨alone, -⟩)
      · exact link
      · exact absurd (List.mem_map_of_mem around) later
      · exact absurd (List.mem_map_of_mem listed) (c.not_copy there ne)
      · exact absurd (List.mem_map_of_mem (List.mem_of_mem_head? head)) apart
      · exact alone.elim
    · exact fun link => .other link other.1 ne fun d listed =>
        absurd (List.mem_map_of_mem listed) later
  have types : h.Edge n q → f.typeOf n = h.typeOf n := fun link =>
    (c.keeps n other.1).typeOf wf link.contains
  constructor
  · intro held
    have link := edges.1 held.edge
    exact ⟨link, types link ▸ held.isGroup⟩
  · exact fun held => ⟨edges.2 held.edge, (types held.edge).symm ▸ held.isGroup⟩

theorem Copies.fits (wf : h.WellFormed) (c : Copies p h r m made f) :
    Fits (templateOf p h r m) f where
  children n link := (c.contains n).2 (.inr ⟨fun same => wf.noLoop r (same ▸ link),
    wf.closed r n link⟩)
  groups n inside := by
    have held := (mem_groupParents wf.nodup).1 inside
    exact (c.contains n).2 (.inr ⟨fun same => wf.noLoop r (same ▸ held.edge),
      held.edge.contains⟩)

theorem Copies.size_le (c : Copies p h r m made f) : f.size ≤ made.length + h.size := by
  have le := c.wellFormed.size_le (l := made.map Prod.fst ++ h.nodes) fun n there =>
    List.mem_append.2 (((c.contains n).1 there).imp_right fun old => mem_nodes.2 old.2)
  rwa [List.length_append, List.length_map, nodes, List.length_map] at le

/-- The edges with one more copy. -/
theorem Copies.edge_step (wf : h.WellFormed) (c : Copies p h r m made f) {f' : Graph}
    (added : CopyAdded p (templateOf p h r m) q made.length f n f') (edge : h.Edge q r)
    (later : q ∉ made.map Prod.snd) :
    f'.Edge a b ↔ Turn p h r False (made ++ [(n, q)]) a b := by
  have hq : h.contains q := edge.contains
  have ne : q ≠ r := fun same => wf.noLoop r (same ▸ edge)
  have outer : ∀ k, Outer p f r False q k ↔ Outer p h r False q k := c.outer_iff wf hq ne later
  have none_iff : (∀ k, ¬Outer p f r False q k) ↔ ∀ k, ¬Outer p h r False q k :=
    forall_congr' fun k => not_congr (outer k)
  rw [added.edge, CopyEdge, c.edge]
  show ((_ ∧ ¬(b = q ∧ Outer p f r False q a)) ∨ _ ∨ (b = n ∧ (Outer p f r False q a ∨
    ((∀ k, ¬Outer p f r False q k) ∧ a ∈ groupParents p h r))) ∨
      (made.length = 0 ∧ a = n ∧ h.Edge r b)) ↔ _
  rw [outer, none_iff, mem_groupParents wf.nodup]
  constructor
  · rintro (⟨old, off⟩ | ⟨rfl, rfl⟩ | ⟨rfl, placed⟩ | ⟨none, rfl, link⟩)
    · rcases old with ⟨link, ha, hb, off'⟩ | around | ⟨listed, placed⟩ | ⟨head, link⟩ | ⟨alone, -⟩
      · refine .other link ha hb fun k listed out => ?_
        rcases List.mem_append.1 listed with listed | listed
        · exact off' k listed out
        · obtain ⟨-, rfl⟩ := Prod.mk.inj (List.mem_singleton.1 listed)
          exact off ⟨rfl, out⟩
      · exact .around (List.mem_append_left _ around)
      · exact .placed (List.mem_append_left _ listed) placed
      · have still : (made ++ [(n, q)]).head? = made.head? := by rw [List.head?_append, head]; rfl
        exact .first (still.trans head) link
      · exact alone.elim
    · exact .around (List.mem_append_right _ List.mem_cons_self)
    · exact .placed (List.mem_append_right _ List.mem_cons_self) placed
    · obtain rfl := List.length_eq_zero_iff.1 none
      exact .first rfl link
  · rintro (⟨link, ha, hb, off⟩ | around | ⟨listed, placed⟩ | ⟨head, link⟩ | ⟨alone, -⟩)
    · refine .inl ⟨.other link ha hb fun k listed => off k (List.mem_append_left _ listed), ?_⟩
      rintro ⟨rfl, out⟩
      exact off n (List.mem_append_right _ List.mem_cons_self) out
    · rcases List.mem_append.1 around with around | around
      · exact .inl ⟨.around around, fun same => later (same.1 ▸ List.mem_map_of_mem around)⟩
      · obtain ⟨rfl, rfl⟩ := Prod.mk.inj (List.mem_singleton.1 around)
        exact .inr (.inl ⟨rfl, rfl⟩)
    · rcases List.mem_append.1 listed with listed | listed
      · refine .inl ⟨.placed listed placed, fun same => c.not_copy hq ne ?_⟩
        exact same.1 ▸ List.mem_map_of_mem listed
      · obtain ⟨rfl, rfl⟩ := Prod.mk.inj (List.mem_singleton.1 listed)
        exact .inr (.inr (.inl ⟨rfl, placed⟩))
    · cases made with
      | nil =>
        obtain ⟨rfl, rfl⟩ := Prod.mk.inj (Option.some.inj head)
        exact .inr (.inr (.inr ⟨rfl, rfl, link⟩))
      | cons x rest =>
        refine .inl ⟨.first head link, fun same => same.2.2.2.elim id fun other => other ?_⟩
        exact c.base _ (List.mem_of_mem_head? head)
    · exact alone.elim

/-- One more copy. -/
theorem Copies.step (wf : h.WellFormed) (c : Copies p h r m made f)
    (small : made.length + h.size < Nat.pow 2 64) (edge : h.Edge q r)
    (later : q ∉ made.map Prod.snd) (i : Nat) :
    ∃ n, Copies p h r m (made ++ [(n, q)])
      (addCopy p (templateOf p h r m) f ((q, i), made.length)) := by
  have hq : h.contains q := edge.contains
  have ne : q ≠ r := fun same => wf.noLoop r (same ▸ edge)
  obtain ⟨n, added⟩ := addCopy_spec (p := p) c.wellFormed
    (Nat.lt_of_le_of_lt c.size_le small) (c.fits wf) ((c.contains q).2 (.inr ⟨ne, hq⟩)) i made.length
  have free : n ∉ made.map Prod.fst := fun inside => added.fresh ((c.contains n).2 (.inl inside))
  have same : h.contains n → n = r := fun there =>
    Decidable.byContradiction fun ne => added.fresh ((c.contains n).2 (.inr ⟨ne, there⟩))
  refine ⟨n, added.wellFormed, ?_, ?_, ?_, ?_, fun k => ?_, fun k other => ?_, ?_,
    fun a b => c.edge_step wf added edge later⟩
  · rw [List.map_append, List.map_singleton]
    exact List.nodup_append.2 ⟨c.nodup, by simp, fun k inside l single => by
      rw [List.mem_singleton.1 single]
      rintro rfl
      exact free inside⟩
  · exact List.forall_mem_append.2 ⟨c.fresh, List.forall_mem_singleton.2 same⟩
  · exact List.forall_mem_append.2 ⟨c.base, List.forall_mem_singleton.2 added.base⟩
  · exact List.forall_mem_append.2 ⟨c.type, List.forall_mem_singleton.2 added.type⟩
  · rw [added.contains, c.contains, List.map_append, List.map_singleton, List.mem_append,
      List.mem_singleton, or_assoc, or_left_comm]
  · by_cases made : k = n
    · subst made
      intro m found
      refine absurd (same (Decidable.byContradiction fun gone => ?_)) other
      rw [wf.contains_iff, found] at gone
      exact gone rfl
    · exact (c.keeps k other).trans (.of_eq (added.kept k made))
  · refine List.forall_mem_append.2 ⟨fun x listed => ?_, List.forall_mem_singleton.2 added.found⟩
    have old : x.1 ≠ n := fun same => free (same ▸ List.mem_map_of_mem listed)
    exact (added.kept x.1 old).trans (c.found x listed)

/-- Copies for several referring nodes, one after the other. -/
theorem Copies.run (wf : h.WellFormed) {l : List (NodeId × Nat)}
    (c : Copies p h r m made f) (small : made.length + l.length + h.size ≤ Nat.pow 2 64)
    (edges : ∀ x ∈ l, h.Edge x.1 r) (nodup : (made.map Prod.snd ++ l.map Prod.fst).Nodup) :
    ∃ more, more.map Prod.snd = l.map Prod.fst ∧ Copies p h r m (made ++ more)
      (eachSilent (addCopy p (templateOf p h r m)) (l.zipIdx made.length) f) := by
  induction l generalizing made f with
  | nil => exact ⟨[], rfl, by rwa [List.append_nil]⟩
  | cons x rest ih =>
    obtain ⟨q, i⟩ := x
    rw [List.forall_mem_cons] at edges
    rw [List.length_cons] at small
    rw [List.map_cons] at nodup
    have later : q ∉ made.map Prod.snd := fun inside =>
      (List.nodup_append.1 nodup).2.2 q inside q List.mem_cons_self rfl
    obtain ⟨n, first⟩ := c.step wf (by omega) edges.1 later i
    have length : (made ++ [(n, q)]).length = made.length + 1 := by simp
    obtain ⟨more, listed, others⟩ := ih first (by rw [length]; omega) edges.2
      (by simpa using nodup)
    refine ⟨(n, q) :: more, by rw [List.map_cons, List.map_cons, listed], ?_⟩
    rw [length, List.append_assoc] at others
    exact others

end

/-! ### The whole step -/

/-- A node that nothing refers to stays as it is. -/
theorem invert_unreferred (none : referring p h r = []) : invert p h r = h := by
  unfold invert
  split
  · rfl
  · rw [none]

theorem invert_several (there : h.contains r) (several : 2 ≤ (referring p h r).length) {m : NodeMeta}
    (found : h.meta? r = some m) : invert p h r =
      eachSilent (addCopy p (templateOf p h r m))
        (((Keyed.keySet (referring p h r)).zip
          (copyNumbers (Keyed.keySet (referring p h r)))).zipIdx) (h.removeNode r).1 := by
  unfold invert
  rw [if_neg (by simp [there])]
  split
  · next none => simp [none] at several
  · next q only => simp [only] at several
  · simp only [found, Option.getD_some]
    rfl

/-- A node that others refer to is turned around. -/
theorem turned_invert (wf : h.WellFormed) (there : h.contains r) (some : referring p h r ≠ [])
    (small : h.size + (referring p h r).length ≤ Nat.pow 2 64) :
    ∃ made, Turned p h r made (invert p h r) := by
  by_cases several : 2 ≤ (referring p h r).length
  · obtain ⟨m, found⟩ := wf.exists_meta there
    have nodup : (referring p h r).Nodup := (wf.nodup_parents r).filter _
    have same : (Keyed.keySet (referring p h r)).Perm (referring p h r) :=
      (List.perm_ext_iff_of_nodup (Keyed.nodup_keySet _) nodup).2 fun q => Keyed.mem_keySet
    obtain ⟨l, zipped⟩ : ∃ l, l = (Keyed.keySet (referring p h r)).zip
      (copyNumbers (Keyed.keySet (referring p h r))) := ⟨_, rfl⟩
    have nodes : l.map Prod.fst = Keyed.keySet (referring p h r) := by
      rw [zipped, List.map_fst_zip]
      exact Nat.le_of_eq (length_copyNumbers _).symm
    have length : l.length = (referring p h r).length := by
      rw [← List.length_map Prod.fst, nodes, same.length_eq]
    have edges : ∀ x ∈ l, h.Edge x.1 r := fun x inside => by
      have listed : x.1 ∈ Keyed.keySet (referring p h r) := nodes ▸ List.mem_map_of_mem inside
      exact ((mem_referring wf).1 (Keyed.mem_keySet.1 listed)).1
    obtain ⟨made, listed, c⟩ := (copies_nil (p := p) wf r m).run wf (l := l)
      (by rw [List.length_nil, length]; omega) edges (by simpa [nodes] using Keyed.nodup_keySet _)
    rw [List.nil_append, List.length_nil, zipped, ← invert_several there several found] at c
    rw [nodes] at listed
    have count : made.length = (referring p h r).length := by
      rw [← List.length_map Prod.snd, listed, same.length_eq]
    have severally : (made.length = 1) = False := eq_false (by omega)
    refine ⟨made, c.wellFormed, listed ▸ same, c.nodup, c.fresh, c.base,
      fun alone => absurd alone (by omega), c.contains,
      fun n ne => (c.keeps n ne).mono fun _ => .inl, ?_, ?_, ?_⟩
    · intro m' found' x inside
      obtain rfl := Option.some.inj (found.symm.trans found')
      refine ⟨m.copied, c.found x inside, ?_⟩
      rw [if_neg (by omega)]
    · intro x inside
      exact typeOf_numbered found (c.found x inside) rfl (c.type x inside)
    · rw [severally]
      exact c.edge
  · obtain ⟨q, only⟩ : ∃ q, referring p h r = [q] := by
      rw [← List.length_eq_one_iff]
      have := List.length_pos_of_ne_nil some
      omega
    obtain ⟨n, turned⟩ := turned_invertSingle wf only
    refine ⟨[(n, q)], ?_⟩
    unfold invert
    rw [if_neg (by simp [there]), only]
    exact turned

end Cartograph.Inversion

import Cartograph.Proofs.Arrangement
import Cartograph.Proofs.Containment
import Cartograph.Validation

/-!
# Tidying

What validation does to a drawable graph. Nodes without edges go, which no edge notices
(`removeAll_loose`); containers without children get placeholders, and the only new edges are from
these containers to theirs (`Tidied`).
-/

namespace Cartograph.Validation

open Graph Arrangement Containment

variable {g g' : Graph} {p : Rules.Providers} {a b c k n : NodeId}

-- Nothing here depends on how an identifier is taken apart.
attribute [local irreducible] NodeId.parts

/-! ### Nodes without edges -/

/-- A node at which no edge begins or ends. -/
def Loose (g : Graph) (n : NodeId) : Prop := ∀ a, ¬g.Edge n a ∧ ¬g.Edge a n

/-- What a node's removal leaves of the others. -/
theorem typeOf_removeNode (ne : k ≠ n) : (g.removeNode n).1.typeOf k = g.typeOf k := by
  rw [typeOf, typeOf, meta?_removeNode, if_neg ne]
  cases g.meta? k <;> rfl

theorem edge_removeNode_loose (loose : Loose g n) : (g.removeNode n).1.Edge a c ↔ g.Edge a c := by
  refine mem_children_removeNode.trans ⟨fun h => h.2.2, fun edge => ⟨?_, ?_, edge⟩⟩
  · exact fun e => (loose c).1 (e ▸ edge)
  · exact fun e => (loose a).2 (e ▸ edge)

/-- Removing nodes without edges changes no edge, and no type of another node. -/
theorem removeAll_loose {nodes : List NodeId} (wf : g.WellFormed) (loose : ∀ n ∈ nodes, Loose g n) :
    (removeAll nodes g).WellFormed ∧ (∀ a c, (removeAll nodes g).Edge a c ↔ g.Edge a c) ∧
      (∀ k, k ∉ nodes → (removeAll nodes g).typeOf k = g.typeOf k) ∧
      ∀ k, (removeAll nodes g).contains k ↔ k ∉ nodes ∧ g.contains k := by
  induction nodes generalizing g with
  | nil => exact ⟨wf, fun _ _ => Iff.rfl, fun _ _ => rfl, fun _ => by simp [removeAll, eachSilent]⟩
  | cons n rest ih =>
    have here := loose n List.mem_cons_self
    have edges : ∀ a c, (g.removeNode n).1.Edge a c ↔ g.Edge a c :=
      fun _ _ => edge_removeNode_loose here
    have still : ∀ m ∈ rest, Loose (g.removeNode n).1 m := by
      intro m hm a
      rw [edges, edges]
      exact loose m (List.mem_cons_of_mem _ hm) a
    obtain ⟨wf', edges', types, nodes⟩ := ih (wellFormed_removeNode wf) still
    refine ⟨wf', fun a c => (edges' a c).trans (edges a c), fun k hk => ?_, fun k => ?_⟩
    · rw [List.mem_cons, not_or] at hk
      exact (types k hk.2).trans (typeOf_removeNode hk.1)
    · refine (nodes k).trans ?_
      rw [contains_removeNode, List.mem_cons, not_or, and_left_comm, ← and_assoc]

theorem loose_of_standalone (wf : g.WellFormed) (h : n ∈ standalone p g) :
    Loose g n ∧ p.isGroup (g.typeOf n) = false := by
  obtain ⟨-, h⟩ := List.mem_filter.1 h
  simp only [Bool.and_eq_true, List.isEmpty_iff, Bool.not_eq_true'] at h
  obtain ⟨⟨children, parents⟩, group⟩ := h
  refine ⟨fun a => ⟨fun edge => ?_, fun edge => ?_⟩, group⟩
  · exact List.not_mem_nil (children ▸ show a ∈ g.children n from edge)
  · exact List.not_mem_nil (parents ▸ (mem_parents wf.nodup).2 edge)

/-! ### Placeholders -/

/-- New edges bring along no new types. -/
theorem typeOf_addEdge : (g.addEdge a b).1.typeOf k = g.typeOf k := by
  by_cases ne : a = b
  · subst ne
    rw [addEdge_self]
  rw [typeOf, typeOf, meta?_addEdge ne]
  have made : ∀ n, NodeMeta.typeOf n (some (NodeMeta.forId n)) = NodeMeta.typeOf n none := by
    intro n
    simp [NodeMeta.typeOf, NodeMeta.forId_type]
  cases g.meta? k with
  | some m => rfl
  | none =>
    by_cases ha : a = k
    · subst ha
      rw [if_pos rfl]
      exact made a
    · by_cases hb : b = k
      · subst hb
        rw [if_neg ha, if_pos rfl]
        exact made b
      · rw [if_neg ha, if_neg hb]
        rfl

theorem wellFormed_addPlaceholder (wf : g.WellFormed) : (addPlaceholder g n).WellFormed :=
  wellFormed_addEdge (wellFormed_insertNode wf)

theorem contains_addPlaceholder (there : g.contains n) :
    (addPlaceholder g n).contains k ↔ placeholderFor n = k ∨ g.contains k := by
  unfold addPlaceholder
  dsimp only
  by_cases ne : n = placeholderFor n
  · rw [← ne, addEdge_self, contains_insertNode]
  · rw [contains_addEdge ne, contains_insertNode]
    constructor
    · rintro (rfl | rfl | h)
      · exact .inr there
      · exact .inl rfl
      · exact h
    · exact fun h => .inr (.inr h)

theorem edge_addPlaceholder : (addPlaceholder g n).Edge a c ↔
    g.Edge a c ∨ (n = a ∧ c = placeholderFor n ∧ a ≠ c) := by
  unfold addPlaceholder Edge
  dsimp only
  by_cases ne : n = placeholderFor n
  · rw [← ne, addEdge_self]
    refine (Iff.of_eq (congrArg _ children_insertNode)).trans ⟨.inl, ?_⟩
    rintro (h | ⟨rfl, rfl, no⟩)
    · exact h
    · exact absurd rfl no
  · rw [mem_children_addEdge ne, children_insertNode]
    refine or_congr_right ⟨?_, fun h => ⟨h.1, h.2.1⟩⟩
    rintro ⟨rfl, rfl⟩
    exact ⟨rfl, rfl, ne⟩

theorem typeOf_addPlaceholder (ne : k ≠ placeholderFor n) :
    (addPlaceholder g n).typeOf k = g.typeOf k := by
  unfold addPlaceholder
  dsimp only
  rw [typeOf_addEdge, typeOf, typeOf, meta?_insertNode, if_neg ne.symm]

/-- What giving placeholders to some of a graph's containers has made of it. -/
structure Filled (p : Rules.Providers) (g : Graph) (filled : List NodeId)
    (s : Graph × List NodeId) : Prop where
  wellFormed : s.1.WellFormed
  made : s.2 = filled.map placeholderFor
  contains : ∀ k, s.1.contains k ↔ k ∈ s.2 ∨ g.contains k
  edge : ∀ a c, s.1.Edge a c ↔ g.Edge a c ∨ (a ∈ filled ∧ c = placeholderFor a ∧ a ≠ c)
  typeOf : ∀ k, k ∉ s.2 → s.1.typeOf k = g.typeOf k
  inside : ∀ a ∈ filled, g.contains a
  empty : ∀ a ∈ filled, ∀ c, ¬g.Edge a c
  isGroup : ∀ a ∈ filled, a ∉ s.2 → p.isGroup (g.typeOf a)

theorem Filled.start (wf : g.WellFormed) : Filled p g [] (g, []) where
  wellFormed := wf
  made := rfl
  contains k := by simp
  edge a c := by simp
  typeOf _ _ := rfl
  inside _ h := absurd h List.not_mem_nil
  empty _ h := absurd h List.not_mem_nil
  isGroup _ h := absurd h List.not_mem_nil

theorem Filled.step {filled : List NodeId} {s : Graph × List NodeId} (h : Filled p g filled s)
    (there : g.contains n) : Filled p g filled (fill p s n) ∨
      Filled p g (filled ++ [n]) (fill p s n) := by
  obtain ⟨g', made⟩ := s
  unfold fill
  dsimp only
  split
  rotate_left
  · exact .inl h
  next can =>
  rw [Bool.and_eq_true, List.isEmpty_iff] at can
  obtain ⟨childless, group⟩ := can
  have there' : g'.contains n := (h.contains n).2 (.inr there)
  refine .inr ⟨wellFormed_addPlaceholder h.wellFormed, ?_, fun k => ?_, fun a c => ?_,
    fun k hk => ?_, fun a ha => ?_, fun a ha c edge => ?_, fun a ha fresh => ?_⟩
  · rw [List.map_append, ← h.made]
    rfl
  · refine (contains_addPlaceholder there').trans ?_
    rw [h.contains k, List.mem_append, List.mem_singleton, or_assoc, or_left_comm, eq_comm]
  · refine edge_addPlaceholder.trans ?_
    rw [h.edge a c, List.mem_append, List.mem_singleton, or_and_right, or_assoc]
    refine or_congr_right (or_congr_right ⟨?_, ?_⟩)
    · rintro ⟨rfl, rest⟩
      exact ⟨rfl, rest⟩
    · rintro ⟨rfl, rest⟩
      exact ⟨rfl, rest⟩
  · rw [List.mem_append, List.mem_singleton, not_or] at hk
    exact (typeOf_addPlaceholder hk.2).trans (h.typeOf k hk.1)
  · rcases List.mem_append.1 ha with ha | ha
    · exact h.inside a ha
    · exact List.mem_singleton.1 ha ▸ there
  · rcases List.mem_append.1 ha with ha | ha
    · exact h.empty a ha c edge
    · rw [List.mem_singleton.1 ha] at edge
      have inside : c ∈ g'.children n := (h.edge n c).2 (.inl edge)
      exact List.not_mem_nil (childless ▸ inside)
  · rw [List.mem_append, not_or] at fresh
    rcases List.mem_append.1 ha with ha | ha
    · exact h.isGroup a ha fresh.1
    · rw [List.mem_singleton.1 ha] at fresh ⊢
      exact h.typeOf n fresh.1 ▸ group

theorem filled_fillAll (wf : g.WellFormed) :
    ∃ filled : List NodeId, filled.Nodup ∧ Filled p g filled (fillAll p g) := by
  have loop : ∀ (l filled : List NodeId) (s : Graph × List NodeId), Filled p g filled s →
      (∀ n ∈ l, g.contains n) →
      ∃ more, more.Sublist l ∧ Filled p g (filled ++ more) (l.foldl (fill p) s) := by
    intro l
    induction l with
    | nil => exact fun filled s h _ => ⟨[], .slnil, by rwa [List.append_nil]⟩
    | cons n rest ih =>
      intro filled s h there
      have later := fun m hm => there m (List.mem_cons_of_mem n hm)
      rcases h.step (there n List.mem_cons_self) with h | h
      · obtain ⟨more, sub, h⟩ := ih _ _ h later
        exact ⟨more, sub.cons n, h⟩
      · obtain ⟨more, sub, h⟩ := ih _ _ h later
        exact ⟨n :: more, sub.cons_cons n, by rwa [List.append_assoc] at h⟩
  obtain ⟨filled, sub, h⟩ := loop g.sortedNodes [] _ (.start wf) fun n hn => mem_sortedNodes.1 hn
  exact ⟨filled, sub.nodup (Keyed.nodup_keySet g.nodes), h⟩

/-- A placeholder in the place of a node of its name does not change the type, if that fits the
    name. -/
theorem typeOf_addPlaceholder_of_fits {c : Content} (s : Sound c g) :
    (addPlaceholder g n).typeOf k = g.typeOf k := by
  by_cases ne : k ≠ placeholderFor n
  · exact typeOf_addPlaceholder ne
  have e := Classical.not_not.1 ne
  have plain : k.IsPlain := e ▸ NodeId.isPlain_sanitize (by decide) (by decide) n
  unfold addPlaceholder
  dsimp only
  rw [typeOf_addEdge, Graph.typeOf, meta?_insertNode, if_pos e.symm]
  have new : NodeMeta.typeOf k (some { madeUpMeta g (placeholderFor n) with hidden := true }) =
      NodeId.resourceType k := by
    have made : (madeUpMeta g (placeholderFor n)).resourceType = NodeId.resourceType k :=
      e ▸ NodeMeta.forId_type (placeholderFor n)
    simp [NodeMeta.typeOf, made]
  rw [new, Graph.typeOf]
  cases hm : g.meta? k with
  | none => rfl
  | some m => exact (s.fits k m hm plain).symm

theorem evolves_fill {c : Content} (closed : c.Closed) {s : Graph × List NodeId} :
    Evolves c s.1 (fill p s n).1 := by
  obtain ⟨g, made⟩ := s
  unfold fill
  dsimp only
  split
  · have holds := holds_madeUp closed g (placeholderFor n)
    exact .addEdge (.insertNode (m := { madeUpMeta g (placeholderFor n) with hidden := true })
      (fits_madeUp g _) { holds with } .refl)
  · exact .refl

/-- In a sound graph no node changes its type. -/
theorem typeOf_fillAll {c : Content} (closed : c.Closed) (s : Sound c g) :
    (fillAll p g).1.typeOf k = g.typeOf k := by
  have loop : ∀ (l : List NodeId) (s : Graph × List NodeId), Sound c s.1 →
      (l.foldl (fill p) s).1.typeOf k = s.1.typeOf k := by
    intro l
    induction l with
    | nil => exact fun _ _ => rfl
    | cons n rest ih =>
      intro s sound
      have here : (fill p s n).1.typeOf k = s.1.typeOf k := by
        obtain ⟨g, made⟩ := s
        unfold fill
        dsimp only
        split
        · exact typeOf_addPlaceholder_of_fits sound
        · rfl
      exact (ih _ ((evolves_fill closed).sound closed sound)).trans here
  exact loop g.sortedNodes (g, []) s

/-! ### Validation -/

/-- The nodes that validation removes. -/
def dropped (keepStandalone : Bool) (p : Rules.Providers) (g : Graph) : List NodeId :=
  if keepStandalone then [] else standalone p g

theorem loose_of_dropped {keep : Bool} (wf : g.WellFormed) (h : n ∈ dropped keep p g) :
    Loose g n ∧ p.isGroup (g.typeOf n) = false := by
  unfold dropped at h
  split at h
  · exact absurd h List.not_mem_nil
  · exact loose_of_standalone wf h

/-- What is left of a graph before placeholders are made. -/
def kept (keepStandalone : Bool) (p : Rules.Providers) (g : Graph) : Graph :=
  removeAll (dropped keepStandalone p g) g

theorem wellFormed_kept (keep : Bool) (wf : g.WellFormed) : (kept keep p g).WellFormed :=
  (removeAll_loose wf fun _ h => (loose_of_dropped wf h).1).1

theorem edge_kept {keep : Bool} (wf : g.WellFormed) : (kept keep p g).Edge a c ↔ g.Edge a c :=
  (removeAll_loose wf fun _ h => (loose_of_dropped wf h).1).2.1 a c

theorem contains_of_kept {keep : Bool} (wf : g.WellFormed) (h : (kept keep p g).contains k) :
    g.contains k :=
  (((removeAll_loose wf fun _ h => (loose_of_dropped wf h).1).2.2.2 k).1 h).2

/-- The same containers hold the same nodes. -/
theorem holds_kept {keep : Bool} (wf : g.WellFormed) :
    Holds p (kept keep p g) a c ↔ Holds p g a c := by
  have types : g.Edge a c → (kept keep p g).typeOf a = g.typeOf a := fun edge =>
    (removeAll_loose wf fun _ h => (loose_of_dropped wf h).1).2.2.1 a fun removed =>
      ((loose_of_dropped wf removed).1 c).1 edge
  constructor
  · rintro ⟨edge, group⟩
    have edge := (edge_kept wf).1 edge
    exact ⟨edge, types edge ▸ group⟩
  · rintro ⟨edge, group⟩
    exact ⟨(edge_kept wf).2 edge, (types edge).symm ▸ group⟩

theorem sound_kept {c : Content} (closed : c.Closed) {keep : Bool} (s : Sound c g) :
    Sound c (kept keep p g) :=
  Evolves.sound closed (.eachSilent closed s .refl fun _ _ _ _ => .removeNode .refl) s

/-- A drawable graph is tidied, and nothing is missing then. -/
theorem validate_of_drawable (wf : g.WellFormed) (drawable : Drawable p g) (keep : Bool) :
    validate keep p g = .ok ((fillAll p (kept keep p g)).1,
      ⟨dropped keep p g, (fillAll p (kept keep p g)).2⟩) := by
  obtain ⟨_, -, filled⟩ := filled_fillAll (p := p) (wellFormed_kept (p := p) keep wf)
  have intact := filled.wellFormed.check "validate"
  unfold kept dropped at intact ⊢
  rw [validate, (checkShared_ok_iff wf).2 drawable]
  simp only [bind, Except.bind, intact]
  rfl

/-- Any other graph is refused, with two unrelated containers of a node. -/
theorem validate_of_not_drawable (wf : g.WellFormed) (h : ¬Drawable p g) (keep : Bool) :
    ∃ a b c, a ≠ b ∧ Holds p g a c ∧ Holds p g b c ∧ ¬Related g a b ∧
      validate keep p g = .error (.sharedChild "validate" a b c) := by
  obtain ⟨a, b, c, ne, ha, hb, not, refused⟩ := checkShared_error wf h
  refine ⟨a, b, c, ne, ha, hb, not, ?_⟩
  rw [validate, refused]
  rfl

theorem validate_ok_iff (wf : g.WellFormed) {keep : Bool} {g' : Graph} {r : Report} :
    validate keep p g = .ok (g', r) ↔ Drawable p g ∧ g' = (fillAll p (kept keep p g)).1 ∧
      r = ⟨dropped keep p g, (fillAll p (kept keep p g)).2⟩ := by
  by_cases drawable : Drawable p g
  · rw [validate_of_drawable wf drawable keep]
    constructor
    · intro e
      cases e
      exact ⟨drawable, rfl, rfl⟩
    · rintro ⟨-, rfl, rfl⟩
      rfl
  · obtain ⟨a, b, c, -, -, -, -, refused⟩ := validate_of_not_drawable wf drawable keep
    rw [refused]
    exact ⟨fun e => absurd e (by simp), fun h => absurd h.1 drawable⟩

end Cartograph.Validation

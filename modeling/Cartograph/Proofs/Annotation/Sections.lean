import Cartograph.Annotation
import Cartograph.Proofs.Tidying

/-!
# Sections of annotations

What the sections of annotations do to the nodes and edges of a graph. The graphs between them are
named here (`Annotations.added`, `Annotations.connected`, `Annotations.disconnected`,
`Annotations.removed`).

Adding and connecting only let a graph grow (`Grown`), and no node ever changes its type, so a
pattern that selects a node at some point still does later (`Grown.mem_nodesMatching`). A link gets
its edges, and a child that gets a container is noted (`Joined`). The rest only takes away
(`Thinned`): disconnecting takes exactly the edges that an entry cuts (`Cuts`), and removing exactly
the nodes that a pattern matches, with their edges (`Annotations.thinned_apply`).
-/

namespace Cartograph

open Graph Arrangement

variable {g h k : Graph} {p : Rules.Providers} {q : Pattern} {n a b u v : NodeId}

/-! ### Patterns -/

namespace Pattern

/-- A pattern that names a node selects it. -/
theorem matchesNode_text (named : q.isIdentifier) (m : Option NodeMeta) :
    q.matchesNode q.text m := by
  rw [isIdentifier, Bool.and_eq_true, Bool.not_eq_true', isWildcard,
    Option.isSome_eq_false_iff, Option.isNone_iff_eq_none] at named
  rw [matchesNode, named.1]
  dsimp only
  rw [if_pos named.2]
  simp [forms]

end Pattern

namespace Graph

theorem typeOf_modifyMeta {f : NodeMeta → NodeMeta}
    (keeps : ∀ m, (f m).resourceType = m.resourceType) :
    (g.modifyMeta a f).typeOf n = g.typeOf n := by
  -- A node without metadata first gets those that its identifier says, with the type it had.
  have inserted : ∀ m, NodeMeta.typeOf a (some m) = g.typeOf a →
      NodeMeta.typeOf n (Keyed.find? n (Keyed.insert a (f m) g.metadata)) = g.typeOf n := by
    intro m same
    rw [Keyed.find?_insert]
    split
    · next e =>
      subst e
      rw [← same]
      simp [NodeMeta.typeOf, keeps]
    · rfl
  unfold modifyMeta
  split
  · next m found => exact inserted m (by rw [typeOf, found])
  · next none =>
    split
    · refine inserted _ ?_
      rw [typeOf, none]
      simp [NodeMeta.typeOf, NodeMeta.forId_type]
    · rfl

/-! ### Growing -/

/-- A graph with more nodes and edges, in which no node has another type. -/
structure Grown (g h : Graph) : Prop where
  wellFormed : h.WellFormed
  contains : ∀ n, g.contains n → h.contains n
  typeOf : ∀ n, h.typeOf n = g.typeOf n
  edge : ∀ a b, g.Edge a b → h.Edge a b

theorem Grown.refl (wf : g.WellFormed) : Grown g g :=
  ⟨wf, fun _ there => there, fun _ => rfl, fun _ _ edge => edge⟩

theorem Grown.trans (s : Grown g h) (t : Grown h k) : Grown g k :=
  ⟨t.wellFormed, fun n there => t.contains n (s.contains n there),
    fun n => (t.typeOf n).trans (s.typeOf n), fun a b edge => t.edge a b (s.edge a b edge)⟩

/-- What a pattern matches, it matches later. -/
theorem Grown.mem_nodesMatching (s : Grown g h) (inside : n ∈ g.nodesMatching q) :
    n ∈ h.nodesMatching q := by
  have there := (Graph.mem_nodesMatching.1 inside).1
  exact (mem_nodesMatching_congr (by simp [there, s.contains n there]) (s.typeOf n)).2 inside

/-- A node that was not there, with the type that its identifier names. -/
theorem grown_insertNode {m : NodeMeta} (wf : g.WellFormed) (absent : ¬g.contains n)
    (type : m.resourceType = NodeId.resourceType n) : Grown g (g.insertNode n m) where
  wellFormed := wellFormed_insertNode wf
  contains _ there := contains_insertNode.2 (.inr there)
  typeOf i := by
    rw [typeOf, typeOf, meta?_insertNode]
    split
    · next same =>
      subst same
      have none : g.meta? n = none := by simpa [wf.contains_iff] using absent
      rw [none]
      simp [NodeMeta.typeOf, type]
    · rfl
  edge _ _ edge := by rwa [Edge, children_insertNode]

theorem grown_addEdge (wf : g.WellFormed) : Grown g (g.addEdge a b).1 where
  wellFormed := wellFormed_addEdge wf
  contains _ := contains_addEdge_of_contains
  typeOf _ := Validation.typeOf_addEdge
  edge i j edge := by
    by_cases ne : a = b
    · rwa [ne, addEdge_self]
    · exact (mem_children_addEdge ne).2 (.inl edge)

theorem grown_modifyMeta {f : NodeMeta → NodeMeta} (wf : g.WellFormed)
    (keeps : ∀ m, (f m).resourceType = m.resourceType) : Grown g (g.modifyMeta n f) where
  wellFormed := wellFormed_modifyMeta wf
  contains _ there := contains_modifyMeta.2 there
  typeOf _ := typeOf_modifyMeta keeps
  edge _ _ edge := by rwa [Edge, children_modifyMeta]

/-! ### Shrinking -/

/-- A graph without the edges that are cut and without the nodes that are gone. -/
structure Thinned (g h : Graph) (cut : NodeId → NodeId → Prop) (gone : NodeId → Prop) : Prop where
  wellFormed : h.WellFormed
  contains : ∀ n, h.contains n ↔ g.contains n ∧ ¬gone n
  typeOf : ∀ n, h.contains n → h.typeOf n = g.typeOf n
  edge : ∀ a b, h.Edge a b ↔ g.Edge a b ∧ ¬cut a b ∧ ¬gone a ∧ ¬gone b

namespace Thinned

variable {cut cut' : NodeId → NodeId → Prop} {gone gone' : NodeId → Prop}

theorem refl (wf : g.WellFormed) : Thinned g g (fun _ _ => False) fun _ => False :=
  ⟨wf, fun _ => by simp, fun _ _ => rfl, fun _ _ => by simp⟩

theorem trans (s : Thinned g h cut gone) (t : Thinned h k cut' gone') :
    Thinned g k (fun a b => cut a b ∨ cut' a b) fun n => gone n ∨ gone' n where
  wellFormed := t.wellFormed
  contains n := by rw [t.contains, s.contains, not_or, and_assoc]
  typeOf n there := (t.typeOf n there).trans (s.typeOf n ((t.contains n).1 there).1)
  edge a b := by
    rw [t.edge, s.edge]
    tauto

/-- Only what is there can be cut or go. -/
theorem of_iff (s : Thinned g h cut gone) (wf : g.WellFormed)
    (cuts : ∀ a b, g.Edge a b → (cut a b ↔ cut' a b))
    (goes : ∀ n, g.contains n → (gone n ↔ gone' n)) : Thinned g h cut' gone' where
  wellFormed := s.wellFormed
  contains n := by
    rw [s.contains]
    exact and_congr_right fun there => by rw [goes n there]
  typeOf := s.typeOf
  edge a b := by
    rw [s.edge]
    exact and_congr_right fun edge => by
      rw [cuts a b edge, goes a edge.contains, goes b (wf.closed a b edge)]

/-- What is left is matched by the same patterns as before. -/
theorem mem_nodesMatching (s : Thinned g h cut gone) (there : h.contains n) :
    n ∈ h.nodesMatching q ↔ n ∈ g.nodesMatching q :=
  mem_nodesMatching_congr (by simp [there, ((s.contains n).1 there).1]) (s.typeOf n there)

/-- A loop takes away what its steps take away from what is left of a graph. -/
theorem loop {α : Type} {step : Graph → α → Graph} (cuts : α → NodeId → NodeId → Prop)
    (goes : α → NodeId → Prop) (l : List α) (s : Thinned g h cut gone)
    (each : ∀ k cut gone x, Thinned g k cut gone → Thinned k (step k x) (cuts x) (goes x)) :
    Thinned h (eachSilent step l h) (fun a b => ∃ x ∈ l, cuts x a b)
      fun n => ∃ x ∈ l, goes x n := by
  -- A step may rely on what is known of the graph that it finds, so that is carried along.
  induction l generalizing h cut gone with
  | nil => exact (refl s.wellFormed).of_iff s.wellFormed (by simp) (by simp)
  | cons x rest ih =>
    have first := each h cut gone x s
    exact (first.trans (ih (s.trans first))).of_iff s.wellFormed (by simp) (by simp)

end Thinned

theorem thinned_removeNode (wf : g.WellFormed) (n : NodeId) :
    Thinned g (g.removeNode n).1 (fun _ _ => False) fun k => k = n where
  wellFormed := wellFormed_removeNode wf
  contains i := by rw [contains_removeNode, and_comm]
  typeOf _ there := Validation.typeOf_removeNode (contains_removeNode.1 there).1
  edge a b := by
    rw [Edge, mem_children_removeNode, Edge]
    tauto

theorem thinned_removeEdge (wf : g.WellFormed) (a b : NodeId) :
    Thinned g (g.removeEdge a b).1 (fun u v => u = a ∧ v = b) fun _ => False where
  wellFormed := wellFormed_removeEdge wf
  contains i := by rw [contains_removeEdge]; simp
  typeOf _ _ := Containment.typeOf_removeEdge
  edge u v := by
    rw [Edge, mem_children_removeEdge, Edge, eq_comm (a := a)]
    simp

theorem thinned_modifyMeta {f : NodeMeta → NodeMeta} (wf : g.WellFormed)
    (keeps : ∀ m, (f m).resourceType = m.resourceType) :
    Thinned g (g.modifyMeta n f) (fun _ _ => False) fun _ => False where
  wellFormed := wellFormed_modifyMeta wf
  contains _ := by rw [contains_modifyMeta]; simp
  typeOf _ _ := typeOf_modifyMeta keeps
  edge _ _ := by rw [Edge, children_modifyMeta, Edge]; simp

end Graph

namespace Annotations

open Containment

variable {notes : Annotations} {s t : Connected} {α σ : Type}

/-! ### The graphs between the sections -/

/-- A graph with its title and the nodes that are added. -/
def added (notes : Annotations) (g : Graph) : Graph :=
  eachSilent addNode notes.add { g with title := notes.title.or g.title }

/-- The graph once edges are added, and the children that have got a container then. -/
def connected (notes : Annotations) (p : Rules.Providers) (g : Graph) : Connected :=
  (notes.connect.foldl (connectEntry p) ((notes.added g, []), [])).1

/-- The graph once edges are removed. -/
def disconnected (notes : Annotations) (p : Rules.Providers) (g : Graph) : Graph :=
  (each disconnectEntry notes.disconnect (notes.connected p g).1).1

/-- The graph once nodes are removed. -/
def removed (notes : Annotations) (p : Rules.Providers) (g : Graph) : Graph :=
  (each removeEntry notes.remove (notes.disconnected p g)).1

theorem apply_fst : (notes.apply p g).1 = (each updateEntry notes.update (notes.removed p g)).1 :=
  rfl

/-! ### Adding -/

theorem grown_namedMeta (wf : g.WellFormed) (absent : ¬g.contains n) :
    Grown g (g.insertNode n (namedMeta g n)) := by
  have type : (NodeMeta.forSynthetic n).resourceType = NodeId.resourceType n := by
    simp only [NodeMeta.forSynthetic, NodeMeta.forId_type]
  refine grown_insertNode wf absent ?_
  unfold namedMeta
  dsimp only
  split
  · simp only [type]
  · simp only [type]

theorem grown_addNode (wf : g.WellFormed) (entry : NodeId × Attributes) :
    Grown g (addNode g entry) := by
  have named : Grown g
      (if g.contains entry.1 then g else g.insertNode entry.1 (namedMeta g entry.1)) := by
    split
    · exact .refl wf
    · next absent => exact grown_namedMeta wf absent
  exact named.trans (grown_modifyMeta named.wellFormed fun _ => rfl)

theorem grown_added (wf : g.WellFormed) (notes : Annotations) : Grown g (notes.added g) := by
  have loop : ∀ (entries : List (NodeId × Attributes)) (g : Graph), g.WellFormed →
      Grown g (eachSilent addNode entries g) := by
    intro entries
    induction entries with
    | nil => exact fun _ wf => .refl wf
    | cons entry rest ih =>
      intro g wf
      have first := grown_addNode wf entry
      exact first.trans (ih _ first.wellFormed)
  have titled : Grown g { g with title := notes.title.or g.title } :=
    ⟨wf.of_same rfl (fun _ => rfl) fun _ => rfl, fun _ there => there, fun _ => rfl,
      fun _ _ edge => edge⟩
  exact titled.trans (loop notes.add _ titled.wellFormed)

/-- Adding nodes makes no edges. -/
theorem children_added : (notes.added g).children n = g.children n := by
  have loop : ∀ (entries : List (NodeId × Attributes)) (g : Graph),
      (eachSilent addNode entries g).children n = g.children n := by
    intro entries
    induction entries with
    | nil => exact fun _ => rfl
    | cons entry rest ih =>
      intro g
      refine (ih _).trans (children_modifyMeta.trans ?_)
      split
      · rfl
      · exact children_insertNode
  exact loop notes.add _

/-! ### Connecting -/

/-- Edges are added, and the children of all that begin at a container are noted. -/
structure Joined (p : Rules.Providers) (s t : Connected) : Prop where
  grown : Grown s.1 t.1
  noted : s.2 ⊆ t.2
  edge : ∀ a b, Holds p t.1 a b → s.1.Edge a b ∨ b ∈ t.2

theorem Joined.refl (wf : s.1.WellFormed) : Joined p s s :=
  ⟨.refl wf, fun _ inside => inside, fun _ _ held => .inl held.edge⟩

theorem Joined.trans {r : Connected} (first : Joined p r s) (later : Joined p s t) :
    Joined p r t where
  grown := first.grown.trans later.grown
  noted _ inside := later.noted (first.noted inside)
  edge a b held := by
    rcases later.edge a b held with old | noted
    · have held : Holds p s.1 a b := ⟨old, later.grown.typeOf a ▸ held.isGroup⟩
      exact (first.edge a b held).imp_right fun noted => later.noted noted
    · exact .inr noted

/-- A loop joins if each of its steps does; it may keep account of more than that. -/
theorem joined_foldl (state : σ → Connected) {step : σ → α → σ} (l : List α) {x : σ}
    (wf : (state x).1.WellFormed)
    (each : ∀ x y, (state x).1.WellFormed → Joined p (state x) (state (step x y))) :
    Joined p (state x) (state (l.foldl step x)) := by
  induction l generalizing x with
  | nil => exact .refl wf
  | cons y rest ih =>
    have first := each x y wf
    exact first.trans (ih first.grown.wellFormed)

/-- An edge that one step of a loop makes is there at its end. -/
theorem edge_foldl (state : σ → Connected) {step : σ → α → σ} {l : List α} {x : σ} {y : α}
    (inside : y ∈ l) (wf : (state x).1.WellFormed)
    (each : ∀ x y, (state x).1.WellFormed → Joined p (state x) (state (step x y)))
    (made : ∀ x', Joined p (state x) (state x') → (state (step x' y)).1.Edge u v) :
    (state (l.foldl step x)).1.Edge u v := by
  obtain ⟨before, after, rfl⟩ := List.append_of_mem inside
  rw [List.foldl_append, List.foldl_cons]
  have first := joined_foldl state before wf each
  have here := each _ y first.grown.wellFormed
  exact (joined_foldl state after here.grown.wellFormed each).grown.edge u v (made _ first)

theorem resolve_of_mem (inside : n ∈ g.nodesMatching q) : resolve g q = (g, g.nodesMatching q) := by
  rw [resolve]
  split
  · next none => rw [none] at inside; exact absurd inside List.not_mem_nil
  · rfl

theorem grown_resolve (wf : g.WellFormed) (q : Pattern) : Grown g (resolve g q).1 := by
  rw [resolve]
  split
  · next none =>
    split
    · next named =>
      refine grown_namedMeta wf fun there => ?_
      -- The pattern would match the node that it names.
      have inside := mem_nodesMatching.2 ⟨there, Pattern.matchesNode_text named _⟩
      rw [none] at inside
      exact absurd inside List.not_mem_nil
    · exact .refl wf
  · exact .refl wf

/-- Looking for what a pattern names makes no edges. -/
theorem joined_resolve (wf : s.1.WellFormed) (q : Pattern) :
    Joined p s ((resolve s.1 q).1, s.2) where
  grown := grown_resolve wf q
  noted _ inside := inside
  edge a b held := by
    refine .inl ?_
    have edge := held.edge
    unfold resolve at edge
    split at edge
    · split at edge
      · rwa [Edge, children_insertNode] at edge
      · exact edge
    · exact edge

theorem noted_connectPair (label : Option String) (s : Connected) (edge : NodeId × NodeId) :
    (connectPair p label s edge).2 =
      if p.isGroup ((connectPair p label s edge).1.typeOf edge.1) then s.2 ++ [edge.2] else s.2 :=
  rfl

theorem joined_connectPair (wf : s.1.WellFormed) (label : Option String)
    (edge : NodeId × NodeId) : Joined p s (connectPair p label s edge) := by
  obtain ⟨g, noted⟩ := s
  obtain ⟨a, b⟩ := edge
  have grown : Grown g (connectPair p label (g, noted) (a, b)).1 := by
    have added := grown_addEdge (a := a) (b := b) wf
    cases label with
    | none => exact added
    | some l => exact added.trans (grown_modifyMeta added.wellFormed fun _ => rfl)
  have edges : ∀ u v, (connectPair p label (g, noted) (a, b)).1.Edge u v →
      g.Edge u v ∨ u = a ∧ v = b := by
    intro u v edge
    have edge : (g.addEdge a b).1.Edge u v := by
      cases label with
      | none => exact edge
      | some l => rwa [Edge, connectPair, children_modifyMeta] at edge
    by_cases ne : a = b
    · subst ne
      rw [addEdge_self] at edge
      exact .inl edge
    · exact ((mem_children_addEdge ne).1 edge).imp_right fun h => ⟨h.1.symm, h.2⟩
  refine ⟨grown, fun c inside => ?_, fun u v held => (edges u v held.edge).imp_right ?_⟩
  · rw [noted_connectPair]
    split
    · exact List.mem_append_left _ inside
    · exact inside
  · rintro ⟨rfl, rfl⟩
    rw [noted_connectPair, if_pos held.isGroup]
    exact List.mem_append_right _ (List.mem_singleton.2 rfl)

theorem edge_connectPair (ne : u ≠ v) (label : Option String) (s : Connected) :
    (connectPair p label s (u, v)).1.Edge u v := by
  have edge : (s.1.addEdge u v).1.Edge u v := (mem_children_addEdge ne).2 (.inr ⟨rfl, rfl⟩)
  cases label with
  | none => exact edge
  | some l => rwa [connectPair, Edge, children_modifyMeta]

theorem joined_connectLink (wf : s.1.WellFormed) (sources : List NodeId)
    (link : Pattern × Option String) : Joined p s (connectLink p sources s link) := by
  have resolved := joined_resolve (p := p) wf link.1
  exact resolved.trans (joined_foldl id _ resolved.grown.wellFormed
    fun _ edge wf => joined_connectPair wf link.2 edge)

theorem edge_connectLink (wf : s.1.WellFormed) {sources : List NodeId}
    {link : Pattern × Option String} (source : u ∈ sources)
    (target : v ∈ s.1.nodesMatching link.1) (ne : u ≠ v) :
    (connectLink p sources s link).1.Edge u v := by
  rw [connectLink, resolve_of_mem target]
  -- What was resolved is paired with all sources, whatever the pairs before this one have added.
  refine edge_foldl (p := p) id (y := (u, v)) ?_ wf
    (fun _ edge wf => joined_connectPair wf link.2 edge)
    fun _ _ => edge_connectPair ne link.2 _
  refine List.mem_flatMap.2 ⟨u, source, List.mem_map.2 ⟨v, ?_, rfl⟩⟩
  exact List.mem_filter.2 ⟨target, decide_eq_true ne.symm⟩

theorem joined_connectEntry {x : Connected × List Diagnostic} (wf : x.1.1.WellFormed)
    (entry : Pattern × Links) : Joined p x.1 (connectEntry p x entry).1 := by
  have resolved := joined_resolve (p := p) wf entry.1
  rw [connectEntry]
  dsimp only
  split
  · exact resolved
  · exact resolved.trans (joined_foldl id _ resolved.grown.wellFormed
      fun _ link wf => joined_connectLink wf _ link)

theorem edge_connectEntry {x : Connected × List Diagnostic} (wf : x.1.1.WellFormed)
    {entry : Pattern × Links} {link : Pattern × Option String} (inside : link ∈ entry.2)
    (source : u ∈ x.1.1.nodesMatching entry.1) (target : v ∈ x.1.1.nodesMatching link.1)
    (ne : u ≠ v) : (connectEntry p x entry).1.1.Edge u v := by
  obtain ⟨⟨g, noted⟩, found⟩ := x
  rw [connectEntry, resolve_of_mem source]
  dsimp only
  rw [if_neg (List.ne_nil_of_mem source)]
  exact edge_foldl (p := p) id inside wf (fun _ link wf => joined_connectLink wf _ link)
    fun _ grown => edge_connectLink grown.grown.wellFormed source
      (grown.grown.mem_nodesMatching target) ne

theorem joined_connected (wf : g.WellFormed) (notes : Annotations) (p : Rules.Providers) :
    Joined p (notes.added g, []) (notes.connected p g) :=
  joined_foldl (x := ((notes.added g, []), [])) Prod.fst notes.connect
    (grown_added wf notes).wellFormed fun _ entry wf => joined_connectEntry wf entry

/-- Two nodes that were there when connecting began are joined if an entry says so. -/
theorem edge_connected (wf : g.WellFormed) {entry : Pattern × Links}
    {link : Pattern × Option String} (listed : entry ∈ notes.connect) (inside : link ∈ entry.2)
    (source : u ∈ (notes.added g).nodesMatching entry.1)
    (target : v ∈ (notes.added g).nodesMatching link.1) (ne : u ≠ v) :
    (notes.connected p g).1.Edge u v :=
  edge_foldl (p := p) Prod.fst listed (grown_added wf notes).wellFormed
    (fun _ entry wf => joined_connectEntry wf entry)
    fun _ grown => edge_connectEntry grown.grown.wellFormed inside
      (grown.grown.mem_nodesMatching source) (grown.grown.mem_nodesMatching target) ne

/-! ### Taking away -/

/-- An entry cuts the edges from what it matches to what one of its targets matches. -/
def Cuts (g : Graph) (entry : Pattern × List Pattern) (a b : NodeId) : Prop :=
  a ∈ g.nodesMatching entry.1 ∧ ∃ t ∈ entry.2, b ∈ g.nodesMatching t

variable {cut : NodeId → NodeId → Prop} {gone : NodeId → Prop}

/-- What is left of a graph is cut as in the graph itself. -/
theorem cuts_iff (s : Thinned g h cut gone) (wf : h.WellFormed) {entry : Pattern × List Pattern}
    (edge : h.Edge a b) : Cuts h entry a b ↔ Cuts g entry a b := by
  have child := wf.closed a b edge
  simp only [Cuts, s.mem_nodesMatching edge.contains, s.mem_nodesMatching child]

theorem each_fst (f : Graph → α → Outcome) (l : List α) (g : Graph) :
    (each f l g).1 = eachSilent (fun g x => (f g x).1) l g := by
  induction l generalizing g with
  | nil => rfl
  | cons x rest ih => exact ih _

theorem thinned_disconnectNode (wf : g.WellFormed) (targets : List Pattern) (n : NodeId) :
    Thinned g (disconnectNode targets g n)
      (fun a b => a = n ∧ ∃ t ∈ targets, b ∈ g.nodesMatching t) fun _ => False := by
  refine (Thinned.loop (fun c a b => a = n ∧ b = c) (fun _ _ => False) _ (.refl wf)
    fun k _ _ c s => thinned_removeEdge s.wellFormed n c).of_iff wf (fun a b edge => ?_) (by simp)
  have child := wf.closed a b edge
  simp only [List.mem_filter, List.any_eq_true, mem_nodesMatching, child, true_and]
  constructor
  · rintro ⟨c, ⟨-, found⟩, rfl, rfl⟩
    exact ⟨rfl, found⟩
  · rintro ⟨rfl, found⟩
    exact ⟨b, ⟨edge, found⟩, rfl, rfl⟩

theorem thinned_disconnectEntry (wf : g.WellFormed) (entry : Pattern × List Pattern) :
    Thinned g (disconnectEntry g entry).1 (Cuts g entry) fun _ => False := by
  refine (Thinned.loop (fun n a b => a = n ∧ ∃ t ∈ entry.2, b ∈ g.nodesMatching t)
    (fun _ _ => False) _ (.refl wf) fun k _ _ n s => ?_).of_iff wf (by simp [Cuts]) (by simp)
  refine (thinned_disconnectNode s.wellFormed entry.2 n).of_iff s.wellFormed
    (fun a b edge => ?_) fun _ _ => Iff.rfl
  simp only [s.mem_nodesMatching (s.wellFormed.closed a b edge)]

theorem thinned_removeEntry (wf : g.WellFormed) (q : Pattern) :
    Thinned g (removeEntry g q).1 (fun _ _ => False) fun n => n ∈ g.nodesMatching q :=
  (Thinned.loop (fun _ _ _ => False) (fun n k => k = n) _ (.refl wf) fun _ _ _ n s =>
    thinned_removeNode s.wellFormed n).of_iff wf (by simp) (by simp)

/-- Updating changes neither nodes nor edges nor types. -/
theorem thinned_updateEntry (wf : g.WellFormed) (u : NodeUpdate) :
    Thinned g (updateEntry g u).1 (fun _ _ => False) fun _ => False := by
  have labels : ∀ (children : List NodeId) (links : Links) (m : NodeMeta),
      (links.foldl (setEdgeLabels children) m).resourceType = m.resourceType := by
    intro children links
    induction links with
    | nil => exact fun _ => rfl
    | cons link rest ih =>
      intro m
      refine (ih _).trans ?_
      unfold setEdgeLabels
      split <;> rfl
  have node : ∀ k n, k.WellFormed →
      Thinned k (updateNode u k n) (fun _ _ => False) fun _ => False :=
    fun _ _ wf => thinned_modifyMeta wf fun _ => labels _ _ _
  exact (Thinned.loop (fun _ _ _ => False) (fun _ _ => False) _ (.refl wf) fun _ _ _ n s =>
    node _ n s.wellFormed).of_iff wf (by simp) (by simp)

theorem thinned_disconnected (wf : (notes.connected p g).1.WellFormed) :
    Thinned (notes.connected p g).1 (notes.disconnected p g)
      (fun a b => ∃ entry ∈ notes.disconnect, Cuts (notes.connected p g).1 entry a b)
      fun _ => False := by
  rw [disconnected, each_fst]
  refine (Thinned.loop (Cuts (notes.connected p g).1) (fun _ _ => False) _ (.refl wf)
    fun k _ _ entry s => ?_).of_iff wf (fun _ _ _ => Iff.rfl) (by simp)
  exact (thinned_disconnectEntry s.wellFormed entry).of_iff s.wellFormed
    (fun a b edge => cuts_iff s s.wellFormed edge) fun _ _ => Iff.rfl

/-- After connecting, exactly the cut edges and the nodes to be removed go, with their edges. -/
theorem thinned_apply (wf : g.WellFormed) (notes : Annotations) (p : Rules.Providers) :
    Thinned (notes.connected p g).1 (notes.apply p g).1
      (fun a b => ∃ entry ∈ notes.disconnect, Cuts (notes.connected p g).1 entry a b)
      fun n => ∃ q ∈ notes.remove, n ∈ (notes.connected p g).1.nodesMatching q := by
  have wf := (joined_connected wf notes p).grown.wellFormed
  have cut := thinned_disconnected wf
  -- A pattern matches the same nodes when its turn comes, but for those that are gone already.
  rw [apply_fst, each_fst, removed, each_fst]
  have removed := cut.trans (Thinned.loop (fun _ _ _ => False)
    (fun q n => n ∈ (notes.connected p g).1.nodesMatching q) notes.remove cut
    fun k _ _ q s => (thinned_removeEntry s.wellFormed q).of_iff s.wellFormed
      (fun _ _ _ => Iff.rfl) fun n there => s.mem_nodesMatching there)
  have updated := removed.trans (Thinned.loop (fun _ _ _ => False) (fun _ _ => False) notes.update
    removed fun k _ _ u s => thinned_updateEntry s.wellFormed u)
  exact updated.of_iff wf (by simp) (by simp)

/-- Whatever is added, connected, disconnected, removed and updated by hand: nothing is missing
    then. -/
theorem wellFormed_apply (wf : g.WellFormed) (notes : Annotations) :
    (notes.apply p g).1.WellFormed :=
  (thinned_apply wf notes p).wellFormed

end Annotations

end Cartograph

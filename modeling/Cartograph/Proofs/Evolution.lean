import Mathlib.Logic.Relation
import Cartograph.Arrangement
import Cartograph.Proofs.Graph.Integrity
import Cartograph.Proofs.NodeId

/-!
# How graphs evolve

Everything that arranges a graph does so by a few kinds of mutation (`Mutation`), one after the
other (`Evolves`). What each mutation keeps is kept by all of them, so it is proved once for each
kind (`Mutation.sound`): a graph stays *sound*, which means that it is well formed, that its
metadata are sorted, that a node with a plain identifier has the type that the identifier names,
and that metadata hold nothing but what they may hold.

What they may hold is left open (`Content`): with `Content.any` it is everything.
-/

namespace Cartograph

/-! ### What metadata hold -/

/-- What values, attributes, numbers of instances and edge labels are like. -/
structure Content where
  value : Value → Prop
  bag : Attributes → Prop
  count : Nat → Prop
  labels : List (NodeId × String) → Prop

namespace Content

/-- No demands. -/
def any : Content := ⟨fun _ => True, fun _ => True, fun _ => True, fun _ => True⟩

/-- No labels. -/
def unlabelled : Content := { any with labels := (· = []) }

/-- A label may be put anywhere. -/
def Writable (c : Content) (l : String) : Prop :=
  ∀ (ls : List (NodeId × String)) (child : NodeId), c.labels ls →
    c.labels (Keyed.insert child l ls)

/-- What is made of such values, attributes, numbers and labels is like them. A label that is there
    already may be put elsewhere; nothing is said of other ones. -/
structure Closed (c : Content) : Prop where
  list_iff {items : List Value} : c.value (.list items) ↔ ∀ v ∈ items, c.value v
  map_iff {entries : Attributes} : c.value (.map entries) ↔ c.bag entries
  whole {v : Value} {i : Int} : c.value v → v.asInt? = some i → c.value (.int i)
  combined {a : Aggregation} {v w u : Value} : c.value v → c.value w →
    Arrangement.combine a (some v) w = some u → c.value u
  bag_nil : c.bag []
  bag_find {as : Attributes} {key : String} {v : Value} : c.bag as →
    Keyed.find? key as = some v → c.value v
  bag_insert {as : Attributes} {key : String} {v : Value} : c.bag as → c.value v →
    c.bag (Keyed.insert key v as)
  count_one : c.count 1
  value_of_count {n : Nat} : c.count n → c.value (.int (Decimal.ofSize n))
  count_of_value {i : Int} : c.value (.int i) → 0 ≤ i → c.count (max 1 i.toNat)
  labels_nil : c.labels []
  labels_find {ls : List (NodeId × String)} {child : NodeId} {l : String} : c.labels ls →
    Keyed.find? child ls = some l → c.Writable l
  labels_erase {ls : List (NodeId × String)} {child : NodeId} : c.labels ls →
    c.labels (Keyed.erase child ls)

theorem any_writable (l : String) : any.Writable l := fun _ _ _ => trivial

theorem any_closed : any.Closed := by
  constructor <;> simp [any, Writable]

theorem unlabelled_closed : unlabelled.Closed :=
  { any_closed with
    labels_nil := rfl
    labels_find := by
      rintro _ _ _ rfl found
      simp [Keyed.find?] at found
    labels_erase := by
      rintro _ _ rfl
      rfl }

end Content

namespace NodeMeta

variable {c : Content} {m : NodeMeta} {n : NodeId} {child old new : NodeId}

/-- Metadata that hold nothing but what they may hold. -/
structure Holds (c : Content) (m : NodeMeta) : Prop where
  attributes : c.bag m.attributes
  raw : c.bag m.raw
  instances : ∀ as ∈ m.instances, c.bag as
  count : c.count m.cardinality
  labels : c.labels m.edgeLabels

/-- Metadata with the type that a plain identifier names. -/
def Fits (m : NodeMeta) (n : NodeId) : Prop :=
  n.IsPlain → typeOf n (some m) = NodeId.resourceType n

theorem holds_empty (closed : c.Closed) : empty.Holds c :=
  ⟨closed.bag_nil, closed.bag_nil, fun _ h => absurd h List.not_mem_nil, closed.count_one,
    closed.labels_nil⟩

theorem holds_forId (closed : c.Closed) (n : NodeId) : (forId n).Holds c :=
  ⟨closed.bag_nil, closed.bag_nil, fun _ h => absurd h List.not_mem_nil, closed.count_one,
    closed.labels_nil⟩

theorem holds_any (m : NodeMeta) : m.Holds Content.any :=
  ⟨trivial, trivial, fun _ _ => trivial, trivial, trivial⟩

theorem Holds.dropLabel (closed : c.Closed) (h : m.Holds c) :
    (Graph.dropLabel child m).Holds c :=
  { h with labels := closed.labels_erase h.labels }

theorem Holds.moveLabel (closed : c.Closed) (h : m.Holds c) :
    (Graph.moveLabel old new m).Holds c := by
  unfold Graph.moveLabel
  split
  · next l found =>
    exact { h with
      labels := closed.labels_find h.labels found _ _ (closed.labels_erase h.labels) }
  · exact h

/-- Metadata whose type is the one that the identifier names. -/
theorem fits_of_eq (h : m.resourceType = NodeId.resourceType n) : m.Fits n := by
  intro _
  simp [typeOf, h]

theorem forId_type (n : NodeId) : (forId n).resourceType = NodeId.resourceType n := by
  rw [forId, NodeId.resourceType]

theorem fits_forId (n : NodeId) : (forId n).Fits n := fits_of_eq (forId_type n)

theorem fits_withSuffix (m : NodeMeta) (base : String) (i : Nat) :
    m.Fits (NodeId.withSuffix base i) :=
  fun plain => absurd plain (NodeId.not_isPlain_withSuffix base i)

/-- The same type fits the same identifier. -/
theorem Fits.of_type_eq {m' : NodeMeta} (h : m.Fits n) (e : m'.resourceType = m.resourceType) :
    m'.Fits n := by
  intro plain
  rw [← h plain]
  simp [typeOf, e]

theorem dropLabel_type : (Graph.dropLabel child m).resourceType = m.resourceType := rfl

theorem moveLabel_type : (Graph.moveLabel old new m).resourceType = m.resourceType := by
  unfold Graph.moveLabel
  split <;> rfl

end NodeMeta

/-! ### Mutations -/

/-- A mutation of a graph. New nodes and names have types that fit, and what is written into
    metadata may be there. -/
inductive Mutation (c : Content) : Graph → Graph → Prop
  | insert {g : Graph} {n : NodeId} {m : NodeMeta} : m.Fits n → m.Holds c →
    Mutation c g (g.insertNode n m)
  | remove (g : Graph) (n : NodeId) : Mutation c g (g.removeNode n).1
  | rename {g : Graph} {old new : NodeId} : ¬new.IsPlain → Mutation c g (g.renameNode old new).1
  | modify {g : Graph} {n : NodeId} {f : NodeMeta → NodeMeta} :
    (∀ m : NodeMeta, m.Holds c → (f m).Holds c) →
    (∀ m : NodeMeta, (f m).resourceType = m.resourceType) → Mutation c g (g.modifyMeta n f)
  | addEdge (g : Graph) (a b : NodeId) : Mutation c g (g.addEdge a b).1
  | removeEdge (g : Graph) (a b : NodeId) : Mutation c g (g.removeEdge a b).1
  | replaceChild (g : Graph) (a old new : NodeId) : Mutation c g (g.replaceChild a old new).1

/-- Mutations one after the other. -/
abbrev Evolves (c : Content) : Graph → Graph → Prop := Relation.ReflTransGen (Mutation c)

/-- What every mutation keeps. -/
structure Sound (c : Content) (g : Graph) : Prop where
  wellFormed : g.WellFormed
  sorted : Keyed.IsSorted g.metadata
  fits : ∀ n m, g.meta? n = some m → m.Fits n
  holds : ∀ n m, g.meta? n = some m → m.Holds c

namespace Sound

open Graph

variable {c : Content} {g g' : Graph}

theorem empty (c : Content) (provider : String) : Sound c (Graph.empty provider) where
  wellFormed := wellFormed_empty provider
  sorted := List.Pairwise.nil
  fits n m h := by simp [Graph.empty, meta?, Keyed.find?] at h
  holds n m h := by simp [Graph.empty, meta?, Keyed.find?] at h

theorem insertNode {n : NodeId} {m : NodeMeta} (s : Sound c g) (fits : m.Fits n)
    (holds : m.Holds c) : Sound c (g.insertNode n m) := by
  refine ⟨wellFormed_insertNode s.wellFormed, sorted_insertNode s.sorted, fun k x hx => ?_,
    fun k x hx => ?_⟩
  · rw [meta?_insertNode] at hx
    split at hx
    · next e =>
      cases hx
      exact e ▸ fits
    · exact s.fits k x hx
  · rw [meta?_insertNode] at hx
    split at hx
    · cases hx
      exact holds
    · exact s.holds k x hx

theorem ensureNode (closed : c.Closed) (s : Sound c g) (n : NodeId) :
    Sound c (g.ensureNode n).1 := by
  by_cases there : Keyed.contains n g.metadata
  · have same : (g.ensureNode n).1.metadata = g.metadata := if_pos there
    have meta_eq : ∀ k, (g.ensureNode n).1.meta? k = g.meta? k := by
      intro k
      rw [meta?, same, meta?]
    refine ⟨wellFormed_ensureNode s.wellFormed, same ▸ s.sorted, fun k x hx => ?_, fun k x hx => ?_⟩
    · exact s.fits k x (meta_eq k ▸ hx)
    · exact s.holds k x (meta_eq k ▸ hx)
  · have made := s.insertNode (NodeMeta.fits_forId n) (NodeMeta.holds_forId closed n)
    have same : (g.ensureNode n).1 = g.insertNode n (NodeMeta.forId n) := by
      rw [Graph.ensureNode, if_neg there]
      rfl
    exact same ▸ made

/-- A graph whose metadata are those of a sound one, changed in ways that metadata may change. -/
theorem of_changed (s : Sound c g) (wellFormed : g'.WellFormed)
    (sorted : Keyed.IsSorted g'.metadata)
    (changed : ∀ k x, g'.meta? k = some x → ∃ m, g.meta? k = some m ∧
      x.resourceType = m.resourceType ∧ (m.Holds c → x.Holds c)) : Sound c g' := by
  refine ⟨wellFormed, sorted, fun k x hx => ?_, fun k x hx => ?_⟩
  · obtain ⟨m, hm, type, -⟩ := changed k x hx
    exact (s.fits k m hm).of_type_eq type
  · obtain ⟨m, hm, -, holds⟩ := changed k x hx
    exact holds (s.holds k m hm)

theorem of_same_metadata (s : Sound c g) (wellFormed : g'.WellFormed)
    (same : g'.metadata = g.metadata) : Sound c g' := by
  refine s.of_changed wellFormed (same ▸ s.sorted) fun k x hx => ⟨x, ?_, rfl, id⟩
  rw [meta?, same] at hx
  exact hx

theorem modifyMeta {n : NodeId} {f : NodeMeta → NodeMeta} (s : Sound c g)
    (holds : ∀ m : NodeMeta, m.Holds c → (f m).Holds c)
    (type : ∀ m : NodeMeta, (f m).resourceType = m.resourceType) : Sound c (g.modifyMeta n f) := by
  refine s.of_changed (wellFormed_modifyMeta s.wellFormed) (sorted_modifyMeta s.sorted)
    fun k x hx => ?_
  rw [meta?_modifyMeta (s.wellFormed.sameNodes n)] at hx
  split at hx
  · obtain ⟨m, hm, rfl⟩ := Option.map_eq_some_iff.1 hx
    exact ⟨m, hm, type m, holds m⟩
  · exact ⟨x, hx, rfl, id⟩

theorem removeNode (closed : c.Closed) (s : Sound c g) (n : NodeId) :
    Sound c (g.removeNode n).1 := by
  refine s.of_changed (wellFormed_removeNode s.wellFormed) (sorted_removeNode s.sorted)
    fun k x hx => ?_
  rw [meta?_removeNode] at hx
  split at hx
  · exact absurd hx (by simp)
  · obtain ⟨m, hm, rfl⟩ := Option.map_eq_some_iff.1 hx
    exact ⟨m, hm, NodeMeta.dropLabel_type, NodeMeta.Holds.dropLabel closed⟩

theorem renameNode (closed : c.Closed) {old new : NodeId} (s : Sound c g) (odd : ¬new.IsPlain) :
    Sound c (g.renameNode old new).1 := by
  by_cases no : ¬g.Renameable old new
  · rwa [renameNode_of_not_renameable no]
  have can := Classical.not_not.1 no
  have metas := fun k => meta?_renameNode (k := k) can s.wellFormed.sameNodes
  refine ⟨wellFormed_renameNode s.wellFormed, sorted_renameNode s.sorted, fun k x hx => ?_,
    fun k x hx => ?_⟩
  · rw [metas] at hx
    split at hx
    · next e =>
      subst e
      exact fun plain => absurd plain odd
    · split at hx
      · exact absurd hx (by simp)
      · obtain ⟨m, hm, rfl⟩ := Option.map_eq_some_iff.1 hx
        exact (s.fits k m hm).of_type_eq NodeMeta.moveLabel_type
  · rw [metas] at hx
    split at hx
    · obtain ⟨m, hm, rfl⟩ := Option.map_eq_some_iff.1 hx
      exact (s.holds old m hm).moveLabel closed
    · split at hx
      · exact absurd hx (by simp)
      · obtain ⟨m, hm, rfl⟩ := Option.map_eq_some_iff.1 hx
        exact (s.holds k m hm).moveLabel closed

theorem addEdge (closed : c.Closed) (s : Sound c g) (a b : NodeId) : Sound c (g.addEdge a b).1 := by
  by_cases ne : a = b
  · subst ne
    rwa [addEdge_self]
  refine ((s.ensureNode closed a).ensureNode closed b).of_same_metadata
    (wellFormed_addEdge s.wellFormed) ?_
  rw [addEdge_of_ne ne]
  dsimp only
  split <;> rfl

theorem removeEdge (closed : c.Closed) (s : Sound c g) (a b : NodeId) :
    Sound c (g.removeEdge a b).1 := by
  refine s.of_changed (wellFormed_removeEdge s.wellFormed) (sorted_removeEdge s.sorted)
    fun k x hx => ?_
  rw [meta?_removeEdge] at hx
  split at hx
  · obtain ⟨m, hm, rfl⟩ := Option.map_eq_some_iff.1 hx
    exact ⟨m, hm, NodeMeta.dropLabel_type, NodeMeta.Holds.dropLabel closed⟩
  · exact ⟨x, hx, rfl, id⟩

theorem replaceChild (closed : c.Closed) (s : Sound c g) (a old new : NodeId) :
    Sound c (g.replaceChild a old new).1 := by
  by_cases ne : a = new
  · subst ne
    rw [replaceChild_self]
    exact s.removeEdge closed a old
  refine (s.ensureNode closed new).of_same_metadata (wellFormed_replaceChild s.wellFormed) ?_
  rw [replaceChild_of_ne ne]
  dsimp only
  split <;> rfl

end Sound

theorem Mutation.sound {c : Content} {g g' : Graph} (closed : c.Closed) (h : Mutation c g g')
    (s : Sound c g) : Sound c g' := by
  cases h with
  | insert fits holds => exact s.insertNode fits holds
  | remove n => exact s.removeNode closed n
  | rename odd => exact s.renameNode closed odd
  | modify holds type => exact s.modifyMeta holds type
  | addEdge a b => exact s.addEdge closed a b
  | removeEdge a b => exact s.removeEdge closed a b
  | replaceChild a old new => exact s.replaceChild closed a old new

theorem Evolves.sound {c : Content} {g g' : Graph} (closed : c.Closed) (h : Evolves c g g')
    (s : Sound c g) : Sound c g' := by
  induction h with
  | refl => exact s
  | tail _ step ih => exact step.sound closed ih

end Cartograph

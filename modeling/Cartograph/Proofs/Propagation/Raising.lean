import Mathlib.Order.Bounds.Basic
import Cartograph.Arrangement.Propagation
import Cartograph.Proofs.Graph.Ancestry

/-!
# Raising values

What becomes of integers that nodes hand on, one node after the other, where a node that gets one
keeps the greatest. Nothing but the one attribute changes (`AgreeBut`). A node that has its turn
hands on what it has got by then, so a value goes on as long as the nodes it comes to have their
turns later (`Route`); in the end a node has the greatest of its own value and of the values that
come to it on some route (`atMost_spreads`).

What a node has is seen through its upper bounds (`AtMost`): a step adds bounds and takes none back,
so the steps of a run are put together without a case distinction on which value is the greatest.
-/

namespace Cartograph.Arrangement

open Graph

variable {g g' g'' : Graph} {key k : String} {n s t : NodeId} {v : Value} {i bound : Int}
  {up transitive : Bool}

/-! ### Attributes -/

/-- An attribute as it stands in the metadata of a node. -/
def attribute? (g : Graph) (n : NodeId) (k : String) : Option Value :=
  (g.meta? n).bind fun m => Keyed.find? k m.attributes

/-- Metadata without attributes. -/
def bare (m : NodeMeta) : NodeMeta := { m with attributes := [] }

/-- Graphs that are the same but for some attributes. -/
structure AgreeBut (differ : String → Prop) (g g' : Graph) : Prop where
  adjacency : g'.adjacency = g.adjacency
  provider : g'.provider = g.provider
  title : g'.title = g.title
  rest : ∀ n, (g'.meta? n).map bare = (g.meta? n).map bare
  same : ∀ n k, ¬differ k → attribute? g' n k = attribute? g n k

namespace AgreeBut

variable {differ : String → Prop}

theorem refl (g : Graph) : AgreeBut differ g g := ⟨rfl, rfl, rfl, fun _ => rfl, fun _ _ _ => rfl⟩

theorem symm (h : AgreeBut differ g g') : AgreeBut differ g' g :=
  ⟨h.adjacency.symm, h.provider.symm, h.title.symm, fun n => (h.rest n).symm,
    fun n k other => (h.same n k other).symm⟩

theorem trans (h : AgreeBut differ g g') (h' : AgreeBut differ g' g'') : AgreeBut differ g g'' :=
  ⟨h'.adjacency.trans h.adjacency, h'.provider.trans h.provider, h'.title.trans h.title,
    fun n => (h'.rest n).trans (h.rest n),
    fun n k other => (h'.same n k other).trans (h.same n k other)⟩

theorem wellFormed (h : AgreeBut differ g g') (wf : g.WellFormed) : g'.WellFormed := by
  refine wf.of_same ?_ (fun n => ?_) fun n => ?_
  · rw [nodes, h.adjacency, nodes]
  · rw [children, h.adjacency, children]
  · rw [← Option.isSome_map (f := bare), h.rest, Option.isSome_map]

theorem around (h : AgreeBut differ g g') (n : NodeId) (up transitive : Bool) :
    around g' n up transitive = around g n up transitive := by
  have parents : g'.parents = g.parents := by
    funext n
    rw [Graph.parents, h.adjacency, Graph.parents]
  have children : g'.children = g.children := by
    funext n
    rw [Graph.children, h.adjacency, Graph.children]
  rw [Arrangement.around, Arrangement.around, parents, children, nodes, h.adjacency, nodes]

end AgreeBut

/-! ### Reading and writing -/

theorem readKey_eq (other : key ≠ cardinalityKey) :
    readKey g n key = (attribute? g n key).filter fun v => !v.isNull := by
  rw [readKey, attribute?]
  cases g.meta? n with
  | none => rfl
  | some m =>
    rw [Option.bind_some, Option.bind_some, if_neg other]

theorem meta?_writeKey (wf : g.WellFormed) (other : key ≠ cardinalityKey) :
    (writeKey n key v g).meta? t = if n = t
      then (g.meta? t).map fun m => { m with attributes := Keyed.insert key v m.attributes }
      else g.meta? t := by
  rw [writeKey, meta?_modifyMeta (wf.sameNodes n)]
  simp only [if_neg other]

theorem attribute?_writeKey (wf : g.WellFormed) (other : key ≠ cardinalityKey)
    (there : g.contains n) : attribute? (writeKey n key v g) t k =
      if n = t ∧ key = k then some v else attribute? g t k := by
  rw [attribute?, meta?_writeKey wf other, attribute?]
  by_cases here : n = t
  · subst here
    obtain ⟨m, hm⟩ := wf.exists_meta there
    rw [if_pos rfl, hm, Option.map_some, Option.bind_some, Option.bind_some, Keyed.find?_insert]
    by_cases same : key = k <;> simp [same]
  · rw [if_neg here, if_neg fun h => here h.1]

theorem agreeBut_writeKey (wf : g.WellFormed) (other : key ≠ cardinalityKey)
    (there : g.contains n) : AgreeBut (· = key) g (writeKey n key v g) := by
  have shape : ∀ f, (g.modifyMeta n f).adjacency = g.adjacency ∧
      (g.modifyMeta n f).provider = g.provider ∧ (g.modifyMeta n f).title = g.title := by
    intro f
    rw [modifyMeta]
    split
    · exact ⟨rfl, rfl, rfl⟩
    · split <;> exact ⟨rfl, rfl, rfl⟩
  refine ⟨(shape _).1, (shape _).2.1, (shape _).2.2, fun t => ?_, fun t k different => ?_⟩
  · rw [meta?_writeKey wf other]
    split
    · rw [Option.map_map]
      rfl
    · rfl
  · rw [attribute?_writeKey wf other there, if_neg fun h => different h.2.symm]

theorem readKey_writeKey (wf : g.WellFormed) (other : key ≠ cardinalityKey) (there : g.contains n)
    (present : v.isNull = false) : readKey (writeKey n key v g) t key =
      if n = t then some v else readKey g t key := by
  rw [readKey_eq other, attribute?_writeKey wf other there, readKey_eq other]
  by_cases here : n = t
  · rw [if_pos ⟨here, rfl⟩, if_pos here, Option.filter_some_pos (by simp [present])]
  · rw [if_neg fun h => here h.1, if_neg here]

/-! ### Integers and their bounds -/

/-- All values of an attribute are integers. -/
def Integral (key : String) (g : Graph) : Prop :=
  ∀ n v, readKey g n key = some v → ∃ i, v = .int i

/-- Whether the metadata hold nothing but integers under a key. -/
def holdsIntegers (key : String) (g : Graph) : Bool :=
  g.metadata.all fun e => match Keyed.find? key e.2.attributes with
    | none => true
    | some (.int _) => true
    | some _ => false

theorem integral_of_holdsIntegers (other : key ≠ cardinalityKey) (all : holdsIntegers key g) :
    Integral key g := by
  intro n v read
  obtain ⟨m, hm, found⟩ := Option.bind_eq_some_iff.1 read
  rw [if_neg other] at found
  have fits := List.all_eq_true.1 all (n, m) (Keyed.mem_of_find? hm)
  rw [(Option.filter_eq_some_iff.1 found).1] at fits
  cases v with
  | int i => exact ⟨i, rfl⟩
  | _ => exact absurd fits (by simp)

theorem Integral.readKey_eq (ints : Integral key g)
    (whole : (readKey g n key).bind Value.asInt? = some i) : readKey g n key = some (.int i) := by
  obtain ⟨v, read, hv⟩ := Option.bind_eq_some_iff.1 whole
  obtain ⟨j, rfl⟩ := ints n v read
  cases hv
  exact read

/-- A node has no integer that is greater than a bound. -/
def AtMost (key : String) (g : Graph) (n : NodeId) (bound : Int) : Prop :=
  ∀ i, readKey g n key = some (.int i) → i ≤ bound

/-- The integers that some nodes have. -/
def integers (key : String) (g : Graph) (source : NodeId → Prop) : Set Int :=
  {i | ∃ s, source s ∧ readKey g s key = some (.int i)}

/-- What has the same upper bounds as some integers is the greatest of them. -/
theorem greatest_of_atMost {S : Set Int} (ints : Integral key g)
    (bounds : ∀ bound, AtMost key g t bound ↔ ∀ i ∈ S, i ≤ bound) :
    (∀ i, readKey g t key = some (.int i) ↔ IsGreatest S i) ∧
      (readKey g t key = none ↔ S = ∅) := by
  have found : ∀ i, readKey g t key = some (.int i) → IsGreatest S i := by
    intro i hi
    have upper : ∀ j ∈ S, j ≤ i := (bounds i).1 fun j hj => by
      rw [hi] at hj
      cases hj
      exact le_rfl
    refine ⟨Classical.byContradiction fun outside => ?_, upper⟩
    -- If it were not among them, the integer below it would be a bound as well.
    have less : ∀ j ∈ S, j ≤ i - 1 := fun j hj => by
      have le := upper j hj
      have ne : j ≠ i := fun same => outside (same ▸ hj)
      omega
    have := (bounds (i - 1)).2 less i hi
    omega
  have none_iff : readKey g t key = none ↔ S = ∅ := by
    constructor
    · intro absent
      refine Set.eq_empty_of_forall_notMem fun i hi => ?_
      have := (bounds (i - 1)).1 (fun j hj => absurd (absent ▸ hj) (by simp)) i hi
      omega
    · rintro rfl
      refine Option.eq_none_iff_forall_ne_some.2 fun v hv => ?_
      obtain ⟨i, rfl⟩ := ints t v hv
      exact (found i hv).1
  refine ⟨fun i => ⟨found i, fun greatest => ?_⟩, none_iff⟩
  cases read : readKey g t key with
  | none => exact absurd greatest.1 (by rw [none_iff.1 read]; exact Set.notMem_empty i)
  | some v =>
    obtain ⟨j, rfl⟩ := ints t v read
    rw [(found j read).unique greatest]

/-! ### One value -/

/-- A graph in which integers have been written, and nothing else. -/
structure Raised (key : String) (g g' : Graph) : Prop where
  agree : AgreeBut (· = key) g g'
  integral : Integral key g'
  kept : ∀ n, readKey g' n key = none → attribute? g' n key = attribute? g n key

theorem Raised.refl (ints : Integral key g) : Raised key g g := ⟨.refl g, ints, fun _ _ => rfl⟩

theorem Raised.trans (other : key ≠ cardinalityKey) (h : Raised key g g')
    (h' : Raised key g' g'') : Raised key g g'' := by
  refine ⟨h.agree.trans h'.agree, h'.integral, fun n absent => ?_⟩
  have same := h'.kept n absent
  refine same.trans (h.kept n ?_)
  rw [readKey_eq other, ← same, ← readKey_eq other, absent]

theorem raised_writeKey (wf : g.WellFormed) (other : key ≠ cardinalityKey) (ints : Integral key g)
    (there : g.contains n) : Raised key g (writeKey n key (.int i) g) := by
  have read : ∀ t, readKey (writeKey n key (.int i) g) t key =
      if n = t then some (.int i) else readKey g t key := fun t =>
    readKey_writeKey wf other there rfl
  refine ⟨agreeBut_writeKey wf other there, fun t v hv => ?_, fun t absent => ?_⟩
  · rw [read] at hv
    split at hv
    · cases hv
      exact ⟨i, rfl⟩
    · exact ints t v hv
  · rw [read] at absent
    rw [attribute?_writeKey wf other there]
    split at absent
    · exact absurd absent (by simp)
    · next elsewhere => rw [if_neg fun h => elsewhere h.1]

theorem atMost_writeKey (wf : g.WellFormed) (other : key ≠ cardinalityKey) (there : g.contains n) :
    AtMost key (writeKey n key (.int i) g) t bound ↔
      if n = t then i ≤ bound else AtMost key g t bound := by
  rw [AtMost, readKey_writeKey wf other there rfl]
  split
  · simp
  · rfl

/-- A node that gets a value has that one too below its bounds. -/
theorem bring_max (wf : g.WellFormed) (other : key ≠ cardinalityKey) (ints : Integral key g)
    (there : g.contains n) : Raised key g (bring key .max (.int i) g n) ∧
      ∀ t bound, AtMost key (bring key .max (.int i) g n) t bound ↔
        AtMost key g t bound ∧ (t = n → i ≤ bound) := by
  -- Whatever the node had, what is written has both below its bounds.
  have written : ∀ w : Int, combine .max (readKey g n key) (.int i) = some (.int w) →
      (∀ bound, w ≤ bound ↔ AtMost key g n bound ∧ i ≤ bound) →
      Raised key g (bring key .max (.int i) g n) ∧
        ∀ t bound, AtMost key (bring key .max (.int i) g n) t bound ↔
          AtMost key g t bound ∧ (t = n → i ≤ bound) := by
    intro w combined bounds
    simp only [bring, combined]
    refine ⟨raised_writeKey wf other ints there, fun t bound => ?_⟩
    rw [atMost_writeKey wf other there]
    by_cases here : n = t
    · subst here
      simp [bounds]
    · rw [if_neg here]
      exact (and_iff_left fun same => absurd same.symm here).symm
  cases read : readKey g n key with
  | none =>
    refine written i (by rw [read]; rfl) fun bound => (and_iff_right fun j hj => ?_).symm
    exact absurd (read.symm.trans hj) (by simp)
  | some v =>
    obtain ⟨j, rfl⟩ := ints n v read
    refine written (max j i) (by rw [read]; rfl) fun bound => Int.max_le.trans ?_
    refine and_congr_left' ⟨fun le l hl => ?_, fun most => most j read⟩
    cases read.symm.trans hl
    exact le

theorem brings_max {targets : List NodeId} (wf : g.WellFormed) (other : key ≠ cardinalityKey)
    (ints : Integral key g) (there : ∀ t ∈ targets, g.contains t) :
    Raised key g (eachSilent (bring key .max (.int i)) targets g) ∧
      ∀ t bound, AtMost key (eachSilent (bring key .max (.int i)) targets g) t bound ↔
        AtMost key g t bound ∧ (t ∈ targets → i ≤ bound) := by
  unfold eachSilent
  induction targets generalizing g with
  | nil => exact ⟨.refl ints, fun t bound => by simp⟩
  | cons n rest ih =>
    rw [List.forall_mem_cons] at there
    obtain ⟨first, firstBounds⟩ := bring_max wf other ints there.1 (i := i)
    have wf' := first.agree.wellFormed wf
    have there' : ∀ t ∈ rest, (bring key .max (.int i) g n).contains t := fun t inside => by
      rw [contains, first.agree.adjacency]
      exact there.2 t inside
    obtain ⟨later, laterBounds⟩ := ih wf' first.integral there'
    refine ⟨first.trans other later, fun t bound => ?_⟩
    rw [List.foldl_cons, laterBounds, firstBounds, List.mem_cons, or_imp, and_assoc]

/-! ### One node -/

theorem contains_of_mem_around (wf : g.WellFormed) (h : t ∈ around g n up transitive) :
    g.contains t := by
  have next : ∀ {n t}, t ∈ (if up then g.parents else g.children) n → g.contains t := by
    intro n t h
    split at h
    · exact Edge.contains ((mem_parents wf.nodup).1 h)
    · exact wf.closed n t h
  unfold around at h
  dsimp only at h
  split at h
  · exact mem_nodes.1 (List.mem_of_mem_erase (mem_reach_iff.1 h).inside)
  · exact next h

/-- A node hands on what it has. -/
theorem spread_max (wf : g.WellFormed) (other : key ≠ cardinalityKey) (ints : Integral key g)
    (up transitive : Bool) (n : NodeId) : Raised key g (spread key up .max transitive g n) ∧
      ∀ t bound, AtMost key (spread key up .max transitive g n) t bound ↔
        AtMost key g t bound ∧ (t ∈ around g n up transitive → AtMost key g n bound) := by
  unfold spread
  cases read : readKey g n key with
  | none =>
    refine ⟨.refl ints, fun t bound => (and_iff_left fun _ i hi => ?_).symm⟩
    exact absurd (read.symm.trans hi) (by simp)
  | some v =>
    obtain ⟨i, rfl⟩ := ints n v read
    have own : ∀ bound, AtMost key g n bound ↔ i ≤ bound := by
      intro bound
      simp [AtMost, read]
    simp only [own]
    exact brings_max wf other ints fun t inside => contains_of_mem_around wf inside

/-! ### One node after the other -/

/-- A value goes from one node to another over nodes that have their turns in the order of a list,
    each of which hands it on to the next. -/
inductive Route (next : NodeId → NodeId → Prop) : List NodeId → NodeId → NodeId → Prop
  | last {n t : NodeId} {rest : List NodeId} : next n t → Route next (n :: rest) n t
  | onward {n m t : NodeId} {rest : List NodeId} : next n m → Route next rest m t →
    Route next (n :: rest) n t
  | skip {n s t : NodeId} {rest : List NodeId} : Route next rest s t → Route next (n :: rest) s t

theorem route_cons_iff {next : NodeId → NodeId → Prop} {rest : List NodeId} :
    Route next (n :: rest) s t ↔
      (s = n ∧ (next n t ∨ ∃ m, next n m ∧ Route next rest m t)) ∨ Route next rest s t := by
  constructor
  · intro route
    cases route with
    | last here => exact .inl ⟨rfl, .inl here⟩
    | onward here route => exact .inl ⟨rfl, .inr ⟨_, here, route⟩⟩
    | skip route => exact .inr route
  · rintro (⟨rfl, here | ⟨m, here, route⟩⟩ | route)
    · exact .last here
    · exact .onward here route
    · exact .skip route

theorem Route.mem {next : NodeId → NodeId → Prop} {order : List NodeId}
    (route : Route next order s t) : s ∈ order := by
  induction route with
  | last | onward => exact List.mem_cons_self
  | skip _ ih => exact List.mem_cons_of_mem _ ih

/-- Nodes whose turns come first may have nothing to do with it. -/
theorem Route.append {next : NodeId → NodeId → Prop} {order : List NodeId}
    (route : Route next order s t) (before : List NodeId) : Route next (before ++ order) s t := by
  induction before with
  | nil => exact route
  | cons n before ih => exact .skip ih

/-- In the end a node has below its bounds what came to it on any route. -/
theorem atMost_spreads (wf : g.WellFormed) (other : key ≠ cardinalityKey) (ints : Integral key g)
    (up transitive : Bool) (order : List NodeId) :
    Raised key g (eachSilent (spread key up .max transitive) order g) ∧
      ∀ t bound, AtMost key (eachSilent (spread key up .max transitive) order g) t bound ↔
        AtMost key g t bound ∧ ∀ s,
          Route (fun a b => b ∈ around g a up transitive) order s t → AtMost key g s bound := by
  unfold eachSilent
  induction order generalizing g with
  | nil => exact ⟨.refl ints, fun t bound => (and_iff_left fun s route => nomatch route).symm⟩
  | cons n rest ih =>
    obtain ⟨first, firstBounds⟩ := spread_max wf other ints up transitive n
    obtain ⟨later, laterBounds⟩ := ih (first.agree.wellFormed wf) first.integral
    refine ⟨first.trans other later, fun t bound => ?_⟩
    -- What the first node has handed on goes on like a value of the nodes that got it.
    rw [List.foldl_cons, laterBounds]
    simp only [first.agree.around, firstBounds, route_cons_iff]
    constructor
    · rintro ⟨⟨own, direct⟩, routes⟩
      refine ⟨own, fun s route => ?_⟩
      rcases route with ⟨rfl, here | ⟨m, here, route⟩⟩ | route
      · exact direct here
      · exact (routes m route).2 here
      · exact (routes s route).1
    · rintro ⟨own, routes⟩
      refine ⟨⟨own, fun here => routes n (.inl ⟨rfl, .inl here⟩)⟩, fun s route => ?_⟩
      exact ⟨routes s (.inr route), fun here => routes n (.inl ⟨rfl, .inr ⟨s, here, route⟩⟩)⟩

end Cartograph.Arrangement

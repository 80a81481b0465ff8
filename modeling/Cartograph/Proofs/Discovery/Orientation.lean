import Cartograph.Proofs.Discovery
import Cartograph.Proofs.Graph.Ancestry

/-!
# Which way edges point

A resolution is read as a list of references (`references`), in the order of its resources and of
what each of them refers to. A reference has a *way*, the edge that it stands for (`edgeFor`): this
depends on the type of its target alone, and types do not change while edges are added.

After each reference two nodes have an edge exactly if one of the references so far is between them,
and just one edge: that of the first of these references. A reference whose way is the opposite is
left out, and reported (`Oriented`). This is kept by each reference (`oriented_connect`), and so it
is true of all in the end (`oriented_build`).
-/

namespace Cartograph.Discovery

open Graph Rules

variable {p : Providers} {g : Graph} {res : Resolution} {title : Option String} {a b n u v : NodeId}
  {refs rest : List (NodeId × NodeId)} {s : Graph × List Diagnostic}

/-! ### References -/

/-- A resource of one name refers to another name. -/
def Refers (p : Providers) (res : Resolution) (u v : NodeId) : Prop :=
  ∃ r ∈ res.resources, r.id = u ∧ v ∈ targetsOf p res r

/-- All references in their order. -/
def references (p : Providers) (res : Resolution) : List (NodeId × NodeId) :=
  res.resources.flatMap fun r => (targetsOf p res r).map fun target => (r.id, target)

theorem mem_references : (u, v) ∈ references p res ↔ Refers p res u v := by
  simp only [references, List.mem_flatMap, List.mem_map, Prod.mk.injEq]
  constructor
  · rintro ⟨r, inside, target, found, rfl, rfl⟩
    exact ⟨r, inside, rfl, found⟩
  · rintro ⟨r, inside, rfl, found⟩
    exact ⟨r, inside, v, found, rfl, rfl⟩

theorem mem_of_mem_firstOccurrences {ids : List NodeId} (h : n ∈ firstOccurrences ids) :
    n ∈ ids := by
  refine List.foldlRecOn (motive := (n ∈ · → n ∈ ids)) ids _ (absurd · List.not_mem_nil)
    (fun done ih next inside found => ?_) h
  split at found
  · exact ih found
  · rcases List.mem_append.1 found with before | last
    · exact ih before
    · exact List.mem_singleton.1 last ▸ inside

/-- A resource refers to other resources. -/
theorem Refers.ends (h : Refers p res u v) :
    u ≠ v ∧ u ∈ res.resources.map (·.id) ∧ v ∈ res.resources.map (·.id) := by
  obtain ⟨r, inside, rfl, found⟩ := h
  obtain ⟨-, listed⟩ := List.mem_filter.1 (mem_of_mem_firstOccurrences found)
  obtain ⟨ne, known⟩ := of_decide_eq_true listed
  exact ⟨ne.symm, List.mem_map_of_mem inside, known⟩

/-- The graph of a resolution, reference by reference. -/
theorem build_eq : build p res title =
    (references p res).foldl (fun s x => connect p x.1 s x.2) (nodesOf p res title, []) := by
  unfold build references
  rw [List.foldl_flatMap]
  congr
  funext s r
  rw [List.foldl_map]

/-! ### Nodes -/

theorem contains_nodesOf :
    (nodesOf p res title).contains n ↔ n ∈ res.resources.map (·.id) := by
  have put : ∀ (resources : List Resolution.Resource) (g : Graph),
      (resources.foldl (fun g r => g.insertNode r.id (metaOf p r)) g).contains n ↔
        n ∈ resources.map (·.id) ∨ g.contains n := by
    intro resources
    induction resources with
    | nil => exact fun g => by simp
    | cons r rest ih =>
      intro g
      rw [List.foldl_cons, ih, contains_insertNode, List.map_cons, List.mem_cons, eq_comm (a := n)]
      exact or_left_comm.trans or_assoc.symm
  exact (put res.resources _).trans (or_iff_left (by simp [contains, Keyed.contains, Graph.empty,
    Keyed.find?]))

/-- A graph that knows what another one knows has the types of its nodes. -/
theorem Extends.typeOf {h : Graph} (e : Extends g h) (wf : g.WellFormed) (there : g.contains n) :
    h.typeOf n = g.typeOf n := by
  obtain ⟨m, known⟩ := wf.exists_meta there
  rw [Graph.typeOf, e.knows n m known, Graph.typeOf, known]

/-! ### One reference -/

/-- The finding that a reference is left out. -/
def dropped (way : NodeId × NodeId) : Diagnostic :=
  ⟨.skipped, some way.1, "dropped edge to '" ++ way.2 ++ "', the reverse edge already exists"⟩

/-- The edge that a reference stands for. -/
def wayOf (p : Providers) (g : Graph) (x : NodeId × NodeId) : NodeId × NodeId :=
  edgeFor p g x.1 x.2

theorem wayOf_cases (p : Providers) (g : Graph) (u v : NodeId) :
    wayOf p g (u, v) = (u, v) ∨ wayOf p g (u, v) = (v, u) := by
  unfold wayOf edgeFor
  split
  · exact .inr rfl
  · exact .inl rfl

/-- A reference is left out if the edge the other way is there, and else becomes an edge. -/
theorem connect_cases (p : Providers) (u v : NodeId) (s : Graph × List Diagnostic)
    (way : wayOf p s.1 (u, v) = (a, b)) :
    (s.1.Edge b a ∧ connect p u s v = (s.1, s.2 ++ [dropped (a, b)])) ∨
      ¬s.1.Edge b a ∧ connect p u s v = ((s.1.addEdge a b).1, s.2) := by
  have way : edgeFor p s.1 u v = (a, b) := way
  unfold connect
  dsimp only
  rw [way]
  dsimp only
  split
  · next there => exact .inl ⟨hasEdge_iff.1 there, rfl⟩
  · next gone => exact .inr ⟨fun edge => gone (hasEdge_iff.2 edge), rfl⟩

/-- What is true after some references, seen from the graph without edges. -/
structure Oriented (p : Providers) (g : Graph) (refs : List (NodeId × NodeId))
    (s : Graph × List Diagnostic) : Prop where
  grown : Extends g s.1
  contains : ∀ n, s.1.contains n ↔ g.contains n
  single : ∀ a b, s.1.Edge a b → ¬s.1.Edge b a
  joined : ∀ x ∈ refs, s.1.Edge (wayOf p g x).1 (wayOf p g x).2 ∨
    s.1.Edge (wayOf p g x).2 (wayOf p g x).1
  /-- No reference the other way comes before the one that an edge is of. -/
  first : ∀ a b, s.1.Edge a b → ∃ before x after, refs = before ++ x :: after ∧
    wayOf p g x = (a, b) ∧ ∀ y ∈ before, wayOf p g y ≠ (b, a)
  reported : ∀ d, d ∈ s.2 ↔
    ∃ x ∈ refs, s.1.Edge (wayOf p g x).2 (wayOf p g x).1 ∧ d = dropped (wayOf p g x)

theorem Oriented.joined_of_way (o : Oriented p g refs s) {x : NodeId × NodeId} (inside : x ∈ refs)
    (way : wayOf p g x = (a, b)) : s.1.Edge a b ∨ s.1.Edge b a := by
  have joined := o.joined x inside
  rwa [way] at joined

/-- Every edge is of a reference. -/
theorem Oriented.exists_way (o : Oriented p g refs s) (edge : s.1.Edge a b) :
    ∃ x ∈ refs, wayOf p g x = (a, b) := by
  obtain ⟨before, x, after, rfl, way, -⟩ := o.first a b edge
  exact ⟨x, List.mem_append_right _ List.mem_cons_self, way⟩

/-- A reference that is the only one between two nodes is not left out. -/
theorem Oriented.edge_of_sole (o : Oriented p g refs s) (inside : (u, v) ∈ refs)
    (sole : (v, u) ∉ refs) : s.1.Edge (wayOf p g (u, v)).1 (wayOf p g (u, v)).2 := by
  refine (o.joined (u, v) inside).elim id fun opposite => ?_
  obtain ⟨⟨x, y⟩, other, way⟩ := o.exists_way opposite
  -- The edge is of a reference between the two, and only this one is.
  have same : (x, y) = (u, v) := by
    rcases wayOf_cases p g u v with e | e <;> rcases wayOf_cases p g x y with e' | e' <;>
      rw [e, e'] at way <;> cases way
    · exact absurd other sole
    · rfl
    · rfl
    · exact absurd other sole
  rw [same] at way
  have turned : (wayOf p g (u, v)).1 = (wayOf p g (u, v)).2 := congrArg Prod.fst way
  rwa [turned] at opposite ⊢

/-- Two nodes have an edge exactly if one of the references is between them. -/
theorem Oriented.edge_iff (o : Oriented p g refs s) :
    s.1.Edge u v ∨ s.1.Edge v u ↔ (u, v) ∈ refs ∨ (v, u) ∈ refs := by
  have drawn : ∀ {a b}, s.1.Edge a b → (a, b) ∈ refs ∨ (b, a) ∈ refs := by
    intro a b edge
    obtain ⟨⟨x, y⟩, inside, way⟩ := o.exists_way edge
    rcases wayOf_cases p g x y with e | e
    · cases way.symm.trans e
      exact .inl inside
    · cases way.symm.trans e
      exact .inr inside
  have joined : ∀ {x y}, (x, y) ∈ refs → s.1.Edge x y ∨ s.1.Edge y x := by
    intro x y inside
    rcases wayOf_cases p g x y with e | e
    · exact o.joined_of_way inside e
    · exact (o.joined_of_way inside e).symm
  exact ⟨fun h => h.elim drawn fun edge => (drawn edge).symm,
    fun h => h.elim joined fun inside => (joined inside).symm⟩

/-- The first reference of an edge stays the first when more follow. -/
theorem Oriented.first_append (o : Oriented p g refs s) (edge : s.1.Edge a b)
    (x : NodeId × NodeId) : ∃ before y after, refs ++ [x] = before ++ y :: after ∧
      wayOf p g y = (a, b) ∧ ∀ z ∈ before, wayOf p g z ≠ (b, a) := by
  obtain ⟨before, y, after, rfl, way, others⟩ := o.first a b edge
  exact ⟨before, y, after ++ [x], by simp, way, others⟩

/-- The opposite edge is there, so that the reference is left out. -/
theorem Oriented.leaveOut (o : Oriented p g refs s) (way : wayOf p g (u, v) = (a, b))
    (opposite : s.1.Edge b a) :
    Oriented p g (refs ++ [(u, v)]) (s.1, s.2 ++ [dropped (a, b)]) := by
  refine ⟨o.grown, o.contains, o.single, fun x inside => ?_, fun _ _ edge =>
    o.first_append edge (u, v), fun d => ?_⟩
  · rcases List.mem_append.1 inside with before | last
    · exact o.joined x before
    · rw [List.mem_singleton.1 last, way]
      exact .inr opposite
  · rw [List.mem_append, List.mem_singleton, o.reported]
    constructor
    · rintro (⟨x, inside, edge, rfl⟩ | rfl)
      · exact ⟨x, List.mem_append_left _ inside, edge, rfl⟩
      · refine ⟨(u, v), List.mem_append_right _ (List.mem_singleton_self _), ?_, by rw [way]⟩
        rwa [way]
    · rintro ⟨x, inside, edge, rfl⟩
      rcases List.mem_append.1 inside with before | last
      · exact .inl ⟨x, before, edge, rfl⟩
      · exact .inr (by rw [List.mem_singleton.1 last, way])

/-- The opposite edge is not there, so that the reference becomes an edge, unless it is one. -/
theorem Oriented.add (o : Oriented p g refs s) (way : wayOf p g (u, v) = (a, b)) (ne : a ≠ b)
    (ha : g.contains a) (hb : g.contains b) (free : ¬s.1.Edge b a) :
    Oriented p g (refs ++ [(u, v)]) ((s.1.addEdge a b).1, s.2) := by
  have edges : ∀ c d, (s.1.addEdge a b).1.Edge c d ↔ s.1.Edge c d ∨ (c = a ∧ d = b) :=
    fun _ _ => edge_addEdge ne
  refine ⟨o.grown.trans (extends_addEdge o.grown.wellFormed), fun n => ?_, fun c d edge back => ?_,
    fun x inside => ?_, fun c d edge => ?_, fun d => ?_⟩
  · rw [contains_addEdge ne, o.contains]
    constructor
    · rintro (rfl | rfl | there)
      · exact ha
      · exact hb
      · exact there
    · exact fun there => .inr (.inr there)
  · rcases (edges c d).1 edge with old | ⟨rfl, rfl⟩
    · rcases (edges d c).1 back with old' | ⟨rfl, rfl⟩
      · exact o.single c d old old'
      · exact free old
    · rcases (edges d c).1 back with old' | ⟨same, -⟩
      · exact free old'
      · exact ne same.symm
  · rcases List.mem_append.1 inside with before | last
    · exact (o.joined x before).imp (fun edge => (edges _ _).2 (.inl edge))
        fun edge => (edges _ _).2 (.inl edge)
    · rw [List.mem_singleton.1 last, way]
      exact .inl ((edges a b).2 (.inr ⟨rfl, rfl⟩))
  · by_cases old : s.1.Edge c d
    · exact o.first_append old (u, v)
    · obtain ⟨rfl, rfl⟩ := ((edges c d).1 edge).resolve_left old
      refine ⟨refs, (u, v), [], rfl, way, fun y inside opposite => ?_⟩
      -- Such a reference would have left an edge between the two.
      exact (o.joined_of_way inside opposite).elim free old
  · rw [o.reported]
    constructor
    · rintro ⟨x, inside, edge, rfl⟩
      exact ⟨x, List.mem_append_left _ inside, (edges _ _).2 (.inl edge), rfl⟩
    · rintro ⟨x, inside, edge, rfl⟩
      rcases List.mem_append.1 inside with before | last
      · refine ⟨x, before, ?_, rfl⟩
        rcases (edges _ _).1 edge with old | ⟨same, same'⟩
        · exact old
        · have opposite : wayOf p g x = (b, a) := Prod.ext same' same
          have joined := (o.joined_of_way before opposite).resolve_left free
          rwa [opposite]
      · rw [List.mem_singleton.1 last, way] at edge
        rcases (edges b a).1 edge with old | ⟨same, -⟩
        · exact absurd old free
        · exact absurd same.symm ne

theorem oriented_connect (wf : g.WellFormed) (o : Oriented p g refs s) (ne : u ≠ v)
    (hu : g.contains u) (hv : g.contains v) :
    Oriented p g (refs ++ [(u, v)]) (connect p u s v) := by
  have type : s.1.typeOf v = g.typeOf v := o.grown.typeOf wf hv
  obtain ⟨⟨a, b⟩, way⟩ : ∃ way, wayOf p g (u, v) = way := ⟨_, rfl⟩
  have here : wayOf p s.1 (u, v) = (a, b) := by
    rw [← way, wayOf, edgeFor, type]
    rfl
  rcases connect_cases p u v s here with ⟨opposite, same⟩ | ⟨free, same⟩
  · rw [same]
    exact o.leaveOut way opposite
  · rw [same]
    rcases wayOf_cases p g u v with e | e
    · cases way.symm.trans e
      exact o.add way ne hu hv free
    · cases way.symm.trans e
      exact o.add way ne.symm hv hu free

/-! ### All references -/

theorem oriented_foldl (wf : g.WellFormed) (o : Oriented p g refs s)
    (proper : ∀ x ∈ rest, x.1 ≠ x.2 ∧ g.contains x.1 ∧ g.contains x.2) :
    Oriented p g (refs ++ rest) (rest.foldl (fun s x => connect p x.1 s x.2) s) := by
  induction rest generalizing refs s with
  | nil => rwa [List.append_nil]
  | cons x rest ih =>
    obtain ⟨⟨ne, hu, hv⟩, others⟩ := List.forall_mem_cons.1 proper
    have more := ih (oriented_connect wf o ne hu hv) others
    rwa [List.append_assoc] at more

theorem oriented_build (p : Providers) (res : Resolution) (title : Option String) :
    Oriented p (nodesOf p res title) (references p res) (build p res title) := by
  have none : ∀ a b, ¬(nodesOf p res title).Edge a b := fun a b =>
    List.foldlRecOn (motive := fun g : Graph => ¬g.Edge a b) _ _ List.not_mem_nil
      fun g none r _ edge => none (edge_insertNode.1 edge)
  have start : Oriented p (nodesOf p res title) [] (nodesOf p res title, []) :=
    ⟨⟨wellFormed_nodesOf, fun _ _ found => found⟩, fun _ => .rfl,
      fun a b edge => absurd edge (none a b), fun _ h => absurd h List.not_mem_nil,
      fun a b edge => absurd edge (none a b), fun _ => by simp⟩
  rw [build_eq]
  refine oriented_foldl wellFormed_nodesOf start fun ⟨u, v⟩ inside => ?_
  obtain ⟨ne, hu, hv⟩ := (mem_references.1 inside).ends
  exact ⟨ne, contains_nodesOf.2 hu, contains_nodesOf.2 hv⟩

/-- What a graph shows of a resolution, and what is said about references that it does not show. -/
structure Shows (p : Providers) (res : Resolution) (g : Graph) (found : List Diagnostic) :
    Prop where
  once : g.nodes.Nodup
  nodes : ∀ n, n ∈ g.nodes ↔ n ∈ res.resources.map (·.id)
  type : (res.resources.map (·.id)).Nodup → ∀ r ∈ res.resources,
    g.typeOf r.id = if r.resourceType = "" then NodeId.resourceType r.id else r.resourceType
  joined : ∀ u v, g.Edge u v ∨ g.Edge v u ↔ Refers p res u v ∨ Refers p res v u
  single : ∀ u v, g.Edge u v → ¬g.Edge v u
  alone : ∀ u v, Refers p res u v → ¬Refers p res v u →
    if p.isReverseArrow (g.typeOf v) then g.Edge v u else g.Edge u v
  /-- Of the references between two nodes the first one decides. -/
  first : ∀ a b, g.Edge a b → ∃ before x after, references p res = before ++ x :: after ∧
    wayOf p g x = (a, b) ∧ ∀ y ∈ before, wayOf p g y ≠ (b, a)
  reported : ∀ d, d ∈ found ↔ ∃ u v, Refers p res u v ∧
    g.Edge (wayOf p g (u, v)).2 (wayOf p g (u, v)).1 ∧ d = dropped (wayOf p g (u, v))

/-- The graph of a resolution, whatever the providers and the resolution are, has just the resources
    as nodes. Between two nodes there is an edge exactly if one of them refers to the other, and
    never one each way. If only one refers to the other, the edge begins at the target if that is of
    a type with reverse arrows, else at the one that refers; if both do, the first reference
    decides. Exactly the references that would have made the opposite edge are reported. -/
theorem build_shows (p : Providers) (res : Resolution) (title : Option String) :
    Shows p res (build p res title).1 (build p res title).2 := by
  have o := oriented_build p res title
  -- References know the types of their targets from the beginning.
  have way : ∀ x ∈ references p res, wayOf p (build p res title).1 x =
      wayOf p (nodesOf p res title) x := by
    intro x inside
    have type := o.grown.typeOf wellFormed_nodesOf
      (contains_nodesOf.2 (mem_references.1 inside).ends.2.2)
    rw [wayOf, edgeFor, type]
    rfl
  refine ⟨o.grown.wellFormed.nodup, fun n => ?_, fun once r inside => ?_, fun u v => ?_, o.single,
    fun u v refers alone => ?_, fun a b edge => ?_, fun d => ?_⟩
  · rw [mem_nodes, o.contains, contains_nodesOf]
  · rw [Graph.typeOf, meta?_build once inside]
    rfl
  · exact o.edge_iff.trans (or_congr mem_references mem_references)
  · have edge := o.edge_of_sole (mem_references.2 refers) (mem_references.not.2 alone)
    rw [← way _ (mem_references.2 refers)] at edge
    unfold wayOf edgeFor at edge
    split
    · next reversed => rwa [if_pos reversed] at edge
    · next straight => rwa [if_neg straight] at edge
  · obtain ⟨before, x, after, listed, own, others⟩ := o.first a b edge
    refine ⟨before, x, after, listed, ?_, fun y inside => ?_⟩
    · rw [way x (listed ▸ List.mem_append_right _ List.mem_cons_self), own]
    · rw [way y (listed ▸ List.mem_append_left _ inside)]
      exact others y inside
  · rw [o.reported]
    constructor
    · rintro ⟨⟨u, v⟩, inside, edge, rfl⟩
      rw [← way _ inside] at edge ⊢
      exact ⟨u, v, mem_references.1 inside, edge, rfl⟩
    · rintro ⟨u, v, refers, edge, rfl⟩
      rw [way _ (mem_references.2 refers)] at edge ⊢
      exact ⟨(u, v), mem_references.2 refers, edge, rfl⟩

/-- A network and a subnet that refer to each other, and a machine in the subnet. -/
def entangled : Resolution where
  resources := [
    ⟨"aws_vpc.main", "aws_vpc", "main", "", [], [], [], [], 1, [], ["aws_subnet.a"]⟩,
    ⟨"aws_subnet.a", "aws_subnet", "a", "", [], [], [], [], 1, ["aws_vpc.main"], []⟩,
    ⟨"aws_instance.web", "aws_instance", "web", "", [], [], [], [], 1, ["aws_subnet.a"], []⟩]
  dependencies := []
  diagnostics := []
  iterations := 1

/-- Providers with the types of networks whose arrows are reversed. -/
def networks : Providers := ⟨[⟨Aws.table, [], []⟩]⟩

/-- The theorem at these resources: the network's reference comes first, and the subnet's is left
    out. -/
theorem build_shows_entangled :
    Shows networks entangled (build networks entangled none).1 (build networks entangled none).2 ∧
    (Refers networks entangled "aws_vpc.main" "aws_subnet.a" ∧
      Refers networks entangled "aws_subnet.a" "aws_vpc.main") ∧
    (build networks entangled none).1.edges =
      [("aws_subnet.a", "aws_vpc.main"), ("aws_subnet.a", "aws_instance.web")] ∧
    (build networks entangled none).2 = [dropped ("aws_vpc.main", "aws_subnet.a")] := by
  refine ⟨build_shows networks entangled none, ⟨?_, ?_⟩, by decide +kernel⟩
  · exact mem_references.1 (by decide +kernel)
  · exact mem_references.1 (by decide +kernel)

end Cartograph.Discovery

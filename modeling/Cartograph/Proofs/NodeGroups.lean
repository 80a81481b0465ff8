import Cartograph.Arrangement.Callbacks
import Cartograph.Proofs.Expansion.Splitting
import Cartograph.Proofs.Graph.Moving
import Cartograph.Proofs.NodeId

/-!
# Workers of node groups

A turn of the callback for node groups puts one of them under its clusters and its workers under it
(`Staffing`). After a run every node group has its workers for a child, known as the group asked
(`staffed_each`), if nothing that was there before is in the way: a node group that is taken for
another one's workers, or an edge to these (`Unoccupied`).

The identifier of workers is made of a name that has lost letters. So two node groups of one module
whose names are the same afterwards share their workers, and those are known as the last of them
asks (`ownWorkers_iff`).
-/

namespace Cartograph

open Graph

namespace Arrangement

variable {g h : Graph} {n a b k w cluster : NodeId} {m m' : NodeMeta} {cs groups done : List NodeId}

/-! ### Identifiers of workers -/

/-- The name of a node group with the number of its instance. -/
def groupName (node : NodeId) (m : NodeMeta) : String :=
  match NodeId.suffix? node with
  | some i => m.name ++ "_" ++ toString i
  | none => m.name

theorem workersId_eq_iff : workersId n m = workersId k m' ↔ m.module = m'.module ∧
    NodeId.sanitize (groupName n m) = NodeId.sanitize (groupName k m') :=
  NodeId.qualified_eq_iff (NodeId.sanitize_clean _).1 (NodeId.sanitize_clean _).1

/-- Labels have no part in what becomes of workers. -/
theorem workersId_congr (same : m'.unlabelled = m.unlabelled) : workersId n m' = workersId n m := by
  change workersId n m'.unlabelled = workersId n m.unlabelled
  rw [same]

theorem workersMeta_congr (same : m'.unlabelled = m.unlabelled) :
    workersMeta w m' = workersMeta w m := by
  change workersMeta w m'.unlabelled = workersMeta w m.unlabelled
  rw [same]

theorem synthetic_workersMeta : (workersMeta w m).synthetic = true := by
  unfold workersMeta
  split <;> rfl

theorem workersMeta_of_size {size : Nat} (asked : desiredSize? m = some size) :
    (workersMeta w m).cardinality = max 1 size ∧
      Keyed.find? "desired_size" (workersMeta w m).attributes = some (.int size) := by
  rw [workersMeta, asked]
  exact ⟨rfl, rfl⟩

/-! ### A turn -/

/-- A graph in which the edges between a node and its clusters are turned to the node. -/
structure Gathered (g g' : Graph) (n : NodeId) (clusters : List NodeId) : Prop where
  wellFormed : g'.WellFormed
  contains : ∀ k, g'.contains k ↔ g.contains k
  unlabelled : ∀ k, (g'.meta? k).map NodeMeta.unlabelled = (g.meta? k).map NodeMeta.unlabelled
  others : ∀ k, k ≠ n → g'.meta? k = g.meta? k
  edge : ∀ a b, g'.Edge a b ↔
    (g.Edge a b ∧ ¬(a = n ∧ b ∈ clusters)) ∨ (a ∈ clusters ∧ b = n)

theorem gathered_underCluster (wf : g.WellFormed) (there : g.contains n) (ne : cluster ≠ n)
    (inside : g.contains cluster) : Gathered g (underCluster n g cluster) n [cluster] := by
  have cut : (g.removeEdge n cluster).1.WellFormed := wellFormed_removeEdge wf
  have moved := moved_addEdge cut ne (contains_removeEdge.2 inside) (contains_removeEdge.2 there)
  refine ⟨moved.wellFormed, fun k => (moved.contains k).trans contains_removeEdge, fun k => ?_,
    fun k other => ?_, fun a b => ?_⟩
  · rw [underCluster, moved.meta?, meta?_removeEdge]
    split
    · rw [Option.map_map]
      rfl
    · rfl
  · rw [underCluster, moved.meta?, meta?_removeEdge, if_neg fun h => other h.1.symm]
  · rw [underCluster, moved.edge, edge_removeEdge, List.mem_singleton, List.mem_singleton]

theorem gathered_each (wf : g.WellFormed) (there : g.contains n)
    (clusters : ∀ c ∈ cs, c ≠ n ∧ g.contains c) :
    Gathered g (eachSilent (underCluster n) cs g) n cs := by
  unfold eachSilent
  induction cs generalizing g with
  | nil => exact ⟨wf, fun _ => .rfl, fun _ => rfl, fun _ _ => rfl, fun a b => by simp⟩
  | cons c rest ih =>
    obtain ⟨⟨ne, inside⟩, others⟩ := List.forall_mem_cons.1 clusters
    have first := gathered_underCluster wf there ne inside
    have later := ih first.wellFormed ((first.contains n).2 there) fun d hd =>
      ⟨(others d hd).1, (first.contains d).2 (others d hd).2⟩
    refine ⟨later.wellFormed, fun k => (later.contains k).trans (first.contains k),
      fun k => (later.unlabelled k).trans (first.unlabelled k),
      fun k ne => (later.others k ne).trans (first.others k ne), fun a b => ?_⟩
    rw [List.foldl_cons, later.edge, first.edge, List.mem_singleton, List.mem_singleton,
      List.mem_cons, List.mem_cons]
    constructor
    · rintro (⟨⟨edge, off⟩ | ⟨rfl, rfl⟩, off'⟩ | ⟨inside, rfl⟩)
      · exact .inl ⟨edge, fun h => h.2.elim (fun e => off ⟨h.1, e⟩) fun e => off' ⟨h.1, e⟩⟩
      · exact .inr ⟨.inl rfl, rfl⟩
      · exact .inr ⟨.inr inside, rfl⟩
    · rintro (⟨edge, off⟩ | ⟨rfl | inside, rfl⟩)
      · exact .inl ⟨.inl ⟨edge, fun h => off ⟨h.1, .inl h.2⟩⟩, fun h => off ⟨h.1, .inr h.2⟩⟩
      · exact .inl ⟨.inr ⟨rfl, rfl⟩, fun h => ne h.1⟩
      · exact .inr ⟨inside, rfl⟩

/-- The clusters of a node. -/
def clustersOf (g : Graph) (n : NodeId) : List NodeId := neighboursOfType g n ["aws_eks_cluster"]

theorem clustersOf_inside (wf : g.WellFormed) : ∀ c ∈ clustersOf g n, c ≠ n ∧ g.contains c := by
  intro c inside
  obtain ⟨near, -⟩ := List.mem_filter.1 (Keyed.mem_keySet.1 inside)
  rcases List.mem_append.1 near with child | parent
  · exact ⟨fun same => wf.noLoop n (same ▸ child), wf.closed n c child⟩
  · have edge := (mem_parents wf.nodup).1 parent
    exact ⟨fun same => wf.noLoop n (same ▸ edge), contains_of_mem_children edge⟩

/-- A node group is put under its clusters, and its workers under it. -/
structure Staffing (g g' : Graph) (n w : NodeId) (known : NodeMeta) : Prop where
  wellFormed : g'.WellFormed
  unlabelled : ∀ k, k ≠ w →
    (g'.meta? k).map NodeMeta.unlabelled = (g.meta? k).map NodeMeta.unlabelled
  others : ∀ k, k ≠ n → k ≠ w → g'.meta? k = g.meta? k
  workers : g'.meta? w = some known
  edge : ∀ a b, g'.Edge a b ↔ (g.Edge a b ∧ ¬(a = n ∧ b ∈ clustersOf g n)) ∨
    (a ∈ clustersOf g n ∧ b = n) ∨ (a = n ∧ b = w)

theorem staffing_placeNodeGroup (wf : g.WellFormed) (found : g.meta? n = some m)
    (ne : workersId n m ≠ n) : Staffing g (placeNodeGroup g n).1 n (workersId n m)
      (workersMeta (workersId n m) m) := by
  have there : g.contains n := wf.contains_iff.2 (by rw [found]; rfl)
  have gathered := gathered_each wf there (clustersOf_inside wf)
  have turn : (placeNodeGroup g n).1 = (((eachSilent (underCluster n) (clustersOf g n)
      g).insertNode (workersId n m) (workersMeta (workersId n m) m)).addEdge n
        (workersId n m)).1 := by
    rw [placeNodeGroup, found]
    rfl
  rw [turn]
  have inserted := wellFormed_insertNode (n := workersId n m)
    (m := workersMeta (workersId n m) m) gathered.wellFormed
  have moved := moved_addEdge inserted ne.symm
    (contains_insertNode.2 (.inr ((gathered.contains n).2 there)))
    (contains_insertNode.2 (.inl rfl))
  refine ⟨moved.wellFormed, fun k other => ?_, fun k other other' => ?_, ?_, fun a b => ?_⟩
  · rw [moved.meta?, meta?_insertNode, if_neg other.symm, gathered.unlabelled]
  · rw [moved.meta?, meta?_insertNode, if_neg other'.symm, gathered.others k other]
  · rw [moved.meta?, meta?_insertNode, if_pos rfl]
  · rw [moved.edge, edge_insertNode, gathered.edge, or_assoc]

/-! ### A run -/

/-- No workers stand under another one of the node groups before the run, or are one of them. -/
def Unoccupied (g : Graph) (groups : List NodeId) : Prop :=
  ∀ n ∈ groups, ∀ m, g.meta? n = some m →
    workersId n m ∉ groups ∧ ∀ k ∈ groups, k ≠ n → ¬g.hasEdge k (workersId n m)

/-- What a graph is after some of the node groups have had their turn. Node groups are known as
    before. Of several with the same workers it is left open what these are known as. -/
structure Staffed (g h : Graph) (groups done : List NodeId) : Prop where
  wellFormed : h.WellFormed
  unlabelled : ∀ n ∈ groups,
    (h.meta? n).map NodeMeta.unlabelled = (g.meta? n).map NodeMeta.unlabelled
  under : ∀ n ∈ done, ∀ m, g.meta? n = some m → h.Edge n (workersId n m)
  edge : ∀ n ∈ groups, ∀ b, b ∉ groups → h.Edge n b →
    g.Edge n b ∨ ∃ m, g.meta? n = some m ∧ b = workersId n m
  known : ∀ n ∈ done, ∀ m, g.meta? n = some m →
    (∀ k ∈ done, ∀ m', g.meta? k = some m' → k ≠ n → workersId k m' ≠ workersId n m) →
    h.meta? (workersId n m) = some (workersMeta (workersId n m) m)

theorem Staffed.turn (unoccupied : Unoccupied g groups) (s : Staffed g h groups done)
    (hn : n ∈ groups) (waiting : n ∉ done) (subset : done ⊆ groups) :
    Staffed g (placeNodeGroup h n).1 groups (done ++ [n]) := by
  have recorded := s.unlabelled n hn
  cases found : g.meta? n with
  | none =>
    -- A node that is missing has no turn.
    have missing : h.meta? n = none := by simpa [found] using recorded
    have stays : (placeNodeGroup h n).1 = h := by rw [placeNodeGroup, missing]
    have before {k : NodeId} {m : NodeMeta} (inside : k ∈ done ++ [n])
        (known : g.meta? k = some m) : k ∈ done := by
      rcases List.mem_append.1 inside with inside | last
      · exact inside
      · rw [List.mem_singleton.1 last, found] at known
        exact absurd known (by simp)
    rw [stays]
    exact ⟨s.wellFormed, s.unlabelled, fun k inside m known => s.under k (before inside known) m
      known, s.edge, fun k inside m known alone => s.known k (before inside known) m known
        fun j hj => alone j (List.mem_append_left _ hj)⟩
  | some m =>
    rw [found] at recorded
    obtain ⟨m', now, same⟩ := Option.map_eq_some_iff.1 recorded
    have apart : workersId n m ∉ groups := (unoccupied n hn m found).1
    have other : ∀ k ∈ groups, k ≠ workersId n m := by
      rintro k hk rfl
      exact apart hk
    have turn := staffing_placeNodeGroup s.wellFormed now
      (by rw [workersId_congr same]; exact (other n hn).symm)
    rw [workersMeta_congr same, workersId_congr same] at turn
    refine ⟨turn.wellFormed, fun k hk => ?_, fun k hk mk known => ?_, fun k hk b outside edge => ?_,
      fun k hk mk known alone => ?_⟩
    · exact (turn.unlabelled k (other k hk)).trans (s.unlabelled k hk)
    · rw [turn.edge]
      rcases List.mem_append.1 hk with hk | last
      · exact .inl ⟨s.under k hk mk known, fun h => waiting (h.1 ▸ hk)⟩
      · obtain rfl := List.mem_singleton.1 last
        obtain rfl := Option.some.inj (found.symm.trans known)
        exact .inr (.inr ⟨rfl, rfl⟩)
    · rcases (turn.edge k b).1 edge with ⟨old, -⟩ | ⟨-, rfl⟩ | ⟨rfl, rfl⟩
      · exact s.edge k hk b outside old
      · exact absurd hn outside
      · exact .inr ⟨m, found, rfl⟩
    · rcases List.mem_append.1 hk with earlier | last
      · -- Neither the node group nor its workers are those of an earlier one.
        have off : workersId k mk ≠ n := by
          rintro rfl
          exact (unoccupied k (subset earlier) mk known).1 hn
        have off' : workersId k mk ≠ workersId n m :=
          (alone n (by simp) m found fun e => waiting (e ▸ earlier)).symm
        rw [turn.others _ off off']
        exact s.known k earlier mk known fun j hj => alone j (List.mem_append_left _ hj)
      · obtain rfl := List.mem_singleton.1 last
        obtain rfl := Option.some.inj (found.symm.trans known)
        exact turn.workers

theorem Staffed.each (unoccupied : Unoccupied g groups) {rest : List NodeId}
    (s : Staffed g h groups done) (nodup : (done ++ rest).Nodup) (subset : done ++ rest ⊆ groups) :
    Staffed g (each placeNodeGroup rest h).1 groups (done ++ rest) := by
  induction rest generalizing h done with
  | nil => rwa [List.append_nil]
  | cons n rest ih =>
    have split : done ++ n :: rest = done ++ [n] ++ rest := by simp
    have waiting : n ∉ done := fun inside =>
      (List.nodup_append.1 nodup).2.2 n inside n List.mem_cons_self rfl
    have turn := s.turn unoccupied (subset (by simp)) waiting
      fun k hk => subset (List.mem_append_left _ hk)
    rw [split] at nodup subset ⊢
    exact ih turn nodup subset

theorem staffed_each (wf : g.WellFormed) (unoccupied : Unoccupied g groups)
    (nodup : groups.Nodup) : Staffed g (each placeNodeGroup groups g).1 groups groups :=
  @Staffed.each _ _ _ [] unoccupied _ ⟨wf, fun _ _ => rfl, fun _ h => absurd h List.not_mem_nil,
    fun _ _ _ _ edge => .inl edge, fun _ h => absurd h List.not_mem_nil⟩ nodup fun _ h => h

/-- A made-up node stands under a node group as its workers, and under no other one. -/
structure OwnWorkers (h : Graph) (groups : List NodeId) (n : NodeId) (m : NodeMeta) (w : NodeId) :
    Prop where
  under : h.hasEdge n w
  alone : ∀ k ∈ groups, h.hasEdge k w → k = n
  known : ∃ made, h.meta? w = some made ∧ made.synthetic ∧
    ∀ size, desiredSize? m = some size → made.cardinality = max 1 size ∧
      Keyed.find? "desired_size" made.attributes = some (.int size)

/-- Where nothing is in the way, a node group gets workers of its own exactly if no other one of its
    module has a name that is the same but for the letters that names of workers lose. -/
theorem ownWorkers_iff (wf : g.WellFormed) {p : Pattern}
    (unoccupied : Unoccupied g (g.nodesMatching p)) (hn : n ∈ g.nodesMatching p) :
    ∃ m, g.meta? n = some m ∧
      (OwnWorkers (runCallback .eksNodeGroups (g.nodesMatching p) g).1 (g.nodesMatching p) n m
          (workersId n m) ↔
        ∀ k ∈ g.nodesMatching p, ∀ m', g.meta? k = some m' → k ≠ n → m'.module = m.module →
          NodeId.sanitize (groupName k m') ≠ NodeId.sanitize (groupName n m)) := by
  obtain ⟨m, found⟩ := wf.exists_meta (mem_nodesMatching.1 hn).1
  have s := staffed_each wf unoccupied (nodup_nodesMatching g p)
  refine ⟨m, found, fun own k hk m' known ne inModule same => ?_, fun different => ?_⟩
  · -- The other one has the same workers for a child.
    have edge := s.under k hk m' known
    rw [workersId_eq_iff.2 ⟨inModule, same⟩] at edge
    exact ne (own.alone k hk (hasEdge_iff.2 edge))
  · have apart : ∀ k ∈ g.nodesMatching p, ∀ m', g.meta? k = some m' → k ≠ n →
        workersId k m' ≠ workersId n m := fun k hk m' known ne same => by
      obtain ⟨inModule, same⟩ := workersId_eq_iff.1 same
      exact different k hk m' known ne inModule same
    obtain ⟨outside, fresh⟩ := unoccupied n hn m found
    refine ⟨hasEdge_iff.2 (s.under n hn m found), fun k hk edge => ?_,
      workersMeta (workersId n m) m, s.known n hn m found apart, synthetic_workersMeta,
      fun _ => workersMeta_of_size⟩
    refine Decidable.byContradiction fun ne => ?_
    rcases s.edge k hk _ outside (hasEdge_iff.1 edge) with old | ⟨m', known, same⟩
    · exact fresh k hk ne (hasEdge_iff.2 old)
    · exact apart k hk m' known ne same.symm

/-- The metadata of a node group that asks for so many workers. -/
def sized (node : NodeId) (size : Int) : NodeMeta :=
  { NodeMeta.forId node with
    attributes := [("scaling_config", .list [.map [("desired_size", .int size)]])] }

/-- A graph with three node groups, of which two have nearly the same name. -/
def staff : Graph :=
  let g := (Graph.empty "aws").insertNode "aws_eks_node_group.front-end"
    (sized "aws_eks_node_group.front-end" 1)
  let g := g.insertNode "aws_eks_node_group.front_end" (sized "aws_eks_node_group.front_end" 2)
  let g := g.insertNode "aws_eks_node_group.batch" (sized "aws_eks_node_group.batch" 3)
  (g.addEdge "aws_eks_node_group.batch" "aws_eks_cluster.prod").1

theorem wellFormed_staff : staff.WellFormed := by
  unfold staff
  refine wellFormed_addEdge (wellFormed_insertNode (wellFormed_insertNode ?_))
  exact wellFormed_insertNode (wellFormed_empty "aws")

/-- The node groups of this graph. -/
def staffGroups : List NodeId := staff.nodesMatching (.ofType "aws_eks_node_group")

theorem staffGroups_eq : staffGroups = ["aws_eks_node_group.batch", "aws_eks_node_group.front-end",
    "aws_eks_node_group.front_end"] := by
  decide +kernel

theorem unoccupied_staff : Unoccupied staff staffGroups := by
  show ∀ n ∈ staffGroups, ∀ m ∈ staff.meta? n,
    workersId n m ∉ staffGroups ∧ ∀ k ∈ staffGroups, k ≠ n → ¬staff.hasEdge k (workersId n m)
  rw [staffGroups_eq]
  decide +kernel

/-- The theorem at a node group with a name of its own, and at one of the other two. -/
theorem ownWorkers_iff_staff :
    (staff.WellFormed ∧ Unoccupied staff staffGroups ∧ "aws_eks_node_group.batch" ∈ staffGroups ∧
      ∃ m, staff.meta? "aws_eks_node_group.batch" = some m ∧ desiredSize? m = some 3 ∧
        OwnWorkers (runCallback .eksNodeGroups staffGroups staff).1 staffGroups
          "aws_eks_node_group.batch" m "tv_aws_eks_workers.batch") ∧
    ∃ m, staff.meta? "aws_eks_node_group.front-end" = some m ∧
      ¬OwnWorkers (runCallback .eksNodeGroups staffGroups staff).1 staffGroups
        "aws_eks_node_group.front-end" m "tv_aws_eks_workers.front_end" := by
  have batch : "aws_eks_node_group.batch" ∈ staffGroups := by simp [staffGroups_eq]
  have front : "aws_eks_node_group.front-end" ∈ staffGroups := by simp [staffGroups_eq]
  obtain ⟨m, found, own⟩ := ownWorkers_iff wellFormed_staff unoccupied_staff batch
  obtain ⟨m', found', shared⟩ := ownWorkers_iff wellFormed_staff unoccupied_staff front
  have facts : ∀ m ∈ staff.meta? "aws_eks_node_group.batch",
      desiredSize? m = some 3 ∧
      workersId "aws_eks_node_group.batch" m = "tv_aws_eks_workers.batch" ∧
      ∀ k ∈ staffGroups, ∀ m' ∈ staff.meta? k, k ≠ "aws_eks_node_group.batch" →
        m'.module = m.module → NodeId.sanitize (groupName k m') ≠
          NodeId.sanitize (groupName "aws_eks_node_group.batch" m) := by
    rw [staffGroups_eq]
    decide +kernel
  have facts' : ∀ m ∈ staff.meta? "aws_eks_node_group.front-end",
      workersId "aws_eks_node_group.front-end" m = "tv_aws_eks_workers.front_end" ∧
      ¬∀ k ∈ staffGroups, ∀ m' ∈ staff.meta? k, k ≠ "aws_eks_node_group.front-end" →
        m'.module = m.module → NodeId.sanitize (groupName k m') ≠
          NodeId.sanitize (groupName "aws_eks_node_group.front-end" m) := by
    rw [staffGroups_eq]
    decide +kernel
  obtain ⟨size, id, different⟩ := facts m found
  obtain ⟨id', alike⟩ := facts' m' found'
  exact ⟨⟨wellFormed_staff, unoccupied_staff, batch, m, found, size, id ▸ own.2 different⟩,
    m', found', fun h => alike (shared.1 (id'.symm ▸ h))⟩

/-- Two node groups whose names differ in a hyphen have no workers of their own: whatever child the
    one has, the other has too. -/
theorem workers_shared : staff.WellFormed ∧ "aws_eks_node_group.front-end" ∈ staffGroups ∧
    ∀ m w, staff.meta? "aws_eks_node_group.front-end" = some m →
      ¬OwnWorkers (runCallback .eksNodeGroups staffGroups staff).1 staffGroups
        "aws_eks_node_group.front-end" m w := by
  have after : let h := (runCallback .eksNodeGroups staffGroups staff).1
      h.children "aws_eks_node_group.front-end" = ["tv_aws_eks_workers.front_end"] ∧
        h.hasEdge "aws_eks_node_group.front_end" "tv_aws_eks_workers.front_end" := by
    rw [staffGroups_eq]
    decide +kernel
  refine ⟨wellFormed_staff, by simp [staffGroups_eq], fun m w _ own => ?_⟩
  have only := hasEdge_iff.1 own.under
  rw [after.1, List.mem_singleton] at only
  subst only
  exact absurd (own.alone "aws_eks_node_group.front_end" (by simp [staffGroups_eq]) after.2)
    (by decide)

end Arrangement

end Cartograph

import Mathlib.Data.List.Sort
import Cartograph.Proofs.Intact
import Cartograph.Proofs.Placeholders
import Cartograph.Proofs.Verdict

/-!
# The conflict that is reported

Two containers of a node that are not related are a *conflict* (`Conflict`). The check for shared
children fails exactly if there is one, and then it names the first: the least node that has any,
and the least two containers of it (`checkShared_least`). Loops, circles and children that are no
nodes make no difference to that, as long as no child stands twice.

In the graph of a snapshot a child may stand twice, and then the search takes its parent for two
containers of it. What an error about a restored graph names are containers of the child all the
same, neither of them among the ancestors of the other, whether the snapshot was only checked or
taken up (`Pipeline.restored_conflict`). But where the child stands twice in the first of them, both
are the same (`Pipeline.check_doubled`).
-/

namespace Cartograph

open Graph Arrangement

variable {g : Graph} {p : Rules.Providers} {a b c a' b' : NodeId}

namespace Containment

/-! ### The first two -/

/-- Of a sorted list the least member is found. -/
theorem le_of_find? {l : List NodeId} {f : NodeId → Bool} (sorted : l.Pairwise (· ≤ ·))
    (found : l.find? f = some a) (inside : b ∈ l) (fits : f b) : a ≤ b := by
  obtain ⟨-, before, after, rfl, none⟩ := List.find?_eq_some_iff_append.1 found
  rcases List.mem_append.1 inside with early | late
  · exact absurd fits (by simpa using none b early)
  · rcases List.mem_cons.1 late with rfl | late
    · exact Std.le_refl b
    · exact (List.pairwise_cons.1 (List.pairwise_append.1 sorted).2.1).1 b late

/-- Of a sorted list the least two members are found that are not nested. -/
theorem firstUnrelated_least {l : List NodeId} (sorted : l.Pairwise (· ≤ ·))
    (found : firstUnrelated g l = some (a, b)) (sub : [a', b'].Sublist l)
    (not : ¬nested g a' b') : a < a' ∨ (a = a' ∧ b ≤ b') := by
  induction l with
  | nil => exact absurd sub (by simp)
  | cons x rest ih =>
    obtain ⟨first, later⟩ := List.pairwise_cons.1 sorted
    -- Whichever of the two comes first, the other one is behind it.
    have inside : x = a' → b' ∈ rest := by
      rintro rfl
      cases sub with
      | cons _ sub => exact sub.subset (by simp)
      | cons_cons _ sub => exact sub.subset (by simp)
    rw [firstUnrelated] at found
    split at found
    · -- The first member is found, with the least one that it is not nested with.
      next y least =>
      cases found
      by_cases same : a = a'
      · subst same
        exact .inr ⟨rfl, le_of_find? later least (inside rfl) (by simpa using not)⟩
      · refine .inl (Std.lt_of_le_of_ne ?_ same)
        cases sub with
        | cons _ sub => exact first a' (sub.subset (by simp))
        | cons_cons => exact absurd rfl same
    · -- The first member is nested with all others.
      next none =>
      cases sub with
      | cons _ sub => exact ih later found sub
      | cons_cons _ _ =>
        rw [List.find?_eq_none] at none
        exact absurd (none b' (inside rfl)) (by simpa using not)

theorem unrelated?_least {nodes : List NodeId} (found : unrelated? p g nodes = some (a, b))
    (inside : [a', b'].Subperm (groupsAmong p g nodes)) (le : a' ≤ b')
    (not : ¬nested g a' b') : a < a' ∨ (a = a' ∧ b ≤ b') := by
  rw [unrelated?_eq] at found
  have ordered := List.pairwise_insertionSort (· ≤ ·) (groupsAmong p g nodes)
  refine firstUnrelated_least ordered found ?_ not
  exact List.sublist_of_subperm_of_pairwise
    (inside.trans (List.perm_insertionSort _ _).symm.subperm) (List.pairwise_pair.2 le) ordered

theorem count_groupsAmong (group : p.isGroup (g.typeOf a)) (nodes : List NodeId) :
    (groupsAmong p g nodes).count a = nodes.count a :=
  List.count_filter (p := fun n => p.isGroup (g.typeOf n)) group

/-- A container stands twice if it is found to be unrelated to itself. -/
theorem one_lt_count_of_same {nodes : List NodeId} (found : unrelated? p g nodes = some (a, a)) :
    1 < nodes.count a := by
  obtain ⟨inside, -⟩ := unrelated?_subperm found
  have group := (mem_groupsAmong.1 (inside.subset List.mem_cons_self)).2
  rw [← count_groupsAmong group]
  exact (by simp : 1 < [a, a].count a).trans_le (inside.count_le a)

/-- Nothing comes before a container that stands twice and is the first to be found. -/
theorem same_of_one_lt_count (nodup : g.nodes.Nodup) {nodes : List NodeId}
    (found : unrelated? p g nodes = some (a, b)) (twice : 1 < nodes.count a) : a = b := by
  obtain ⟨inside, le, -⟩ := unrelated?_subperm found
  have group := (mem_groupsAmong.1 (inside.subset List.mem_cons_self)).2
  rw [← count_groupsAmong group] at twice
  have doubled : [a, a].Subperm (groupsAmong p g nodes) :=
    (List.replicate_sublist_iff.2 twice).subperm
  have self : ¬nested g a a := fun h => ((nested_iff nodup).1 h).1 rfl
  rcases unrelated?_least found doubled (Std.le_refl a) self with lt | ⟨-, ge⟩
  · exact absurd lt Std.lt_irrefl
  · exact Std.le_antisymm le ge

/-! ### The first conflict -/

/-- Two containers of a node, in order, neither of which is above the other. -/
structure Conflict (p : Rules.Providers) (g : Graph) (c a b : NodeId) : Prop where
  lt : a < b
  first : Holds p g a c
  second : Holds p g b c
  unrelated : ¬Related g a b

/-- What is found for a node is the first of its conflicts. -/
theorem conflict_of_unrelated? (nodup : g.nodes.Nodup) (single : ∀ n, (g.children n).Nodup)
    (found : unrelated? p g (g.sourcesOf c) = some (a, b)) : Conflict p g c a b ∧
      ∀ a' b', Conflict p g c a' b' → a < a' ∨ (a = a' ∧ b ≤ b') := by
  have member : ∀ {n}, Holds p g n c → n ∈ groupsAmong p g (g.sourcesOf c) := fun held =>
    mem_groupsAmong.2 ⟨(mem_sourcesOf nodup).2 held.edge, held.isGroup⟩
  constructor
  · obtain ⟨ne, ha, hb, not⟩ := unrelated?_eq_some nodup (nodup_sourcesOf nodup single c)
      (fun _ => mem_sourcesOf nodup) found
    exact ⟨Std.lt_of_le_of_ne (unrelated?_subperm found).2.1 ne, ha, hb, not⟩
  · rintro a' b' ⟨lt, ha, hb, not⟩
    have ne : a' ≠ b' := fun same => Std.lt_irrefl (same ▸ lt)
    have pair : [a', b'].Nodup := by simpa using ne
    refine unrelated?_least found (pair.subperm ?_) (Std.le_of_lt lt) ?_
    · simpa using And.intro (member ha) (member hb)
    · rw [nested_iff nodup]
      exact fun related => not related.2

/-- The check accepts a graph exactly if no node is shared. Otherwise it names the least node that
    is shared, and of this node the first conflict. -/
theorem checkShared_least (p : Rules.Providers) (g : Graph) (nodup : g.nodes.Nodup)
    (single : ∀ n, (g.children n).Nodup) :
    (checkShared p g = .ok () ↔ ∀ c, ¬Shared p g c) ∧
    ((∃ c, Shared p g c) → ∃ a b c, checkShared p g = .error (.sharedChild "validate" a b c) ∧
      (∀ c', Shared p g c' → c ≤ c') ∧ Conflict p g c a b ∧
      ∀ a' b', Conflict p g c a' b' → a < a' ∨ (a = a' ∧ b ≤ b')) := by
  have accepted : checkShared p g = .ok () ↔ ∀ c, ¬Shared p g c :=
    checkShared_ok_iff_not_shared nodup single
  refine ⟨accepted, fun ⟨c, shared⟩ => ?_⟩
  cases failed : checkShared p g with
  | ok => exact absurd shared (accepted.1 failed c)
  | error e =>
    obtain ⟨a, b, c, rfl, found, before⟩ := checkShared_error_iff.1 failed
    obtain ⟨conflict, least⟩ := conflict_of_unrelated? nodup single found
    refine ⟨a, b, c, rfl, fun c' shared => Std.not_lt.1 fun lt => ?_, conflict, least⟩
    -- Of a node before the one that is named nothing was found.
    exact (unrelated?_eq_none_iff_not_shared nodup (nodup_sourcesOf nodup single c')
      fun _ => mem_sourcesOf nodup).1 (before c' lt) shared

/-- A network that contains itself and a balancer, and two others with the same balancer and an
    address that is no node. -/
def straying : Graph :=
  ⟨[("aws_vpc.c", ["aws_lb.web", "aws_eip.gone"]), ("aws_vpc.a", ["aws_vpc.a", "aws_lb.web"]),
    ("aws_vpc.b", ["aws_eip.gone", "aws_lb.web"]), ("aws_lb.web", [])], [], "aws", none⟩

/-- Children stand once if they do in every entry. -/
theorem nodup_children_of_adjacency (h : ∀ x ∈ g.adjacency, x.2.Nodup) (n : NodeId) :
    (g.children n).Nodup := by
  unfold children
  cases found : Keyed.find? n g.adjacency with
  | none => exact List.nodup_nil
  | some cs => exact h _ (Keyed.mem_of_find? found)

theorem isConflict_straying : straying.nodes.Nodup ∧ (∀ x ∈ straying.adjacency, x.2.Nodup) ∧
    isConflict Validation.networks straying "aws_vpc.a" "aws_vpc.b" "aws_lb.web" = true ∧
    firstShared? Validation.networks straying =
      some ("aws_vpc.b", "aws_vpc.c", "aws_eip.gone") := by
  simp only [firstShared?, unrelated?_eq]
  decide +kernel

/-- The theorem at a graph with a loop and a child that is no node. -/
theorem checkShared_least_straying : straying.nodes.Nodup ∧ (∀ n, (straying.children n).Nodup) ∧
    Shared Validation.networks straying "aws_lb.web" ∧
    checkShared Validation.networks straying =
      .error (.sharedChild "validate" "aws_vpc.b" "aws_vpc.c" "aws_eip.gone") ∧
    (∀ c, Shared Validation.networks straying c → "aws_eip.gone" ≤ c) ∧
    Conflict Validation.networks straying "aws_eip.gone" "aws_vpc.b" "aws_vpc.c" := by
  obtain ⟨nodup, once, conflict, first⟩ := isConflict_straying
  have single := nodup_children_of_adjacency once
  have shared : Shared Validation.networks straying "aws_lb.web" :=
    shared_of_conflict nodup conflict
  obtain ⟨a, b, c, failed, least, unrelated, -⟩ :=
    (checkShared_least Validation.networks straying nodup single).2 ⟨_, shared⟩
  have named : checkShared Validation.networks straying =
      .error (.sharedChild "validate" "aws_vpc.b" "aws_vpc.c" "aws_eip.gone") := by
    rw [checkShared_eq, first]
  cases failed.symm.trans named
  exact ⟨nodup, single, shared, named, least, unrelated⟩

/-! ### What an error names -/

/-- Two containers of a node, neither of which is among the ancestors of the other. They are the
    same exactly if the node stands twice among the children of the first. -/
structure Reported (p : Rules.Providers) (g : Graph) (c a b : NodeId) : Prop where
  first : (a, c) ∈ g.edges
  second : (b, c) ∈ g.edges
  firstGroup : p.isGroup (g.typeOf a)
  secondGroup : p.isGroup (g.typeOf b)
  notBelow : b ∉ g.ancestors a
  notAbove : a ∉ g.ancestors b
  twice : a = b → 1 < g.edges.count (a, c)
  same : g.nodes.Nodup → 1 < g.edges.count (a, c) → a = b

/-- Whatever the graph is like, an error about a shared child names two containers of it. -/
theorem reported_of_checkShared {phase : String}
    (failed : checkShared p g = .error (.sharedChild phase a b c)) : Reported p g c a b := by
  obtain ⟨_, _, _, same, found, -⟩ := checkShared_error_iff.1 failed
  cases same
  obtain ⟨inside, -, not⟩ := unrelated?_subperm found
  have held : ∀ n ∈ [a, b], (n, c) ∈ g.edges ∧ p.isGroup (g.typeOf n) := fun n hn =>
    (mem_groupsAmong.1 (inside.subset hn)).imp_left mem_sourcesOf_edges.1
  obtain ⟨first, firstGroup⟩ := held a (by simp)
  obtain ⟨second, secondGroup⟩ := held b (by simp)
  have apart : b ∉ g.ancestors a ∧ a ∉ g.ancestors b := by simpa [nested] using not
  refine ⟨first, second, firstGroup, secondGroup, apart.1, apart.2, ?_, fun nodup twice => ?_⟩
  · rintro rfl
    exact count_sourcesOf ▸ one_lt_count_of_same found
  · exact same_of_one_lt_count nodup found (count_sourcesOf ▸ twice)

end Containment

/-! ### Restored graphs -/

open Containment

/-- The error is about a shared child. -/
def Error.OfSharing : Error → Prop
  | .sharedChild .. => True
  | _ => False

theorem Error.OfTables.not_ofSharing {e : Error} (h : e.OfTables) : ¬e.OfSharing := by
  cases e <;> first | exact h.elim | exact id

theorem Graph.checkIntegrity_fails (g : Graph) (phase : String) :
    Fails (fun e => ¬e.OfSharing) (g.checkIntegrity phase) := by
  have fault : ∀ e, g.fault? phase = some e → ¬e.OfSharing := by
    intro e found
    unfold fault? at found
    split at found
    · next here =>
      cases found
      obtain ⟨⟨n, cs⟩, -, here⟩ := List.exists_of_findSome?_eq_some here
      dsimp only at here
      unfold faultAt? at here
      split at here
      · cases here
        exact id
      · obtain ⟨_, -, rfl⟩ := Option.map_eq_some_iff.1 here
        exact id
    · obtain ⟨_, -, rfl⟩ := Option.map_eq_some_iff.1 found
      exact id
  unfold checkIntegrity
  split
  · next found => exact .error (fault _ found)
  · exact .ok ()

theorem Snapshot.graph_of_restore (s : Snapshot) (h : s.restore = .ok g) : s.graph = g := by
  obtain ⟨⟨⟩, -, ⟨⟩, -, same⟩ := by simpa only [restore, bind_ok_iff] using h
  exact Except.ok.inj same

namespace Pipeline

variable {config : Pipeline} {s : Snapshot} {found : List Diagnostic} {e : Error}

theorem annotate_fails (config : Pipeline) (p : Rules.Providers) (g : Graph) :
    Fails (fun e => ¬e.OfSharing) (config.annotate p g) := by
  rw [annotate]
  split
  · exact .ok _
  · exact (checkIntegrity_fails _ _).bind fun _ _ => .ok _

/-- If finishing a graph fails because a child is shared, the check has found it. -/
theorem finish_fails_sharing (complete : g.Complete) :
    Fails (fun e => e.OfSharing → checkShared p g = .error e) (config.finish p g) := by
  have go : ∀ phase, Fails (fun e => e.OfSharing → checkShared p g = .error e)
      (config.checkStop phase) := by
    intro phase
    rcases config.checkStop_cases phase with go | ⟨-, cancelled⟩
    · exact go ▸ .ok ()
    · exact cancelled ▸ .error False.elim
  have valid : Fails (fun e => e.OfSharing → checkShared p g = .error e)
      (Validation.validate config.keepStandalone p g) := by
    rw [Validation.validate_eq complete]
    exact fun e failed _ => map_error_iff.1 failed
  refine (go _).bind fun _ _ => valid.bind fun _ _ => (go _).bind fun _ _ => ?_
  exact fun e failed sharing => absurd sharing (annotate_fails config p _ e failed)

section Restored

variable (restored : s.restore = .ok g) (detected : config.detectAgain g = .ok (p, found))
include restored detected

theorem check_eq : config.check s = (checkShared p g).map fun _ => g := by
  simp only [check, restored, detected, bind, Except.bind]
  cases checkShared p g <;> rfl

theorem replay_eq :
    config.replay s = (config.finish p g).map fun out => ⟨out.1, found ++ out.2, none⟩ := by
  simp only [replay, restored, detected, bind, Except.bind]
  cases config.finish p g <;> rfl

/-- What is found in a restored graph is named when it is checked and when it is taken up. -/
theorem refused_of_firstShared? (free : config.stopped Stage.validate.name = false)
    (conflict : firstShared? p g = some (a, b, c)) :
    config.check s = .error (.sharedChild "validate" a b c) ∧
      config.replay s = .error (.sharedChild "validate" a b c) := by
  have failed : checkShared p g = .error (.sharedChild "validate" a b c) := by
    rw [checkShared_eq, conflict]
  rw [check_eq restored detected, replay_eq restored detected, map_error_iff, map_error_iff]
  refine ⟨failed, ?_⟩
  have go : config.checkStop Stage.validate.name = .ok () := by
    rw [checkStop, free, if_neg Bool.false_ne_true]
  rw [finish, go, Validation.validate_eq (s.complete_of_restore restored), failed]
  rfl

end Restored

/-- If checking or taking up a snapshot fails because a child is shared, the check has found it in
    its graph, with the providers that are detected of that. -/
theorem checkShared_of_restored (restored : s.restore = .ok g) (sharing : e.OfSharing)
    (failed : config.check s = .error e ∨ config.replay s = .error e) :
    ∃ p found, config.detectAgain g = .ok (p, found) ∧ checkShared p g = .error e := by
  cases detected : config.detectAgain g with
  | error e' =>
    -- Both fail with what is wrong in the tables.
    have tables : e'.OfTables := Rules.Providers.detect_fails _ _ e' detected
    simp only [check, replay, restored, bind, Except.bind, detected, Except.error.injEq,
      or_self] at failed
    exact absurd sharing (failed ▸ tables).not_ofSharing
  | ok detection =>
    obtain ⟨p, found⟩ := detection
    rw [check_eq restored detected, replay_eq restored detected, map_error_iff,
      map_error_iff] at failed
    refine ⟨p, found, rfl, failed.elim id fun failed => ?_⟩
    exact finish_fails_sharing (s.complete_of_restore restored) e failed sharing

/-- Whatever a snapshot that can be restored holds: if checking or replaying it fails because of a
    shared child, the two nodes that are named are containers of the child, and neither is among the
    ancestors of the other. They are two exactly if the child stands once in the first. -/
theorem restored_conflict (config : Pipeline) (s : Snapshot) (g : Graph) (phase : String)
    (a b c : NodeId) (restored : s.restore = .ok g)
    (failed : config.check s = .error (.sharedChild phase a b c) ∨
      config.replay s = .error (.sharedChild phase a b c)) :
    ∃ p found, config.detectAgain g = .ok (p, found) ∧ Reported p g c a b := by
  have sharing : (Error.sharedChild phase a b c).OfSharing := trivial
  obtain ⟨p, found, detected, failed⟩ := checkShared_of_restored restored sharing failed
  exact ⟨p, found, detected, reported_of_checkShared failed⟩

/-- A snapshot of an instance and the networks that it is in. -/
def instanceIn (networks : List (NodeId × List NodeId)) : Snapshot :=
  let adjacency := ("aws_instance.i", []) :: networks
  .capture ⟨adjacency, Keyed.sorted (adjacency.map fun (n, _) => (n, .forId n)), "aws", none⟩
    .transform ⟨⟨[]⟩, ⟨0, 0⟩⟩

/-- An instance in two networks. -/
def contested : Snapshot :=
  instanceIn [("aws_vpc.a", ["aws_instance.i"]), ("aws_vpc.b", ["aws_instance.i"])]

/-- An instance that stands twice in one network. -/
def doubled : Snapshot := instanceIn [("aws_vpc.a", ["aws_instance.i", "aws_instance.i"])]

/-- What the check finds in the graph of a snapshot, with the providers that are detected of it. -/
def findings (config : Pipeline) (s : Snapshot) : Option (NodeId × NodeId × NodeId) := do
  let g ← s.restore.toOption
  let (p, _) ← (config.detectAgain g).toOption
  firstShared? p g

theorem refused_of_findings (free : config.stopped Stage.validate.name = false)
    (conflict : config.findings s = some (a, b, c)) : s.restore = .ok s.graph ∧
      config.check s = .error (.sharedChild "validate" a b c) ∧
      config.replay s = .error (.sharedChild "validate" a b c) := by
  obtain ⟨g, restored, conflict⟩ := Option.bind_eq_some_iff.1 conflict
  obtain ⟨⟨p, found⟩, detected, conflict⟩ := Option.bind_eq_some_iff.1 conflict
  have restored := ok_of_toOption restored
  have refused := refused_of_firstShared? restored (ok_of_toOption detected) free conflict
  rw [s.graph_of_restore restored]
  exact ⟨restored, refused⟩

theorem findings_contested :
    standard.findings contested = some ("aws_vpc.a", "aws_vpc.b", "aws_instance.i") ∧
    standard.findings doubled = some ("aws_vpc.a", "aws_vpc.a", "aws_instance.i") := by
  simp only [findings, firstShared?, unrelated?_eq]
  decide +kernel

/-- The theorem at a snapshot of an instance in two networks. -/
theorem restored_conflict_contested : contested.restore = .ok contested.graph ∧
    standard.check contested =
      .error (.sharedChild "validate" "aws_vpc.a" "aws_vpc.b" "aws_instance.i") ∧
    ∃ p found, standard.detectAgain contested.graph = .ok (p, found) ∧
      Reported p contested.graph "aws_instance.i" "aws_vpc.a" "aws_vpc.b" := by
  obtain ⟨restored, checked, -⟩ := refused_of_findings rfl findings_contested.1
  exact ⟨restored, checked, restored_conflict standard contested contested.graph "validate" _ _ _
    restored (.inl checked)⟩

/-- A network is reported as sharing a child with itself. -/
theorem check_doubled : doubled.restore = .ok doubled.graph ∧
    standard.check doubled =
      .error (.sharedChild "validate" "aws_vpc.a" "aws_vpc.a" "aws_instance.i") ∧
    standard.replay doubled =
      .error (.sharedChild "validate" "aws_vpc.a" "aws_vpc.a" "aws_instance.i") :=
  refused_of_findings rfl findings_contested.2

end Pipeline

end Cartograph

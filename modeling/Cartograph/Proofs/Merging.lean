import Cartograph.Arrangement.Consolidation
import Cartograph.Proofs.Graph.Moving

/-!
# Merged nodes

Merging nodes into one makes the graph into the one that comes about if each of them is taken for
that one: its edges are the images of the edges before (`Graph.Image`), less the loops. A single
member is merged so (`Arrangement.edge_absorb`), images of images are images, and so all members
are, whatever edges there are among them and in whatever order they come
(`Arrangement.consolidate_quotient`).
-/

namespace Cartograph

variable {g h : Graph} {n a b target : NodeId}

namespace Graph

/-- There is an edge between two nodes that are taken for two others, which are not the same. -/
def Image (g : Graph) (f : NodeId → NodeId) (a b : NodeId) : Prop :=
  a ≠ b ∧ ∃ x y, g.Edge x y ∧ f x = a ∧ f y = b

/-- Taking nodes for others in two steps. -/
theorem image_image {f f' : NodeId → NodeId} (edges : ∀ a b, h.Edge a b ↔ Image g f a b) :
    Image h f' a b ↔ Image g (f' ∘ f) a b := by
  refine and_congr_right fun ne => ⟨?_, ?_⟩
  · rintro ⟨_, _, image, rfl, rfl⟩
    obtain ⟨-, x, y, edge, rfl, rfl⟩ := (edges _ _).1 image
    exact ⟨x, y, edge, rfl, rfl⟩
  · rintro ⟨x, y, edge, rfl, rfl⟩
    refine ⟨f x, f y, (edges _ _).2 ⟨fun same => ne ?_, x, y, edge, rfl, rfl⟩, rfl, rfl⟩
    exact congrArg f' same

theorem image_congr {f f' : NodeId → NodeId} (same : ∀ n, f n = f' n) :
    Image g f a b ↔ Image g f' a b := by
  rw [funext same]

end Graph

namespace Arrangement

open Graph

/-! ### One member -/

/-- A node with the children of another, which it takes the place of under its parents. -/
theorem moved_takeOver (wf : g.WellFormed) (there : g.contains target) (ne : target ≠ n) :
    let given := addChildren target (g.children n) g
    Moved g (eachSilent (fun g q => (g.replaceChild q n target).1)
      ((given.parents n).filter (· ≠ target)) given) fun a b =>
        ((g.Edge a b ∨ (a = target ∧ g.Edge n b ∧ a ≠ b)) ∧ ¬(a ≠ target ∧ g.Edge a n ∧ b = n)) ∨
          (a ≠ target ∧ g.Edge a n ∧ b = target) := by
  dsimp only
  have given := moved_addChildren wf there fun c inside => wf.closed n c inside
  have nodup := (given.wellFormed.nodup_parents n).filter (· ≠ target)
  have listed : ∀ a, a ∈ ((addChildren target (g.children n) g).parents n).filter (· ≠ target) ↔
      a ≠ target ∧ g.Edge a n := by
    intro a
    rw [List.mem_filter, decide_eq_true_eq, mem_parents given.wellFormed.nodup, and_comm]
    refine and_congr_right fun other => (given.edge a n).trans (or_iff_left ?_)
    exact fun new => other new.1
  have taken := moved_replaceChildren given.wellFormed ((given.contains target).2 there) ne nodup
    fun c inside => by
      obtain ⟨other, edge⟩ := (listed c).1 inside
      exact ⟨other, (given.edge c n).2 (.inl edge)⟩
  refine (given.trans taken).of_iff fun a b => ?_
  rw [given.edge, listed, and_assoc, and_assoc]
  exact Iff.rfl

theorem wellFormed_absorb (wf : g.WellFormed) (there : g.contains target) (ne : target ≠ n) :
    (absorb target g n).WellFormed :=
  wellFormed_removeNode (moved_takeOver wf there ne).wellFormed

theorem contains_absorb (wf : g.WellFormed) (there : g.contains target) (ne : target ≠ n) :
    (absorb target g n).contains a ↔ a ≠ n ∧ g.contains a :=
  contains_removeNode.trans (and_congr_right' ((moved_takeOver wf there ne).contains a))

/-- The member is taken for the node that it is merged into. -/
theorem edge_absorb (wf : g.WellFormed) (there : g.contains target) (ne : target ≠ n) :
    (absorb target g n).Edge a b ↔ Image g (renamed n target) a b := by
  have removed : (absorb target g n).Edge a b ↔ a ≠ n ∧ b ≠ n ∧ _ := mem_children_removeNode.trans
    (and_congr_right' (and_congr_right' ((moved_takeOver wf there ne).edge a b)))
  rw [removed]
  constructor
  · rintro ⟨first, last, ⟨edge | ⟨rfl, edge, other⟩, -⟩ | ⟨other, edge, rfl⟩⟩
    · exact ⟨fun same => wf.noLoop b (same ▸ edge), a, b, edge, renamed_of_ne first,
        renamed_of_ne last⟩
    · exact ⟨other, n, b, edge, renamed_old, renamed_of_ne last⟩
    · exact ⟨other, a, n, edge, renamed_of_ne first, renamed_old⟩
  · rintro ⟨apart, x, y, edge, rfl, rfl⟩
    have off : ∀ z, renamed n target z ≠ n := by
      intro z
      unfold renamed
      split
      · exact ne
      · assumption
    refine ⟨off x, off y, ?_⟩
    by_cases hx : x = n
    · subst hx
      have hy : y ≠ x := fun same => wf.noLoop x (same ▸ edge)
      rw [renamed_old, renamed_of_ne hy] at apart ⊢
      exact .inl ⟨.inr ⟨rfl, edge, apart⟩, fun h => h.1 rfl⟩
    · by_cases hy : y = n
      · subst hy
        rw [renamed_old, renamed_of_ne hx] at apart ⊢
        exact .inr ⟨apart, edge, rfl⟩
      · rw [renamed_of_ne hx, renamed_of_ne hy]
        exact .inl ⟨.inl edge, fun h => hy h.2.2⟩

/-! ### All members -/

/-- The node that a node stands for once some nodes are merged. -/
def standIn (members : List NodeId) (target n : NodeId) : NodeId :=
  if n ∈ members then target else n

theorem standIn_cons {m : NodeId} {rest : List NodeId} (off : target ∉ rest) :
    standIn rest target (renamed m target n) = standIn (m :: rest) target n := by
  unfold standIn renamed
  by_cases same : n = m
  · simp [same, off]
  · simp [same]

theorem absorbs {members : List NodeId} (wf : g.WellFormed) (there : g.contains target)
    (off : target ∉ members) : (eachSilent (absorb target) members g).WellFormed ∧
      (∀ n, (eachSilent (absorb target) members g).contains n ↔ n ∉ members ∧ g.contains n) ∧
      ∀ a b, (eachSilent (absorb target) members g).Edge a b ↔
        Image g (standIn members target) a b := by
  unfold eachSilent
  induction members generalizing g with
  | nil =>
    refine ⟨wf, fun n => by simp, fun a b => ⟨fun edge => ?_, ?_⟩⟩
    · exact ⟨fun same => wf.noLoop b (same ▸ edge), a, b, edge, rfl, rfl⟩
    · rintro ⟨-, x, y, edge, rfl, rfl⟩
      exact edge
  | cons m rest ih =>
    obtain ⟨ne, off⟩ := not_or.1 (fun h => off (List.mem_cons.2 h))
    have contains := fun n => contains_absorb (a := n) wf there ne
    obtain ⟨wf', nodes, edges⟩ := ih (wellFormed_absorb wf there ne)
      ((contains target).2 ⟨ne, there⟩) off
    refine ⟨wf', fun n => ?_, fun a b => ?_⟩
    · rw [List.foldl_cons, nodes, contains, List.mem_cons, not_or, and_left_comm, and_assoc]
    · rw [List.foldl_cons, edges, image_image fun _ _ => edge_absorb wf there ne]
      exact image_congr fun n => standIn_cons off

theorem standIn_eq_iff {members : List NodeId} (ne : a ≠ target) :
    standIn members target n = a ↔ n = a ∧ a ∉ members := by
  unfold standIn
  split
  · next inside => exact ⟨fun same => absurd same.symm ne, fun h => absurd (h.1 ▸ inside) h.2⟩
  · next off => exact ⟨fun same => ⟨same, same ▸ off⟩, (·.1)⟩

theorem standIn_eq_target {members : List NodeId} :
    standIn members target n = target ↔ n = target ∨ n ∈ members := by
  unfold standIn
  split
  · next inside => exact ⟨fun _ => .inr inside, fun _ => rfl⟩
  · next off => exact (or_iff_left off).symm

/-- Edges between nodes that stand for themselves only. -/
theorem image_standIn {members : List NodeId} (wf : g.WellFormed) (first : a ∉ members)
    (last : b ∉ members) (ne : a ≠ target) (ne' : b ≠ target) :
    Image g (standIn members target) a b ↔ g.Edge a b := by
  unfold Image
  simp only [standIn_eq_iff ne, standIn_eq_iff ne']
  constructor
  · rintro ⟨-, x, y, edge, ⟨rfl, -⟩, rfl, -⟩
    exact edge
  · intro edge
    exact ⟨fun same => wf.noLoop b (same ▸ edge), a, b, edge, ⟨rfl, first⟩, rfl, last⟩

theorem image_to_target {members : List NodeId} (first : a ∉ members) (ne : a ≠ target) :
    Image g (standIn members target) a target ↔ g.Edge a target ∨ ∃ m ∈ members, g.Edge a m := by
  unfold Image
  simp only [standIn_eq_iff ne, standIn_eq_target]
  constructor
  · rintro ⟨-, x, y, edge, ⟨rfl, -⟩, rfl | inside⟩
    · exact .inl edge
    · exact .inr ⟨y, inside, edge⟩
  · rintro (edge | ⟨m, inside, edge⟩)
    · exact ⟨ne, a, target, edge, ⟨rfl, first⟩, .inl rfl⟩
    · exact ⟨ne, a, m, edge, ⟨rfl, first⟩, .inr inside⟩

theorem image_from_target {members : List NodeId} (last : b ∉ members) (ne : b ≠ target) :
    Image g (standIn members target) target b ↔ g.Edge target b ∨ ∃ m ∈ members, g.Edge m b := by
  unfold Image
  simp only [standIn_eq_iff ne, standIn_eq_target]
  constructor
  · rintro ⟨-, x, y, edge, rfl | inside, rfl, -⟩
    · exact .inl edge
    · exact .inr ⟨x, inside, edge⟩
  · rintro (edge | ⟨m, inside, edge⟩)
    · exact ⟨ne.symm, target, b, edge, .inl rfl, rfl, last⟩
    · exact ⟨ne.symm, m, b, edge, .inr inside, rfl, last⟩

/-! ### Merging what a pattern matches -/

/-- A node that a pattern matches is merged, unless it is what the others are merged into. -/
def Merged (pattern : Pattern) (target : NodeId) (g : Graph) (n : NodeId) : Prop :=
  n ∈ g.nodesMatching pattern ∧ n ≠ target

variable {pattern : Pattern}

theorem mem_members :
    n ∈ (g.nodesMatching pattern).filter (· ≠ target) ↔ Merged pattern target g n := by
  rw [List.mem_filter, decide_eq_true_eq, Merged]

theorem consolidate_of_none (none : ∀ n, ¬Merged pattern target g n) :
    consolidate pattern target g = g := by
  have empty : (g.nodesMatching pattern).filter (· ≠ target) = [] :=
    List.eq_nil_iff_forall_not_mem.2 fun n inside => none n (mem_members.1 inside)
  unfold consolidate
  rw [empty]

/-- The graph with the node that others are merged into. -/
theorem wellFormed_withTarget {m : NodeMeta} (wf : g.WellFormed) :
    (if g.contains target then g else g.insertNode target m).WellFormed := by
  split
  · exact wf
  · exact wellFormed_insertNode wf

theorem contains_withTarget {m : NodeMeta} :
    (if g.contains target then g else g.insertNode target m).contains n ↔
      n = target ∨ g.contains n := by
  split
  · next there => exact ⟨.inr, fun h => h.elim (fun same => same ▸ there) id⟩
  · exact contains_insertNode.trans (or_congr_left eq_comm)

theorem edge_withTarget {m : NodeMeta} :
    (if g.contains target then g else g.insertNode target m).Edge a b ↔ g.Edge a b := by
  split
  · rfl
  · exact edge_insertNode

/-- The nodes that are merged are taken for the one that they are merged into. -/
theorem consolidate_spec (wf : g.WellFormed) (some : ∃ n, Merged pattern target g n) :
    (consolidate pattern target g).WellFormed ∧
      (∀ n, (consolidate pattern target g).contains n ↔
        ¬Merged pattern target g n ∧ (n = target ∨ g.contains n)) ∧
      ∀ a b, (consolidate pattern target g).Edge a b ↔
        Image g (standIn ((g.nodesMatching pattern).filter (· ≠ target)) target) a b := by
  obtain ⟨n, merged⟩ := some
  have inside := mem_members.2 merged
  have off : target ∉ (g.nodesMatching pattern).filter (· ≠ target) := fun inside =>
    (mem_members.1 inside).2 rfl
  have members : ∀ n, n ∈ (g.nodesMatching pattern).filter (· ≠ target) ↔
      Merged pattern target g n := fun _ => mem_members
  unfold consolidate
  generalize (g.nodesMatching pattern).filter (· ≠ target) = ms at inside off members
  cases ms with
  | nil => exact absurd inside List.not_mem_nil
  | cons first rest =>
    have ready : (if g.contains target then g
        else g.insertNode target (mergedMeta target (g.meta? first))).WellFormed :=
      wellFormed_withTarget wf
    obtain ⟨wf', nodes, edges⟩ := absorbs ready (contains_withTarget.2 (.inl rfl)) off
    refine ⟨wf', fun n => (nodes n).trans ?_, fun a b => (edges a b).trans ?_⟩
    · rw [members, contains_withTarget]
    · unfold Image
      simp only [edge_withTarget]

/-- With nothing to merge nothing changes. Otherwise the merged nodes are gone, the edges between
    other nodes are those of before, and the node that stands for the merged ones has the edges that
    it or one of them had, none twice and none to itself. -/
theorem consolidate_quotient (wf : g.WellFormed) (pattern : Pattern) (target : NodeId) :
    (consolidate pattern target g).WellFormed ∧
    ((∀ n, ¬Merged pattern target g n) → consolidate pattern target g = g) ∧
    ((∃ n, Merged pattern target g n) →
      (∀ n, (consolidate pattern target g).contains n ↔
        ¬Merged pattern target g n ∧ (n = target ∨ g.contains n)) ∧
      (∀ u v, ¬Merged pattern target g u → ¬Merged pattern target g v → u ≠ target → v ≠ target →
        ((consolidate pattern target g).Edge u v ↔ g.Edge u v)) ∧
      (∀ u, ¬Merged pattern target g u → u ≠ target →
        ((consolidate pattern target g).Edge u target ↔
          g.Edge u target ∨ ∃ m, Merged pattern target g m ∧ g.Edge u m)) ∧
      ∀ v, ¬Merged pattern target g v → v ≠ target →
        ((consolidate pattern target g).Edge target v ↔
          g.Edge target v ∨ ∃ m, Merged pattern target g m ∧ g.Edge m v)) := by
  by_cases some : ∃ n, Merged pattern target g n
  · obtain ⟨wf', nodes, edges⟩ := consolidate_spec wf some
    have off : ∀ {n}, ¬Merged pattern target g n →
        n ∉ (g.nodesMatching pattern).filter (· ≠ target) := fun h => mt mem_members.1 h
    refine ⟨wf', fun none => absurd some (not_exists.2 none), fun _ => ⟨nodes, ?_, ?_, ?_⟩⟩
    · intro u v hu hv ne ne'
      rw [edges, image_standIn wf (off hu) (off hv) ne ne']
    · intro u hu ne
      rw [edges, image_to_target (off hu) ne]
      simp only [mem_members]
    · intro v hv ne
      rw [edges, image_from_target (off hv) ne]
      simp only [mem_members]
  · have none := not_exists.1 some
    have same := consolidate_of_none none
    exact ⟨same.symm ▸ wf, fun _ => same, fun some' => absurd some' some⟩

/-- Two records of a zone, one of which refers to the other and to what both are to become. -/
def records : Graph :=
  let one := ((Graph.empty "aws").addEdge "aws_route53_zone.main" "aws_route53_record.a").1
  let two := (one.addEdge "aws_route53_zone.main" "aws_route53_record.b").1
  let linked := (two.addEdge "aws_route53_record.a" "aws_route53_record.b").1
  ((linked.addEdge "aws_route53_record.b" "aws_route53_record.dns").1.addEdge
    "aws_route53_record.b" "aws_lb.web").1

theorem consolidate_quotient_records : records.WellFormed ∧
    (∃ n, Merged (.ofType "aws_route53_record") "aws_route53_record.dns" records n) ∧
    ¬Merged (.ofType "aws_route53_record") "aws_route53_record.dns" records "aws_lb.web" ∧
    ((consolidate (.ofType "aws_route53_record") "aws_route53_record.dns" records).Edge
      "aws_route53_record.dns" "aws_lb.web" ↔ records.Edge "aws_route53_record.dns" "aws_lb.web" ∨
        ∃ m, Merged (.ofType "aws_route53_record") "aws_route53_record.dns" records m ∧
          records.Edge m "aws_lb.web") := by
  have wf : records.WellFormed := wellFormed_addEdge (wellFormed_addEdge (wellFormed_addEdge
    (wellFormed_addEdge (wellFormed_addEdge (wellFormed_empty "aws")))))
  have some : ∃ n, Merged (.ofType "aws_route53_record") "aws_route53_record.dns" records n := by
    refine ⟨"aws_route53_record.a", ?_⟩
    unfold Merged
    decide +kernel
  have other : ¬Merged (.ofType "aws_route53_record") "aws_route53_record.dns" records
      "aws_lb.web" := by
    unfold Merged
    decide +kernel
  obtain ⟨-, -, merged⟩ :=
    consolidate_quotient wf (.ofType "aws_route53_record") "aws_route53_record.dns"
  obtain ⟨-, -, -, below⟩ := merged some
  exact ⟨wf, some, other, below "aws_lb.web" other (by decide)⟩

end Arrangement

end Cartograph

import Cartograph.Arrangement.Placement
import Cartograph.Proofs.Graph.Moving

/-!
# Splicing nodes out

A node that is removed with its edges kept leaves an edge from each of its parents to each of its
children (`Arrangement.splice`). Once all nodes that a pattern matches have gone in this way, there
is an edge from a node to another exactly if a path led there that passes only nodes that have gone
(`Arrangement.delete_spliced`), in whatever order they went and whatever circles they were on. So
what was above what among the nodes that stay is so afterwards.
-/

namespace Cartograph.Arrangement

open Graph

variable {g : Graph} {n a b c : NodeId} {inner : NodeId → Prop}

/-- A path that passes only certain nodes between its ends. -/
inductive Passing (g : Graph) (inner : NodeId → Prop) : NodeId → NodeId → Prop
  | edge {a b : NodeId} : g.Edge a b → Passing g inner a b
  | via {a d b : NodeId} : g.Edge a d → inner d → Passing g inner d b → Passing g inner a b

theorem Passing.above (path : Passing g inner a b) : g.Above a b := by
  induction path with
  | edge edge => exact edge.above
  | via edge _ _ ih => exact .head edge ih

/-- Where nothing is passed there is an edge. -/
theorem passing_none (none : ∀ d, ¬inner d) : Passing g inner a b ↔ g.Edge a b := by
  refine ⟨fun path => ?_, .edge⟩
  cases path with
  | edge edge => exact edge
  | via _ inside _ => exact absurd inside (none _)

/-! ### One node -/

/-- Removes a node and gives its children to its parents. -/
def splice (g : Graph) (n : NodeId) : Graph := ((bridge g n).removeNode n).1

/-- Some of the parents have been given the children. -/
theorem moved_bridges {qs : List NodeId} (wf : g.WellFormed)
    (others : ∀ q ∈ qs, q ≠ n ∧ g.contains q) :
    Moved g (eachSilent (fun g q => addChildren q (g.children n) g) qs g) fun a b =>
      g.Edge a b ∨ (a ∈ qs ∧ g.Edge n b ∧ a ≠ b) := by
  unfold eachSilent
  induction qs generalizing g with
  | nil => exact (Moved.refl wf).of_iff fun a b => by simp
  | cons q rest ih =>
    rw [List.forall_mem_cons] at others
    obtain ⟨⟨ne, there⟩, others⟩ := others
    have first := moved_addChildren wf there fun c inside => wf.closed n c inside
    have later := ih first.wellFormed fun r inside =>
      ⟨(others r inside).1, (first.contains r).2 (others r inside).2⟩
    -- The children of the node itself stay what they are.
    have same : ∀ b, (addChildren q (g.children n) g).Edge n b ↔ g.Edge n b := fun b =>
      (first.edge n b).trans (or_iff_left fun new => ne new.1.symm)
    refine (first.trans later).of_iff fun a b => ?_
    rw [first.edge, same, List.mem_cons, or_assoc, or_and_right]
    exact Iff.rfl

theorem moved_bridge (wf : g.WellFormed) : Moved g (bridge g n) fun a b =>
    g.Edge a b ∨ (g.Edge a n ∧ g.Edge n b ∧ a ≠ b) := by
  have parents : ∀ q, q ∈ g.parents n ↔ g.Edge q n := fun q => mem_parents wf.nodup
  refine (moved_bridges wf fun q inside => ?_).of_iff fun a b => ?_
  · have edge : g.Edge q n := (parents q).1 inside
    exact ⟨fun same => wf.noLoop n (same ▸ edge), edge.contains⟩
  · rw [parents]

theorem wellFormed_splice (wf : g.WellFormed) : (splice g n).WellFormed :=
  wellFormed_removeNode (moved_bridge wf).wellFormed

theorem contains_splice (wf : g.WellFormed) : (splice g n).contains a ↔ a ≠ n ∧ g.contains a :=
  contains_removeNode.trans (and_congr_right' ((moved_bridge wf).contains a))

theorem edge_splice (wf : g.WellFormed) : (splice g n).Edge a b ↔
    a ≠ n ∧ b ≠ n ∧ (g.Edge a b ∨ (g.Edge a n ∧ g.Edge n b ∧ a ≠ b)) :=
  mem_children_removeNode.trans
    (and_congr_right' (and_congr_right' ((moved_bridge wf).edge a b)))

/-- Paths do not begin or end at the node. -/
theorem ends_of_splice (wf : g.WellFormed) (path : Passing (splice g n) inner a b) :
    a ≠ n ∧ b ≠ n := by
  induction path with
  | edge edge =>
    obtain ⟨first, last, -⟩ := (edge_splice wf).1 edge
    exact ⟨first, last⟩
  | via edge _ _ ih => exact ⟨((edge_splice wf).1 edge).1, ih.2⟩

/-- Every edge that is left stands for a path by the node. -/
theorem passing_of_splice (wf : g.WellFormed) (path : Passing (splice g n) inner a b) :
    Passing g (fun d => d = n ∨ inner d) a b := by
  have along : ∀ {a b c}, (splice g n).Edge a b →
      (b = c ∨ (inner b ∧ Passing g (fun d => d = n ∨ inner d) b c)) →
      Passing g (fun d => d = n ∨ inner d) a c := by
    intro a b c edge rest
    have onward : ∀ {a}, g.Edge a b → Passing g (fun d => d = n ∨ inner d) a c := fun edge =>
      rest.elim (fun same => same ▸ .edge edge) fun rest => .via edge (.inr rest.1) rest.2
    obtain ⟨-, -, edge | ⟨upper, lower, -⟩⟩ := (edge_splice wf).1 edge
    · exact onward edge
    · exact .via upper (.inl rfl) (onward lower)
  induction path with
  | edge edge => exact along edge (.inl rfl)
  | via edge inside _ ih => exact along edge (.inr ⟨inside, ih⟩)

/-- A path that may pass the node is left, from its beginning, or if that is the node, from each
    parent of it. A path back to where it begins may have become nothing. -/
theorem passing_splice_or (wf : g.WellFormed) (last : b ≠ n)
    (path : Passing g (fun d => d = n ∨ inner d) a b) :
    (a ≠ n → a = b ∨ Passing (splice g n) inner a b) ∧
      (a = n → ∀ q, g.Edge q n → q = b ∨ Passing (splice g n) inner q b) := by
  have parent_ne : ∀ {q}, g.Edge q n → q ≠ n := fun edge same => wf.noLoop n (same ▸ edge)
  -- One step of a path between nodes that stay.
  have step : ∀ {a d}, (splice g n).Edge a d → inner d →
      (d = b ∨ Passing (splice g n) inner d b) → Passing (splice g n) inner a b := by
    intro a d edge inside rest
    exact rest.elim (fun same => same ▸ .edge edge) (.via edge inside)
  induction path with
  | edge edge =>
    refine ⟨fun ne => .inr (.edge ((edge_splice wf).2 ⟨ne, last, .inl edge⟩)), ?_⟩
    rintro rfl q upper
    refine Classical.or_iff_not_imp_left.2 fun ne => .edge ?_
    exact (edge_splice wf).2 ⟨parent_ne upper, last, .inr ⟨upper, edge, ne⟩⟩
  | @via a d b edge inside _ ih =>
    obtain ⟨onward, around⟩ := ih last step
    constructor
    · intro ne
      by_cases gone : d = n
      · exact around gone a (gone ▸ edge)
      · have here : (splice g n).Edge a d := (edge_splice wf).2 ⟨ne, gone, .inl edge⟩
        exact .inr (step here (inside.resolve_left gone) (onward gone))
    · rintro rfl q upper
      have stays : d ≠ a := fun same => wf.noLoop a (same ▸ edge)
      by_cases same : q = d
      · exact same ▸ onward stays
      · have here : (splice g a).Edge q d :=
          (edge_splice wf).2 ⟨parent_ne upper, stays, .inr ⟨upper, edge, same⟩⟩
        exact .inr (step here (inside.resolve_left stays) (onward stays))

theorem passing_splice (wf : g.WellFormed) (first : a ≠ n) (last : b ≠ n) (ne : a ≠ b) :
    Passing (splice g n) inner a b ↔ Passing g (fun d => d = n ∨ inner d) a b :=
  ⟨passing_of_splice wf, fun path => ((passing_splice_or wf last path).1 first).resolve_left ne⟩

/-! ### All nodes of a list -/

theorem contains_splices (wf : g.WellFormed) (nodes : List NodeId) :
    (eachSilent splice nodes g).contains a ↔ a ∉ nodes ∧ g.contains a := by
  unfold eachSilent
  induction nodes generalizing g with
  | nil => simp
  | cons n rest ih =>
    rw [List.foldl_cons, ih (wellFormed_splice wf), contains_splice wf, List.mem_cons, not_or,
      and_left_comm, and_assoc]

/-- An edge to another node stands for a path by nodes that have gone. -/
theorem edge_splices (wf : g.WellFormed) (nodes : List NodeId) :
    (eachSilent splice nodes g).Edge a b ↔
      a ∉ nodes ∧ b ∉ nodes ∧ a ≠ b ∧ Passing g (· ∈ nodes) a b := by
  unfold eachSilent
  induction nodes generalizing g with
  | nil =>
    rw [List.foldl_nil, passing_none fun _ => List.not_mem_nil]
    refine ⟨fun edge => ⟨List.not_mem_nil, List.not_mem_nil, fun same => ?_, edge⟩, (·.2.2.2)⟩
    exact wf.noLoop b (same ▸ edge)
  | cons n rest ih =>
    rw [List.foldl_cons, ih (wellFormed_splice wf)]
    simp only [List.mem_cons, not_or]
    constructor
    · rintro ⟨first, last, ne, path⟩
      have ends := ends_of_splice wf path
      exact ⟨⟨ends.1, first⟩, ⟨ends.2, last⟩, ne, passing_of_splice wf path⟩
    · rintro ⟨⟨first, first'⟩, ⟨last, last'⟩, ne, path⟩
      exact ⟨first', last', ne, (passing_splice wf first last ne).2 path⟩

/-- What can be reached by a path between nodes that stay. -/
theorem above_of_passing {nodes : List NodeId} (wf : g.WellFormed) (first : a ∉ nodes)
    (last : b ∉ nodes) (path : Passing g (· ∈ nodes) a b)
    (onward : b = c ∨ (eachSilent splice nodes g).Above b c) :
    a = c ∨ (eachSilent splice nodes g).Above a c := by
  by_cases same : a = b
  · exact same ▸ onward
  · have edge := (edge_splices wf nodes).2 ⟨first, last, same, path⟩
    exact .inr (onward.elim (fun same => same ▸ edge.above) (.head edge))

/-- A path to a node that stays, up to the first node on it that stays, and what is left from
    there. -/
theorem exists_passing {nodes : List NodeId} (wf : g.WellFormed) (last : b ∉ nodes)
    (path : g.Above a b) : ∃ c, c ∉ nodes ∧ Passing g (· ∈ nodes) a c ∧
      (c = b ∨ (eachSilent splice nodes g).Above c b) := by
  induction path using Relation.TransGen.head_induction_on with
  | single edge => exact ⟨b, last, .edge edge, .inl rfl⟩
  | @head a d edge _ ih =>
    obtain ⟨c, stays, path, onward⟩ := ih
    by_cases gone : d ∈ nodes
    · exact ⟨c, stays, .via edge gone path, onward⟩
    · exact ⟨d, gone, .edge edge, above_of_passing wf gone stays path onward⟩

/-- Among the nodes that stay, the same other ones are above each. -/
theorem above_splices (wf : g.WellFormed) {nodes : List NodeId} (first : a ∉ nodes)
    (last : b ∉ nodes) (ne : a ≠ b) : (eachSilent splice nodes g).Above a b ↔ g.Above a b := by
  constructor
  · exact Above.lift fun _ _ edge => ((edge_splices wf nodes).1 edge).2.2.2.above
  · intro above
    obtain ⟨c, stays, path, onward⟩ := exists_passing wf last above
    exact (above_of_passing wf first stays path onward).resolve_left ne

/-! ### Removing with edges kept -/

/-- The nodes that a pattern matches are gone. Between two others that are left there is an edge
    exactly if a path led from the one to the other that passes only nodes that are gone, and a path
    exactly if there was one. -/
theorem delete_spliced (wf : g.WellFormed) (pattern : Pattern) :
    (∀ n, (delete pattern true g).contains n ↔ g.contains n ∧ n ∉ g.nodesMatching pattern) ∧
    ∀ u v, (delete pattern true g).contains u → (delete pattern true g).contains v → u ≠ v →
      ((delete pattern true g).Edge u v ↔ Passing g (· ∈ g.nodesMatching pattern) u v) ∧
      ((delete pattern true g).Above u v ↔ g.Above u v) := by
  have run : delete pattern true g = eachSilent splice (g.nodesMatching pattern) g := rfl
  have nodes := fun n => contains_splices wf (a := n) (g.nodesMatching pattern)
  rw [run]
  refine ⟨fun n => (nodes n).trans and_comm, fun u v hu hv ne => ?_⟩
  obtain ⟨first, -⟩ := (nodes u).1 hu
  obtain ⟨last, -⟩ := (nodes v).1 hv
  refine ⟨(edge_splices wf _).trans ?_, above_splices wf first last ne⟩
  rw [and_iff_right first, and_iff_right last, and_iff_right ne]

/-- A network and its gateway, with two tables between them that refer to each other. -/
def routed : Graph :=
  let tables := (((Graph.empty "aws").addEdge "aws_route_table.a" "aws_route_table.b").1.addEdge
    "aws_route_table.b" "aws_route_table.a").1
  ((tables.addEdge "aws_vpc.main" "aws_route_table.a").1.addEdge
    "aws_route_table.b" "aws_internet_gateway.igw").1

theorem delete_spliced_tables : routed.WellFormed ∧
    (delete (.ofType "aws_route_table") true routed).contains "aws_vpc.main" ∧
    (delete (.ofType "aws_route_table") true routed).contains "aws_internet_gateway.igw" ∧
    (delete (.ofType "aws_route_table") true routed).Edge "aws_vpc.main"
      "aws_internet_gateway.igw" ∧
    Passing routed (· ∈ routed.nodesMatching (.ofType "aws_route_table")) "aws_vpc.main"
      "aws_internet_gateway.igw" := by
  have wf : routed.WellFormed := wellFormed_addEdge (wellFormed_addEdge (wellFormed_addEdge
    (wellFormed_addEdge (wellFormed_empty "aws"))))
  have first : (delete (.ofType "aws_route_table") true routed).contains "aws_vpc.main" := by
    decide +kernel
  have last : (delete (.ofType "aws_route_table") true routed).contains
      "aws_internet_gateway.igw" := by
    decide +kernel
  have edge : (delete (.ofType "aws_route_table") true routed).Edge "aws_vpc.main"
      "aws_internet_gateway.igw" := by
    unfold Edge
    decide +kernel
  obtain ⟨same, -⟩ := (delete_spliced wf (.ofType "aws_route_table")).2 _ _ first last (by decide)
  exact ⟨wf, first, last, edge, same.1 edge⟩

end Cartograph.Arrangement

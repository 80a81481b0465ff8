import Cartograph.Proofs.Discovery
import Cartograph.Proofs.Expansion.Siblings
import Cartograph.Proofs.Resolution.Elements
import Cartograph.Proofs.Resolution.Numbering

/-!
# Instances from the plan to the graph

A resource with several instances is numbered three times: where the resolution evaluates its
attributes, where references to it are answered, and where the expansion splits its node. The
numbers agree (`instances_agree`).

They do not meet in one place: a value that is recorded with placeholders before the number of the
instances is known has a placeholder where the identifier of an instance belongs
(`resolve_loses_instance`).
-/

namespace Cartograph

open Expression Resolution Rules

/-- The graph of a resolved plan. -/
def Plan.discovered (p : Plan) (providers : Providers) (budget : Nat) (title : Option String) :
    Graph := (Discovery.build providers (p.resolve budget) title).1

theorem Plan.wellFormed_discovered (p : Plan) (providers : Providers) (budget : Nat)
    (title : Option String) : (p.discovered providers budget title).WellFormed :=
  Discovery.extends_build.wellFormed

/-- The graph of a resolved plan with its instances, and what was found on the way. -/
def Plan.expanded (p : Plan) (providers : Providers) (budget : Nat) (title : Option String) :
    Arrangement.Outcome := Expansion.expand providers (p.discovered providers budget title)

theorem Plan.wellFormed_expanded (p : Plan) (providers : Providers) (budget : Nat)
    (title : Option String) : (p.expanded providers budget title).1.WellFormed :=
  (Expansion.descends_expand providers (p.wellFormed_discovered providers budget title)).wellFormed

namespace Expansion

variable {p : Providers} {r : Resource}

/-- The split that a resource with several instances asks for. -/
def splitOf (r : Resource) : Split := ⟨r.id, r.cardinality, r.instances, []⟩

theorem plan?_metaOf (plain : NodeId.suffix? r.id = none) (several : 1 < r.cardinality)
    (bags : r.instances.length = r.cardinality) :
    plan? p r.id (Discovery.metaOf p r) = some (splitOf r) := by
  have count : (Discovery.metaOf p r).cardinality = r.cardinality := Nat.max_eq_right several.le
  have instances : (Discovery.metaOf p r).instances = r.instances := rfl
  rw [plan?, count, instances, if_neg (by simp [plain]), if_pos several, if_pos bags]
  rfl

/-- The siblings of a resource's node have the bags and keys of its instances. -/
theorem Stands.bag_and_key {g : Graph} (stands : Stands (splitOf r) (Discovery.metaOf p r) g)
    (bags : r.instances.length = r.cardinality) {i : Nat} (below : i < r.cardinality) :
    ∃ m, g.meta? (NodeId.withSuffix r.id (i + 1)) = some m ∧ r.instances[i]? = some m.attributes ∧
      m.instanceKeys = (r.instanceKeys[i]?).toList := by
  obtain ⟨m, found, same⟩ := Option.map_eq_some_iff.1 (stands.sibling i below)
  refine ⟨m, found, ?_, ?_⟩
  · have attributes : m.attributes = (r.instances[i]?).getD r.attributes :=
      congrArg NodeMeta.attributes same
    rw [attributes, List.getElem?_eq_getElem (bags ▸ below)]
    rfl
  · exact congrArg NodeMeta.instanceKeys same

end Expansion

section Agreement

open State Expansion Arrangement

variable {p : Plan} {budget : Nat} {r : Resource} {d : Declared} {v : Value}
  {members : List Instance}

/-- The siblings of a resource with several instances are in the expanded graph, unless one of their
    names is taken. -/
theorem instances_expand (providers : Providers) (title : Option String)
    (kept : r ∈ (p.resolve budget).resources) (plain : NodeId.suffix? r.id = none)
    (several : 1 < r.cardinality) (bags : r.instances.length = r.cardinality)
    (words : ∀ s ∈ splitsMade providers (p.discovered providers budget title),
      s.count < Nat.pow 2 64) :
    Refused (splitOf r) (p.expanded providers budget title).2 ∨
      Stands (splitOf r) (Discovery.metaOf providers r) (p.expanded providers budget title).1 :=
  stands_expand (p.wellFormed_discovered providers budget title)
    (Discovery.meta?_build nodup_resolve kept) (plan?_metaOf plain several bags) words

/-- The three places where the instances of a resource are numbered agree. Whatever the providers
    and the budget are, for a resource that comes out with several instances and has no number
    itself, as long as the numbers of siblings are words:

    * its instances are those that the value of their number stands for, each with the attributes
      that are evaluated for it (`Numbered`);
    * unless the name of a sibling is taken, the expansion puts siblings in the place of its node,
      each with the bag and the key of its instance;
    * references to what is not written down of an instance read as the identifier of the sibling,
      in the end and in every state whose values are recorded and in which the number of instances
      is known. An evaluation that a visit brings to an end has had the answers of the last
      state. -/
theorem instances_agree (providers : Providers) (p : Plan) (canonical : p.Canonical) (budget : Nat)
    (title : Option String) (r : Resource) (kept : r ∈ (p.resolve budget).resources)
    (plain : NodeId.suffix? r.id = none) (several : 1 < r.cardinality)
    (words : ∀ s ∈ splitsMade providers (p.discovered providers budget title),
      s.count < Nat.pow 2 64) :
    ∃ d v members, Numbered (p.resolved budget) r d v members ∧
      ((∃ i < r.cardinality, skipped (some r.id)
          ("cannot expand, '" ++ NodeId.withSuffix r.id (i + 1) ++ "' already exists") ∈
            (p.expanded providers budget title).2) ∨
        ¬(p.expanded providers budget title).1.contains r.id ∧ ∀ i < r.cardinality,
          (p.expanded providers budget title).1.contains (NodeId.withSuffix r.id (i + 1)) ∧
          ∃ m, (p.expanded providers budget title).1.meta? (NodeId.withSuffix r.id (i + 1)) =
              some m ∧
            r.instances[i]? = some m.attributes ∧
            m.instanceKeys = (r.instanceKeys[i]?).toList) ∧
      (Distinguishes d.repetition v → (p.resolved budget).ReadsIds r.id d r.cardinality ∧
        ∀ t slot, (t, slot) ∈ (ofPlan p).recordings (max 1 budget) →
          ¬t.IsPending (.extent r.id) → t.ReadsIds r.id d r.cardinality) ∧
      ∀ t slot c, (t, slot) ∈ (ofPlan p).visitsOf (max 1 budget) →
        Keyed.find? slot t.cells = some c → t.evaluate c ≠ .error .pending →
        ∀ q ∈ t.askedFor c,
          (t.scope c.module).answer q = ((p.resolved budget).scope c.module).answer q := by
  obtain ⟨d, v, members, numbered⟩ := resolve_numbered kept several
  have bags : r.instances.length = r.cardinality := by
    rw [numbered.bags, List.length_map, List.length_range]
  refine ⟨d, v, members, numbered, ?_, numbered.readsIds_run canonical several, ?_⟩
  · rcases instances_expand providers title kept plain several bags words with
      ⟨taken, sibling, reported⟩ | stands
    · obtain ⟨i, below, rfl⟩ := Split.mem_siblings.1 sibling
      exact .inl ⟨i, below, reported⟩
    · refine .inr ⟨stands.gone, fun i below => ?_⟩
      obtain ⟨m, found, own⟩ := stands.bag_and_key bags below
      have there := (p.wellFormed_expanded providers budget title).contains_iff.2
        (Option.isSome_of_eq_some found)
      exact ⟨there, m, found, own⟩
  · intro t slot c visit found settled q asks
    obtain ⟨staged, waits, -, grows⟩ :=
      ((begun_ofPlan p).toStaged.run (max 1 budget)).visits _ visit
    have later := (staged.grows_visited waits).trans grows
    exact (later.answer_of_asked settled asks).symm

/-- A resource with an instance for each entry of a map, and a reference to the second one. -/
def colours : Plan where
  resources := [
    ⟨"aws_a", "x", "", .managed, [("to", .text "$\x7baws_b.y[\"green\"].id\x7d")], none, none, []⟩,
    ⟨"aws_b", "y", "", .managed, [("n", .text "$\x7beach.value\x7d")], none,
      some (.map [("blue", .int 1), ("green", .int 2)]), []⟩]
  inputs := []
  locals := []
  calls := []
  dependencies := []

theorem canonical_colours : colours.Canonical where
  resources r hr := by
    have two : ∀ a b : String × Value, Keyed.IsSorted [a, b] → a.2.Canonical → b.2.Canonical →
        (Value.map [a, b]).Canonical := fun a b sorted ha hb =>
      .map sorted (List.forall_mem_cons.2 ⟨ha, List.forall_mem_singleton.2 hb⟩)
    rcases List.mem_cons.1 hr with rfl | hr
    · exact ⟨.map (by simp [Keyed.IsSorted]) (List.forall_mem_singleton.2 .text), by simp, by simp⟩
    · rw [List.mem_singleton.1 hr]
      refine ⟨.map (by simp [Keyed.IsSorted]) (List.forall_mem_singleton.2 .text), by simp, ?_⟩
      intro v hv
      cases Option.mem_some_iff.1 hv
      exact two _ _ (by unfold Keyed.IsSorted; decide) (.int (by decide)) (.int (by decide))
  inputs := List.forall_mem_nil _
  calls := List.forall_mem_nil _

/-- The theorem at the second instance. -/
theorem instances_agree_colours : colours.Canonical ∧
    ∃ r ∈ (colours.resolve defaultBudget).resources, r.id = "aws_b.y" ∧
      NodeId.suffix? r.id = none ∧ 1 < r.cardinality ∧
      (∀ s ∈ splitsMade ⟨[]⟩ (colours.discovered ⟨[]⟩ defaultBudget none),
        s.count < Nat.pow 2 64) ∧
      ¬(colours.expanded ⟨[]⟩ defaultBudget none).1.contains "aws_b.y" ∧
      (∃ m, (colours.expanded ⟨[]⟩ defaultBudget none).1.meta? "aws_b.y~2" = some m ∧
        r.instances[1]? = some m.attributes ∧ m.instanceKeys = ["green"]) ∧
      ((colours.resolved defaultBudget).scope "").answer
        ⟨"aws_b", [.attr "y", .index (.text "green"), .attr "id"]⟩ =
          .found (.text "aws_b.y~2") 3 := by
  have there : ((colours.resolve defaultBudget).resources.find? fun r =>
      r.id = "aws_b.y" ∧ r.cardinality = 2 ∧ r.instanceKeys = ["blue", "green"]).isSome = true := by
    decide +kernel
  have words : ∀ s ∈ splitsMade ⟨[]⟩ (colours.discovered ⟨[]⟩ defaultBudget none),
      s.count < Nat.pow 2 64 := by
    decide +kernel
  have quiet : (colours.expanded ⟨[]⟩ defaultBudget none).2 = [] := by
    decide +kernel
  have repeated : (Keyed.find? "aws_b.y" (colours.resolved defaultBudget).declared).any
      (fun d => d.repetition = .forEach ∧ d.attributes.map (·.1) = ["n"]) = true := by
    decide +kernel
  have counted : ((colours.resolved defaultBudget).value? (.extent "aws_b.y")).any
      (fun v => v.asMap?.isSome) = true := by
    decide +kernel
  obtain ⟨r, found⟩ := Option.isSome_iff_exists.1 there
  obtain ⟨id, count, keys⟩ : r.id = "aws_b.y" ∧ r.cardinality = 2 ∧
      r.instanceKeys = ["blue", "green"] := by
    simpa using List.find?_some found
  have kept := List.mem_of_find?_eq_some found
  have plain : NodeId.suffix? r.id = none := id ▸ by decide +kernel
  have several : 1 < r.cardinality := by omega
  obtain ⟨d, v, members, numbered, graph, reads, -⟩ := instances_agree ⟨[]⟩ colours
    canonical_colours defaultBudget none r kept plain several words
  obtain ⟨each, written⟩ : d.repetition = .forEach ∧ d.attributes.map (·.1) = ["n"] := by
    rw [← id, numbered.found] at repeated
    exact of_decide_eq_true repeated
  have apart : Distinguishes d.repetition v := fun _ => .inl <| by
    rw [← id, numbered.value] at counted
    cases v with
    | map entries => exact ⟨entries, rfl⟩
    | _ => exact absurd counted (by simp [Value.asMap?])
  obtain ⟨gone, siblings⟩ := graph.resolve_left (by rw [quiet]; simp)
  obtain ⟨-, m, known, bag, key⟩ := siblings 1 several
  rw [id] at gone known
  rw [keys] at key
  refine ⟨canonical_colours, r, kept, id, plain, several, words, gone, ⟨m, known, bag, key⟩, ?_⟩
  have names : Names d 1 (.text "green") := by
    rw [Names, each]
    exact ⟨"green", by rw [numbered.keys, keys]; rfl, rfl⟩
  have answer := ((reads apart).1 "" "aws_b" "y" (id ▸ rfl) (by decide) "id"
    (by rw [written]; decide) []).1 1 several _ names
  rwa [id] at answer

/-- A list of two elements, of which one is not defined and the other one names an instance of a
    resource whose number of instances is an attribute of a third one. -/
def late : Plan where
  resources := [
    ⟨"aws_a", "x", "", .managed,
      [("tags", .list [.text "$\x7bvar.missing\x7d", .text "$\x7baws_b.y[0].id\x7d"])],
      none, none, []⟩,
    ⟨"aws_b", "y", "", .managed, [], some (.text "$\x7baws_c.z.n\x7d"), none, []⟩,
    ⟨"aws_c", "z", "", .managed, [("n", .int 2)], none, none, []⟩]
  inputs := []
  locals := []
  calls := []
  dependencies := []

/-- The second element reads as the first instance in the end, but a placeholder is recorded. -/
theorem resolve_loses_instance :
    (∃ r ∈ (late.resolve defaultBudget).resources, r.id = "aws_b.y" ∧
      NodeId.suffix? r.id = none ∧ r.cardinality = 2 ∧ r.raw = []) ∧
    ∃ c item, Keyed.find? (.attr "aws_a.x" 0 "tags") (late.resolved defaultBudget).cells = some c ∧
      c.source.at? [.member 1] = some item ∧
      (late.resolved defaultBudget).evaluateItem c item = .ok (.text "aws_b.y~1") ∧
      ((late.resolved defaultBudget).finalValue (.attr "aws_a.x" 0 "tags")).at? [.member 1] =
        some (.unresolved "aws_b.y[0].id") := by
  have there : ((late.resolve defaultBudget).resources.find? fun r =>
      r.id = "aws_b.y" ∧ NodeId.suffix? r.id = none ∧ r.cardinality = 2 ∧
        r.raw.isEmpty).isSome = true := by
    decide +kernel
  have value : (Keyed.find? (.attr "aws_a.x" 0 "tags") (late.resolved defaultBudget).cells).any
      (fun c => (c.source.at? [.member 1]).any fun item =>
        ((late.resolved defaultBudget).evaluateItem c item).toOption.any
          (sameValue (.text "aws_b.y~1"))) = true := by
    decide +kernel
  have shown : (((late.resolved defaultBudget).finalValue (.attr "aws_a.x" 0 "tags")).at?
      [.member 1]).any (sameValue (.unresolved "aws_b.y[0].id")) = true := by
    decide +kernel
  obtain ⟨r, found⟩ := Option.isSome_iff_exists.1 there
  have own : r.id = "aws_b.y" ∧ NodeId.suffix? r.id = none ∧ r.cardinality = 2 ∧ r.raw = [] := by
    simpa using List.find?_some found
  obtain ⟨c, cell, value⟩ := (Option.any_eq_true _ _).1 value
  obtain ⟨item, inside, value⟩ := (Option.any_eq_true _ _).1 value
  obtain ⟨v, evaluated, same⟩ := (Option.any_eq_true _ _).1 value
  rw [eq_text_of_sameValue same] at evaluated
  obtain ⟨w, recorded, same⟩ := (Option.any_eq_true _ _).1 shown
  rw [eq_unresolved_of_sameValue same] at recorded
  exact ⟨⟨r, List.mem_of_find?_eq_some found, own⟩, c, item, cell, inside,
    ok_of_toOption evaluated, recorded⟩

end Agreement

end Cartograph

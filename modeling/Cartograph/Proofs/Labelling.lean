import Cartograph.Proofs.Drawing
import Cartograph.Proofs.Expansion.Labels
import Cartograph.Proofs.Filling
import Cartograph.Proofs.Graph.Strays
import Cartograph.Proofs.Intact

/-!
# Labels in a run

Nothing has a label before the links of the rule tables are made (`Pipeline.unlabelled_handled`), so
no label is stray then. A link leads to every node that its pattern matches, its own source among
them: the source does not become its own child, but it gets the label (`Pipeline.LabelsItself`).
Whatever comes then takes labels with their edges and makes them with their edges: pruning,
validation (`Validation.straying_validate`) and all sections of annotations
(`Annotations.straying_apply`).

So the graph of a run has no stray labels but those that nodes have got for themselves from links.
They are there unless the node was removed or has become a placeholder (`Pipeline.run_labels`).
-/

namespace Cartograph

open Graph Arrangement

variable {g : Graph} {own : NodeId → Prop} {p : Rules.Providers} {n u v : NodeId}

-- Nothing here depends on how an identifier is taken apart.
attribute [local irreducible] NodeId.parts

/-! ### Links -/

namespace Expansion

/-- A label that is set for an edge, or for the node itself. -/
theorem straying_setLabel (s : Straying g own) (there : g.contains u) (edge : u ≠ v → g.Edge u v)
    (label : Option String) :
    Straying (setLabel g u v label) fun n => own n ∨ n = u ∧ n = v ∧ label.isSome := by
  have kept := linked_setLabel (a := u) (b := v) s.wellFormed label
  refine ⟨kept.wellFormed, fun a b stray => ?_, fun n => ?_⟩
  · obtain ⟨labelled, no⟩ := stray
    rw [kept.edge, or_false] at no
    rw [labelOf_setLabel s.wellFormed there] at labelled
    split at labelled
    · next here =>
      cases here
      exact Classical.by_contradiction fun ne => no (edge ne)
    · exact s.only a b ⟨labelled, no⟩
  · rw [labelOf_setLabel s.wellFormed there, ← s.self, ← and_assoc]
    by_cases here : n = u ∧ n = v
    · obtain ⟨rfl, rfl⟩ := here
      simp [or_comm]
    · simp [here]

end Expansion

namespace Pipeline

variable {link : Rules.AutoLink} {rest : List Rules.AutoLink}

theorem straying_addAutoEdge (s : Straying g own) (there : g.contains link.source) :
    Straying (addAutoEdge link g v) fun n =>
      own n ∨ n = link.source ∧ n = v ∧ link.label.isSome := by
  refine Expansion.straying_setLabel s.addEdge (contains_addEdge_of_contains there) (fun ne => ?_) _
  exact (edge_addEdge ne).2 (.inr ⟨rfl, rfl⟩)

theorem contains_addAutoEdge (wf : g.WellFormed) (there : g.contains n) :
    (addAutoEdge link g v).contains n :=
  ((Expansion.linked_setLabel (wellFormed_addEdge wf) _).contains n).2
    (contains_addEdge_of_contains there)

/-- The node is the source of a link with a label, and among the nodes that the link leads to. -/
def LeadsBack (link : Rules.AutoLink) (g : Graph) (n : NodeId) : Prop :=
  n = link.source ∧ n ∈ g.nodesMatching link.target ∧ link.label.isSome

theorem straying_addAutoEdges {targets : List NodeId} (s : Straying g own)
    (there : g.contains link.source) :
    Straying (eachSilent (addAutoEdge link) targets g) fun n =>
      own n ∨ n = link.source ∧ n ∈ targets ∧ link.label.isSome := by
  -- The nodes with labels for themselves grow from step to step, so they are generalized too.
  induction targets generalizing g own with
  | nil => exact s.of_iff fun n => by simp
  | cons t rest ih =>
    have first := straying_addAutoEdge (v := t) s there
    refine (ih first (contains_addAutoEdge s.wellFormed there)).of_iff fun n => ?_
    rw [List.mem_cons]
    tauto

theorem straying_addAutoLink (s : Straying g own) :
    Straying (addAutoLink g link) fun n => own n ∨ LeadsBack link g n := by
  unfold addAutoLink LeadsBack
  split
  · next none => exact s.of_iff fun n => by simp [none]
  · next targets _ =>
    -- The source is there when the edges are made.
    by_cases there : g.contains link.source
    · rw [if_pos there]
      exact straying_addAutoEdges s there
    · rw [if_neg there]
      exact straying_addAutoEdges (s.insertAbsent there rfl) (contains_insertNode.2 (.inl rfl))

/-- A node gets a label for itself: a link leads back to it when its turn comes. -/
def LabelsItself (links : List Rules.AutoLink) (g : Graph) (n : NodeId) : Prop :=
  ∃ before link after, links = before ++ link :: after ∧
    LeadsBack link (eachSilent addAutoLink before g) n

theorem labelsItself_cons : LabelsItself (link :: rest) g n ↔
    LeadsBack link g n ∨ LabelsItself rest (addAutoLink g link) n := by
  constructor
  · rintro ⟨before, l, after, split, back⟩
    cases before with
    | nil =>
      cases split
      exact .inl back
    | cons first before =>
      cases split
      exact .inr ⟨before, l, after, rfl, back⟩
  · rintro (back | ⟨before, l, after, rfl, back⟩)
    · exact ⟨[], link, rest, rfl, back⟩
    · exact ⟨link :: before, l, after, rfl, back⟩

theorem straying_links (links : List Rules.AutoLink) (s : Straying g own) :
    Straying (eachSilent addAutoLink links g) fun n => own n ∨ LabelsItself links g n := by
  induction links generalizing g own with
  | nil => exact s.of_iff fun n => by simp [LabelsItself]
  | cons link rest ih =>
    exact (ih (straying_addAutoLink s)).of_iff fun n => by rw [labelsItself_cons, or_assoc]

/-- The graph of a plan after all phases, when the links are about to be made. -/
def handled (config : Pipeline) (p : Rules.Providers) (plan : Plan) : Graph :=
  phased p (p.contexts.flatMap Rules.Context.phases) (config.expanded p plan)

/-- Nothing has a label before the links are made. -/
theorem unlabelled_handled (config : Pipeline) (p : Rules.Providers) (plan : Plan) :
    Sound .unlabelled (config.handled p plan) := by
  have closed := Content.unlabelled_closed
  have built : Sound .unlabelled (config.built p plan) :=
    Discovery.sound_build closed (fun _ hr => Resolution.id_of_mem_resolve hr)
      fun _ _ => ⟨trivial, trivial, fun _ _ => trivial, trivial, rfl⟩
  have expanded : Sound .unlabelled (config.expanded p plan) :=
    (Expansion.evolves_expand closed built).sound closed built
  exact (evolves_phased closed expanded _).sound closed expanded

end Pipeline

/-! ### Pruning and validation -/

theorem Containment.straying_prune (s : Straying g own) : Straying (prune p g) own := by
  refine s.eachSilent fun g n s => s.eachSilent fun g c s => ?_
  split
  · exact s.removeEdge
  · exact s

namespace Validation

/-- A placeholder has no labels, also where it takes the place of a node that has its name. -/
theorem straying_addPlaceholder (s : Straying g own) :
    Straying (addPlaceholder g n) fun k => own k ∧ k ≠ placeholderFor n := by
  have made : Straying (g.insertNode (placeholderFor n) (placeholderMeta g (placeholderFor n)))
      fun k => own k ∧ k ≠ placeholderFor n := s.insertNode rfl
  exact made.addEdge

theorem straying_validate {keep : Bool} {g' : Graph} {r : Report} (s : Straying g own)
    (validated : validate keep p g = .ok (g', r)) :
    Straying g' fun n => own n ∧ n ∉ r.removed ∧ n ∉ r.placeholders := by
  obtain ⟨-, rfl, rfl⟩ := (validate_ok_iff s.wellFormed).1 validated
  have left : Straying (kept keep p g) fun n => own n ∧ n ∉ (dropped keep p g).map id :=
    s.eachSilent_gone fun _ _ _ s => s.removeNode
  have filled : Straying (fillAll p (kept keep p g)).1 fun n =>
      (own n ∧ n ∉ (dropped keep p g).map id) ∧ n ∉ (fillAll p (kept keep p g)).2 := by
    rw [fillAll_eq_filling]
    exact left.eachSilent_gone fun _ _ _ s => straying_addPlaceholder s
  exact filled.of_iff fun n => by rw [List.map_id, and_assoc]

end Validation

/-! ### Annotations -/

namespace Annotations

variable {notes : Annotations} {s : Connected} {q : Pattern}

theorem straying_namedMeta (h : Straying g own) (absent : ¬g.contains n) :
    Straying (g.insertNode n (namedMeta g n)) own := by
  refine h.insertAbsent absent ?_
  unfold namedMeta
  dsimp only
  split <;> rfl

theorem straying_addNode (h : Straying g own) (entry : NodeId × Attributes) :
    Straying (addNode g entry) own := by
  have named : Straying
      (if g.contains entry.1 then g else g.insertNode entry.1 (namedMeta g entry.1)) own := by
    split
    · exact h
    · next absent => exact straying_namedMeta h absent
  exact named.modifyMeta (fun _ _ inside => inside) fun _ _ inside => .inl inside

theorem straying_added (h : Straying g own) (notes : Annotations) :
    Straying (notes.added g) own := by
  have titled : Straying { g with title := notes.title.or g.title } own :=
    h.of_same (h.wellFormed.of_same rfl (fun _ => rfl) fun _ => rfl) (fun _ => rfl) fun _ => rfl
  exact titled.eachSilent fun _ entry h => straying_addNode h entry

theorem straying_resolve (h : Straying g own) (q : Pattern) : Straying (resolve g q).1 own := by
  rw [resolve]
  split
  · next none =>
    split
    · next named =>
      refine straying_namedMeta h fun there => ?_
      -- The pattern would match the node that it names.
      have inside := mem_nodesMatching.2 ⟨there, Pattern.matchesNode_text named _⟩
      rw [none] at inside
      exact absurd inside List.not_mem_nil
    · exact h
  · exact h

/-- An edge comes with its label. -/
theorem straying_connectPair (h : Straying s.1 own) (ne : u ≠ v) (label : Option String) :
    Straying (connectPair p label s (u, v)).1 own := by
  have edge : (s.1.addEdge u v).1.Edge u v := (edge_addEdge ne).2 (.inr ⟨rfl, rfl⟩)
  have same : (connectPair p label s (u, v)).1 =
      Expansion.setLabel (s.1.addEdge u v).1 u v label := by
    cases label <;> rfl
  rw [same]
  refine (Expansion.straying_setLabel h.addEdge edge.contains (fun _ => edge) label).of_iff
    fun n => or_iff_left ?_
  rintro ⟨rfl, rfl, -⟩
  exact ne rfl

theorem straying_connectLink (h : Straying s.1 own) (sources : List NodeId)
    (link : Pattern × Option String) : Straying (connectLink p sources s link).1 own := by
  unfold connectLink
  dsimp only
  refine List.foldlRecOn (motive := fun s : Connected => Straying s.1 own) _ _
    (straying_resolve h link.1) fun s h pair inside => ?_
  -- No node is paired with itself.
  obtain ⟨a, -, inside⟩ := List.mem_flatMap.1 inside
  obtain ⟨b, target, rfl⟩ := List.mem_map.1 inside
  exact straying_connectPair h (Ne.symm (of_decide_eq_true (List.mem_filter.1 target).2)) link.2

theorem straying_connectEntry {x : Connected × List Diagnostic} (h : Straying x.1.1 own)
    (entry : Pattern × Links) : Straying (connectEntry p x entry).1.1 own := by
  have resolved := straying_resolve h entry.1
  rw [connectEntry]
  dsimp only
  split
  · exact resolved
  · exact List.foldlRecOn (motive := fun s : Connected => Straying s.1 own) _ _ resolved
      fun _ h link _ => straying_connectLink h _ link

theorem straying_connected (h : Straying g own) (notes : Annotations) (p : Rules.Providers) :
    Straying (notes.connected p g).1 own :=
  List.foldlRecOn (motive := fun x : Connected × List Diagnostic => Straying x.1.1 own) _ _
    (straying_added h notes) fun _ h entry _ => straying_connectEntry h entry

theorem straying_disconnected (h : Straying g own) (notes : Annotations) (p : Rules.Providers) :
    Straying (notes.disconnected p g) own := by
  rw [disconnected, each_fst]
  exact (straying_connected h notes p).eachSilent fun _ _ h => h.eachSilent fun _ _ h =>
    h.eachSilent fun _ _ h => h.removeEdge

/-- Nodes that go take their labels with them. -/
theorem straying_removeEntry (h : Straying g fun n => own n ∧ g.contains n) (q : Pattern) :
    Straying (removeEntry g q).1 fun n => own n ∧ (removeEntry g q).1.contains n := by
  have gone : Straying (removeEntry g q).1 fun n =>
      (own n ∧ g.contains n) ∧ n ∉ (g.nodesMatching q).map id :=
    h.eachSilent_gone fun _ _ _ h => h.removeNode
  refine gone.of_iff fun n => ?_
  rw [List.map_id, (thinned_removeEntry h.wellFormed q).contains, and_assoc]

/-- Edges that are there may get labels. -/
theorem keys_setEdgeLabels (children : List NodeId) (links : Links) (m : NodeMeta) (b : NodeId) :
    (b ∈ m.edgeLabels.map (·.1) →
      b ∈ (links.foldl (setEdgeLabels children) m).edgeLabels.map (·.1)) ∧
    (b ∈ (links.foldl (setEdgeLabels children) m).edgeLabels.map (·.1) →
      b ∈ m.edgeLabels.map (·.1) ∨ b ∈ children) := by
  refine List.foldlRecOn (motive := fun m' : NodeMeta =>
    (b ∈ m.edgeLabels.map (·.1) → b ∈ m'.edgeLabels.map (·.1)) ∧
      (b ∈ m'.edgeLabels.map (·.1) → b ∈ m.edgeLabels.map (·.1) ∨ b ∈ children)) _ _
    ⟨id, .inl⟩ fun m' ⟨keeps, known⟩ link _ => ?_
  unfold setEdgeLabels
  split
  · exact ⟨keeps, known⟩
  · dsimp only
    rw [Keyed.mem_keys_insertAll]
    refine ⟨fun inside => .inr (keeps inside), fun inside => inside.elim (fun new => .inr ?_) known⟩
    rw [List.map_map] at new
    obtain ⟨c, named, rfl⟩ := List.mem_map.1 new
    exact (List.mem_filter.1 named).1

theorem straying_updateEntry (h : Straying g own) (u : NodeUpdate) :
    Straying (updateEntry g u).1 own := by
  refine h.eachSilent fun g n h => h.modifyMeta (fun m b inside => ?_) fun m b inside => ?_
  · exact (keys_setEdgeLabels (g.children n) u.edgeLabels _ b).1 inside
  · exact (keys_setEdgeLabels (g.children n) u.edgeLabels
      { m with
        label := u.label.or m.label
        attributes := Keyed.insertAll m.attributes u.attributes } b).2 inside

/-- Of the stray labels that there were before annotations, those are left whose nodes are. -/
theorem straying_apply (h : Straying g own) (notes : Annotations) (p : Rules.Providers) :
    Straying (notes.apply p g).1 fun n => own n ∧ (notes.apply p g).1.contains n := by
  have cut := straying_disconnected h notes p
  -- Until nodes are removed, all that have labels for themselves are there.
  have start : Straying (notes.disconnected p g) fun n =>
      own n ∧ (notes.disconnected p g).contains n :=
    cut.of_iff fun n => (and_iff_left_of_imp cut.contains).symm
  rw [apply_fst, each_fst, removed, each_fst]
  refine List.foldlRecOn (motive := fun g => Straying g fun n => own n ∧ g.contains n) _ _
    (List.foldlRecOn (motive := fun g => Straying g fun n => own n ∧ g.contains n) _ _ start
      fun g h q _ => straying_removeEntry h q) fun g h u _ => ?_
  refine (straying_updateEntry h u).of_iff fun n => and_congr_right fun _ => ?_
  rw [(thinned_updateEntry h.wellFormed u).contains, not_false_eq_true, and_true]

end Annotations

/-! ### Runs -/

namespace Pipeline

theorem straying_linked (config : Pipeline) (p : Rules.Providers) (plan : Plan) :
    Straying (config.linked p plan) (LabelsItself p.autoLinks (config.handled p plan)) := by
  have s := unlabelled_handled config p plan
  have start := Straying.of_unlabelled s.wellFormed fun n m found => (s.holds n m found).labels
  exact (Containment.straying_prune (straying_links p.autoLinks start)).of_iff fun n => by
    rw [false_or]

theorem straying_annotated (config : Pipeline) (p : Rules.Providers) (s : Straying g own) :
    Straying (config.annotated p g) fun n => own n ∧ (config.annotated p g).contains n := by
  rw [annotated]
  split
  · exact s.of_iff fun n => (and_iff_left_of_imp s.contains).symm
  · exact Annotations.straying_apply s _ p

/-- Whatever the plan, the rule tables and the annotations are: the labels without an edge in the
    graph of a run are those that nodes have got for themselves from links, if the nodes are still
    there, and validation has neither removed them nor made them placeholders. So all labels are
    for edges exactly if there is no such node. -/
theorem run_labels (config : Pipeline) (plan : Plan) (out : Output)
    (ran : config.run plan = .ok out) : ∃ p unknown valid report,
      Rules.Providers.detect ((plan.resolve config.budget).resources.map (·.resourceType))
        config.tables = .ok (p, unknown) ∧
      Validation.validate config.keepStandalone p (config.linked p plan) = .ok (valid, report) ∧
      (∀ a b, out.graph.Stray a b ↔ a = b ∧ LabelsItself p.autoLinks (config.handled p plan) a ∧
        a ∉ report.removed ∧ a ∉ report.placeholders ∧ out.graph.contains a) ∧
      (out.graph.LabelClean ↔ ∀ n, LabelsItself p.autoLinks (config.handled p plan) n →
        n ∈ report.removed ∨ n ∈ report.placeholders ∨ ¬out.graph.contains n) := by
  obtain ⟨p, g, found, g', more, prepared, finished, rfl⟩ := run_ok_iff.1 ran
  obtain ⟨rfl, unknown, detected⟩ := graph_of_prepare prepared
  obtain ⟨-, -, valid, report, validated, annotated⟩ := finish_ok_iff.1 finished
  have s := Validation.straying_validate (straying_linked config p plan) validated
  -- Annotating never fails here, so what is annotated is the graph that the run gives.
  obtain ⟨found', same⟩ := annotate_ok config p s.wellFormed
  rw [same] at annotated
  cases annotated
  have last := straying_annotated config p s
  refine ⟨p, unknown, valid, report, detected, validated, fun a b => ?_, ?_⟩
  · rw [last.stray_iff, and_assoc, and_assoc]
  · rw [last.labelClean_iff]
    refine forall_congr' fun n => ?_
    rw [and_assoc, and_assoc]
    simp only [not_and, or_iff_not_imp_left]

/-- Runs with a table in which hubs peer with a main one. -/
def peering : Pipeline :=
  { standard with
    tables := [{ Rules.Table.empty "x" with
      starts := ["x_"]
      autoLinks := [⟨"x_hub.main", .ofType "x_hub", some "peers with"⟩] }] }

/-- Two hubs, one of them the main one. -/
def hubs : Plan where
  resources := [resource "x_hub" "main" [], resource "x_hub" "spare" []]
  inputs := []
  locals := []
  calls := []
  dependencies := []

theorem main_run_hubs : ((peering.run hubs).toOption.any fun out =>
    out.graph.labelOf "x_hub.main" "x_hub.main" = some "peers with" ∧
      ¬out.graph.hasEdge "x_hub.main" "x_hub.main") = true := by
  decide +kernel

/-- The theorem at a plan with hubs. -/
theorem run_labels_hubs : ∃ out, peering.run hubs = .ok out ∧ ∃ p unknown valid report,
      Rules.Providers.detect ((hubs.resolve peering.budget).resources.map (·.resourceType))
        peering.tables = .ok (p, unknown) ∧
      Validation.validate peering.keepStandalone p (peering.linked p hubs) = .ok (valid, report) ∧
      (∀ a b, out.graph.Stray a b ↔ a = b ∧ LabelsItself p.autoLinks (peering.handled p hubs) a ∧
        a ∉ report.removed ∧ a ∉ report.placeholders ∧ out.graph.contains a) ∧
      (out.graph.LabelClean ↔ ∀ n, LabelsItself p.autoLinks (peering.handled p hubs) n →
        n ∈ report.removed ∨ n ∈ report.placeholders ∨ ¬out.graph.contains n) := by
  obtain ⟨out, ran, -⟩ := (Option.any_eq_true _ _).1 main_run_hubs
  have ran := ok_of_toOption ran
  exact ⟨out, ran, run_labels peering hubs out ran⟩

/-- The main hub is labelled as if it peered with itself. -/
theorem label_without_edge : ∃ out, peering.run hubs = .ok out ∧
    out.graph.labelOf "x_hub.main" "x_hub.main" = some "peers with" ∧
    ¬out.graph.Edge "x_hub.main" "x_hub.main" ∧ ¬out.graph.LabelClean := by
  obtain ⟨out, ran, labelled⟩ := (Option.any_eq_true _ _).1 main_run_hubs
  obtain ⟨label, no⟩ := of_decide_eq_true labelled
  have no : ¬out.graph.Edge "x_hub.main" "x_hub.main" := fun edge => no (hasEdge_iff.2 edge)
  refine ⟨out, ok_of_toOption ran, label, no, fun clean => ?_⟩
  exact labelClean_iff_not_stray.1 clean _ _ ⟨label ▸ rfl, no⟩

end Pipeline

end Cartograph

import Cartograph.Proofs.Annotation.Sections
import Cartograph.Proofs.Placeholders

/-!
# Children that annotations share out

Annotations come after validation, so they may leave a child in two containers that are not nested.
What they report of this is true, and complete for the children that an entry to connect has put
into a container (`Annotations.apply_shared`). Annotations that only add leave no other shared
children.

But a child can come to be shared without being touched: where two containers of it are nested and
another entry cuts the path between them, both still hold it and nothing is reported
(`Annotations.apply_silent`).
-/

namespace Cartograph.Annotations

open Graph Arrangement Containment

variable {g : Graph} {p : Rules.Providers} {notes : Annotations} {a b c : NodeId} {d : Diagnostic}

/-! ### Findings -/

/-- What is said of a child in two containers that are not nested. -/
def sharedIn (c a b : NodeId) : Diagnostic :=
  ⟨.sharedChild, some c, "connected into both " ++ a ++ " and " ++ b⟩

/-- Some finding says that a child is in two containers that are not nested. -/
def Named (found : List Diagnostic) (c : NodeId) : Prop :=
  ∃ d ∈ found, d.kind = .sharedChild ∧ d.node = some c

theorem sharedFinding?_eq_none_iff (wf : g.WellFormed) :
    sharedFinding? p g c = none ↔ ¬Shared p g c := by
  rw [sharedFinding?, Option.map_eq_none_iff]
  exact unrelated?_eq_none_iff_not_shared wf.nodup (wf.nodup_parents c) fun _ =>
    mem_parents wf.nodup

theorem sharedFinding?_eq_some (wf : g.WellFormed) (h : sharedFinding? p g c = some d) :
    ∃ a b, a ≠ b ∧ Holds p g a c ∧ Holds p g b c ∧ ¬Related g a b ∧ d = sharedIn c a b := by
  obtain ⟨⟨a, b⟩, pair, rfl⟩ := Option.map_eq_some_iff.1 h
  obtain ⟨ne, ha, hb, not⟩ := unrelated?_eq_some wf.nodup (wf.nodup_parents c)
    (fun _ => mem_parents wf.nodup) pair
  exact ⟨a, b, ne, ha, hb, not, rfl⟩

/-- A pattern that matches nothing is all that the entries report. -/
theorem found_each {α : Type} {f : Graph → α → Outcome} (l : List α)
    (entry : ∀ g x, ∀ d ∈ (f g x).2, d.kind = .skipped) (g : Graph) :
    ∀ d ∈ (each f l g).2, d.kind = .skipped := by
  induction l generalizing g with
  | nil => exact fun d h => absurd h List.not_mem_nil
  | cons x rest ih =>
    intro d h
    rcases List.mem_append.1 h with here | later
    · exact entry g x d here
    · exact ih _ d later

theorem found_unmatchedIn {section_ : String} {q : Pattern} {nodes : List NodeId} :
    ∀ d ∈ unmatchedIn section_ q nodes, d.kind = .skipped := by
  intro d h
  unfold unmatchedIn at h
  split at h
  · exact List.mem_singleton.1 h ▸ rfl
  · exact absurd h List.not_mem_nil

theorem found_connect (entries : List (Pattern × Links)) (x : Connected × List Diagnostic)
    (before : ∀ d ∈ x.2, d.kind = .skipped) :
    ∀ d ∈ (entries.foldl (connectEntry p) x).2, d.kind = .skipped := by
  induction entries generalizing x with
  | nil => exact before
  | cons entry rest ih =>
    refine ih _ fun d h => ?_
    rw [connectEntry] at h
    dsimp only at h
    split at h
    · rcases List.mem_append.1 h with old | new
      · exact before d old
      · exact List.mem_singleton.1 new ▸ rfl
    · exact before d h

/-- Of shared children, exactly those are reported that were noted when they got a container. -/
theorem mem_apply_iff (shared : d.kind = .sharedChild) : d ∈ (notes.apply p g).2 ↔
    ∃ c ∈ (notes.connected p g).2, (notes.apply p g).1.contains c ∧
      sharedFinding? p (notes.apply p g).1 c = some d := by
  have parts : (notes.apply p g).2 =
      (notes.connect.foldl (connectEntry p) ((notes.added g, []), [])).2 ++
        (each disconnectEntry notes.disconnect (notes.connected p g).1).2 ++
        (each removeEntry notes.remove (notes.disconnected p g)).2 ++
        (each updateEntry notes.update (notes.removed p g)).2 ++
        ((Keyed.keySet (notes.connected p g).2).filter (notes.apply p g).1.contains).filterMap
          (sharedFinding? p (notes.apply p g).1) := rfl
  have other : ∀ {l : List Diagnostic}, (∀ d ∈ l, d.kind = .skipped) → d ∉ l := by
    intro l skipped inside
    exact absurd (shared.symm.trans (skipped d inside)) (by simp)
  have connecting := other (found_connect (p := p) notes.connect ((notes.added g, []), [])
    fun d h => absurd h List.not_mem_nil)
  have disconnecting := other (found_each notes.disconnect (f := disconnectEntry)
    (fun _ _ => found_unmatchedIn) (notes.connected p g).1)
  have removing := other (found_each notes.remove (f := removeEntry)
    (fun _ _ => found_unmatchedIn) (notes.disconnected p g))
  have updating := other (found_each notes.update (f := updateEntry)
    (fun _ _ => found_unmatchedIn) (notes.removed p g))
  rw [parts]
  simp only [List.mem_append, connecting, disconnecting, removing, updating, false_or,
    List.mem_filterMap, List.mem_filter, Keyed.mem_keySet, and_assoc]

/-- Exactly the noted children that are shared in the end are named. -/
theorem named_iff (wf : g.WellFormed) :
    Named (notes.apply p g).2 c ↔ c ∈ (notes.connected p g).2 ∧ Shared p (notes.apply p g).1 c := by
  have wf' := wellFormed_apply (p := p) wf notes
  constructor
  · rintro ⟨d, inside, kind, node⟩
    obtain ⟨c', noted, -, found⟩ := (mem_apply_iff kind).1 inside
    obtain ⟨a, b, ne, ha, hb, not, rfl⟩ := sharedFinding?_eq_some wf' found
    cases node
    exact ⟨noted, a, b, ne, ha, hb, not⟩
  · rintro ⟨noted, shared⟩
    have there : (notes.apply p g).1.contains c := by
      obtain ⟨a, -, -, ha, -⟩ := shared
      exact wf'.closed a c ha.edge
    cases found : sharedFinding? p (notes.apply p g).1 c with
    | none => exact absurd shared ((sharedFinding?_eq_none_iff wf').1 found)
    | some d =>
      obtain ⟨a, b, -, -, -, -, rfl⟩ := sharedFinding?_eq_some wf' found
      exact ⟨_, (mem_apply_iff rfl).2 ⟨c, noted, there, found⟩, rfl, rfl⟩

/-! ### Completeness -/

/-- A container that holds a child in the end held it before, or the child was noted. -/
theorem held_or_noted (wf : g.WellFormed) (held : Holds p (notes.apply p g).1 a c) :
    Holds p g a c ∨ c ∈ (notes.connected p g).2 := by
  have thinned := thinned_apply wf notes p
  have joined := joined_connected wf notes p
  have type := thinned.typeOf a held.edge.contains
  have held : Holds p (notes.connected p g).1 a c :=
    ⟨((thinned.edge a c).1 held.edge).1, type ▸ held.isGroup⟩
  refine (joined.edge a c held).imp_left fun edge => ⟨?_, ?_⟩
  · rwa [Edge, children_added] at edge
  · have type := ((grown_added wf notes).trans joined.grown).typeOf a
    exact type ▸ held.isGroup

/-- Of a graph without shared children, whatever the annotations are. Named are exactly the children
    that are shared in the end and were given a container by an entry to connect. Where a shared
    child is not named, any two containers of it that are not related held it before too and were
    nested then, even once all edges were added. So annotations that take nothing away leave no
    shared child unnamed. -/
theorem apply_shared (wf : g.WellFormed) (checked : checkShared p g = .ok ())
    (notes : Annotations) :
    (∀ c, Named (notes.apply p g).2 c ↔
      c ∈ (notes.connected p g).2 ∧ Shared p (notes.apply p g).1 c) ∧
    (∀ c, ¬Named (notes.apply p g).2 c → ∀ a b, a ≠ b → Holds p (notes.apply p g).1 a c →
      Holds p (notes.apply p g).1 b c → ¬Related (notes.apply p g).1 a b →
        Holds p g a c ∧ Holds p g b c ∧ Related g a b ∧ Related (notes.connected p g).1 a b) ∧
    (notes.disconnect = [] → notes.remove = [] →
      ∀ c, Shared p (notes.apply p g).1 c → Named (notes.apply p g).2 c) := by
  have thinned := thinned_apply wf notes p
  have grown := (grown_added wf notes).trans (joined_connected wf notes p).grown
  have silent : ∀ c, ¬Named (notes.apply p g).2 c → ∀ a b, a ≠ b →
      Holds p (notes.apply p g).1 a c → Holds p (notes.apply p g).1 b c →
      ¬Related (notes.apply p g).1 a b →
        Holds p g a c ∧ Holds p g b c ∧ Related g a b ∧ Related (notes.connected p g).1 a b := by
    intro c unnamed a b ne ha hb not
    have unnoted : c ∉ (notes.connected p g).2 := fun noted =>
      unnamed ((named_iff wf).2 ⟨noted, a, b, ne, ha, hb, not⟩)
    have ha := (held_or_noted wf ha).resolve_right unnoted
    have hb := (held_or_noted wf hb).resolve_right unnoted
    have related := (checkShared_ok_iff wf).1 checked c a b ne ha hb
    exact ⟨ha, hb, related, related.imp (·.mono grown.edge) (·.mono grown.edge)⟩
  refine ⟨fun c => named_iff wf, silent, fun cutNothing removeNothing c shared => ?_⟩
  by_contra unnamed
  obtain ⟨a, b, ne, ha, hb, not⟩ := shared
  obtain ⟨-, -, -, related⟩ := silent c unnamed a b ne ha hb not
  have kept : ∀ u v, (notes.connected p g).1.Edge u v → (notes.apply p g).1.Edge u v := by
    intro u v edge
    refine (thinned.edge u v).2 ⟨edge, ?_⟩
    simp [cutNothing, removeNothing]
  exact not (related.imp (·.mono kept) (·.mono kept))

/-- A network with a subnet, and a balancer in both. -/
def nestedNetwork : Graph :=
  let g := ((Graph.empty "aws").addEdge "aws_vpc.main" "aws_subnet.a").1
  ((g.addEdge "aws_subnet.a" "aws_lb.web").1.addEdge "aws_vpc.main" "aws_lb.web").1

theorem wellFormed_nestedNetwork : nestedNetwork.WellFormed :=
  wellFormed_addEdge (wellFormed_addEdge (wellFormed_addEdge (wellFormed_empty "aws")))

/-- The subnet is taken out of the network, once some edges are added. -/
def cutOff (connect : List (Pattern × Links)) : Annotations where
  title := none
  add := []
  connect := connect
  disconnect := [(⟨"aws_vpc.main", none⟩, [⟨"aws_subnet.a", none⟩])]
  remove := []
  update := []

/-- The balancer is linked from the subnet too. -/
def linked : Annotations := cutOff [(⟨"aws_subnet.a", none⟩, [(⟨"aws_lb.web", none⟩, none)])]

/-- The balancer is in both, first nested and then not. -/
theorem containers_nestedNetwork :
    allNested Validation.networks nestedNetwork = true ∧
    "aws_lb.web" ∈ (linked.connected Validation.networks nestedNetwork).2 ∧
    isConflict Validation.networks (linked.apply Validation.networks nestedNetwork).1
      "aws_subnet.a" "aws_vpc.main" "aws_lb.web" = true ∧
    isConflict Validation.networks ((cutOff []).apply Validation.networks nestedNetwork).1
      "aws_subnet.a" "aws_vpc.main" "aws_lb.web" = true := by
  decide +kernel

theorem checkShared_nestedNetwork : checkShared Validation.networks nestedNetwork = .ok () :=
  (checkShared_ok_iff wellFormed_nestedNetwork).2
    (drawable_of_allNested wellFormed_nestedNetwork containers_nestedNetwork.1)

/-- The theorem at annotations that link the balancer. -/
theorem apply_shared_linked : checkShared Validation.networks nestedNetwork = .ok () ∧
    Named (linked.apply Validation.networks nestedNetwork).2 "aws_lb.web" := by
  obtain ⟨-, noted, conflict, -⟩ := containers_nestedNetwork
  have intact := wellFormed_apply (p := Validation.networks) wellFormed_nestedNetwork linked
  obtain ⟨named, -, -⟩ := apply_shared wellFormed_nestedNetwork checkShared_nestedNetwork linked
  exact ⟨checkShared_nestedNetwork,
    (named "aws_lb.web").2 ⟨noted, shared_of_conflict intact.nodup conflict⟩⟩

/-- A child that annotations leave in two containers that are not nested, with nothing to report. -/
theorem apply_silent : nestedNetwork.WellFormed ∧
    checkShared Validation.networks nestedNetwork = .ok () ∧
    Shared Validation.networks ((cutOff []).apply Validation.networks nestedNetwork).1
      "aws_lb.web" ∧
    ¬Named ((cutOff []).apply Validation.networks nestedNetwork).2 "aws_lb.web" := by
  obtain ⟨-, -, -, conflict⟩ := containers_nestedNetwork
  have intact := wellFormed_apply (p := Validation.networks) wellFormed_nestedNetwork (cutOff [])
  refine ⟨wellFormed_nestedNetwork, checkShared_nestedNetwork,
    shared_of_conflict intact.nodup conflict, fun named => ?_⟩
  -- No child was given a container, so none is looked at.
  exact absurd ((named_iff wellFormed_nestedNetwork).1 named).1 List.not_mem_nil

end Cartograph.Annotations

import Cartograph.Discovery
import Cartograph.Proofs.Graph.Integrity
import Cartograph.Proofs.Resolution.Leftovers

/-!
# Nodes of discovered graphs

A resolution has each resource once (`nodup_resolve`). So the discovered graph knows of every
resource's node what the resource says (`meta?_build`): edges are added to nodes that are there.
-/

namespace Cartograph

/-! ### Resources -/

namespace Resolution

theorem nodup_idsOf (p : Plan) : (State.idsOf p).Nodup := by
  refine List.foldlRecOn (motive := List.Nodup) _ _ List.nodup_nil fun ids once id _ => ?_
  split
  · exact once
  · next new =>
    refine List.nodup_append.2 ⟨once, by simp, fun i hi j hj same => new ?_⟩
    rwa [← List.mem_singleton.1 hj, ← same]

theorem id_of_resource? {s : State} {id : NodeId} {d : Declared} {r : Resource}
    (h : s.resource? id d = some r) : r.id = id := by
  rw [State.resource?] at h
  dsimp only at h
  split at h
  · exact absurd h (by simp)
  · cases h
    rfl

/-- Every resource of a resolution has an identifier of its own. -/
theorem nodup_resolve {p : Plan} {budget : Nat} :
    ((p.resolve budget).resources.map (·.id)).Nodup := by
  refine List.pairwise_map.2 (List.pairwise_filterMap.2 ((nodup_idsOf p).imp ?_))
  intro i j ne r hr r' hr' same
  obtain ⟨d, -, made⟩ := Option.bind_eq_some_iff.1 hr
  obtain ⟨d', -, made'⟩ := Option.bind_eq_some_iff.1 hr'
  exact ne ((id_of_resource? made).symm.trans (same.trans (id_of_resource? made')))

end Resolution

/-! ### Graphs -/

namespace Discovery

open Graph Rules

variable {p : Providers} {g : Graph} {n : NodeId} {m : NodeMeta} {res : Resolution}
  {r : Resolution.Resource} {title : Option String}

/-- A well-formed graph that knows what another one knows. -/
structure Extends (g h : Graph) : Prop where
  wellFormed : h.WellFormed
  knows : ∀ n m, g.meta? n = some m → h.meta? n = some m

theorem Extends.trans {h k : Graph} (e : Extends g h) (e' : Extends h k) : Extends g k :=
  ⟨e'.wellFormed, fun n m found => e'.knows n m (e.knows n m found)⟩

theorem extends_addEdge (wf : g.WellFormed) {a b : NodeId} : Extends g (g.addEdge a b).1 := by
  refine ⟨wellFormed_addEdge wf, fun n m found => ?_⟩
  by_cases ne : a = b
  · rw [ne, addEdge_self]
    exact found
  · rw [meta?_addEdge ne, found]
    rfl

theorem extends_connect {s : Graph × List Diagnostic} (wf : s.1.WellFormed) {target : NodeId} :
    Extends s.1 (connect p n s target).1 := by
  rw [connect]
  dsimp only
  split
  · exact ⟨wf, fun _ _ found => found⟩
  · exact extends_addEdge wf

theorem wellFormed_nodesOf : (nodesOf p res title).WellFormed := by
  refine List.foldlRecOn (motive := WellFormed) _ _ ?_ fun g wf r _ => wellFormed_insertNode wf
  exact (wellFormed_empty p.primary).of_same rfl (fun _ => rfl) fun _ => rfl

theorem extends_build : Extends (nodesOf p res title) (build p res title).1 := by
  refine List.foldlRecOn
    (motive := fun s : Graph × List Diagnostic => Extends (nodesOf p res title) s.1) _ _
    ⟨wellFormed_nodesOf, fun _ _ found => found⟩ fun s e r _ => ?_
  refine List.foldlRecOn
    (motive := fun s : Graph × List Diagnostic => Extends (nodesOf p res title) s.1) _ _ e
    fun s e target _ => ?_
  exact e.trans (extends_connect e.wellFormed)

/-- What is known of a node stays when others are put in. -/
theorem meta?_insertNodes_of_not_mem {resources : List Resolution.Resource}
    (other : n ∉ resources.map (·.id)) :
    (resources.foldl (fun g r => g.insertNode r.id (metaOf p r)) g).meta? n = g.meta? n := by
  induction resources generalizing g with
  | nil => rfl
  | cons next rest ih =>
    rw [List.map_cons, List.mem_cons, not_or] at other
    rw [List.foldl_cons, ih other.2, meta?_insertNode, if_neg (Ne.symm other.1)]

/-- Of nodes that are put in one after the other, each with a name of its own, none is replaced. -/
theorem meta?_insertNodes {resources : List Resolution.Resource}
    (once : (resources.map (·.id)).Nodup) (inside : r ∈ resources) :
    (resources.foldl (fun g r => g.insertNode r.id (metaOf p r)) g).meta? r.id =
      some (metaOf p r) := by
  induction resources generalizing g with
  | nil => exact absurd inside List.not_mem_nil
  | cons first rest ih =>
    rw [List.map_cons, List.nodup_cons] at once
    rcases List.mem_cons.1 inside with rfl | later
    · rw [List.foldl_cons, meta?_insertNodes_of_not_mem once.1, meta?_insertNode, if_pos rfl]
    · exact ih once.2 later

/-- The graph of a resolution knows of each node what the resource says. -/
theorem meta?_build (once : (res.resources.map (·.id)).Nodup) (inside : r ∈ res.resources) :
    (build p res title).1.meta? r.id = some (metaOf p r) :=
  extends_build.knows _ _ (meta?_insertNodes once inside)

end Discovery

end Cartograph

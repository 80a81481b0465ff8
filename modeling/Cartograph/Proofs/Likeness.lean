import Cartograph.Annotation
import Cartograph.Proofs.Snapshot

/-!
# Graphs that look alike

Two graphs are *alike* if the same is read of both after writing (`Graph.Alike`): they have the same
nodes, edges, types and documents, but their attribute values may differ in what documents do not
show. All mutators take graphs that are alike to graphs that are alike, and so does applying
annotations, even with different providers (`Annotations.alike_apply`): annotations look at nodes,
edges and types, never at attribute values.
-/

namespace Cartograph

open Arrangement

variable {g g' : Graph} {m m' : NodeMeta} {a b n : NodeId}

-- Nothing here depends on how an identifier is taken apart.
attribute [local irreducible] NodeId.parts

namespace NodeMeta

/-- Metadata of which the same is read. -/
def Alike (m m' : NodeMeta) : Prop := m.reread = m'.reread

theorem reread_reread (m : NodeMeta) : m.reread.reread = m.reread := by
  unfold reread
  simp only [Value.entries_reread_reread, List.map_map]
  congr 2
  funext as
  exact Value.entries_reread_reread as

theorem alike_reread (m : NodeMeta) : Alike m.reread m := m.reread_reread

theorem typeOf_reread (node : NodeId) (found : Option NodeMeta) :
    typeOf node (found.map reread) = typeOf node found := by
  cases found <;> rfl

theorem matchesNode_reread (p : Pattern) (node : NodeId) (found : Option NodeMeta) :
    p.matchesNode node (found.map reread) = p.matchesNode node found := by
  unfold Pattern.matchesNode
  rw [typeOf_reread]

/-- Attributes that are set look alike if they did before. -/
theorem Alike.setAttributes (as : Attributes) (h : Alike m m') :
    Alike { m with attributes := Keyed.insertAll m.attributes as }
      { m' with attributes := Keyed.insertAll m'.attributes as } := by
  have attributes : Value.rereadEntries m.attributes = Value.rereadEntries m'.attributes :=
    congrArg NodeMeta.attributes h
  have set : Value.rereadEntries (Keyed.insertAll m.attributes as) =
      Value.rereadEntries (Keyed.insertAll m'.attributes as) := by
    rw [Value.rereadEntries_eq, Value.rereadEntries_eq] at attributes ⊢
    rw [Keyed.insertAll_map_value, Keyed.insertAll_map_value, attributes]
  have others :
      { m.reread with attributes := Value.rereadEntries (Keyed.insertAll m.attributes as) } =
        { m'.reread with attributes := Value.rereadEntries (Keyed.insertAll m'.attributes as) } := by
    rw [show m.reread = m'.reread from h, set]
  exact others

theorem Alike.setLabel (label : Option String) (h : Alike m m') :
    Alike { m with label := label.or m.label } { m' with label := label.or m'.label } := by
  have same : m.reread = m'.reread := h
  show { m.reread with label := label.or m.reread.label } =
    { m'.reread with label := label.or m'.reread.label }
  rw [same]

/-- Labels of edges are shown in full. -/
theorem Alike.changeLabels (f : List (String × String) → List (String × String))
    (h : Alike m m') : Alike { m with edgeLabels := f m.edgeLabels }
      { m' with edgeLabels := f m'.edgeLabels } := by
  have same : m.reread = m'.reread := h
  show { m.reread with edgeLabels := f m.reread.edgeLabels } =
    { m'.reread with edgeLabels := f m'.reread.edgeLabels }
  rw [same]

end NodeMeta

namespace Graph

/-! ### What is seen of a graph -/

theorem metadata_reread_reread (g : Graph) :
    g.reread.metadata.map (fun e => (e.1, e.2.reread)) =
      g.metadata.map fun e => (e.1, e.2.reread) := by
  show (g.metadata.map fun e => _).map _ = _
  rw [List.map_map]
  exact List.map_congr_left fun e _ => congrArg (Prod.mk e.1) e.2.reread_reread

theorem reread_reread (g : Graph) : g.reread.reread = g.reread :=
  congrArg (fun metadata => { g with metadata := metadata }) (metadata_reread_reread g)

theorem typeOf_reread (node : NodeId) : g.reread.typeOf node = g.typeOf node := by
  rw [typeOf, typeOf, meta?_reread, NodeMeta.typeOf_reread]

theorem nodesMatching_reread (p : Pattern) : g.reread.nodesMatching p = g.nodesMatching p := by
  refine List.filter_congr fun node _ => ?_
  rw [meta?_reread, NodeMeta.matchesNode_reread]

theorem checkIntegrity_reread (phase : String) :
    g.reread.checkIntegrity phase = g.checkIntegrity phase := by
  have faults : g.reread.faultAt? phase = g.faultAt? phase := by
    funext node children
    unfold faultAt?
    rw [meta?_reread, Option.isNone_map]
    rfl
  have orphans : (g.reread.metadata.find? fun e => !g.reread.contains e.1).map (·.1) =
      (g.metadata.find? fun e => !g.contains e.1).map (·.1) := by
    show ((g.metadata.map fun e => (e.1, e.2.reread)).find? _).map _ = _
    rw [List.find?_map, Option.map_map]
    rfl
  have fault : g.reread.fault? phase = g.fault? phase := by
    have shape (g : Graph) : g.fault? phase =
        (g.adjacency.findSome? fun e => g.faultAt? phase e.1 e.2).or
          (((g.metadata.find? fun e => !g.contains e.1).map (·.1)).map fun node =>
            .metadataMismatch phase node) := by
      unfold fault?
      rw [Option.map_map]
      split
      · next e first => exact (congrArg (Option.or · _) first).symm
      · next none => exact (congrArg (Option.or · _) none).symm
    rw [shape, shape, faults, orphans]
    rfl
  rw [checkIntegrity, checkIntegrity, fault]

/-! ### Mutators -/

theorem reread_insertNode : (g.insertNode n m).reread = g.reread.insertNode n m.reread := by
  have metadata := Keyed.insert_map_value (k := n) (a := m) NodeMeta.reread g.metadata
  unfold reread insertNode mapMeta
  simp only [Graph.mk.injEq, and_true]
  exact ⟨rfl, metadata⟩

theorem reread_forId (node : NodeId) : (NodeMeta.forId node).reread = NodeMeta.forId node := rfl

theorem reread_ensureNode : (g.ensureNode n).1.reread = (g.reread.ensureNode n).1 := by
  have there : Keyed.contains n g.reread.metadata = Keyed.contains n g.metadata :=
    Keyed.contains_map_value NodeMeta.reread
  unfold ensureNode
  rw [there]
  dsimp only
  by_cases known : Keyed.contains n g.metadata = true
  · rw [if_pos known, if_pos known]
    rfl
  · rw [if_neg known, if_neg known]
    exact reread_insertNode (m := NodeMeta.forId n)

theorem reread_setChildren (children : List NodeId) :
    (g.setChildren n children).reread = g.reread.setChildren n children := rfl

theorem reread_addEdge : (g.addEdge a b).1.reread = (g.reread.addEdge a b).1 := by
  by_cases same : a = b
  · subst same
    rw [addEdge_self, addEdge_self]
  rw [addEdge_of_ne same, addEdge_of_ne same]
  have ends : ((g.reread.ensureNode a).1.ensureNode b).1 =
      ((g.ensureNode a).1.ensureNode b).1.reread := by
    rw [reread_ensureNode, reread_ensureNode]
  rw [ends]
  show _ = if g.hasEdge a b then _ else _
  dsimp only
  split <;> rfl

theorem reread_removeEdge : (g.removeEdge a b).1.reread = (g.reread.removeEdge a b).1 := by
  have metadata := Keyed.modify_map_value (k := a) (h := NodeMeta.reread) (dropLabel b)
    (dropLabel b) (fun _ => rfl) g.metadata
  unfold removeEdge
  by_cases there : g.hasEdge a b = true
  · rw [if_pos there, if_pos (show g.reread.hasEdge a b = true from there)]
    unfold reread mapMeta
    simp only [Graph.mk.injEq]
    exact ⟨rfl, metadata, rfl, rfl⟩
  · rw [if_neg there, if_neg (show ¬g.reread.hasEdge a b = true from there)]

theorem reread_removeNode : (g.removeNode n).1.reread = (g.reread.removeNode n).1 := by
  have metadata := Keyed.erase_map_value (k := n) NodeMeta.reread g.metadata
  unfold removeNode reread mapMeta
  simp only [Graph.mk.injEq, true_and, and_true]
  show List.map _ (List.map _ _) = List.map _ (Keyed.erase n (g.metadata.map fun e => _))
  rw [← metadata, List.map_map, List.map_map]
  rfl

/-- A change that looks alike wherever the metadata do. -/
theorem reread_modifyMeta {f : NodeMeta → NodeMeta} (h : ∀ m, (f m).Alike (f m.reread)) :
    (g.modifyMeta n f).reread = (g.reread.modifyMeta n f).reread := by
  have insert (m m' : NodeMeta) (same : m.Alike m') :
      ({ g with metadata := Keyed.insert n m g.metadata } : Graph).reread =
        ({ g.reread with metadata := Keyed.insert n m' g.reread.metadata } : Graph).reread := by
    have here := Keyed.insert_map_value (k := n) (a := m) NodeMeta.reread g.metadata
    have there := Keyed.insert_map_value (k := n) (a := m') NodeMeta.reread g.reread.metadata
    rw [metadata_reread_reread, show m'.reread = m.reread from same.symm, ← here] at there
    unfold reread mapMeta
    simp only [Graph.mk.injEq, true_and, and_true]
    exact there.symm
  unfold modifyMeta
  rw [meta?_reread]
  cases g.meta? n with
  | some m => exact insert _ _ (h m)
  | none =>
    by_cases there : g.contains n = true
    · rw [Option.map_none]
      dsimp only
      rw [if_pos there, if_pos (show g.reread.contains n = true from there)]
      exact insert _ _ rfl
    · rw [Option.map_none]
      dsimp only
      rw [if_neg there, if_neg (show ¬g.reread.contains n = true from there)]
      exact (reread_reread g).symm

/-! ### Graphs alike -/

/-- Graphs of which the same is read. -/
def Alike (g g' : Graph) : Prop := g.reread = g'.reread

namespace Alike

theorem refl (g : Graph) : Alike g g := rfl

theorem of_reread (g : Graph) : Alike g.reread g := reread_reread g

theorem eq (h : Alike g g') : g.reread = g'.reread := h

theorem contains (h : Alike g g') (node : NodeId) : g.contains node = g'.contains node := by
  rw [← contains_reread, h.eq, contains_reread]

theorem children (h : Alike g g') (node : NodeId) : g.children node = g'.children node := by
  rw [← children_reread, h.eq, children_reread]

theorem nodes (h : Alike g g') : g.nodes = g'.nodes := by
  show g.reread.nodes = g'.reread.nodes
  rw [h.eq]

theorem parents (h : Alike g g') (node : NodeId) : g.parents node = g'.parents node := by
  show g.reread.parents node = g'.reread.parents node
  rw [h.eq]

theorem typeOf (h : Alike g g') (node : NodeId) : g.typeOf node = g'.typeOf node := by
  rw [← typeOf_reread, h.eq, typeOf_reread]

theorem provider (h : Alike g g') : g.provider = g'.provider := by
  show g.reread.provider = g'.reread.provider
  rw [h.eq]

theorem title (h : Alike g g') : g.title = g'.title := by
  show g.reread.title = g'.reread.title
  rw [h.eq]

theorem nodesMatching (h : Alike g g') (p : Pattern) : g.nodesMatching p = g'.nodesMatching p := by
  rw [← nodesMatching_reread, h.eq, nodesMatching_reread]

theorem matchesNode (h : Alike g g') (p : Pattern) (node : NodeId) :
    p.matchesNode node (g.meta? node) = p.matchesNode node (g'.meta? node) := by
  rw [← NodeMeta.matchesNode_reread, ← meta?_reread, h.eq, meta?_reread,
    NodeMeta.matchesNode_reread]

theorem checkIntegrity (h : Alike g g') (phase : String) :
    g.checkIntegrity phase = g'.checkIntegrity phase := by
  rw [← checkIntegrity_reread, h.eq, checkIntegrity_reread]

theorem render (h : Alike g g') : g.render = g'.render := by
  rw [← render_reread, h.eq, render_reread]

theorem retitle (h : Alike g g') (title : Option String) :
    Alike { g with title := title } { g' with title := title } := by
  have same := congrArg (fun g : Graph => ({ g with title := title } : Graph)) h.eq
  exact same

theorem insertNode (h : Alike g g') (hm : m.Alike m') :
    Alike (g.insertNode n m) (g'.insertNode n m') := by
  rw [Alike, reread_insertNode, reread_insertNode, h.eq,
    show m.reread = m'.reread from hm]

theorem addEdge (h : Alike g g') : Alike (g.addEdge a b).1 (g'.addEdge a b).1 := by
  rw [Alike, reread_addEdge, reread_addEdge, h.eq]

theorem removeEdge (h : Alike g g') : Alike (g.removeEdge a b).1 (g'.removeEdge a b).1 := by
  rw [Alike, reread_removeEdge, reread_removeEdge, h.eq]

theorem removeNode (h : Alike g g') : Alike (g.removeNode n).1 (g'.removeNode n).1 := by
  rw [Alike, reread_removeNode, reread_removeNode, h.eq]

theorem modifyMeta {f : NodeMeta → NodeMeta} (h : Alike g g')
    (each : ∀ m m' : NodeMeta, m.Alike m' → (f m).Alike (f m')) :
    Alike (g.modifyMeta n f) (g'.modifyMeta n f) := by
  have change : ∀ m, (f m).Alike (f m.reread) := fun m => each m m.reread m.alike_reread.symm
  rw [Alike, reread_modifyMeta change, h.eq, ← reread_modifyMeta change]

/-- Steps that keep graphs alike, one after the other. -/
theorem eachSilent {α : Type} {step : Graph → α → Graph} {members : List α} (h : Alike g g')
    (step_alike : ∀ g g' x, Alike g g' → Alike (step g x) (step g' x)) :
    Alike (Arrangement.eachSilent step members g) (Arrangement.eachSilent step members g') :=
  List.foldl_rel (r := Alike) h fun x _ g g' => step_alike g g' x

theorem each {α : Type} (step : Graph → α → Outcome) (members : List α) (h : Alike g g')
    (step_alike : ∀ g g' x, Alike g g' → Alike (step g x).1 (step g' x).1) :
    Alike (Arrangement.each step members g).1 (Arrangement.each step members g').1 := by
  induction members generalizing g g' with
  | nil => exact h
  | cons x rest ih => exact ih (step_alike g g' x h)

end Alike

end Graph

/-! ### Annotations -/

namespace Annotations

open Graph

variable {p p' : Rules.Providers}

theorem alike_setAttributes {attributes : Attributes} (h : Alike g g') :
    Alike (setAttributes n attributes g) (setAttributes n attributes g') :=
  h.modifyMeta fun _ _ same => same.setAttributes attributes

theorem namedMeta_eq (h : Alike g g') (node : NodeId) : namedMeta g node = namedMeta g' node := by
  rw [namedMeta, namedMeta, h.provider]

theorem alike_addNode {entry : NodeId × Attributes} (h : Alike g g') :
    Alike (addNode g entry) (addNode g' entry) := by
  unfold addNode
  dsimp only
  refine alike_setAttributes ?_
  rw [h.contains, namedMeta_eq h]
  split
  · exact h
  · exact h.insertNode rfl

/-- A pattern names the same nodes. -/
theorem alike_resolve {q : Pattern} (h : Alike g g') :
    Alike (resolve g q).1 (resolve g' q).1 ∧ (resolve g q).2 = (resolve g' q).2 := by
  unfold resolve
  rw [h.nodesMatching, namedMeta_eq h]
  split
  · split
    · exact ⟨h.insertNode rfl, rfl⟩
    · exact ⟨h, rfl⟩
  · exact ⟨h, rfl⟩

theorem alike_connectPair {label : Option String} {s s' : Connected} {edge : NodeId × NodeId}
    (h : Alike s.1 s'.1) :
    Alike (connectPair p label s edge).1 (connectPair p' label s' edge).1 := by
  obtain ⟨g, contained⟩ := s
  obtain ⟨g', contained'⟩ := s'
  obtain ⟨source, target⟩ := edge
  have added : Alike (g.addEdge source target).1 (g'.addEdge source target).1 := h.addEdge
  unfold connectPair
  cases label with
  | none => exact added
  | some l => exact added.modifyMeta fun _ _ same => same.changeLabels (Keyed.insert target l)

theorem alike_connectLink {sources : List NodeId} {s s' : Connected}
    {link : Pattern × Option String} (h : Alike s.1 s'.1) :
    Alike (connectLink p sources s link).1 (connectLink p' sources s' link).1 := by
  obtain ⟨resolved, targets⟩ := alike_resolve (q := link.1) h
  unfold connectLink
  dsimp only
  rw [targets]
  exact List.foldl_rel (r := fun s s' : Connected => Alike s.1 s'.1) resolved fun _ _ _ _ =>
    alike_connectPair

theorem alike_connectEntry {s s' : Connected × List Diagnostic} {entry : Pattern × Links}
    (h : Alike s.1.1 s'.1.1) :
    Alike (connectEntry p s entry).1.1 (connectEntry p' s' entry).1.1 := by
  obtain ⟨⟨g, contained⟩, found⟩ := s
  obtain ⟨⟨g', contained'⟩, found'⟩ := s'
  obtain ⟨resolved, sources⟩ := alike_resolve (q := entry.1) h
  unfold connectEntry
  dsimp only
  rw [sources]
  split
  · exact resolved
  · exact List.foldl_rel (r := fun s s' : Connected => Alike s.1 s'.1) resolved fun _ _ _ _ =>
      alike_connectLink

theorem alike_disconnectNode {targets : List Pattern} (h : Alike g g') :
    Alike (disconnectNode targets g n) (disconnectNode targets g' n) := by
  have chosen : (g.children n).filter (fun c => targets.any fun t => t.matchesNode c (g.meta? c)) =
      (g'.children n).filter fun c => targets.any fun t => t.matchesNode c (g'.meta? c) := by
    rw [h.children]
    refine List.filter_congr fun c _ => ?_
    simp only [h.matchesNode]
  unfold disconnectNode
  rw [chosen]
  exact h.eachSilent fun _ _ _ h => h.removeEdge

theorem alike_disconnectEntry {entry : Pattern × List Pattern} (h : Alike g g') :
    Alike (disconnectEntry g entry).1 (disconnectEntry g' entry).1 := by
  unfold disconnectEntry
  dsimp only
  rw [h.nodesMatching]
  exact h.eachSilent fun _ _ _ => alike_disconnectNode

theorem alike_removeEntry {q : Pattern} (h : Alike g g') :
    Alike (removeEntry g q).1 (removeEntry g' q).1 := by
  unfold removeEntry
  dsimp only
  rw [h.nodesMatching]
  exact h.eachSilent fun _ _ _ h => h.removeNode

theorem alike_setEdgeLabels {children : List NodeId} {link : Pattern × Option String}
    (h : m.Alike m') : (setEdgeLabels children m link).Alike (setEdgeLabels children m' link) := by
  unfold setEdgeLabels
  split
  · exact h
  · exact h.changeLabels fun labels => Keyed.insertAll labels _

theorem alike_updateNode {u : NodeUpdate} (h : Alike g g') :
    Alike (updateNode u g n) (updateNode u g' n) := by
  unfold updateNode
  rw [h.children]
  refine h.modifyMeta fun m m' same => ?_
  refine List.foldl_rel (r := NodeMeta.Alike) ?_ fun _ _ _ _ => alike_setEdgeLabels
  exact (same.setLabel u.label).setAttributes u.attributes

theorem alike_updateEntry {u : NodeUpdate} (h : Alike g g') :
    Alike (updateEntry g u).1 (updateEntry g' u).1 := by
  unfold updateEntry
  dsimp only
  rw [h.nodesMatching]
  exact h.eachSilent fun _ _ _ => alike_updateNode

/-- Annotations keep graphs alike, whatever the providers are: these only matter for findings. -/
theorem alike_apply (a : Annotations) (h : Alike g g') :
    Alike (a.apply p g).1 (a.apply p' g').1 := by
  have titled : Alike { g with title := a.title.or g.title }
      { g' with title := a.title.or g'.title } := h.title ▸ h.retitle _
  have added : Alike (eachSilent addNode a.add { g with title := a.title.or g.title })
      (eachSilent addNode a.add { g' with title := a.title.or g'.title }) :=
    titled.eachSilent fun _ _ _ => alike_addNode
  have connected := List.foldl_rel (l := a.connect) (f := connectEntry p) (g := connectEntry p')
    (r := fun s s' : Connected × List Diagnostic => Alike s.1.1 s'.1.1) (a := ((_, []), []))
    (b := ((_, []), [])) added fun _ _ _ _ => alike_connectEntry
  have disconnected := connected.each disconnectEntry a.disconnect fun _ _ _ =>
    alike_disconnectEntry
  have removed := disconnected.each removeEntry a.remove fun _ _ _ => alike_removeEntry
  exact removed.each updateEntry a.update fun _ _ _ => alike_updateEntry

end Annotations

end Cartograph

import Cartograph.Proofs.Evolution

/-!
# Arrangements evolve

Every operation, callback and handler takes a sound graph to one that it evolves to
(`Operation.evolves`, `Rules.Handler.evolves`), whatever its patterns and the containers are. Loops
need a step lemma each and nothing else (`evolves_each`, `evolves_eachSilent`): the graph that a
step begins with is sound, since the steps before it were evolutions.
-/

namespace Cartograph

variable {c : Content} {g g' g'' : Graph} {a b n old new : NodeId}

-- Nothing here depends on how an identifier is taken apart.
attribute [local irreducible] NodeId.parts

/-! ### Going on -/

namespace Evolves

open Arrangement

theorem addEdge (h : Evolves c g g') : Evolves c g (g'.addEdge a b).1 := h.tail (.addEdge g' a b)

theorem removeEdge (h : Evolves c g g') : Evolves c g (g'.removeEdge a b).1 :=
  h.tail (.removeEdge g' a b)

theorem replaceChild (h : Evolves c g g') : Evolves c g (g'.replaceChild a old new).1 :=
  h.tail (.replaceChild g' a old new)

theorem removeNode (h : Evolves c g g') : Evolves c g (g'.removeNode n).1 := h.tail (.remove g' n)

theorem renameNode (odd : ¬new.IsPlain) (h : Evolves c g g') :
    Evolves c g (g'.renameNode old new).1 := h.tail (.rename odd)

theorem insertNode {m : NodeMeta} (fits : m.Fits n) (holds : m.Holds c) (h : Evolves c g g') :
    Evolves c g (g'.insertNode n m) := h.tail (.insert fits holds)

theorem ite {p : Prop} [Decidable p] (h : Evolves c g g') (h' : Evolves c g g'') :
    Evolves c g (if p then g' else g'') := by
  split
  · exact h
  · exact h'

/-- A node is made unless it is there. -/
theorem insertMissing {m : NodeMeta} (fits : m.Fits n) (holds : m.Holds c) (h : Evolves c g g') :
    Evolves c g (if g'.contains n then g' else g'.insertNode n m) := ite h (h.insertNode fits holds)

theorem eachSilent {α : Type} {step : Graph → α → Graph} {members : List α} (closed : c.Closed)
    (s : Sound c g) (h : Evolves c g g')
    (each : ∀ g, ∀ x ∈ members, Sound c g → Evolves c g (step g x)) :
    Evolves c g (Arrangement.eachSilent step members g') := by
  induction members generalizing g' with
  | nil => exact h
  | cons x rest ih =>
    have here := each g' x List.mem_cons_self (h.sound closed s)
    exact ih (h.trans here) fun g y hy => each g y (List.mem_cons_of_mem _ hy)

theorem each {α : Type} {step : Graph → α → Outcome} {members : List α} (closed : c.Closed)
    (s : Sound c g) (h : Evolves c g g')
    (each : ∀ g, ∀ x ∈ members, Sound c g → Evolves c g (step g x).1) :
    Evolves c g (Arrangement.each step members g').1 := by
  induction members generalizing g' with
  | nil => exact h
  | cons x rest ih =>
    have here := each g' x List.mem_cons_self (h.sound closed s)
    exact ih (h.trans here) fun g y hy => each g y (List.mem_cons_of_mem _ hy)

theorem addChildren {targets : List NodeId} (closed : c.Closed) (s : Sound c g)
    (h : Evolves c g g') : Evolves c g (Arrangement.addChildren n targets g') :=
  h.eachSilent closed s fun _ _ _ _ => addEdge .refl

theorem removeParents {sources : List NodeId} (closed : c.Closed) (s : Sound c g)
    (h : Evolves c g g') : Evolves c g (Arrangement.removeParents sources n g') :=
  h.eachSilent closed s fun _ _ _ _ => removeEdge .refl

end Evolves

namespace Arrangement

/-- The metadata of a node, or what stands for them. -/
theorem holds_found (s : Sound c g) {m : NodeMeta} (h : m.Holds c) :
    ((g.meta? n).getD m).Holds c := by
  cases hm : g.meta? n with
  | none => exact h
  | some m => exact s.holds n m hm

/-- A made-up node without attributes. -/
theorem holds_forSynthetic (closed : c.Closed) (n : NodeId) :
    (NodeMeta.forSynthetic n).Holds c := { NodeMeta.holds_forId closed n with }

theorem fits_forSynthetic (n : NodeId) : (NodeMeta.forSynthetic n).Fits n :=
  NodeMeta.fits_of_eq (NodeMeta.forId_type n)

theorem holds_madeUp (closed : c.Closed) (g : Graph) (n : NodeId) :
    (madeUpMeta g n).Holds c := { NodeMeta.holds_forId closed n with }

theorem fits_madeUp (g : Graph) (n : NodeId) : (madeUpMeta g n).Fits n :=
  NodeMeta.fits_of_eq (NodeMeta.forId_type n)

/-! ### Insertion and merging -/

theorem holds_metaFor (closed : c.Closed) {generator : NameGenerator} {id child : NodeId}
    (s : Sound c g) : (generator.metaFor id child (g.meta? child)).Holds c := by
  have found := holds_found (n := child) s (NodeMeta.holds_forId closed child)
  exact ⟨found.attributes, found.raw, fun _ h => absurd h List.not_mem_nil, closed.count_one,
    closed.labels_nil⟩

theorem fits_metaFor {generator : NameGenerator} {id child : NodeId} {m : Option NodeMeta} :
    (generator.metaFor id child m).Fits id :=
  NodeMeta.fits_of_eq (NodeMeta.forId_type id)

theorem evolves_insertAbove {generator : NameGenerator} {parent child : NodeId}
    (closed : c.Closed) (s : Sound c g) :
    Evolves c g (insertAbove generator parent g child).1 := by
  unfold insertAbove
  split
  · exact .refl
  · split
    · exact .refl
    · exact .addEdge (.replaceChild (.insertMissing fits_metaFor (holds_metaFor closed s) .refl))

theorem evolves_insertIntermediate {parent child : Pattern} {generator : NameGenerator}
    (closed : c.Closed) (s : Sound c g) :
    Evolves c g (insertIntermediate parent child generator g).1 :=
  .each closed s .refl fun _ _ _ s => .each closed s .refl fun _ _ _ s =>
    evolves_insertAbove closed s

theorem evolves_absorb {target node : NodeId} (closed : c.Closed) (s : Sound c g) :
    Evolves c g (absorb target g node) := by
  refine .removeNode (.eachSilent closed s ?_ fun _ _ _ _ => .replaceChild .refl)
  exact .addChildren closed s .refl

theorem holds_merged (closed : c.Closed) {target : NodeId} (s : Sound c g) :
    (mergedMeta target (g.meta? n)).Holds c := by
  have found := holds_found (n := n) s (NodeMeta.holds_empty closed)
  exact ⟨found.attributes, found.raw, fun _ h => absurd h List.not_mem_nil, closed.count_one,
    closed.labels_nil⟩

theorem fits_merged {target : NodeId} {first : Option NodeMeta} :
    (mergedMeta target first).Fits target := NodeMeta.fits_of_eq (NodeMeta.forId_type target)

theorem evolves_consolidate {pattern : Pattern} {target : NodeId} (closed : c.Closed)
    (s : Sound c g) : Evolves c g (consolidate pattern target g) := by
  unfold consolidate
  split
  · exact .refl
  · refine .eachSilent closed s ?_ fun _ _ _ s => evolves_absorb closed s
    exact .insertMissing fits_merged (holds_merged closed s) .refl

/-! ### Inversion -/

theorem evolves_invertSingle {p : Rules.Providers} {node q : NodeId} (closed : c.Closed)
    (s : Sound c g) : Evolves c g (invertSingle p g node q) := by
  have placed : Evolves c g
      (let g' := (g.removeEdge q node).1
      let outer := (groupParents p g' q).filter (· ≠ node)
      if outer = [] then g'
      else eachSilent (fun g c => (g.replaceChild c q node).1) outer
        (removeParents (groupParents p g node) node g')) := by
    have alone : Evolves c g (g.removeEdge q node).1 := .removeEdge .refl
    refine .ite alone (.eachSilent closed s ?_ fun _ _ _ _ => .replaceChild .refl)
    exact .removeParents closed s alone
  unfold invertSingle
  dsimp only
  split
  · exact .renameNode (NodeId.not_isPlain_withSuffix _ _) (.addEdge placed)
  · exact .addEdge placed

/-- A copy has the metadata of what it is a copy of, and a name that is not plain. -/
theorem evolves_addCopy {p : Rules.Providers} {t : Template} {member : (NodeId × Nat) × Nat}
    (closed : c.Closed) (found : t.found.Holds c) (s : Sound c g) :
    Evolves c g (addCopy p t g member) := by
  obtain ⟨⟨q, i⟩, index⟩ := member
  have copied : { t.found with cardinality := 1, instances := [] }.Holds c :=
    ⟨found.attributes, found.raw, fun _ h => absurd h List.not_mem_nil, closed.count_one,
      found.labels⟩
  have made := Evolves.insertNode (NodeMeta.fits_withSuffix _ (NodeId.base t.node)
    (freeInstance g (NodeId.base t.node) i)) copied (Relation.ReflTransGen.refl (a := g))
  unfold addCopy
  dsimp only
  refine .ite (.eachSilent closed s ?_ fun _ _ _ _ => .addEdge .refl)
    (.eachSilent closed s ?_ fun _ _ _ _ => .replaceChild .refl)
  · exact .addEdge (.ite (.addChildren closed s made) made)
  · exact .addEdge (.ite (.addChildren closed s made) made)

theorem evolves_invert {p : Rules.Providers} {node : NodeId} (closed : c.Closed)
    (s : Sound c g) : Evolves c g (invert p g node) := by
  unfold invert
  split
  · exact .refl
  · split
    · exact .refl
    · exact evolves_invertSingle closed s
    · have found := holds_found (n := node) s (NodeMeta.holds_forId closed node)
      exact .eachSilent closed s (.removeNode .refl) fun _ _ _ s => evolves_addCopy closed found s

theorem evolves_reverseRelation {p : Rules.Providers} {pattern : Pattern} (closed : c.Closed)
    (s : Sound c g) : Evolves c g (reverseRelation p pattern g) :=
  .eachSilent closed s .refl fun _ _ _ s => evolves_invert closed s

/-! ### Propagation -/

theorem value_of_readKey (closed : c.Closed) (s : Sound c g) {key : String} {v : Value}
    (h : readKey g n key = some v) : c.value v := by
  obtain ⟨m, hm, h⟩ := Option.bind_eq_some_iff.1 h
  have holds := s.holds n m hm
  split at h
  · cases h
    exact closed.value_of_count holds.count
  · exact closed.bag_find holds.attributes (Option.filter_eq_some_iff.1 h).1

theorem evolves_writeKey {key : String} {v : Value} (closed : c.Closed) (h : c.value v) :
    Evolves c g (writeKey n key v g) := by
  refine .single (.modify (fun m holds => ?_) fun m => ?_)
  · split
    · split
      · next i hi =>
        split
        · next nonneg =>
          exact { holds with count := closed.count_of_value (closed.whole h hi) nonneg }
        · exact holds
      · exact holds
    · exact { holds with attributes := closed.bag_insert holds.attributes h }
  · split
    · split
      · split <;> rfl
      · rfl
    · rfl

theorem value_of_combine (closed : c.Closed) {aggregation : Aggregation} {old : Option Value}
    {v w : Value} (hold : ∀ u, old = some u → c.value u) (h : c.value v)
    (e : combine aggregation old v = some w) : c.value w := by
  cases old with
  | none =>
    cases e
    exact h
  | some u => exact closed.combined (hold u rfl) h e

theorem evolves_bring {key : String} {aggregation : Aggregation} {v : Value} {target : NodeId}
    (closed : c.Closed) (h : c.value v) (s : Sound c g) :
    Evolves c g (bring key aggregation v g target) := by
  unfold bring
  split
  · next w hw =>
    refine evolves_writeKey closed (value_of_combine closed (fun u hu => ?_) h hw)
    exact value_of_readKey closed s hu
  · exact .refl

theorem evolves_spread {key : String} {up : Bool} {aggregation : Aggregation} {transitive : Bool}
    {node : NodeId} (closed : c.Closed) (s : Sound c g) :
    Evolves c g (spread key up aggregation transitive g node) := by
  unfold spread
  split
  · exact .refl
  · next v hv =>
    have h := value_of_readKey closed s hv
    exact .eachSilent closed s .refl fun _ _ _ s => evolves_bring closed h s

/-- What is put together of the values of nodes. -/
theorem value_of_aggregate (closed : c.Closed) (s : Sound c g) {key : String}
    {aggregation : Aggregation} {nodes : List NodeId} {v : Value}
    (h : aggregate g key aggregation nodes = some v) : c.value v := by
  refine List.foldlRecOn nodes _ (motive := fun sum => ∀ u, sum = some u → c.value u)
    (fun _ e => absurd e (by simp)) (fun sum hs node _ u hu => ?_) v h
  split at hu
  · exact hs u hu
  · next w hw =>
    rcases Option.or_eq_some_iff.1 hu with hu | ⟨-, hu⟩
    · exact value_of_combine closed hs (value_of_readKey closed s hw) hu
    · exact hs u hu

theorem evolves_gather {key : String} {aggregation : Aggregation} {transitive : Bool}
    {node : NodeId} (closed : c.Closed) (s : Sound c g) :
    Evolves c g (gather key aggregation transitive g node) := by
  unfold gather
  split
  · exact .refl
  · next v hv =>
    split
    · exact .refl
    · exact evolves_writeKey closed (value_of_aggregate closed s hv)

theorem evolves_propagate {pattern : Pattern} {key : String} {direction : Direction}
    {aggregation : Aggregation} {transitive : Bool} (closed : c.Closed) (s : Sound c g) :
    Evolves c g (propagate pattern key direction aggregation transitive g) := by
  refine .eachSilent closed s .refl fun _ _ _ s => ?_
  cases direction with
  | up => exact evolves_spread closed s
  | down => exact evolves_spread closed s
  | fromChildren => exact evolves_gather closed s

/-! ### Placement -/

theorem evolves_moveInto {p : Rules.Providers} {target : Pattern} {node : NodeId}
    (closed : c.Closed) (s : Sound c g) : Evolves c g (moveInto p target g node).1 := by
  unfold moveInto
  split
  · exact .refl
  · exact .addEdge (.removeEdge (.removeParents closed s .refl))

theorem evolves_move {p : Rules.Providers} {pattern target : Pattern} (closed : c.Closed)
    (s : Sound c g) : Evolves c g (move p pattern target g).1 :=
  .each closed s .refl fun _ _ _ s => evolves_moveInto closed s

theorem evolves_putInto {p : Rules.Providers} {container node : NodeId} (closed : c.Closed)
    (s : Sound c g) : Evolves c g (putInto p container g node) :=
  .addEdge (.removeParents closed s .refl)

theorem evolves_group {p : Rules.Providers} {container : NodeId} {members : List Pattern}
    (closed : c.Closed) (s : Sound c g) : Evolves c g (group p container members g) := by
  unfold group
  split
  · exact .refl
  · refine .eachSilent closed s ?_ fun _ _ _ s => evolves_putInto closed s
    exact .insertMissing (fits_madeUp g container) (holds_madeUp closed g container) .refl

theorem evolves_relink {source target : Pattern} {action : LinkAction} (closed : c.Closed)
    (s : Sound c g) : Evolves c g (relink source target action g).1 := by
  unfold relink
  dsimp only
  split
  · exact .refl
  · refine .eachSilent closed s .refl fun _ _ _ _ => ?_
    cases action with
    | add => exact .addEdge .refl
    | remove => exact .removeEdge .refl

theorem evolves_uncross {second : Pattern} {node : NodeId} (closed : c.Closed) (s : Sound c g) :
    Evolves c g (uncross second g node) := by
  unfold uncross
  split
  · exact .refl
  · refine .removeParents closed s (.eachSilent closed s .refl fun _ _ _ _ => ?_)
    exact .removeEdge .refl

theorem evolves_matchBySuffix {first second : Pattern} (closed : c.Closed) (s : Sound c g) :
    Evolves c g (matchBySuffix first second g) :=
  .eachSilent closed s .refl fun _ _ _ s => evolves_uncross closed s

theorem evolves_delete {pattern : Pattern} {keepEdges : Bool} (closed : c.Closed)
    (s : Sound c g) : Evolves c g (delete pattern keepEdges g) := by
  refine .eachSilent closed s .refl fun _ _ _ s => .removeNode (.ite ?_ .refl)
  exact .eachSilent closed s .refl fun _ _ _ s => .addChildren closed s .refl

/-! ### Callbacks -/

/-- The number that a node group asks for may be an attribute. -/
theorem value_of_desiredSize (closed : c.Closed) {m : NodeMeta} {i : Nat} (holds : m.Holds c)
    (h : desiredSize? m = some i) : c.value (.int i) := by
  have ofBlock : ∀ block : Value, c.value block →
      (do let entries ← block.asMap?
          let n ← (← Keyed.find? "desired_size" entries).asInt?
          if 0 ≤ n then some n.toNat else none) = some i → c.value (.int i) := by
    intro block inside h
    simp only [Option.bind_eq_bind, Option.bind_eq_some_iff] at h
    obtain ⟨entries, hentries, v, hv, j, hj, h⟩ := h
    cases block with
    | map es =>
      cases hentries
      split at h
      · next nonneg =>
        cases h
        rw [Int.toNat_of_nonneg nonneg]
        exact closed.whole (closed.bag_find (closed.map_iff.1 inside) hv) hj
      · simp at h
    | _ => simp [Value.asMap?] at hentries
  obtain ⟨config, hconfig, h⟩ := Option.bind_eq_some_iff.1 h
  have given : c.value config := closed.bag_find holds.attributes hconfig
  split at h
  · obtain ⟨block, hblock, h⟩ := Option.bind_eq_some_iff.1 h
    exact ofBlock block (closed.list_iff.1 given _ (List.mem_of_mem_head? hblock)) h
  · exact ofBlock config given h

theorem holds_workers (closed : c.Closed) {m : NodeMeta} (holds : m.Holds c)
    (workers : NodeId) : (workersMeta workers m).Holds c := by
  have base := holds_forSynthetic closed workers
  unfold workersMeta
  dsimp only
  split
  · next i hi =>
    have v := value_of_desiredSize closed holds hi
    refine { base with attributes := closed.bag_insert closed.bag_nil v, count := ?_ }
    exact closed.count_of_value v (Int.natCast_nonneg i)
  · exact { base with }

theorem fits_workers (workers : NodeId) (m : NodeMeta) : (workersMeta workers m).Fits workers := by
  refine NodeMeta.fits_of_eq ((Eq.trans ?_ (NodeMeta.forId_type workers)))
  unfold workersMeta
  dsimp only
  split <;> rfl

theorem evolves_placeNodeGroup {node : NodeId} (closed : c.Closed) (s : Sound c g) :
    Evolves c g (placeNodeGroup g node).1 := by
  unfold placeNodeGroup
  split
  · exact .refl
  · next m hm =>
    have holds := s.holds node m hm
    refine .addEdge (.insertNode (fits_workers _ m) (holds_workers closed holds _) ?_)
    exact .eachSilent closed s .refl fun _ _ _ _ => .addEdge (.removeEdge .refl)

theorem evolves_collapseListener {node : NodeId} (closed : c.Closed) (s : Sound c g) :
    Evolves c g (collapseListener g node).1 := by
  unfold collapseListener
  split
  · exact .refl
  · dsimp only
    split
    · exact .refl
    · refine .removeNode (.eachSilent closed s .refl fun _ _ _ s => ?_)
      exact .addChildren closed s .refl

theorem evolves_runCallback {callback : Rules.Callback} {matched : List NodeId}
    (closed : c.Closed) (s : Sound c g) : Evolves c g (runCallback callback matched g).1 := by
  cases callback with
  | eksNodeGroups => exact .each closed s .refl fun _ _ _ s => evolves_placeNodeGroup closed s
  | lbListeners => exact .each closed s .refl fun _ _ _ s => evolves_collapseListener closed s

end Arrangement

/-! ### Handlers -/

theorem Operation.evolves {p : Rules.Providers} {subject : Pattern} (closed : c.Closed)
    (s : Sound c g) (o : Operation) : Evolves c g (o.apply p subject g).1 := by
  cases o with
  | insertIntermediate => exact Arrangement.evolves_insertIntermediate closed s
  | reverseRelation => exact Arrangement.evolves_reverseRelation closed s
  | consolidate => exact Arrangement.evolves_consolidate closed s
  | propagate => exact Arrangement.evolves_propagate closed s
  | matchBySuffix => exact Arrangement.evolves_matchBySuffix closed s
  | move => exact Arrangement.evolves_move closed s
  | relink => exact Arrangement.evolves_relink closed s
  | delete => exact Arrangement.evolves_delete closed s
  | group => exact Arrangement.evolves_group closed s

namespace Rules.Handler

theorem evolves_callback (h : Handler) (closed : c.Closed) (s : Sound c g) :
    Evolves c g (h.runCallback g).1 := by
  unfold runCallback
  split
  · exact Arrangement.evolves_runCallback closed s
  · exact .refl

theorem evolves_operations (h : Handler) {p : Providers} (closed : c.Closed) (s : Sound c g) :
    Evolves c g (h.runOperations p g).1 :=
  .each closed s .refl fun _ o _ s => o.evolves closed s

theorem evolves (h : Handler) {p : Providers} (closed : c.Closed) (s : Sound c g) :
    Evolves c g (h.run p g).1 := by
  unfold run
  cases h.order with
  | before =>
    have first := h.evolves_callback closed s
    exact first.trans (h.evolves_operations closed (first.sound closed s))
  | after =>
    have first := h.evolves_operations (p := p) closed s
    exact first.trans (h.evolves_callback closed (first.sound closed s))

end Rules.Handler

end Cartograph

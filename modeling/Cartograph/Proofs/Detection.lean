import Cartograph.Proofs.Keyed
import Cartograph.Proofs.Providers

/-!
# Tables in force

Two notions say which table a resource type belongs to. The tables of a run are found by *name*: the
part of a type before its first underscore is the name of its provider. Afterwards a table *claims*
a type by how it begins, which the table says itself. A table is *for* a type if it is so in one way
or the other (`Table.isFor`).

Tables are found type by type and merged one by one; neither loses a table that is for a type
(`Found`, `exists_foldl_addTable`). So the types that are reported are those that no table in force
is for (`mem_found_iff`), and the tables are in the order of how many types have their name
(`pairwise_precedes`). Where both notions are the same for the types of a run, what is reported are
the types that no table claims, and no table claims more types than one before it
(`detect_agrees`).
-/

namespace Cartograph.Rules

variable {t new : Table} {tables extra ts : List Table} {types seen : List String}
  {ty provider : String} {d : Detection} {p : Providers} {found : List Diagnostic}

/-! ### Tables for a type -/

/-- Whether a table claims a resource type. -/
def Table.claims (t : Table) (resourceType : String) : Bool :=
  t.starts.any fun start => start.toList.isPrefixOf resourceType.toList

/-- Whether a table is for a resource type, by its name or since it claims the type. -/
def Table.isFor (t : Table) (resourceType : String) : Bool :=
  t.provider == NodeId.providerOf resourceType || t.claims resourceType

theorem Table.isFor_iff : t.isFor ty ↔ t.provider = NodeId.providerOf ty ∨ t.claims ty := by
  rw [isFor, Bool.or_eq_true, beq_iff_eq]

theorem mem_dropRepeats {a : String} (l : List String) : a ∈ Table.dropRepeats l ↔ a ∈ l := by
  fun_induction Table.dropRepeats l with
  | case1 b rest ih => simp [ih]
  | case2 b c rest ne ih => rw [List.mem_cons, ih, ← List.mem_cons]
  | case3 => rfl

/-- A merged table is for the types of both, if they are of one provider. -/
theorem Table.isFor_merge (same : t.provider = new.provider) :
    (t.merge new).isFor ty ↔ t.isFor ty ∨ new.isFor ty := by
  have claims : (t.merge new).claims ty ↔ t.claims ty ∨ new.claims ty := by
    simp only [Table.claims, merge, List.any_eq_true, mem_dropRepeats, List.mem_append,
      or_and_right, exists_or]
  rw [isFor_iff, isFor_iff, isFor_iff, claims, ← same, or_or_distrib_left]
  rfl

theorem provider_builtin (h : builtinTable? provider = some t) : t.provider = provider := by
  unfold builtinTable? at h
  split at h
  · next name =>
    cases h
    exact name.symm
  · split at h
    · next name =>
      cases h
      exact name.symm
    · exact absurd h (by simp)

/-- What begins with a name without an underscore and an underscore has this name. -/
theorem providerOf_of_isPrefixOf (name : List Char) (plain : '_' ∉ name)
    (h : (name ++ ['_']).isPrefixOf ty.toList) : NodeId.providerOf ty = String.ofList name := by
  obtain ⟨rest, split⟩ := List.isPrefixOf_iff_prefix.1 h
  have all : ∀ c ∈ name, (fun c => decide (c ≠ '_')) c = true := fun c inside =>
    decide_eq_true fun same => plain (same ▸ inside)
  rw [NodeId.providerOf, ← split, List.append_assoc, List.takeWhile_append_of_pos all]
  simp

/-- A table that is built in claims only types that have its name. -/
theorem Table.isFor_builtin (h : builtinTable? provider = some t) :
    t.isFor ty ↔ NodeId.providerOf ty = provider := by
  rw [isFor_iff, provider_builtin h, eq_comm, or_iff_left_iff_imp]
  intro claims
  unfold builtinTable? at h
  split at h
  · next name =>
    cases h
    rw [name]
    exact providerOf_of_isPrefixOf "aws".toList (by decide)
      (by simpa [Table.claims, Aws.table] using claims)
  · split at h
    · next name =>
      cases h
      rw [name]
      exact providerOf_of_isPrefixOf "azurerm".toList (by decide)
        (by simpa [Table.claims, Azure.table] using claims)
    · exact absurd h (by simp)

/-! ### Looking at types -/

/-- Whether there is no table for a resource type, neither built in nor a further one. -/
def hasNone (extra : List Table) (resourceType : String) : Bool :=
  (builtinTable? (NodeId.providerOf resourceType)).isNone && !extra.any (·.isFor resourceType)

/-- What is found on the way through some resource types. -/
structure Found (extra : List Table) (seen : List String) (d : Detection) : Prop where
  builtin : ∀ t ∈ d.tables, builtinTable? t.provider = some t
  nodup : (d.tables.map Table.provider).Nodup
  inForce : ∀ ty ∈ seen, (builtinTable? (NodeId.providerOf ty)).isSome →
    ∃ t ∈ d.tables, t.provider = NodeId.providerOf ty
  unknown : d.unknown = seen.filter (hasNone extra)

theorem hasNone_of_builtin (builtin : builtinTable? (NodeId.providerOf ty) = some t) :
    hasNone extra ty = false := by
  rw [hasNone, builtin]
  rfl

/-- No table comes into force for a type. -/
theorem Found.pass (f : Found extra seen d) (ty : String)
    (forced : (builtinTable? (NodeId.providerOf ty)).isSome →
      ∃ t ∈ d.tables, t.provider = NodeId.providerOf ty) :
    Found extra (seen ++ [ty])
      { d with unknown := d.unknown ++ if hasNone extra ty then [ty] else [] } := by
  refine ⟨f.builtin, f.nodup, List.forall_mem_append.2 ⟨f.inForce, ?_⟩, ?_⟩
  · exact List.forall_mem_singleton.2 forced
  · rw [List.filter_append, ← f.unknown, List.filter_cons, List.filter_nil]

/-- The table for a type comes into force. -/
theorem Found.force (f : Found extra seen d)
    (builtin : builtinTable? (NodeId.providerOf ty) = some t)
    (free : ∀ t ∈ d.tables, t.provider ≠ NodeId.providerOf ty) :
    Found extra (seen ++ [ty]) { d with tables := d.tables ++ [t] } := by
  have name := provider_builtin builtin
  refine ⟨?_, ?_, List.forall_mem_append.2 ⟨fun ty' seen some => ?_, ?_⟩, ?_⟩
  · refine List.forall_mem_append.2 ⟨f.builtin, List.forall_mem_singleton.2 ?_⟩
    rwa [name]
  · rw [List.map_append, List.nodup_append]
    refine ⟨f.nodup, List.pairwise_singleton _ _, fun a ha b hb same => ?_⟩
    obtain ⟨t', inside, rfl⟩ := List.mem_map.1 ha
    rw [List.mem_singleton.1 hb, name] at same
    exact free t' inside same
  · obtain ⟨t', inside, same⟩ := f.inForce ty' seen some
    exact ⟨t', List.mem_append_left _ inside, same⟩
  · exact List.forall_mem_singleton.2 fun _ => ⟨t, by simp, name⟩
  · rw [List.filter_append, ← f.unknown, List.filter_cons, hasNone_of_builtin builtin]
    exact (List.append_nil _).symm

theorem Found.addType (f : Found extra seen d) (ty : String) :
    Found extra (seen ++ [ty]) (d.addType extra ty) := by
  unfold Detection.addType
  dsimp only
  split
  · next old =>
    obtain ⟨t, inside, name⟩ : ∃ t ∈ d.tables, t.provider = NodeId.providerOf ty := by
      simpa using old
    have pass := f.pass ty fun _ => ⟨t, inside, name⟩
    rwa [hasNone_of_builtin (name ▸ f.builtin t inside), if_neg Bool.false_ne_true,
      List.append_nil] at pass
  · next absent =>
    split
    · next t builtin => exact f.force builtin (by simpa using absent)
    · next none =>
      have pass := f.pass ty fun some => absurd some (by simp [none])
      have has : hasNone extra ty = !Detection.isClaimed extra (NodeId.providerOf ty) ty := by
        rw [hasNone, none]
        exact Bool.true_and _
      rw [has] at pass
      split
      · next claimed =>
        rwa [claimed, Bool.not_true, if_neg Bool.false_ne_true, List.append_nil] at pass
      · next unclaimed =>
        rwa [Bool.eq_false_iff.2 unclaimed, Bool.not_false, if_pos rfl] at pass

theorem found_foldl (extra : List Table) (types : List String) :
    Found extra types (types.foldl (Detection.addType extra) ⟨[], []⟩) := by
  suffices step : ∀ {seen d}, Found extra seen d →
      Found extra (seen ++ types) (types.foldl (Detection.addType extra) d) from
    @step [] _ ⟨fun _ h => absurd h List.not_mem_nil, List.nodup_nil,
      fun _ h => absurd h List.not_mem_nil, rfl⟩
  induction types with
  | nil =>
    intro seen d f
    rwa [List.append_nil]
  | cons ty rest ih =>
    intro seen d f
    have later := ih (f.addType ty)
    rwa [List.append_assoc] at later

/-! ### Merging -/

/-- What holds of a merged table exactly if it holds of one of the two holds of some table exactly
    if it did before or holds of the new one. -/
theorem exists_addTable {P : Table → Prop}
    (merge : ∀ t new : Table, t.provider = new.provider → (P (t.merge new) ↔ P t ∨ P new)) :
    (∃ t ∈ Detection.addTable ts new, P t) ↔ (∃ t ∈ ts, P t) ∨ P new := by
  induction ts with
  | nil => simp [Detection.addTable]
  | cons t rest ih =>
    unfold Detection.addTable
    split
    · next same =>
      simp only [List.mem_cons, exists_eq_or_imp]
      rw [merge t new same, or_right_comm]
    · simp only [List.mem_cons, exists_eq_or_imp]
      rw [ih, or_assoc]

theorem exists_foldl_addTable {P : Table → Prop}
    (merge : ∀ t new : Table, t.provider = new.provider → (P (t.merge new) ↔ P t ∨ P new)) :
    (∃ t ∈ extra.foldl Detection.addTable ts, P t) ↔ (∃ t ∈ ts, P t) ∨ ∃ t ∈ extra, P t := by
  induction extra generalizing ts with
  | nil => simp
  | cons new rest ih =>
    rw [List.foldl_cons, ih, exists_addTable merge, or_assoc]
    simp only [List.mem_cons, exists_eq_or_imp]

theorem mem_providers_addTable : provider ∈ (Detection.addTable ts new).map Table.provider ↔
    provider ∈ ts.map Table.provider ∨ new.provider = provider := by
  simp only [List.mem_map]
  exact exists_addTable fun t new same => by
    rw [← same, or_self]
    rfl

/-- There is one table for each provider. -/
theorem nodup_addTable (nodup : (ts.map Table.provider).Nodup) :
    ((Detection.addTable ts new).map Table.provider).Nodup := by
  induction ts with
  | nil => exact List.pairwise_singleton _ _
  | cons t rest ih =>
    rw [List.map_cons, List.nodup_cons] at nodup
    unfold Detection.addTable
    split
    · exact List.nodup_cons.2 nodup
    · next other =>
      rw [List.map_cons, List.nodup_cons, mem_providers_addTable, not_or]
      exact ⟨⟨nodup.1, fun same => other same.symm⟩, ih nodup.2⟩

theorem nodup_foldl_addTable (nodup : (ts.map Table.provider).Nodup) :
    ((extra.foldl Detection.addTable ts).map Table.provider).Nodup := by
  induction extra generalizing ts with
  | nil => exact nodup
  | cons new rest ih => exact ih (nodup_addTable nodup)

/-! ### Detection -/

/-- The finding for a resource type that no table is for. -/
def unknownType (resourceType : String) : Diagnostic :=
  ⟨.unknownResourceType, none,
    "no provider table for '" ++ resourceType ++ "', using generic treatment"⟩

/-- A table that is for a type of the run is in force exactly if there is one at all. -/
theorem exists_inForce_iff (inside : ty ∈ types) :
    (∃ t ∈ tablesInForce types extra, t.isFor ty) ↔ hasNone extra ty = false := by
  have f := found_foldl extra types
  have builtin : (∃ t ∈ (types.foldl (Detection.addType extra) ⟨[], []⟩).tables, t.isFor ty) ↔
      (builtinTable? (NodeId.providerOf ty)).isSome := by
    constructor
    · rintro ⟨t, there, isFor⟩
      have name := f.builtin t there
      rw [(Table.isFor_builtin name).1 isFor, name]
      rfl
    · intro some
      obtain ⟨t, there, name⟩ := f.inForce ty inside some
      exact ⟨t, there, Table.isFor_iff.2 (.inl name)⟩
  rw [tablesInForce, exists_foldl_addTable fun _ _ => Table.isFor_merge, builtin, hasNone,
    Bool.and_eq_false_iff, Bool.not_eq_false', List.any_eq_true, Option.isNone_eq_false_iff]

theorem compile_table {c : Context} (h : Context.compile t = .ok c) : c.table = t := by
  obtain ⟨implied, -, h⟩ := bind_ok_iff.1 h
  obtain ⟨phases, -, h⟩ := bind_ok_iff.1 h
  cases h
  rfl

theorem contexts_of_detect (h : Providers.detect types extra = .ok (p, found)) :
    p.contexts.map Context.table = (tablesInForce (Keyed.keySet types) extra).mergeSort
        (Detection.comesBefore (Keyed.keySet types)) ∧
      found = ((Keyed.keySet types).filter (hasNone extra)).map unknownType := by
  obtain ⟨contexts, compiled, h⟩ := bind_ok_iff.1 h
  cases h
  refine ⟨map_of_mapM_ok (fun _ _ => compile_table) compiled, ?_⟩
  rw [(found_foldl extra _).unknown]
  rfl

/-- Whether the name of a table is that of more types, or of as many and smaller. -/
def Precedes (types : List String) (a b : Table) : Prop :=
  Detection.count types b.provider < Detection.count types a.provider ∨
    Detection.count types a.provider = Detection.count types b.provider ∧ a.provider < b.provider

theorem comesBefore_iff {a b : Table} : Detection.comesBefore types a b ↔
    Detection.count types b.provider < Detection.count types a.provider ∨
      Detection.count types a.provider = Detection.count types b.provider ∧
        a.provider ≤ b.provider := by
  unfold Detection.comesBefore
  dsimp only
  rw [Bool.or_eq_true, decide_eq_true_iff, Bool.and_eq_true, beq_iff_eq, Bool.not_eq_true',
    decide_eq_false_iff_not, String.not_lt]

theorem comesBefore_trans (a b c : Table) (h : Detection.comesBefore types a b)
    (h' : Detection.comesBefore types b c) : Detection.comesBefore types a c := by
  rw [comesBefore_iff] at *
  rcases h with more | ⟨same, le⟩ <;> rcases h' with more' | ⟨same', le'⟩
  · exact .inl (Nat.lt_trans more' more)
  · exact .inl (same' ▸ more)
  · exact .inl (same ▸ more')
  · exact .inr ⟨same.trans same', String.le_trans le le'⟩

theorem comesBefore_total (a b : Table) :
    Detection.comesBefore types a b || Detection.comesBefore types b a := by
  rw [Bool.or_eq_true, comesBefore_iff, comesBefore_iff]
  rcases Nat.lt_trichotomy (Detection.count types a.provider)
    (Detection.count types b.provider) with less | same | more
  · exact .inr (.inl less)
  · rcases String.le_total a.provider b.provider with le | le
    · exact .inl (.inr ⟨same, le⟩)
    · exact .inr (.inr ⟨same.symm, le⟩)
  · exact .inl (.inl more)

theorem pairwise_precedes (nodup : (ts.map Table.provider).Nodup) :
    (ts.mergeSort (Detection.comesBefore types)).Pairwise (Precedes types) := by
  have sorted : (ts.mergeSort (Detection.comesBefore types)).Pairwise
      fun a b => Detection.comesBefore types a b :=
    List.pairwise_mergeSort comesBefore_trans comesBefore_total ts
  have apart : (ts.mergeSort (Detection.comesBefore types)).Pairwise
      fun a b => a.provider ≠ b.provider :=
    List.pairwise_map.1 (((List.mergeSort_perm ts _).map Table.provider).nodup_iff.2 nodup)
  refine (sorted.and apart).imp fun ⟨before, ne⟩ => ?_
  exact (comesBefore_iff.1 before).imp_right fun ⟨same, le⟩ => ⟨same, Std.lt_of_le_of_ne le ne⟩

/-- The number of different types that a table claims. -/
def claimed (types : List String) (c : Context) : Nat :=
  ((Keyed.keySet types).filter c.claims).length

/-- What is reported and which table comes first is what the claims of tables say. -/
structure Agrees (types : List String) (p : Providers) (found : List Diagnostic) : Prop where
  reported : ∀ ty ∈ types, unknownType ty ∈ found ↔ ∀ c ∈ p.contexts, ¬c.claims ty
  ordered : p.contexts.Pairwise fun a b => claimed types b ≤ claimed types a
  primary : ∀ c ∈ p.contexts,
    ∃ first ∈ p.contexts, first.name = p.primary ∧ claimed types c ≤ claimed types first

theorem mem_found_iff (h : Providers.detect types extra = .ok (p, found)) {x : Diagnostic} :
    x ∈ found ↔
      ∃ ty ∈ types, x = unknownType ty ∧ ∀ c ∈ p.contexts, ¬c.table.isFor ty := by
  obtain ⟨tables, rfl⟩ := contexts_of_detect h
  have unknown {ty : String} (inside : ty ∈ types) :
      hasNone extra ty = true ↔ ∀ c ∈ p.contexts, ¬c.table.isFor ty := by
    have mem {t : Table} :
        t ∈ p.contexts.map Context.table ↔ t ∈ tablesInForce (Keyed.keySet types) extra := by
      rw [tables]
      exact (List.mergeSort_perm _ _).mem_iff
    rw [← Bool.not_eq_false, ← exists_inForce_iff (Keyed.mem_keySet.2 inside)]
    simp only [← mem, List.mem_map, not_exists, not_and, forall_exists_index, and_imp,
      forall_apply_eq_imp_iff₂]
  rw [List.mem_map]
  constructor
  · rintro ⟨ty, inside, rfl⟩
    obtain ⟨inside, has⟩ := List.mem_filter.1 inside
    have inside := Keyed.mem_keySet.1 inside
    exact ⟨ty, inside, rfl, (unknown inside).1 has⟩
  · rintro ⟨ty, inside, rfl, none⟩
    exact ⟨ty, List.mem_filter.2 ⟨Keyed.mem_keySet.2 inside, (unknown inside).2 none⟩, rfl⟩

theorem unknownType_inj {a b : String} : unknownType a = unknownType b ↔ a = b := by
  unfold unknownType
  simp

/-- The types that are reported are those that no table in force is for, and the tables are ordered
    by how many types have their name. If the tables claim those types that have their name, this is
    what their claims say. -/
theorem detect_agrees (h : Providers.detect types extra = .ok (p, found)) :
    (∀ x, x ∈ found ↔
      ∃ ty ∈ types, x = unknownType ty ∧ ∀ c ∈ p.contexts, ¬c.table.isFor ty) ∧
    (p.contexts.Pairwise fun a b => Precedes (Keyed.keySet types) a.table b.table) ∧
    ((∀ c ∈ p.contexts, ∀ ty ∈ types, c.claims ty ↔ c.name = NodeId.providerOf ty) →
      Agrees types p found) := by
  obtain ⟨tables, -⟩ := contexts_of_detect h
  have told := fun x => mem_found_iff h (x := x)
  have sorted : p.contexts.Pairwise
      fun a b => Precedes (Keyed.keySet types) a.table b.table := by
    rw [← List.pairwise_map, tables]
    exact pairwise_precedes (nodup_foldl_addTable (found_foldl extra _).nodup)
  refine ⟨told, sorted, fun byName => ?_⟩
  have count {c : Context} (inside : c ∈ p.contexts) :
      claimed types c = Detection.count (Keyed.keySet types) c.name := by
    refine congrArg List.length (List.filter_congr fun ty hty => ?_)
    rw [Bool.eq_iff_iff, byName c inside ty (Keyed.mem_keySet.1 hty), decide_eq_true_iff, eq_comm]
  have ordered : p.contexts.Pairwise fun a b => claimed types b ≤ claimed types a := by
    refine sorted.imp_of_mem fun {a b} ha hb before => ?_
    rw [count ha, count hb]
    exact before.elim Nat.le_of_lt fun same => Nat.le_of_eq same.1.symm
  refine ⟨fun ty inside => ?_, ordered, fun c inside => ?_⟩
  · have isFor {c : Context} (there : c ∈ p.contexts) : c.table.isFor ty ↔ c.claims ty :=
      Table.isFor_iff.trans (or_iff_right_of_imp (byName c there ty inside).2)
    rw [told]
    constructor
    · rintro ⟨ty', -, same, none⟩ c there claims
      obtain rfl := unknownType_inj.1 same
      exact none c there ((isFor there).2 claims)
    · exact fun none => ⟨ty, inside, rfl, fun c there some => none c there ((isFor there).1 some)⟩
  · rw [Providers.primary]
    cases contexts : p.contexts with
    | nil => exact absurd (contexts ▸ inside) List.not_mem_nil
    | cons first rest =>
      refine ⟨first, List.mem_cons_self, rfl, ?_⟩
      rw [contexts] at inside ordered
      rcases List.mem_cons.1 inside with rfl | inside
      · exact Nat.le_refl _
      · exact (List.pairwise_cons.1 ordered).1 c inside

/-- Tables that come into force in order stay in it. -/
theorem contexts_of_ordered (h : Providers.detect types extra = .ok (p, found))
    (ordered : (tablesInForce (Keyed.keySet types) extra).Pairwise
      fun a b => Detection.comesBefore (Keyed.keySet types) a b) :
    p.contexts.map Context.table = tablesInForce (Keyed.keySet types) extra :=
  (contexts_of_detect h).1.trans (List.mergeSort_of_pairwise ordered)

/-- A table that knows nothing of resource types but how they begin. -/
def bareTable (provider : String) (starts : List String) : Table :=
  { Table.empty provider with starts := starts }

theorem compiles_bareTables {l : List Table}
    (bare : ∀ t ∈ l, t.impliedConnections = [] ∧ t.phases = []) :
    ∀ t ∈ l, ∃ context, Context.compile t = .ok context := fun t inside => by
  obtain ⟨implied, phases⟩ := bare t inside
  rw [Context.compile, implied, phases]
  exact ⟨_, rfl⟩

/-- Types of three providers. -/
def manyTypes : List String := ["alicloud_vpc", "gcp_disk", "gcp_network", "ovh_server"]

/-- Tables for two of them, which claim what has their name. -/
def namedTables : List Table := [bareTable "gcp" ["gcp_"], bareTable "alicloud" ["alicloud_"]]

/-- The theorem where one type is reported and the table of two types comes first. -/
theorem detect_agrees_named : ∃ p found, Providers.detect manyTypes namedTables = .ok (p, found) ∧
    (∀ c ∈ p.contexts, ∀ ty ∈ manyTypes, c.claims ty ↔ c.name = NodeId.providerOf ty) ∧
    Agrees manyTypes p found ∧ p.contexts.map Context.name = ["gcp", "alicloud"] ∧
    found = [unknownType "ovh_server"] := by
  obtain ⟨p, found, h⟩ : ∃ p found, Providers.detect manyTypes namedTables = .ok (p, found) :=
    exists_detect (compiles_bareTables (by decide +kernel))
  have tables := contexts_of_ordered h (by decide +kernel)
  have byName : ∀ t ∈ p.contexts.map Context.table, ∀ ty ∈ manyTypes,
      t.claims ty ↔ t.provider = NodeId.providerOf ty := by
    rw [tables]
    decide +kernel
  have names : (p.contexts.map Context.table).map Table.provider = ["gcp", "alicloud"] := by
    rw [tables]
    decide +kernel
  have none : (Keyed.keySet manyTypes).filter (hasNone namedTables) = ["ovh_server"] := by
    decide +kernel
  have byName := fun c (inside : c ∈ p.contexts) => byName c.table (List.mem_map_of_mem inside)
  refine ⟨p, found, h, byName, (detect_agrees h).2.2 byName, ?_, ?_⟩
  · rwa [List.map_map] at names
  · rw [(contexts_of_detect h).2, none]
    rfl

/-- Types of two providers, one of which has types of several names. -/
def otherTypes : List String := ["alicloud_vpc", "gcp_network", "gke_cluster", "google_project"]

/-- Tables for them, of which one claims types that do not have its name, and not those that do. -/
def otherTables : List Table :=
  [bareTable "alicloud" ["alicloud_"], bareTable "google" ["gcp_", "gke_"]]

/-- A type that no table claims is not reported, and a table of one type comes before a table of
    two. -/
theorem detect_disagrees : ∃ p found, Providers.detect otherTypes otherTables = .ok (p, found) ∧
    ("google_project" ∈ otherTypes ∧ unknownType "google_project" ∉ found ∧
      ∀ c ∈ p.contexts, ¬c.claims "google_project") ∧
    ¬p.contexts.Pairwise fun a b => claimed otherTypes b ≤ claimed otherTypes a := by
  obtain ⟨p, found, h⟩ : ∃ p found, Providers.detect otherTypes otherTables = .ok (p, found) :=
    exists_detect (compiles_bareTables (by decide +kernel))
  have tables := contexts_of_ordered h (by decide +kernel)
  have unclaimed : ∀ t ∈ p.contexts.map Context.table, ¬t.claims "google_project" := by
    rw [tables]
    decide +kernel
  have disordered : ¬(p.contexts.map Context.table).Pairwise fun a b =>
      ((Keyed.keySet otherTypes).filter b.claims).length ≤
        ((Keyed.keySet otherTypes).filter a.claims).length := by
    rw [tables]
    decide +kernel
  have none : (Keyed.keySet otherTypes).filter (hasNone otherTables) = [] := by decide +kernel
  refine ⟨p, found, h, ⟨by decide, ?_, fun c inside => unclaimed c.table
    (List.mem_map_of_mem inside)⟩, fun ordered => disordered (List.pairwise_map.2 ordered)⟩
  rw [(contexts_of_detect h).2, none]
  exact List.not_mem_nil

end Cartograph.Rules

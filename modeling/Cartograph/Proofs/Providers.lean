import Cartograph.Rules.Providers
import Cartograph.Proofs.Results

/-!
# Providers that are built in

The tables that are built in are well written, so the providers of any resource types can be
detected as long as there are no further tables (`detect_builtin`), and in general if every table in
force is well written (`exists_detect`).
-/

namespace Cartograph.Rules

theorem compiles_aws : ∃ context, Context.compile Aws.table = .ok context :=
  exists_ok_of_isOk (by decide +kernel)

theorem compiles_azure : ∃ context, Context.compile Azure.table = .ok context :=
  exists_ok_of_isOk (by decide +kernel)

theorem compiles_builtin {provider : String} {t : Table}
    (h : builtinTable? provider = some t) :
    ∃ context, Context.compile t = .ok context := by
  unfold builtinTable? at h
  split at h
  · cases h
    exact compiles_aws
  · split at h
    · cases h
      exact compiles_azure
    · exact absurd h (by simp)

/-- Of resource types alone only tables that are built in come into force. -/
theorem tables_of_types (types : List String) {d : Detection}
    (h : ∀ t ∈ d.tables, ∃ provider, builtinTable? provider = some t) :
    ∀ t ∈ (types.foldl (Detection.addType []) d).tables,
      ∃ provider, builtinTable? provider = some t := by
  induction types generalizing d with
  | nil => exact h
  | cons ty rest ih =>
    refine ih fun t ht => ?_
    unfold Detection.addType at ht
    dsimp only at ht
    split at ht
    · exact h t ht
    · split at ht
      · next new found =>
        rcases List.mem_append.1 ht with ht | ht
        · exact h t ht
        · exact ⟨_, List.mem_singleton.1 ht ▸ found⟩
      · split at ht
        · exact h t ht
        · exact h t ht

theorem mapM_ok {α β : Type} {f : α → Except Error β} {l : List α}
    (h : ∀ a ∈ l, ∃ b, f a = .ok b) : ∃ bs, l.mapM f = .ok bs := by
  induction l with
  | nil => exact ⟨[], rfl⟩
  | cons a rest ih =>
    obtain ⟨b, hb⟩ := h a List.mem_cons_self
    obtain ⟨bs, hbs⟩ := ih fun a ha => h a (List.mem_cons_of_mem _ ha)
    refine ⟨b :: bs, ?_⟩
    rw [List.mapM_cons, hb, hbs]
    rfl

/-- The tables in force, in the order in which they come into force. -/
def tablesInForce (types : List String) (extra : List Table) : List Table :=
  extra.foldl Detection.addTable (types.foldl (Detection.addType extra) ⟨[], []⟩).tables

/-- Providers are detected if every table in force is well written. -/
theorem exists_detect {types : List String} {extra : List Table}
    (compiles : ∀ t ∈ tablesInForce (Keyed.keySet types) extra,
      ∃ context, Context.compile t = .ok context) :
    ∃ p found, Providers.detect types extra = .ok (p, found) := by
  obtain ⟨contexts, compiled⟩ := mapM_ok (f := Context.compile)
    (l := (tablesInForce (Keyed.keySet types) extra).mergeSort
      (Detection.comesBefore (Keyed.keySet types)))
    fun t ht => compiles t ((List.mergeSort_perm _ _).mem_iff.1 ht)
  rw [tablesInForce] at compiled
  unfold Providers.detect
  simp only [compiled, bind, Except.bind]
  exact ⟨⟨contexts⟩, _, rfl⟩

theorem detect_builtin (types : List String) :
    ∃ p found, Providers.detect types [] = .ok (p, found) := by
  refine exists_detect fun t inside => ?_
  have builtin := tables_of_types (Keyed.keySet types) (d := ⟨[], []⟩)
    fun _ h => absurd h List.not_mem_nil
  obtain ⟨_, found⟩ := builtin t inside
  exact compiles_builtin found

end Cartograph.Rules

/-!
# Results

What is known of the value of a result that may be an error instead (`Yields`), or of the error
(`Fails`), put together along the steps that lead to it, and of values that may be missing.
-/

namespace Cartograph

variable {ε α β : Type} {x : Except ε α} {f : α → Except ε β} {P : α → Prop} {Q : β → Prop}

/-- The steps of a result succeed one after the other. -/
theorem bind_ok_iff {b : β} : x >>= f = .ok b ↔ ∃ a, x = .ok a ∧ f a = .ok b := by
  cases x with
  | error e => simp [bind, Except.bind]
  | ok a => simp [bind, Except.bind]

theorem map_error_iff {g : α → β} {e : ε} : x.map g = .error e ↔ x = .error e := by
  cases x <;> simp [Except.map]

theorem ok_of_toOption {a : α} (h : x.toOption = some a) : x = .ok a := by
  cases x with
  | error => exact absurd h (by simp [Except.toOption])
  | ok b => exact congrArg Except.ok (Option.some.inj h)

theorem exists_ok_of_isOk (h : x.isOk = true) : ∃ a, x = .ok a := by
  cases x with
  | error => exact absurd h (by simp [Except.isOk, Except.toBool])
  | ok a => exact ⟨a, rfl⟩

/-- If there is a value, it has a property. -/
def Yields (P : α → Prop) (x : Except ε α) : Prop := ∀ a, x = .ok a → P a

namespace Yields

theorem ok {a : α} (h : P a) : Yields P (.ok a : Except ε α) := by
  rintro _ ⟨⟩
  exact h

theorem error (e : ε) : Yields P (.error e : Except ε α) := by
  rintro _ ⟨⟩

theorem mono {P' : α → Prop} (h : Yields P x) (le : ∀ a, P a → P' a) : Yields P' x :=
  fun a ha => le a (h a ha)

theorem both {P' : α → Prop} (h : Yields P x) (h' : Yields P' x) :
    Yields (fun a => P a ∧ P' a) x := fun a ha => ⟨h a ha, h' a ha⟩

theorem bind (h : Yields P x) (each : ∀ a, P a → Yields Q (f a)) : Yields Q (x >>= f) := by
  intro b hb
  obtain ⟨a, ha, hb⟩ := bind_ok_iff.1 hb
  exact each a (h a ha) b hb

/-- What comes before does not matter. -/
theorem then_ (each : ∀ a, Yields Q (f a)) : Yields Q (x >>= f) :=
  bind (P := fun _ => True) (fun _ _ => trivial) fun a _ => each a

theorem map {g : α → β} (h : Yields P x) (each : ∀ a, P a → Q (g a)) : Yields Q (x.map g) := by
  intro b hb
  cases x with
  | error e => exact absurd hb (by simp [Except.map])
  | ok a =>
    cases hb
    exact each a (h a rfl)

theorem mapAny {g : α → β} (each : ∀ a, Q (g a)) : Yields Q (x.map g) :=
  map (P := fun _ => True) (fun _ _ => trivial) fun a _ => each a

theorem mapError {ε' : Type} {g : ε → ε'} (h : Yields P x) : Yields P (x.mapError g) := by
  intro a ha
  cases x with
  | error e => cases ha
  | ok =>
    cases ha
    exact h a rfl

theorem mapM {f : α → Except ε β} {l : List α} (each : ∀ a ∈ l, Yields Q (f a)) :
    Yields (∀ b ∈ ·, Q b) (l.mapM f) := by
  induction l with
  | nil => exact ok fun _ h => absurd h List.not_mem_nil
  | cons a rest ih =>
    rw [List.mapM_cons]
    refine (each a List.mem_cons_self).bind fun b hb => ?_
    refine (ih fun a ha => each a (List.mem_cons_of_mem _ ha)).bind fun bs hbs => ?_
    exact ok (List.forall_mem_cons.2 ⟨hb, hbs⟩)

theorem ite {p : Prop} [Decidable p] {y : Except ε α} (h : p → Yields P x)
    (h' : ¬p → Yields P y) : Yields P (if p then x else y) := by
  split
  · next yes => exact h yes
  · next no => exact h' no

end Yields

/-- What results come from is read off them. -/
theorem map_of_mapM_ok {f : α → Except ε β} {g : β → α} (each : ∀ a b, f a = .ok b → g b = a) :
    ∀ {l : List α} {bs : List β}, l.mapM f = .ok bs → bs.map g = l
  | [], _, h => by
    cases h
    rfl
  | a :: l, bs, h => by
    rw [List.mapM_cons] at h
    obtain ⟨b, hb, h⟩ := bind_ok_iff.1 h
    obtain ⟨rest, hrest, h⟩ := bind_ok_iff.1 h
    cases h
    rw [List.map_cons, each a b hb, map_of_mapM_ok each hrest]

/-! ### Errors -/

/-- If there is an error instead of a value, it has a property. -/
def Fails (P : ε → Prop) (x : Except ε α) : Prop := ∀ e, x = .error e → P e

namespace Fails

variable {P : ε → Prop}

theorem ok (a : α) : Fails P (.ok a : Except ε α) := by
  rintro _ ⟨⟩

theorem error {e : ε} (h : P e) : Fails P (.error e : Except ε α) := by
  rintro _ ⟨⟩
  exact h

theorem bind (h : Fails P x) (each : ∀ a, x = .ok a → Fails P (f a)) : Fails P (x >>= f) := by
  cases x with
  | error e => exact error (h e rfl)
  | ok a => exact each a rfl

theorem mapM {l : List α} (each : ∀ a ∈ l, Fails P (f a)) : Fails P (l.mapM f) := by
  induction l with
  | nil => exact ok []
  | cons a rest ih =>
    rw [List.mapM_cons]
    refine (each a List.mem_cons_self).bind fun b _ => ?_
    exact (ih fun a ha => each a (List.mem_cons_of_mem _ ha)).bind fun bs _ => ok _

end Fails

/-! ### Values that may be missing -/

/-- If all members have values, the list has. -/
theorem mapM_some {f : α → Option β} {g : α → β} {l : List α}
    (h : ∀ a ∈ l, f a = some (g a)) : l.mapM f = some (l.map g) := by
  induction l with
  | nil => rfl
  | cons a l ih =>
    rw [List.mapM_cons, h a List.mem_cons_self, ih fun a ha => h a (List.mem_cons_of_mem _ ha)]
    rfl

/-- If the list of values is missing, so is one of them. -/
theorem of_mapM_none {f : α → Option β} :
    ∀ {l : List α}, l.mapM f = none → ∃ a ∈ l, f a = none
  | [], h => absurd h (by simp)
  | a :: l, h => by
    cases first : f a with
    | none => exact ⟨a, List.mem_cons_self, first⟩
    | some v =>
      rw [List.mapM_cons, first] at h
      have rest : l.mapM f = none := by
        cases others : l.mapM f with
        | none => rfl
        | some vs => exact absurd h (by simp [others])
      obtain ⟨b, hb, none⟩ := of_mapM_none rest
      exact ⟨b, List.mem_cons_of_mem _ hb, none⟩

/-- Every member of a list of values, none of which is missing, is the value of a member. -/
theorem of_mem_mapM {f : α → Option β} :
    ∀ {l : List α} {vs : List β}, l.mapM f = some vs → ∀ v ∈ vs, ∃ a ∈ l, f a = some v
  | [], _, h => by
    cases h
    exact List.forall_mem_nil _
  | a :: l, vs, h => by
    rw [List.mapM_cons] at h
    obtain ⟨v, hv, h⟩ := Option.bind_eq_some_iff.1 h
    obtain ⟨rest, hrest, h⟩ := Option.bind_eq_some_iff.1 h
    cases h
    refine List.forall_mem_cons.2 ⟨⟨a, List.mem_cons_self, hv⟩, fun w hw => ?_⟩
    obtain ⟨b, hb, same⟩ := of_mem_mapM hrest w hw
    exact ⟨b, List.mem_cons_of_mem _ hb, same⟩

/-- Entries with new values, none of which is missing, have the keys of old. -/
theorem keys_of_mapM {κ : Type} {f : κ × α → Option β} :
    ∀ {es : List (κ × α)} {vs : List (κ × β)},
      (es.mapM fun e => (f e).map fun v => (e.1, v)) = some vs → vs.map (·.1) = es.map (·.1)
  | [], _, h => by
    cases h
    rfl
  | e :: es, vs, h => by
    rw [List.mapM_cons] at h
    obtain ⟨x, hx, h⟩ := Option.bind_eq_some_iff.1 h
    obtain ⟨rest, hrest, h⟩ := Option.bind_eq_some_iff.1 h
    obtain ⟨v, -, rfl⟩ := Option.map_eq_some_iff.1 hx
    cases h
    exact congrArg (e.1 :: ·) (keys_of_mapM hrest)

end Cartograph

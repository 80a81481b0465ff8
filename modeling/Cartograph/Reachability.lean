/-!
# Reachability in finite graphs

The members of a finite domain that a walk from some seeds can reach without leaving the domain
(`reach`). Each member found leaves the domain, so cycles end; a member is found exactly if a path
leads to it (`mem_reach_iff`).
-/

namespace Cartograph

variable {α : Type}

/-- The seeds from the first one on that is in the domain. -/
def liveSeeds [DecidableEq α] (domain seeds : List α) : List α := seeds.dropWhile (· ∉ domain)

theorem mem_domain_of_liveSeeds [DecidableEq α] {domain seeds rest : List α} {x : α}
    (h : liveSeeds domain seeds = x :: rest) : x ∈ domain := by
  have first := List.head?_dropWhile_not (· ∉ domain) seeds
  unfold liveSeeds at h
  rw [h] at first
  simpa using first

/-- The members of a domain that can be reached from seeds, each once, the nearer ones first. -/
def reach [DecidableEq α] (next : α → List α) (domain seeds : List α) : List α :=
  match _found : liveSeeds domain seeds with
  | [] => []
  | x :: rest => x :: reach next (domain.erase x) (rest ++ next x)
termination_by domain.length
decreasing_by
  have inside := mem_domain_of_liveSeeds _found
  have := List.length_erase_of_mem inside
  have := List.length_pos_of_mem inside
  omega

/-- A path inside a domain from one of the seeds to a member. -/
inductive Reached (next : α → List α) (domain seeds : List α) : α → Prop
  | seed {x : α} : x ∈ domain → x ∈ seeds → Reached next domain seeds x
  | step {x y : α} : Reached next domain seeds x → y ∈ domain → y ∈ next x →
      Reached next domain seeds y

variable {next : α → List α} {domain seeds : List α} {x y : α}

/-- What is reached is inside the domain. -/
theorem Reached.inside (h : Reached next domain seeds y) : y ∈ domain := by
  cases h with
  | seed inside _ => exact inside
  | step _ inside _ => exact inside

/-- A path in the rest of the domain, which may also begin behind a member `x` that was found. -/
theorem Reached.of_erase [DecidableEq α] (inside : x ∈ domain)
    (h : Reached next (domain.erase x) (seeds ++ next x) y) :
    Reached next domain (x :: seeds) y := by
  induction h with
  | seed hy hs =>
    rcases List.mem_append.1 hs with hs | hs
    · exact .seed (List.mem_of_mem_erase hy) (List.mem_cons_of_mem _ hs)
    · exact .step (.seed inside List.mem_cons_self) (List.mem_of_mem_erase hy) hs
  | step _ hy hn ih => exact .step ih (List.mem_of_mem_erase hy) hn

/-- Conversely, what is reached beside `x` is reached in the rest of the domain. -/
theorem Reached.erase [DecidableEq α] (h : Reached next domain (x :: seeds) y) (ne : y ≠ x) :
    Reached next (domain.erase x) (seeds ++ next x) y := by
  induction h with
  | seed hy hs =>
    rcases List.mem_cons.1 hs with rfl | hs
    · exact absurd rfl ne
    · exact .seed ((List.mem_erase_of_ne ne).2 hy) (List.mem_append_left _ hs)
  | @step z y _ hy hn ih =>
    have hy := (List.mem_erase_of_ne ne).2 hy
    by_cases hz : z = x
    · exact .seed hy (List.mem_append_right _ (hz ▸ hn))
    · exact .step (ih hz) hy hn

/-- A seed outside the domain leads nowhere. -/
theorem Reached.of_not_mem (outside : x ∉ domain) :
    Reached next domain (x :: seeds) y ↔ Reached next domain seeds y := by
  constructor
  · intro h
    induction h with
    | seed hy hs =>
      rcases List.mem_cons.1 hs with rfl | hs
      · exact absurd hy outside
      · exact .seed hy hs
    | step _ hy hn ih => exact .step ih hy hn
  · intro h
    induction h with
    | seed hy hs => exact .seed hy (List.mem_cons_of_mem _ hs)
    | step _ hy hn ih => exact .step ih hy hn

theorem Reached.liveSeeds_iff [DecidableEq α] :
    Reached next domain (liveSeeds domain seeds) y ↔ Reached next domain seeds y := by
  induction seeds with
  | nil => rfl
  | cons x seeds ih =>
    rw [liveSeeds, List.dropWhile_cons]
    split
    · next outside => rw [← liveSeeds, ih, Reached.of_not_mem (by simpa using outside)]
    · rfl

theorem mem_reach_iff [DecidableEq α] :
    y ∈ reach next domain seeds ↔ Reached next domain seeds y := by
  fun_induction reach next domain seeds with
  | case1 domain seeds found =>
    rw [← Reached.liveSeeds_iff, found]
    refine ⟨fun h => (List.not_mem_nil h).elim, fun h => ?_⟩
    induction h with
    | seed _ hs => exact (List.not_mem_nil hs).elim
    | step _ _ _ ih => exact (List.not_mem_nil ih).elim
  | case2 domain seeds x rest found ih =>
    have inside := mem_domain_of_liveSeeds found
    rw [← Reached.liveSeeds_iff, found, List.mem_cons, ih]
    constructor
    · rintro (rfl | h)
      · exact .seed inside List.mem_cons_self
      · exact h.of_erase inside
    · intro h
      by_cases e : y = x
      · exact .inl e
      · exact .inr (h.erase e)

theorem nodup_reach [DecidableEq α] (nodup : domain.Nodup) : (reach next domain seeds).Nodup := by
  fun_induction reach next domain seeds with
  | case1 => exact List.nodup_nil
  | case2 domain seeds x rest found ih =>
    refine List.nodup_cons.2 ⟨fun again => ?_, ih (nodup.erase x)⟩
    exact nodup.not_mem_erase (mem_reach_iff.1 again).inside

end Cartograph

import Cartograph.Rules.Aws
import Cartograph.Proofs.Tidying

/-!
# Placeholders and drawable graphs

Validation refuses a graph that is not drawable, but what it makes of one that is need not be: two
containers may get one placeholder between them (`Validation.validate_namesakes`). Only placeholders
can do that, and if none of them was there before, it is exactly if two containers share one
(`Validation.drawable_iff_nodup`).
-/

namespace Cartograph

open Graph Arrangement Containment

variable {p : Rules.Providers} {g g' : Graph} {keep : Bool}

namespace Validation

variable {r : Report}

/-- After validation two containers of a node can only be unrelated if the node is a placeholder or
    one of them is. -/
theorem Filled.drawable_iff {filled made : List NodeId} (drawable : Drawable p g)
    (h : Filled p g filled (g', made)) :
    Drawable p g' ↔ ∀ c a b, (c ∈ made ∨ a ∈ made ∨ b ∈ made) → a ≠ b →
      Holds p g' a c → Holds p g' b c → Related g' a b := by
  constructor
  · exact fun drawable c a b _ => drawable c a b
  intro atPlaceholders c a b ne ha hb
  by_cases placeholder : c ∈ made ∨ a ∈ made ∨ b ∈ made
  · exact atPlaceholders c a b placeholder ne ha hb
  simp only [not_or] at placeholder
  obtain ⟨hc, ma, mb⟩ := placeholder
  have before : ∀ {a}, a ∉ made → Holds p g' a c → Holds p g a c := by
    intro a ma held
    refine ⟨((h.edge a c).1 held.edge).resolve_right fun new => hc ?_, h.typeOf a ma ▸ held.isGroup⟩
    rw [show made = _ from h.made, new.2.1]
    exact List.mem_map_of_mem new.1
  have more : ∀ a c, g.Edge a c → g'.Edge a c := fun a c edge => (h.edge a c).2 (.inl edge)
  exact (drawable c a b ne (before ma ha) (before mb hb)).imp (·.mono more) (·.mono more)

/-- A new placeholder leads nowhere, and its containers lead nowhere else. -/
theorem Filled.not_above {filled made : List NodeId} {a b : NodeId}
    (h : Filled p g filled (g', made)) (fresh : ∀ n ∈ made, ¬g.contains n) (ha : a ∈ filled)
    (hb : g.contains b) : ¬g'.Above a b := by
  have leaf : ∀ c, ¬g'.Edge (placeholderFor a) c := by
    intro c edge
    have made_a : placeholderFor a ∈ made := by
      rw [show made = _ from h.made]
      exact List.mem_map_of_mem ha
    rcases (h.edge _ c).1 edge with old | ⟨inside, -, -⟩
    · exact fresh _ made_a old.contains
    · exact fresh _ made_a (h.inside _ inside)
  have ends : ∀ {b}, g'.Above a b → b = placeholderFor a := by
    intro b above
    induction above with
    | single edge =>
      rcases (h.edge a _).1 edge with old | ⟨-, e, -⟩
      · exact absurd old (h.empty a ha _)
      · exact e
    | tail _ edge ih => exact absurd (ih ▸ edge) (leaf _)
  intro above
  have e := ends above
  refine fresh b ?_ hb
  rw [show made = _ from h.made, e]
  exact List.mem_map_of_mem ha

/-- If no placeholder was there before, a drawable graph stays so exactly if every container has a
    placeholder of its own. -/
theorem Filled.drawable_iff_once {filled made : List NodeId} (wf : g.WellFormed)
    (drawable : Drawable p g) (once : filled.Nodup) (h : Filled p g filled (g', made))
    (fresh : ∀ n ∈ made, ¬g.contains n) : Drawable p g' ↔ made.Nodup := by
  have named : made = filled.map placeholderFor := h.made
  have old : ∀ {a}, a ∈ filled → a ∉ made := fun ha inside => fresh _ inside (h.inside _ ha)
  have held : ∀ {a}, a ∈ filled → Holds p g' a (placeholderFor a) := by
    intro a ha
    refine ⟨(h.edge a _).2 (.inr ⟨ha, rfl, fun e => old ha ?_⟩), ?_⟩
    · rw [named, e]
      exact List.mem_map_of_mem ha
    · rw [h.typeOf a (old ha)]
      exact h.isGroup a ha (old ha)
  constructor
  · intro drawable'
    rw [named]
    refine List.pairwise_map.2 (List.Pairwise.imp_of_mem (fun {a b} ha hb ne same => ?_) once)
    -- Two containers with one placeholder would have to be related, but neither leads anywhere.
    rcases drawable' _ a b ne (held ha) (same ▸ held hb) with above | above
    · exact h.not_above fresh ha (h.inside b hb) above
    · exact h.not_above fresh hb (h.inside a ha) above
  · intro nodup
    rw [h.drawable_iff drawable]
    have source : ∀ {a c}, g'.Edge a c → a ∉ made := by
      intro a c edge inside
      rcases (h.edge a c).1 edge with edge | ⟨ha, -, -⟩
      · exact fresh a inside edge.contains
      · exact old ha inside
    rintro c a b (placeholder | inside | inside) ne ha hb
    · have filler : ∀ {a}, Holds p g' a c → a ∈ filled ∧ c = placeholderFor a := by
        intro a held
        rcases (h.edge a c).1 held.edge with edge | ⟨ha, e, -⟩
        · exact absurd (wf.closed a c edge) (fresh c placeholder)
        · exact ⟨ha, e⟩
      obtain ⟨fa, ea⟩ := filler ha
      obtain ⟨fb, eb⟩ := filler hb
      rw [named] at nodup
      exact absurd (List.inj_on_of_nodup_map nodup fa fb (ea ▸ eb)) ne
    · exact absurd inside (source ha.edge)
    · exact absurd inside (source hb.edge)

/-- Where a tidied graph is drawable: only placeholders can make it otherwise, and if none of them
    was there before, they do so exactly if two containers share one. -/
theorem drawable_iff_nodup (wf : g.WellFormed) (ok : validate keep p g = .ok (g', r)) :
    (Drawable p g' ↔ ∀ c a b, (c ∈ r.placeholders ∨ a ∈ r.placeholders ∨ b ∈ r.placeholders) →
      a ≠ b → Holds p g' a c → Holds p g' b c → Related g' a b) ∧
    ((∀ n ∈ r.placeholders, ¬g.contains n) → (Drawable p g' ↔ r.placeholders.Nodup)) := by
  obtain ⟨drawable, rfl, rfl⟩ := (validate_ok_iff wf).1 ok
  have wf' : (kept keep p g).WellFormed := wellFormed_kept keep wf
  have drawable' : Drawable p (kept keep p g) := by
    intro c a b ne ha hb
    refine (drawable c a b ne ((holds_kept wf).1 ha) ((holds_kept wf).1 hb)).imp ?_ ?_
    · exact fun above => above.mono fun _ _ => (edge_kept wf).2
    · exact fun above => above.mono fun _ _ => (edge_kept wf).2
  obtain ⟨filled, once, h⟩ := filled_fillAll (p := p) wf'
  refine ⟨h.drawable_iff drawable', fun fresh => ?_⟩
  exact h.drawable_iff_once wf' drawable' once fun n hn there =>
    fresh n hn (contains_of_kept wf there)

/-- Two networks whose names placeholders do not tell apart. -/
def namesakes : Graph :=
  ((Graph.empty "aws").insertNode "aws_vpc.a-b" (NodeMeta.forId "aws_vpc.a-b")).insertNode
    "aws_vpc.a_b" (NodeMeta.forId "aws_vpc.a_b")

theorem wellFormed_namesakes : namesakes.WellFormed :=
  wellFormed_insertNode (wellFormed_insertNode (wellFormed_empty "aws"))

theorem drawable_namesakes : Drawable p namesakes := by
  intro c a b _ ha
  have edge := ha.edge
  unfold namesakes Edge at edge
  rw [children_insertNode, children_insertNode] at edge
  exact absurd edge List.not_mem_nil

/-- The placeholder of both. -/
def commonPlaceholder : NodeId := "tv_placeholder.aws_vpc_a_b"

/-- Providers with the containers of the table for networks. -/
def networks : Rules.Providers := ⟨[⟨Rules.Aws.table, [], []⟩]⟩

/-- Both get the same placeholder. -/
theorem fillAll_namesakes :
    isConflict networks (fillAll networks (kept false networks namesakes)).1 "aws_vpc.a-b"
      "aws_vpc.a_b" commonPlaceholder = true ∧
    (fillAll networks (kept false networks namesakes)).2 =
      [commonPlaceholder, commonPlaceholder] := by
  decide +kernel

/-- A tidied graph need not be drawable. -/
theorem validate_namesakes : namesakes.WellFormed ∧
    ∃ g' r, validate false networks namesakes = .ok (g', r) ∧ ¬Drawable networks g' := by
  obtain ⟨_, -, filled⟩ := filled_fillAll (p := networks)
    (wellFormed_kept (p := networks) false wellFormed_namesakes)
  exact ⟨wellFormed_namesakes, _, _,
    validate_of_drawable wellFormed_namesakes drawable_namesakes false,
    not_drawable_of_conflict filled.wellFormed.nodup fillAll_namesakes.1⟩

/-- The theorem at a graph whose containers share their placeholder. -/
theorem drawable_iff_nodup_namesakes :
    ∃ g' r, validate false networks namesakes = .ok (g', r) ∧
      (∀ n ∈ r.placeholders, ¬namesakes.contains n) ∧
      (Drawable networks g' ↔ r.placeholders.Nodup) := by
  have ok := validate_of_drawable (p := networks) wellFormed_namesakes drawable_namesakes false
  have fresh : ∀ n ∈ (fillAll networks (kept false networks namesakes)).2,
      ¬namesakes.contains n := by
    rw [fillAll_namesakes.2]
    decide +kernel
  exact ⟨_, _, ok, fresh, (drawable_iff_nodup wellFormed_namesakes ok).2 fresh⟩

end Validation

end Cartograph

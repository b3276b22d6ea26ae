import Mathlib.Data.List.Pairwise

/-!
# Greedy filtering

`List.pwFilter R` keeps, from the back of a list, what is related by `R` to all
that is kept already. When the right answer `G` is known and its members are
related to each other, the filter finds it under a simple condition: whatever
is outside of `G` comes after a member of `G` that excludes it.
-/

namespace List

variable {α : Type*} {R : α → α → Prop} [DecidableRel R] {G : Set α} {l : List α}

theorem nodup_pwFilter (irrefl : ∀ a, ¬R a a) (l : List α) : (l.pwFilter R).Nodup := by
  apply (pairwise_pwFilter l).imp
  rintro a b related rfl
  exact irrefl a related

/-- One more element: a new one of `G` is kept, one outside is dropped when it is excluded. -/
theorem mem_pwFilter_cons (irrefl : ∀ a, ¬R a a) (apart : ∀ a ∈ G, ∀ b ∈ G, a ≠ b → R a b)
    (exact : ∀ a, a ∈ l.pwFilter R ↔ a ∈ G ∧ a ∈ l) {e : α}
    (excluded : e ∉ G → ∃ g ∈ l, g ∈ G ∧ ¬R e g) (a : α) :
    a ∈ (e :: l).pwFilter R ↔ a ∈ G ∧ a ∈ e :: l := by
  by_cases good : e ∈ G
  · by_cases repeated : e ∈ l
    · have skip : ¬∀ b ∈ l.pwFilter R, R e b :=
        fun all => irrefl e (all e ((exact e).2 ⟨good, repeated⟩))
      rw [pwFilter_cons_of_neg skip, exact, mem_cons]
      constructor
      · exact fun ⟨ga, la⟩ => ⟨ga, .inr la⟩
      · rintro ⟨ga, rfl | la⟩
        · exact ⟨ga, repeated⟩
        · exact ⟨ga, la⟩
    · have keep : ∀ b ∈ l.pwFilter R, R e b := by
        intro b hb
        obtain ⟨gb, lb⟩ := (exact b).1 hb
        exact apart e good b gb fun same => repeated (same ▸ lb)
      rw [pwFilter_cons_of_pos keep, mem_cons, mem_cons, exact]
      constructor
      · rintro (rfl | ⟨ga, la⟩)
        · exact ⟨good, .inl rfl⟩
        · exact ⟨ga, .inr la⟩
      · rintro ⟨ga, rfl | la⟩
        · exact .inl rfl
        · exact .inr ⟨ga, la⟩
  · obtain ⟨g, hg, gg, close⟩ := excluded good
    have skip : ¬∀ b ∈ l.pwFilter R, R e b := fun all => close (all g ((exact g).2 ⟨gg, hg⟩))
    rw [pwFilter_cons_of_neg skip, exact, mem_cons]
    constructor
    · exact fun ⟨ga, la⟩ => ⟨ga, .inr la⟩
    · rintro ⟨ga, rfl | la⟩
      · exact absurd ga good
      · exact ⟨ga, la⟩

/-- A whole block whose wrong elements are excluded by what came before it. -/
theorem mem_pwFilter_append (irrefl : ∀ a, ¬R a a) (apart : ∀ a ∈ G, ∀ b ∈ G, a ≠ b → R a b)
    (exact : ∀ a, a ∈ l.pwFilter R ↔ a ∈ G ∧ a ∈ l) {block : List α}
    (excluded : ∀ e ∈ block, e ∉ G → ∃ g ∈ l, g ∈ G ∧ ¬R e g) (a : α) :
    a ∈ (block ++ l).pwFilter R ↔ a ∈ G ∧ a ∈ block ++ l := by
  induction block generalizing a with
  | nil => exact exact a
  | cons e block ih =>
    have before := ih fun e' he => excluded e' (mem_cons_of_mem e he)
    apply mem_pwFilter_cons irrefl apart before
    intro wrong
    obtain ⟨g, hg, rest⟩ := excluded e mem_cons_self wrong
    exact ⟨g, mem_append_right _ hg, rest⟩

theorem pwFilter_suffix (m l : List α) : l.pwFilter R ⊆ (m ++ l).pwFilter R := by
  induction m with
  | nil => exact Subset.refl _
  | cons e m ih =>
    by_cases all : ∀ b ∈ (m ++ l).pwFilter R, R e b
    · rw [cons_append, pwFilter_cons_of_pos all]
      exact fun a ha => mem_cons_of_mem e (ih ha)
    · rw [cons_append, pwFilter_cons_of_neg all]
      exact ih

/-- What is dropped is excluded by something kept that came before. -/
theorem exists_of_not_mem_pwFilter {e : α} (mem : e ∈ l) (dropped : e ∉ l.pwFilter R) :
    ∃ m t, l = m ++ e :: t ∧ ∃ g ∈ t, g ∈ l.pwFilter R ∧ ¬R e g := by
  obtain ⟨m, t, rfl⟩ := append_of_mem mem
  by_cases all : ∀ g ∈ t.pwFilter R, R e g
  · have here : e ∈ (e :: t).pwFilter R := by
      rw [pwFilter_cons_of_pos all]
      exact mem_cons_self
    exact absurd (pwFilter_suffix m (e :: t) here) dropped
  · simp only [not_forall] at all
    obtain ⟨g, hg, close⟩ := all
    have suffix := pwFilter_suffix (R := R) (m ++ [e]) t hg
    rw [append_assoc] at suffix
    exact ⟨m, t, rfl, g, pwFilter_subset t hg, suffix, close⟩

/-- The condition is necessary: when all that is kept is in `G`, an element
outside of it was excluded by one of `G` that came before. -/
theorem exists_excluding {m : List α} {e : α} (kept : ∀ a ∈ (m ++ e :: l).pwFilter R, a ∈ G)
    (wrong : e ∉ G) : ∃ g ∈ l, g ∈ G ∧ ¬R e g := by
  have within : ∀ a ∈ (e :: l).pwFilter R, a ∈ G := fun a ha => kept a (pwFilter_suffix m _ ha)
  by_cases all : ∀ g ∈ l.pwFilter R, R e g
  · have here : e ∈ (e :: l).pwFilter R := by
      rw [pwFilter_cons_of_pos all]
      exact mem_cons_self
    exact absurd (within e here) wrong
  · rw [pwFilter_cons_of_neg all] at within
    simp only [not_forall] at all
    obtain ⟨g, hg, close⟩ := all
    exact ⟨g, pwFilter_subset l hg, within g hg, close⟩

end List

import Mathlib.Data.List.Induction

/-!
# Interleavings

`Interleaves programs trace`: the trace runs every program to its end, one
step of one program at a time. What a trace leaves in a cell that every step
either overwrites or leaves alone is what its last writer wrote.
-/

/-- The trace is an interleaving of the programs. -/
inductive Interleaves {α : Type*} : List (List α) → List α → Prop
  | done {programs : List (List α)} (ended : ∀ p ∈ programs, p = []) : Interleaves programs []
  | step {programs : List (List α)} {i : Nat} {a : α} {rest trace : List α}
      (next : programs[i]? = some (a :: rest)) (more : Interleaves (programs.set i rest) trace) :
      Interleaves programs (a :: trace)

namespace Interleaves

variable {α β : Type*}

/-- The steps of the trace are those of the programs. -/
theorem mem_iff {programs : List (List α)} {trace : List α} (h : Interleaves programs trace)
    (x : α) : x ∈ trace ↔ ∃ p ∈ programs, x ∈ p := by
  induction h with
  | done ended =>
    refine iff_of_false (by simp) ?_
    rintro ⟨p, member, inside⟩
    simp [ended p member] at inside
  | @step programs i a rest trace next more ih =>
    obtain ⟨bound, here⟩ := List.getElem?_eq_some_iff.1 next
    rw [List.mem_cons, ih]
    constructor
    · rintro (rfl | ⟨p, member, inside⟩)
      · exact ⟨x :: rest, List.mem_of_getElem? next, List.mem_cons_self⟩
      · rcases List.mem_or_eq_of_mem_set member with old | rfl
        · exact ⟨p, old, inside⟩
        · exact ⟨a :: p, List.mem_of_getElem? next, List.mem_cons_of_mem _ inside⟩
    · rintro ⟨p, member, inside⟩
      obtain ⟨j, before, rfl⟩ := List.mem_iff_getElem.1 member
      by_cases same : i = j
      · subst same
        rw [here] at inside
        rcases List.mem_cons.1 inside with rfl | inside
        · exact .inl rfl
        · exact .inr ⟨rest, List.mem_set bound rest, inside⟩
      · refine .inr ⟨programs[j], ?_, inside⟩
        rw [← List.getElem_set_ne same (by simpa using before)]
        exact List.getElem_mem _

end Interleaves

namespace LastWrite

variable {α β σ : Type*}

/-- The last value the steps write, as `f` reads it off a step. -/
def last (f : α → Option β) (steps : List α) : Option β := (steps.filterMap f).getLast?

theorem last_append (f : α → Option β) (earlier later : List α) :
    last f (earlier ++ later) = (last f later).or (last f earlier) := by
  rw [last, List.filterMap_append, List.getLast?_append]
  rfl

theorem last_snoc (f : α → Option β) (steps : List α) (a : α) :
    last f (steps ++ [a]) = (f a).or (last f steps) := by
  rw [last_append]
  cases written : f a with
  | none => simp [last, written]
  | some b => simp [last, written]

theorem last_filterMap {γ : Type*} (f : β → Option γ) (g : α → Option β) (steps : List α) :
    last f (steps.filterMap g) = last (fun a => (g a).bind f) steps := by
  rw [last, List.filterMap_filterMap, last]

/-- The last value written was written by a step. -/
theorem exists_of_last {f : α → Option β} {steps : List α} {b : β} (h : last f steps = some b) :
    ∃ a ∈ steps, f a = some b :=
  List.mem_filterMap.1 (List.mem_of_getLast? h)

theorem last_ne_none {f : α → Option β} {steps : List α} {a : α} {b : β} (member : a ∈ steps)
    (written : f a = some b) : last f steps ≠ none := by
  rw [last, ne_eq, List.getLast?_eq_none_iff]
  intro none
  have inside : b ∈ steps.filterMap f := List.mem_filterMap.2 ⟨a, member, written⟩
  simp [none] at inside

/-- **The last write stays.** -/
theorem foldl_eq_last {step : σ → α → σ} {f : α → Option β} (read : σ → β)
    (write : ∀ s a, read (step s a) = (f a).getD (read s)) (s : σ) (steps : List α) :
    read (steps.foldl step s) = (last f steps).getD (read s) := by
  induction steps using List.reverseRecOn with
  | nil => rfl
  | append_singleton steps a ih =>
    rw [List.foldl_append, List.foldl_cons, List.foldl_nil, write, last_snoc, ih]
    cases f a <;> rfl

end LastWrite

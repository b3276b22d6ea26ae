import Mathlib.Data.List.Basic
import Mathlib.Data.List.Pairwise

/-!
# A conveyor

Things are numbered as they are made and stand in one line, from those that
came out to the newest. Whatever gets lost on the way, and however the newest
pushes out what it catches up with, the line stays in order (`Ordered.lose`,
`Ordered.add`); and while nothing but older things is lost, the newest is at
its end (`Newest`).
-/

namespace Conveyor

variable {next : ℕ} {line line' : List ℕ}

/-- A line of things made before the next one, in the order they were made. -/
structure Ordered (next : ℕ) (line : List ℕ) : Prop where
  sorted : line.Pairwise (· < ·)
  below : ∀ n ∈ line, n < next

theorem Ordered.empty : Ordered next [] := ⟨.nil, by simp⟩

/-- Something gets lost. -/
theorem Ordered.lose (h : Ordered next line) (sub : line'.Sublist line) : Ordered next line' where
  sorted := h.sorted.sublist sub
  below n mem := h.below n (sub.subset mem)

/-- The next thing is made, and something may get lost. -/
theorem Ordered.add (h : Ordered next line) (sub : line'.Sublist (line ++ [next])) :
    Ordered (next + 1) line' := by
  refine Ordered.lose ?_ sub
  constructor
  · rw [List.pairwise_append]
    refine ⟨h.sorted, List.pairwise_singleton _ _, ?_⟩
    intro n mem last is_last
    rw [List.mem_singleton.1 is_last]
    exact h.below n mem
  · intro n mem
    rcases List.mem_append.1 mem with old | new
    · exact Nat.lt_succ_of_lt (h.below n old)
    · rw [List.mem_singleton.1 new]
      exact Nat.lt_succ_self next

/-- The newest thing is at the end of the line. -/
def Newest (next : ℕ) (line : List ℕ) : Prop := 0 < next → line.getLast? = some (next - 1)

theorem Newest.zero : Newest 0 line := fun pos => absurd pos (Nat.lt_irrefl 0)

/-- What is made last stands last. -/
theorem Newest.add : Newest (next + 1) (line ++ [next]) := by
  intro _
  rw [List.getLast?_concat, Nat.add_sub_cancel]

/-! ## Taking out of a queue -/

section TakeOut

variable {α β : Type*} {f : α → Option β} {queue : List α} {i : ℕ} {a : α}

theorem split_at (here : queue[i]? = some a) : queue = queue.take i ++ a :: queue.drop (i + 1) := by
  obtain ⟨inside, rfl⟩ := List.getElem?_eq_some_iff.1 here
  rw [List.getElem_cons_drop, List.take_append_drop]

/-- What is taken out, and what stays, is what was there. -/
theorem take_out_perm (here : queue[i]? = some a) :
    ((f a).toList ++ (queue.eraseIdx i).filterMap f).Perm (queue.filterMap f) := by
  conv_rhs => rw [split_at here]
  rw [List.eraseIdx_eq_take_drop_succ, List.filterMap_append, List.filterMap_append,
    List.filterMap_cons]
  cases kept : f a with
  | none => exact List.Perm.refl _
  | some b => simpa using List.perm_middle.symm

/-- What is taken out was the first of its kind. -/
theorem take_out_first (here : queue[i]? = some a)
    (first : f a ≠ none → ∀ b ∈ queue.take i, f b = none) :
    (f a).toList ++ (queue.eraseIdx i).filterMap f = queue.filterMap f := by
  conv_rhs => rw [split_at here]
  rw [List.eraseIdx_eq_take_drop_succ, List.filterMap_append, List.filterMap_append,
    List.filterMap_cons]
  cases kept : f a with
  | none => rfl
  | some b =>
    have none_before : (queue.take i).filterMap f = [] := by
      rw [List.filterMap_eq_nil_iff]
      exact first (by simp [kept])
    rw [none_before]
    rfl

end TakeOut

end Conveyor

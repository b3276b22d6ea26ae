import Mathlib.Algebra.Order.Group.Defs
import Mathlib.Data.List.Count

/-!
# Sliding windows

A limiter that keeps a list of times and filters it at every use. `recent` is
what the filter leaves. Any set of times that lie less than the window's width
apart has a bounded number of admitted times (`countP_snoc_le`), whether or not
it ends now, and the pruned list answers like the whole history
(`recent_prune`).
-/

namespace SlidingWindow

variable {T : Type*} [AddCommGroup T] [LinearOrder T] [IsOrderedAddMonoid T] {w now later : T}
  {l h : List T}

/-- The times less than `w` before `now`. -/
def recent (w now : T) (l : List T) : List T := l.filter fun t => now - t < w

/-- All times of `s` lie less than `w` apart. -/
def Narrow (w : T) (s : T → Bool) : Prop := ∀ x y, s x → s y → y - x < w

omit [IsOrderedAddMonoid T] in
theorem recent_append (l m : List T) : recent w now (l ++ m) = recent w now l ++ recent w now m :=
  List.filter_append ..

omit [IsOrderedAddMonoid T] in
theorem length_recent : (recent w now l).length = l.countP fun t => now - t < w :=
  (List.countP_eq_length_filter ..).symm

theorem narrow_closedOpen (a : T) : Narrow w fun t => a ≤ t ∧ t < a + w := by
  intro x y hx hy
  have hx := (of_decide_eq_true hx).1
  have hy := (of_decide_eq_true hy).2
  rw [sub_lt_iff_lt_add]
  exact hy.trans_le (by rw [add_comm]; exact add_le_add_right hx w)

theorem narrow_openClosed (a : T) : Narrow w fun t => a < t ∧ t ≤ a + w := by
  intro x y hx hy
  have hx := (of_decide_eq_true hx).1
  have hy := (of_decide_eq_true hy).2
  rw [sub_lt_iff_lt_add]
  exact hy.trans_lt (by rw [add_comm]; exact add_lt_add_right hx w)

/-- What was pruned stays out of every later window. -/
theorem recent_prune (passed : now ≤ later) :
    recent w later (recent w now l) = recent w later l := by
  rw [recent, recent, recent, List.filter_filter]
  apply List.filter_congr
  intro t _
  have earlier : later - t < w → now - t < w := (sub_le_sub_right passed t).trans_lt
  by_cases new : later - t < w
  · simp [new, earlier new]
  · simp [new]

/-- A list that answers like the history now does so later. -/
theorem recent_later (passed : now ≤ later) (same : recent w now l = recent w now h) :
    recent w later l = recent w later h := by
  rw [← recent_prune passed, same, recent_prune passed]

omit [IsOrderedAddMonoid T] in
/-- **One more admitted time**: when fewer than `n` are recent, every narrow set of times still
holds at most `n`. -/
theorem countP_snoc_le {n : ℕ} (room : (recent w now l).length < n)
    (bounded : ∀ s, Narrow w s → l.countP s ≤ n) {s : T → Bool} (narrow : Narrow w s) :
    (l ++ [now]).countP s ≤ n := by
  rw [List.countP_append, List.countP_singleton]
  split
  next last =>
    have fewer : l.countP s ≤ (recent w now l).length := by
      rw [length_recent]
      apply List.countP_mono_left
      intro t _ member
      exact decide_eq_true (narrow t now member last)
    omega
  next =>
    rw [Nat.add_zero]
    exact bounded s narrow

end SlidingWindow

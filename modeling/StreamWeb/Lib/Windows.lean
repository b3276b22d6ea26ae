import Mathlib.Data.Int.Order.Basic
import Mathlib.Data.List.Infix
import Mathlib.Data.List.Range
import Mathlib.Tactic.Linarith

/-!
# Windows behind a growing line

A reader looks again and again at the last `w` positions of a line that grows.
`Windows.covered_iff` says how far two looks may be apart so that no stretch of a
given length falls between the windows, and `Windows.sees_between` that the
looks at one stretch follow each other.
-/

namespace Windows

/-- The `n` positions from `p` on. -/
def stretch (p : ℤ) (n : ℕ) : List ℤ := (List.range n).map fun i : ℕ => p + i

/-- The window of the last `w` positions in front of `stop` holds the `n` from `p` on. -/
def Sees (w : ℕ) (stop p : ℤ) (n : ℕ) : Prop := stop ≤ p + w ∧ p + n ≤ stop

theorem stretch_append (p : ℤ) (m n : ℕ) : stretch p (m + n) = stretch p m ++ stretch (p + m) n := by
  unfold stretch
  rw [List.range_add, List.map_append, List.map_map]
  congr 1
  apply List.map_congr_left
  intro i _
  simp only [Function.comp_apply, Nat.cast_add, add_assoc]

/-- What is in sight is a stretch of the window. -/
theorem Sees.isInfix {w n : ℕ} {stop p : ℤ} (h : Sees w stop p n) :
    stretch p n <:+: stretch (stop - w) w := by
  obtain ⟨low, high⟩ := h
  obtain ⟨front, isFront⟩ := Int.eq_ofNat_of_zero_le (show 0 ≤ p - (stop - w) by omega)
  obtain ⟨rest, isRest⟩ := Int.eq_ofNat_of_zero_le (show 0 ≤ stop - (p + n) by omega)
  have length : w = front + (n + rest) := by omega
  have at_p : stop - w + front = p := by omega
  refine ⟨stretch (stop - w) front, stretch (p + n) rest, ?_⟩
  conv_rhs => rw [length]
  rw [stretch_append, stretch_append, List.append_assoc, ← length, at_p]

section Looks

variable {stops : ℕ → ℤ} {w n : ℕ}

/-- The looks at a stretch follow each other. -/
theorem sees_between (grows : ∀ j k, j ≤ k → stops j ≤ stops k) {p : ℤ} {i j k : ℕ} (first : Sees w (stops i) p n)
    (last : Sees w (stops k) p n) (after : i ≤ j) (before : j ≤ k) : Sees w (stops j) p n := by
  have low := grows i j after
  have high := grows j k before
  unfold Sees at *
  omega

/-- A stretch that ends between two looks is seen by the second, if the next is not too late. -/
theorem exists_sees {K : ℕ} (near : ∀ k < K, stops (k + 1) ≤ stops k + (w - n) + 1) (fits : n ≤ w) {p : ℤ}
    (after : stops 0 ≤ p + n) (before : p + n ≤ stops K) : ∃ k ≤ K, Sees w (stops k) p n := by
  induction K with
  | zero => exact ⟨0, le_rfl, by unfold Sees; omega⟩
  | succ K ih =>
    by_cases earlier : p + n ≤ stops K
    · obtain ⟨k, le, sees⟩ := ih (fun k lt => near k (Nat.lt_succ_of_lt lt)) earlier
      exact ⟨k, Nat.le_succ_of_le le, sees⟩
    · have gap := near K (Nat.lt_succ_self K)
      exact ⟨K + 1, le_rfl, by unfold Sees; omega⟩

/-- **No stretch is missed** if and only if the looks are near each other. -/
theorem covered_iff (grows : ∀ j k, j ≤ k → stops j ≤ stops k) (fits : n ≤ w) (K : ℕ) :
    (∀ p : ℤ, stops 0 ≤ p + n → p + n ≤ stops K → ∃ k ≤ K, Sees w (stops k) p n) ↔
      ∀ k < K, stops (k + 1) ≤ stops k + (w - n) + 1 := by
  constructor
  · intro covered k lt
    -- the stretch that ends right behind a look
    by_contra far
    have first := grows 0 k (Nat.zero_le k)
    have last : stops (k + 1) ≤ stops K := grows _ _ lt
    obtain ⟨j, -, low, high⟩ := covered (stops k + 1 - n) (by omega) (by omega)
    rcases Nat.lt_or_ge k j with later | earlier
    · have : stops (k + 1) ≤ stops j := grows _ _ later
      omega
    · have := grows j k earlier
      omega
  · intro near p after before
    exact exists_sees near fits after before

/-- Looks that are apart see a stretch a few times only. -/
theorem sees_few {gap : ℕ} (apart : ∀ k, stops k + gap ≤ stops (k + 1)) {p : ℤ} {i k : ℕ} (order : i ≤ k)
    (first : Sees w (stops i) p n) (last : Sees w (stops k) p n) : (k - i) * gap + n ≤ w := by
  have spread : ∀ m, stops i + (m * gap : ℕ) ≤ stops (i + m) := by
    intro m
    induction m with
    | zero => simp
    | succ m ih =>
      have := apart (i + m)
      rw [Nat.succ_mul, ← Nat.add_assoc]
      omega
  have far := spread (k - i)
  rw [Nat.add_sub_cancel' order] at far
  unfold Sees at *
  omega

end Looks

end Windows

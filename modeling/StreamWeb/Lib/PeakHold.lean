import Mathlib.Algebra.Order.Ring.Defs
import Mathlib.Data.List.Induction
import Mathlib.Order.Bounds.Basic

/-!
# Peak hold with decay

A meter that shows the largest input and lets what it held before decay by a
factor. `PeakHold.isGreatest_shown` says what it shows without the loop: the
greatest of all inputs, each decayed by its age.
-/

namespace PeakHold

variable {K : Type*} [Semiring K] [LinearOrder K] [IsStrictOrderedRing K] {d : K} {xs : List K}

/-- What is shown behind the inputs. -/
def shown (d : K) (xs : List K) : K := xs.foldl (fun held x => max (held * d) x) 0

/-- The inputs, each decayed by the number of inputs behind it. -/
def decayed (d : K) (xs : List K) : Set K :=
  {v | ∃ k x, xs[k]? = some x ∧ v = x * d ^ (xs.length - 1 - k)}

omit [IsStrictOrderedRing K] in
theorem shown_snoc (x : K) : shown d (xs ++ [x]) = max (shown d xs * d) x := by
  rw [shown, List.foldl_append]
  rfl

/-- One more input makes the others older. -/
theorem age_snoc {α : Type*} {xs : List α} {x : α} {k : ℕ} (inside : k < xs.length) :
    (xs ++ [x]).length - 1 - k = xs.length - 1 - k + 1 := by
  rw [List.length_append, List.length_singleton]
  omega

omit [LinearOrder K] [IsStrictOrderedRing K] in
theorem mem_decayed_snoc {x v : K} :
    v ∈ decayed d (xs ++ [x]) ↔ v = x ∨ ∃ u ∈ decayed d xs, v = u * d := by
  constructor
  · rintro ⟨k, y, here, rfl⟩
    rcases Nat.lt_or_ge k xs.length with inside | behind
    · rw [List.getElem?_append_left inside] at here
      refine .inr ⟨_, ⟨k, y, here, rfl⟩, ?_⟩
      rw [age_snoc inside, pow_succ, mul_assoc]
    · rw [List.getElem?_append_right behind] at here
      obtain ⟨last, same⟩ := List.getElem?_eq_some_iff.1 here
      rw [List.length_singleton] at last
      have age : (xs ++ [x]).length - 1 - k = 0 := by
        rw [List.length_append, List.length_singleton]
        omega
      rw [age, pow_zero, mul_one, ← same]
      left
      simp
  · rintro (rfl | ⟨_, ⟨k, y, here, rfl⟩, rfl⟩)
    · refine ⟨xs.length, v, by simp, ?_⟩
      have age : (xs ++ [v]).length - 1 - xs.length = 0 := by
        rw [List.length_append, List.length_singleton]
        omega
      rw [age, pow_zero, mul_one]
    · obtain ⟨inside, _⟩ := List.getElem?_eq_some_iff.1 here
      refine ⟨k, y, by rw [List.getElem?_append_left inside, here], ?_⟩
      rw [age_snoc inside, pow_succ, mul_assoc]

/-- **The greatest of the decayed inputs** is shown. -/
theorem isGreatest_shown (decay : 0 ≤ d) (nonneg : ∀ x ∈ xs, 0 ≤ x) (some_input : xs ≠ []) :
    IsGreatest (decayed d xs) (shown d xs) := by
  induction xs using List.reverseRecOn with
  | nil => exact absurd rfl some_input
  | append_singleton xs x ih =>
    have new := nonneg x (by simp)
    rw [shown_snoc]
    rcases List.eq_nil_or_concat xs with rfl | ⟨init, y, isConcat⟩
    · -- the first input is shown as it is
      have first : max (shown d [] * d) x = x := by
        rw [shown, List.foldl_nil, zero_mul, max_eq_right new]
      rw [first]
      refine ⟨mem_decayed_snoc.2 (.inl rfl), ?_⟩
      intro v mem
      rcases mem_decayed_snoc.1 mem with rfl | ⟨u, ⟨k, z, none, -⟩, -⟩
      · exact le_rfl
      · cases none
    · have ne : xs ≠ [] := by
        rw [isConcat]
        simp
      obtain ⟨held, above⟩ := ih (fun z mem => nonneg z (List.mem_append_left _ mem)) ne
      constructor
      · rcases max_choice (shown d xs * d) x with old | fresh
        · rw [old]
          exact mem_decayed_snoc.2 (.inr ⟨_, held, rfl⟩)
        · rw [fresh]
          exact mem_decayed_snoc.2 (.inl rfl)
      · intro v mem
        rcases mem_decayed_snoc.1 mem with rfl | ⟨u, old, rfl⟩
        · exact le_max_right _ _
        · exact le_max_of_le_left (mul_le_mul_of_nonneg_right (above old) decay)

end PeakHold

import Mathlib.Analysis.Real.Sqrt
import Mathlib.Tactic.Linarith
import Mathlib.Tactic.Positivity
import StreamWeb.Py.Double

/-!
# Rounding to decimals

`round(x, d)` of a rational, and of the square root of one, which is computed
without the root itself. Either is within half a unit of the last place.
-/

namespace StreamWeb.Py

/-- `round(x, d)` -/
def roundTo (d : ℕ) (x : ℚ) : ℚ := round (x * 10 ^ d) / 10 ^ d

/-- `round(sqrt(v), d)` of a `v` that is not negative. -/
def roundSqrt (d : ℕ) (v : ℚ) : ℚ :=
  let scaled := v * 10 ^ (2 * d)
  let m := Nat.sqrt ⌊scaled⌋.toNat
  let half := ((m : ℚ) + 1 / 2) ^ 2
  (if scaled < half then (m : ℚ)
    else if half < scaled then m + 1
    else if m % 2 = 0 then m else m + 1) / 10 ^ d

theorem abs_roundTo_sub (d : ℕ) (x : ℚ) : |roundTo d x - x| ≤ 1 / 2 / 10 ^ d := by
  have pos : (0 : ℚ) < 10 ^ d := by positivity
  have scale : roundTo d x - x = (round (x * 10 ^ d) - x * 10 ^ d) / 10 ^ d := by
    rw [roundTo, sub_div, mul_div_assoc, div_self pos.ne', mul_one]
  rw [scale, abs_div, abs_of_pos pos]
  exact div_le_div_of_nonneg_right (abs_round_sub _) pos.le

/-- The integer part of a square root, and the place of the root in front of its middle or behind it. -/
theorem sqrt_floor_bounds {x : ℚ} (nonneg : 0 ≤ x) :
    (Nat.sqrt ⌊x⌋.toNat : ℝ) ≤ Real.sqrt x ∧ Real.sqrt x < Nat.sqrt ⌊x⌋.toNat + 1 := by
  have floor_cast : ((⌊x⌋.toNat : ℕ) : ℚ) = ⌊x⌋ := by
    have := Int.toNat_of_nonneg (Int.floor_nonneg.2 nonneg)
    exact_mod_cast this
  have floor_le : ((⌊x⌋.toNat : ℕ) : ℝ) ≤ (x : ℝ) := by
    have : ((⌊x⌋.toNat : ℕ) : ℚ) ≤ x := floor_cast ▸ Int.floor_le x
    exact_mod_cast this
  have lt_floor : (x : ℝ) < ((⌊x⌋.toNat : ℕ) : ℝ) + 1 := by
    have : x < ((⌊x⌋.toNat : ℕ) : ℚ) + 1 := floor_cast ▸ Int.lt_floor_add_one x
    exact_mod_cast this
  constructor
  · apply Real.le_sqrt_of_sq_le
    have := Nat.sqrt_le' ⌊x⌋.toNat
    exact le_trans (by exact_mod_cast this) floor_le
  · rw [Real.sqrt_lt' (by positivity)]
    have := Nat.succ_le_of_lt (Nat.lt_succ_sqrt' ⌊x⌋.toNat)
    refine lt_of_lt_of_le lt_floor ?_
    exact_mod_cast this

/-- **The rounded root** is within half a unit of its last place of the real one. -/
theorem abs_roundSqrt_sub (d : ℕ) {v : ℚ} (nonneg : 0 ≤ v) :
    |(roundSqrt d v : ℝ) - Real.sqrt v| ≤ 1 / 2 / 10 ^ d := by
  have pos : (0 : ℝ) < 10 ^ d := by positivity
  have scaled : (0 : ℚ) ≤ v * 10 ^ (2 * d) := by positivity
  have root : Real.sqrt ((v * 10 ^ (2 * d) : ℚ) : ℝ) = Real.sqrt v * 10 ^ d := by
    push_cast
    rw [Real.sqrt_mul (by exact_mod_cast nonneg), mul_comm 2 d, pow_mul, Real.sqrt_sq pos.le]
  obtain ⟨low, high⟩ := sqrt_floor_bounds scaled
  have middle_pos : (0 : ℝ) < (Nat.sqrt ⌊v * 10 ^ (2 * d)⌋.toNat : ℝ) + 1 / 2 := by positivity
  suffices near : ∃ r : ℚ, roundSqrt d v = r / 10 ^ d ∧
      |(r : ℝ) - Real.sqrt ((v * 10 ^ (2 * d) : ℚ) : ℝ)| ≤ 1 / 2 by
    obtain ⟨r, eq, near⟩ := near
    have scale : (roundSqrt d v : ℝ) - Real.sqrt v = (r - Real.sqrt v * 10 ^ d) / 10 ^ d := by
      rw [eq]
      push_cast
      rw [sub_div, mul_div_assoc, div_self pos.ne', mul_one]
    rw [scale, abs_div, abs_of_pos pos, ← root]
    exact div_le_div_of_nonneg_right near pos.le
  refine ⟨_, rfl, ?_⟩
  generalize v * 10 ^ (2 * d) = x at *
  generalize Nat.sqrt ⌊x⌋.toNat = m at *
  rw [abs_le]
  split_ifs with below above even
  · have : Real.sqrt x < m + 1 / 2 := by
      rw [Real.sqrt_lt' middle_pos]
      have lt := (Rat.cast_lt (K := ℝ)).2 below
      push_cast at lt
      exact lt
    push_cast
    constructor <;> linarith
  · have : (m : ℝ) + 1 / 2 < Real.sqrt x := by
      apply Real.lt_sqrt_of_sq_lt
      have lt := (Rat.cast_lt (K := ℝ)).2 above
      push_cast at lt
      exact lt
    push_cast
    constructor <;> linarith
  all_goals
    have same : ((m : ℚ) + 1 / 2) ^ 2 = x := le_antisymm (not_lt.1 below) (not_lt.1 above)
    have tie : Real.sqrt x = m + 1 / 2 := by
      rw [← same]
      push_cast
      exact Real.sqrt_sq middle_pos.le
    rw [tie]
    push_cast
    constructor <;> linarith

end StreamWeb.Py

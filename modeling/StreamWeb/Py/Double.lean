import Mathlib.Data.Int.Log
import Mathlib.Tactic.Linarith
import Mathlib.Tactic.NormNum
import Mathlib.Tactic.Positivity
import StreamWeb.Py

/-!
# Floats

A float is a rational with 53 significant binary digits, and the result of an
operation is the float nearest to the exact one (`double`), the even one of two.
Overflow and the digits lost below `2 ^ -1022` are left out.
-/

namespace StreamWeb.Py

/-- The place of the last digit of a float of this size. -/
def lastPlace (x : ℚ) : ℚ := 2 ^ (Int.log 2 |x| - 52)

/-- The float nearest to `x`. -/
def double (x : ℚ) : ℚ := round (x / lastPlace x) * lastPlace x

/-- `a - b` of floats. -/
def subDouble (a b : ℚ) : ℚ := double (a - b)

/-! ## Rounding to an integer -/

theorem round_cases (x : ℚ) :
    (round x = ⌊x⌋ ∧ x - ⌊x⌋ ≤ 1 / 2) ∨ (round x = ⌊x⌋ + 1 ∧ 1 / 2 ≤ x - ⌊x⌋) := by
  unfold round
  dsimp only
  split_ifs with below above even
  · exact .inl ⟨rfl, below.le⟩
  · exact .inr ⟨rfl, above.le⟩
  · exact .inl ⟨rfl, not_lt.1 above⟩
  · exact .inr ⟨rfl, not_lt.1 below⟩

theorem abs_round_sub (x : ℚ) : |(round x : ℚ) - x| ≤ 1 / 2 := by
  have low := Int.floor_le x
  have high := Int.lt_floor_add_one x
  rw [abs_le]
  rcases round_cases x with ⟨eq, near⟩ | ⟨eq, near⟩ <;> rw [eq] <;> push_cast <;> constructor <;> linarith

@[simp] theorem round_intCast (n : ℤ) : round (n : ℚ) = n := by
  simp [round]

theorem round_mono {x y : ℚ} (le : x ≤ y) : round x ≤ round y := by
  rcases (Int.floor_mono le).eq_or_lt with same | less
  · -- on one step: the larger fraction is rounded up whenever the smaller is
    unfold round
    dsimp only
    rw [← same]
    split_ifs <;> first | omega | linarith
  · have bound : ⌊x⌋ + 1 ≤ ⌊y⌋ := less
    rcases round_cases x with ⟨eq, -⟩ | ⟨eq, -⟩ <;> rcases round_cases y with ⟨eq', -⟩ | ⟨eq', -⟩ <;> omega

theorem round_neg (x : ℚ) : round (-x) = -round x := by
  by_cases whole : (⌊x⌋ : ℚ) = x
  · rw [← whole, ← Int.cast_neg, round_intCast, round_intCast]
  · have low : (⌊x⌋ : ℚ) < x := lt_of_le_of_ne (Int.floor_le x) whole
    have high := Int.lt_floor_add_one x
    have mirrored : ⌊-x⌋ = -⌊x⌋ - 1 := by
      rw [Int.floor_eq_iff]
      push_cast
      constructor <;> linarith
    unfold round
    dsimp only
    rw [mirrored]
    push_cast
    split_ifs <;> first | omega | linarith

/-! ## Rounding to a float -/

section

variable {x y : ℚ}

theorem lastPlace_pos (x : ℚ) : 0 < lastPlace x := zpow_pos two_pos _

@[simp] theorem lastPlace_neg (x : ℚ) : lastPlace (-x) = lastPlace x := by
  rw [lastPlace, lastPlace, abs_neg]

/-- A float has 53 digits: its size in units of the last place. -/
theorem significant (nonzero : x ≠ 0) : 2 ^ 52 * lastPlace x ≤ |x| ∧ |x| < 2 ^ 53 * lastPlace x := by
  have low := Int.zpow_log_le_self one_lt_two (abs_pos.2 nonzero)
  have high := Int.lt_zpow_succ_log_self one_lt_two |x|
  have split : ∀ k : ℤ, (2 : ℚ) ^ (Int.log 2 |x| + k) = 2 ^ (52 + k) * lastPlace x := by
    intro k
    rw [lastPlace, ← zpow_add₀ two_ne_zero]
    congr 1
    ring
  constructor
  · have := split 0
    norm_num at this low ⊢
    linarith
  · have := split 1
    norm_num at this high ⊢
    linarith

@[simp] theorem double_zero : double 0 = 0 := by
  have whole : round (0 / lastPlace 0) = 0 := by
    rw [zero_div]
    exact round_intCast 0
  rw [double, whole, Int.cast_zero, zero_mul]

theorem double_neg (x : ℚ) : double (-x) = -double x := by
  rw [double, double, lastPlace_neg, neg_div, round_neg, Int.cast_neg, neg_mul]

theorem abs_double_sub_le (x : ℚ) : |double x - x| ≤ lastPlace x / 2 := by
  have pos := lastPlace_pos x
  have scale : double x - x = (round (x / lastPlace x) - x / lastPlace x) * lastPlace x := by
    rw [double, sub_mul, div_mul_cancel₀ _ pos.ne']
  rw [scale, abs_mul, abs_of_pos pos]
  have := mul_le_mul_of_nonneg_right (abs_round_sub (x / lastPlace x)) pos.le
  linarith

/-- The relative error. -/
theorem abs_double_sub_le_mul (x : ℚ) : |double x - x| ≤ |x| / 2 ^ 53 := by
  by_cases zero : x = 0
  · rw [zero, double_zero]
    norm_num
  · have := abs_double_sub_le x
    have := (significant zero).1
    rw [le_div_iff₀ (by positivity)]
    linarith

/-- The error of a result up to `2 ^ 53 * d`. -/
theorem abs_double_sub_le_of_le {d : ℚ} (small : |x| ≤ 2 ^ 53 * d) : |double x - x| ≤ d := by
  apply (abs_double_sub_le_mul x).trans
  rw [div_le_iff₀ (by positivity)]
  linarith

theorem double_nonneg (nonneg : 0 ≤ x) : 0 ≤ double x := by
  have scaled : ((0 : ℤ) : ℚ) ≤ x / lastPlace x := by
    rw [Int.cast_zero]
    exact div_nonneg nonneg (lastPlace_pos x).le
  have rounded := round_mono scaled
  rw [round_intCast] at rounded
  exact mul_nonneg (by exact_mod_cast rounded) (lastPlace_pos x).le

/-- Between the powers of two around it. -/
theorem double_bounds (pos : 0 < x) :
    2 ^ 52 * lastPlace x ≤ double x ∧ double x ≤ 2 ^ 53 * lastPlace x := by
  have unit := lastPlace_pos x
  have size := significant pos.ne'
  rw [abs_of_pos pos] at size
  have low : ((2 ^ 52 : ℤ) : ℚ) ≤ x / lastPlace x := by
    rw [le_div_iff₀ unit]
    push_cast
    exact size.1
  have high : x / lastPlace x ≤ ((2 ^ 53 : ℤ) : ℚ) := by
    rw [div_le_iff₀ unit]
    push_cast
    exact size.2.le
  have low := round_mono low
  have high := round_mono high
  rw [round_intCast] at low high
  have low : ((2 ^ 52 : ℤ) : ℚ) ≤ round (x / lastPlace x) := Int.cast_le.2 low
  have high : (round (x / lastPlace x) : ℚ) ≤ ((2 ^ 53 : ℤ) : ℚ) := Int.cast_le.2 high
  push_cast at low high
  exact ⟨mul_le_mul_of_nonneg_right low unit.le, mul_le_mul_of_nonneg_right high unit.le⟩

theorem double_mono_of_pos (pos : 0 < x) (le : x ≤ y) : double x ≤ double y := by
  have pos' : 0 < y := lt_of_lt_of_le pos le
  have logs : Int.log 2 |x| ≤ Int.log 2 |y| := by
    rw [abs_of_pos pos, abs_of_pos pos']
    exact Int.log_mono_right pos le
  rcases logs.eq_or_lt with same | less
  · have place : lastPlace x = lastPlace y := by
      rw [lastPlace, lastPlace, same]
    have scaled : x / lastPlace x ≤ y / lastPlace y := by
      rw [place]
      exact div_le_div_of_nonneg_right le (lastPlace_pos y).le
    have rounded : (round (x / lastPlace x) : ℚ) ≤ round (y / lastPlace y) := Int.cast_le.2 (round_mono scaled)
    rw [double, double, place] at *
    exact mul_le_mul_of_nonneg_right rounded (lastPlace_pos y).le
  · -- a power of two lies between them
    have place : 2 * lastPlace x ≤ lastPlace y := by
      rw [lastPlace, lastPlace, ← zpow_one_add₀ two_ne_zero]
      exact zpow_le_zpow_right₀ one_le_two (by omega)
    calc double x ≤ 2 ^ 53 * lastPlace x := (double_bounds pos).2
      _ ≤ 2 ^ 52 * lastPlace y := by linarith
      _ ≤ double y := (double_bounds pos').1

theorem double_mono (le : x ≤ y) : double x ≤ double y := by
  rcases lt_or_ge 0 x with pos | nonpos
  · exact double_mono_of_pos pos le
  · have below : double x ≤ 0 := by
      have := double_nonneg (neg_nonneg.2 nonpos)
      rw [double_neg] at this
      linarith
    rcases lt_or_ge y 0 with neg | nonneg
    · have := double_mono_of_pos (neg_pos.2 neg) (neg_le_neg le)
      rw [double_neg, double_neg] at this
      linarith
    · exact below.trans (double_nonneg nonneg)

theorem abs_double (x : ℚ) : |double x| = double |x| := by
  rcases le_total 0 x with nonneg | nonpos
  · rw [abs_of_nonneg nonneg, abs_of_nonneg (double_nonneg nonneg)]
  · have := double_nonneg (neg_nonneg.2 nonpos)
    rw [double_neg] at this
    rw [abs_of_nonpos nonpos, double_neg, abs_of_nonpos (by linarith)]

/-- What has at most 53 digits is a float. -/
theorem double_eq_self {m : ℤ} {e : ℤ} (few : |m| < 2 ^ 53) : double (m * 2 ^ e) = m * 2 ^ e := by
  by_cases zero : m = 0
  · rw [zero, Int.cast_zero, zero_mul, double_zero]
  · have unit : (0 : ℚ) < 2 ^ e := zpow_pos two_pos e
    have nonzero : (m : ℚ) * 2 ^ e ≠ 0 := mul_ne_zero (Int.cast_ne_zero.2 zero) unit.ne'
    have small : |(m : ℚ) * 2 ^ e| < 2 ^ (53 + e) := by
      rw [abs_mul, abs_of_pos unit, zpow_add₀ two_ne_zero]
      apply mul_lt_mul_of_pos_right _ unit
      exact_mod_cast few
    have log : Int.log 2 |(m : ℚ) * 2 ^ e| < 53 + e :=
      (Int.lt_zpow_iff_log_lt one_lt_two (abs_pos.2 nonzero)).1 small
    obtain ⟨k, extra⟩ := Int.le.dest (show Int.log 2 |(m : ℚ) * 2 ^ e| - 52 ≤ e by omega)
    have whole : (m : ℚ) * 2 ^ e / lastPlace (m * 2 ^ e) = ((m * 2 ^ k : ℤ) : ℚ) := by
      rw [div_eq_iff (lastPlace_pos _).ne', lastPlace]
      push_cast
      rw [mul_assoc, ← zpow_natCast, ← zpow_add₀ two_ne_zero]
      congr 2
      omega
    rw [double, whole, round_intCast, ← whole, div_mul_cancel₀ _ (lastPlace_pos _).ne']

theorem double_intCast {m : ℤ} (few : |m| < 2 ^ 53) : double m = m := by
  have := double_eq_self (e := 0) few
  rwa [zpow_zero, mul_one] at this

end

end StreamWeb.Py

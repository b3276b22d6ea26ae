import Mathlib.Tactic.Ring
import Mathlib.Algebra.Order.Group.Nat

/-!
# Numerals of a fixed width

The digits of a number, most significant first, as many as asked for, and the
number that digits are read as. What is read back is the number, once it is
below the power (`value_fixed`); two digits of a base are one of its square
(`fixed_pairs`), and a shortest numeral behind zeros is one of a fixed width
(`replicate_append_toDigits`).
-/

namespace Numeral

/-- The last `n` digits of `v`. -/
def fixed (base : Nat) : Nat → Nat → List Nat
  | 0, _ => []
  | n + 1, v => fixed base n (v / base) ++ [v % base]

/-- The number that digits are read as. -/
def value (base : Nat) (digits : List Nat) : Nat := digits.foldl (fun v d => base * v + d) 0

variable {base : Nat}

@[simp] theorem length_fixed (n v : Nat) : (fixed base n v).length = n := by
  induction n generalizing v with
  | zero => rfl
  | succ n ih => rw [fixed, List.length_append, ih, List.length_singleton]

theorem lt_of_mem_fixed (pos : 0 < base) {n v d : Nat} (mem : d ∈ fixed base n v) : d < base := by
  induction n generalizing v with
  | zero => cases mem
  | succ n ih =>
    rw [fixed, List.mem_append, List.mem_singleton] at mem
    rcases mem with mem | rfl
    · exact ih mem
    · exact Nat.mod_lt v pos

/-- What every digit is translated to and back is the numeral. -/
theorem map_fixed (pos : 0 < base) {f : Nat → Nat} (same : ∀ d < base, f d = d) (n v : Nat) :
    (fixed base n v).map f = fixed base n v := by
  conv_rhs => rw [← List.map_id (fixed base n v)]
  apply List.map_congr_left
  intro d mem
  exact same d (lt_of_mem_fixed pos mem)

theorem value_concat (digits : List Nat) (d : Nat) :
    value base (digits ++ [d]) = base * value base digits + d := by
  rw [value, List.foldl_append]
  rfl

/-- What does not fit into the width is cut off. -/
theorem value_fixed_eq_mod (n v : Nat) : value base (fixed base n v) = v % base ^ n := by
  induction n generalizing v with
  | zero => rw [pow_zero, Nat.mod_one]; rfl
  | succ n ih => rw [fixed, value_concat, ih, pow_succ', Nat.mod_mul, Nat.add_comm]

theorem value_fixed {n v : Nat} (fits : v < base ^ n) : value base (fixed base n v) = v := by
  rw [value_fixed_eq_mod, Nat.mod_eq_of_lt fits]

theorem fixed_zero (n : Nat) : fixed base n 0 = List.replicate n 0 := by
  induction n with
  | zero => rfl
  | succ n ih => rw [fixed, Nat.zero_div, Nat.zero_mod, ih, List.replicate_succ']

/-- Two digits for each digit of the square of the base. -/
theorem fixed_pairs (n v : Nat) :
    fixed base (2 * n) v =
      (fixed (base * base) n v).flatMap fun d => [d / base, d % base] := by
  induction n generalizing v with
  | zero => rfl
  | succ n ih =>
    have high : v % (base * base) / base = v / base % base := Nat.mod_mul_right_div_self v base base
    have low : v % (base * base) % base = v % base := Nat.mod_mul_right_mod v base base
    rw [Nat.mul_succ, fixed, fixed, ih, fixed, List.flatMap_append, List.flatMap_singleton, high, low,
      Nat.div_div_eq_div_mul, List.append_assoc]
    rfl

/-- A numeral without leading zeros, filled up with them. -/
theorem replicate_append_toDigits (large : 1 < base) {n v : Nat} (some_digits : 0 < n)
    (fits : v < base ^ n) :
    List.replicate (n - (Nat.toDigits base v).length) '0' ++ Nat.toDigits base v =
      (fixed base n v).map Nat.digitChar := by
  induction n generalizing v with
  | zero => cases some_digits
  | succ n ih =>
    rw [Nat.toDigits_eq_if large]
    split
    · rename_i single
      rw [fixed, Nat.div_eq_of_lt single, Nat.mod_eq_of_lt single, fixed_zero, List.map_append,
        List.map_replicate]
      rfl
    · rename_i more
      have rest : v / base < base ^ n := by
        rw [Nat.div_lt_iff_lt_mul (by omega), ← pow_succ]
        exact fits
      have width : 0 < n := by
        by_contra none_left
        rw [Nat.eq_zero_of_not_pos none_left, zero_add, pow_one] at fits
        exact more fits
      rw [List.length_append, List.length_singleton, Nat.add_sub_add_right, ← List.append_assoc,
        ih width rest, fixed, List.map_append]
      rfl

end Numeral

import Mathlib.Algebra.Order.BigOperators.Group.List
import Mathlib.Algebra.Order.Ring.Rat
import Mathlib.Data.List.MinMax
import Mathlib.Data.List.Sort
import Mathlib.Data.Rat.Floor

/-!
# Array functions

The `numpy` functions the source calls on one-dimensional arrays, under their
own names and as documented. Arrays are lists, and their numbers rationals.
-/

namespace StreamWeb.Np

/-- `np.sort`. -/
def sort (xs : List ℚ) : List ℚ := xs.insertionSort (· ≤ ·)

/-- `np.percentile(xs, q)`, interpolated linearly between the two closest ranks. -/
def percentile (xs : List ℚ) (q : ℚ) : ℚ :=
  let position := ((xs.length : ℚ) - 1) * q / 100
  let i := ⌊position⌋.toNat
  let below := (sort xs).getD i 0
  let above := (sort xs).getD (i + 1) below
  below + (position - i) * (above - below)

/-- `np.median`. -/
def median (xs : List ℚ) : ℚ :=
  let middle := xs.length / 2
  if xs.length % 2 = 1 then (sort xs).getD middle 0
  else ((sort xs).getD (middle - 1) 0 + (sort xs).getD middle 0) / 2

/-- `np.mean`. -/
def mean (xs : List ℚ) : ℚ := xs.sum / xs.length

/-- `np.var`, of which `np.std` is the root. -/
def var (xs : List ℚ) : ℚ := mean (xs.map fun x => (x - mean xs) ^ 2)

/-- `np.argmax`: the first index of the largest entry. -/
def argmax (xs : List ℚ) : Option Nat := (List.range xs.length).argmax fun i => xs.getD i 0

/-- `np.diff`. -/
def diff (xs : List Int) : List Int := xs.zipWith (fun a b => b - a) xs.tail

/-- `np.where(mask)[0]`. -/
def indices (mask : List Bool) : List Nat :=
  (List.range mask.length).filter fun i => mask.getD i false

/-- `xs[lo:hi]`: a negative bound counts from the end. -/
def slice {α : Type*} (xs : List α) (lo hi : Int) : List α :=
  let bound (i : Int) : Nat := if i < 0 then (xs.length + i).toNat else i.toNat
  (xs.take (bound hi)).drop (bound lo)

theorem length_mul_mean (xs : List ℚ) : xs.length * mean xs = xs.sum := by
  cases xs with
  | nil => simp
  | cons x xs => exact mul_div_cancel₀ _ (Nat.cast_ne_zero.2 (Nat.succ_ne_zero _))

theorem var_nonneg (xs : List ℚ) : 0 ≤ var xs := by
  apply div_nonneg
  · apply List.sum_nonneg
    intro d mem
    obtain ⟨x, -, rfl⟩ := List.mem_map.1 mem
    exact sq_nonneg _
  · exact Nat.cast_nonneg _

theorem le_mean {xs : List ℚ} {b : ℚ} (ne : xs ≠ []) (all : ∀ x ∈ xs, b ≤ x) : b ≤ mean xs := by
  rw [mean, le_div_iff₀ (Nat.cast_pos.2 (List.length_pos_iff.2 ne))]
  have sum := List.card_nsmul_le_sum xs b all
  rwa [nsmul_eq_mul, mul_comm] at sum

theorem argmax_lt {xs : List ℚ} {m : Nat} (largest : argmax xs = some m) : m < xs.length :=
  List.mem_range.1 (List.argmax_mem largest)

theorem le_argmax {xs : List ℚ} {m i : Nat} (largest : argmax xs = some m) (inside : i < xs.length) :
    xs.getD i 0 ≤ xs.getD m 0 :=
  List.le_of_mem_argmax (List.mem_range.2 inside) largest

/-- In front of the chosen entry all are smaller. -/
theorem lt_argmax {xs : List ℚ} {m i : Nat} (largest : argmax xs = some m) (before : i < m) :
    xs.getD i 0 < xs.getD m 0 := by
  have index : ∀ j < xs.length, (List.range xs.length).idxOf j = j := by
    intro j inside
    have found := List.nodup_range.idxOf_getElem j (by rwa [List.length_range] : j < (List.range xs.length).length)
    rwa [List.getElem_range] at found
  have inside := argmax_lt largest
  by_contra reached
  have first := List.index_of_argmax largest (List.mem_range.2 (before.trans inside)) (not_lt.1 reached)
  rw [index m inside, index i (before.trans inside)] at first
  omega

@[simp] theorem diff_singleton (x : Int) : diff [x] = [] := rfl

@[simp] theorem diff_cons_cons (x y : Int) (xs : List Int) :
    diff (x :: y :: xs) = (y - x) :: diff (y :: xs) := rfl

@[simp] theorem indices_nil : indices [] = [] := rfl

@[simp] theorem indices_cons (b : Bool) (bs : List Bool) :
    indices (b :: bs) = (if b then [0] else []) ++ (indices bs).map (· + 1) := by
  have later : (List.range bs.length).filter (fun i => (b :: bs).getD (i + 1) false) = indices bs := by
    simp [indices]
  rw [indices, List.length_cons, List.range_succ_eq_map, List.filter_cons, List.filter_map]
  cases b <;> simp [← later, Function.comp_def]

theorem length_slice_le {α : Type*} (xs : List α) (lo hi : Int) :
    (slice xs lo hi).length ≤ xs.length := by
  simp only [slice, List.length_drop, List.length_take]
  omega

theorem length_slice {α : Type*} (xs : List α) {lo hi : Int} (low : 0 ≤ lo) (high : hi ≤ xs.length)
    (ordered : lo ≤ hi) : ((slice xs lo hi).length : Int) = hi - lo := by
  simp only [slice, if_neg (not_lt.2 low), if_neg (not_lt.2 (low.trans ordered)), List.length_drop,
    List.length_take]
  omega

end StreamWeb.Np

import StreamWeb.Lib.PwFilter
import StreamWeb.Np

/-!
# Peaks of a trace

`scipy.signal.find_peaks` with `height`, `distance` and `prominence`, as
documented: local maxima, filtered by height, then by distance, then by
prominence. The documentation leaves open which of two equally high peaks the
distance filter keeps, so that filter is a parameter, and `KeepsHigher` is what
is documented of it: smaller peaks are removed first until all that remain are
far enough apart.
-/

namespace StreamWeb.Spectrum

variable (xs : List ℚ)

/-! ## Local maxima -/

/-- The first and the last index of the run of equal entries around `i`. -/
def plateau (i : Nat) (top : ℚ) : Nat × Nat :=
  (i - ((xs.take i).reverse.takeWhile (· = top)).length, i + ((xs.drop (i + 1)).takeWhile (· = top)).length)

/-- An entry lower than `top` at index `i`, which must exist. -/
def lowerAt (i : Nat) (top : ℚ) : Bool :=
  match xs[i]? with
  | some x => x < top
  | none => false

/-- The middle, rounded down, of a run of equal entries with lower entries on both sides. -/
def isLocalMax (i : Nat) : Bool :=
  match xs[i]? with
  | none => false
  | some top =>
    let run := plateau xs i top
    i = (run.1 + run.2) / 2 && 0 < run.1 && lowerAt xs (run.1 - 1) top && lowerAt xs (run.2 + 1) top

def localMaxima : List Nat := (List.range xs.length).filter (isLocalMax xs)

/-! ## Prominence -/

/-- The lowest entry before the first that is higher than `top`. -/
def base (top : ℚ) (side : List ℚ) : ℚ := (side.takeWhile (· ≤ top)).foldl min top

/-- The height of a peak above the higher one of its two bases. -/
def prominence (p : Nat) : ℚ :=
  let top := xs.getD p 0
  top - max (base top (xs.take p).reverse) (base top (xs.drop (p + 1)))

/-! ## Distance -/

/-- At least `distance` apart. -/
def FarApart (distance i j : Nat) : Prop := distance ≤ ((i : Int) - j).natAbs

instance (distance : Nat) : DecidableRel (FarApart distance) :=
  fun _ _ => inferInstanceAs (Decidable (_ ≤ _))

theorem FarApart.symm {distance i j : Nat} (far : FarApart distance i j) : FarApart distance j i := by
  unfold FarApart at far ⊢
  omega

/-- A distance filter: the heights, the distance and the peaks to choose from, ascending. -/
abbrev DistanceFilter := (Nat → ℚ) → Nat → List Nat → List Nat

/-- A distance filter as documented. -/
structure KeepsHigher (select : DistanceFilter) : Prop where
  sublist : ∀ height distance peaks, (select height distance peaks).Sublist peaks
  apart : ∀ height distance peaks, peaks.Pairwise (· < ·) →
    (select height distance peaks).Pairwise (FarApart distance)
  /-- What is removed is close to something kept that is at least as high. -/
  higher : ∀ height distance peaks, ∀ q ∈ peaks, q ∉ select height distance peaks →
    ∃ k ∈ select height distance peaks, ¬FarApart distance q k ∧ height q ≤ height k

/-- `find_peaks(xs, height=height, distance=distance, prominence=least)`. -/
def findPeaks (select : DistanceFilter) (height : ℚ) (distance : Nat) (least : ℚ) : List Nat :=
  (select (fun i => xs.getD i 0) distance
    ((localMaxima xs).filter fun i => height ≤ xs.getD i 0)).filter fun i => least ≤ prominence xs i

/-- The highest peak first, then each that is far enough from all before it. -/
def keepHighest : DistanceFilter := fun height distance peaks =>
  let kept := (peaks.insertionSort fun i j => height i ≤ height j).pwFilter (FarApart distance)
  peaks.filter fun i => i ∈ kept

theorem localMaxima_sorted : (localMaxima xs).Pairwise (· < ·) :=
  List.pairwise_lt_range.sublist List.filter_sublist

/-- Going through the peaks by height is a filter as documented. -/
theorem keepHighest_keepsHigher : KeepsHigher keepHighest := by
  constructor
  · exact fun _ _ _ => List.filter_sublist
  · intro height distance peaks sorted
    have symm : Std.Symm (FarApart distance) := ⟨fun _ _ => FarApart.symm⟩
    have kept := List.pairwise_pwFilter (R := FarApart distance)
      (peaks.insertionSort fun i j => height i ≤ height j)
    apply (sorted.sublist List.filter_sublist).imp_of_mem
    intro i j hi hj lt
    exact kept.forall (of_decide_eq_true (List.mem_filter.1 hi).2)
      (of_decide_eq_true (List.mem_filter.1 hj).2) lt.ne
  · intro height distance peaks q mem removed
    have total : Std.Total fun i j => height i ≤ height j := ⟨fun i j => le_total (height i) (height j)⟩
    have trans : IsTrans Nat fun i j => height i ≤ height j := ⟨fun _ _ _ => le_trans⟩
    have ascending := List.pairwise_insertionSort (fun i j => height i ≤ height j) peaks
    have dropped : q ∉ (peaks.insertionSort fun i j => height i ≤ height j).pwFilter (FarApart distance) :=
      fun kept => removed (List.mem_filter.2 ⟨mem, decide_eq_true kept⟩)
    obtain ⟨low, high, split, k, above, kept, close⟩ :=
      List.exists_of_not_mem_pwFilter ((List.mem_insertionSort _).2 mem) dropped
    have listed : k ∈ peaks := (List.mem_insertionSort _).1 (List.pwFilter_subset _ kept)
    rw [split] at ascending
    refine ⟨k, List.mem_filter.2 ⟨listed, decide_eq_true kept⟩, close, ?_⟩
    exact (List.pairwise_cons.1 (List.pairwise_append.1 ascending).2.1).1 k above

end StreamWeb.Spectrum

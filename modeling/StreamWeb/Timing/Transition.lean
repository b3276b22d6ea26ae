import Mathlib.Tactic.Linarith
import Mathlib.Tactic.NormNum
import StreamWeb.Timing

/-!
# Rise and fall times

`measure_transition_us` takes the time between the first sample of a smoothed
window beyond a tenth of its range and the first one beyond nine tenths, in
either direction. As in `build_crossings`, `smoothed w xs` stands for what
`filtfilt` gives, and a window that is not longer than its padding is an error.
-/

namespace StreamWeb.Timing

/-- The first entry with `p`, and from there on the first with `q`, by position. -/
def firstThen (xs : List ℚ) (p q : ℚ → Bool) : Option (ℕ × ℕ) := do
  let i ← xs.findIdx? p
  let j ← (xs.drop i).findIdx? q
  some (i, i + j)

/-- Level `tenths` of the range of `xs`. -/
def level (xs : List ℚ) (tenths : ℚ) : ℚ :=
  let lo := xs.min?.getD 0
  let hi := xs.max?.getD 0
  lo + tenths / 10 * (hi - lo)

/-- `hi - lo < 1e-9` -/
def Flat (xs : List ℚ) : Prop := xs.max?.getD 0 - xs.min?.getD 0 < 1 / 10 ^ 9

instance (xs : List ℚ) : Decidable (Flat xs) := inferInstanceAs (Decidable (_ < _))

/-- Two entries that are far enough apart. -/
theorem not_flat_of_mem {xs : List ℚ} {a b : ℚ} (high : a ∈ xs) (low : b ∈ xs) (apart : 1 / 10 ^ 9 ≤ a - b) :
    ¬Flat xs := by
  obtain ⟨hi, top⟩ := Option.isSome_iff_exists.1 (List.isSome_max?_of_mem high)
  obtain ⟨lo, bottom⟩ := Option.isSome_iff_exists.1 (List.isSome_min?_of_mem low)
  have above : a ≤ hi := (List.max?_eq_some_iff.1 top).2 a high
  have below : lo ≤ b := (List.min?_eq_some_iff.1 bottom).2 b low
  rw [Flat, top, bottom, Option.getD_some, Option.getD_some, not_lt]
  linarith

/-- `i10` and `i90` of a smoothed window. -/
def transition (xs : List ℚ) (rise : Bool) : Option (ℕ × ℕ) :=
  if Flat xs then none
  else
    let thresh10 := level xs 1
    let thresh90 := level xs 9
    if rise then firstThen xs (fun x => thresh10 < x) fun x => thresh90 < x
    else (firstThen xs (fun x => x < thresh90) fun x => x < thresh10).map Prod.swap

/-- The 10%-90% rise or fall time in microseconds, or `none` when it is not measurable; no result at all
is the error of `filtfilt`. -/
def measureTransitionUs (smoothed : Nat → List Sample → List ℚ) (iqSeg : List Sample) (start stop : Int)
    (sr : ℚ) (rise : Bool) (smoothingWindow : Nat) : Option (Option ℚ) :=
  let start := max 0 start
  let stop := min (iqSeg.length : Int) stop
  if stop - start < smoothingWindow * 2 then some none
  else
    let window := Np.slice iqSeg start stop
    if window.length ≤ padLen smoothingWindow then none
    else
      some ((transition (smoothed smoothingWindow window) rise).map fun (i10, i90) =>
        |(i10 : ℚ) - i90| / sr * 1000000)

/-- Beyond the level, on the way up or on the way down. -/
def beyond (rise : Bool) (limit : ℚ) (x : ℚ) : Bool := if rise then limit < x else x < limit

/-- A transition of a window: the first entries beyond the near and the far level. -/
structure Crosses (xs : List ℚ) (rise : Bool) (i j : ℕ) : Prop where
  order : i ≤ j
  inside : j < xs.length
  near : beyond rise (level xs (if rise then 1 else 9)) (xs.getD i 0)
  before_near : ∀ k < i, ¬beyond rise (level xs (if rise then 1 else 9)) (xs.getD k 0)
  far : beyond rise (level xs (if rise then 9 else 1)) (xs.getD j 0)
  before_far : ∀ k < j, ¬beyond rise (level xs (if rise then 9 else 1)) (xs.getD k 0)

theorem findIdx_le_findIdx {xs : List ℚ} {p q : ℚ → Bool} (sub : ∀ x, q x → p x) :
    xs.findIdx p ≤ xs.findIdx q := by
  induction xs with
  | nil => simp
  | cons x xs ih =>
    rw [List.findIdx_cons, List.findIdx_cons]
    cases now : q x with
    | true => simp [sub x now]
    | false =>
      cases p x with
      | true => simp
      | false => exact Nat.succ_le_succ ih

/-- When whatever has `q` has `p`, the second search finds the first entry with `q` of all. -/
theorem firstThen_eq {xs : List ℚ} {p q : ℚ → Bool} (sub : ∀ x, q x → p x) {x : ℚ} (mem : x ∈ xs)
    (has : q x) : firstThen xs p q = some (xs.findIdx p, xs.findIdx q) := by
  have far : xs.findIdx q < xs.length := List.findIdx_lt_length_of_exists ⟨x, mem, has⟩
  have order : xs.findIdx p ≤ xs.findIdx q := findIdx_le_findIdx sub
  have near : xs.findIdx? p = some (xs.findIdx p) := by
    apply List.findIdx?_eq_some_iff_findIdx_eq.2
    exact ⟨by omega, rfl⟩
  have rest : (xs.drop (xs.findIdx p)).findIdx? q = some (xs.findIdx q - xs.findIdx p) := by
    apply List.findIdx?_eq_some_iff_getElem.2
    refine ⟨by rw [List.length_drop]; omega, ?_, ?_⟩
    · have here := List.findIdx_getElem (p := q) (w := far)
      rw [List.getElem_drop]
      simp only [Nat.add_sub_cancel' order]
      exact here
    · intro k before
      rw [List.getElem_drop, Bool.not_eq_true]
      apply List.not_of_lt_findIdx
      omega
  rw [firstThen, near]
  change ((xs.drop (xs.findIdx p)).findIdx? q).bind _ = _
  rw [rest, Option.bind_some, Nat.add_sub_cancel' order]

/-- First entries, as positions of a transition. -/
theorem crosses_findIdx {xs : List ℚ} {rise : Bool}
    (sub : ∀ x, beyond rise (level xs (if rise then 9 else 1)) x → beyond rise (level xs (if rise then 1 else 9)) x)
    {x : ℚ} (mem : x ∈ xs) (has : beyond rise (level xs (if rise then 9 else 1)) x) :
    Crosses xs rise (xs.findIdx (beyond rise (level xs (if rise then 1 else 9))))
      (xs.findIdx (beyond rise (level xs (if rise then 9 else 1)))) := by
  have first : ∀ p : ℚ → Bool, (∃ x ∈ xs, p x) →
      p (xs.getD (xs.findIdx p) 0) ∧ ∀ k < xs.findIdx p, ¬p (xs.getD k 0) := by
    intro p found
    have inside := List.findIdx_lt_length_of_exists found
    constructor
    · rw [List.getD_eq_getElem?_getD, List.getElem?_eq_getElem inside, Option.getD_some]
      exact List.findIdx_getElem
    · intro k before
      rw [List.getD_eq_getElem?_getD, List.getElem?_eq_getElem (before.trans inside), Option.getD_some,
        Bool.not_eq_true]
      exact List.not_of_lt_findIdx before
  obtain ⟨near, before_near⟩ := first _ ⟨x, mem, sub x has⟩
  obtain ⟨far, before_far⟩ := first _ ⟨x, mem, has⟩
  exact ⟨findIdx_le_findIdx sub, List.findIdx_lt_length_of_exists ⟨x, mem, has⟩, near, before_near, far,
    before_far⟩

/-- **A window that is not flat** has its transition: the first samples beyond the near level and beyond
the far one. -/
theorem transition_crosses {xs : List ℚ} (range : ¬Flat xs) (rise : Bool) :
    ∃ i j, transition xs rise = some (if rise then (i, j) else (j, i)) ∧ Crosses xs rise i j := by
  rw [transition, if_neg range]
  unfold Flat at range
  cases bottom : xs.min? with
  | none =>
    rw [List.min?_eq_none_iff.1 bottom] at range
    exact absurd (by norm_num) range
  | some lo =>
    obtain ⟨hi, top⟩ := Option.isSome_iff_exists.1 (List.isSome_max?_of_mem (List.min?_mem bottom))
    rw [bottom, top, Option.getD_some, Option.getD_some, not_lt] at range
    have apart : 0 < hi - lo := lt_of_lt_of_le (by norm_num) range
    have lev : ∀ t, level xs t = lo + t / 10 * (hi - lo) := by
      intro t
      rw [level, bottom, top]
      rfl
    have lt : level xs 1 < level xs 9 := by
      rw [lev, lev]
      linarith
    cases rise with
    | true =>
      have sub : ∀ x, beyond true (level xs 9) x → beyond true (level xs 1) x := by
        intro x above
        exact decide_eq_true (lt.trans (of_decide_eq_true above))
      have has : beyond true (level xs 9) hi := by
        apply decide_eq_true
        rw [lev]
        linarith
      have mem : hi ∈ xs := List.max?_mem top
      exact ⟨_, _, firstThen_eq sub mem has, crosses_findIdx sub mem has⟩
    | false =>
      have sub : ∀ x, beyond false (level xs 1) x → beyond false (level xs 9) x := by
        intro x below
        exact decide_eq_true ((of_decide_eq_true below).trans lt)
      have has : beyond false (level xs 1) lo := by
        apply decide_eq_true
        rw [lev]
        linarith
      have mem : lo ∈ xs := List.min?_mem bottom
      refine ⟨_, _, ?_, crosses_findIdx sub mem has⟩
      exact congrArg (Option.map Prod.swap) (firstThen_eq sub mem has)

/-- A measured time: that of the transition of the window, unless it is flat. -/
structure MeasuredUs (xs : List ℚ) (sr : ℚ) (rise : Bool) (us : Option ℚ) : Prop where
  none_iff : us = none ↔ Flat xs
  time : ∀ t, us = some t → ∃ i j, Crosses xs rise i j ∧ t = ((j - i : ℕ) : ℚ) / sr * 1000000

theorem measured_transition (xs : List ℚ) (sr : ℚ) (rise : Bool) :
    MeasuredUs xs sr rise ((transition xs rise).map fun (i10, i90) => |(i10 : ℚ) - i90| / sr * 1000000) := by
  by_cases flat : Flat xs
  · have none : transition xs rise = none := if_pos flat
    rw [none]
    refine ⟨⟨fun _ => flat, fun _ => rfl⟩, ?_⟩
    intro t time
    cases time
  · obtain ⟨i, j, found, crosses⟩ := transition_crosses flat rise
    have distance : |(j : ℚ) - i| = ((j - i : ℕ) : ℚ) := by
      rw [Nat.cast_sub crosses.order, abs_of_nonneg]
      exact sub_nonneg.2 (Nat.cast_le.2 crosses.order)
    rw [found]
    refine ⟨⟨(nomatch ·), fun is_flat => absurd is_flat flat⟩, ?_⟩
    intro t time
    refine ⟨i, j, crosses, ?_⟩
    cases Option.some.inj time
    cases rise with
    | true =>
      change |(i : ℚ) - j| / sr * 1000000 = _
      rw [abs_sub_comm, distance]
    | false =>
      change |(j : ℚ) - i| / sr * 1000000 = _
      rw [distance]

/-- A window that is longer than the padding is measured. -/
theorem measureTransitionUs_of_long {smoothed : Nat → List Sample → List ℚ} {iqSeg : List Sample}
    {start stop : Int} (sr : ℚ) (rise : Bool) {taps : Nat} (positive : 0 < taps)
    (long : (3 * taps : Int) < min (iqSeg.length : Int) stop - max 0 start) :
    ∃ us, measureTransitionUs smoothed iqSeg start stop sr rise taps = some us ∧
      MeasuredUs (smoothed taps (Np.slice iqSeg (max 0 start) (min (iqSeg.length : Int) stop))) sr rise us := by
  have length := Np.length_slice iqSeg (le_max_left 0 start) (min_le_left (iqSeg.length : Int) stop)
    (by omega)
  have padding : padLen taps = 3 * taps := by
    rw [padLen, max_eq_right positive]
  refine ⟨_, ?_, measured_transition _ sr rise⟩
  unfold measureTransitionUs
  dsimp only
  rw [if_neg (by omega), if_neg (by omega)]

end StreamWeb.Timing

import Mathlib.Order.Bounds.Basic
import StreamWeb.Spectrum.Fcc

/-!
# The verdict and the numbers it reports

The overlay and `/api/fcc_check` both draw on the fields of one result. Two
walks away from the carrier give its bandwidth, a loop over the peaks the spurs
with their count and the worst of them; `Verdict` says how these fields go
together, whatever `find_peaks` returns.
-/

namespace StreamWeb.Spectrum

open Config

/-- What the fields of a result say of the trace and of each other. -/
structure Verdict (t : Trace) (binHz : ℚ) (r : FccResult) : Prop where
  carrier : r.carrierPowerDB = t.powerDB r.carrierIdx
  indices : r.bwLoIdx ≤ r.carrierIdx ∧ r.carrierIdx ≤ r.bwHiIdx ∧ r.bwHiIdx < t.avgDB.length
  inside : ∀ i, r.bwLoIdx < i → i < r.bwHiIdx → r.carrierPowerDB - 20 < t.powerDB i
  lowEnd : t.powerDB r.bwLoIdx ≤ r.carrierPowerDB - 20 ∨ r.bwLoIdx = 0
  highEnd : t.powerDB r.bwHiIdx ≤ r.carrierPowerDB - 20 ∨ r.bwHiIdx = t.avgDB.length - 1
  outside : ∀ s ∈ r.spurs, ¬(r.bwLoIdx ≤ s.idx ∧ s.idx ≤ r.bwHiIdx) ∧
    t.guard binHz < |(s.idx : Int) - r.carrierIdx|
  worst_none : r.worstDbc = none ↔ r.spurs = []
  worst : ∀ w, r.worstDbc = some w → IsGreatest {dbc | ∃ s ∈ r.spurs, s.dbc = dbc} w
  failures : r.nSpurFail = r.spurs.countP fun s => -r.spurLimitDbc < s.dbc
  overall : r.overallOk = true ↔
    r.bw20DBHz ≤ r.bwLimitHz ∧ ∀ w, r.worstDbc = some w → w ≤ -r.spurLimitDbc

/-! ## The walks -/

namespace Trace

variable (t : Trace) (thr : ℚ)

/-- The walk down stops at the first bin that is not above the threshold, or at the edge. -/
theorem walkDown_spec (i : Nat) :
    t.walkDown thr i ≤ i ∧ (∀ k, t.walkDown thr i < k → k ≤ i → thr < t.powerDB k) ∧
      (t.powerDB (t.walkDown thr i) ≤ thr ∨ t.walkDown thr i = 0) := by
  induction i with
  | zero =>
    refine ⟨le_refl 0, ?_, .inr rfl⟩
    intro k low high
    exact absurd low (not_lt_of_ge high)
  | succ i ih =>
    rw [walkDown]
    split_ifs with above
    · obtain ⟨le, between, stop⟩ := ih
      refine ⟨by omega, ?_, stop⟩
      intro k low high
      rcases Nat.eq_or_lt_of_le high with rfl | lt
      · exact above
      · exact between k low (by omega)
    · refine ⟨le_refl _, ?_, .inl (not_lt.1 above)⟩
      intro k low high
      exact absurd low (not_lt_of_ge high)

/-- The walk up does so within its room. -/
theorem walkUp_spec (room i : Nat) :
    i ≤ t.walkUp thr room i ∧ t.walkUp thr room i ≤ i + room ∧
      (∀ k, i ≤ k → k < t.walkUp thr room i → thr < t.powerDB k) ∧
      (t.powerDB (t.walkUp thr room i) ≤ thr ∨ t.walkUp thr room i = i + room) := by
  induction room generalizing i with
  | zero =>
    refine ⟨le_refl i, le_refl i, ?_, .inr rfl⟩
    intro k low high
    exact absurd low (not_le_of_gt high)
  | succ room ih =>
    rw [walkUp]
    split_ifs with above
    · obtain ⟨ge, le, between, stop⟩ := ih (i + 1)
      refine ⟨by omega, by omega, ?_, stop.imp id fun edge => by omega⟩
      intro k low high
      rcases Nat.eq_or_lt_of_le low with rfl | lt
      · exact above
      · exact between k lt high
    · refine ⟨le_refl i, by omega, ?_, .inl (not_lt.1 above)⟩
      intro k low high
      exact absurd low (not_le_of_gt high)

theorem peakIdx_lt (some_bins : t.avgDB ≠ []) : t.peakIdx < t.avgDB.length := by
  unfold peakIdx
  cases largest : Np.argmax t.avgDB with
  | none =>
    have empty := List.argmax_eq_none.1 largest
    rw [List.range_eq_nil, List.length_eq_zero_iff] at empty
    exact absurd empty some_bins
  | some i => exact Np.argmax_lt largest

/-- A bin outside of the guard is outside of the bandwidth. -/
theorem outside_of_guard (binHz : ℚ) {p : Nat} (far : t.guard binHz < |(p : Int) - t.peakIdx|) :
    ¬(t.bwLo ≤ p ∧ p ≤ t.bwHi) := by
  rintro ⟨low, high⟩
  have lower : (t.peakIdx : Int) - t.bwLo ≤ t.guard binHz - 3 := by
    unfold guard
    omega
  have upper : (t.bwHi : Int) - t.peakIdx ≤ t.guard binHz - 3 := by
    unfold guard
    omega
  rw [lt_abs] at far
  omega

end Trace

/-! ## The loop over the peaks -/

variable {t : Trace} {binHz : ℚ}

/-- The accumulators agree with the spurs listed so far. -/
structure Scored (t : Trace) (binHz : ℚ) (score : SpurScore) : Prop where
  outside : ∀ s ∈ score.spurs, t.guard binHz < |(s.idx : Int) - t.peakIdx|
  worst_none : score.worstDbc = none ↔ score.spurs = []
  worst : ∀ w, score.worstDbc = some w → IsGreatest {dbc | ∃ s ∈ score.spurs, s.dbc = dbc} w
  failures : score.nSpurFail = score.spurs.countP fun s => -spurLimitDbc < s.dbc

theorem scored_empty : Scored t binHz ⟨[], 0, none⟩ := by
  constructor
  · simp
  · simp
  · simp
  · rfl

/-- One more spur, after which the greatest is still the worst. -/
theorem isGreatest_worse {spurs : List Spur} {worst : Option ℚ} (none_yet : worst = none ↔ spurs = [])
    (greatest : ∀ w, worst = some w → IsGreatest {dbc | ∃ s ∈ spurs, s.dbc = dbc} w) (s : Spur) :
    ∃ w, worse worst s.dbc = some w ∧ IsGreatest {dbc | ∃ s' ∈ spurs ++ [s], s'.dbc = dbc} w := by
  cases worst with
  | none =>
    rw [none_yet.1 rfl]
    refine ⟨s.dbc, rfl, ⟨s, by simp, rfl⟩, ?_⟩
    rintro _ ⟨s', mem, rfl⟩
    rw [List.nil_append, List.mem_singleton] at mem
    rw [mem]
  | some w =>
    obtain ⟨⟨top, listed, rfl⟩, bound⟩ := greatest w rfl
    unfold worse
    simp only
    split_ifs with higher
    · refine ⟨s.dbc, rfl, ⟨s, by simp, rfl⟩, ?_⟩
      rintro _ ⟨s', mem, rfl⟩
      rcases List.mem_append.1 mem with old | new
      · exact (bound ⟨s', old, rfl⟩).trans higher.le
      · rw [List.mem_singleton.1 new]
    · refine ⟨top.dbc, rfl, ⟨top, List.mem_append_left _ listed, rfl⟩, ?_⟩
      rintro _ ⟨s', mem, rfl⟩
      rcases List.mem_append.1 mem with old | new
      · exact bound ⟨s', old, rfl⟩
      · rw [List.mem_singleton.1 new]
        exact not_lt.1 higher

theorem Scored.step {score : SpurScore} (scored : Scored t binHz score) (p : Nat) :
    Scored t binHz (scorePeak t binHz score p) := by
  unfold scorePeak
  split_ifs with near
  · exact scored
  · obtain ⟨w, worst, greatest⟩ := isGreatest_worse scored.worst_none scored.worst
      ⟨p, t.freqsHz.getD p 0, t.powerDB p, t.dbc p, t.dbc p ≤ -spurLimitDbc⟩
    constructor
    · intro s mem
      rcases List.mem_append.1 mem with old | new
      · exact scored.outside s old
      · rw [List.mem_singleton.1 new]
        exact not_le.1 near
    · rw [worst]
      simp
    · intro w' same
      rw [worst] at same
      cases same
      exact greatest
    · rw [List.countP_append, ← scored.failures]
      by_cases low : t.dbc p ≤ -spurLimitDbc
      · simp [low]
      · simp [low, not_le.1 low]

/-- **The loop** ends with accumulators that agree with its spurs. -/
theorem scored_foldl (ps : List Nat) {score : SpurScore} (scored : Scored t binHz score) :
    Scored t binHz (ps.foldl (scorePeak t binHz) score) := by
  induction ps generalizing score with
  | nil => exact scored
  | cons p ps ih => exact ih (scored.step p)

/-- **The verdict is determined by the numbers reported**: for every trace, every bin width and every
list of candidates, whenever the check returns a result. -/
theorem verdict_of_result (select : DistanceFilter) (t : Trace) (binHz : ℚ) (r : FccResult)
    (detected : evaluateFccCompliance select t binHz = .ok (some r)) : Verdict t binHz r := by
  have some_bins : t.avgDB ≠ [] := by
    intro empty
    rw [evaluateFccCompliance, empty] at detected
    cases detected
  rw [evaluateFccCompliance_some detected]
  have peak := t.peakIdx_lt some_bins
  obtain ⟨below, between, lowEnd⟩ := t.walkDown_spec t.thrDB t.peakIdx
  obtain ⟨above, room, between', highEnd⟩ :=
    t.walkUp_spec t.thrDB (t.avgDB.length - 1 - t.peakIdx) t.peakIdx
  have scored : Scored t binHz (scorePeaks select t binHz) := scored_foldl _ scored_empty
  constructor
  · rfl
  · refine ⟨below, above, ?_⟩
    show t.walkUp _ _ _ < _
    omega
  · intro i low high
    rcases Nat.le_total i t.peakIdx with le | ge
    · exact between i low le
    · exact between' i ge high
  · exact lowEnd
  · refine highEnd.imp id fun edge => ?_
    show t.walkUp _ _ _ = _
    omega
  · intro s mem
    have far := scored.outside s mem
    exact ⟨t.outside_of_guard binHz far, far⟩
  · exact scored.worst_none
  · exact scored.worst
  · exact scored.failures
  · have bandwidth : t.spacingOk binHz = true ↔ t.bwHz binHz ≤ 3 / 2 * channelSpacing := by
      rw [Trace.spacingOk, decide_eq_true_iff]
      constructor <;> intro bound <;> linarith
    have spurs : (scorePeaks select t binHz).nSpurFail = 0 ↔
        ∀ w, (scorePeaks select t binHz).worstDbc = some w → w ≤ -spurLimitDbc := by
      rw [scored.failures, List.countP_eq_zero]
      simp only [decide_eq_true_eq, not_lt]
      constructor
      · intro pass w worst
        obtain ⟨s, mem, rfl⟩ := (scored.worst w worst).1
        exact pass s mem
      · intro low s mem
        obtain ⟨w, worst⟩ := Option.ne_none_iff_exists'.1 fun gone =>
          List.ne_nil_of_mem mem (scored.worst_none.1 gone)
        exact ((scored.worst w worst).2 ⟨s, mem, rfl⟩).trans (low w worst)
    show (t.spacingOk binHz && decide ((scorePeaks select t binHz).nSpurFail = 0)) = true ↔ _
    rw [Bool.and_eq_true, decide_eq_true_iff, bandwidth, spurs]
    rfl

/-- The result for the carrier with a spur nine bins above it. -/
theorem verdict_of_result_spur :
    Verdict (twoPeaksTrace 3) 3000 (fccResult keepHighest (twoPeaksTrace 3) 3000) :=
  verdict_of_result keepHighest (twoPeaksTrace 3) 3000 _ (by decide +kernel)

end StreamWeb.Spectrum

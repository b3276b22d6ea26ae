import Mathlib.Tactic.Linarith
import StreamWeb.Config
import StreamWeb.Spectrum.FindPeaks

/-!
# The compliance check

`evaluate_fcc_compliance` takes the highest bin of a trace for the carrier and
fails the transmitter when its bandwidth is too wide, or when a peak outside of
the carrier's channel is too close to it in power.

`find_peaks` removes peaks that are close to higher ones, and it does so before
the guard and the prominence rule some of those out: `spur_fails_iff` is the
exact condition under which a spur is still found.
-/

namespace StreamWeb.Spectrum

open Config

/-- A trace with the frequency of each of its bins. -/
structure Trace where
  avgDB : List ℚ
  freqsHz : List ℚ
  aligned : freqsHz.length = avgDB.length

/-- Why the check raises: `np.argmax` of nothing, or a bin width of zero. -/
inductive FccError where
  | valueError
  | zeroDivisionError
  deriving DecidableEq

structure Spur where
  idx : Nat
  freqHz : ℚ
  powerDB : ℚ
  dbc : ℚ
  pass : Bool
  deriving DecidableEq

structure FccResult where
  carrierIdx : Nat
  carrierFreqHz : ℚ
  carrierPowerDB : ℚ
  noiseFloorDB : ℚ
  snrDB : ℚ
  bw20DBHz : ℚ
  bwLoIdx : Nat
  bwHiIdx : Nat
  bwThresholdDB : ℚ
  bwLimitHz : ℚ
  channelSpacingHz : ℚ
  spacingOk : Bool
  spurLimitDbc : ℚ
  spurLimitDB : ℚ
  spurs : List Spur
  nSpurFail : Nat
  worstDbc : Option ℚ
  spursOk : Bool
  overallOk : Bool
  deriving DecidableEq

/-! ## The carrier -/

namespace Trace

variable (t : Trace)

/-- `avg_dB[i]`. -/
def powerDB (i : Nat) : ℚ := t.avgDB.getD i 0

def noiseDB : ℚ := Np.median t.avgDB

def peakIdx : Nat := (Np.argmax t.avgDB).getD 0

def peakDB : ℚ := t.powerDB t.peakIdx

def thrDB : ℚ := t.peakDB - 20

/-- Down from `i` while the trace is above the threshold. -/
def walkDown (thr : ℚ) : Nat → Nat
  | 0 => 0
  | i + 1 => if thr < t.powerDB (i + 1) then walkDown thr i else i + 1

/-- Up from `i`, at most `room` bins, while the trace is above the threshold. -/
def walkUp (thr : ℚ) : Nat → Nat → Nat
  | 0, i => i
  | room + 1, i => if thr < t.powerDB i then walkUp thr room (i + 1) else i

def bwLo : Nat := t.walkDown t.thrDB t.peakIdx

def bwHi : Nat := t.walkUp t.thrDB (t.avgDB.length - 1 - t.peakIdx) t.peakIdx

def bwHz (binHz : ℚ) : ℚ := ((t.bwHi : ℚ) - t.bwLo) * binHz

def spacingOk (binHz : ℚ) : Bool := 2 / 3 * t.bwHz binHz ≤ channelSpacing

/-! ## Spurious emissions -/

/-- The bins around the carrier that are not searched. -/
def guard (binHz : ℚ) : Int :=
  max (max ((t.peakIdx : Int) - t.bwLo) (t.bwHi - t.peakIdx)) (Py.int (channelSpacing / 2 / binHz)) + 3

def dbc (p : Nat) : ℚ := t.powerDB p - t.peakDB

end Trace

/-- The least number of bins between two peaks. -/
def sepBins (binHz : ℚ) : Nat := (max 1 (Py.int (spurMinSepKHz * 1000 / binHz))).toNat

variable (select : DistanceFilter) (t : Trace) (binHz : ℚ)

/-- `cand`, the peaks that are scored. -/
def candidates : List Nat :=
  findPeaks t.avgDB select (t.noiseDB + spurMinSnrDB) (sepBins binHz) spurMinProminenceDB

/-- The accumulators of the loop over the peaks. -/
structure SpurScore where
  spurs : List Spur
  nSpurFail : Nat
  worstDbc : Option ℚ

def worse (worst : Option ℚ) (dbc : ℚ) : Option ℚ :=
  match worst with
  | none => some dbc
  | some w => if w < dbc then some dbc else some w

def scorePeak (score : SpurScore) (p : Nat) : SpurScore :=
  if |(p : Int) - t.peakIdx| ≤ t.guard binHz then score
  else
    let spurOk : Bool := t.dbc p ≤ -spurLimitDbc
    { worstDbc := worse score.worstDbc (t.dbc p)
      nSpurFail := if spurOk then score.nSpurFail else score.nSpurFail + 1
      spurs := score.spurs ++ [⟨p, t.freqsHz.getD p 0, t.powerDB p, t.dbc p, spurOk⟩] }

def scorePeaks : SpurScore := (candidates select t binHz).foldl (scorePeak t binHz) ⟨[], 0, none⟩

def fccResult : FccResult where
  carrierIdx := t.peakIdx
  carrierFreqHz := t.freqsHz.getD t.peakIdx 0
  carrierPowerDB := t.peakDB
  noiseFloorDB := t.noiseDB
  snrDB := t.peakDB - t.noiseDB
  bw20DBHz := t.bwHz binHz
  bwLoIdx := t.bwLo
  bwHiIdx := t.bwHi
  bwThresholdDB := t.thrDB
  bwLimitHz := 3 / 2 * channelSpacing
  channelSpacingHz := channelSpacing
  spacingOk := t.spacingOk binHz
  spurLimitDbc := spurLimitDbc
  spurLimitDB := t.peakDB - spurLimitDbc
  spurs := (scorePeaks select t binHz).spurs
  nSpurFail := (scorePeaks select t binHz).nSpurFail
  worstDbc := (scorePeaks select t binHz).worstDbc
  spursOk := (scorePeaks select t binHz).nSpurFail = 0
  overallOk := t.spacingOk binHz && (scorePeaks select t binHz).nSpurFail = 0

/-- The check: `none` when no tone stands out of the noise. -/
def evaluateFccCompliance : Except FccError (Option FccResult) :=
  if t.avgDB.isEmpty then .error .valueError
  else if t.peakDB - t.noiseDB < fccOverlayMinSnrDB then .ok none
  else if binHz = 0 then .error .zeroDivisionError
  else .ok (some (fccResult select t binHz))

/-! ## What is scored -/

variable {select t binHz}

theorem evaluateFccCompliance_some {r : FccResult}
    (detected : evaluateFccCompliance select t binHz = .ok (some r)) : r = fccResult select t binHz := by
  unfold evaluateFccCompliance at detected
  split at detected
  · cases detected
  split at detected
  · cases detected
  split at detected
  · cases detected
  · cases detected
    rfl

/-- No peak is counted if and only if all outside of the guard are below the limit. -/
theorem foldl_scorePeak_nSpurFail (score : SpurScore) (ps : List Nat) :
    (ps.foldl (scorePeak t binHz) score).nSpurFail = 0 ↔ score.nSpurFail = 0 ∧
      ∀ p ∈ ps, t.guard binHz < |(p : Int) - t.peakIdx| → t.dbc p ≤ -spurLimitDbc := by
  induction ps generalizing score with
  | nil => simp
  | cons p ps ih =>
    rw [List.foldl_cons, ih, List.forall_mem_cons, ← and_assoc]
    apply and_congr_left
    intro _
    unfold scorePeak
    by_cases near : |(p : Int) - t.peakIdx| ≤ t.guard binHz
    · simp [near, not_lt.2 near]
    · by_cases low : t.dbc p ≤ -spurLimitDbc
      · simp [near, low]
      · simp [near, not_le.1 near, low]

/-- A peak that the check is meant to fail. -/
structure IsSpur (t : Trace) (binHz : ℚ) (q : Nat) : Prop where
  peak : q ∈ localMaxima t.avgDB
  outside : t.guard binHz < |(q : Int) - t.peakIdx|
  tall : t.noiseDB + spurMinSnrDB ≤ t.powerDB q
  prominent : spurMinProminenceDB ≤ prominence t.avgDB q
  strong : t.peakDB - spurLimitDbc < t.powerDB q

/-- The peaks that pass the height and the distance filter. -/
def kept (select : DistanceFilter) (t : Trace) (binHz : ℚ) : List Nat :=
  select (fun i => t.avgDB.getD i 0) (sepBins binHz)
    ((localMaxima t.avgDB).filter fun i => t.noiseDB + spurMinSnrDB ≤ t.avgDB.getD i 0)

/-- A peak that is not scored: it lies within the guard or is not prominent. -/
def Discarded (t : Trace) (binHz : ℚ) (k : Nat) : Prop :=
  |(k : Int) - t.peakIdx| ≤ t.guard binHz ∨ prominence t.avgDB k < spurMinProminenceDB

instance : DecidablePred (Discarded t binHz) := fun _ => inferInstanceAs (Decidable (_ ∨ _))

theorem mem_kept (doc : KeepsHigher select) {k : Nat} (mem : k ∈ kept select t binHz) :
    k ∈ localMaxima t.avgDB ∧ t.noiseDB + spurMinSnrDB ≤ t.powerDB k := by
  obtain ⟨peak, tall⟩ := List.mem_filter.1 ((doc.sublist _ _ _).subset mem)
  exact ⟨peak, of_decide_eq_true tall⟩

theorem kept_apart (doc : KeepsHigher select) {q k : Nat} (hq : q ∈ kept select t binHz)
    (hk : k ∈ kept select t binHz) (ne : q ≠ k) : FarApart (sepBins binHz) q k := by
  have symm : Std.Symm (FarApart (sepBins binHz)) := ⟨fun _ _ => FarApart.symm⟩
  have apart : (kept select t binHz).Pairwise (FarApart (sepBins binHz)) :=
    doc.apart _ _ _ ((localMaxima_sorted t.avgDB).sublist List.filter_sublist)
  exact apart.forall hq hk ne

/-- The check fails on a bandwidth too wide, or on a spur that was kept. -/
theorem overallOk_eq_false_iff (doc : KeepsHigher select) :
    (fccResult select t binHz).overallOk = false ↔
      t.spacingOk binHz = false ∨ ∃ q ∈ kept select t binHz, IsSpur t binHz q := by
  have failing : (scorePeaks select t binHz).nSpurFail = 0 ↔
      ¬∃ q ∈ kept select t binHz, IsSpur t binHz q := by
    rw [scorePeaks, foldl_scorePeak_nSpurFail]
    constructor
    · rintro ⟨-, passes⟩ ⟨q, mem, spur⟩
      have cand : q ∈ candidates select t binHz := List.mem_filter.2 ⟨mem, decide_eq_true spur.prominent⟩
      have := passes q cand spur.outside
      have := spur.strong
      unfold Trace.dbc at *
      linarith
    · intro none
      refine ⟨rfl, fun q cand outside => ?_⟩
      obtain ⟨mem, prominent⟩ := List.mem_filter.1 cand
      obtain ⟨peak, tall⟩ := mem_kept doc mem
      by_contra strong
      apply none
      refine ⟨q, mem, peak, outside, tall, of_decide_eq_true prominent, ?_⟩
      unfold Trace.dbc at strong
      linarith
  unfold fccResult
  dsimp only
  rw [Bool.and_eq_false_iff, decide_eq_false_iff_not, failing, not_not]

/-- A spur is kept if and only if some spur has no kept peak that is discarded
in front of it. -/
theorem exists_kept_spur_iff (doc : KeepsHigher select) :
    (∃ q ∈ kept select t binHz, IsSpur t binHz q) ↔
      ∃ q, IsSpur t binHz q ∧ ∀ k ∈ kept select t binHz, Discarded t binHz k → t.powerDB q ≤ t.powerDB k →
        FarApart (sepBins binHz) q k := by
  constructor
  · rintro ⟨q, mem, spur⟩
    refine ⟨q, spur, ?_⟩
    intro k mem' discarded _
    have ne : q ≠ k := by
      rintro rfl
      rcases discarded with near | flat
      · exact absurd spur.outside (not_lt.2 near)
      · exact absurd spur.prominent (not_le.2 flat)
    exact kept_apart doc mem mem' ne
  · rintro ⟨q, spur, clear⟩
    by_cases mem : q ∈ kept select t binHz
    · exact ⟨q, mem, spur⟩
    · -- what removed it is not discarded, so it is a spur itself
      have tall : q ∈ (localMaxima t.avgDB).filter fun i => t.noiseDB + spurMinSnrDB ≤ t.avgDB.getD i 0 :=
        List.mem_filter.2 ⟨spur.peak, decide_eq_true spur.tall⟩
      obtain ⟨k, mem', close, higher⟩ := doc.higher _ _ _ q tall mem
      have scored : ¬Discarded t binHz k := fun discarded => close (clear k mem' discarded higher)
      obtain ⟨outside, prominent⟩ := not_or.1 scored
      obtain ⟨peak, tall⟩ := mem_kept doc mem'
      refine ⟨k, mem', peak, not_le.1 outside, tall, not_lt.1 prominent, ?_⟩
      exact lt_of_lt_of_le spur.strong higher

/-- **Soundness of a pass for spurs**: a spur makes the check fail if and only
if the bandwidth does, or some spur is not close to a peak, at least as high,
that `find_peaks` keeps and the check discards. -/
theorem spur_fails_iff (select : DistanceFilter) (doc : KeepsHigher select) (t : Trace) (binHz : ℚ)
    (r : FccResult) (detected : evaluateFccCompliance select t binHz = .ok (some r)) :
    ((∃ q, IsSpur t binHz q) → r.overallOk = false) ↔
      (t.spacingOk binHz = false ∨ ((∃ q, IsSpur t binHz q) →
        ∃ q, IsSpur t binHz q ∧ ∀ k ∈ kept select t binHz, Discarded t binHz k → t.powerDB q ≤ t.powerDB k →
          FarApart (sepBins binHz) q k)) := by
  rw [evaluateFccCompliance_some detected, overallOk_eq_false_iff doc, ← exists_kept_spur_iff doc]
  tauto

/-! ## A spur behind a peak inside of the guard -/

/-- A carrier of 0 dB in the middle of 41 bins at -40 dB, with a peak of -5 dB
`inner` bins above it and one of -10 dB nine bins above it. -/
def twoPeaks (inner : Nat) : List ℚ :=
  (List.range 41).map fun i : Nat =>
    if i = 20 then 0 else if i = 20 + inner then -5 else if i = 29 then -10 else -40

def twoPeaksTrace (inner : Nat) : Trace where
  avgDB := twoPeaks inner
  freqsHz := (List.range 41).map fun i : Nat => ((i : ℚ) - 20) * 3000
  aligned := by simp [twoPeaks]

theorem isSpur_twoPeaks {inner : Nat} (close : inner = 3 ∨ inner = 7) :
    IsSpur (twoPeaksTrace inner) 3000 29 := by
  rcases close with rfl | rfl <;> constructor <;> decide +kernel

/-- Three bins above the carrier the inner peak is far enough from the spur, which fails the check. -/
theorem spur_fails_three :
    (fccResult keepHighest (twoPeaksTrace 3) 3000).overallOk = false := by
  have detected : evaluateFccCompliance keepHighest (twoPeaksTrace 3) 3000 =
      .ok (some (fccResult keepHighest (twoPeaksTrace 3) 3000)) := by
    decide +kernel
  have spur := isSpur_twoPeaks (.inl rfl : 3 = 3 ∨ 3 = 7)
  refine (spur_fails_iff keepHighest keepHighest_keepsHigher (twoPeaksTrace 3) 3000 _ detected).2
    (.inr fun _ => ⟨29, spur, ?_⟩) ⟨29, spur⟩
  decide +kernel

/-- **A spur that passes**: seven bins above the carrier, the last of the guard,
the inner peak removes the spur and is then discarded itself. -/
theorem masked_spur_passes :
    KeepsHigher keepHighest ∧
      evaluateFccCompliance keepHighest (twoPeaksTrace 7) 3000 =
        .ok (some (fccResult keepHighest (twoPeaksTrace 7) 3000)) ∧
      IsSpur (twoPeaksTrace 7) 3000 29 ∧
      (fccResult keepHighest (twoPeaksTrace 7) 3000).overallOk = true := by
  refine ⟨keepHighest_keepsHigher, by decide +kernel, isSpur_twoPeaks (.inr rfl), by decide +kernel⟩

end StreamWeb.Spectrum

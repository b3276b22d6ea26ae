import StreamWeb.Data
import StreamWeb.Spectrum.Notch
import StreamWeb.Spectrum.Verdict

/-!
# The one-shot compliance check

`spectrum_traces` collapses spectrogram chunks over time, and both the overlay
of the spectrum view and `GET /api/fcc_check` evaluate the average trace. The
transcendental functions of the decibels are parameters, as is
`compute_spec_chunk` of the decoder package.

`fccReply_consistent` is what a client may rely on: the verdict of a reply can
be recomputed from the numbers in it. `fcc_check_agrees` is that the reply and
the picture cannot disagree about the same columns, in whatever order and
however cut they come.
-/

namespace StreamWeb.Spectrum

open Config

/-! ## The traces -/

/-- `Sxx_dB` of a chunk: the power of every bin over time. -/
structure SpecChunk (nBins : ℕ) where
  rows : List (List ℚ)
  length_rows : rows.length = nBins

/-- `np.power(10.0, x)` and `np.log10(x)`. -/
structure Decibels where
  power10 : ℚ → ℚ
  log10 : ℚ → ℚ

variable {nBins : ℕ}

/-- One bin of `np.concatenate(chunks, axis=1)`. -/
def binRow (chunks : List (SpecChunk nBins)) (i : ℕ) : List ℚ :=
  chunks.flatMap fun chunk => chunk.rows.getD i []

/-- `10.0 * np.log10(np.mean(lin) + 1e-12)` of a bin. -/
def avgOf (D : Decibels) (row : List ℚ) : ℚ :=
  10 * D.log10 ((row.map fun x => D.power10 (x / 10)).sum / row.length + 1 / 10 ^ 12)

/-- The average and the peak-hold trace. -/
structure Traces (nBins : ℕ) where
  avgDB : List ℚ
  peakDB : List ℚ
  length_avgDB : avgDB.length = nBins

/-- `np.concatenate` refuses no chunks, and `np.max` no columns. -/
def spectrumTraces (D : Decibels) (chunks : List (SpecChunk nBins)) : Option (Traces nBins) :=
  if chunks.isEmpty ∨ ∃ i < nBins, binRow chunks i = [] then none
  else
    some {
      avgDB := interpolateDc ((List.range nBins).map fun i => avgOf D (binRow chunks i)) specDcNotchBins
      peakDB := interpolateDc ((List.range nBins).map fun i => (binRow chunks i).maximum.unbotD 0)
        specDcNotchBins
      length_avgDB := by simp }

/-- The width of a bin. -/
def binHz (nBins : ℕ) : ℚ := sampleRate / nBins

/-- `(np.arange(n_bins) - n_bins // 2) * bin_hz + center_freq_hz` -/
def freqsHz (nBins : ℕ) (centerFreqHz : ℤ) : List ℚ :=
  (List.range nBins).map fun i : ℕ => ((i : ℚ) - (nBins / 2 : ℕ)) * binHz nBins + centerFreqHz

/-- The average trace on its axis. -/
def Traces.onAxis (traces : Traces nBins) (centerFreqHz : ℤ) : Trace where
  avgDB := traces.avgDB
  freqsHz := freqsHz nBins centerFreqHz
  aligned := by rw [traces.length_avgDB, freqsHz, List.length_map, List.length_range]

/-- From chunks to the compliance check, as both callers do it. -/
def evaluateChunks (D : Decibels) (select : DistanceFilter) (chunks : List (SpecChunk nBins))
    (centerFreqHz : ℤ) : Except FccError (Option FccResult) :=
  if nBins = 0 then .error .zeroDivisionError
  else
    match spectrumTraces D chunks with
    | none => .error .valueError
    | some traces => evaluateFccCompliance select (traces.onAxis centerFreqHz) (binHz nBins)

/-! ## The reply -/

structure Carrier where
  freqHz : ℚ
  offsetFromLoHz : ℚ
  powerDB : ℚ
  snrDB : ℚ

structure OccupiedBandwidth where
  pass : Bool
  rule : String
  bw20DBHz : ℚ
  limitHz : ℚ
  channelSpacingHz : ℚ

structure SpuriousEmissions where
  pass : Bool
  rule : String
  nSpurs : ℕ
  nOverLimit : ℕ
  worstDbc : Option ℚ
  limitDbc : ℚ

structure SpurLine where
  freqHz : ℚ
  powerDB : ℚ
  dbc : ℚ
  pass : Bool

structure AnalysisInfo where
  seconds : ℤ
  nChunks : ℕ
  nfft : ℕ
  binHz : ℚ
  spanHz : ℚ
  centerFreqHz : ℤ
  rxGainDB : ℚ
  minSnrDB : ℚ
  dcNotchHz : ℚ

/-- What a reply says of a carrier. -/
structure Measured where
  carrier : Carrier
  occupiedBandwidth : OccupiedBandwidth
  spuriousEmissions : SpuriousEmissions
  spurs : List SpurLine

/-- The body of `/api/fcc_check`. -/
structure FccReply where
  state : String
  pass : Option Bool
  measured : Option Measured
  analysis : AnalysisInfo

/-- Why there is none: the reply of status 400, or an exception. -/
inductive FccCheckError where
  | tooShort
  | raised (e : FccError)
  deriving DecidableEq

def Spur.line (s : Spur) : SpurLine := ⟨s.freqHz, s.powerDB, s.dbc, s.pass⟩

def measuredOf (fcc : FccResult) (centerFreqHz : ℤ) : Measured where
  carrier := ⟨fcc.carrierFreqHz, fcc.carrierFreqHz - centerFreqHz, fcc.carrierPowerDB, fcc.snrDB⟩
  occupiedBandwidth :=
    ⟨fcc.spacingOk, "FCC 15.247(a)(1)", fcc.bw20DBHz, fcc.bwLimitHz, fcc.channelSpacingHz⟩
  spuriousEmissions :=
    ⟨fcc.spursOk, "FCC 15.247(d)", fcc.spurs.length, fcc.nSpurFail, fcc.worstDbc, -fcc.spurLimitDbc⟩
  spurs := fcc.spurs.map Spur.line

def fccReply (fcc : Option FccResult) (info : AnalysisInfo) : FccReply :=
  match fcc with
  | none => ⟨"no_signal", none, none, info⟩
  | some fcc =>
    { state := if fcc.overallOk then "pass" else "fail"
      pass := some fcc.overallOk
      measured := some (measuredOf fcc info.centerFreqHz)
      analysis := info }

/-- The `i`-th piece of a segment that is one chunk long. -/
def chunkPiece (segment : List Sample) (i : ℕ) : List Sample :=
  Np.slice segment (i * specChunkSamples) ((i + 1) * specChunkSamples)

def segmentChunks (computeSpecChunk : List Sample → SpecChunk nBins) (segment : List Sample) :
    List (SpecChunk nBins) :=
  (List.range (segment.length / specChunkSamples)).map fun i => computeSpecChunk (chunkPiece segment i)

def analysisInfo (nBins : ℕ) (seconds : ℤ) (nChunks : ℕ) (centerFreqHz : ℤ) (rxGainDB : ℚ) :
    AnalysisInfo where
  seconds
  nChunks
  nfft := nBins
  binHz := binHz nBins
  spanHz := sampleRate
  centerFreqHz
  rxGainDB
  minSnrDB := fccOverlayMinSnrDB
  dcNotchHz := (2 * specDcNotchBins + 1) * binHz nBins

/-- `api_fcc_check` behind the capture. -/
def fccCheck (D : Decibels) (select : DistanceFilter) (computeSpecChunk : List Sample → SpecChunk nBins)
    (seconds : ℤ) (segment : List Sample) (centerFreqHz : ℤ) (rxGainDB : ℚ) :
    Except FccCheckError FccReply :=
  let chunks := segmentChunks computeSpecChunk segment
  if chunks.length < 1 then .error .tooShort
  else
    match evaluateChunks D select chunks centerFreqHz with
    | .error e => .error (.raised e)
    | .ok fcc => .ok (fccReply fcc (analysisInfo nBins seconds chunks.length centerFreqHz rxGainDB))

/-- `render_spectrum_image`, as far as it measures: the overlay it draws. -/
def spectrumOverlay (D : Decibels) (select : DistanceFilter) (chunks : List (SpecChunk nBins))
    (loFreqHz : ℤ) : Except FccError (Option FccResult) :=
  if chunks.isEmpty then .ok none
  else evaluateChunks D select (chunks.drop (chunks.length - spectrumAvgChunks)) loFreqHz

/-! ## The picture and the reply -/

section Agreement

variable {D : Decibels} {select : DistanceFilter} {chunks chunks' : List (SpecChunk nBins)}

/-- The same columns, in any order and cut in any way. -/
def SameColumns (chunks chunks' : List (SpecChunk nBins)) : Prop :=
  ∀ i < nBins, (binRow chunks i).Perm (binRow chunks' i)

theorem avgOf_perm {row row' : List ℚ} (perm : row.Perm row') : avgOf D row = avgOf D row' := by
  rw [avgOf, avgOf, (perm.map _).sum_eq, perm.length_eq]

/-- The traces do not depend on the order of the columns. -/
theorem spectrumTraces_congr (same : SameColumns chunks chunks') (some_chunk : chunks ≠ [])
    (some_chunk' : chunks' ≠ []) : spectrumTraces D chunks = spectrumTraces D chunks' := by
  have empty : (∃ i < nBins, binRow chunks i = []) ↔ ∃ i < nBins, binRow chunks' i = [] := by
    apply exists_congr
    intro i
    apply and_congr_right
    intro inside
    constructor
    · intro none
      exact List.perm_nil.1 (none ▸ (same i inside).symm)
    · intro none
      exact List.perm_nil.1 (none ▸ same i inside)
  have avg : ((List.range nBins).map fun i => avgOf D (binRow chunks i)) =
      (List.range nBins).map fun i => avgOf D (binRow chunks' i) := by
    apply List.map_congr_left
    intro i mem
    exact avgOf_perm (same i (List.mem_range.1 mem))
  have peak : ((List.range nBins).map fun i => (binRow chunks i).maximum.unbotD 0) =
      (List.range nBins).map fun i => (binRow chunks' i).maximum.unbotD 0 := by
    apply List.map_congr_left
    intro i mem
    rw [(same i (List.mem_range.1 mem)).maximum_eq]
  simp only [spectrumTraces, List.isEmpty_iff, some_chunk, some_chunk', false_or, empty, avg, peak]

theorem evaluateChunks_congr (same : SameColumns chunks chunks') (some_chunk : chunks ≠ [])
    (some_chunk' : chunks' ≠ []) (lo : ℤ) :
    evaluateChunks D select chunks lo = evaluateChunks D select chunks' lo := by
  rw [evaluateChunks, evaluateChunks, spectrumTraces_congr same some_chunk some_chunk']

end Agreement

/-! ## The numbers of a reply -/

section Reply

variable {D : Decibels} {select : DistanceFilter} {computeSpecChunk : List Sample → SpecChunk nBins}
  {t : Trace} {binHz' : ℚ}

/-- The spur a peak is reported as. -/
def Trace.spurAt (t : Trace) (p : ℕ) : Spur :=
  ⟨p, t.freqsHz.getD p 0, t.powerDB p, t.dbc p, t.dbc p ≤ -spurLimitDbc⟩

/-- The loop reports every peak outside of the guard. -/
theorem foldl_scorePeak_spurs (score : SpurScore) (ps : List ℕ) :
    (ps.foldl (scorePeak t binHz') score).spurs =
      score.spurs ++ (ps.filter fun p : ℕ => t.guard binHz' < |(p : ℤ) - t.peakIdx|).map t.spurAt := by
  induction ps generalizing score with
  | nil => simp
  | cons p ps ih =>
    rw [List.foldl_cons, ih, scorePeak]
    by_cases near : |(p : ℤ) - t.peakIdx| ≤ t.guard binHz'
    · rw [if_pos near, List.filter_cons_of_neg (by simpa using near)]
    · rw [if_neg near, List.filter_cons_of_pos (by simpa using near), List.map_cons, List.append_assoc]
      rfl

theorem mem_spurs {s : Spur} (mem : s ∈ (fccResult select t binHz').spurs) : ∃ p, s = t.spurAt p := by
  have mem : s ∈ (scorePeaks select t binHz').spurs := mem
  rw [scorePeaks, foldl_scorePeak_spurs, List.nil_append] at mem
  obtain ⟨p, -, rfl⟩ := List.mem_map.1 mem
  exact ⟨p, rfl⟩

/-- What holds between the numbers of a reply that measured a carrier. -/
structure Measured.Consistent (m : Measured) (info : AnalysisInfo) : Prop where
  /-- The carrier stands out, inside the span and outside the notch. -/
  snr : info.minSnrDB ≤ m.carrier.snrDB
  offset : m.carrier.freqHz = info.centerFreqHz + m.carrier.offsetFromLoHz
  span : |m.carrier.offsetFromLoHz| ≤ info.spanHz / 2
  notch : info.dcNotchHz / 2 < |m.carrier.offsetFromLoHz|
  bandwidth : m.occupiedBandwidth.pass = true ↔ m.occupiedBandwidth.bw20DBHz ≤ m.occupiedBandwidth.limitHz
  spurs : ∀ s ∈ m.spurs, s.dbc = s.powerDB - m.carrier.powerDB ∧
    (s.pass = true ↔ s.dbc ≤ m.spuriousEmissions.limitDbc)
  nSpurs : m.spuriousEmissions.nSpurs = m.spurs.length
  nOverLimit : m.spuriousEmissions.nOverLimit = m.spurs.countP fun s => !s.pass
  spurious : m.spuriousEmissions.pass = true ↔ m.spuriousEmissions.nOverLimit = 0
  worst_none : m.spuriousEmissions.worstDbc = none ↔ m.spurs = []
  worst : ∀ w, m.spuriousEmissions.worstDbc = some w →
    IsGreatest {dbc | ∃ s ∈ m.spurs, s.dbc = dbc} w

/-- The verdict of a reply, from its numbers. -/
structure FccReply.Consistent (reply : FccReply) : Prop where
  state : reply.state = match reply.pass with
    | none => "no_signal"
    | some pass => if pass then "pass" else "fail"
  pass : reply.pass = reply.measured.map fun m => m.occupiedBandwidth.pass && m.spuriousEmissions.pass
  measured : ∀ m, reply.measured = some m → m.Consistent reply.analysis

theorem evaluateFccCompliance_snr {r : FccResult}
    (detected : evaluateFccCompliance select t binHz' = .ok (some r)) :
    t.avgDB ≠ [] ∧ fccOverlayMinSnrDB ≤ r.snrDB := by
  rw [evaluateFccCompliance_some detected]
  unfold evaluateFccCompliance at detected
  split at detected
  · cases detected
  rename_i bins
  split at detected
  · cases detected
  rename_i stands_out
  exact ⟨by simpa using bins, not_lt.1 stands_out⟩

/-- A result is reported with its numbers in agreement, but for the carrier's frequency. -/
theorem measured_verdict {r : FccResult} (detected : evaluateFccCompliance select t binHz' = .ok (some r))
    (info : AnalysisInfo) (minSnr : info.minSnrDB = fccOverlayMinSnrDB)
    (span : |r.carrierFreqHz - info.centerFreqHz| ≤ info.spanHz / 2)
    (notch : info.dcNotchHz / 2 < |r.carrierFreqHz - info.centerFreqHz|) :
    (measuredOf r info.centerFreqHz).Consistent info := by
  have snr := (evaluateFccCompliance_snr detected).2
  obtain rfl := evaluateFccCompliance_some detected
  have scored : Scored t binHz' ((candidates select t binHz').foldl (scorePeak t binHz') ⟨[], 0, none⟩) :=
    scored_foldl _ scored_empty
  have lines : ∀ s ∈ (fccResult select t binHz').spurs, s.dbc = s.powerDB - t.peakDB ∧
      (s.pass = true ↔ s.dbc ≤ -spurLimitDbc) := by
    intro s mem
    obtain ⟨p, rfl⟩ := mem_spurs mem
    exact ⟨rfl, decide_eq_true_iff⟩
  constructor
  · rw [minSnr]
    exact snr
  · simp [measuredOf]
  · exact span
  · exact notch
  · show decide (2 / 3 * t.bwHz binHz' ≤ channelSpacing) = true ↔ t.bwHz binHz' ≤ 3 / 2 * channelSpacing
    rw [decide_eq_true_iff]
    constructor
    · intro narrow
      linarith
    · intro narrow
      linarith
  · intro line mem
    obtain ⟨s, listed, rfl⟩ := List.mem_map.1 mem
    exact lines s listed
  · exact (List.length_map _).symm
  · have failures : (scorePeaks select t binHz').nSpurFail =
        (fccResult select t binHz').spurs.countP fun s => -spurLimitDbc < s.dbc := scored.failures
    show (scorePeaks select t binHz').nSpurFail = _
    rw [failures, measuredOf, List.countP_map]
    apply List.countP_congr
    intro s mem
    have pass := (lines s mem).2
    simp only [Function.comp_apply, Spur.line, decide_eq_true_eq, Bool.not_eq_true', ← not_le, ← pass,
      Bool.not_eq_true]
  · exact decide_eq_true_iff
  · show (scorePeaks select t binHz').worstDbc = none ↔ List.map Spur.line _ = []
    rw [List.map_eq_nil_iff]
    exact scored.worst_none
  · intro w worst
    have greatest := scored.worst w worst
    have same : {dbc | ∃ line ∈ (measuredOf (fccResult select t binHz') info.centerFreqHz).spurs,
        line.dbc = dbc} = {dbc | ∃ s ∈ (fccResult select t binHz').spurs, s.dbc = dbc} := by
      ext dbc
      simp [measuredOf, Spur.line]
    rw [same]
    exact greatest

/-! ## The axis -/

/-- How far a bin is from the centre. -/
theorem freqsHz_getD {i : ℕ} (inside : i < nBins) (lo : ℤ) :
    (freqsHz nBins lo).getD i 0 - lo = ((i : ℚ) - (nBins / 2 : ℕ)) * binHz nBins := by
  rw [freqsHz, List.getD_eq_getElem?_getD, List.getElem?_map, List.getElem?_range inside]
  simp

theorem binHz_pos (some_bins : 0 < nBins) : 0 < binHz nBins :=
  div_pos sampleRate_pos (by exact_mod_cast some_bins)

/-- The axis ends half the sample rate from the centre. -/
theorem offset_span {i : ℕ} (inside : i < nBins) :
    |((i : ℚ) - (nBins / 2 : ℕ)) * binHz nBins| ≤ sampleRate / 2 := by
  have bins : (0 : ℚ) < nBins := by exact_mod_cast (by omega : 0 < nBins)
  have far : |(i : ℚ) - (nBins / 2 : ℕ)| ≤ nBins / 2 := by
    have low : (nBins : ℚ) ≤ 2 * (nBins / 2 : ℕ) + 1 := by exact_mod_cast (by omega : nBins ≤ _)
    have high : 2 * ((nBins / 2 : ℕ) : ℚ) ≤ nBins := by exact_mod_cast (by omega : 2 * (nBins / 2) ≤ nBins)
    have last : (i : ℚ) + 1 ≤ nBins := by exact_mod_cast inside
    have first : (0 : ℚ) ≤ i := Nat.cast_nonneg i
    rw [abs_le]
    constructor
    · linarith
    · linarith
  calc |((i : ℚ) - (nBins / 2 : ℕ)) * binHz nBins|
      = |(i : ℚ) - (nBins / 2 : ℕ)| * binHz nBins := by
        rw [abs_mul, abs_of_pos (binHz_pos (by omega))]
    _ ≤ nBins / 2 * binHz nBins := by
        apply mul_le_mul_of_nonneg_right far (binHz_pos (by omega)).le
    _ = sampleRate / 2 := by
        rw [binHz]
        field_simp

/-- A bin outside of the notch is farther than half of it from the centre. -/
theorem offset_notch (some_bins : 0 < nBins) {i : ℕ} (outside : ¬InNotch nBins specDcNotchBins i) :
    (2 * specDcNotchBins + 1) * binHz nBins / 2 < |((i : ℚ) - (nBins / 2 : ℕ)) * binHz nBins| := by
  have far : ((specDcNotchBins + 1 : ℤ) : ℚ) ≤ |(i : ℚ) - (nBins / 2 : ℕ)| := by
    have bins : specDcNotchBins + 1 ≤ |(i : ℤ) - (nBins / 2 : ℕ)| := by
      unfold InNotch at outside
      rw [le_abs']
      omega
    exact_mod_cast bins
  push_cast at far
  have pos := binHz_pos some_bins
  rw [abs_mul, abs_of_pos pos]
  calc (2 * specDcNotchBins + 1) * binHz nBins / 2
      < (specDcNotchBins + 1) * binHz nBins := by linarith
    _ ≤ |(i : ℚ) - (nBins / 2 : ℕ)| * binHz nBins := mul_le_mul_of_nonneg_right far pos.le

/-- The highest bin of a trace that was drawn over is not in the notch. -/
theorem peakIdx_not_inNotch {drawn : List ℚ} {halfBins : ℤ} (fits : NotchFits drawn.length halfBins)
    (redrawn : t.avgDB = interpolateDc drawn halfBins) (bins : t.avgDB ≠ []) :
    ¬InNotch drawn.length halfBins t.peakIdx := by
  cases largest : Np.argmax t.avgDB with
  | none =>
    have none_there := List.argmax_eq_none.1 largest
    rw [List.range_eq_nil, List.length_eq_zero_iff] at none_there
    exact absurd none_there bins
  | some p =>
    rw [Trace.peakIdx, largest, Option.getD_some]
    apply argmax_not_inNotch fits
    rw [← redrawn, largest]

/-- The carrier of an averaged trace is a bin outside of the notch. -/
theorem carrier_outside {traces : Traces nBins} {chunks : List (SpecChunk nBins)} (wide : 23 ≤ nBins)
    (made : spectrumTraces D chunks = some traces) (lo : ℤ) :
    (traces.onAxis lo).peakIdx < nBins ∧ ¬InNotch nBins specDcNotchBins (traces.onAxis lo).peakIdx := by
  have bins : (traces.onAxis lo).avgDB ≠ [] := by
    rw [← List.length_pos_iff]
    show 0 < traces.avgDB.length
    rw [traces.length_avgDB]
    omega
  have inside := (traces.onAxis lo).peakIdx_lt bins
  have shown : (traces.onAxis lo).avgDB.length = nBins := traces.length_avgDB
  rw [shown] at inside
  refine ⟨inside, ?_⟩
  unfold spectrumTraces at made
  split at made
  · cases made
  cases made
  have length : ((List.range nBins).map fun i => avgOf D (binRow chunks i)).length = nBins := by simp
  have fits : NotchFits ((List.range nBins).map fun i => avgOf D (binRow chunks i)).length
      specDcNotchBins := by
    rw [length, specDcNotchBins]
    exact ⟨by omega, by omega, by omega⟩
  have hidden := peakIdx_not_inNotch fits rfl bins
  rwa [length] at hidden

/-- **A reply can be checked from its own numbers**, for every recording, chunk function and bin count
that leaves room for the notch: the verdict is that of the two checks, each of which holds exactly when
the numbers listed for it are within their limits, and the carrier lies inside of the span and outside
of the notch that the reply states. -/
theorem fccReply_consistent (D : Decibels) (select : DistanceFilter)
    (computeSpecChunk : List Sample → SpecChunk nBins) (seconds : ℤ) (segment : List Sample) (lo : ℤ)
    (rxGainDB : ℚ) (reply : FccReply) (wide : 23 ≤ nBins)
    (replied : fccCheck D select computeSpecChunk seconds segment lo rxGainDB = .ok reply) :
    reply.Consistent := by
  unfold fccCheck at replied
  dsimp only at replied
  split at replied
  · cases replied
  split at replied
  · cases replied
  rename_i fcc evaluated
  cases replied
  cases fcc with
  | none =>
    constructor
    · rfl
    · rfl
    · intro m none
      cases none
  | some r =>
    refine ⟨rfl, ?_, ?_⟩
    · show some r.overallOk = some (r.spacingOk && r.spursOk)
      unfold evaluateChunks at evaluated
      split at evaluated
      · cases evaluated
      split at evaluated
      · cases evaluated
      · rw [evaluateFccCompliance_some evaluated]
        rfl
    · rintro m ⟨⟩
      unfold evaluateChunks at evaluated
      split at evaluated
      · cases evaluated
      split at evaluated
      · cases evaluated
      rename_i traces made
      obtain ⟨inside, outside⟩ := carrier_outside wide made lo
      have carrier : r.carrierFreqHz - lo =
          (((traces.onAxis lo).peakIdx : ℚ) - (nBins / 2 : ℕ)) * binHz nBins := by
        rw [evaluateFccCompliance_some evaluated, ← freqsHz_getD inside]
        rfl
      apply measured_verdict evaluated
      · rfl
      · show |r.carrierFreqHz - lo| ≤ _
        rw [carrier]
        exact offset_span inside
      · show _ < |r.carrierFreqHz - lo|
        rw [carrier]
        exact offset_notch (by omega) outside

end Reply

/-! ## A tone -/

/-- The decibels of the two powers in the recording below. -/
def toneDecibels : Decibels where
  power10 x := if x = -4 then 1 / 10 ^ 4 else 1
  log10 y := if y < 1 / 10 then -4 else 0

/-- A tone 15 bins below the centre of 41 bins. -/
def toneChunk : SpecChunk 41 where
  rows := (List.range 41).map fun i => [if i = 5 then 0 else -40]
  length_rows := by simp

def toneSegment : List Sample := List.replicate 390625 0

theorem segmentChunks_tone : segmentChunks (fun _ => toneChunk) toneSegment = [toneChunk] := by
  rw [segmentChunks, toneSegment, List.length_replicate, specChunkSamples_eq]
  rfl

def toneTrace : Trace where
  avgDB := (List.range 41).map fun i => if i = 5 then 0 else -40
  freqsHz := freqsHz 41 2482440375
  aligned := by simp [freqsHz]

def toneReply : FccReply :=
  fccReply (some (fccResult keepHighest toneTrace (binHz 41))) (analysisInfo 41 1 1 2482440375 20)

theorem fccCheck_tone :
    fccCheck toneDecibels keepHighest (fun _ => toneChunk) 1 toneSegment 2482440375 20 =
      .ok toneReply := by
  have evaluated : evaluateChunks toneDecibels keepHighest [toneChunk] 2482440375 =
      .ok (some (fccResult keepHighest toneTrace (binHz 41))) := by
    decide +kernel
  rw [fccCheck, segmentChunks_tone, evaluated]
  rfl

theorem fccReply_consistent_tone : toneReply.Consistent :=
  fccReply_consistent toneDecibels keepHighest (fun _ => toneChunk) 1 toneSegment 2482440375 20
    toneReply (by omega) fccCheck_tone

end StreamWeb.Spectrum

import Mathlib.Tactic.LinearCombination
import StreamWeb.App.Pipeline
import StreamWeb.Py.Rounding
import StreamWeb.Spectrum.Segments
import StreamWeb.Timing.EdgeOrder

/-!
# Timing statistics

The symbol and gap statistics of a packet are computed twice: by
`edges_to_timing_stats` for the packet feed, and by `render_td_plot` for the
capture that is shown, which takes its edges from the tracker or, without a
start sample, from the envelope. Both round the means and the deviations to
four decimals of a millisecond. What they say is compared here with the edges
they were computed from: symbols and gaps add up to the time on air.
-/

namespace StreamWeb

open Timing Config

/-! ## The code -/

/-- `float(round(np.mean(ms), 4)) if len(ms) else None` -/
def roundedMean (ms : List ℚ) : Option ℚ := if ms.isEmpty then none else some (Py.roundTo 4 (Np.mean ms))

/-- `float(round(np.std(ms), 4)) if len(ms) else None` -/
def roundedStd (ms : List ℚ) : Option ℚ := if ms.isEmpty then none else some (Py.roundSqrt 4 (Np.var ms))

/-- `sym_ms` -/
def symMs (edges : List (Int × Int)) (sr : ℚ) : List ℚ := edges.map fun e => ((e.2 - e.1 : Int) : ℚ) / sr * 1000

def edgesToTimingStats (edges : List (Int × Int)) (sr : ℚ) : TdStats :=
  if edges.isEmpty then
    { symCount := 0, symMeanMs := none, symStdMs := none, gapCount := 0, gapMeanMs := none, gapStdMs := none }
  else
    let symMs := symMs edges sr
    let gapMs := gapMs edges sr
    { symCount := symMs.length
      symMeanMs := some (Py.roundTo 4 (Np.mean symMs))
      symStdMs := some (Py.roundSqrt 4 (Np.var symMs))
      gapCount := gapMs.length
      gapMeanMs := roundedMean gapMs
      gapStdMs := roundedStd gapMs }

/-- What `render_td_plot` reads of `decode_info` for the edges. -/
structure EdgeInfo where
  startSample : Option Int
  /-- `decode_info.get("phy_ver", 1)` -/
  phyVer : Int
  numPduSymbols : Option Int

/-- The edges of the tracker, if there is a start sample: an error of it, or of the look-up of the slot,
is one of the plot. -/
def correctedEdges (K : DecoderConstants) (smoothed : Nat → List Sample → List ℚ) (iqSegment : List Sample)
    (decodeInfo : Option EdgeInfo) : Option (List (Int × Int)) :=
  match decodeInfo with
  | none => some []
  | some info =>
    match info.startSample with
    | none => some []
    | some startSample => do
      let slot ← K.slotSamples info.phyVer
      let nSym := K.preambleLen + K.numHeaderSyms + info.numPduSymbols.getD 0
      correctSymbolEdges smoothed iqSegment startSample 0 nSym.toNat 0 slot K.samplesPerSymbol

/-- `starts` and `ends` of `render_td_plot`, of a segment whose envelope is above the threshold where
`above` says. -/
def tdPlotEdges (K : DecoderConstants) (smoothed : Nat → List Sample → List ℚ) (iqSegment : List Sample)
    (above : List Bool) (decodeInfo : Option EdgeInfo) : Option (List Int × List Int) := do
  let corrected ← correctedEdges K smoothed iqSegment decodeInfo
  if corrected.isEmpty then
    let (mStarts, mEnds) := Spectrum.fallbackSegments above
    pure (mStarts.map fun s : Nat => (s : Int), mEnds.map fun e : Nat => (e : Int))
  else pure (corrected.map Prod.fst, corrected.map Prod.snd)

/-- `np.array`s of samples, subtracted and in milliseconds. -/
def durMs (ends starts : List Int) : List ℚ :=
  ends.zipWith (fun e s => ((e - s : Int) : ℚ) / sampleRate * 1000) starts

/-- The statistics `render_td_plot` returns for its edges. -/
def tdPlotStats (starts ends : List Int) : TdStats :=
  let symDurMs := durMs ends starts
  let gapDurMs := durMs starts.tail ends.dropLast
  { symCount := symDurMs.length
    symMeanMs := roundedMean symDurMs
    symStdMs := roundedStd symDurMs
    gapCount := gapDurMs.length
    gapMeanMs := roundedMean gapDurMs
    gapStdMs := roundedStd gapDurMs }

/-- `drift_ms` and `n_periods` of the box in the plot. -/
def drift (starts : List Int) : Option (ℚ × Nat) :=
  if 2 ≤ starts.length then
    let symStartsMs := starts.map fun s : Int => (s : ℚ) / sampleRate * 1000
    let nPeriods := symStartsMs.length - 1
    let actualSpan := symStartsMs.getLastD 0 - symStartsMs.headD 0
    let expectedSpan := nPeriods * (88 / 10 : ℚ)
    some (actualSpan - expectedSpan, nPeriods)
  else none

/-! ## What the numbers mean -/

/-- A statistic of some values that is `exact` but for the rounding, and `None` of no values. -/
def Rounds (values : List ℚ) (exact : ℝ) : Option ℚ → Prop
  | none => values = []
  | some x => values ≠ [] ∧ |(x : ℝ) - exact| ≤ 1 / 20000

/-- Statistics of edges. -/
structure Describes (stats : TdStats) (edges : List (Int × Int)) (sr : ℚ) : Prop where
  symCount : stats.symCount = edges.length
  gapCount : stats.gapCount = edges.length - 1
  symMean : Rounds (symMs edges sr) (Np.mean (symMs edges sr) : ℚ) stats.symMeanMs
  symStd : Rounds (symMs edges sr) (Real.sqrt (Np.var (symMs edges sr) : ℚ)) stats.symStdMs
  gapMean : Rounds (gapMs edges sr) (Np.mean (gapMs edges sr) : ℚ) stats.gapMeanMs
  gapStd : Rounds (gapMs edges sr) (Real.sqrt (Np.var (gapMs edges sr) : ℚ)) stats.gapStdMs
  /-- Symbols and gaps make up the time from the first start to the last end. -/
  timeOnAir : ∀ first ∈ edges.head?, ∀ last ∈ edges.getLast?,
    |stats.symCount * stats.symMeanMs.getD 0 + stats.gapCount * stats.gapMeanMs.getD 0
        - ((last.2 - first.1 : Int) : ℚ) / sr * 1000| ≤ (2 * edges.length - 1) / 20000

theorem rounds_mean (values : List ℚ) : Rounds values (Np.mean values : ℚ) (roundedMean values) := by
  cases values with
  | nil => rfl
  | cons v vs =>
    refine ⟨List.cons_ne_nil _ _, ?_⟩
    have close := Py.abs_roundTo_sub 4 (Np.mean (v :: vs))
    have cast := (Rat.cast_le (K := ℝ)).2 close
    push_cast at cast
    refine cast.trans (le_of_eq ?_)
    norm_num

theorem rounds_std (values : List ℚ) :
    Rounds values (Real.sqrt (Np.var values : ℚ)) (roundedStd values) := by
  cases values with
  | nil => rfl
  | cons v vs =>
    refine ⟨List.cons_ne_nil _ _, ?_⟩
    refine (Py.abs_roundSqrt_sub 4 (Np.var_nonneg (v :: vs))).trans (le_of_eq ?_)
    norm_num

/-- The rounding of a mean, times the number of values. -/
theorem abs_length_mul_roundedMean_sub (values : List ℚ) :
    |values.length * (roundedMean values).getD 0 - values.sum| ≤ values.length / 20000 := by
  cases values with
  | nil => norm_num [roundedMean]
  | cons v vs =>
    have close := Py.abs_roundTo_sub 4 (Np.mean (v :: vs))
    have pos : (0 : ℚ) ≤ (v :: vs).length := Nat.cast_nonneg _
    change |((v :: vs).length : ℚ) * Py.roundTo 4 (Np.mean (v :: vs)) - (v :: vs).sum| ≤ _
    rw [← Np.length_mul_mean, ← mul_sub, abs_mul, abs_of_nonneg pos]
    refine (mul_le_mul_of_nonneg_left close pos).trans (le_of_eq ?_)
    ring

theorem length_symMs (edges : List (Int × Int)) (sr : ℚ) : (symMs edges sr).length = edges.length :=
  List.length_map _

theorem length_gapMs (edges : List (Int × Int)) (sr : ℚ) : (gapMs edges sr).length = edges.length - 1 := by
  rw [gapMs, List.length_map, List.length_zip, List.length_tail]
  omega

/-- Symbols and gaps follow one another without a rest. -/
theorem sum_symMs_add_sum_gapMs {edges : List (Int × Int)} (sr : ℚ) {first last : Int × Int}
    (head : first ∈ edges.head?) (tail : last ∈ edges.getLast?) :
    (symMs edges sr).sum + (gapMs edges sr).sum = ((last.2 - first.1 : Int) : ℚ) / sr * 1000 := by
  induction edges generalizing first with
  | nil => cases head
  | cons e rest ih =>
    cases Option.mem_some_iff.1 head
    cases rest with
    | nil =>
      cases Option.mem_some_iff.1 tail
      simp [symMs, gapMs]
    | cons e' rest =>
      have later := ih (Option.mem_some_iff.2 rfl) (by rwa [List.getLast?_cons_cons] at tail)
      have sym : symMs (e :: e' :: rest) sr = ((e.2 - e.1 : Int) : ℚ) / sr * 1000 :: symMs (e' :: rest) sr := rfl
      have gap : gapMs (e :: e' :: rest) sr = ((e'.1 - e.2 : Int) : ℚ) / sr * 1000 :: gapMs (e' :: rest) sr := rfl
      rw [sym, gap, List.sum_cons, List.sum_cons]
      push_cast at later ⊢
      linear_combination later

/-- **The statistics of any edges** describe them. -/
theorem edgesToTimingStats_describes (edges : List (Int × Int)) (sr : ℚ) :
    Describes (edgesToTimingStats edges sr) edges sr := by
  cases edges with
  | nil => exact ⟨rfl, rfl, rfl, rfl, rfl, rfl, fun _ head => by cases head⟩
  | cons e rest =>
    have ne : symMs (e :: rest) sr ≠ [] := List.cons_ne_nil _ _
    refine ⟨length_symMs _ _, length_gapMs _ _, rounds_mean _, rounds_std _, rounds_mean _, rounds_std _, ?_⟩
    intro first head last tail
    have sym := abs_length_mul_roundedMean_sub (symMs (e :: rest) sr)
    have gap := abs_length_mul_roundedMean_sub (gapMs (e :: rest) sr)
    rw [← sum_symMs_add_sum_gapMs sr head tail]
    have lengths : (((gapMs (e :: rest) sr).length : ℕ) : ℚ) = (e :: rest).length - 1 := by
      rw [length_gapMs, List.length_cons, Nat.add_sub_cancel]
      push_cast
      ring
    rw [lengths] at gap
    change |((symMs (e :: rest) sr).length : ℚ) * (roundedMean (symMs (e :: rest) sr)).getD 0
      + ((gapMs (e :: rest) sr).length : ℚ) * (roundedMean (gapMs (e :: rest) sr)).getD 0 - _| ≤ _
    rw [lengths]
    rw [length_symMs] at sym ⊢
    rw [abs_le] at sym gap ⊢
    constructor <;> linarith

/-! ## The two computations -/

theorem durMs_map (edges : List (Int × Int)) :
    durMs (edges.map Prod.snd) (edges.map Prod.fst) = symMs edges sampleRate := by
  rw [durMs, List.zipWith_map, List.zipWith_self]
  rfl

theorem durMs_tail (edges : List (Int × Int)) :
    durMs (edges.map Prod.fst).tail (edges.map Prod.snd).dropLast = gapMs edges sampleRate := by
  induction edges with
  | nil => rfl
  | cons e rest ih =>
    cases rest with
    | nil => rfl
    | cons e' rest => exact congrArg (List.cons _) ih

/-- The plot and the feed have the same statistics for the same edges. -/
theorem tdPlotStats_eq (edges : List (Int × Int)) :
    tdPlotStats (edges.map Prod.fst) (edges.map Prod.snd) = edgesToTimingStats edges sampleRate := by
  unfold tdPlotStats
  rw [durMs_map, durMs_tail]
  cases edges <;> rfl

/-- Without the last symbol, they reach to its start. -/
theorem sum_symMs_dropLast_add {edges : List (Int × Int)} (sr : ℚ) {first last : Int × Int}
    (head : first ∈ edges.head?) (tail : last ∈ edges.getLast?) :
    (symMs edges.dropLast sr).sum + (gapMs edges sr).sum = ((last.1 - first.1 : Int) : ℚ) / sr * 1000 := by
  have whole := sum_symMs_add_sum_gapMs sr head tail
  have split : (symMs edges sr).sum
      = (symMs edges.dropLast sr).sum + ((last.2 - last.1 : Int) : ℚ) / sr * 1000 := by
    conv_lhs => rw [← List.dropLast_append_getLast? last tail]
    simp [symMs]
  rw [split] at whole
  push_cast at whole ⊢
  linear_combination whole

/-- The drift is what symbols and gaps take beyond the period of a slot. -/
theorem drift_eq {edges : List (Int × Int)} {ms : ℚ} {n : Nat}
    (two : drift (edges.map Prod.fst) = some (ms, n)) :
    n = edges.length - 1 ∧
      ms = (symMs edges.dropLast sampleRate).sum + (gapMs edges sampleRate).sum - n * (88 / 10) := by
  unfold drift at two
  split_ifs at two with long
  simp only [List.length_map, Option.some.injEq, Prod.mk.injEq] at two long
  obtain ⟨rfl, rfl⟩ := two
  have ne : edges ≠ [] := List.length_pos_iff.1 (by omega)
  obtain ⟨first, last, head, tail⟩ := Runs.exists_ends ne
  rw [sum_symMs_dropLast_add sampleRate head tail]
  refine ⟨rfl, ?_⟩
  rw [List.getLastD_eq_getLast?, List.headD_eq_head?_getD, List.getLast?_map, List.getLast?_map,
    List.head?_map, List.head?_map, head, tail]
  simp only [Option.map_some, Option.getD_some]
  push_cast
  ring

/-! ## The envelope -/

/-- Segments of the envelope, as edges. -/
def fallbackEdges (above : List Bool) : List (Int × Int) :=
  let segments := Spectrum.fallbackSegments above
  (segments.1.zip segments.2).map fun p => ((p.1 : Int), (p.2 : Int))

theorem fallbackEdges_eq (above : List Bool) :
    fallbackEdges above =
      ((Runs.groups Spectrum.minGap ((Runs.ofBools above).filter (Runs.long Spectrum.minSym))).map
        Runs.extent).map fun p => ((p.1 : Int), (p.2 : Int)) := by
  unfold fallbackEdges
  dsimp only
  rw [Spectrum.fallbackSegments_eq, List.zip_unzip]

theorem map_fallbackEdges (above : List Bool) :
    (Spectrum.fallbackSegments above).1.map (fun s : Nat => (s : Int)) = (fallbackEdges above).map Prod.fst ∧
      (Spectrum.fallbackSegments above).2.map (fun e : Nat => (e : Int)) = (fallbackEdges above).map Prod.snd := by
  rw [fallbackEdges_eq, Spectrum.fallbackSegments_eq]
  constructor <;> simp [List.unzip_eq_map]

/-- Segments of the envelope are as long as a symbol, and their gaps as long as a gap. -/
theorem fallbackEdges_bounds (above : List Bool) :
    (∀ e ∈ fallbackEdges above, (Spectrum.minSym : Int) ≤ e.2 - e.1) ∧
      (fallbackEdges above).IsChain fun e e' => Spectrum.minGap ≤ e'.1 - e.2 := by
  let kept := (Runs.ofBools above).filter (Runs.long Spectrum.minSym)
  have int : Runs.Intervals kept := (Runs.intervals_ofBools above).sublist List.filter_sublist
  have is_long : ∀ p ∈ kept, Runs.long Spectrum.minSym p := fun p mem => (List.mem_filter.1 mem).2
  have whole : (Runs.groups Spectrum.minGap kept).flatten = kept := List.flatten_splitBy _ _
  have ne : ∀ g ∈ Runs.groups Spectrum.minGap kept, g ≠ [] := by
    rintro g mem rfl
    exact List.nil_notMem_splitBy _ _ mem
  rw [fallbackEdges_eq]
  constructor
  · intro e mem
    obtain ⟨p, from_extent, rfl⟩ := List.mem_map.1 mem
    obtain ⟨g, group, rfl⟩ := List.mem_map.1 from_extent
    obtain ⟨q, in_g⟩ := List.exists_mem_of_ne_nil g (ne g group)
    have sub : g.Sublist kept := by
      rw [← whole]
      exact List.sublist_flatten_of_mem group
    have extent_long := Runs.long_extent (int.sublist sub) in_g (is_long q (sub.subset in_g))
    exact of_decide_eq_true extent_long
  · rw [List.map_map, List.isChain_map]
    apply List.Pairwise.isChain
    apply List.Pairwise.imp_of_mem _ (Runs.far_groups int)
    intro g g' mem mem' far
    obtain ⟨h, e, head, last⟩ := Runs.exists_ends (ne g mem)
    obtain ⟨h', e', head', last'⟩ := Runs.exists_ends (ne g' mem')
    have apart := (far e (List.mem_of_getLast? last) h' (List.mem_of_head? head')).2
    simp only [Runs.near, decide_eq_false_iff_not, not_lt] at apart
    simp only [Function.comp_apply, Runs.extent_eq head last, Runs.extent_eq head' last']
    exact apart

/-! ## The plot -/

/-- The tracker's edges are intervals of the segment. -/
theorem correctedEdges_bounds {K : DecoderConstants} {smoothed : Nat → List Sample → List ℚ}
    {iqSegment : List Sample} {decodeInfo : Option EdgeInfo} {edges : List (Int × Int)}
    (corrected : correctedEdges K smoothed iqSegment decodeInfo = some edges) :
    ∀ e ∈ edges, 0 ≤ e.1 ∧ e.1 < e.2 ∧ e.2 ≤ iqSegment.length := by
  unfold correctedEdges at corrected
  split at corrected
  · cases corrected
    simp
  · split at corrected
    · cases corrected
      simp
    · obtain ⟨slot, -, found⟩ := Option.bind_eq_some_iff.1 corrected
      have long := correctSymbolEdges_isSome.1 (Option.isSome_of_eq_some found)
      obtain ⟨c, -, rfl⟩ := Option.map_eq_some_iff.1 found
      apply Grid.edgesFrom_bounds
      dsimp only
      omega

/-- The edges of a plot are the tracker's, or those of the envelope. -/
theorem tdPlotEdges_cases {K : DecoderConstants} {smoothed : Nat → List Sample → List ℚ}
    {iqSegment : List Sample} {above : List Bool} {decodeInfo : Option EdgeInfo} {starts ends : List Int}
    (plotted : tdPlotEdges K smoothed iqSegment above decodeInfo = some (starts, ends)) :
    ∃ edges : List (Int × Int), starts = edges.map Prod.fst ∧ ends = edges.map Prod.snd ∧
      (correctedEdges K smoothed iqSegment decodeInfo = some edges ∨ edges = fallbackEdges above) := by
  obtain ⟨corrected, tracker, rest⟩ := Option.bind_eq_some_iff.1 plotted
  split at rest
  · have same := Prod.mk.inj (Option.some.inj rest)
    obtain ⟨fst, snd⟩ := map_fallbackEdges above
    exact ⟨_, same.1.symm.trans fst, same.2.symm.trans snd, .inr rfl⟩
  · have same := Prod.mk.inj (Option.some.inj rest)
    exact ⟨corrected, same.1.symm, same.2.symm, .inl tracker⟩

/-- A rounded mean is no smaller than the values, but for the rounding. -/
theorem le_roundedMean {values : List ℚ} {b m : ℚ} (all : ∀ v ∈ values, b ≤ v)
    (mean : roundedMean values = some m) : b - 1 / 20000 ≤ m := by
  unfold roundedMean at mean
  split_ifs at mean with none
  cases mean
  have low := Np.le_mean (fun nil => none (List.isEmpty_iff.2 nil)) all
  have close := (abs_le.1 (Py.abs_roundTo_sub 4 (Np.mean values))).1
  norm_num at close
  linarith

theorem ms_le {a b : Int} (le : a ≤ b) : (a : ℚ) / sampleRate * 1000 ≤ (b : ℚ) / sampleRate * 1000 := by
  apply mul_le_mul_of_nonneg_right _ (by norm_num)
  apply div_le_div_of_nonneg_right _ sampleRate_pos.le
  exact Int.cast_le.2 le

theorem le_of_mem_symMs {edges : List (Int × Int)} {b : Int} (all : ∀ e ∈ edges, b ≤ e.2 - e.1) :
    ∀ v ∈ symMs edges sampleRate, (b : ℚ) / sampleRate * 1000 ≤ v := by
  intro v mem
  obtain ⟨e, in_edges, rfl⟩ := List.mem_map.1 mem
  exact ms_le (all e in_edges)

theorem le_of_mem_gapMs {edges : List (Int × Int)} {b : Int}
    (chain : edges.IsChain fun e e' => b ≤ e'.1 - e.2) :
    ∀ v ∈ gapMs edges sampleRate, (b : ℚ) / sampleRate * 1000 ≤ v := by
  induction edges with
  | nil => simp [gapMs]
  | cons e rest ih =>
    cases rest with
    | nil => simp [gapMs]
    | cons e' rest =>
      obtain ⟨apart, chain'⟩ := List.isChain_cons_cons.1 chain
      intro v mem
      rcases List.mem_cons.1 mem with rfl | later
      · exact ms_le apart
      · exact ih chain' v later

/-- The means of segments from the envelope: no less than the two milliseconds of a symbol and the tenth
of one of a gap, but for the samples they are cut to. -/
theorem fallback_means (above : List Bool) :
    (∀ m ∈ roundedMean (symMs (fallbackEdges above) sampleRate), 19993 / 10000 ≤ m) ∧
      ∀ m ∈ roundedMean (gapMs (fallbackEdges above) sampleRate), 997 / 10000 ≤ m := by
  obtain ⟨symbols, chain⟩ := fallbackEdges_bounds above
  rw [Spectrum.minSym_eq] at symbols
  rw [Spectrum.minGap_eq] at chain
  constructor
  · intro m mean
    have low := le_roundedMean (le_of_mem_symMs symbols) (Option.mem_def.1 mean)
    norm_num [sampleRate] at low
    linarith
  · intro m mean
    have low := le_roundedMean (le_of_mem_gapMs chain) (Option.mem_def.1 mean)
    norm_num [sampleRate] at low
    linarith

/-- The statistics of an empty list or a full one. -/
theorem means_edgesToTimingStats (edges : List (Int × Int)) (sr : ℚ) :
    (edgesToTimingStats edges sr).symMeanMs = roundedMean (symMs edges sr) ∧
      (edgesToTimingStats edges sr).gapMeanMs = roundedMean (gapMs edges sr) := by
  cases edges <;> exact ⟨rfl, rfl⟩

/-- **The statistics of a time-domain plot**, whenever it is drawn: they are those the packet feed would
have for the same edges, describe these, and account for the drift that is written beside them. The
edges are the tracker's, intervals of the segment, or else from the envelope, and then symbols and gaps
have a least length. -/
theorem tdPlot_statistics (K : DecoderConstants) (smoothed : Nat → List Sample → List ℚ)
    (iqSegment : List Sample) (above : List Bool) (decodeInfo : Option EdgeInfo) (starts ends : List Int)
    (plotted : tdPlotEdges K smoothed iqSegment above decodeInfo = some (starts, ends)) :
    ∃ edges : List (Int × Int), starts = edges.map Prod.fst ∧ ends = edges.map Prod.snd ∧
      tdPlotStats starts ends = edgesToTimingStats edges sampleRate ∧
      Describes (tdPlotStats starts ends) edges sampleRate ∧
      (∀ ms n, drift starts = some (ms, n) → n = edges.length - 1 ∧
        ms = (symMs edges.dropLast sampleRate).sum + (gapMs edges sampleRate).sum - n * (88 / 10)) ∧
      ((correctedEdges K smoothed iqSegment decodeInfo = some edges ∧
          ∀ e ∈ edges, 0 ≤ e.1 ∧ e.1 < e.2 ∧ e.2 ≤ iqSegment.length) ∨
        ((∀ m ∈ (tdPlotStats starts ends).symMeanMs, 19993 / 10000 ≤ m) ∧
          ∀ m ∈ (tdPlotStats starts ends).gapMeanMs, 997 / 10000 ≤ m)) := by
  obtain ⟨edges, rfl, rfl, origin⟩ := tdPlotEdges_cases plotted
  rw [tdPlotStats_eq]
  refine ⟨edges, rfl, rfl, rfl, edgesToTimingStats_describes edges _, fun _ _ => drift_eq, ?_⟩
  obtain ⟨sym, gap⟩ := means_edgesToTimingStats edges sampleRate
  rw [sym, gap]
  rcases origin with corrected | rfl
  · exact .inl ⟨corrected, correctedEdges_bounds corrected⟩
  · exact .inr (fallback_means above)

/-- A packet of two symbols. -/
def twoSymbols : DecoderConstants := ⟨1, 1, 8, fun ver => if ver = 1 then some 16 else none, 16⟩

theorem tdPlotEdges_drifting :
    tdPlotEdges twoSymbols filtfilt drifting [] (some ⟨some 0, 1, none⟩) = some ([8, 32], [16, 40]) := by
  have tracked : correctSymbolEdges filtfilt drifting 0 0 2 0 16 8 = some [(8, 16), (32, 40)] := by
    rw [correctSymbolEdges, drifting_crossings]
    decide
  have corrected : correctedEdges twoSymbols filtfilt drifting (some ⟨some 0, 1, none⟩)
      = some [(8, 16), (32, 40)] := tracked
  rw [tdPlotEdges, corrected]
  rfl

/-- Both statistics of two symbols that were tracked. -/
theorem tdPlot_statistics_two :
    ∃ edges : List (Int × Int), edges.map Prod.fst = [8, 32] ∧
      tdPlotStats [8, 32] [16, 40] = edgesToTimingStats edges sampleRate ∧
      Describes (tdPlotStats [8, 32] [16, 40]) edges sampleRate := by
  obtain ⟨edges, starts, -, same, describes, -⟩ :=
    tdPlot_statistics twoSymbols filtfilt drifting [] (some ⟨some 0, 1, none⟩) [8, 32] [16, 40]
      tdPlotEdges_drifting
  exact ⟨edges, starts.symm, same, describes⟩

end StreamWeb

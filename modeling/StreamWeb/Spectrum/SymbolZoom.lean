import Mathlib.Tactic.GCongr
import Mathlib.Tactic.Positivity
import Mathlib.Tactic.Ring
import StreamWeb.Config
import StreamWeb.Timing.EdgeOrder
import StreamWeb.Timing.Transition

/-!
# The symbol zoom

`render_symbol_zoom_plot` shows the last symbols of the preamble with their
numbers and with the rise and fall time of each. It counts the edges the
tracker gave it, and the tracker leaves symbols out: the numbers are right
because the symbols it can leave out here are the last ones. A window around an
edge can be cut by the view, and yet it is long enough to be measured.
-/

namespace StreamWeb.Spectrum

open Config Timing

/-! ## The code -/

structure SymInfo where
  preambleIdx : Int
  sUs : ℚ
  eUs : ℚ
  riseUs : Option ℚ
  fallUs : Option ℚ

/-- `smoothing_window` of `measure_transition_us`, by default. -/
def transitionWindow : Nat := 32

section Loop

variable (smoothed : Nat → List Sample → List ℚ) (zoomSeg : List Sample) (measMargin symOffset : Int)

/-- A sample of the view in microseconds. -/
def usOf (x : Int) : ℚ := x / sampleRate * 1000000

/-- The loop over the edges, from edge `k` on; `none` for an error of `filtfilt`. -/
def symInfosFrom : Nat → List (Int × Int) → Option (List SymInfo)
  | _, [] => some []
  | k, (s, e) :: rest => do
    let riseUs ← measureTransitionUs smoothed zoomSeg (s - measMargin) (s + measMargin) sampleRate true
      transitionWindow
    let fallUs ← measureTransitionUs smoothed zoomSeg (e - measMargin) (e + measMargin) sampleRate false
      transitionWindow
    let later ← symInfosFrom (k + 1) rest
    some ({ preambleIdx := symOffset + k, sUs := usOf s, eUs := usOf e, riseUs, fallUs } :: later)

end Loop

/-- The part of the capture that is shown, and what is written into it. -/
structure ZoomView where
  viewStart : Int
  viewEnd : Int
  symInfos : List SymInfo

/-- The plot up to its layout: an error, nothing (`b""`), or a view. -/
def renderSymbolZoomPlot (K : DecoderConstants) (smoothed : Nat → List Sample → List ℚ)
    (iqSegment : List Sample) (startSample : Option Int) (nSymbols : Int) : Option (Option ZoomView) :=
  match startSample with
  | none => some none
  | some startSample =>
    let symLen : Int := K.samplesPerSymbol
    let slot : Int := K.slotSamples1
    let preambleLen : Int := K.preambleLen
    let nSym := min (max 1 nSymbols) preambleLen
    let symOffset := preambleLen - nSym
    let firstSymAbs := startSample + symOffset * slot
    let lastSymEndAbs := startSample + preambleLen * slot
    let margin := symLen / 2
    let viewStart := max 0 (firstSymAbs - margin)
    let viewEnd := min (iqSegment.length : Int) (lastSymEndAbs + margin)
    if viewEnd ≤ viewStart then some none
    else
      let zoomSeg := Np.slice iqSegment viewStart viewEnd
      if zoomSeg.length < symLen then some none
      else do
        let measMargin := (slot - symLen) / 2
        let edges ← correctSymbolEdges smoothed zoomSeg startSample viewStart nSym.toNat symOffset slot symLen
        let symInfos ← symInfosFrom smoothed zoomSeg measMargin symOffset 0 edges
        some (some ⟨viewStart, viewEnd, symInfos⟩)

/-! ## One edge -/

/-- The window around an edge, as it is cut by the view. -/
def edgeWindow (zoomSeg : List Sample) (measMargin x : Int) : List Sample :=
  Np.slice zoomSeg (max 0 (x - measMargin)) (min (zoomSeg.length : Int) (x + measMargin))

/-- The view cuts a window around one of its samples on one side at most, or is as short itself. -/
theorem edgeWindow_long {n x m : Int} (low : 0 ≤ x) (high : x ≤ n) (pos : 0 ≤ m) :
    min n m ≤ min n (x + m) - max 0 (x - m) := by
  omega

theorem length_edgeWindow {zoomSeg : List Sample} {measMargin x : Int} (low : 0 ≤ x)
    (high : x ≤ zoomSeg.length) (pos : 0 ≤ measMargin) :
    min (zoomSeg.length : Int) measMargin ≤ (edgeWindow zoomSeg measMargin x).length ∧
      ((edgeWindow zoomSeg measMargin x).length : Int) ≤ 2 * measMargin := by
  have long := edgeWindow_long low high pos
  have length := Np.length_slice zoomSeg (le_max_left 0 (x - measMargin))
    (min_le_left (zoomSeg.length : Int) (x + measMargin)) (by omega)
  rw [edgeWindow, length]
  omega

/-- An edge of the view is measured. -/
theorem measure_edge (smoothed : Nat → List Sample → List ℚ) {zoomSeg : List Sample} {measMargin x : Int}
    (rise : Bool) (view : 96 < zoomSeg.length) (margin : 96 < measMargin) (low : 0 ≤ x)
    (high : x ≤ zoomSeg.length) :
    ∃ us, measureTransitionUs smoothed zoomSeg (x - measMargin) (x + measMargin) sampleRate rise
        transitionWindow = some us ∧
      MeasuredUs (smoothed transitionWindow (edgeWindow zoomSeg measMargin x)) sampleRate rise us := by
  have window := edgeWindow_long low high (by omega : 0 ≤ measMargin)
  have long : (3 * transitionWindow : Int) <
      min (zoomSeg.length : Int) (x + measMargin) - max 0 (x - measMargin) := by
    unfold transitionWindow
    omega
  exact measureTransitionUs_of_long sampleRate rise (by decide) long

/-- What is written at a symbol with the edges `s` and `e`. -/
structure Labels (smoothed : Nat → List Sample → List ℚ) (zoomSeg : List Sample) (measMargin : Int)
    (s e : Int) (info : SymInfo) : Prop where
  start : info.sUs = usOf s
  stop : info.eUs = usOf e
  rise : MeasuredUs (smoothed transitionWindow (edgeWindow zoomSeg measMargin s)) sampleRate true info.riseUs
  fall : MeasuredUs (smoothed transitionWindow (edgeWindow zoomSeg measMargin e)) sampleRate false info.fallUs

/-- **The loop over the edges** never fails when the view and the margin are longer than the padding of
the filter, and writes at edge `k` what belongs to it. -/
theorem symInfosFrom_labels (smoothed : Nat → List Sample → List ℚ) {zoomSeg : List Sample}
    {measMargin : Int} (symOffset : Int) (view : 96 < zoomSeg.length) (margin : 96 < measMargin)
    {edges : List (Int × Int)} (bounds : ∀ e ∈ edges, 0 ≤ e.1 ∧ e.1 < e.2 ∧ e.2 ≤ zoomSeg.length) (k : Nat) :
    ∃ infos, symInfosFrom smoothed zoomSeg measMargin symOffset k edges = some infos ∧
      infos.length = edges.length ∧ ∀ i info, infos[i]? = some info → ∃ s e, edges[i]? = some (s, e) ∧
        info.preambleIdx = symOffset + (k + i : ℕ) ∧ Labels smoothed zoomSeg measMargin s e info := by
  induction edges generalizing k with
  | nil =>
    refine ⟨[], rfl, rfl, ?_⟩
    intro i info here
    cases here
  | cons edge rest ih =>
    obtain ⟨s, e⟩ := edge
    obtain ⟨low, order, high⟩ := bounds (s, e) List.mem_cons_self
    dsimp only at low order high
    obtain ⟨riseUs, rise, rise_measured⟩ := measure_edge smoothed true view margin low (by omega)
    obtain ⟨fallUs, fall, fall_measured⟩ := measure_edge smoothed false view margin (by omega) high
    obtain ⟨later, found, length, labels⟩ := ih (fun e mem => bounds e (List.mem_cons_of_mem _ mem)) (k + 1)
    refine ⟨{ preambleIdx := symOffset + k, sUs := usOf s, eUs := usOf e, riseUs, fallUs } :: later, ?_, ?_, ?_⟩
    · rw [symInfosFrom, rise, fall, found]
      rfl
    · rw [List.length_cons, List.length_cons, length]
    · intro i info here
      cases i with
      | zero =>
        cases here
        exact ⟨s, e, rfl, rfl, rfl, rfl, rise_measured, fall_measured⟩
      | succ i =>
        obtain ⟨s', e', at_i, idx, label⟩ := labels i info here
        refine ⟨s', e', at_i, ?_, label⟩
        rw [idx]
        congr 2
        omega

/-- `filtfilt` gives as many entries as it is given. -/
def KeepsLength (smoothed : Nat → List Sample → List ℚ) : Prop :=
  ∀ w xs, padLen w < xs.length → (smoothed w xs).length = xs.length

/-- A time that was measured at an edge is not longer than the gap it lies in. -/
theorem measured_lt_gap {smoothed : Nat → List Sample → List ℚ} (lengths : KeepsLength smoothed)
    {zoomSeg : List Sample} {gap x : Int} {rise : Bool} {us : Option ℚ} (view : 96 < zoomSeg.length)
    (margin : 96 < gap / 2) (low : 0 ≤ x) (high : x ≤ zoomSeg.length)
    (measured : MeasuredUs (smoothed transitionWindow (edgeWindow zoomSeg (gap / 2) x)) sampleRate rise us)
    {t : ℚ} (time : us = some t) : 0 ≤ t ∧ t < usOf gap := by
  obtain ⟨i, j, crosses, rfl⟩ := measured.time t time
  obtain ⟨long, short⟩ := length_edgeWindow low high (by omega : 0 ≤ gap / 2)
  have padding : padLen transitionWindow = 96 := rfl
  have inside := crosses.inside
  rw [lengths _ _ (by omega)] at inside
  have lt : ((j - i : ℕ) : ℚ) < gap := by
    have : ((j - i : ℕ) : Int) < gap := by omega
    exact_mod_cast this
  have rate := sampleRate_pos
  constructor
  · positivity
  · unfold usOf
    gcongr

/-! ## The symbols of the view -/

theorem nominalStart_succ (g : Grid) (k : Nat) : g.nominalStart (k + 1) = g.nominalStart k + g.slot := by
  unfold Grid.nominalStart
  push_cast
  ring

/-- A grid that begins in view leaves it at its end only. -/
theorem fits_of_succ {g : Grid} (slot : 0 ≤ g.slot) (begins : 0 ≤ g.nominalStart 0) (j : Nat)
    (fits : g.Fits (j + 1)) : g.Fits j := by
  have low : 0 ≤ g.nominalStart j := by
    clear fits
    induction j with
    | zero => exact begins
    | succ j ih =>
      rw [nominalStart_succ]
      exact Int.add_nonneg ih slot
  have next := nominalStart_succ g j
  have high := fits.2
  exact ⟨low, by omega⟩

/-- Symbols that are not in view leave no edges. -/
theorem edgesFrom_eq_nil {g : Grid} {c : Crossings} (m k : Nat) (prev : Option Int)
    (out : ∀ j, k ≤ j → ¬g.Fits j) : g.edgesFrom c prev (List.range' k m) = [] := by
  induction m generalizing k with
  | zero => rfl
  | succ m ih =>
    rw [List.range'_succ, Grid.edgesFrom, (g.nextEdge_none_iff c).2 (out k (le_refl k))]
    exact ih (k + 1) fun j le => out j (by omega)

/-- When a symbol in view has those before it in view, edge `i` of the loop is the edge of symbol `i`. -/
theorem edgesFrom_getElem? {g : Grid} (c : Crossings) (fits : ∀ j, g.Fits (j + 1) → g.Fits j) (m k : Nat)
    {i : Nat} {e : Int × Int} (here : (g.edgesFrom c (g.prevEnd c k) (List.range' k m))[i]? = some e) :
    g.nextEdge c (g.prevEnd c (k + i)) (k + i) = some e := by
  induction m generalizing k i with
  | zero => cases here
  | succ m ih =>
    rw [List.range'_succ, Grid.edgesFrom] at here
    cases edge : g.nextEdge c (g.prevEnd c k) k with
    | none =>
      have out : ∀ j, k ≤ j → ¬g.Fits j := by
        intro j le
        induction j, le using Nat.le_induction with
        | base => exact (g.nextEdge_none_iff c).1 edge
        | succ j _ out => exact fun in_view => out (fits j in_view)
      rw [edge] at here
      dsimp only at here
      rw [edgesFrom_eq_nil m (k + 1) _ fun j le => out j (by omega)] at here
      cases here
    | some e' =>
      have next : g.prevEnd c (k + 1) = some e'.2 := by
        rw [Grid.prevEnd, edge]
      rw [edge] at here
      cases i with
      | zero =>
        cases here
        exact edge
      | succ i =>
        have later := ih (k + 1) (i := i)
        rw [next, show k + 1 + i = k + (i + 1) by omega] at later
        exact later here

/-- And a symbol in view has its edge. -/
theorem exists_edgesFrom_getElem? {g : Grid} (c : Crossings) (fits : ∀ j, g.Fits (j + 1) → g.Fits j)
    {m i : Nat} (lt : i < m) (k : Nat) (prev : Option Int) (in_view : g.Fits (k + i)) :
    ∃ e, (g.edgesFrom c prev (List.range' k m))[i]? = some e := by
  induction m generalizing k prev i with
  | zero => exact absurd lt (Nat.not_lt_zero i)
  | succ m ih =>
    have first : g.Fits k := by
      clear lt
      induction i with
      | zero => exact in_view
      | succ i ih => exact ih (fits _ in_view)
    rw [List.range'_succ, Grid.edgesFrom]
    cases edge : g.nextEdge c prev k with
    | none => exact absurd first ((g.nextEdge_none_iff c).1 edge)
    | some e =>
      cases i with
      | zero => exact ⟨e, rfl⟩
      | succ i =>
        rw [show k + (i + 1) = k + 1 + i by omega] at in_view
        exact ih (Nat.lt_of_succ_lt_succ lt) (k + 1) (some e.2) in_view

/-- What the zoom of a packet shows: symbol `i` of the view is symbol `symOffset + i` of the preamble, at
the edges the tracker found for it, with the transitions around them. -/
structure Shows (smoothed : Nat → List Sample → List ℚ) (zoomSeg : List Sample) (g : Grid) (c : Crossings)
    (i : Nat) (info : SymInfo) : Prop where
  preambleIdx : info.preambleIdx = g.symOffset + i
  edges : ∃ s e, g.nextEdge c (g.prevEnd c i) i = some (s, e) ∧
    Labels smoothed zoomSeg (g.gapSamples / 2) s e info
  times : ∀ t, info.riseUs = some t ∨ info.fallUs = some t → 0 ≤ t ∧ t < usOf g.gapSamples

/-- The loop over the edges of a grid that leaves the view at its end only shows every symbol in view, and
nothing else. -/
theorem symInfosFrom_shows {smoothed : Nat → List Sample → List ℚ} (lengths : KeepsLength smoothed)
    {zoomSeg : List Sample} {g : Grid} (c : Crossings) (size : g.n = zoomSeg.length) (view : 96 < zoomSeg.length)
    (margin : 96 < g.gapSamples / 2) (fits : ∀ j, g.Fits (j + 1) → g.Fits j) (m : Nat) :
    ∃ infos, symInfosFrom smoothed zoomSeg (g.gapSamples / 2) g.symOffset 0
        (g.edgesFrom c none (List.range m)) = some infos ∧
      (∀ i < m, g.Fits i → ∃ info, infos[i]? = some info) ∧
      ∀ i info, infos[i]? = some info → Shows smoothed zoomSeg g c i info := by
  have bounds := g.edgesFrom_bounds c (by omega : 1 ≤ g.n) (List.range m) none
  rw [size] at bounds
  obtain ⟨infos, found, all, labels⟩ := symInfosFrom_labels smoothed g.symOffset view margin bounds 0
  refine ⟨infos, found, ?_, ?_⟩
  · intro i lt in_view
    rw [← Nat.zero_add i] at in_view
    obtain ⟨e, here⟩ := exists_edgesFrom_getElem? c fits lt 0 none in_view
    rw [← List.range_eq_range'] at here
    obtain ⟨inside, -⟩ := List.getElem?_eq_some_iff.1 here
    exact ⟨_, List.getElem?_eq_getElem (lt_of_lt_of_eq inside all.symm)⟩
  · intro i info here
    obtain ⟨s, e, at_i, idx, label⟩ := labels i info here
    rw [Nat.zero_add] at idx
    have symbol : g.nextEdge c (g.prevEnd c (0 + i)) (0 + i) = some (s, e) := by
      apply edgesFrom_getElem? c fits m 0
      rw [← List.range_eq_range']
      exact at_i
    rw [Nat.zero_add] at symbol
    obtain ⟨low, order, high⟩ := bounds (s, e) (List.mem_of_getElem? at_i)
    refine ⟨idx, ⟨s, e, symbol, label⟩, ?_⟩
    rintro t (rise | fall)
    · exact measured_lt_gap lengths view margin low (order.le.trans high) label.rise rise
    · exact measured_lt_gap lengths view margin (low.trans order.le) high label.fall fall

/-- The first sample of the view, and the one behind it. -/
def zoomBounds (K : DecoderConstants) (n startSample nSymbols : Int) : Int × Int :=
  (max 0 (startSample + (K.preambleLen - min (max 1 nSymbols) K.preambleLen) * K.slotSamples1 -
      K.samplesPerSymbol / 2),
    min n (startSample + K.preambleLen * K.slotSamples1 + K.samplesPerSymbol / 2))

/-- **The symbol zoom** of a packet that starts in the segment, for symbols longer than the padding of the
filters and gaps more than twice as long: it does not fail, and is drawn unless less than a symbol is in
view. It shows the symbols that lie in the view, each with its own number in the preamble and the
transitions of its own edges, none of them longer than the gap between two symbols. -/
theorem symbolZoom_shows (K : DecoderConstants) (smoothed : Nat → List Sample → List ℚ)
    (iqSegment : List Sample) (startSample nSymbols : Int)
    (lengths : KeepsLength smoothed) (started : 0 ≤ startSample)
    (symbols : 96 < K.samplesPerSymbol) (gaps : K.samplesPerSymbol + 194 ≤ K.slotSamples1) :
    ∃ shown, renderSymbolZoomPlot K smoothed iqSegment (some startSample) nSymbols = some shown ∧
      (shown = none ↔ (zoomBounds K iqSegment.length startSample nSymbols).2 -
        (zoomBounds K iqSegment.length startSample nSymbols).1 < K.samplesPerSymbol) ∧
      ∀ view, shown = some view →
        (view.viewStart, view.viewEnd) = zoomBounds K iqSegment.length startSample nSymbols ∧ ∃ c g,
        buildCrossings smoothed (Np.slice iqSegment view.viewStart view.viewEnd) = some c ∧
        g = ⟨(Np.slice iqSegment view.viewStart view.viewEnd).length, startSample, view.viewStart,
          K.preambleLen - min (max 1 nSymbols) K.preambleLen, K.slotSamples1, K.samplesPerSymbol⟩ ∧
        (∀ i : Nat, (i : Int) < min (max 1 nSymbols) K.preambleLen → Grid.Fits g i →
          ∃ info, view.symInfos[i]? = some info) ∧
        ∀ i info, view.symInfos[i]? = some info →
          Shows smoothed (Np.slice iqSegment view.viewStart view.viewEnd) g c i info := by
  unfold renderSymbolZoomPlot zoomBounds
  dsimp only
  split_ifs with empty short
  · exact ⟨none, rfl, ⟨fun _ => by omega, fun _ => rfl⟩, fun _ none => by cases none⟩
  · refine ⟨none, rfl, ⟨fun _ => ?_, fun _ => rfl⟩, fun _ none => by cases none⟩
    have length := Np.length_slice iqSegment (le_max_left 0 _) (min_le_left (iqSegment.length : Int) _)
      (not_le.1 empty).le
    omega
  have offset : (0 : Int) ≤ K.preambleLen - min (max 1 nSymbols) K.preambleLen := by omega
  generalize (K.preambleLen : Int) - min (max 1 nSymbols) K.preambleLen = symOffset at *
  have first : 0 ≤ startSample + symOffset * K.slotSamples1 := by positivity
  have begins : 0 ≤ startSample + (symOffset + (0 : ℕ)) * K.slotSamples1
      - max 0 (startSample + symOffset * K.slotSamples1 - K.samplesPerSymbol / 2) := by
    rw [Nat.cast_zero, add_zero]
    omega
  have length := Np.length_slice iqSegment (le_max_left 0 _) (min_le_left (iqSegment.length : Int) _)
    (not_le.1 empty).le
  generalize max 0 (startSample + symOffset * K.slotSamples1 - (K.samplesPerSymbol : Int) / 2) = viewStart at *
  generalize min (iqSegment.length : Int) _ = viewEnd at *
  generalize zoom : Np.slice iqSegment viewStart viewEnd = zoomSeg at *
  have long : 96 < zoomSeg.length := by omega
  obtain ⟨c, crossings⟩ : ∃ c, buildCrossings smoothed zoomSeg = some c := by
    refine ⟨_, if_neg ?_⟩
    unfold padLen smoothingWindow
    omega
  let g : Grid := ⟨zoomSeg.length, startSample, viewStart, symOffset, K.slotSamples1, K.samplesPerSymbol⟩
  obtain ⟨infos, found, all, shows⟩ := symInfosFrom_shows lengths (g := g) c rfl long
    (by omega : 96 < ((K.slotSamples1 : Int) - K.samplesPerSymbol) / 2)
    (fits_of_succ (Int.natCast_nonneg _) begins) (min (max 1 nSymbols) (K.preambleLen : Int)).toNat
  refine ⟨some ⟨viewStart, viewEnd, infos⟩, ?_, ?_, ?_⟩
  · rw [correctSymbolEdges, crossings, Option.map_some]
    change Option.bind (symInfosFrom _ _ _ _ 0 (g.edgesFrom c none _)) _ = _
    rw [show (K.slotSamples1 - K.samplesPerSymbol : Int) = g.gapSamples from rfl, found]
    rfl
  · apply iff_of_false
    · intro drawn
      cases drawn
    · omega
  · rintro view ⟨⟩
    dsimp only
    rw [zoom]
    exact ⟨rfl, c, g, crossings, rfl, fun i lt => all i (by omega), shows⟩

theorem filtfilt_keepsLength : KeepsLength filtfilt := by
  intro taps iqSeg long
  simp only [filtfilt, average, List.length_take, List.length_drop, List.length_reverse, List.length_map,
    List.length_range, List.length_append]
  omega

/-- One symbol of 97 samples in a segment, behind which a gap of 194 would follow. -/
def longGaps : DecoderConstants := ⟨2, 1, 97, fun _ => some 291, 291⟩

def burst : List Sample :=
  (List.range 110).map fun i => if 10 ≤ i ∧ i < 107 then ⟨1024, 0⟩ else ⟨0, 0⟩

theorem burst_crossings : buildCrossings filtfilt burst = some ⟨[9], [106]⟩ := by
  decide +kernel

/-- The rise of the burst lies in the window around its first edge. -/
theorem burst_not_flat : ¬Flat (filtfilt transitionWindow (edgeWindow burst 97 9)) := by
  have high : (filtfilt transitionWindow (edgeWindow burst 97 9))[50]? = some 1024 := by decide +kernel
  have low : (filtfilt transitionWindow (edgeWindow burst 97 9))[0]? = some 0 := by decide +kernel
  apply not_flat_of_mem (List.mem_of_getElem? high) (List.mem_of_getElem? low)
  norm_num

/-- The zoom of the burst is drawn, as symbol 0 of the preamble, and its rise is measured. -/
theorem symbolZoom_shows_one :
    ∃ view info t, renderSymbolZoomPlot longGaps filtfilt burst (some 10) 6 = some (some view) ∧
      view.symInfos[0]? = some info ∧ info.preambleIdx = 0 ∧ info.sUs = usOf 9 ∧ info.riseUs = some t ∧
      0 ≤ t ∧ t < usOf 194 := by
  obtain ⟨shown, drawn, empty, shows⟩ := symbolZoom_shows longGaps filtfilt burst 10 6 filtfilt_keepsLength
    (by decide) (by decide) (by decide)
  cases shown with
  | none => exact absurd (empty.1 rfl) (by decide)
  | some view =>
    obtain ⟨bounds, c, g, crossings, rfl, all, symbols⟩ := shows view rfl
    obtain ⟨first, last⟩ : view.viewStart = 0 ∧ view.viewEnd = 110 :=
      Prod.mk.inj (bounds.trans (by decide))
    have whole : Np.slice burst 0 110 = burst := by decide
    rw [first, last, whole] at all symbols crossings
    rw [burst_crossings] at crossings
    cases crossings
    obtain ⟨info, here⟩ := all 0 (by decide) (by unfold Grid.Fits; decide)
    obtain ⟨idx, ⟨s, e, edge, labels⟩, times⟩ := symbols 0 info here
    have at_nine : (s, e) = (9, 106) := Option.some.inj (edge.symm.trans (by decide))
    cases at_nine
    obtain ⟨t, rise⟩ := Option.ne_none_iff_exists'.1 fun flat => burst_not_flat (labels.rise.none_iff.1 flat)
    obtain ⟨nonneg, short⟩ := times t (.inl rise)
    exact ⟨view, info, t, drawn, here, idx, labels.start, rise, nonneg, short⟩

end StreamWeb.Spectrum

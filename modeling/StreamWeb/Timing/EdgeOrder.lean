import Mathlib.Data.List.Chain
import StreamWeb.Timing

/-!
# The order of corrected edges

Every symbol starts behind the one before it until the last clamp: a start is
moved to the last sample of the segment at the latest, and the symbol before
may have drifted that far while the nominal grid still fits. `edges_ordered_iff`
says when the edges are in order by where the loop stands in front of each
symbol; `edges_ordered_of_stays` by the grid and the crossings, which must not
take a symbol further than the grid has room for.
-/

namespace StreamWeb.Timing

/-- The gaps of `edges_to_timing_stats`, in milliseconds. -/
def gapMs (edges : List (Int × Int)) (sr : ℚ) : List ℚ :=
  (edges.zip edges.tail).map fun p => ((p.2.1 - p.1.2 : Int) : ℚ) / sr * 1000

/-- Intervals of a segment of `n` samples, one behind the other. -/
structure Ordered (n : Int) (edges : List (Int × Int)) : Prop where
  bounds : ∀ e ∈ edges, 0 ≤ e.1 ∧ e.1 < e.2 ∧ e.2 ≤ n
  apart : edges.IsChain fun e e' => e.2 < e'.1
  gaps : ∀ sr > 0, ∀ gap ∈ gapMs edges sr, 0 < gap

/-- Intervals that stand apart have gaps. -/
theorem gapMs_pos {edges : List (Int × Int)} (apart : edges.IsChain fun e e' => e.2 < e'.1) {sr : ℚ}
    (pos : 0 < sr) : ∀ gap ∈ gapMs edges sr, 0 < gap := by
  induction edges with
  | nil => simp [gapMs]
  | cons e rest ih =>
    cases rest with
    | nil => simp [gapMs]
    | cons e' rest =>
      obtain ⟨behind, apart'⟩ := List.isChain_cons_cons.1 apart
      intro gap mem
      rcases List.mem_cons.1 mem with rfl | later
      · have : (0 : ℚ) < ((e'.1 - e.2 : Int) : ℚ) := by
          exact_mod_cast (show 0 < e'.1 - e.2 by omega)
        positivity
      · exact ih apart' gap later

namespace Grid

variable (g : Grid) (c : Crossings)

/-- Symbol `k` of the nominal grid is wholly in the segment. -/
def Fits (k : Nat) : Prop := 0 ≤ g.nominalStart k ∧ g.nominalStart k + g.symLen ≤ g.n

/-- `prev_end` in front of symbol `k`. -/
def prevEnd : Nat → Option Int
  | 0 => none
  | k + 1 =>
    match g.nextEdge c (prevEnd k) k with
    | none => prevEnd k
    | some edge => some edge.2

theorem nextEdge_none_iff {prev : Option Int} {k : Nat} : g.nextEdge c prev k = none ↔ ¬g.Fits k := by
  unfold nextEdge Fits
  split_ifs with out
  · simp only [true_iff]
    omega
  · simp only [false_iff, not_not]
    omega

theorem fits_of_nextEdge {prev : Option Int} {k : Nat} {e : Int × Int}
    (edge : g.nextEdge c prev k = some e) : g.Fits k := by
  by_contra out
  rw [(g.nextEdge_none_iff c).2 out] at edge
  cases edge

/-- A symbol is an interval of the segment. -/
theorem nextEdge_bounds (pos : 1 ≤ g.n) {prev : Option Int} {k : Nat} {e : Int × Int}
    (edge : g.nextEdge c prev k = some e) : 0 ≤ e.1 ∧ e.1 < e.2 ∧ e.2 ≤ g.n := by
  unfold nextEdge at edge
  split_ifs at edge
  cases edge
  generalize g.rise c.rising prev k = s
  generalize g.fall c.falling s = f
  simp only
  omega

/-- It starts behind the one before exactly when that leaves room for it. -/
theorem nextEdge_behind_iff (pos : 1 ≤ g.n) {p : Int} {k : Nat} {e : Int × Int}
    (edge : g.nextEdge c (some p) k = some e) : p < e.1 ↔ p < g.n - 1 := by
  unfold nextEdge at edge
  split_ifs at edge
  cases edge
  have behind : p + 1 ≤ g.rise c.rising (some p) k := le_max_right _ _
  generalize g.rise c.rising (some p) k = s at *
  simp only
  omega

/-- Edges in order behind a symbol that ended at `prev`. -/
def Chained (prev : Option Int) (edges : List (Int × Int)) : Prop :=
  (∀ p, prev = some p → ∀ e ∈ edges.head?, p < e.1) ∧ edges.IsChain fun e e' => e.2 < e'.1

theorem chained_cons {prev : Option Int} {e : Int × Int} {rest : List (Int × Int)} :
    Chained prev (e :: rest) ↔ (∀ p, prev = some p → p < e.1) ∧ Chained (some e.2) rest := by
  simp [Chained, List.isChain_cons]

theorem forall_from_succ {P : Nat → Prop} {k m : Nat} :
    (∀ j, k ≤ j → j < k + (m + 1) → P j) ↔ P k ∧ ∀ j, k + 1 ≤ j → j < k + 1 + m → P j := by
  constructor
  · intro all
    exact ⟨all k (le_refl k) (by omega), fun j low high => all j (by omega) (by omega)⟩
  · rintro ⟨here, behind⟩ j low high
    rcases Nat.eq_or_lt_of_le low with rfl | lt
    · exact here
    · exact behind j lt (by omega)

/-- **The loop from symbol `k` on**: the edges are in order exactly when each symbol that is taken up
finds room behind the one before. -/
theorem chained_edgesFrom_iff (pos : 1 ≤ g.n) (m k : Nat) :
    Chained (g.prevEnd c k) (g.edgesFrom c (g.prevEnd c k) (List.range' k m)) ↔
      ∀ j, k ≤ j → j < k + m → g.Fits j → ∀ p, g.prevEnd c j = some p → p < g.n - 1 := by
  induction m generalizing k with
  | zero =>
    constructor
    · intro _ j low high
      omega
    · intro _
      exact ⟨by simp [edgesFrom], by simp [edgesFrom]⟩
  | succ m ih =>
    have later := ih (k + 1)
    rw [List.range'_succ, edgesFrom, forall_from_succ]
    cases edge : g.nextEdge c (g.prevEnd c k) k with
    | none =>
      have same : g.prevEnd c (k + 1) = g.prevEnd c k := by
        rw [prevEnd, edge]
      have out := (g.nextEdge_none_iff c).1 edge
      rw [same] at later
      simp only
      rw [later]
      exact ⟨fun behind => ⟨fun fits => absurd fits out, behind⟩, fun both => both.2⟩
    | some e =>
      have next : g.prevEnd c (k + 1) = some e.2 := by
        rw [prevEnd, edge]
      have fits := g.fits_of_nextEdge c edge
      rw [next] at later
      simp only
      rw [chained_cons, later]
      refine and_congr ?_ Iff.rfl
      constructor
      · intro behind _ p before
        rw [before] at edge
        exact (g.nextEdge_behind_iff c pos edge).1 (behind p before)
      · intro room p before
        have left := room fits p before
        rw [before] at edge
        exact (g.nextEdge_behind_iff c pos edge).2 left

theorem edgesFrom_bounds (pos : 1 ≤ g.n) (ks : List Nat) :
    ∀ prev, ∀ e ∈ g.edgesFrom c prev ks, 0 ≤ e.1 ∧ e.1 < e.2 ∧ e.2 ≤ g.n := by
  induction ks with
  | nil => simp [edgesFrom]
  | cons k ks ih =>
    intro prev e mem
    rw [edgesFrom] at mem
    cases edge : g.nextEdge c prev k with
    | none =>
      rw [edge] at mem
      exact ih prev e mem
    | some e' =>
      rw [edge] at mem
      rcases List.mem_cons.1 mem with rfl | later
      · exact g.nextEdge_bounds c pos edge
      · exact ih (some e'.2) e later

end Grid

/-- **When corrected edges are in order.** For every segment, smoothing and arguments with which the
tracker returns: the edges are intervals of the segment, each behind the one before, and every gap
between two is positive, exactly when each symbol of the grid that fits is taken up while the one
before has ended in front of the last sample. -/
theorem edges_ordered_iff (smoothed : Nat → List Sample → List ℚ) (iqSeg : List Sample)
    (startSample viewStart : Int) (nSym : Nat) (symOffset slot symLen : Int) (c : Crossings)
    (crossings : buildCrossings smoothed iqSeg = some c) (edges : List (Int × Int))
    (result : correctSymbolEdges smoothed iqSeg startSample viewStart nSym symOffset slot symLen
      = some edges) :
    Ordered iqSeg.length edges ↔
      ∀ k < nSym, Grid.Fits ⟨iqSeg.length, startSample, viewStart, symOffset, slot, symLen⟩ k →
        ∀ e, Grid.prevEnd ⟨iqSeg.length, startSample, viewStart, symOffset, slot, symLen⟩ c k = some e →
          e < iqSeg.length - 1 := by
  have long := correctSymbolEdges_isSome.1 (Option.isSome_of_eq_some result)
  have pos : (1 : Int) ≤ iqSeg.length := by
    unfold padLen smoothingWindow at long
    omega
  rw [correctSymbolEdges, crossings, Option.map_some, Option.some.injEq] at result
  subst result
  have chained := Grid.chained_edgesFrom_iff
    ⟨iqSeg.length, startSample, viewStart, symOffset, slot, symLen⟩ c pos nSym 0
  rw [← List.range_eq_range'] at chained
  constructor
  · intro ordered k lt
    refine chained.1 ⟨?_, ordered.apart⟩ k (Nat.zero_le k) (by omega)
    intro p before
    cases before
  · intro room
    have apart := (chained.2 fun k _ high => room k (by omega)).2
    exact ⟨Grid.edgesFrom_bounds _ c pos _ none, apart, fun sr pos => gapMs_pos apart pos⟩

/-! ## Crossings that leave room -/

theorem nearestXing_mem {arr : List Int} (target : Int) (some_left : arr ≠ []) : nearestXing arr target ∈ arr := by
  cases arr with
  | nil => exact absurd rfl some_left
  | cons x xs =>
    rw [nearestXing]
    induction xs generalizing x with
    | nil => exact List.mem_cons_self
    | cons y ys ih =>
      rw [List.foldl_cons]
      split
      · have later := ih y (List.cons_ne_nil y ys)
        exact List.mem_cons_of_mem x later
      · rcases List.mem_cons.1 (ih x (List.cons_ne_nil x ys)) with same | later
        · exact List.mem_cons.2 (.inl same)
        · exact List.mem_cons_of_mem x (List.mem_cons_of_mem y later)

/-- What the nearest crossing of a window is not above. -/
theorem nearestXing_between_le {arr : List Int} {lo hi target bound : Int} (here : target ≤ bound)
    (all : ∀ x ∈ arr, x ≤ hi → x ≤ bound) : nearestXing (between arr lo hi) target ≤ bound := by
  by_cases none_left : between arr lo hi = []
  · rw [none_left]
    exact here
  · obtain ⟨mem, inside⟩ := List.mem_filter.1 (nearestXing_mem target none_left)
    simp only [Bool.and_eq_true, decide_eq_true_eq] at inside
    exact all _ mem inside.2

namespace Grid

variable {g : Grid} {c : Crossings}

/-- Symbol `k`, looked for no more than `drift k` behind its nominal place, ends no more than
`drift (k + 1)` behind it: no crossing within reach is further. And there the segment goes on. -/
structure Stays (g : Grid) (c : Crossings) (drift : Nat → Int) (k : Nat) : Prop where
  room : g.nominalStart k + g.symLen + drift (k + 1) < g.n - 1
  rising : ∀ x ∈ c.rising, x ≤ g.nominalStart k + drift k + g.searchMargin →
    x ≤ g.nominalStart k + drift (k + 1)
  falling : ∀ x ∈ c.falling,
    x ≤ g.nominalStart k + g.symLen + min (drift (k + 1)) (drift k + g.searchMargin) + g.fallMargin →
      x ≤ g.nominalStart k + g.symLen + drift (k + 1)

theorem nominalStart_mono (slots : 0 < g.slot) {j k : Nat} (lt : j < k) :
    g.nominalStart j + g.slot ≤ g.nominalStart k := by
  have step : (g.symOffset + j + 1) * g.slot ≤ (g.symOffset + k) * g.slot :=
    Int.mul_le_mul_of_nonneg_right (by omega) slots.le
  have split : (g.symOffset + j + 1) * g.slot = (g.symOffset + j) * g.slot + g.slot := by ring
  unfold nominalStart
  omega

section Drift

variable {drift : Nat → Int} {prev : Option Int} {k : Nat}

theorem drift_le (grows : ∀ k, drift k ≤ drift (k + 1)) {i j : Nat} (le : i ≤ j) : drift i ≤ drift j := by
  induction j, le using Nat.le_induction with
  | base => exact Int.le_refl _
  | succ j _ ih => exact Int.le_trans ih (grows j)

/-- Where a symbol can start when the one before has kept to its drift. -/
theorem rise_le (stays : g.Stays c drift k) (gap : g.symLen < g.slot)
    (grows : ∀ k, drift k ≤ drift (k + 1)) (low : 0 ≤ drift 0)
    (before : ∀ p, prev = some p → p + g.gapSamples ≤ g.nominalStart k + drift k) :
    g.rise c.rising prev k ≤ g.nominalStart k + min (drift (k + 1)) (drift k + g.searchMargin) := by
  have gap_pos : 0 < g.gapSamples := by
    unfold gapSamples
    omega
  have margin : g.gapSamples ≤ g.searchMargin := le_max_left _ _
  have first : 0 ≤ drift k := low.trans (drift_le grows (Nat.zero_le k))
  have next : drift k ≤ drift (k + 1) := grows k
  have center : g.searchCenter prev k ≤ g.nominalStart k + drift k := by
    cases prev with
    | none =>
      show g.nominalStart k ≤ g.nominalStart k + drift k
      omega
    | some p => exact before p rfl
  -- the crossing nearest to the center, around the center or around the nominal start
  have nearest : nearestXing (g.riseCands c.rising prev k) (g.searchCenter prev k) ≤
      g.nominalStart k + min (drift (k + 1)) (drift k + g.searchMargin) := by
    have reach : ∀ hi, hi ≤ g.nominalStart k + drift k + g.searchMargin → ∀ x ∈ c.rising, x ≤ hi →
        x ≤ g.nominalStart k + min (drift (k + 1)) (drift k + g.searchMargin) := by
      intro hi bound x mem inside
      have := stays.rising x mem (inside.trans bound)
      omega
    unfold riseCands
    dsimp only
    split <;> apply nearestXing_between_le (by omega) (reach _ (by omega))
  unfold rise
  dsimp only
  cases prev with
  | none => exact nearest
  | some p =>
    have := before p rfl
    exact max_le nearest (by omega)

/-- And where it ends. -/
theorem nextEdge_le (stays : g.Stays c drift k) (pos : 0 < g.symLen) (gap : g.symLen < g.slot)
    (grows : ∀ k, drift k ≤ drift (k + 1)) (low : 0 ≤ drift 0)
    (before : ∀ p, prev = some p → p + g.gapSamples ≤ g.nominalStart k + drift k) {e : Int × Int}
    (edge : g.nextEdge c prev k = some e) : e.2 ≤ g.nominalStart k + g.symLen + drift (k + 1) := by
  have start := rise_le stays gap grows low before
  have first : 0 ≤ drift (k + 1) := low.trans (drift_le grows (Nat.zero_le _))
  have fits := g.fits_of_nextEdge c edge
  unfold nextEdge at edge
  split_ifs at edge
  cases edge
  have fall : g.fall c.falling (g.rise c.rising prev k) ≤ g.nominalStart k + g.symLen + drift (k + 1) := by
    unfold Grid.fall
    dsimp only
    apply max_le _ (by omega)
    apply nearestXing_between_le (by omega)
    intro x mem inside
    exact stays.falling x mem (by omega)
  have := fits.1
  generalize g.rise c.rising prev k = s at *
  generalize g.fall c.falling s = f at *
  dsimp only
  omega

/-- **The loop keeps to the drift**: the symbol taken up last ends where its drift allows, while a
symbol that fits is to come. -/
theorem prevEnd_le (pos : 0 < g.symLen) (gap : g.symLen < g.slot)
    (grows : ∀ k, drift k ≤ drift (k + 1)) (low : 0 ≤ drift 0) {last : Nat}
    (stays : ∀ k < last, g.Fits k → g.Stays c drift k) :
    ∀ k ≤ last, ∀ p, g.prevEnd c k = some p →
      ∃ j < k, g.Fits j ∧ p ≤ g.nominalStart j + g.symLen + drift (j + 1) := by
  intro k
  induction k with
  | zero =>
    intro _ p before
    cases before
  | succ k ih =>
    intro le p before
    have earlier := ih (by omega)
    rw [prevEnd] at before
    cases edge : g.nextEdge c (g.prevEnd c k) k with
    | none =>
      rw [edge] at before
      obtain ⟨j, lt, rest⟩ := earlier p before
      exact ⟨j, by omega, rest⟩
    | some e =>
      rw [edge] at before
      cases before
      have fits := g.fits_of_nextEdge c edge
      refine ⟨k, Nat.lt_succ_self k, fits, ?_⟩
      apply nextEdge_le (stays k (by omega) fits) pos gap grows low _ edge
      intro p before
      obtain ⟨j, lt, -, bound⟩ := earlier p before
      have slots := nominalStart_mono (g := g) (by omega) lt
      have grown : drift (j + 1) ≤ drift k := drift_le grows lt
      unfold gapSamples
      omega

end Drift

end Grid

/-- **Corrected edges are in order while the crossings leave room.** For every segment, smoothing and
arguments with which the tracker returns, and every allowance for the drift: when each symbol of the
grid that fits, and has another behind it that does, stays within the allowance and the segment, the
edges are intervals of the segment, each behind the one before, and every gap between two is positive. -/
theorem edges_ordered_of_stays (smoothed : Nat → List Sample → List ℚ) (iqSeg : List Sample)
    (startSample viewStart : Int) (nSym : Nat) (symOffset slot symLen : Int) (c : Crossings)
    (crossings : buildCrossings smoothed iqSeg = some c) (edges : List (Int × Int))
    (result : correctSymbolEdges smoothed iqSeg startSample viewStart nSym symOffset slot symLen
      = some edges)
    (pos : 0 < symLen) (gap : symLen < slot) (drift : Nat → Int) (low : 0 ≤ drift 0)
    (grows : ∀ k, drift k ≤ drift (k + 1))
    (stays : ∀ k j, k < j → j < nSym →
      Grid.Fits ⟨iqSeg.length, startSample, viewStart, symOffset, slot, symLen⟩ k →
      Grid.Fits ⟨iqSeg.length, startSample, viewStart, symOffset, slot, symLen⟩ j →
        Grid.Stays ⟨iqSeg.length, startSample, viewStart, symOffset, slot, symLen⟩ c drift k) :
    Ordered iqSeg.length edges := by
  apply (edges_ordered_iff smoothed iqSeg startSample viewStart nSym symOffset slot symLen c crossings edges
    result).2
  intro k lt fits e before
  have room : ∀ j < k, _ → _ := fun j behind fits' => stays j k behind lt fits' fits
  obtain ⟨j, behind, fits', bound⟩ := Grid.prevEnd_le pos gap grows low room k le_rfl e before
  exact lt_of_le_of_lt bound (room j behind fits').room

/-- Whatever the crossings, the segment may leave room for all that a symbol can be moved. -/
theorem Grid.stays_of_room {g : Grid} {k : Nat} (gap : g.symLen ≤ g.slot)
    (room : g.nominalStart k + g.symLen + (k + 1) * (g.searchMargin + g.fallMargin) < g.n - 1)
    (c : Crossings) : g.Stays c (fun k => k * (g.searchMargin + g.fallMargin)) k := by
  have gap_nonneg : 0 ≤ g.gapSamples := by
    unfold gapSamples
    omega
  have search : 0 ≤ g.searchMargin := le_max_of_le_left gap_nonneg
  have fall : 0 ≤ g.fallMargin := by
    unfold fallMargin
    omega
  have step : ((k : Int) + 1) * (g.searchMargin + g.fallMargin) =
      k * (g.searchMargin + g.fallMargin) + g.searchMargin + g.fallMargin := by ring
  constructor
  · push_cast
    exact room
  · intro x _ near
    push_cast
    omega
  · intro x _ near
    push_cast at *
    omega

/-! ## A packet that drifts out of its segment -/

/-- `lfilter` of equal taps, at rest at the first entry before it. -/
def average (taps : Nat) (ys : List ℚ) : List ℚ :=
  let rest := List.replicate (taps - 1) (ys.getD 0 0)
  (List.range ys.length).map fun i => (((rest ++ ys).drop i).take taps).sum / taps

/-- `filtfilt` of equal taps on the magnitudes of samples without imaginary part: extended oddly at
both ends, averaged forward and backward, and cut to its length again. -/
def filtfilt (taps : Nat) (iqSeg : List Sample) : List ℚ :=
  let xs := iqSeg.map fun s => |s.re|
  let front := ((xs.drop 1).take (padLen taps)).reverse.map fun x => 2 * xs.getD 0 0 - x
  let back := ((xs.reverse.drop 1).take (padLen taps)).map fun x => 2 * xs.reverse.getD 0 0 - x
  let forward := average taps (front ++ xs ++ back)
  ((average taps forward.reverse).reverse.drop (padLen taps)).take xs.length

/-- Two bursts, the second half a slot late and up to the end of the segment. -/
def drifting : List Sample :=
  (List.range 40).map fun i => if 8 ≤ i ∧ i < 11 ∨ 34 ≤ i then ⟨1, 0⟩ else ⟨0, 0⟩

theorem drifting_crossings : buildCrossings filtfilt drifting = some ⟨[8, 32], [9]⟩ := by
  decide +kernel

/-- Two symbols of the grid are found in order: no crossing lies right behind the place of the first,
moved by half a slot. -/
theorem edges_ordered_of_stays_two : Ordered 40 [(8, 16), (32, 40)] := by
  refine edges_ordered_of_stays filtfilt drifting 0 0 2 0 16 8 ⟨[8, 32], [9]⟩ drifting_crossings
    [(8, 16), (32, 40)] ?_ (by decide) (by decide) (fun _ => 8) (by decide) (fun _ => Int.le_refl _) ?_
  · rw [correctSymbolEdges, drifting_crossings]
    decide
  · intro k j lt inside _ _
    have length : (drifting.length : Int) = 40 := by decide
    have first : k = 0 := by omega
    subst first
    rw [length]
    constructor <;> decide

/-- The grid has a third symbol in the segment: it is taken up when the second has ended with it,
and starts in front of that end. -/
theorem edges_overlap :
    correctSymbolEdges filtfilt drifting 0 0 3 0 16 8 = some [(8, 16), (32, 40), (39, 40)] ∧
      drifting.length = 40 ∧ ¬Ordered 40 [(8, 16), (32, 40), (39, 40)] := by
  refine ⟨?_, rfl, ?_⟩
  · rw [correctSymbolEdges, drifting_crossings]
    decide
  · intro ordered
    exact absurd ordered.apart (by decide)

end StreamWeb.Timing

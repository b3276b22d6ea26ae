import StreamWeb.Timing.EdgeOrder

/-!
# The tracker follows a packet

Each symbol is looked for behind the end of the one before, so the packet may
drift away from the nominal grid as far as it likes while every step stays
within the margins. The crossing that belongs to the symbol is then the only
one in its window: `correctSymbolEdges_eq`.
-/

namespace StreamWeb.Timing

/-- Crossings that are one and the same have it closest to any target. -/
theorem nearestXing_of_forall_eq {arr : List Int} {x target : Int} (some_left : arr ≠ [])
    (all : ∀ y ∈ arr, y = x) : nearestXing arr target = x := by
  cases arr with
  | nil => exact absurd rfl some_left
  | cons y ys =>
    have first : y = x := all y List.mem_cons_self
    subst first
    rw [nearestXing]
    have rest : ∀ z ∈ ys, z = y := fun z mem => all z (List.mem_cons_of_mem y mem)
    clear all some_left
    induction ys with
    | nil => rfl
    | cons z zs ih =>
      have same : z = y := rest z List.mem_cons_self
      subst same
      rw [List.foldl_cons, if_neg (lt_irrefl _)]
      exact ih fun w mem => rest w (List.mem_cons_of_mem z mem)

theorem mem_between {arr : List Int} {lo hi x : Int} :
    x ∈ between arr lo hi ↔ x ∈ arr ∧ lo ≤ x ∧ x ≤ hi := by
  simp [between]

/-- The one crossing of a window is the nearest. -/
theorem nearestXing_between {arr : List Int} {lo hi x target : Int} (mem : x ∈ arr)
    (inside : lo ≤ x ∧ x ≤ hi) (only : ∀ y ∈ arr, lo ≤ y → y ≤ hi → y = x) :
    nearestXing (between arr lo hi) target = x := by
  apply nearestXing_of_forall_eq
  · exact List.ne_nil_of_mem (mem_between.2 ⟨mem, inside⟩)
  · intro y found
    obtain ⟨mem', low, high⟩ := mem_between.1 found
    exact only y mem' low high

namespace Grid

variable (g : Grid) {r f : Nat → Int} {nSym : Nat}

/-- A symbol and its gap, with margins that tell the symbols apart. -/
structure Separated : Prop where
  symLen_pos : 0 < g.symLen
  symLen_le : g.symLen ≤ g.slot
  rises : 3 * g.searchMargin + g.fallMargin < g.slot
  falls : 3 * g.fallMargin ≤ g.symLen

/-- A packet whose symbols rise at `r` and fall at `f`, each close to where the one before says. -/
structure Tracks (r f : Nat → Int) (nSym : Nat) : Prop where
  first : 0 < nSym → |r 0 - g.nominalStart 0| ≤ g.searchMargin
  rise : ∀ k, k + 1 < nSym → |r (k + 1) - (f k + g.gapSamples)| ≤ g.searchMargin
  fall : ∀ k < nSym, |f k - (r k + g.symLen)| ≤ g.fallMargin
  symbol : ∀ k < nSym, r k < f k
  gap : ∀ k, k + 1 < nSym → f k < r (k + 1)

variable {g}

/-- A symbol ends before every later one starts. -/
theorem Tracks.lt (tracks : g.Tracks r f nSym) {j k : Nat} (lt : j < k) (inside : k < nSym) :
    f j < r k := by
  induction k, lt using Nat.le_induction with
  | base => exact tracks.gap j inside
  | succ k _ ih =>
    have before := ih (by omega)
    have symbol := tracks.symbol k (by omega)
    have gap := tracks.gap k inside
    omega

/-- A later symbol rises more than two margins past where symbol `k` was looked for. -/
theorem Tracks.next_rise (tracks : g.Tracks r f nSym) {j k : Nat} (lt : k < j)
    (inside : j < nSym) : r k + g.slot - g.fallMargin - g.searchMargin ≤ r j := by
  have rise := abs_le.1 (tracks.rise k (by omega))
  have fall := abs_le.1 (tracks.fall k (by omega))
  have gap : g.gapSamples = g.slot - g.symLen := rfl
  have next : r (k + 1) ≤ r j := by
    rcases Nat.eq_or_lt_of_le lt with rfl | later
    · exact le_refl _
    · have symbol := tracks.symbol (k + 1) (by omega)
      have : f (k + 1) < r j := tracks.lt later inside
      omega
  omega

/-- The margins of a separated grid. -/
theorem Separated.margins (sep : g.Separated) : 0 ≤ g.fallMargin ∧ 4 * g.fallMargin ≤ g.searchMargin := by
  have low : 0 ≤ g.gapSamples := by
    have := sep.symLen_le
    unfold gapSamples
    omega
  have high : g.gapSamples ≤ g.searchMargin := le_max_left _ _
  unfold fallMargin
  omega

/-- The one rising crossing a symbol can start at is its own. -/
theorem Tracks.rise_unique (tracks : g.Tracks r f nSym) (sep : g.Separated) {k : Nat} (inside : k < nSym)
    {center floor : Int} (near : |r k - center| ≤ g.searchMargin)
    (behind : ∀ j < k, r j < floor) :
    ∀ y ∈ (List.range nSym).map r, max (center - g.searchMargin) floor ≤ y →
      y ≤ center + g.searchMargin → y = r k := by
  intro y mem low high
  obtain ⟨j, lt, rfl⟩ := List.mem_map.1 mem
  rw [List.mem_range] at lt
  have close := abs_le.1 near
  rcases Nat.lt_trichotomy j k with before | rfl | after
  · have := behind j before
    omega
  · rfl
  · have next := tracks.next_rise after lt
    have rises := sep.rises
    omega

/-- The one falling crossing it can end at is its own. -/
theorem Tracks.fall_unique (tracks : g.Tracks r f nSym) (sep : g.Separated) {k : Nat} (inside : k < nSym)
    {lo hi : Int} (low : r k + g.symLen - g.fallMargin ≤ lo) (high : hi ≤ r k + g.symLen + g.fallMargin) :
    ∀ y ∈ (List.range nSym).map f, lo ≤ y → y ≤ hi → y = f k := by
  intro y mem low' high'
  obtain ⟨j, lt, rfl⟩ := List.mem_map.1 mem
  rw [List.mem_range] at lt
  have margins := sep.margins
  have falls := sep.falls
  rcases Nat.lt_trichotomy j k with before | rfl | after
  · have := tracks.lt before inside
    omega
  · rfl
  · have next := tracks.next_rise after lt
    have fall := abs_le.1 (tracks.fall j lt)
    have rises := sep.rises
    omega

/-! ## One symbol -/

/-- The loop's state in front of symbol `k` of a tracked packet. -/
def trackedEnd (f : Nat → Int) : Nat → Option Int
  | 0 => none
  | k + 1 => some (f k)

/-- The symbol starts at its rising crossing. -/
theorem Tracks.rise_eq (tracks : g.Tracks r f nSym) (sep : g.Separated) {k : Nat} (inside : k < nSym)
    (low : 0 ≤ r 0) : g.rise ((List.range nSym).map r) (trackedEnd f k) k = r k := by
  have own : r k ∈ (List.range nSym).map r := List.mem_map.2 ⟨k, List.mem_range.2 inside, rfl⟩
  have window : |r k - g.searchCenter (trackedEnd f k) k| ≤ g.searchMargin ∧
      searchFloor (trackedEnd f k) ≤ r k ∧ ∀ j < k, r j < searchFloor (trackedEnd f k) := by
    cases k with
    | zero => exact ⟨tracks.first (by omega), low, fun j lt => absurd lt (Nat.not_lt_zero j)⟩
    | succ k =>
      refine ⟨tracks.rise k inside, tracks.gap k inside, ?_⟩
      intro j lt
      show r j < f k + 1
      have symbol := tracks.symbol j (by omega)
      rcases Nat.eq_or_lt_of_le (Nat.le_of_lt_succ lt) with rfl | before
      · omega
      · have := tracks.lt before (by omega)
        have := tracks.symbol k (by omega)
        omega
  obtain ⟨near, floor, behind⟩ := window
  have close := abs_le.1 near
  have only := tracks.rise_unique sep inside near behind
  have bounds : max (g.searchCenter (trackedEnd f k) k - g.searchMargin) (searchFloor (trackedEnd f k))
      ≤ r k ∧ r k ≤ g.searchCenter (trackedEnd f k) k + g.searchMargin := by
    constructor
    · apply max_le
      · omega
      · exact floor
    · omega
  have found : nearestXing (g.riseCands ((List.range nSym).map r) (trackedEnd f k) k)
      (g.searchCenter (trackedEnd f k) k) = r k := by
    have some_left : (between ((List.range nSym).map r)
        (max (g.searchCenter (trackedEnd f k) k - g.searchMargin) (searchFloor (trackedEnd f k)))
        (g.searchCenter (trackedEnd f k) k + g.searchMargin)).isEmpty = false := by
      rw [List.isEmpty_eq_false_iff]
      exact List.ne_nil_of_mem (mem_between.2 ⟨own, bounds⟩)
    unfold riseCands
    simp only [some_left, Bool.false_eq_true, if_false]
    exact nearestXing_between own bounds only
  unfold Grid.rise
  rw [found]
  cases k with
  | zero => rfl
  | succ k => exact max_eq_left floor

/-- It ends at its falling crossing. -/
theorem Tracks.fall_eq (tracks : g.Tracks r f nSym) (sep : g.Separated) {k : Nat} (inside : k < nSym)
    (low : 0 ≤ f k) (high : f k ≤ g.n) : g.fall ((List.range nSym).map f) (r k) = f k := by
  have own : f k ∈ (List.range nSym).map f := List.mem_map.2 ⟨k, List.mem_range.2 inside, rfl⟩
  have close := abs_le.1 (tracks.fall k inside)
  have only := tracks.fall_unique sep inside (le_max_right 0 (r k + g.symLen - g.fallMargin))
    (min_le_right g.n (r k + g.symLen + g.fallMargin))
  unfold Grid.fall
  simp only
  rw [nearestXing_between own ?_ only]
  · exact max_eq_left (tracks.symbol k inside)
  · constructor
    · apply max_le
      · exact low
      · omega
    · apply le_min
      · exact high
      · omega

/-- The crossings lie in the segment. -/
def InSegment (g : Grid) (r f : Nat → Int) (nSym : Nat) : Prop :=
  ∀ k < nSym, 0 ≤ r k ∧ r k < g.n ∧ 0 ≤ f k ∧ f k ≤ g.n

/-- **One symbol**: it is taken up with its own crossings. -/
theorem Tracks.nextEdge_eq (tracks : g.Tracks r f nSym) (sep : g.Separated)
    (segment : g.InSegment r f nSym) {k : Nat} (inside : k < nSym) (fits : g.Fits k) :
    g.nextEdge ⟨(List.range nSym).map r, (List.range nSym).map f⟩ (trackedEnd f k) k
      = some (r k, f k) := by
  obtain ⟨low, high, low', high'⟩ := segment k inside
  have symbol := tracks.symbol k inside
  unfold nextEdge
  rw [if_neg (by unfold Fits at fits; omega)]
  simp only
  rw [tracks.rise_eq sep inside (segment 0 (by omega)).1, tracks.fall_eq sep inside low' high']
  simp only [Option.some.injEq, Prod.mk.injEq]
  omega

/-- **The loop** from symbol `k` on returns the crossings that are left. -/
theorem Tracks.edgesFrom_eq (tracks : g.Tracks r f nSym) (sep : g.Separated)
    (segment : g.InSegment r f nSym) (fits : ∀ k < nSym, g.Fits k) (m k : Nat) (len : k + m = nSym) :
    g.edgesFrom ⟨(List.range nSym).map r, (List.range nSym).map f⟩ (trackedEnd f k) (List.range' k m)
      = (List.range' k m).map fun i => (r i, f i) := by
  induction m generalizing k with
  | zero => rfl
  | succ m ih =>
    rw [List.range'_succ, edgesFrom, tracks.nextEdge_eq sep segment (by omega) (fits k (by omega))]
    simp only [List.map_cons, List.cons.injEq, true_and]
    exact ih (k + 1) (by omega)

end Grid

/-- Crossings are positions of the smoothed segment but its last. -/
theorem mem_changes {up : Bool} {above : List Bool} {p : Int} (mem : p ∈ changes up above) :
    0 ≤ p ∧ p < (above.length : Int) - 1 := by
  obtain ⟨i, found, rfl⟩ := List.mem_map.1 mem
  have lt := List.mem_range.1 (List.mem_of_mem_filter found)
  omega

theorem buildCrossings_bounds {smoothed : Nat → List Sample → List ℚ} {iqSeg : List Sample}
    {c : Crossings} (length : (smoothed smoothingWindow iqSeg).length = iqSeg.length)
    (crossings : buildCrossings smoothed iqSeg = some c) :
    ∀ p, p ∈ c.rising ∨ p ∈ c.falling → 0 ≤ p ∧ p < (iqSeg.length : Int) - 1 := by
  unfold buildCrossings at crossings
  split at crossings
  · cases crossings
  · cases crossings
    rintro p (rise | fall)
    · have := mem_changes rise
      rwa [List.length_map, length] at this
    · have := mem_changes fall
      rwa [List.length_map, length] at this

/-- **The tracker follows the packet.** For every segment whose smoothing has its length, and every
number of symbols whose nominal grid fits: when the crossings are those of the symbols, each
within the margins of where the one before says, the corrected edges are exactly the crossings. -/
theorem correctSymbolEdges_eq (smoothed : Nat → List Sample → List ℚ) (iqSeg : List Sample)
    (startSample viewStart : Int) (nSym : Nat) (symOffset slot symLen : Int) (r f : Nat → Int)
    (length : (smoothed smoothingWindow iqSeg).length = iqSeg.length)
    (sep : Grid.Separated ⟨iqSeg.length, startSample, viewStart, symOffset, slot, symLen⟩)
    (fits : 0 < nSym →
      0 ≤ Grid.nominalStart ⟨iqSeg.length, startSample, viewStart, symOffset, slot, symLen⟩ 0 ∧
        Grid.nominalStart ⟨iqSeg.length, startSample, viewStart, symOffset, slot, symLen⟩ (nSym - 1)
          + symLen ≤ iqSeg.length)
    (crossings : buildCrossings smoothed iqSeg
      = some ⟨(List.range nSym).map r, (List.range nSym).map f⟩)
    (tracks : Grid.Tracks ⟨iqSeg.length, startSample, viewStart, symOffset, slot, symLen⟩ r f nSym) :
    correctSymbolEdges smoothed iqSeg startSample viewStart nSym symOffset slot symLen
      = some ((List.range nSym).map fun k => (r k, f k)) := by
  have bounds := buildCrossings_bounds length crossings
  have segment : Grid.InSegment ⟨iqSeg.length, startSample, viewStart, symOffset, slot, symLen⟩
      r f nSym := by
    intro k inside
    have rise := bounds (r k) (.inl (List.mem_map.2 ⟨k, List.mem_range.2 inside, rfl⟩))
    have fall := bounds (f k) (.inr (List.mem_map.2 ⟨k, List.mem_range.2 inside, rfl⟩))
    refine ⟨rise.1, ?_, fall.1, ?_⟩ <;> simp only <;> omega
  have all_fit : ∀ k < nSym,
      Grid.Fits ⟨iqSeg.length, startSample, viewStart, symOffset, slot, symLen⟩ k := by
    intro k inside
    obtain ⟨low, high⟩ := fits (by omega)
    have wide : 0 < slot := lt_of_lt_of_le sep.symLen_pos sep.symLen_le
    unfold Grid.Fits Grid.nominalStart at *
    simp only at *
    have before : (symOffset + 0) * slot ≤ (symOffset + k) * slot := by
      apply mul_le_mul_of_nonneg_right _ wide.le
      omega
    have after : (symOffset + k) * slot ≤ (symOffset + (nSym - 1 : Nat)) * slot := by
      apply mul_le_mul_of_nonneg_right _ wide.le
      omega
    push_cast at *
    omega
  rw [correctSymbolEdges, crossings, Option.map_some, List.range_eq_range']
  congr 1
  have loop := tracks.edgesFrom_eq sep segment all_fit nSym 0 (Nat.zero_add nSym)
  rwa [List.range_eq_range'] at loop

/-- Two bursts that drift by a sample. -/
def twoBursts : List Sample :=
  (List.range 28).map fun i => if 1 ≤ i ∧ i < 10 ∨ 17 ≤ i ∧ i < 26 then ⟨1, 0⟩ else ⟨0, 0⟩

/-- The tracker finds them where they are. -/
theorem correctSymbolEdges_twoBursts :
    correctSymbolEdges filtfilt twoBursts 0 0 2 0 14 10 = some [(1, 10), (15, 25)] := by
  apply correctSymbolEdges_eq filtfilt twoBursts 0 0 2 0 14 10 (fun k => if k = 0 then 1 else 15)
    fun k => if k = 0 then 10 else 25
  · decide +kernel
  · exact ⟨by decide, by decide, by decide, by decide⟩
  · decide
  · decide +kernel
  · constructor
    · decide
    · intro k lt
      obtain rfl : k = 0 := by omega
      decide
    · decide
    · decide
    · intro k lt
      obtain rfl : k = 0 := by omega
      decide

end StreamWeb.Timing

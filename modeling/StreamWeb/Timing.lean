import StreamWeb.Data
import StreamWeb.Np

/-!
# Symbol edges

`timing.py`: the crossings of a segment's smoothed magnitude, and the tracker
that corrects the nominal symbol grid of a packet with them.

`filtfilt` of the magnitude is a parameter: `smoothed w xs` is what it gives
for a segment `xs` and `w` equal taps. It refuses a segment that is not longer
than its padding of three times the taps, and that error is modelled.
-/

namespace StreamWeb.Timing

/-- The samples after which the signal rises above the threshold, or falls below it. -/
structure Crossings where
  rising : List Int
  falling : List Int
  deriving DecidableEq

/-- The taps of `build_crossings`, by default. -/
def smoothingWindow : Nat := 8

/-- `filtfilt`'s padding for `taps` coefficients: it raises `ValueError` for no more samples. -/
def padLen (taps : Nat) : Nat := 3 * max 1 taps

/-- The positions `i` at which `d[i]`, the difference of the entries `i` and `i + 1`, is `up`. -/
def changes (up : Bool) (above : List Bool) : List Int :=
  ((List.range (above.length - 1)).filter fun i =>
    above.getD i false == !up && above.getD (i + 1) false == up).map fun i : Nat => (i : Int)

/-- The crossings of a segment, or `none` for the error of `filtfilt`. -/
def buildCrossings (smoothed : Nat → List Sample → List ℚ) (iqSeg : List Sample) : Option Crossings :=
  if iqSeg.length ≤ padLen smoothingWindow then none
  else
    let xs := smoothed smoothingWindow iqSeg
    let thresh := Np.percentile xs 90 * (1 / 2)
    let above := xs.map fun x => decide (thresh ≤ x)
    some ⟨changes true above, changes false above⟩

/-- The crossing closest to the target, the first of two; without any, the target. -/
def nearestXing (arr : List Int) (target : Int) : Int :=
  match arr with
  | [] => target
  | x :: xs => xs.foldl (fun best x => if (x - target).natAbs < (best - target).natAbs then x else best) x

/-- `arr[(arr >= lo) & (arr <= hi)]`. -/
def between (arr : List Int) (lo hi : Int) : List Int := arr.filter fun x => lo ≤ x && x ≤ hi

/-- The arguments of `correct_symbol_edges` and the length of its segment. -/
structure Grid where
  n : Int
  startSample : Int
  viewStart : Int
  symOffset : Int
  slot : Int
  symLen : Int

namespace Grid

variable (g : Grid)

def gapSamples : Int := g.slot - g.symLen

def searchMargin : Int := max g.gapSamples (g.symLen / 8)

def fallMargin : Int := g.gapSamples / 4

/-- The nominal start of symbol `k`. -/
def nominalStart (k : Nat) : Int := g.startSample + (g.symOffset + k) * g.slot - g.viewStart

/-- Where the start of symbol `k` is looked for first, behind a symbol that ended at `prevEnd`. -/
def searchCenter (prevEnd : Option Int) (k : Nat) : Int :=
  match prevEnd with
  | some e => e + g.gapSamples
  | none => g.nominalStart k

/-- No start is looked for before this. -/
def searchFloor (prevEnd : Option Int) : Int :=
  match prevEnd with
  | some e => e + 1
  | none => 0

/-- The rising crossings around the search center, else around the nominal start. -/
def riseCands (rising : List Int) (prevEnd : Option Int) (k : Nat) : List Int :=
  let center := g.searchCenter prevEnd k
  let cands := between rising (max (center - g.searchMargin) (searchFloor prevEnd)) (center + g.searchMargin)
  if cands.isEmpty then
    between rising (max (g.nominalStart k - g.searchMargin) (searchFloor prevEnd))
      (g.nominalStart k + g.searchMargin)
  else cands

/-- The corrected start of symbol `k`. -/
def rise (rising : List Int) (prevEnd : Option Int) (k : Nat) : Int :=
  let s := nearestXing (g.riseCands rising prevEnd k) (g.searchCenter prevEnd k)
  match prevEnd with
  | some e => max s (e + 1)
  | none => s

/-- The corrected end of a symbol that starts at `s`. -/
def fall (falling : List Int) (s : Int) : Int :=
  let nomE := s + g.symLen
  max (nearestXing (between falling (max 0 (nomE - g.fallMargin)) (min g.n (nomE + g.fallMargin))) nomE) (s + 1)

/-- Symbol `k` behind one that ended at `prevEnd`, or `none` when it is not wholly in view. -/
def nextEdge (c : Crossings) (prevEnd : Option Int) (k : Nat) : Option (Int × Int) :=
  if g.nominalStart k < 0 ∨ g.n < g.nominalStart k + g.symLen then none
  else
    let rise := g.rise c.rising prevEnd k
    let fall := g.fall c.falling rise
    let s := max 0 (min rise (g.n - 1))
    some (s, max (s + 1) (min fall g.n))

/-- The loop over the symbols. -/
def edgesFrom (c : Crossings) : Option Int → List Nat → List (Int × Int)
  | _, [] => []
  | prevEnd, k :: ks =>
    match g.nextEdge c prevEnd k with
    | none => edgesFrom c prevEnd ks
    | some edge => edge :: edgesFrom c (some edge.2) ks

end Grid

/-- The corrected edges of the packet's symbols, relative to the segment. -/
def correctSymbolEdges (smoothed : Nat → List Sample → List ℚ) (iqSeg : List Sample)
    (startSample viewStart : Int) (nSym : Nat) (symOffset slot symLen : Int) : Option (List (Int × Int)) :=
  (buildCrossings smoothed iqSeg).map fun c =>
    Grid.edgesFrom ⟨iqSeg.length, startSample, viewStart, symOffset, slot, symLen⟩ c none (List.range nSym)

/-- The tracker fails only with `filtfilt`. -/
theorem correctSymbolEdges_isSome {smoothed : Nat → List Sample → List ℚ} {iqSeg : List Sample}
    {startSample viewStart : Int} {nSym : Nat} {symOffset slot symLen : Int} :
    (correctSymbolEdges smoothed iqSeg startSample viewStart nSym symOffset slot symLen).isSome ↔
      padLen smoothingWindow < iqSeg.length := by
  unfold correctSymbolEdges buildCrossings
  rw [Option.isSome_map]
  split
  · rename_i short
    simp only [Option.isSome_none, Bool.false_eq_true, false_iff, not_lt]
    exact short
  · rename_i long
    simp only [Option.isSome_some, true_iff]
    exact not_le.1 long

end StreamWeb.Timing

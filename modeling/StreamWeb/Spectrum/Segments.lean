import StreamWeb.Config
import StreamWeb.Lib.Runs
import StreamWeb.Np

/-!
# Segments of the envelope

Without a start sample the time-domain plot takes the symbols from the envelope
of the segment: the runs above the threshold, less the glitches, with what is
left merged across short gaps. A group is a maximal sequence of runs that are
less than the shortest gap apart.

The glitches go first, so a short piece of a split symbol is dropped before it
could be merged. `segments_merged_iff` is what that costs: a symbol keeps its
extent if and only if its first and its last piece are not glitches, and those
in between leave no gap.
-/

namespace StreamWeb.Spectrum

open Config Runs

/-! ## The segmentation -/

def minSym : Nat := (Py.int (2 / 1000 * sampleRate)).toNat
def minGap : Int := Py.int (1 / 10000 * sampleRate)

theorem minSym_eq : minSym = 1562 := by
  norm_num [minSym, Py.int, sampleRate]
  rfl

theorem minGap_eq : minGap = 78 := by
  norm_num [minGap, Py.int, sampleRate]

/-- `np.diff(padded.astype(np.int8))`. -/
def stepsOf (above : List Bool) : List Int :=
  let padded := [false] ++ above ++ [false]
  Np.diff (padded.map fun b => if b then 1 else 0)

def startsOf (above : List Bool) : List Nat := Np.indices ((stepsOf above).map (· == 1))
def endsOf (above : List Bool) : List Nat := Np.indices ((stepsOf above).map (· == -1))

/-- `starts[mask], ends[mask]`. -/
def dropGlitches (starts ends : List Nat) : List (Nat × Nat) :=
  (starts.zip ends).filter fun (s, e) => (e : Int) - s ≥ minSym

/-- One turn of the loop that merges, on `m_starts` and `m_ends`. -/
def mergeSegment (m : List Nat × List Nat) (segment : Nat × Nat) : List Nat × List Nat :=
  let (mStarts, mEnds) := m
  let (s, e) := segment
  match mEnds.getLast? with
  | some lastEnd =>
    if (s : Int) - lastEnd < minGap then (mStarts, mEnds.dropLast ++ [e])
    else (mStarts ++ [s], mEnds ++ [e])
  | none => (mStarts ++ [s], mEnds ++ [e])

/-- The fallback edge detection of `render_td_plot`, from the threshold on. -/
def fallbackSegments (above : List Bool) : List Nat × List Nat :=
  (dropGlitches (startsOf above) (endsOf above)).foldl mergeSegment ([], [])

/-! ## Its purpose -/

/-- The extents of the groups that are as long as a symbol. -/
def symbolsOf (above : List Bool) : List (Nat × Nat) :=
  ((groups minGap (ofBools above)).map extent).filter (long minSym)

/-! ## The steps are the ends of the runs -/

/-- The steps from a value on. -/
def stepsFrom (b : Bool) (bs : List Bool) : List Int :=
  Np.diff ((b :: (bs ++ [false])).map fun b => if b then 1 else 0)

def indicesFrom (i : Nat) (v : Int) (steps : List Int) : List Nat :=
  (Np.indices (steps.map (· == v))).map (i + ·)

@[simp] theorem indicesFrom_nil (i : Nat) (v : Int) : indicesFrom i v [] = [] := rfl

@[simp] theorem indicesFrom_cons (i : Nat) (v step : Int) (steps : List Int) :
    indicesFrom i v (step :: steps) =
      (if step = v then [i] else []) ++ indicesFrom (i + 1) v steps := by
  have shift : ((i + ·) ∘ fun k => k + 1 : Nat → Nat) = (i + 1 + ·) := by
    funext k
    simp only [Function.comp_apply]
    omega
  rw [indicesFrom, List.map_cons, Np.indices_cons, List.map_append, List.map_map, shift, indicesFrom]
  by_cases hit : step = v
  · simp [hit]
  · simp [hit]

/-- From a position on, the steps are the ends of the runs that are listed. -/
theorem indicesFrom_steps (bs : List Bool) :
    ∀ i, (indicesFrom i 1 (stepsFrom false bs) = (scan i none bs).map Prod.fst ∧
        indicesFrom i (-1) (stepsFrom false bs) = (scan i none bs).map Prod.snd) ∧
      ∀ s, s :: indicesFrom i 1 (stepsFrom true bs) = (scan i (some s) bs).map Prod.fst ∧
        indicesFrom i (-1) (stepsFrom true bs) = (scan i (some s) bs).map Prod.snd := by
  induction bs with
  | nil =>
    intro i
    refine ⟨⟨rfl, rfl⟩, ?_⟩
    intro s
    simp [stepsFrom, scan]
  | cons b bs ih =>
    intro i
    obtain ⟨free, opened⟩ := ih (i + 1)
    have next : ∀ a, stepsFrom a (b :: bs) =
        ((if b then 1 else 0) - if a then 1 else 0) :: stepsFrom b bs := fun _ => rfl
    cases b with
    | false =>
      constructor
      · simpa [next, scan] using free
      · intro s
        simpa [next, scan] using free
    | true =>
      constructor
      · simpa [next, scan] using opened i
      · intro s
        simpa [next, scan] using opened s

theorem indices_steps (above : List Bool) (v : Int) :
    Np.indices ((stepsOf above).map (· == v)) = indicesFrom 0 v (stepsFrom false above) := by
  simp [indicesFrom, stepsFrom, stepsOf]

theorem startsOf_eq (above : List Bool) : startsOf above = (ofBools above).map Prod.fst :=
  (indices_steps above 1).trans (indicesFrom_steps above 0).1.1

theorem endsOf_eq (above : List Bool) : endsOf above = (ofBools above).map Prod.snd :=
  (indices_steps above (-1)).trans (indicesFrom_steps above 0).1.2

theorem zip_starts_ends (above : List Bool) : (startsOf above).zip (endsOf above) = ofBools above :=
  (List.zip_of_prod (startsOf_eq above).symm (endsOf_eq above).symm).symm

/-- **The steps delimit the maximal runs** above the threshold. -/
theorem mem_starts_ends (above : List Bool) (p : Nat × Nat) :
    p ∈ (startsOf above).zip (endsOf above) ↔ IsRun (fun i => above[i]? = some true) p := by
  rw [zip_starts_ends]
  exact mem_ofBools above p

/-! ## The loop merges the groups -/

/-- **The loop** lists the extents of the groups it has met. -/
theorem foldl_mergeSegment (l : List (Nat × Nat)) :
    l.foldl mergeSegment ([], []) = ((groups minGap l).map extent).unzip := by
  rw [List.unzip_eq_map]
  induction l using List.reverseRecOn with
  | nil => rfl
  | append_singleton l p ih =>
    rw [List.foldl_append, ih, List.foldl_cons, List.foldl_nil]
    rcases List.eq_nil_or_concat l with rfl | ⟨l, e, rfl⟩
    · rfl
    · rw [List.concat_eq_append]
      obtain ⟨front, g, now⟩ := groups_concat minGap l e
      have last_end : (((front ++ [g ++ [e]]).map extent).map Prod.snd).getLast? = some e.2 := by
        simp
      by_cases close : near minGap e p
      · have less : (p.1 : Int) - e.2 < minGap := of_decide_eq_true close
        rw [groups_concat_near now close, now, mergeSegment, last_end]
        simp [less, -List.append_assoc]
      · have apart : ¬(p.1 : Int) - e.2 < minGap := fun less => close (decide_eq_true less)
        rw [groups_concat_far (l := l ++ [e]) (by simpa using close), now, mergeSegment, last_end]
        simp [apart]

/-- The segments are the groups of the runs that are not glitches. -/
theorem fallbackSegments_eq (above : List Bool) :
    fallbackSegments above =
      ((groups minGap ((ofBools above).filter (long minSym))).map extent).unzip := by
  rw [fallbackSegments, dropGlitches, zip_starts_ends]
  exact foldl_mergeSegment _

theorem unzip_inj {α β : Type*} {l l' : List (α × β)} : l.unzip = l'.unzip ↔ l = l' := by
  constructor
  · intro same
    rw [← List.zip_unzip l, same, List.zip_unzip]
  · exact congrArg _

/-- **Every symbol is reported with its full extent** if and only if, in each group as long as a
symbol, the first and the last piece are no glitches and those that are none lie less than the gap
apart: for every sequence of samples above the threshold. -/
theorem segments_merged_iff (above : List Bool) :
    fallbackSegments above = (symbolsOf above).unzip ↔
      ∀ g ∈ groups minGap (ofBools above), long minSym (extent g) → Kept minGap minSym g := by
  rw [← map_extent_groups_filter_iff (intervals_ofBools above), fallbackSegments_eq, unzip_inj]
  rfl

/-! ## A symbol that is cut short -/

/-- A symbol of 6250 samples with a dip of 50. -/
def dipped : List Bool :=
  List.replicate 1500 true ++ (List.replicate 50 false ++ List.replicate 4700 true)

theorem ofBools_dipped : ofBools dipped = [(0, 1500), (1550, 6250)] := by
  rw [ofBools, dipped, ← List.append_nil (List.replicate 4700 true),
    List.replicate_succ (n := 1499), List.cons_append, scan, scan_replicate_true,
    List.replicate_succ (n := 49), List.cons_append, scan, scan_replicate_false,
    List.replicate_succ (n := 4699), List.cons_append, scan, scan_replicate_true, scan]

/-- Its first piece is a glitch, and the symbol is reported from the second one on. -/
theorem segments_cut_short :
    fallbackSegments dipped = ([1550], [6250]) ∧ symbolsOf dipped = [(0, 6250)] ∧
      ¬fallbackSegments dipped = (symbolsOf dipped).unzip := by
  have cut : fallbackSegments dipped = ([1550], [6250]) := by
    rw [fallbackSegments_eq, ofBools_dipped, minSym_eq, minGap_eq]
    decide
  have whole : symbolsOf dipped = [(0, 6250)] := by
    rw [symbolsOf, ofBools_dipped, minSym_eq, minGap_eq]
    decide
  refine ⟨cut, whole, ?_⟩
  rw [cut, whole]
  decide

end StreamWeb.Spectrum

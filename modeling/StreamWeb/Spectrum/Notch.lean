import Mathlib.Algebra.Module.Basic
import StreamWeb.Spectrum.Fcc

/-!
# The notch at the centre frequency

`_interpolate_dc` draws a line over the bins around the centre, in the array
itself, from the bin below them to the bin above. The rows of a spectrogram
and the bins of a trace are both vectors here. `notch_hides_leakage` is what
the compliance check relies on: nothing inside of the notch is seen.
-/

namespace StreamWeb.Spectrum

variable {M : Type} [AddCommGroup M] [Module ℚ M]

/-- `(1.0 - w) * below + w * above` of the `k`-th bin of the notch, from one on. -/
def blend (spec : List M) (lo hi : Int) (k : Nat) : M :=
  let below := spec.getD (lo - 1).toNat 0
  let above := spec.getD (hi + 1).toNat 0
  let steps := (hi + 1) - (lo - 1)
  let w : ℚ := k / steps
  (1 - w) • below + w • above

/-- One assignment of the loop. The bins it reads are views of the array. -/
def blendBin (lo hi : Int) (spec : List M) (k : Nat) : List M :=
  spec.set (lo + k - 1).toNat (blend spec lo hi k)

def interpolateDc (spec : List M) (halfBins : Int) : List M :=
  if halfBins ≤ 0 ∨ spec.length < 3 then spec
  else
    let n : Int := spec.length
    let dc := n / 2
    let lo := dc - halfBins
    let hi := dc + halfBins
    if lo - 1 < 0 ∨ n ≤ hi + 1 then spec
    else (List.range' 1 (hi + 1 - lo).toNat).foldl (blendBin lo hi) spec

/-! ## The loop -/

section Loop

variable {lo hi : Int} {spec : List M}

theorem blend_congr {spec' : List M} (below : spec[(lo - 1).toNat]? = spec'[(lo - 1).toNat]?)
    (above : spec[(hi + 1).toNat]? = spec'[(hi + 1).toNat]?) (k : Nat) :
    blend spec lo hi k = blend spec' lo hi k := by
  unfold blend
  rw [List.getD_eq_getElem?_getD, List.getD_eq_getElem?_getD, List.getD_eq_getElem?_getD,
    List.getD_eq_getElem?_getD, below, above]

theorem length_blendBins (lo hi : Int) (spec : List M) (ks : List Nat) :
    (ks.foldl (blendBin lo hi) spec).length = spec.length := by
  induction ks generalizing spec with
  | nil => rfl
  | cons k ks ih => rw [List.foldl_cons, ih, blendBin, List.length_set]

/-- Behind `count` assignments the first `count` bins of the notch are blended, from the two bins
that no assignment reaches. -/
theorem blendBins_getElem? (low : 1 ≤ lo) {count : Nat} (room : lo + count ≤ hi + 1)
    (fits : hi + 1 < spec.length) (i : Nat) :
    ((List.range' 1 count).foldl (blendBin lo hi) spec)[i]? =
      if lo ≤ i ∧ i < lo + count then some (blend spec lo hi (i + 1 - lo).toNat) else spec[i]? := by
  induction count generalizing i with
  | zero => simp
  | succ count ih =>
    have earlier := ih (by omega)
    have length := length_blendBins lo hi spec (List.range' 1 count)
    rw [List.range'_concat, List.foldl_append, List.foldl_cons, List.foldl_nil]
    generalize (List.range' 1 count).foldl (blendBin lo hi) spec = written at earlier length
    have below : written[(lo - 1).toNat]? = spec[(lo - 1).toNat]? := by
      rw [earlier, if_neg (by omega)]
    have above : written[(hi + 1).toNat]? = spec[(hi + 1).toNat]? := by
      rw [earlier, if_neg (by omega)]
    rw [blendBin, blend_congr below above, List.getElem?_set, length, earlier]
    by_cases here : (i : Int) = lo + count
    · have index : (lo + ↑(1 + 1 * count) - 1).toNat = i := by omega
      have bin : (i + 1 - lo).toNat = 1 + 1 * count := by omega
      rw [if_pos index, if_pos (by omega), if_pos (by omega), bin]
    · have index : (lo + ↑(1 + 1 * count) - 1).toNat ≠ i := by omega
      rw [if_neg index]
      by_cases before : lo ≤ i ∧ i < lo + count
      · rw [if_pos before, if_pos (by omega)]
      · rw [if_neg before, if_neg (by omega)]

end Loop

/-! ## The notch -/

/-- The bins that are drawn over. -/
def InNotch (bins : Nat) (halfBins : Int) (i : Nat) : Prop :=
  (bins : Int) / 2 - halfBins ≤ i ∧ (i : Int) ≤ bins / 2 + halfBins

instance (bins : Nat) (halfBins : Int) (i : Nat) : Decidable (InNotch bins halfBins i) :=
  inferInstanceAs (Decidable (_ ∧ _))

/-- The notch is not empty, and it has a bin on each side. -/
structure NotchFits (bins : Nat) (halfBins : Int) : Prop where
  positive : 1 ≤ halfBins
  below : 0 ≤ (bins : Int) / 2 - halfBins - 1
  above : (bins : Int) / 2 + halfBins + 1 < bins

section Notch

variable {spec spec' : List M} {halfBins : Int}

@[simp] theorem length_interpolateDc : (interpolateDc spec halfBins).length = spec.length := by
  unfold interpolateDc
  split
  · rfl
  dsimp only
  split
  · rfl
  · exact length_blendBins _ _ _ _

theorem interpolateDc_getElem? (fits : NotchFits spec.length halfBins) (i : Nat) :
    (interpolateDc spec halfBins)[i]? =
      if InNotch spec.length halfBins i then
        some (blend spec (spec.length / 2 - halfBins) (spec.length / 2 + halfBins)
          (i + 1 - (spec.length / 2 - halfBins)).toNat)
      else spec[i]? := by
  obtain ⟨positive, below, above⟩ := fits
  have long : ¬(halfBins ≤ 0 ∨ spec.length < 3) := by omega
  unfold interpolateDc
  rw [if_neg long]
  dsimp only
  rw [if_neg (by omega), blendBins_getElem? (by omega) (by omega) (by omega)]
  apply if_congr _ rfl rfl
  unfold InNotch
  omega

/-- No other bin changes. -/
theorem interpolateDc_frame (fits : NotchFits spec.length halfBins) {i : Nat}
    (outside : ¬InNotch spec.length halfBins i) : (interpolateDc spec halfBins)[i]? = spec[i]? := by
  rw [interpolateDc_getElem? fits]
  exact if_neg outside

/-- What was inside of the notch is lost. -/
theorem interpolateDc_congr (fits : NotchFits spec.length halfBins)
    (length : spec'.length = spec.length)
    (same : ∀ i, ¬InNotch spec.length halfBins i → spec[i]? = spec'[i]?) :
    interpolateDc spec halfBins = interpolateDc spec' halfBins := by
  have fits' : NotchFits spec'.length halfBins := length ▸ fits
  have below := same (spec.length / 2 - halfBins - 1).toNat (by
    have := fits.below
    unfold InNotch
    omega)
  have above := same (spec.length / 2 + halfBins + 1).toNat (by
    have := fits.below
    have := fits.positive
    unfold InNotch
    omega)
  apply List.ext_getElem?
  intro i
  rw [interpolateDc_getElem? fits, interpolateDc_getElem? fits', length]
  split
  · rw [blend_congr below above]
  · rename_i outside
    exact same i outside

theorem interpolateDc_idem (fits : NotchFits spec.length halfBins) :
    interpolateDc (interpolateDc spec halfBins) halfBins = interpolateDc spec halfBins := by
  symm
  apply interpolateDc_congr fits length_interpolateDc
  intro i outside
  exact (interpolateDc_frame fits outside).symm

end Notch

/-! ## The carrier -/

section Carrier

variable {avgDB : List ℚ} {halfBins : Int}

/-- A value between its neighbours is not above both, nor the first of their maximum. -/
theorem blend_not_peak {below above w : ℚ} (pos : 0 < w) (lt : w < 1)
    (first : below < (1 - w) * below + w * above) : (1 - w) * below + w * above < above := by
  have rising : 0 < w * (above - below) := by linarith
  have ordered : 0 < above - below := pos_of_mul_pos_right rising pos.le
  have left : 0 < (1 - w) * (above - below) := mul_pos (by linarith) ordered
  linarith

/-- The first maximum of the trace is not in the notch. -/
theorem argmax_not_inNotch (fits : NotchFits avgDB.length halfBins) {p : Nat}
    (largest : Np.argmax (interpolateDc avgDB halfBins) = some p) : ¬InNotch avgDB.length halfBins p := by
  intro inside
  have value := interpolateDc_getElem? fits p
  rw [if_pos inside] at value
  have positive := fits.positive
  have low := fits.below
  have high := fits.above
  generalize centre : (avgDB.length : Int) / 2 = dc at *
  unfold InNotch at inside
  rw [centre] at inside
  have anchor : ∀ i : Nat, ¬((dc - halfBins ≤ i ∧ (i : Int) ≤ dc + halfBins)) →
      (interpolateDc avgDB halfBins).getD i 0 = avgDB.getD i 0 := by
    intro i outside
    rw [List.getD_eq_getElem?_getD, List.getD_eq_getElem?_getD, interpolateDc_frame fits]
    unfold InNotch
    rwa [centre]
  have steps : (0 : ℚ) < ((dc + halfBins + 1 - (dc - halfBins - 1) : Int) : ℚ) := by
    exact_mod_cast (by omega : 0 < dc + halfBins + 1 - (dc - halfBins - 1))
  have weight : (0 : ℚ) < ((p + 1 - (dc - halfBins)).toNat : ℚ) := by
    exact_mod_cast (by omega : 0 < ((p : Int) + 1 - (dc - halfBins)).toNat)
  have whole : ((p + 1 - (dc - halfBins)).toNat : ℚ)
      < ((dc + halfBins + 1 - (dc - halfBins - 1) : Int) : ℚ) := by
    exact_mod_cast (by omega : (((p : Int) + 1 - (dc - halfBins)).toNat : Int)
      < dc + halfBins + 1 - (dc - halfBins - 1))
  have first := Np.lt_argmax largest (i := (dc - halfBins - 1).toNat) (by omega)
  have most := Np.le_argmax largest (i := (dc + halfBins + 1).toNat) (by
    rw [length_interpolateDc]
    omega)
  have peak : (interpolateDc avgDB halfBins).getD p 0 =
      blend avgDB (dc - halfBins) (dc + halfBins) (p + 1 - (dc - halfBins)).toNat := by
    rw [List.getD_eq_getElem?_getD, value, Option.getD_some]
  rw [anchor _ (by omega), peak] at first most
  exact absurd (blend_not_peak (div_pos weight steps) ((div_lt_one steps).2 whole) first) (not_lt.2 most)

/-- **The notch hides the leakage.** Where it fits, drawing over it changes no other bin, a second
time changes nothing, the check takes no bin inside of it for the carrier, and the result is the same
for all traces that differ inside of it only. -/
theorem notch_hides_leakage (fits : NotchFits avgDB.length halfBins) :
    (∀ i, ¬InNotch avgDB.length halfBins i → (interpolateDc avgDB halfBins)[i]? = avgDB[i]?) ∧
      interpolateDc (interpolateDc avgDB halfBins) halfBins = interpolateDc avgDB halfBins ∧
      (∀ t : Trace, t.avgDB = interpolateDc avgDB halfBins →
        ¬InNotch avgDB.length halfBins t.peakIdx ∧
          ∀ select binHz r, evaluateFccCompliance select t binHz = .ok (some r) →
            r.carrierIdx = t.peakIdx) ∧
      ∀ avgDB', avgDB'.length = avgDB.length →
        (∀ i, ¬InNotch avgDB.length halfBins i → avgDB[i]? = avgDB'[i]?) →
        interpolateDc avgDB halfBins = interpolateDc avgDB' halfBins := by
  refine ⟨fun i outside => interpolateDc_frame fits outside, interpolateDc_idem fits, ?_, ?_⟩
  · intro t shown
    constructor
    · cases largest : Np.argmax t.avgDB with
      | none =>
        have empty := List.argmax_eq_none.1 largest
        rw [List.range_eq_nil, shown, length_interpolateDc] at empty
        have := fits.positive
        have := fits.above
        omega
      | some p =>
        rw [Trace.peakIdx, largest, Option.getD_some]
        exact argmax_not_inNotch fits (shown ▸ largest)
    · intro select binHz r detected
      rw [evaluateFccCompliance_some detected]
      rfl
  · intro avgDB' length same
    exact interpolateDc_congr fits length same

/-- A notch of three bins between two equal ones: the lower of them is the carrier. -/
theorem notch_hides_leakage_tie : ¬InNotch 5 1
    (Trace.peakIdx ⟨interpolateDc [3, 0, 9, 0, 3] 1, [0, 0, 0, 0, 0], by rw [length_interpolateDc]; rfl⟩) := by
  have fits : NotchFits ([3, 0, 9, 0, 3] : List ℚ).length 1 := ⟨by decide, by decide, by decide⟩
  exact ((notch_hides_leakage fits).2.2.1 _ rfl).1

end Carrier

end StreamWeb.Spectrum

import Mathlib.Tactic.NormNum
import StreamWeb.Data
import StreamWeb.Lib.PeakHold
import StreamWeb.Py.Rounding

/-!
# The level meter

`_BufferSink.work` publishes the peak of the samples it is called with, as a
fraction of the converter's full scale, or what it held before, which decays by
a thousandth with every call. `peak_meter` says what the dashboard shows behind
any sequence of calls.
-/

namespace StreamWeb

/-- `_running_peak` of the sink and the shared `rx_peak_frac`. -/
structure PeakMeter where
  runningPeak : ℚ := 0
  rxPeakFrac : ℚ := 0

namespace PeakMeter

/-- The two components of a sample. -/
def components (s : Sample) : List ℚ := [|s.re|, |s.im|]

/-- `max(np.max(np.abs(samples.real)), np.max(np.abs(samples.imag)))`. -/
def peak (samples : List Sample) : Option ℚ := do
  let re ← (samples.map fun s => |s.re|).max?
  let im ← (samples.map fun s => |s.im|).max?
  return max re im

/-- What `work` does with the meter; `np.max` raises when there are no samples. -/
def work (fullScale : ℚ) (m : PeakMeter) (samples : List Sample) : Option PeakMeter := do
  let peak ← peak samples
  let scaled := peak / fullScale
  let runningPeak := if m.runningPeak < scaled then scaled else m.runningPeak
  return { rxPeakFrac := runningPeak, runningPeak := runningPeak * (999 / 1000) }

def run (fullScale : ℚ) (calls : List (List Sample)) : Option PeakMeter := calls.foldlM (work fullScale) {}

/-- `rx_peak_pct` of the statistics. -/
def rxPeakPct (m : PeakMeter) : ℚ := Py.roundTo 1 (m.rxPeakFrac * 100)

/-- The peak is the largest component. -/
theorem peak_eq {samples : List Sample} (some_sample : samples ≠ []) :
    ∃ top, peak samples = some top ∧ IsGreatest {c | ∃ s ∈ samples, c ∈ components s} top := by
  have largest : ∀ f : Sample → ℚ, ∃ top, (samples.map f).max? = some top ∧
      (∃ s ∈ samples, f s = top) ∧ ∀ s ∈ samples, f s ≤ top := by
    intro f
    obtain ⟨top, isTop⟩ := Option.isSome_iff_exists.1
      (List.isSome_max?_of_ne_nil (List.map_eq_nil_iff.not.2 some_sample : samples.map f ≠ []))
    refine ⟨top, isTop, List.mem_map.1 (List.max?_mem isTop), ?_⟩
    intro s mem
    exact (List.max?_eq_some_iff.1 isTop).2 _ (List.mem_map_of_mem mem)
  obtain ⟨re, isRe, ⟨s, s_mem, at_re⟩, above_re⟩ := largest fun s => |s.re|
  obtain ⟨im, isIm, ⟨t, t_mem, at_im⟩, above_im⟩ := largest fun s => |s.im|
  refine ⟨max re im, by rw [peak, isRe, isIm]; rfl, ?_, ?_⟩
  · rcases max_choice re im with left | right
    · rw [left]
      exact ⟨s, s_mem, by simp [components, at_re]⟩
    · rw [right]
      exact ⟨t, t_mem, by simp [components, at_im]⟩
  · rintro c ⟨u, u_mem, component⟩
    rcases List.mem_pair.1 component with rfl | rfl
    · exact le_max_of_le_left (above_re u u_mem)
    · exact le_max_of_le_right (above_im u u_mem)

/-- What a call with samples brings. -/
def fraction (fullScale : ℚ) (call : List Sample) : ℚ := (peak call).getD 0 / fullScale

/-- The loop is a peak hold over the fractions. -/
theorem run_shown (fullScale : ℚ) {calls : List (List Sample)} (filled : ∀ call ∈ calls, call ≠ []) :
    ∃ m, run fullScale calls = some m ∧
      m.rxPeakFrac = PeakHold.shown (999 / 1000) (calls.map (fraction fullScale)) ∧
      m.runningPeak = m.rxPeakFrac * (999 / 1000) := by
  induction calls using List.reverseRecOn with
  | nil => exact ⟨{}, rfl, rfl, by norm_num⟩
  | append_singleton calls call ih =>
    obtain ⟨m, ran, shown, held⟩ := ih fun c mem => filled c (List.mem_append_left _ mem)
    obtain ⟨top, isTop, -⟩ := peak_eq (filled call (by simp))
    have larger : (if m.runningPeak < top / fullScale then top / fullScale else m.runningPeak)
        = PeakHold.shown (999 / 1000) ((calls ++ [call]).map (fraction fullScale)) := by
      rw [List.map_append, List.map_singleton, PeakHold.shown_snoc, ← shown, ← held, max_def_lt, fraction,
        isTop, Option.getD_some]
    let next := if m.runningPeak < top / fullScale then top / fullScale else m.runningPeak
    refine ⟨⟨next * (999 / 1000), next⟩, ?_, larger, rfl⟩
    unfold run at ran ⊢
    rw [List.foldlM_append, ran]
    simp only [List.foldlM_cons, List.foldlM_nil, work, isTop, bind_pure, Option.bind_eq_bind, Option.bind_some]
    rfl

/-- A call's fraction is that of its largest component. -/
theorem fraction_isGreatest {fullScale : ℚ} (scale : 0 < fullScale) {call : List Sample} (filled : call ≠ []) :
    IsGreatest {v | ∃ s ∈ call, ∃ c ∈ components s, v = c / fullScale} (fraction fullScale call) := by
  obtain ⟨top, isTop, ⟨s, mem, component⟩, above⟩ := peak_eq filled
  rw [fraction, isTop, Option.getD_some]
  refine ⟨⟨s, mem, top, component, rfl⟩, ?_⟩
  rintro v ⟨t, mem, c, component, rfl⟩
  exact div_le_div_of_nonneg_right (above ⟨t, mem, component⟩) scale.le

theorem fraction_nonneg {fullScale : ℚ} (scale : 0 < fullScale) {call : List Sample} (filled : call ≠ []) :
    0 ≤ fraction fullScale call := by
  obtain ⟨⟨s, -, c, component, same⟩, -⟩ := fraction_isGreatest scale filled
  rw [same]
  apply div_nonneg _ scale.le
  rcases List.mem_pair.1 component with rfl | rfl <;> exact abs_nonneg _

end PeakMeter

open PeakMeter in
/-- **The level shown.** For every sequence of calls with samples: the published fraction is the greatest
of all components of all samples, over full scale and decayed by a thousandth for each call since, and the
percentage is within a twentieth of it. -/
theorem peak_meter (fullScale : ℚ) (calls : List (List Sample)) (scale : 0 < fullScale)
    (some_call : calls ≠ []) (filled : ∀ call ∈ calls, call ≠ []) :
    ∃ m, run fullScale calls = some m ∧
      IsGreatest {v | ∃ k call, calls[k]? = some call ∧ ∃ s ∈ call, ∃ c ∈ components s,
        v = c / fullScale * (999 / 1000) ^ (calls.length - 1 - k)} m.rxPeakFrac ∧
      |rxPeakPct m - m.rxPeakFrac * 100| ≤ 1 / 20 := by
  obtain ⟨m, ran, shown, -⟩ := run_shown fullScale filled
  have nonneg : ∀ x ∈ calls.map (fraction fullScale), 0 ≤ x := by
    intro x mem
    obtain ⟨call, inside, rfl⟩ := List.mem_map.1 mem
    exact fraction_nonneg scale (filled call inside)
  obtain ⟨⟨k, x, here, same⟩, above⟩ := PeakHold.isGreatest_shown (by norm_num : (0 : ℚ) ≤ 999 / 1000) nonneg
    (List.map_eq_nil_iff.not.2 some_call)
  rw [List.length_map] at same
  rw [List.getElem?_map, Option.map_eq_some_iff] at here
  obtain ⟨call, here, rfl⟩ := here
  refine ⟨m, ran, ⟨?_, ?_⟩, ?_⟩
  · obtain ⟨⟨s, mem, c, component, largest⟩, -⟩ := fraction_isGreatest scale
      (filled call (List.mem_of_getElem? here))
    exact ⟨k, call, here, s, mem, c, component, by rw [shown, same, largest]⟩
  · rintro v ⟨j, call', here', s, mem, c, component, rfl⟩
    have below := (fraction_isGreatest scale (filled call' (List.mem_of_getElem? here'))).2
      ⟨s, mem, c, component, rfl⟩
    rw [shown]
    refine le_trans (mul_le_mul_of_nonneg_right below (by positivity)) (above ⟨j, fraction fullScale call', ?_, ?_⟩)
    · rw [List.getElem?_map, here']
      rfl
    · rw [List.length_map]
  · have rounded := Py.abs_roundTo_sub 1 (m.rxPeakFrac * 100)
    norm_num at rounded ⊢
    exact rounded

/-- A spike, and two calls later. -/
theorem peak_meter_spike : ∃ m, PeakMeter.run 2048 [[⟨1024, 0⟩, ⟨0, 0⟩], [⟨0, 2⟩], [⟨1, -1⟩]] = some m ∧
    1 / 2 * (999 / 1000) ^ 2 ≤ m.rxPeakFrac := by
  obtain ⟨m, ran, greatest, -⟩ := peak_meter 2048 [[⟨1024, 0⟩, ⟨0, 0⟩], [⟨0, 2⟩], [⟨1, -1⟩]] (by norm_num)
    (by simp) (by simp)
  refine ⟨m, ran, greatest.2 ⟨0, _, rfl, ⟨1024, 0⟩, by simp, |1024|, by simp [PeakMeter.components], ?_⟩⟩
  norm_num

end StreamWeb

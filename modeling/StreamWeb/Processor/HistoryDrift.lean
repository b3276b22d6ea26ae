import StreamWeb.Processor.DetectionHistory
import StreamWeb.Py.Double

/-!
# The detection history in floats

`offset_from_right` is a float to which every cycle adds half a second. What the
additions lose stays far below a column of the picture: an entry is listed for
twenty cycles, and each of them loses `drift` at most.
-/

namespace StreamWeb.Processor

open Config Py

/-- More than what an operation on seconds of the picture loses. -/
def drift : ℚ := 1 / 2 ^ 49

/-- The entry after further cycles, in floats. -/
def HistoryEntry.shifted (e : HistoryEntry) : ℕ → HistoryEntry
  | 0 => e
  | k + 1 => (e.shifted k).shiftedWith double

/-! ## One addition -/

theorem abs_double_sub_le_drift {x : ℚ} (low : -16 ≤ x) (high : x ≤ 16) : |double x - x| ≤ drift := by
  apply abs_double_sub_le_of_le
  rw [drift, abs_le]
  constructor <;> linarith

section Entry

variable {e : HistoryEntry}

/-- A shift adds half a second, but for the drift. -/
theorem abs_shift_sub_le (right : 0 ≤ e.offsetFromRight) (left : e.offsetFromRight ≤ specDurationS) :
    |(e.shiftedWith double).offsetFromRight - (e.offsetFromRight + 1 / 2)| ≤ drift := by
  unfold specDurationS at left
  apply abs_double_sub_le_drift <;> unfold specChunkS <;> linarith

/-- What is still in the picture was in it before. -/
theorem offset_le_of_shift_le (narrow : (e.shiftedWith double).offsetFromRight ≤ specDurationS) :
    e.offsetFromRight ≤ specDurationS := by
  by_contra wide
  rw [not_le] at wide
  have least : double ((21 : ℤ) * 2 ^ (-1 : ℤ)) ≤ (e.shiftedWith double).offsetFromRight := by
    apply double_mono
    unfold specDurationS at wide
    norm_num [specChunkS]
    linarith
  rw [double_eq_self (by norm_num)] at least
  norm_num [specDurationS] at narrow least
  linarith

/-- **The drift of an entry** that is still listed: it grows by one a cycle, and there are few cycles. -/
theorem abs_shifted_sub_le (right : 0 ≤ e.offsetFromRight) {k : ℕ}
    (narrow : (e.shifted k).offsetFromRight ≤ specDurationS) :
    |(e.shifted k).offsetFromRight - (e.offsetFromRight + k / 2)| ≤ k * drift ∧
      e.offsetFromRight + 2 / 5 * k ≤ (e.shifted k).offsetFromRight := by
  induction k with
  | zero => norm_num [HistoryEntry.shifted]
  | succ k ih =>
    have before := offset_le_of_shift_le narrow
    obtain ⟨so_far, grown⟩ := ih before
    have nonneg : 0 ≤ (k : ℚ) := Nat.cast_nonneg k
    have step := abs_shift_sub_le (by linarith) before
    have small : drift ≤ 1 / 10 := by norm_num [drift]
    rw [HistoryEntry.shifted]
    push_cast
    rw [abs_le] at so_far step ⊢
    refine ⟨⟨?_, ?_⟩, ?_⟩ <;> linarith

/-- An entry is listed for some twenty cycles. -/
theorem age_le (right : 0 ≤ e.offsetFromRight) {k : ℕ}
    (narrow : (e.shifted k).offsetFromRight ≤ specDurationS) : k ≤ 25 := by
  have grown := (abs_shifted_sub_le right narrow).2
  unfold specDurationS at narrow
  have : (k : ℚ) ≤ (25 : ℕ) := by
    push_cast
    linarith
  exact Nat.cast_le.1 this

theorem freqHz_shifted (e : HistoryEntry) (k : ℕ) : (e.shifted k).freqHz = e.freqHz := by
  induction k with
  | zero => rfl
  | succ k ih => exact ih

end Entry

/-! ## Every run -/

/-- What the decoder says of a packet of its window: it starts inside, at a frequency of the band. -/
structure Heard (det : Detection) : Prop where
  inside : 0 ≤ det.timeS ∧ det.timeS + 1 / 10 ^ 6 ≤ decodeWindowS
  band : |det.f0| ≤ sampleRate / 2

/-- The entry belongs into the picture. -/
structure Placed (e : HistoryEntry) : Prop where
  right : 1 / 10 ^ 7 ≤ e.offsetFromRight
  left : e.offsetFromRight ≤ specDurationS
  band : |e.freqHz| ≤ sampleRate / 2

/-- Too far for one packet, but for what the operations lose: a distance loses twice the drift when it is
taken, and twice whenever both have been shifted. -/
def Apart (e e' : HistoryEntry) : Prop :=
  15 / 100 ≤ |e.offsetFromRight - e'.offsetFromRight| + drift * (2 + 5 * e'.offsetFromRight) ∨
    5000 ≤ |double (e.freqHz - e'.freqHz)|

theorem Heard.placed {det : Detection} (heard : Heard det) : Placed (det.entryWith double) := by
  obtain ⟨low, high⟩ := heard.inside
  unfold decodeWindowS at high
  have error : |(det.entryWith double).offsetFromRight - (3 / 2 - det.timeS)| ≤ drift := by
    apply abs_double_sub_le_drift <;> unfold decodeWindowS <;> linarith
  rw [abs_le] at error
  norm_num [drift] at error
  refine ⟨?_, ?_, heard.band⟩
  · linarith
  · unfold specDurationS
    linarith

theorem Placed.shift {e : HistoryEntry} (placed : Placed e)
    (narrow : (e.shiftedWith double).offsetFromRight ≤ specDurationS) : Placed (e.shiftedWith double) := by
  have right := placed.right
  have step := abs_shift_sub_le (by linarith) placed.left
  rw [abs_le] at step
  norm_num [drift] at step
  refine ⟨by linarith, narrow, placed.band⟩

theorem Apart.shift {e e' : HistoryEntry} (apart : Apart e e') (placed : Placed e) (placed' : Placed e') :
    Apart (e.shiftedWith double) (e'.shiftedWith double) := by
  rcases apart with far | band
  · left
    have right := placed.right
    have right' := placed'.right
    have step := abs_shift_sub_le (by linarith) placed.left
    have step' := abs_shift_sub_le (by linarith) placed'.left
    have kept : |e.offsetFromRight - e'.offsetFromRight| ≤
        |(e.shiftedWith double).offsetFromRight - (e'.shiftedWith double).offsetFromRight| + 2 * drift := by
      have split : e.offsetFromRight - e'.offsetFromRight =
          ((e.shiftedWith double).offsetFromRight - (e'.shiftedWith double).offsetFromRight)
            - ((e.shiftedWith double).offsetFromRight - (e.offsetFromRight + 1 / 2))
            + ((e'.shiftedWith double).offsetFromRight - (e'.offsetFromRight + 1 / 2)) := by
        ring
      rw [split]
      apply (abs_add_le _ _).trans
      have := abs_sub ((e.shiftedWith double).offsetFromRight - (e'.shiftedWith double).offsetFromRight)
        ((e.shiftedWith double).offsetFromRight - (e.offsetFromRight + 1 / 2))
      linarith
    rw [abs_le] at step'
    norm_num [drift] at step' kept far ⊢
    linarith
  · exact .inr band

/-- What is not a duplicate of any entry. -/
theorem apart_of_new {history : List HistoryEntry} (placed : ∀ e ∈ history, Placed e) {det : Detection}
    (heard : Heard det) (new : isDupWith double history det = false) :
    ∀ e ∈ history, Apart e (det.entryWith double) := by
  intro e listed
  have far := List.any_eq_false.1 new e listed
  rw [decide_eq_true_eq, not_and_or, not_lt, not_lt] at far
  refine far.imp_left fun far => ?_
  have right := (placed e listed).right
  have left := (placed e listed).left
  have right' := heard.placed.right
  have left' := heard.placed.left
  have width : |double (15 / 100) - 15 / 100| ≤ drift := by
    apply abs_double_sub_le_drift <;> norm_num
  unfold specDurationS at left left'
  have distance : |double (e.offsetFromRight - (det.entryWith double).offsetFromRight)
      - (e.offsetFromRight - (det.entryWith double).offsetFromRight)| ≤ drift := by
    apply abs_double_sub_le_drift <;> linarith
  have lost := (abs_sub_abs_le_abs_sub _ _).trans distance
  have threshold : double (15 / 100) ≤ |double (e.offsetFromRight - (det.entryWith double).offsetFromRight)| := far
  have slack : 0 ≤ drift * (5 * (det.entryWith double).offsetFromRight) := by
    apply mul_nonneg
    · norm_num [drift]
    · linarith
  have wide := (abs_le.1 width).1
  linarith

section Runs

variable {history : List HistoryEntry}

/-- What holds of the history in every cycle. -/
structure Listed (history : List HistoryEntry) : Prop where
  placed : ∀ e ∈ history, Placed e
  apart : history.Pairwise Apart

theorem Listed.ageHistory (h : Listed history) : Listed (ageHistoryWith double history) := by
  constructor
  · intro e mem
    obtain ⟨shifted, narrow⟩ := List.mem_filter.1 mem
    obtain ⟨e, listed, rfl⟩ := List.mem_map.1 shifted
    exact (h.placed e listed).shift (of_decide_eq_true narrow)
  · apply List.Pairwise.filter
    rw [List.pairwise_map]
    apply h.apart.imp_of_mem
    intro e e' mem mem' apart
    exact apart.shift (h.placed e mem) (h.placed e' mem')

theorem Listed.record (h : Listed history) {det : Detection} (heard : Heard det) :
    Listed (recordWith double history det) := by
  unfold recordWith
  split
  · exact h
  next new =>
    constructor
    · intro e mem
      rcases List.mem_append.1 mem with listed | added
      · exact h.placed e listed
      · rw [List.mem_singleton.1 added]
        exact heard.placed
    · apply List.pairwise_append.2
      refine ⟨h.apart, List.pairwise_singleton _ _, ?_⟩
      intro e listed e' mem
      rw [List.mem_singleton.1 mem]
      exact apart_of_new h.placed heard (Bool.eq_false_iff.2 new) e listed

theorem Listed.foldl_record {dets : List Detection} (heard : ∀ det ∈ dets, Heard det) (h : Listed history) :
    Listed (dets.foldl (recordWith double) history) := by
  induction dets generalizing history with
  | nil => exact h
  | cons det dets ih =>
    apply ih
    · exact fun det mem => heard det (List.mem_cons_of_mem _ mem)
    · exact h.record (heard det List.mem_cons_self)

/-- **Every run** of the cycles. -/
theorem listed_run {cycles : ℕ → SpecCycle} (heard : ∀ n, ∀ det ∈ (cycles n).detections, Heard det) (n : ℕ) :
    Listed (beforeWith double cycles n).detectionHistory := by
  induction n with
  | zero =>
    constructor
    · intro e mem
      cases mem
    · exact List.Pairwise.nil
  | succ n ih => exact ih.ageHistory.foldl_record (heard n)

/-- What is listed is listed in the next cycle, unless it leaves the picture. -/
theorem mem_shifted {cycles : ℕ → SpecCycle} {n : ℕ} {e : HistoryEntry}
    (listed : e ∈ (beforeWith double cycles n).detectionHistory)
    (narrow : (e.shiftedWith double).offsetFromRight ≤ specDurationS) :
    e.shiftedWith double ∈ (beforeWith double cycles (n + 1)).detectionHistory := by
  rw [history_succWith]
  apply List.mem_append_left
  exact List.mem_filter.2 ⟨List.mem_map_of_mem listed, decide_eq_true narrow⟩

/-- It is listed until it leaves the picture. -/
theorem listed_shifted {cycles : ℕ → SpecCycle} {n : ℕ} {e : HistoryEntry}
    (listed : e ∈ (renderedWith double cycles n).detectionHistory) {k : ℕ}
    (narrow : (e.shifted k).offsetFromRight ≤ specDurationS) :
    e.shifted k ∈ (renderedWith double cycles (n + k)).detectionHistory := by
  induction k with
  | zero => exact listed
  | succ k ih => exact mem_shifted (ih (offset_le_of_shift_le narrow)) narrow

end Runs

end StreamWeb.Processor

import StreamWeb.Lib.Windows
import StreamWeb.Processor.ExtractLast

/-!
# Whole packets

The decode window is longer than the interval between the cycles, so that a
packet on the boundary of two intervals is still whole in one of the windows.
`whole_packets_iff` says how far the cycles may be apart for this, in samples,
for any run of cycles beside a receiver that goes on writing: what a cycle has
in its window is in the chunk it hands to the decoder as long as the writer does
not come round to it.
-/

namespace StreamWeb.Processor

open Ring Config Windows

variable {α : Type} [Zero α]

/-- Cycles beside a receiver. Cycle `k` reads the index at `readAt k` and copies each cell at an instant
of its own, the last at `copyEnd k`. -/
structure CycleRun (x : Nat → α) where
  schedule : Schedule
  readAt : Nat → Nat
  copied : Nat → Nat → Nat
  copyEnd : Nat → Nat
  order : ∀ k, readAt k ≤ copyEnd k ∧ copyEnd k ≤ readAt (k + 1)
  inside : ∀ k c, readAt k ≤ copied k c ∧ copied k c ≤ copyEnd k

namespace CycleRun

variable {x : Nat → α} (R : CycleRun x)

/-- The samples published when cycle `k` reads the index. -/
def published (k : Nat) : Nat := (Rx.run iqBufferSize x R.schedule (R.readAt k)).published

/-- `decode_chunk` of cycle `k`. -/
def decodeChunk (k : Nat) : List α :=
  extractLast iqBufferSize (Rx.run iqBufferSize x R.schedule (R.readAt k)).bufWriteIdx decodeSamples
    fun c => (Rx.run iqBufferSize x R.schedule (R.copied k c)).iqBuffer c

/-- The `n` samples from position `p` on are in the window of cycle `k`. -/
def Whole (k : Nat) (p : Int) (n : Nat) : Prop := Sees decodeSamples (R.published k) p n

/-- The receiver begins no more samples during the copy than the buffer has in front of the window. -/
def InTime (k : Nat) : Prop :=
  (Rx.run iqBufferSize x R.schedule (R.copyEnd k)).begun ≤ R.published k + (iqBufferSize - decodeSamples)

omit [Zero α] in
theorem readAt_mono : Monotone R.readAt :=
  monotone_nat_of_le_succ fun k => le_trans (R.order k).1 (R.order k).2

theorem published_mono (j k : Nat) (le : j ≤ k) : (R.published j : Int) ≤ R.published k :=
  Int.ofNat_le.2 (Rx.published_mono iqBufferSize x R.schedule (R.readAt_mono le))

/-- A chunk copied in time is the window. -/
theorem decodeChunk_eq {k : Nat} (inTime : R.InTime k) :
    R.decodeChunk k = (stretch ((R.published k : Int) - decodeSamples) decodeSamples).map (sampleAt x) := by
  have size := iqBufferSize_eq
  have window := decodeSamples_eq
  rw [decodeChunk, extractLast_refines x R.schedule (R.readAt k) (R.copyEnd k) (by omega) (by omega)
    (R.copied k) (R.inside k) inTime, stretch, List.map_map]
  rfl

/-- What is whole in the window is handed to the decoder in one piece. -/
theorem Whole.isInfix {k : Nat} {p : Int} {n : Nat} (whole : R.Whole k p n) (inTime : R.InTime k) :
    (stretch p n).map (sampleAt x) <:+: R.decodeChunk k := by
  rw [R.decodeChunk_eq inTime]
  exact List.IsInfix.map _ (Sees.isInfix whole)

end CycleRun

/-- **No packet is cut** by the windows, for every run of cycles beside a receiver and every length `n`
up to the window's. Each stretch of `n` samples that ends between the first cycle and cycle `K` is whole
in one of their windows, if and only if consecutive cycles are at most `DECODE_SAMPLES - n + 1` samples
apart. The cycles that have it whole follow each other, and are three at most when the cycles are
`DECODE_INTERVAL_S` apart; one that copies in time hands it to the decoder in one piece. -/
theorem whole_packets_iff (x : Nat → α) (R : CycleRun x) (n K : Nat) (fits : n ≤ decodeSamples) :
    ((∀ p : Int, R.published 0 ≤ p + n → p + n ≤ R.published K → ∃ k ≤ K, R.Whole k p n) ↔
        ∀ k < K, R.published (k + 1) ≤ R.published k + (decodeSamples - n) + 1) ∧
      (∀ (p : Int) (i j k : Nat), i ≤ j → j ≤ k → R.Whole i p n → R.Whole k p n → R.Whole j p n) ∧
      ((∀ k, R.published k + decodeIntervalSamples ≤ R.published (k + 1)) →
        ∀ (p : Int) (i k : Nat), R.Whole i p n → R.Whole k p n → k ≤ i + 2) ∧
      ∀ (p : Int) (k : Nat), R.Whole k p n → R.InTime k →
        (stretch p n).map (sampleAt x) <:+: R.decodeChunk k := by
  refine ⟨?_, ?_, ?_, ?_⟩
  · refine (covered_iff R.published_mono fits K).trans ?_
    apply forall₂_congr
    intro k _
    omega
  · intro p i j k after before first last
    exact sees_between R.published_mono first last after before
  · intro apart p i k first last
    by_contra later
    have spaced : ∀ k, (R.published k : Int) + decodeIntervalSamples ≤ R.published (k + 1) := fun k =>
      Int.ofNat_le.2 (apart k)
    have few := sees_few spaced (Nat.le_of_lt (by omega)) first last
    have three : 3 * decodeIntervalSamples ≤ (k - i) * decodeIntervalSamples :=
      Nat.mul_le_mul_right _ (by omega)
    have interval := decodeIntervalSamples_eq
    have window := decodeSamples_eq
    omega
  · intro p k whole inTime
    exact CycleRun.Whole.isInfix R whole inTime

/-- A cycle behind three samples, and the others behind five. -/
def twoLooks : CycleRun fun p => (p + 1 : Int) where
  schedule :=
    { startTime := 0, events := fun t => ([.begin 3 0, .finish, .begin 2 0, .finish] : List RxEvent).getD t .idle }
  readAt k := if k = 0 then 2 else 4
  copied k _ := if k = 0 then 2 else 4
  copyEnd k := if k = 0 then 2 else 4
  order k := by cases k <;> simp
  inside k _ := by cases k <;> simp

/-- The third and the fourth sample come in different calls, and are whole in the second cycle's window. -/
theorem whole_packets_twoLooks :
    twoLooks.published 0 = 3 ∧ twoLooks.published 1 = 5 ∧ ∃ k ≤ 1, twoLooks.Whole k 2 2 := by
  have size := iqBufferSize_eq
  have window := decodeSamples_eq
  have first : twoLooks.published 0 = 3 := by
    simp [CycleRun.published, twoLooks, Rx.run, Rx.step, Rx.init, size]
  have second : twoLooks.published 1 = 5 := by
    simp [CycleRun.published, twoLooks, Rx.run, Rx.step, Rx.init, size]
  refine ⟨first, second, ?_⟩
  apply (whole_packets_iff _ twoLooks 2 1 (by omega)).1.2
  · intro k lt
    have only : k = 0 := by omega
    subst only
    rw [second, first]
    omega
  · rw [first]
    omega
  · rw [second]
    omega

end StreamWeb.Processor

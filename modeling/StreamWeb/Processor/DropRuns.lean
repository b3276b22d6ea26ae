import StreamWeb.Processor.SampleDrop

/-!
# Drops over a run of cycles

A packet is seen by every cycle whose window contains it, but a drop position
is seen by one cycle only: the one that drains it from the queue. `DropRun` is
a run of cycles beside a receiver, with the queue between them, and
`drops_attributed_iff` says in which runs every failed attempt is marked in
every window that shows its drop.
-/

namespace StreamWeb

open Ring Config

variable {α : Type} [Zero α]

/-! ## The drops of the receiver -/

namespace Rx

/-- The event starts a call behind a gap. -/
def notesGap (size : Nat) (w : Rx α) : RxEvent → Prop
  | .begin n now => (w.busy = 0 ∧ 0 < n ∧ n ≤ size) ∧ 1 / 20 < now - w.prevWorkTime ∧ 0 < w.prevWorkTime
  | _ => False

instance (size : Nat) (w : Rx α) (e : RxEvent) : Decidable (w.notesGap size e) := by
  cases e <;> unfold notesGap <;> infer_instance

/-- The stream positions of the drops noted before an instant. -/
def drops (size : Nat) (x : Nat → α) (S : Schedule) : Nat → List Nat
  | 0 => []
  | t + 1 =>
    drops size x S t ++
      if (run size x S t).notesGap size (S.events t) then [(run size x S t).published] else []

omit [Zero α] in
theorem step_dropQueue (size : Nat) (x : Nat → α) (w : Rx α) (e : RxEvent) :
    (w.step size x e).dropQueue
      = w.dropQueue ++ if w.notesGap size e then [w.bufWriteIdx] else [] := by
  cases e with
  | idle => simp [step, notesGap]
  | store i =>
    simp only [step, store, notesGap]
    split <;> simp
  | finish => simp [step, finish, notesGap]
  | begin n now =>
    by_cases starts : w.busy = 0 ∧ 0 < n ∧ n ≤ size
    · by_cases gap : 1 / 20 < now - w.prevWorkTime ∧ 0 < w.prevWorkTime
      · simp only [step, Rx.begin, notesGap, noteGap, starts, gap, and_self, if_true]
      · simp only [step, Rx.begin, notesGap, noteGap, if_pos starts, gap, and_false, if_false,
          List.append_nil]
    · simp only [step, Rx.begin, notesGap, starts, false_and, if_false, List.append_nil]

/-- **The queue holds the resting indices of the drops**, in their order. -/
theorem dropQueue_run {size : Nat} (hs : 0 < size) (x : Nat → α) (S : Schedule) (t : Nat) :
    (run size x S t).dropQueue = (drops size x S t).map (rest size) := by
  induction t with
  | zero => rfl
  | succ t ih =>
    rw [run, step_dropQueue, ih, drops, List.map_append, idx_run hs]
    split <;> rfl

end Rx

namespace Processor

/-- A run of processor cycles beside a receiver. Cycle `k` reads the index at `readAt k` and then
takes what it finds in the queue; `taken k` positions are gone before it. -/
structure DropRun (x : Nat → α) where
  schedule : Schedule
  readAt : Nat → Nat
  drainedAt : Nat → Nat
  order : ∀ k, readAt k ≤ drainedAt k ∧ drainedAt k ≤ readAt (k + 1)
  taken : Nat → Nat
  start : taken 0 = 0
  grows : ∀ k, taken k ≤ taken (k + 1)
  available : ∀ k, taken (k + 1) ≤ (Rx.run iqBufferSize x schedule (drainedAt k)).dropQueue.length
  /-- What `decode_signal` returns in cycle `k`. -/
  attempts : Nat → List Attempt
  raw : ∀ k, ∀ a ∈ attempts k, a.sampleDrop = false

namespace DropRun

variable {x : Nat → α} (R : DropRun x)

/-- `T`: the samples published when cycle `k` reads the index. -/
def published (k : Nat) : Nat := (Rx.run iqBufferSize x R.schedule (R.readAt k)).published

/-- `drop_positions` of cycle `k`. -/
def dropPositions (k : Nat) : List Nat :=
  ((Rx.run iqBufferSize x R.schedule (R.drainedAt k)).dropQueue.take (R.taken (k + 1))).drop (R.taken k)

/-- `drop_sample_offsets` of cycle `k`. -/
def offsets (k : Nat) : List Int :=
  dropSampleOffsets iqBufferSize (Rx.run iqBufferSize x R.schedule (R.readAt k)).bufWriteIdx
    (R.dropPositions k)

/-- The attempts of cycle `k` behind the annotation. -/
def annotated (k : Nat) : List Attempt := annotateSampleDrops (R.offsets k) (R.attempts k)

/-- The stream positions of the drops that cycle `k` drains. -/
def drained (k : Nat) : List Nat :=
  ((Rx.drops iqBufferSize x R.schedule (R.drainedAt k)).take (R.taken (k + 1))).drop (R.taken k)

/-- The drop at position `p` lies in the attempt of a window that ends at `T`. -/
def Cuts (T p : Nat) (a : Attempt) : Prop :=
  (packetInterval a).1 ≤ (p : Int) + decodeSamples - T ∧
    (p : Int) + decodeSamples - T ≤ (packetInterval a).2

/-- Cycle `k` can see that the failed attempt `a` contains the drop at `p`. -/
structure Shown (k p : Nat) (a : Attempt) : Prop where
  noted : ∃ t, p ∈ Rx.drops iqBufferSize x R.schedule t
  inWindow : R.published k ≤ p + decodeSamples ∧ p < R.published k
  mem : a ∈ R.attempts k
  failed : a.decoded = false
  cuts : Cuts (R.published k) p a

/-- Every failed attempt is marked in every cycle whose window shows its drop. -/
def Attributed : Prop :=
  ∀ k p a, R.Shown k p a → (annotate (R.offsets k) a).sampleDrop = true

/-- A drop that cycle `k` drains itself lies, modulo the buffer, in the window and there in the
attempt, and is not one at the end of the buffer in front of the window. -/
def Explained (k : Nat) (a : Attempt) : Prop :=
  ∃ q ∈ R.drained k, ∃ off : Int,
    off = ((q : Int) + decodeSamples - R.published k) % iqBufferSize ∧ off < decodeSamples ∧
      ¬(off = 0 ∧ 0 < q ∧ iqBufferSize ∣ q) ∧
      (packetInterval a).1 ≤ off ∧ off ≤ (packetInterval a).2

theorem dropPositions_eq (k : Nat) : R.dropPositions k = (R.drained k).map (rest iqBufferSize) := by
  rw [dropPositions, drained, Rx.dropQueue_run iqBufferSize_pos, List.map_drop, List.map_take]

/-- The offsets of a cycle are those of the drops it drains. -/
theorem isCut_iff {k : Nat} (pos : 0 < R.published k) (a : Attempt) :
    isCut (R.offsets k) a = true ↔ R.Explained k a := by
  have index := Rx.idx_run (x := x) iqBufferSize_pos R.schedule (R.readAt k)
  unfold Explained
  simp only [isCut, offsets, dropSampleOffsets, R.dropPositions_eq, List.any_eq_true,
    List.mem_filterMap, List.mem_map, decide_eq_true_eq]
  constructor
  · rintro ⟨off, ⟨_, ⟨q, mem, rfl⟩, placed⟩, low, high⟩
    rw [index] at placed
    obtain ⟨at_off, inside, kept⟩ := (dropSampleOffset_mod pos q off).1 placed
    exact ⟨q, mem, off, at_off, inside, kept, low, high⟩
  · rintro ⟨q, mem, off, at_off, inside, kept, low, high⟩
    refine ⟨off, ⟨_, ⟨q, mem, rfl⟩, ?_⟩, low, high⟩
    rw [index]
    exact (dropSampleOffset_mod pos q off).2 ⟨at_off, inside, kept⟩

/-- **When drops are attributed in every window.** For every run of cycles beside a receiver: in every
cycle, every failed attempt that contains a drop of the window is marked, exactly when each such
attempt contains a drop that this very cycle drained from the queue. -/
theorem drops_attributed_iff : R.Attributed ↔ ∀ k p a, R.Shown k p a → R.Explained k a := by
  have marked : ∀ k p a, R.Shown k p a →
      ((annotate (R.offsets k) a).sampleDrop = true ↔ R.Explained k a) := by
    intro k p a shown
    have later := shown.inWindow.2
    rw [annotate_sampleDrop shown.failed (R.raw k a shown.mem), R.isCut_iff (by omega)]
  constructor
  · intro attributed k p a shown
    exact (marked k p a shown).1 (attributed k p a shown)
  · intro explained k p a shown
    exact (marked k p a shown).2 (explained k p a shown)

/-- A gap in front of sample 1000000, and two cycles whose windows show it. -/
def gapSchedule : Schedule where
  startTime := 1
  events t := ([.begin 1000000 1, .finish, .begin 171875 2, .finish, .begin 468750 2,
    .finish] : List RxEvent).getD t .idle

theorem gapSchedule_run :
    (Rx.run iqBufferSize (fun p => (p + 1 : Int)) gapSchedule 4).published = 1171875 ∧
      (Rx.run iqBufferSize (fun p => (p + 1 : Int)) gapSchedule 6).published = 1640625 ∧
      Rx.drops iqBufferSize (fun p => (p + 1 : Int)) gapSchedule 4 = [1000000] ∧
      Rx.drops iqBufferSize (fun p => (p + 1 : Int)) gapSchedule 6 = [1000000] := by
  have size := iqBufferSize_eq
  refine ⟨?_, ?_, ?_, ?_⟩ <;>
    norm_num [Rx.run, Rx.drops, Rx.notesGap, gapSchedule, Rx.step, Rx.begin, Rx.finish, Rx.noteGap,
      Rx.init, size]

/-- A failed attempt around the gap. -/
def cutAttempt : Attempt where
  chipset := some "A"
  reason := some "header_fail"
  startSample := some 500000
  signalDurationS := some (1 / 10)

/-- The first cycle drains the drop, and the second sees the packet it cut. -/
def twoWindows : DropRun fun p => (p + 1 : Int) where
  schedule := gapSchedule
  readAt k := if k = 0 then 4 else 6
  drainedAt k := if k = 0 then 4 else 6
  order k := by
    split <;> simp
  taken k := if k = 0 then 0 else 1
  start := rfl
  grows k := by
    split <;> simp
  available k := by
    obtain ⟨-, -, first, second⟩ := gapSchedule_run
    rw [Rx.dropQueue_run iqBufferSize_pos]
    split <;> split <;> simp [first, second]
  attempts k := if k = 1 then [cutAttempt] else []
  raw k a mem := by
    split at mem
    · rw [List.mem_singleton.1 mem]
      rfl
    · cases mem

/-- In the second window the attempt with the drop in it is not marked. -/
theorem drop_unattributed :
    twoWindows.drained 0 = [1000000] ∧ twoWindows.Shown 1 1000000 cutAttempt ∧
      (annotate (twoWindows.offsets 1) cutAttempt).sampleDrop = false ∧ ¬twoWindows.Attributed := by
  have window := decodeSamples_eq
  obtain ⟨-, second, early, late⟩ := gapSchedule_run
  have published : twoWindows.published 1 = 1640625 := second
  have drained : twoWindows.drained 1 = [] := by
    show ((Rx.drops iqBufferSize (fun p => (p + 1 : Int)) gapSchedule 6).take 1).drop 1 = []
    rw [late]
    rfl
  have interval : packetInterval cutAttempt = (500000, 578125) := by
    decide +kernel
  have shown : twoWindows.Shown 1 1000000 cutAttempt := by
    refine ⟨⟨4, ?_⟩, ?_, List.mem_singleton_self _, rfl, ?_⟩
    · show 1000000 ∈ Rx.drops iqBufferSize (fun p => (p + 1 : Int)) gapSchedule 4
      rw [early]
      exact List.mem_singleton_self _
    · rw [published, window]
      omega
    · rw [Cuts, published, interval, window]
      omega
  have unmarked : (annotate (twoWindows.offsets 1) cutAttempt).sampleDrop = false := by
    have offsets : twoWindows.offsets 1 = [] := by
      rw [offsets, dropPositions_eq, drained]
      rfl
    rw [offsets, annotate_nil]
    rfl
  refine ⟨?_, shown, unmarked, ?_⟩
  · show ((Rx.drops iqBufferSize (fun p => (p + 1 : Int)) gapSchedule 4).take 1).drop 0 = _
    rw [early]
    rfl
  · intro attributed
    have marked := attributed 1 1000000 cutAttempt shown
    rw [unmarked] at marked
    cases marked

end DropRun

end Processor

end StreamWeb

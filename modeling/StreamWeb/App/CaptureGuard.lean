import StreamWeb.App.CaptureExact

/-!
# The guard against an overrun

After the copy of a chunk the index is compared with the chunk's start once
more. The distance is known modulo the buffer only, so the guard sees a writer
that has come round only while it is less than the chunk's length past a whole
number of turns; a chunk that starts at cell 0 takes an index at rest at the
end for a turn. `overrun_guard_iff` is what an overrun is worth.
-/

namespace StreamWeb.Capture

open Ring Config

variable {α : Type} {size nSamples : Nat}

/-- The distance to the index `T` samples rest at is that of the counts modulo
the buffer; from cell 0 whole turns read as one. -/
theorem samplesAdvanced_mod (hs : 0 < size) {P : Nat → Nat} {cur : Cursor} (placed : Placed size P cur)
    {T : Nat} (later : streamStart P cur < T) :
    samplesAdvanced cur.chunkStart (rest size T) size
      = if cur.chunkStart = 0 ∧ size ∣ T - streamStart P cur then size
        else (T - streamStart P cur) % size := by
  have low := rest_pos (n := size) (show 0 < T by omega)
  have high := rest_le hs T
  have start := placed.le hs
  have cells : (cur.chunkStart + (T - streamStart P cur)) % size = rest size T % size := by
    rw [rest_mod, Nat.add_mod, placed.mod, ← Nat.add_mod, Nat.add_sub_cancel' later.le]
  generalize T - streamStart P cur = d at *
  generalize rest size T = w at *
  generalize cur.chunkStart = c at *
  by_cases zero : c = 0
  · subst zero
    rw [Nat.zero_add] at cells
    rw [samplesAdvanced, if_pos (Nat.zero_le _), Nat.sub_zero]
    by_cases full : size ∣ d
    · rw [if_pos ⟨rfl, full⟩]
      rw [Nat.mod_eq_zero_of_dvd full] at cells
      exact Nat.le_antisymm high (Nat.le_of_dvd low (Nat.dvd_of_mod_eq_zero cells.symm))
    · rw [if_neg fun turn => full turn.2, cells, Nat.mod_eq_of_lt]
      refine lt_of_le_of_ne high ?_
      rintro rfl
      rw [Nat.mod_self] at cells
      exact full (Nat.dvd_of_mod_eq_zero cells)
  · rw [if_neg fun turn => zero turn.1, samplesAdvanced]
    have distance : ∀ v, v < size → c + v = w ∨ c + v = w + size → v = d % size := by
      intro v lt back
      have same : c + v ≡ c + d [MOD size] := by
        rcases back with eq | eq <;> simp [Nat.ModEq, eq, cells]
      rw [← Nat.mod_eq_of_lt lt]
      exact same.add_left_cancel'
    split
    · exact distance _ (by omega) (.inl (by omega))
    · exact distance _ (by omega) (.inr (by omega))

/-- An error of a round is the error of the call. -/
theorem captureIq_error (hs : 2 ≤ size) {E : Env α} {cur : Cursor} {err : CaptureError}
    (reached : Reached size nSamples E cur) (failed : captureLoop size nSamples E cur = .error err) :
    captureIq size nSamples E = .error err := by
  induction reached with
  | start => exact failed
  | round _ more step ih =>
    apply ih
    rw [captureLoop_ok hs more step, failed]
    rfl

/-! ## An overrun -/

section Guard

variable [Zero α]

/-- A sample of the round at stream position `S` is overwritten when it is copied: the cell does not
hold it any more. The stream that numbers its samples tells. -/
def Overwritten (I : Interleaving) (size S n r : Nat) : Prop :=
  ∃ i < n, (Rx.run size Nat.succ I.schedule (I.copiedAt r (cell size ((S : Int) + i)))).iqBuffer
    (cell size ((S : Int) + i)) ≠ Nat.succ (S + i)

/-- The samples the writer has advanced past the start of a round at the check behind the copy. -/
def advancedAtCheck (I : Interleaving) (size : Nat) (x : Nat → α) (cur : Cursor) (r : Nat) : Nat :=
  I.counts size x (r + 1) - streamStart (I.counts size x) cur

/-- The guard takes the advance for one that leaves the round alone. -/
def Unseen (size nSamples : Nat) (cur : Cursor) (advanced : Nat) : Prop :=
  thisN size nSamples cur ≤ advanced % size ∨ cur.chunkStart = 0 ∧ size ∣ advanced

/-- The guard behind a copy. -/
theorem captureChunk_overran_iff (hs : 2 ≤ size) {I : Interleaving} {clock : Clock} {x : Nat → α}
    {cur : Cursor} {r : Nat} (reached : Reached size nSamples (I.env size clock x) cur)
    (more : cur.filled < nSamples)
    (waited : waitLoop size (I.env size clock x) cur.chunkStart (thisN size nSamples cur)
      (clock.started cur.reads + patience (thisN size nSamples cur))
      (maxPolls (thisN size nSamples cur)) cur.reads = some r)
    (shown : streamStart (I.counts size x) cur + thisN size nSamples cur ≤ I.counts size x r) :
    captureChunk size nSamples (I.env size clock x) cur = .error overran ↔
      ¬Unseen size nSamples cur (advancedAtCheck I size x cur r) := by
  have pos := thisN_pos hs more
  have half := (thisN_le size more).1
  have grows : I.counts size x r ≤ I.counts size x (r + 1) := by
    obtain ⟨after, before⟩ := I.within r 0
    exact Rx.published_mono size x I.schedule (le_trans after before)
  have index : ∀ q, (I.env size clock x).bufWriteIdx q = rest size (I.counts size x q) :=
    fun q => Rx.idx_run (by omega) I.schedule (I.readAt q)
  have placed := reached_placed hs (index 0) reached
  have distance := samplesAdvanced_mod (by omega : 0 < size) placed
    (show streamStart (I.counts size x) cur < I.counts size x (r + 1) by omega)
  rw [← index, ← advancedAtCheck] at distance
  constructor
  · intro failed unseen
    have check : thisN size nSamples cur ≤ samplesAdvanced cur.chunkStart
        ((I.env size clock x).bufWriteIdx (r + 1)) size := by
      rw [distance]
      split
      · omega
      · rename_i turns
        exact unseen.resolve_right turns
    rw [captureChunk_some waited check] at failed
    cases failed
  · intro seen
    obtain ⟨short, turns⟩ := not_or.1 seen
    rw [if_neg turns] at distance
    unfold captureChunk
    simp only [show (I.env size clock x).clock = clock from rfl, waited, distance,
      if_pos (Nat.lt_of_not_le short)]

/-- **When the guard detects an overrun.** For every round of a capture whose wait ended with the
writer past the round's samples by no more than a turn, however far it then runs before the check:
an overwritten sample makes the round and the call fail exactly when it is not the case that one is
overwritten and the advance is, modulo the buffer, the round's length or more, or a whole number of
turns from cell 0. -/
theorem overrun_guard_iff (I : Interleaving) (clock : Clock) (x : Nat → α) (n : Nat) (cur : Cursor)
    (r : Nat) (reached : Reached iqBufferSize n (I.env iqBufferSize clock x) cur)
    (more : cur.filled < n)
    (waited : waitLoop iqBufferSize (I.env iqBufferSize clock x) cur.chunkStart
      (thisN iqBufferSize n cur) (clock.started cur.reads + patience (thisN iqBufferSize n cur))
      (maxPolls (thisN iqBufferSize n cur)) cur.reads = some r)
    (shown : streamStart (I.counts iqBufferSize x) cur + thisN iqBufferSize n cur
        ≤ I.counts iqBufferSize x r
      ∧ I.counts iqBufferSize x r ≤ streamStart (I.counts iqBufferSize x) cur + iqBufferSize) :
    (Overwritten I iqBufferSize (streamStart (I.counts iqBufferSize x) cur) (thisN iqBufferSize n cur) r →
        captureChunk iqBufferSize n (I.env iqBufferSize clock x) cur = .error overran ∧
          captureIq iqBufferSize n (I.env iqBufferSize clock x) = .error overran) ↔
      ¬(Overwritten I iqBufferSize (streamStart (I.counts iqBufferSize x) cur)
          (thisN iqBufferSize n cur) r ∧
        Unseen iqBufferSize n cur (advancedAtCheck I iqBufferSize x cur r)) := by
  have hs := two_le_iqBufferSize
  have guard := captureChunk_overran_iff hs reached more waited shown.1
  constructor
  · rintro detected ⟨overwritten, unseen⟩
    exact guard.1 (detected overwritten).1 unseen
  · intro seen overwritten
    have failed := guard.2 fun unseen => seen ⟨overwritten, unseen⟩
    exact ⟨failed, captureIq_error hs reached (captureLoop_error hs more failed)⟩

/-- A capture from the start of the stream whose copy waits until `D` samples are published. -/
def stalled (D : Nat) : Interleaving where
  schedule := writerOf fun j => [0, 781250, 1562500].getD j D
  readAt r := [0, 2].getD r 6
  copiedAt r _ := [0, 6].getD r 6
  within r _ := by
    match r with
    | 0 => decide
    | 1 => decide
    | _ + 2 => simp

/-- What the stalled capture sees: it waits for half a buffer, and of that the first cells are
overwritten. -/
theorem stalled_round {D : Nat} (turn : 1562500 < D) (close : D ≤ 3125000) (x : Nat → α) :
    (stalled D).counts iqBufferSize x 0 = 0 ∧ (stalled D).counts iqBufferSize x 1 = 781250 ∧
      (stalled D).counts iqBufferSize x 2 = D ∧ Overwritten (stalled D) iqBufferSize 0 781250 1 := by
  have size := iqBufferSize_eq
  have mono : ∀ j, [0, 781250, 1562500].getD j D ≤ [0, 781250, 1562500].getD (j + 1) D ∧
      [0, 781250, 1562500].getD (j + 1) D - [0, 781250, 1562500].getD j D ≤ iqBufferSize := by
    intro j
    match j with
    | 0 => simp [size]
    | 1 => simp [size]
    | 2 => simp; omega
    | _ + 3 => simp
  have run : ∀ {β : Type} [Zero β] (y : Nat → β) (j : Nat),
      (Rx.run iqBufferSize y (stalled D).schedule (2 * j)).published
          = [0, 781250, 1562500].getD j D ∧
        (Rx.run iqBufferSize y (stalled D).schedule (2 * j)).busy = 0 :=
    fun y => run_writerOf rfl (fun j => (mono j).1) (fun j => (mono j).2) y
  refine ⟨(run x 0).1, (run x 1).1, (run x 3).1, 0, by omega, ?_⟩
  have held := Rx.held_run (x := Nat.succ) iqBufferSize_pos (stalled D).schedule 6
    (1562500 : Nat)
  obtain ⟨published, busy⟩ := run Nat.succ 3
  rw [Rx.begun, published, busy, sampleAt_nat] at held
  have later := held (by simp; omega) (by simpa using turn)
  rw [cell_nat, size, Nat.mod_self] at later
  show (Rx.run iqBufferSize Nat.succ (stalled D).schedule 6).iqBuffer 0 ≠ 1
  rw [size, later]
  omega

/-- Its one round. -/
theorem stalled_waits {D : Nat} (turn : 1562500 < D) (close : D ≤ 3125000) (x : Nat → α) :
    Reached iqBufferSize 781250 ((stalled D).env iqBufferSize still x) ⟨0, 0, 1⟩ ∧
      thisN iqBufferSize 781250 ⟨0, 0, 1⟩ = 781250 ∧
      waitLoop iqBufferSize ((stalled D).env iqBufferSize still x) 0
        (thisN iqBufferSize 781250 ⟨0, 0, 1⟩)
        (still.started 1 + patience (thisN iqBufferSize 781250 ⟨0, 0, 1⟩))
        (maxPolls (thisN iqBufferSize 781250 ⟨0, 0, 1⟩)) 1 = some 1 := by
  have size := iqBufferSize_eq
  obtain ⟨first, second, -, -⟩ := stalled_round turn close x
  have index : ∀ q, ((stalled D).env iqBufferSize still x).bufWriteIdx q
      = rest iqBufferSize ((stalled D).counts iqBufferSize x q) :=
    fun q => Rx.idx_run (by omega) (stalled D).schedule ((stalled D).readAt q)
  have start : begin ((stalled D).env iqBufferSize still x) = ⟨0, 0, 1⟩ := by
    rw [begin, index, first]
    rfl
  have count : thisN iqBufferSize 781250 ⟨0, 0, 1⟩ = 781250 := by
    simp [thisN, size]
  refine ⟨start ▸ .start, count, ?_⟩
  apply waitLoop_done
  rw [count, index, second, size]
  decide

/-- A copy that stalls for a turn and a hundred samples is detected. -/
theorem overrun_guard_iff_stalled :
    captureIq iqBufferSize 781250 ((stalled 1562600).env iqBufferSize still stamp)
      = .error overran := by
  have size := iqBufferSize_eq
  obtain ⟨first, second, third, overwritten⟩ :=
    stalled_round (by omega : 1562500 < 1562600) (by omega) stamp
  obtain ⟨reached, count, waited⟩ := stalled_waits (by omega : 1562500 < 1562600) (by omega) stamp
  have start : streamStart ((stalled 1562600).counts iqBufferSize stamp) ⟨0, 0, 1⟩ = 0 := by
    rw [streamStart, first, Nat.add_zero]
  have seen : ¬Unseen iqBufferSize 781250 ⟨0, 0, 1⟩
      (advancedAtCheck (stalled 1562600) iqBufferSize stamp ⟨0, 0, 1⟩ 1) := by
    rw [Unseen, count, advancedAtCheck, third, start, size]
    decide
  refine ((overrun_guard_iff (stalled 1562600) still stamp 781250 ⟨0, 0, 1⟩ 1 reached (by simp) waited
    ?_).2 (fun missed => seen missed.2) ?_).2
  · rw [start, count, second, size]
    omega
  · rw [start, count]
    exact overwritten

/-- A copy that stalls for a turn and a half is accepted with overwritten samples. -/
theorem overrun_missed :
    (stalled 2343750).counts iqBufferSize stamp 0 = 0 ∧
      (stalled 2343750).counts iqBufferSize stamp 1 = 781250 ∧
      Overwritten (stalled 2343750) iqBufferSize 0 781250 1 ∧
      ∃ segment, captureIq iqBufferSize 781250 ((stalled 2343750).env iqBufferSize still stamp)
        = .ok segment := by
  have size := iqBufferSize_eq
  have hs := two_le_iqBufferSize
  obtain ⟨first, second, third, overwritten⟩ :=
    stalled_round (by omega : 1562500 < 2343750) (by omega) stamp
  obtain ⟨reached, count, waited⟩ := stalled_waits (by omega : 1562500 < 2343750) (by omega) stamp
  have index : ∀ q, ((stalled 2343750).env iqBufferSize still stamp).bufWriteIdx q
      = rest iqBufferSize ((stalled 2343750).counts iqBufferSize stamp q) :=
    fun q => Rx.idx_run (by omega) (stalled 2343750).schedule ((stalled 2343750).readAt q)
  have start : begin ((stalled 2343750).env iqBufferSize still stamp) = ⟨0, 0, 1⟩ := by
    rw [begin, index, first]
    rfl
  refine ⟨first, second, overwritten, ?_⟩
  have step := captureChunk_some waited (by
    rw [count, index, third, size]
    decide)
  rw [count] at step
  have full : captureLoop iqBufferSize 781250 ((stalled 2343750).env iqBufferSize still stamp)
      ⟨(0 + 781250) % iqBufferSize, 0 + 781250, 1 + 2⟩ = .ok [] := captureLoop_end (by simp)
  have loop := captureLoop_ok hs (by simp) step
  rw [full, ← start] at loop
  exact ⟨_, loop⟩

end Guard

end StreamWeb.Capture

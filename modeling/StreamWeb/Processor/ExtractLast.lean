import StreamWeb.Rx.Invariant

/-!
# The processor's view of the stream

Each cycle reads `buf_write_idx` once and then copies the last samples in front
of it out of the ring buffer, in one slice or two, without a lock. The copy is
the stream's last samples as long as the writer does not come round to them:
`extractLast_refines` gives the room that leaves it.
-/

namespace StreamWeb.Processor

open Ring Config

variable {α : Type}

/-- `_extract_last(n)`, of the contents the cells have when they are copied. -/
def extractLast (bufLen widx n : Nat) (iqBuffer : Nat → α) : List α :=
  let start := (((widx : Int) - n) % bufLen).toNat
  if start < widx then slice iqBuffer start widx
  else slice iqBuffer start bufLen ++ slice iqBuffer 0 widx

/-- Both branches read the cells of the last `k` positions, in order. -/
theorem extractLast_eq {size T k : Nat} (pos : 0 < k) (lt : k < size) (mem : Nat → α) :
    extractLast size (rest size T) k mem
      = (List.range k).map fun i : Nat => mem (cell size ((T : Int) - k + i)) := by
  have hs : 0 < size := by omega
  have rle := rest_le hs T
  have startLt : cell size ((rest size T : Int) - k) < size := cell_lt hs _
  have ends : cell size ((rest size T : Int) - k) + k = rest size T ∧ rest size T ≤ size ∨
      cell size ((rest size T : Int) - k) + k = rest size T + size := by
    by_cases inside : k ≤ rest size T
    · left
      rw [cell_of_lt (by omega) (by omega)]
      omega
    · right
      rw [← cell_add_size, cell_of_lt (by omega) (by omega)]
      omega
  show window size (cell size ((rest size T : Int) - k)) (rest size T) mem = _
  rw [window_eq startLt.le pos lt ends]
  apply List.map_congr_left
  intro i _
  have near : cell size ((rest size T : Int) - k + i) = cell size ((T : Int) - k + i) := by
    have := cell_rest (n := size) T (i - k)
    rwa [show (rest size T : Int) + (i - k) = rest size T - k + i by ring,
      show (T : Int) + (i - k) = T - k + i by ring] at this
  rw [← near, cell_add hs]

/-- **`_extract_last` is the stream's last `k` samples**, zeros before its
start, when the writer begins at most `IQ_BUFFER_SIZE - k` more samples until
the copy is done; each cell `c` may be copied at its own instant `copied c`. -/
theorem extractLast_refines [Zero α] (x : Nat → α) (S : Schedule) {k : Nat} (read done : Nat)
    (pos : 0 < k) (lt : k < iqBufferSize) (copied : Nat → Nat)
    (within : ∀ c, read ≤ copied c ∧ copied c ≤ done)
    (slack : (Rx.run iqBufferSize x S done).begun
      ≤ (Rx.run iqBufferSize x S read).published + (iqBufferSize - k)) :
    extractLast iqBufferSize (Rx.run iqBufferSize x S read).bufWriteIdx k
        (fun c => (Rx.run iqBufferSize x S (copied c)).iqBuffer c)
      = (List.range k).map fun i : Nat =>
          sampleAt x (((Rx.run iqBufferSize x S read).published : Int) - k + i) := by
  rw [Rx.idx_run iqBufferSize_pos, extractLast_eq pos lt]
  apply List.map_congr_left
  intro i hi
  have bound : i < k := List.mem_range.1 hi
  obtain ⟨after, before⟩ := within (cell iqBufferSize
    (((Rx.run iqBufferSize x S read).published : Int) - k + i))
  apply Rx.read_run iqBufferSize_pos S after before
  · omega
  · omega

/-- A writer that publishes three samples and is caught in its next call. -/
def caught : Schedule where
  startTime := 0
  events t := ([.begin 3 0, .store 1, .finish, .begin 2 0, .store 0] : List RxEvent).getD t .idle

/-- The cells are copied before and after the second call's store. -/
theorem extractLast_refines_caught :
    extractLast iqBufferSize (Rx.run iqBufferSize (fun p => (p + 1 : Int)) caught 3).bufWriteIdx 2
        (fun c => (Rx.run iqBufferSize (fun p => (p + 1 : Int)) caught (if c = 1 then 4 else 5)).iqBuffer c)
      = [2, 3] := by
  have size := iqBufferSize_eq
  have published : (Rx.run iqBufferSize (fun p => (p + 1 : Int)) caught 3).published = 3 := by
    simp [Rx.run, caught, Rx.step, Rx.init, size]
  have begun : (Rx.run iqBufferSize (fun p => (p + 1 : Int)) caught 5).begun = 5 := by
    simp [Rx.run, caught, Rx.step, Rx.init, Rx.begun, size]
  rw [extractLast_refines _ caught 3 5 (by decide) (by omega) (fun c => if c = 1 then 4 else 5)
    (by intro c; split <;> omega) (by omega), published]
  simp [sampleAt, List.range_succ]

end StreamWeb.Processor

import StreamWeb.Processor.ExtractLast

/-!
# Sample drops

The receiver queues its write index when it suspects a gap in front of the
samples it is about to write. A cycle drains the queue, places each index in
its window and marks the failed attempts it falls into.

The index rests at the buffer's size after a full turn, where the cell written
next is cell 0. A window that starts at cell 0 does not find such an index, and
`drop_offset_iff` says that this is the only one it misplaces.
-/

namespace StreamWeb.Processor

open Ring Config

variable {α : Type}

/-- `decode_start`. -/
def decodeStart (bufLen widx : Nat) : Int := ((widx : Int) - decodeSamples) % bufLen

/-- The offset a drop position has in the window, if it is placed in it. -/
def dropSampleOffset (bufLen widx dp : Nat) : Option Int :=
  if decodeStart bufLen widx < widx then
    if decodeStart bufLen widx ≤ dp ∧ dp < widx then some (dp - decodeStart bufLen widx) else none
  else if decodeStart bufLen widx ≤ dp then some (dp - decodeStart bufLen widx)
  else if dp < widx then some (bufLen - decodeStart bufLen widx + dp)
  else none

/-- `drop_sample_offsets`. -/
def dropSampleOffsets (bufLen widx : Nat) (dropPositions : List Nat) : List Int :=
  dropPositions.filterMap (dropSampleOffset bufLen widx)

/-! ## The annotation -/

/-- `pkt_start` and `pkt_end` of an attempt. -/
def packetInterval (a : Attempt) : Int × Int :=
  let pktStart := a.startSample.getD (Py.int (a.timeS.getD 0 * sampleRate))
  (pktStart, pktStart + Py.int (a.signalDurationS.getD (1 / 20) * sampleRate))

/-- Some drop lies in the attempt. -/
def isCut (offsets : List Int) (a : Attempt) : Bool :=
  offsets.any fun doff => (packetInterval a).1 ≤ doff ∧ doff ≤ (packetInterval a).2

/-- The reason of a marked attempt. -/
def dropReason (reason : Option String) : String :=
  match reason with
  | some r => if r ≠ "" ∧ r ≠ "ok" then r ++ "+sample_drop" else "sample_drop"
  | none => "sample_drop"

def annotate (offsets : List Int) (a : Attempt) : Attempt :=
  if a.decoded then a
  else if isCut offsets a then
    { a with sampleDrop := true, reason := some (dropReason a.reason) }
  else a

/-- The loop of a cycle over its attempts. -/
def annotateSampleDrops (offsets : List Int) (attempts : List Attempt) : List Attempt :=
  if offsets ≠ [] ∧ attempts ≠ [] then attempts.map (annotate offsets) else attempts

theorem annotate_nil : annotate [] = id := by
  funext a
  simp [annotate, isCut]

/-- Without drops, or without attempts, there is nothing to mark. -/
theorem annotateSampleDrops_eq (offsets : List Int) (attempts : List Attempt) :
    annotateSampleDrops offsets attempts = attempts.map (annotate offsets) := by
  unfold annotateSampleDrops
  split_ifs with some_of
  · rfl
  · by_cases none_cut : offsets = []
    · subst none_cut
      simp [annotate_nil]
    · have empty : attempts = [] := by
        by_contra left
        exact some_of ⟨none_cut, left⟩
      rw [empty, List.map_nil]

theorem annotate_decoded {a : Attempt} (ok : a.decoded = true) (offsets : List Int) :
    annotate offsets a = a := by
  simp [annotate, ok]

theorem annotate_uncut {offsets : List Int} {a : Attempt} (whole : isCut offsets a = false) :
    annotate offsets a = a := by
  simp [annotate, whole]

theorem annotate_cut {offsets : List Int} {a : Attempt} (failed : a.decoded = false)
    (cut : isCut offsets a = true) :
    annotate offsets a = { a with sampleDrop := true, reason := some (dropReason a.reason) } := by
  simp [annotate, failed, cut]

/-- The annotation writes the mark and the reason, and nothing else. -/
theorem annotate_frame (offsets : List Int) (a : Attempt) :
    ∃ mark reason, annotate offsets a = { a with sampleDrop := mark, reason := reason } := by
  unfold annotate
  split_ifs
  · exact ⟨a.sampleDrop, a.reason, rfl⟩
  · exact ⟨true, some (dropReason a.reason), rfl⟩
  · exact ⟨a.sampleDrop, a.reason, rfl⟩

@[simp] theorem isCut_annotate (offsets : List Int) (a : Attempt) :
    isCut offsets (annotate offsets a) = isCut offsets a := by
  obtain ⟨mark, reason, same⟩ := annotate_frame offsets a
  rw [same]
  rfl

@[simp] theorem annotate_keeps_decoded (offsets : List Int) (a : Attempt) :
    (annotate offsets a).decoded = a.decoded := by
  obtain ⟨mark, reason, same⟩ := annotate_frame offsets a
  rw [same]

/-- A failed attempt that was not marked before is marked if and only if a drop lies in it. -/
theorem annotate_sampleDrop {offsets : List Int} {a : Attempt} (failed : a.decoded = false)
    (raw : a.sampleDrop = false) : (annotate offsets a).sampleDrop = isCut offsets a := by
  cases cut : isCut offsets a with
  | true => rw [annotate_cut failed cut]
  | false => rw [annotate_uncut cut, raw]

/-! ## Where a drop is placed -/

/-- The window is one slice of the ring, or the end and the start of it. -/
theorem dropSampleOffset_eq_some {bufLen widx dp : Nat} {off : Int} :
    dropSampleOffset bufLen widx dp = some off ↔
      (decodeStart bufLen widx < widx ∧ decodeStart bufLen widx ≤ dp ∧ dp < widx
          ∧ off = dp - decodeStart bufLen widx)
        ∨ (widx ≤ decodeStart bufLen widx ∧ decodeStart bufLen widx ≤ dp
          ∧ off = dp - decodeStart bufLen widx)
        ∨ (widx ≤ decodeStart bufLen widx ∧ dp < decodeStart bufLen widx ∧ dp < widx
          ∧ off = bufLen - decodeStart bufLen widx + dp) := by
  unfold dropSampleOffset
  split_ifs <;> simp only [Option.some.injEq, false_iff] <;> omega

/-- The resting index as the remainder of a division in which a full turn leaves the divisor. -/
theorem rest_turns {n : Nat} (hn : 0 < n) {t : Nat} (pos : 0 < t) :
    ∃ turns : Nat, t = n * turns + rest n t ∧ 0 < rest n t ∧ rest n t ≤ n := by
  refine ⟨(t - 1) / n, ?_, rest_pos pos, rest_le hn t⟩
  have := Nat.div_add_mod (t - 1) n
  rw [rest, if_neg (by omega)]
  omega

/-- Around the ring the window starts at most a window behind the index. -/
theorem decodeStart_eq {widx : Nat} (le : widx ≤ iqBufferSize) :
    decodeStart iqBufferSize widx =
      if decodeSamples ≤ widx then (widx : Int) - decodeSamples
      else widx - decodeSamples + iqBufferSize := by
  have size := iqBufferSize_eq
  have window := decodeSamples_eq
  unfold decodeStart
  split
  · rw [Int.emod_eq_of_lt (by omega) (by omega)]
  · rw [← Int.add_emod_right, Int.emod_eq_of_lt (by omega) (by omega)]

/-- In positions of the stream a window places a drop by its distance modulo the buffer, except in
front of a window that starts at cell 0 of the ring. -/
theorem dropSampleOffset_mod {T : Nat} (pos : 0 < T) (p : Nat) (off : Int) :
    dropSampleOffset iqBufferSize (rest iqBufferSize T) (rest iqBufferSize p) = some off ↔
      off = ((p : Int) + decodeSamples - T) % iqBufferSize ∧ off < decodeSamples
        ∧ ¬(off = 0 ∧ 0 < p ∧ iqBufferSize ∣ p) := by
  have size := iqBufferSize_eq
  have window := decodeSamples_eq
  have ends := decodeStart_eq (rest_le iqBufferSize_pos T)
  rw [dropSampleOffset_eq_some, ends]
  obtain ⟨turns, front, low, high⟩ := rest_turns iqBufferSize_pos pos
  have gap : p = 0 ∧ rest iqBufferSize p = 0 ∨ ∃ turns' : Nat,
      p = iqBufferSize * turns' + rest iqBufferSize p ∧ 0 < rest iqBufferSize p
        ∧ rest iqBufferSize p ≤ iqBufferSize := by
    rcases Nat.eq_zero_or_pos p with rfl | later
    · exact .inl ⟨rfl, rfl⟩
    · exact .inr (rest_turns (by omega) later)
  generalize rest iqBufferSize T = widx at *
  generalize rest iqBufferSize p = dp at *
  simp only [size, window] at *
  rcases gap with ⟨rfl, rfl⟩ | ⟨turns', behind, low', high'⟩ <;> split <;> omega

/-- Of two counts less than a turn apart, the earlier window places the drop where it is, except in
front of a window that starts at cell 0 of the ring. -/
theorem dropSampleOffset_eq_some_iff {T p : Nat} (old : T ≤ p + iqBufferSize)
    (new : p < T + (iqBufferSize - decodeSamples)) (off : Int) :
    dropSampleOffset iqBufferSize (rest iqBufferSize T) (rest iqBufferSize p) = some off ↔
      (T ≤ p + decodeSamples ∧ p < T ∧ off = p + decodeSamples - T)
        ∧ ¬(T = p + decodeSamples ∧ 0 < p ∧ iqBufferSize ∣ p) := by
  have size := iqBufferSize_eq
  have window := decodeSamples_eq
  rcases Nat.eq_zero_or_pos T with rfl | pos
  · have early : rest iqBufferSize p = p := by
      unfold rest
      split
      · omega
      · rw [Nat.mod_eq_of_lt (by omega)]
        omega
    rw [show rest iqBufferSize 0 = 0 from rfl, dropSampleOffset_eq_some, early,
      decodeStart_eq (Nat.zero_le _)]
    simp only [size, window] at new ⊢
    split <;> omega
  · rw [dropSampleOffset_mod pos]
    simp only [size, window] at old new ⊢
    omega

/-- The drop recorded at one instant is placed exactly in the window read at another: if and only if
the window contains it, and then at its first sample. -/
structure PlacedExactly [Zero α] (x : Nat → α) (S : Schedule) (dropped read : Nat) : Prop where
  placed : (∃ off, dropSampleOffset iqBufferSize (Rx.run iqBufferSize x S read).bufWriteIdx
      (Rx.run iqBufferSize x S dropped).bufWriteIdx = some off) ↔
    (Rx.run iqBufferSize x S read).published
        ≤ (Rx.run iqBufferSize x S dropped).published + decodeSamples
      ∧ (Rx.run iqBufferSize x S dropped).published < (Rx.run iqBufferSize x S read).published
  offset : ∀ off, dropSampleOffset iqBufferSize (Rx.run iqBufferSize x S read).bufWriteIdx
      (Rx.run iqBufferSize x S dropped).bufWriteIdx = some off →
    off = (Rx.run iqBufferSize x S dropped).published
      - ((Rx.run iqBufferSize x S read).published - decodeSamples : Int)
  /-- Of a chunk the writer does not come round to while it is copied. -/
  sample : ∀ off, dropSampleOffset iqBufferSize (Rx.run iqBufferSize x S read).bufWriteIdx
      (Rx.run iqBufferSize x S dropped).bufWriteIdx = some off →
    ∀ (done : Nat) (copied : Nat → Nat), (∀ c, read ≤ copied c ∧ copied c ≤ done) →
      (Rx.run iqBufferSize x S done).begun
        ≤ (Rx.run iqBufferSize x S read).published + (iqBufferSize - decodeSamples) →
      (extractLast iqBufferSize (Rx.run iqBufferSize x S read).bufWriteIdx decodeSamples
        fun c => (Rx.run iqBufferSize x S (copied c)).iqBuffer c)[off.toNat]?
          = some (x (Rx.run iqBufferSize x S dropped).published)

/-- **Where drop offsets are exact.** For every run of the receiver, a drop recorded when `p` samples
were published and a window read when `T` were, less than a turn apart: the drop is placed in the
window if and only if the window contains it, and at its first sample, exactly when it is not the
case that the window starts at the drop and the index rested at the end of the buffer there. -/
theorem drop_offset_iff [Zero α] (x : Nat → α) (S : Schedule) (dropped read : Nat)
    (old : (Rx.run iqBufferSize x S read).published
      ≤ (Rx.run iqBufferSize x S dropped).published + iqBufferSize)
    (new : (Rx.run iqBufferSize x S dropped).published
      < (Rx.run iqBufferSize x S read).published + (iqBufferSize - decodeSamples)) :
    PlacedExactly x S dropped read ↔
      ¬((Rx.run iqBufferSize x S read).published
            = (Rx.run iqBufferSize x S dropped).published + decodeSamples
          ∧ 0 < (Rx.run iqBufferSize x S dropped).published
          ∧ iqBufferSize ∣ (Rx.run iqBufferSize x S dropped).published) := by
  have size := iqBufferSize_eq
  have window := decodeSamples_eq
  have offset := dropSampleOffset_eq_some_iff old new
  rw [← Rx.idx_run iqBufferSize_pos, ← Rx.idx_run iqBufferSize_pos] at offset
  constructor
  · rintro ⟨placed, -, -⟩ missed
    obtain ⟨off, found⟩ := placed.2 ⟨by omega, by omega⟩
    exact ((offset off).1 found).2 missed
  · intro kept
    constructor
    · constructor
      · rintro ⟨off, found⟩
        obtain ⟨⟨low, high, -⟩, -⟩ := (offset off).1 found
        exact ⟨low, high⟩
      · rintro ⟨low, high⟩
        exact ⟨_, (offset _).2 ⟨⟨low, high, rfl⟩, kept⟩⟩
    · intro off found
      obtain ⟨⟨-, -, rfl⟩, -⟩ := (offset off).1 found
      ring
    · intro off found done copied within slack
      obtain ⟨⟨low, high, rfl⟩, -⟩ := (offset off).1 found
      rw [extractLast_refines x S read done (by omega) (by omega) copied within slack,
        List.getElem?_map, List.getElem?_range (by omega), Option.map_some, ← sampleAt_nat x]
      congr 2
      omega

/-- The window read at the end of the schedule `caught` holds the drop at its start. -/
theorem drop_offset_iff_caught : PlacedExactly (fun p => (p + 1 : Int)) caught 0 3 := by
  have size := iqBufferSize_eq
  have window := decodeSamples_eq
  have start : (Rx.run iqBufferSize (fun p => (p + 1 : Int)) caught 0).published = 0 := rfl
  have published : (Rx.run iqBufferSize (fun p => (p + 1 : Int)) caught 3).published = 3 := by
    simp [Rx.run, caught, Rx.step, Rx.init, size]
  exact (drop_offset_iff _ caught 0 3 (by omega) (by omega)).2 (by omega)

/-- A full turn, a gap, and the samples of one window. -/
def fullTurn : Schedule where
  startTime := 1
  events t := ([.begin 1562500 1, .finish, .begin 1171875 2, .finish] : List RxEvent).getD t .idle

theorem fullTurn_published :
    (Rx.run iqBufferSize (fun p => (p + 1 : Int)) fullTurn 2).published = 1562500
      ∧ (Rx.run iqBufferSize (fun p => (p + 1 : Int)) fullTurn 4).published = 2734375 := by
  have size := iqBufferSize_eq
  constructor <;> simp [Rx.run, fullTurn, Rx.step, Rx.init, size]

/-- The drop behind the full turn is recorded, and its sample is the first of the window, which does
not find it. -/
theorem drop_offset_missed :
    (Rx.run iqBufferSize (fun p => (p + 1 : Int)) fullTurn 3).dropQueue
        = [(Rx.run iqBufferSize (fun p => (p + 1 : Int)) fullTurn 2).bufWriteIdx]
      ∧ (Rx.run iqBufferSize (fun p => (p + 1 : Int)) fullTurn 4).published
        = (Rx.run iqBufferSize (fun p => (p + 1 : Int)) fullTurn 2).published + decodeSamples
      ∧ dropSampleOffset iqBufferSize
        (Rx.run iqBufferSize (fun p => (p + 1 : Int)) fullTurn 4).bufWriteIdx
        (Rx.run iqBufferSize (fun p => (p + 1 : Int)) fullTurn 2).bufWriteIdx = none
      ∧ ¬PlacedExactly (fun p => (p + 1 : Int)) fullTurn 2 4 := by
  have size := iqBufferSize_eq
  have window := decodeSamples_eq
  obtain ⟨dropped, read⟩ := fullTurn_published
  have missed : dropSampleOffset iqBufferSize
      (Rx.run iqBufferSize (fun p => (p + 1 : Int)) fullTurn 4).bufWriteIdx
      (Rx.run iqBufferSize (fun p => (p + 1 : Int)) fullTurn 2).bufWriteIdx = none := by
    rw [Rx.idx_run iqBufferSize_pos, Rx.idx_run iqBufferSize_pos, dropped, read]
    decide +kernel
  refine ⟨?_, by omega, missed, ?_⟩
  · simp [Rx.run, fullTurn, Rx.step, Rx.begin, Rx.finish, Rx.noteGap, Rx.init, size]
    norm_num
  · intro exactly
    obtain ⟨off, found⟩ := exactly.placed.2 ⟨by omega, by omega⟩
    rw [missed] at found
    cases found

end StreamWeb.Processor

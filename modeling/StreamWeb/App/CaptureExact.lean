import StreamWeb.App.CaptureIq

/-!
# When a capture is the stream

An `Interleaving` lets one capture run against a receiver: when the index is
read and when each cell is copied. The cursor of a round is reduced modulo the
buffer size while the index rests at the size itself, so a round that starts
at cell 0 before anything further is published takes the full buffer for new
samples (`Starved`). While no round does, the writer's lead over the cursor
stays below a buffer (`AtChunk`) and the capture is the stream
(`captureLoop_right`); a round that does reads the samples of a turn before
(`starved_wrong`).
-/

namespace StreamWeb.Capture

open Ring Config

variable {α : Type} {size nSamples : Nat}

/-- When one capture reads the index and copies each cell. -/
structure Interleaving where
  schedule : Schedule
  readAt : Nat → Nat
  copiedAt : Nat → Nat → Nat
  within : ∀ r c, readAt r ≤ copiedAt r c ∧ copiedAt r c ≤ readAt (r + 1)

namespace Interleaving

variable [Zero α]

/-- The receiver at read `r`. -/
def rx (I : Interleaving) (size : Nat) (x : Nat → α) (r : Nat) : Rx α :=
  Rx.run size x I.schedule (I.readAt r)

def env (I : Interleaving) (size : Nat) (clock : Clock) (x : Nat → α) : Env α where
  clock := clock
  bufWriteIdx r := (I.rx size x r).bufWriteIdx
  iqBuffer r c := (Rx.run size x I.schedule (I.copiedAt r c)).iqBuffer c

/-- The writer advances by less than an eighth of the buffer between two
consecutive reads, a call in progress counted. -/
def Slow (I : Interleaving) (size : Nat) (x : Nat → α) : Prop :=
  ∀ r, 8 * ((I.rx size x (r + 1)).begun - (I.rx size x r).published) < size

end Interleaving

/-! ## The distance to the index -/

/-- The indices a call reads are the resting indices of the counts `P`, which
grow slowly. -/
structure Indices (size : Nat) (E : Env α) (P : Nat → Nat) : Prop where
  idx : ∀ r, E.bufWriteIdx r = rest size (P r)
  mono : ∀ r, P r ≤ P (r + 1)
  slow : ∀ r, 8 * (P (r + 1) - P r) < size

theorem Indices.sameControl {β : Type} {E : Env α} {F : Env β} {P : Nat → Nat}
    (hE : Indices size E P) (hF : Indices size F P) (clock : E.clock = F.clock) : SameControl E F := by
  refine ⟨clock, ?_⟩
  funext r
  rw [hE.idx, hF.idx]

/-- The stream position a round starts at. -/
def streamStart (P : Nat → Nat) (cur : Cursor) : Nat := P 0 + cur.filled

/-- Where a round starts in the ring: at the resting index at first, reduced
modulo the size later. -/
def Placed (size : Nat) (P : Nat → Nat) (cur : Cursor) : Prop :=
  cur.chunkStart = if cur.filled = 0 then rest size (P 0) else streamStart P cur % size

/-- A round after the first starts at cell 0 while the index still rests at the
end of the buffer. -/
def Starved (size nSamples : Nat) (E : Env α) (cur : Cursor) : Prop :=
  0 < cur.filled ∧ cur.filled < nSamples ∧ cur.chunkStart = 0 ∧ E.bufWriteIdx cur.reads = size

theorem Placed.le {P : Nat → Nat} {cur : Cursor} (hs : 0 < size) (h : Placed size P cur) :
    cur.chunkStart ≤ size := by
  rw [Placed] at h
  split at h
  · rw [h]
    exact rest_le hs _
  · rw [h]
    exact (Nat.mod_lt _ hs).le

theorem Placed.mod {P : Nat → Nat} {cur : Cursor} (h : Placed size P cur) :
    cur.chunkStart % size = streamStart P cur % size := by
  rw [Placed] at h
  split at h
  · rename_i first
    rw [h, rest_mod, streamStart, first, Nat.add_zero]
  · rw [h, Nat.mod_mod]

/-- Between resting indices less than a turn apart the distance is exact. -/
theorem samplesAdvanced_rest (hs : 0 < size) {S T : Nat} (le : S ≤ T) (lt : T < S + size) :
    samplesAdvanced (rest size S) (rest size T) size = T - S := by
  have rle := rest_le hs S
  have moved : rest size T = Rx.workIdx size (rest size S) (T - S) := by
    rw [Rx.workIdx_eq hs (by omega), Nat.add_sub_cancel' le]
  rw [moved, Rx.workIdx, samplesAdvanced]
  split <;> split <;> omega

/-- Of a placed cursor it is exact too, except that at cell 0 an index at rest
at the end counts as a turn. -/
theorem samplesAdvanced_placed (hs : 0 < size) {P : Nat → Nat} {cur : Cursor}
    (placed : Placed size P cur) {T : Nat} (le : streamStart P cur ≤ T)
    (lt : T < streamStart P cur + size)
    (moved : ¬(0 < cur.filled ∧ cur.chunkStart = 0 ∧ rest size T = size)) :
    samplesAdvanced cur.chunkStart (rest size T) size = T - streamStart P cur := by
  by_cases first : cur.filled = 0
  · have start : cur.chunkStart = rest size (streamStart P cur) := by
      rw [Placed, if_pos first] at placed
      rw [placed, streamStart, first, Nat.add_zero]
    rw [start]
    exact samplesAdvanced_rest hs le lt
  · rw [Placed, if_neg first] at placed
    by_cases zero : cur.chunkStart = 0
    · -- the index is past the end of the buffer, so the distance is the index
      have apart : streamStart P cur ≠ T := by
        rintro rfl
        refine moved ⟨by omega, zero, ?_⟩
        have pos : 0 < streamStart P cur := by
          unfold streamStart
          omega
        exact (rest_unique (le_refl size) pos hs (by rw [Nat.mod_self, ← placed, zero])).symm
      have rests : T - streamStart P cur = rest size T := by
        apply rest_unique (by omega) (by omega) (by omega)
        have turns : (streamStart P cur) % size = 0 := by rw [← placed, zero]
        conv_rhs => rw [show T = streamStart P cur + (T - streamStart P cur) by omega, Nat.add_mod, turns,
          Nat.zero_add, Nat.mod_mod]
      rw [zero, samplesAdvanced, if_pos (by omega), ← rests]
      omega
    · have start : cur.chunkStart = rest size (streamStart P cur) := by
        have := Nat.mod_lt (streamStart P cur) hs
        apply rest_unique (by omega) ?_ (by omega) (by rw [placed, Nat.mod_mod])
        unfold streamStart
        omega
      rw [start]
      exact samplesAdvanced_rest hs le lt

/-! ## The head of a round -/

/-- The invariant at the head of a round that can still be right: the index was
last read less than a quarter of the buffer past the round's start. -/
structure AtChunk (size nSamples : Nat) (P : Nat → Nat) (cur : Cursor) : Prop where
  filled_le : cur.filled ≤ nSamples
  placed : Placed size P cur
  reads_pos : 0 < cur.reads
  written : streamStart P cur ≤ P (cur.reads - 1)
  lag : cur.filled < nSamples → 4 * (P (cur.reads - 1) - streamStart P cur) < size

theorem atChunk_begin (hs : 0 < size) {E : Env α} {P : Nat → Nat} (h : Indices size E P) :
    AtChunk size nSamples P (begin E) where
  filled_le := Nat.zero_le _
  placed := by simp [Placed, begin, h.idx]
  reads_pos := by simp [begin]
  written := by simp [begin, streamStart]
  lag := by simp [begin, streamStart, hs]

section Round

variable {E : Env α} {P : Nat → Nat} {cur : Cursor}

theorem thisN_le (size : Nat) (more : cur.filled < nSamples) :
    2 * thisN size nSamples cur ≤ size ∧ thisN size nSamples cur ≤ nSamples - cur.filled ∧
      (thisN size nSamples cur < nSamples - cur.filled → thisN size nSamples cur = size / 2) := by
  unfold thisN
  omega

theorem thisN_pos (hs : 2 ≤ size) (more : cur.filled < nSamples) :
    0 < thisN size nSamples cur := by
  unfold thisN
  omega

/-- The slices of a round are the cells of its stream positions. -/
theorem window_placed (hs : 2 ≤ size) (placed : Placed size P cur) (more : cur.filled < nSamples)
    (mem : Nat → α) :
    window size cur.chunkStart ((cur.chunkStart + thisN size nSamples cur) % size) mem
      = (List.range (thisN size nSamples cur)).map fun i : Nat =>
          mem (cell size ((streamStart P cur : Int) + i)) := by
  have half := (thisN_le size more).1
  have pos := thisN_pos hs more
  have le := placed.le (by omega)
  rw [window_eq le pos (by omega) ?ends]
  case ends =>
    by_cases wraps : cur.chunkStart + thisN size nSamples cur < size
    · left
      rw [Nat.mod_eq_of_lt wraps]
      omega
    · right
      rw [Nat.mod_eq_sub_mod (by omega), Nat.mod_eq_of_lt (by omega)]
      omega
  apply List.map_congr_left
  intro i _
  have same : (cur.chunkStart + i) % size = cell size ((streamStart P cur : Int) + i) := by
    rw [← Nat.cast_add, cell_nat, Nat.add_mod, placed.mod, ← Nat.add_mod]
  rw [same]

/-- A round leaves the cursor at the position behind what it put out. -/
theorem Placed.round (placed : Placed size P cur) {n r : Nat} (pos : 0 < n) :
    Placed size P ⟨(cur.chunkStart + n) % size, cur.filled + n, r⟩ := by
  rw [Placed, if_neg (by show ¬cur.filled + n = 0; omega)]
  show _ = (P 0 + (cur.filled + n)) % size
  rw [Nat.add_mod, placed.mod, streamStart, ← Nat.add_mod, Nat.add_assoc]

/-- At every read of the round that shows less than a turn the distance is
exact: the one misleading reading is the one that starves the round. -/
theorem advanced_eq (hs : 0 < size) (h : Indices size E P) (head : AtChunk size nSamples P cur)
    (more : cur.filled < nSamples) (fed : ¬Starved size nSamples E cur) {q : Nat}
    (later : cur.reads ≤ q) (lt : P q < streamStart P cur + size) :
    samplesAdvanced cur.chunkStart (E.bufWriteIdx q) size = P q - streamStart P cur := by
  have mono := monotone_nat_of_le_succ h.mono
  have first : P (cur.reads - 1) ≤ P cur.reads := mono (by omega)
  have written := head.written
  have now : P cur.reads ≤ P q := mono later
  rw [h.idx]
  apply samplesAdvanced_placed hs head.placed (by omega) lt
  rintro ⟨pos, zero, full⟩
  apply fed
  refine ⟨pos, more, zero, ?_⟩
  -- a multiple of the size less than a turn past the start is the start itself
  have start : streamStart P cur % size = 0 := by rw [← head.placed.mod, zero, Nat.zero_mod]
  have stop : P q % size = 0 := by rw [← rest_mod, full, Nat.mod_self]
  have same : streamStart P cur = P q := by
    have div := (Nat.modEq_iff_dvd' (show streamStart P cur ≤ P q by omega)).1
      (show streamStart P cur % size = P q % size by rw [start, stop])
    by_contra differ
    have := Nat.le_of_dvd (by omega) div
    omega
  rw [h.idx, show P cur.reads = P q by omega, full]

/-- While the round waits the writer stays within its lead. -/
theorem wait_lead (hs : 0 < size) (h : Indices size E P) (head : AtChunk size nSamples P cur)
    (more : cur.filled < nSamples) (fed : ¬Starved size nSamples E cur) {r : Nat}
    (waits : ∀ q, cur.reads ≤ q → q < r →
      samplesAdvanced cur.chunkStart (E.bufWriteIdx q) size < thisN size nSamples cur) :
    ∀ q, cur.reads ≤ q → q ≤ r → 8 * (P q - streamStart P cur) < 3 * size ∨
      8 * (P q - streamStart P cur) < 8 * thisN size nSamples cur + size := by
  have half := (thisN_le size more).1
  intro q low
  induction q, low using Nat.le_induction with
  | base =>
    intro _
    left
    have lag := head.lag more
    have slow := h.slow (cur.reads - 1)
    rw [Nat.sub_add_cancel head.reads_pos] at slow
    omega
  | succ q low ih =>
    intro high
    right
    have lead := ih (by omega)
    have short := waits q low (by omega)
    rw [advanced_eq hs h head more fed low (by omega)] at short
    have slow := h.slow q
    omega

/-- **One round**: when it neither starves nor times out, it ends with a read
that shows its samples, less than a buffer past its start, passes its check,
and the next head is within its lead again. -/
theorem round_ok (hs : 2 ≤ size) (h : Indices size E P) (head : AtChunk size nSamples P cur)
    (more : cur.filled < nSamples) (fed : ¬Starved size nSamples E cur)
    (inTime : captureChunk size nSamples E cur ≠ .error timedOut) :
    ∃ r cur', captureChunk size nSamples E cur
        = .ok (cur', (List.range (thisN size nSamples cur)).map fun i : Nat =>
            E.iqBuffer r (cell size ((streamStart P cur : Int) + i))) ∧
      streamStart P cur + thisN size nSamples cur ≤ P r ∧
      8 * (P r - streamStart P cur) < 5 * size ∧
      streamStart P cur' = streamStart P cur + thisN size nSamples cur ∧
      AtChunk size nSamples P cur' := by
  have mono := monotone_nat_of_le_succ h.mono
  obtain ⟨half, inside, notLast⟩ := thisN_le size more
  have pos := thisN_pos hs more
  cases waited : waitLoop size E cur.chunkStart (thisN size nSamples cur)
      (E.clock.started cur.reads + patience (thisN size nSamples cur))
      (maxPolls (thisN size nSamples cur)) cur.reads with
  | none => exact absurd (captureChunk_none waited) inTime
  | some r =>
    obtain ⟨low, enough, waits⟩ := waitLoop_some waited
    have lead := wait_lead (by omega) h head more fed waits r low (le_refl r)
    rw [advanced_eq (by omega) h head more fed low (by omega)] at enough
    have slow := h.slow r
    have next := h.mono r
    have check : thisN size nSamples cur
        ≤ samplesAdvanced cur.chunkStart (E.bufWriteIdx (r + 1)) size := by
      rw [advanced_eq (by omega) h head more fed (by omega) (by omega)]
      omega
    rw [captureChunk_some waited check]
    refine ⟨r, ⟨(cur.chunkStart + thisN size nSamples cur) % size,
      cur.filled + thisN size nSamples cur, r + 2⟩, ?_, by omega, by omega, ?_, ?_⟩
    · rw [window_placed hs head.placed more]
    · exact (Nat.add_assoc _ _ _).symm
    · constructor
      · show cur.filled + thisN size nSamples cur ≤ nSamples
        omega
      · exact head.placed.round pos
      · show 0 < r + 2
        omega
      · show P 0 + (cur.filled + thisN size nSamples cur) ≤ P (r + 1)
        unfold streamStart at enough
        omega
      · intro more'
        show 4 * (P (r + 1) - (P 0 + (cur.filled + thisN size nSamples cur))) < size
        have full := notLast (by
          have : cur.filled + thisN size nSamples cur < nSamples := more'
          omega)
        unfold streamStart at lead enough
        omega

end Round

/-! ## The whole capture -/

section Whole

variable [Zero α] {I : Interleaving} {clock : Clock} {x : Nat → α}

/-- The samples published at each read. -/
def Interleaving.counts (I : Interleaving) (size : Nat) (x : Nat → α) (r : Nat) : Nat :=
  (I.rx size x r).published

theorem Interleaving.indices (hs : 0 < size) (clock : Clock) (slow : I.Slow size x) :
    Indices size (I.env size clock x) (I.counts size x) where
  idx r := Rx.idx_run hs I.schedule (I.readAt r)
  mono r := by
    obtain ⟨after, before⟩ := I.within r 0
    exact Rx.published_mono size x I.schedule (le_trans after before)
  slow r := by
    have step := slow r
    have := Rx.published_le_begun (I.rx size x (r + 1))
    show 8 * ((I.rx size x (r + 1)).published - (I.rx size x r).published) < size
    omega

/-- What a round copies after a read that shows its samples is the stream. -/
theorem copied_right (hs : 0 < size) (slow : I.Slow size x) {S n r : Nat}
    (shown : S + n ≤ I.counts size x r) (lead : 8 * (I.counts size x r - S) < 5 * size) :
    ((List.range n).map fun i : Nat => (I.env size clock x).iqBuffer r (cell size ((S : Int) + i)))
      = (List.range n).map fun i => x (S + i) := by
  apply List.map_congr_left
  intro i hi
  have bound : i < n := List.mem_range.1 hi
  obtain ⟨after, before⟩ := I.within r (cell size ((S : Int) + i))
  have step := slow r
  unfold Interleaving.counts Interleaving.rx at *
  show (Rx.run size x I.schedule (I.copiedAt r (cell size ((S : Int) + i)))).iqBuffer _ = _
  rw [Rx.read_run hs I.schedule after before (by omega) (by omega), ← Nat.cast_add, sampleAt_nat]

/-- **A capture that never starves is the stream**, from any head on. -/
theorem captureLoop_right (hs : 2 ≤ size) (slow : I.Slow size x)
    (fed : ∀ cur, Reached size nSamples (I.env size clock x) cur →
      ¬Starved size nSamples (I.env size clock x) cur) :
    ∀ {cur : Cursor}, Reached size nSamples (I.env size clock x) cur →
      AtChunk size nSamples (I.counts size x) cur →
      captureLoop size nSamples (I.env size clock x) cur ≠ .error timedOut →
      captureLoop size nSamples (I.env size clock x) cur
        = .ok ((List.range (nSamples - cur.filled)).map fun i =>
            x (streamStart (I.counts size x) cur + i)) := by
  have indices := I.indices (by omega : 0 < size) clock slow
  -- on what is left to fill
  suffices ∀ m cur, nSamples - cur.filled = m → Reached size nSamples (I.env size clock x) cur →
      AtChunk size nSamples (I.counts size x) cur →
      captureLoop size nSamples (I.env size clock x) cur ≠ .error timedOut →
      captureLoop size nSamples (I.env size clock x) cur
        = .ok ((List.range m).map fun i => x (streamStart (I.counts size x) cur + i)) from
    fun {cur} => this _ cur rfl
  intro m
  induction m using Nat.strong_induction_on with
  | _ m ih =>
    intro cur left reached head inTime
    by_cases more : cur.filled < nSamples
    · have inTime' : captureChunk size nSamples (I.env size clock x) cur ≠ .error timedOut :=
        fun failed => inTime (captureLoop_error hs more failed)
      obtain ⟨r, cur', step, shown, lead, start, head'⟩ :=
        round_ok hs indices head more (fed cur reached) inTime'
      rw [copied_right (by omega) slow shown lead] at step
      have pos := thisN_pos hs more
      have inside := (thisN_le size more).2.1
      have filled : cur'.filled = cur.filled + thisN size nSamples cur := captureChunk_filled step
      rw [captureLoop_ok hs more step] at inTime ⊢
      have rest := ih (m - thisN size nSamples cur) (by omega) cur' (by omega)
        (.round reached more step) head' (fun failed => inTime (by rw [failed]; rfl))
      rw [rest, start]
      have split : m = thisN size nSamples cur + (m - thisN size nSamples cur) := by omega
      conv_rhs => rw [split, List.range_add, List.map_append, List.map_map]
      simp [Except.map, Function.comp_def, Nat.add_assoc]
    · rw [captureLoop_end more]
      have none_left : m = 0 := by omega
      rw [none_left]
      rfl

end Whole

/-! ## A round that starves -/

section Reach

variable {E : Env α} {P : Nat → Nat} {cur : Cursor}

/-- The cursor of a round is placed, however far the writer runs. -/
theorem reached_placed (hs : 2 ≤ size) (first : E.bufWriteIdx 0 = rest size (P 0))
    (reached : Reached size nSamples E cur) : Placed size P cur := by
  induction reached with
  | start => simp [Placed, begin, first]
  | round _ more step ih =>
    obtain ⟨r, -, rfl, -⟩ := captureChunk_inv step
    exact ih.round (thisN_pos hs more)

/-- The first head out of its lead comes after a round that starved. -/
theorem reached_head (hs : 2 ≤ size) (h : Indices size E P) (reached : Reached size nSamples E cur) :
    AtChunk size nSamples P cur ∨
      ∃ cur₀, Reached size nSamples E cur₀ ∧ AtChunk size nSamples P cur₀ ∧
        Starved size nSamples E cur₀ := by
  induction reached with
  | start => exact .inl (atChunk_begin (by omega) h)
  | @round cur cur' piece here more step ih =>
    rcases ih with head | before
    · by_cases starved : Starved size nSamples E cur
      · exact .inr ⟨cur, here, head, starved⟩
      · have inTime : captureChunk size nSamples E cur ≠ .error timedOut := by simp [step]
        obtain ⟨r, cur'', step', -, -, -, head'⟩ := round_ok hs h head more starved inTime
        cases step.symm.trans step'
        exact .inl head'
    · exact .inr before

/-- What is put out from a head on stands in the segment behind what was filled. -/
theorem reached_segment (hs : 2 ≤ size) (h : Indices size E P) {seg : List α}
    (result : captureIq size nSamples E = .ok seg) (reached : Reached size nSamples E cur) :
    ∃ front back, captureLoop size nSamples E cur = .ok back ∧ seg = front ++ back ∧
      front.length = cur.filled := by
  induction reached with
  | start => exact ⟨[], seg, result, rfl, rfl⟩
  | @round cur cur' piece here more step ih =>
    obtain ⟨front, back, loop, rfl, len⟩ := ih
    rw [captureLoop_ok hs more step] at loop
    cases next : captureLoop size nSamples E cur' with
    | error err =>
      rw [next] at loop
      cases loop
    | ok back' =>
      rw [next] at loop
      cases loop
      obtain ⟨r, -, rfl, rfl⟩ := captureChunk_inv step
      refine ⟨front ++ window size cur.chunkStart
        ((cur.chunkStart + thisN size nSamples cur) % size) (E.iqBuffer r), back', rfl, by simp, ?_⟩
      rw [window_placed hs (reached_placed hs (h.idx 0) here) more]
      simp [len]

/-- At a starved head the writer has published exactly up to the round's start. -/
theorem starved_start (h : Indices size E P) (head : AtChunk size nSamples P cur)
    (starved : Starved size nSamples E cur) :
    P cur.reads = streamStart P cur ∧ streamStart P cur % size = 0 ∧ size ≤ streamStart P cur := by
  obtain ⟨pos, more, zero, full⟩ := starved
  have start : streamStart P cur % size = 0 := by rw [← head.placed.mod, zero, Nat.zero_mod]
  have later : 0 < streamStart P cur := by
    unfold streamStart
    omega
  have stop : P cur.reads % size = 0 := by rw [← rest_mod, ← h.idx, full, Nat.mod_self]
  have lag := head.lag more
  have written := head.written
  have slow := h.slow (cur.reads - 1)
  have next := h.mono (cur.reads - 1)
  rw [Nat.sub_add_cancel head.reads_pos] at slow next
  have div := (Nat.modEq_iff_dvd' (show streamStart P cur ≤ P cur.reads by omega)).1
    (show streamStart P cur % size = P cur.reads % size by rw [start, stop])
  refine ⟨?_, start, Nat.le_of_dvd later (Nat.dvd_of_mod_eq_zero start)⟩
  by_contra differ
  have := Nat.le_of_dvd (by omega) div
  omega

end Reach

/-! ## An interleaving with given counts -/

/-- A writer whose call `j` brings the count from `Q j` to `Q (j + 1)`. -/
def writerOf (Q : Nat → Nat) : Schedule where
  startTime := 0
  events t := if t % 2 = 0 then .begin (Q (t / 2 + 1) - Q (t / 2)) 0 else .finish

theorem run_writerOf [Zero α] {Q : Nat → Nat} (zero : Q 0 = 0) (mono : ∀ j, Q j ≤ Q (j + 1))
    (le : ∀ j, Q (j + 1) - Q j ≤ size) (x : Nat → α) (j : Nat) :
    (Rx.run size x (writerOf Q) (2 * j)).published = Q j ∧
      (Rx.run size x (writerOf Q) (2 * j)).busy = 0 := by
  induction j with
  | zero => exact ⟨zero.symm, rfl⟩
  | succ j ih =>
    obtain ⟨published, busy⟩ := ih
    have even : (writerOf Q).events (2 * j) = .begin (Q (j + 1) - Q j) 0 := by
      simp [writerOf]
    have odd : (writerOf Q).events (2 * j + 1) = .finish := by
      simp [writerOf]
    have step := mono j
    have bound := le j
    rw [show 2 * (j + 1) = 2 * j + 1 + 1 by omega]
    simp only [Rx.run, even, odd, Rx.step, Rx.finish_published, Rx.begin_published, Rx.begin_busy,
      Rx.finish_busy, published, busy, true_and, and_true]
    split <;> omega

/-- The counts up to a first read that shows `P 0`, sample by sample, and then `P`. -/
def countsTo (P : Nat → Nat) (j : Nat) : Nat := if j < P 0 then j else P (j - P 0)

/-- A capture that reads the counts `P` and copies every cell right after the
read in front of the copy. -/
def Interleaving.ofReadings (P : Nat → Nat) : Interleaving where
  schedule := writerOf (countsTo P)
  readAt r := 2 * (P 0 + r)
  copiedAt r _ := 2 * (P 0 + r)
  within r _ := by omega

section Readings

variable {P : Nat → Nat} (hs : 2 ≤ size) (mono : ∀ r, P r ≤ P (r + 1))
  (slow : ∀ r, 8 * (P (r + 1) - P r) < size)

include hs mono slow in
theorem rx_ofReadings [Zero α] (x : Nat → α) (r : Nat) :
    ((Interleaving.ofReadings P).rx size x r).published = P r ∧
      ((Interleaving.ofReadings P).rx size x r).busy = 0 := by
  have moved : ∀ j, countsTo P j ≤ countsTo P (j + 1) ∧ countsTo P (j + 1) - countsTo P j ≤ size := by
    intro j
    unfold countsTo
    by_cases before : j + 1 < P 0
    · rw [if_pos (by omega), if_pos before]
      omega
    · by_cases last : j < P 0
      · rw [if_pos last, if_neg before, show j + 1 - P 0 = 0 by omega]
        omega
      · rw [if_neg last, if_neg before, show j + 1 - P 0 = j - P 0 + 1 by omega]
        have := mono (j - P 0)
        have := slow (j - P 0)
        omega
  have zero : countsTo P 0 = 0 := by
    unfold countsTo
    split
    · rfl
    · rw [Nat.zero_sub]
      omega
  have here : countsTo P (P 0 + r) = P r := by
    rw [countsTo, if_neg (by omega), Nat.add_sub_cancel_left]
  have run := run_writerOf zero (fun j => (moved j).1) (fun j => (moved j).2) x (P 0 + r)
  rwa [here] at run

include hs mono slow in
theorem counts_ofReadings [Zero α] (x : Nat → α) :
    (Interleaving.ofReadings P).counts size x = P := by
  funext r
  exact (rx_ofReadings hs mono slow x r).1

include hs mono slow in
theorem slow_ofReadings [Zero α] (x : Nat → α) : (Interleaving.ofReadings P).Slow size x := by
  intro r
  obtain ⟨now, -⟩ := rx_ofReadings hs mono slow x r
  obtain ⟨next, busy⟩ := rx_ofReadings hs mono slow x (r + 1)
  rw [Rx.begun, now, next, busy]
  exact slow r

/-- Every sample differs from every other and from the zeros of an empty buffer. -/
def stamp (p : Nat) : Sample := ⟨p + 1, 0⟩

include hs mono slow in
/-- **A starved round reads the turn before**: its first sample is one
bufferful old. -/
theorem starved_wrong {clock : Clock} {cur : Cursor}
    (reached : Reached size nSamples ((Interleaving.ofReadings P).env size clock stamp) cur)
    (starved : Starved size nSamples ((Interleaving.ofReadings P).env size clock stamp) cur) :
    captureIq size nSamples ((Interleaving.ofReadings P).env size clock stamp)
      ≠ .ok ((List.range nSamples).map fun i => stamp (P 0 + i)) := by
  have pos : 0 < size := by omega
  have indices := (Interleaving.ofReadings P).indices pos clock (slow_ofReadings hs mono slow stamp)
  rw [counts_ofReadings hs mono slow] at indices
  -- the first head that starves, so that its start is known
  obtain ⟨cur, reached, head, starved⟩ :
      ∃ cur₀, Reached size nSamples ((Interleaving.ofReadings P).env size clock stamp) cur₀ ∧
        AtChunk size nSamples P cur₀ ∧
        Starved size nSamples ((Interleaving.ofReadings P).env size clock stamp) cur₀ := by
    rcases reached_head hs indices reached with head | before
    · exact ⟨cur, reached, head, starved⟩
    · exact before
  obtain ⟨now, start, turn⟩ := starved_start indices head starved
  obtain ⟨-, more, zero, full⟩ := starved
  intro result
  obtain ⟨front, back, loop, seg, len⟩ := reached_segment hs indices result reached
  obtain ⟨⟨cur', piece⟩, step⟩ : ∃ step, captureChunk size nSamples
      ((Interleaving.ofReadings P).env size clock stamp) cur = .ok step := by
    cases step : captureChunk size nSamples ((Interleaving.ofReadings P).env size clock stamp) cur with
    | error err =>
      rw [captureLoop_error hs more step] at loop
      cases loop
    | ok result => exact ⟨result, rfl⟩
  obtain ⟨r, waited, -, piece_eq⟩ := captureChunk_inv step
  have half := (thisN_le size more).1
  have some_left := thisN_pos hs more
  rw [waitLoop_done (by rw [zero, full, samplesAdvanced, if_pos (Nat.zero_le _)]; omega)] at waited
  cases waited
  rw [window_placed hs head.placed more] at piece_eq
  -- the cell of the round's first sample at the moment it is copied
  have old : ((Interleaving.ofReadings P).env size clock stamp).iqBuffer cur.reads
      (cell size ((streamStart P cur : Int) + (0 : Nat))) = stamp (streamStart P cur - size) := by
    obtain ⟨published, busy⟩ := rx_ofReadings hs mono slow stamp cur.reads
    have held := Rx.held_run (x := stamp) pos (Interleaving.ofReadings P).schedule
      ((Interleaving.ofReadings P).readAt cur.reads) (streamStart P cur - size : Nat)
    unfold Interleaving.rx at published busy
    rw [Rx.begun, published, busy, now] at held
    rw [← sampleAt_nat stamp, ← held (by omega) (by omega)]
    show (Rx.run size stamp _ _).iqBuffer _ = _
    congr 1
    rw [Nat.cast_zero, add_zero, Nat.cast_sub turn, cell_sub_size]
  have first : (front ++ back)[cur.filled]? = some (stamp (streamStart P cur - size)) := by
    rw [captureLoop_ok hs more step] at loop
    cases next : captureLoop size nSamples ((Interleaving.ofReadings P).env size clock stamp) cur' with
    | error err =>
      rw [next] at loop
      cases loop
    | ok back' =>
      rw [next] at loop
      cases loop
      rw [← len, List.getElem?_append_right (le_refl _), Nat.sub_self, piece_eq,
        List.getElem?_append_left (by simpa using some_left), List.getElem?_map,
        List.getElem?_range some_left, Option.map_some, old]
  rw [← seg, List.getElem?_map, List.getElem?_range more, Option.map_some] at first
  simp only [Option.some.injEq, stamp, Sample.mk.injEq, and_true, add_left_inj, Nat.cast_inj] at first
  unfold streamStart at *
  omega

end Readings

theorem two_le_iqBufferSize : 2 ≤ iqBufferSize := by
  rw [iqBufferSize_eq]
  omega

/-! ## Rounds on a stopped clock -/

/-- No time passes between the readings of the clock. -/
def still : Clock := ⟨fun _ => 0, fun _ => 0⟩

theorem patience_ge (n : Nat) : 5 ≤ patience n := by
  have seconds : (0 : ℚ) ≤ n / sampleRate := by positivity
  unfold patience
  linarith

theorem maxPolls_ge (n : Nat) : 100 ≤ maxPolls n := by
  have floor : 100 ≤ ⌊20 * patience n⌋₊ := by
    apply Nat.le_floor
    have := patience_ge n
    push_cast
    linarith
  unfold maxPolls
  omega

section Example

variable {P : Nat → Nat} (mono : ∀ r, P r ≤ P (r + 1))
  (slow : ∀ r, 8 * (P (r + 1) - P r) < iqBufferSize)

include mono slow in
theorem indices_ofReadings :
    Indices iqBufferSize ((Interleaving.ofReadings P).env iqBufferSize still stamp) P := by
  have hs := two_le_iqBufferSize
  have indices := (Interleaving.ofReadings P).indices (by omega) still (slow_ofReadings hs mono slow stamp)
  rwa [counts_ofReadings hs mono slow] at indices

include mono slow in
/-- A round of `m` samples on the stopped clock whose wait is over after `k`
more reads. -/
theorem round_still (n start filled reads m k : Nat)
    (count : thisN iqBufferSize n ⟨start, filled, reads⟩ = m) (few : k ≤ 100)
    (waits : ∀ q, reads ≤ q → q < reads + k →
      samplesAdvanced start (rest iqBufferSize (P q)) iqBufferSize < m)
    (done : m ≤ samplesAdvanced start (rest iqBufferSize (P (reads + k))) iqBufferSize)
    (check : m ≤ samplesAdvanced start (rest iqBufferSize (P (reads + k + 1))) iqBufferSize) :
    ∃ piece, captureChunk iqBufferSize n ((Interleaving.ofReadings P).env iqBufferSize still stamp)
        ⟨start, filled, reads⟩
      = .ok (⟨(start + m) % iqBufferSize, filled + m, reads + k + 2⟩, piece) := by
  subst count
  have indices := indices_ofReadings mono slow
  refine ⟨_, captureChunk_some (waitLoop_reach (le_trans few (maxPolls_ge _)) ?_ ?_) ?_⟩
  · intro q low high
    rw [indices.idx]
    have early : (0 : ℚ) ≤ 0 + patience (thisN iqBufferSize n ⟨start, filled, reads⟩) := by
      have := patience_ge (thisN iqBufferSize n ⟨start, filled, reads⟩)
      linarith
    exact ⟨waits q low high, early⟩
  · rw [indices.idx]
    exact done
  · rw [indices.idx]
    exact check

end Example

/-! ## The exact condition -/

/-- **When a capture is exact.** Take what an interleaving that never times out
reads of the index and the clock. Every interleaving with these readings, of
every stream, captures exactly the samples behind the index at the call, if
and only if no round of it starves. -/
theorem captureIq_exact_iff (I : Interleaving) (clock : Clock) (x : Nat → Sample) (n : Nat)
    (slow : I.Slow iqBufferSize x)
    (inTime : captureIq iqBufferSize n (I.env iqBufferSize clock x) ≠ .error timedOut) :
    (∀ (J : Interleaving) (y : Nat → Sample), J.Slow iqBufferSize y →
      J.counts iqBufferSize y = I.counts iqBufferSize x →
      captureIq iqBufferSize n (J.env iqBufferSize clock y)
        = .ok ((List.range n).map fun i => y (J.counts iqBufferSize y 0 + i))) ↔
    ∀ cur, Reached iqBufferSize n (I.env iqBufferSize clock x) cur →
      ¬Starved iqBufferSize n (I.env iqBufferSize clock x) cur := by
  have hs := two_le_iqBufferSize
  have indices := I.indices (by omega) clock slow
  constructor
  · intro right cur reached starved
    have mono := indices.mono
    have steps := indices.slow
    have counts := counts_ofReadings hs mono steps stamp
    have slow' := slow_ofReadings hs mono steps stamp
    have indices' := (Interleaving.ofReadings (I.counts iqBufferSize x)).indices (by omega) clock slow'
    rw [counts] at indices'
    have same := indices.sameControl indices' rfl
    have result := right _ stamp slow' counts
    rw [counts] at result
    refine starved_wrong hs mono steps (reached_congr same reached) ?_ result
    rw [Starved, ← same.2]
    exact starved
  · intro fed J y slow' counts
    have indices' := J.indices (by omega) clock slow'
    rw [counts] at indices'
    have same := indices'.sameControl indices rfl
    have fed' : ∀ cur, Reached iqBufferSize n (J.env iqBufferSize clock y) cur →
        ¬Starved iqBufferSize n (J.env iqBufferSize clock y) cur := by
      intro cur reached starved
      apply fed cur (reached_congr same reached)
      rw [Starved, ← same.2]
      exact starved
    apply captureLoop_right hs slow' fed' .start (atChunk_begin (by omega) (J.indices (by omega) clock slow'))
    intro failed
    apply inTime
    have start : begin (J.env iqBufferSize clock y) = begin (I.env iqBufferSize clock x) := by
      simp only [begin, same.2]
    rw [start] at failed
    exact captureLoop_congr hs same _ _ rfl failed

/-- A writer that publishes a tenth of the buffer between two reads. -/
def steadily (r : Nat) : Nat := 156250 * (5 + r)

/-- A capture of one bufferful from the middle of the buffer, in two rounds: the
second one starts at cell 0, and the index has left the end. -/
theorem captureIq_exact_two :
    captureIq iqBufferSize 1562500 ((Interleaving.ofReadings steadily).env iqBufferSize still stamp)
      = .ok ((List.range 1562500).map fun i => stamp (781250 + i)) := by
  have size := iqBufferSize_eq
  have hs := two_le_iqBufferSize
  have mono : ∀ r, steadily r ≤ steadily (r + 1) := by
    intro r
    unfold steadily
    omega
  have slow : ∀ r, 8 * (steadily (r + 1) - steadily r) < iqBufferSize := by
    intro r
    unfold steadily
    omega
  have counts := counts_ofReadings hs mono slow stamp
  have slow' := slow_ofReadings hs mono slow stamp
  have indices := indices_ofReadings mono slow
  have start : begin ((Interleaving.ofReadings steadily).env iqBufferSize still stamp) = ⟨781250, 0, 1⟩ := by
    rw [begin, indices.idx, size]
    simp [rest, steadily]
  have first_turn : ∀ r, r ≤ 5 → rest iqBufferSize (steadily r) = steadily r := by
    intro r early
    unfold steadily rest
    rw [size]
    split <;> omega
  have second_turn : ∀ r, 5 < r → r ≤ 15 → rest iqBufferSize (steadily r) = 156250 * (r - 5) := by
    intro r late early
    unfold steadily rest
    rw [size]
    split <;> omega
  obtain ⟨piece₁, first⟩ := round_still mono slow 1562500 781250 0 1 781250 4
    (by simp [thisN, size]) (by omega)
    (by
      intro q low high
      rw [first_turn q (by omega), samplesAdvanced, steadily]
      split <;> omega)
    (by rw [first_turn _ (by omega), samplesAdvanced, steadily]; split <;> omega)
    (by rw [second_turn _ (by omega) (by omega), samplesAdvanced, size]; split <;> omega)
  obtain ⟨piece₂, second⟩ := round_still mono slow 1562500 0 781250 7 781250 3
    (by simp [thisN, size]) (by omega)
    (by
      intro q low high
      rw [second_turn q (by omega) (by omega), samplesAdvanced]
      split <;> omega)
    (by rw [second_turn _ (by omega) (by omega), samplesAdvanced]; split <;> omega)
    (by rw [second_turn _ (by omega) (by omega), samplesAdvanced]; split <;> omega)
  have wraps : (781250 + 781250) % iqBufferSize = 0 := by
    rw [size]
  rw [wraps] at first
  have inTime : captureIq iqBufferSize 1562500
      ((Interleaving.ofReadings steadily).env iqBufferSize still stamp) ≠ .error timedOut := by
    rw [captureIq, start, captureLoop_ok hs (by simp) first, captureLoop_ok hs (by simp) second,
      captureLoop_end (by simp)]
    simp [Except.map]
  have heads : ∀ cur, Reached iqBufferSize 1562500
      ((Interleaving.ofReadings steadily).env iqBufferSize still stamp) cur →
      cur = ⟨781250, 0, 1⟩ ∨ cur = ⟨0, 781250, 7⟩ ∨ cur.filled = 1562500 := by
    intro cur reached
    induction reached with
    | start => exact .inl start
    | round here more step ih =>
      rcases ih with rfl | rfl | full
      · rw [first] at step
        cases step
        exact .inr (.inl rfl)
      · rw [second] at step
        cases step
        exact .inr (.inr rfl)
      · omega
  have fed : ∀ cur, Reached iqBufferSize 1562500
      ((Interleaving.ofReadings steadily).env iqBufferSize still stamp) cur →
      ¬Starved iqBufferSize 1562500 ((Interleaving.ofReadings steadily).env iqBufferSize still stamp) cur := by
    rintro cur reached ⟨filled, more, -, at_end⟩
    rcases heads cur reached with rfl | rfl | full
    · cases filled
    · rw [indices.idx, second_turn 7 (by omega) (by omega)] at at_end
      omega
    · omega
  have right := (captureIq_exact_iff (Interleaving.ofReadings steadily) still stamp 1562500 slow' inTime).2 fed
    _ stamp slow' rfl
  rw [right, counts]
  rfl

/-- A writer that publishes a tenth of the buffer between two reads, and stops
at the end of the buffer. -/
def tenths (r : Nat) : Nat := 156250 * min (5 + r) 10

/-- A capture of one bufferful from the middle of the buffer: its second round
starts at cell 0 with the index at rest at the end, and puts old samples into
the segment. -/
theorem captureIq_stale :
    (Interleaving.ofReadings tenths).Slow iqBufferSize stamp ∧
      (Interleaving.ofReadings tenths).counts iqBufferSize stamp 0 = 781250 ∧
      captureIq iqBufferSize 1562500 ((Interleaving.ofReadings tenths).env iqBufferSize still stamp)
        ≠ .error timedOut ∧
      captureIq iqBufferSize 1562500 ((Interleaving.ofReadings tenths).env iqBufferSize still stamp)
        ≠ .ok ((List.range 1562500).map fun i => stamp (781250 + i)) := by
  have size := iqBufferSize_eq
  have hs := two_le_iqBufferSize
  have mono : ∀ r, tenths r ≤ tenths (r + 1) := by
    intro r
    unfold tenths
    omega
  have slow : ∀ r, 8 * (tenths (r + 1) - tenths r) < iqBufferSize := by
    intro r
    unfold tenths
    omega
  have counts := counts_ofReadings hs mono slow stamp
  have slow' := slow_ofReadings hs mono slow stamp
  have indices := indices_ofReadings mono slow
  have start : begin ((Interleaving.ofReadings tenths).env iqBufferSize still stamp) = ⟨781250, 0, 1⟩ := by
    rw [begin, indices.idx, size]
    simp [rest, tenths]
  have full : ∀ r, 5 ≤ r → rest iqBufferSize (tenths r) = iqBufferSize := by
    intro r late
    have stop : tenths r = iqBufferSize := by
      unfold tenths
      omega
    rw [stop, rest, if_neg (by omega), Nat.mod_eq_of_lt (by omega)]
    omega
  have early : ∀ r, r ≤ 4 → rest iqBufferSize (tenths r) = tenths r := by
    intro r early
    unfold tenths
    rw [rest, if_neg (by omega), Nat.mod_eq_of_lt (by omega)]
    omega
  obtain ⟨piece₁, first⟩ := round_still mono slow 1562500 781250 0 1 781250 4
    (by simp [thisN, size]) (by omega)
    (by
      intro q low high
      rw [early q (by omega), samplesAdvanced, tenths]
      split <;> omega)
    (by rw [full _ (by omega), samplesAdvanced, if_pos (by omega)]; omega)
    (by rw [full _ (by omega), samplesAdvanced, if_pos (by omega)]; omega)
  obtain ⟨piece₂, second⟩ := round_still mono slow 1562500 0 781250 7 781250 0
    (by simp [thisN, size]) (by omega) (by intro q; omega)
    (by rw [full _ (by omega), samplesAdvanced, if_pos (by omega)]; omega)
    (by rw [full _ (by omega), samplesAdvanced, if_pos (by omega)]; omega)
  have wraps : (781250 + 781250) % iqBufferSize = 0 := by
    rw [size]
  rw [wraps] at first
  refine ⟨slow', by rw [counts]; rfl, ?_, ?_⟩
  · rw [captureIq, start, captureLoop_ok hs (by simp) first, captureLoop_ok hs (by simp) second,
      captureLoop_end (by simp)]
    simp [Except.map]
  · apply starved_wrong hs mono slow (.round .start ?_ (start.symm ▸ first))
    · refine ⟨by simp, by simp, rfl, ?_⟩
      rw [indices.idx]
      exact full _ (by simp)
    · simp [start]

end StreamWeb.Capture

import StreamWeb.Rx.Invariant

/-!
# Forward capture out of the ring buffer

`_capture_iq` copies the next samples of the stream while the receiver keeps
writing: half a buffer at a time, each time waiting until the write index has
moved far enough and checking after the copy that the writer has not come
round. `Env` is everything the call reads, indexed by its reads of
`buf_write_idx`; `Reached` are the cursors its loop is at, which depend on the
indices and clock only (`reached_congr`).
-/

namespace StreamWeb.Capture

open Ring

/-- `CaptureError`. -/
structure CaptureError where
  message : String
  status : Nat
  deriving DecidableEq

def timedOut : CaptureError := ⟨"Timed out waiting for IQ samples from SDR", 504⟩

def overran : CaptureError :=
  ⟨"SDR overran the capture buffer (host too slow); capture aborted", 500⟩

/-- `_samples_advanced`. -/
def samplesAdvanced (start stop bufSize : Nat) : Nat :=
  if start ≤ stop then stop - start else bufSize - start + stop

/-- `time.monotonic()`: when a chunk's deadline is set in front of read `r` of
the index, and when it is compared with the deadline after read `r`. -/
structure Clock where
  started : Nat → ℚ
  polled : Nat → ℚ

/-- What a call reads of the shared state: the index at its read `r`, and cell
`c` as it is when it is copied between the reads `r` and `r + 1`. -/
structure Env (α : Type) where
  clock : Clock
  bufWriteIdx : Nat → Nat
  iqBuffer : Nat → Nat → α

variable {α : Type}

/-- `while _samples_advanced(…) < this_n`, from read `r` on; `polls` bounds the
sleeps. The result is the read that ends the wait. -/
def waitLoop (bufSize : Nat) (E : Env α) (chunkStart thisN : Nat) (deadline : ℚ) :
    (polls r : Nat) → Option Nat
  | 0, r => if samplesAdvanced chunkStart (E.bufWriteIdx r) bufSize < thisN then none else some r
  | polls + 1, r =>
    if samplesAdvanced chunkStart (E.bufWriteIdx r) bufSize < thisN then
      if deadline < E.clock.polled r then none
      else waitLoop bufSize E chunkStart thisN deadline polls (r + 1)
    else some r

/-- The seconds a chunk may take. -/
def patience (thisN : Nat) : ℚ := thisN / Config.sampleRate + 5

/-- No more sleeps of 0.05 s than this fit in front of the deadline. -/
def maxPolls (thisN : Nat) : Nat := ⌊20 * patience thisN⌋₊ + 1

/-- The loop's variables at the head of a round; `reads` counts the reads of
the index so far. -/
structure Cursor where
  chunkStart : Nat
  filled : Nat
  reads : Nat

def begin (E : Env α) : Cursor := ⟨E.bufWriteIdx 0, 0, 1⟩

def thisN (bufSize nSamples : Nat) (cur : Cursor) : Nat := min (bufSize / 2) (nSamples - cur.filled)

/-- One round: the cursor behind it and what it puts into the segment. -/
def captureChunk (bufSize nSamples : Nat) (E : Env α) (cur : Cursor) :
    Except CaptureError (Cursor × List α) :=
  let n := thisN bufSize nSamples cur
  let deadline := E.clock.started cur.reads + patience n
  match waitLoop bufSize E cur.chunkStart n deadline (maxPolls n) cur.reads with
  | none => .error timedOut
  | some r =>
    let e := (cur.chunkStart + n) % bufSize
    let piece :=
      if cur.chunkStart < e then slice (E.iqBuffer r) cur.chunkStart e
      else slice (E.iqBuffer r) cur.chunkStart bufSize ++ slice (E.iqBuffer r) 0 e
    if samplesAdvanced cur.chunkStart (E.bufWriteIdx (r + 1)) bufSize < n then .error overran
    else .ok (⟨e, cur.filled + n, r + 2⟩, piece)

theorem captureChunk_none {bufSize nSamples : Nat} {E : Env α} {cur : Cursor}
    (h : waitLoop bufSize E cur.chunkStart (thisN bufSize nSamples cur)
      (E.clock.started cur.reads + patience (thisN bufSize nSamples cur))
      (maxPolls (thisN bufSize nSamples cur)) cur.reads = none) :
    captureChunk bufSize nSamples E cur = .error timedOut := by
  simp only [captureChunk, h]

/-- A round whose wait ends at read `r` and whose check passes. -/
theorem captureChunk_some {bufSize nSamples : Nat} {E : Env α} {cur : Cursor} {r : Nat}
    (h : waitLoop bufSize E cur.chunkStart (thisN bufSize nSamples cur)
      (E.clock.started cur.reads + patience (thisN bufSize nSamples cur))
      (maxPolls (thisN bufSize nSamples cur)) cur.reads = some r)
    (check : thisN bufSize nSamples cur
      ≤ samplesAdvanced cur.chunkStart (E.bufWriteIdx (r + 1)) bufSize) :
    captureChunk bufSize nSamples E cur
      = .ok (⟨(cur.chunkStart + thisN bufSize nSamples cur) % bufSize,
          cur.filled + thisN bufSize nSamples cur, r + 2⟩,
        window bufSize cur.chunkStart ((cur.chunkStart + thisN bufSize nSamples cur) % bufSize)
          (E.iqBuffer r)) := by
  simp only [captureChunk, h, if_neg (Nat.not_lt.2 check)]
  rfl

/-- Every round that ends is of that form. -/
theorem captureChunk_inv {bufSize nSamples : Nat} {E : Env α} {cur cur' : Cursor} {piece : List α}
    (h : captureChunk bufSize nSamples E cur = .ok (cur', piece)) :
    ∃ r, waitLoop bufSize E cur.chunkStart (thisN bufSize nSamples cur)
        (E.clock.started cur.reads + patience (thisN bufSize nSamples cur))
        (maxPolls (thisN bufSize nSamples cur)) cur.reads = some r ∧
      cur' = ⟨(cur.chunkStart + thisN bufSize nSamples cur) % bufSize,
        cur.filled + thisN bufSize nSamples cur, r + 2⟩ ∧
      piece = window bufSize cur.chunkStart
        ((cur.chunkStart + thisN bufSize nSamples cur) % bufSize) (E.iqBuffer r) := by
  unfold captureChunk at h
  simp only at h
  split at h
  · cases h
  · rename_i r waited
    split at h
    · cases h
    · cases h
      exact ⟨r, waited, rfl, rfl⟩

theorem captureChunk_filled {bufSize nSamples : Nat} {E : Env α} {cur cur' : Cursor} {piece : List α}
    (h : captureChunk bufSize nSamples E cur = .ok (cur', piece)) :
    cur'.filled = cur.filled + thisN bufSize nSamples cur := by
  obtain ⟨r, -, rfl, -⟩ := captureChunk_inv h
  rfl

/-- `while filled < n_samples`. A buffer of fewer than two cells has no half
and is not captured from. -/
def captureLoop (bufSize nSamples : Nat) (E : Env α) (cur : Cursor) : Except CaptureError (List α) :=
  if _more : cur.filled < nSamples ∧ 2 ≤ bufSize then
    match h : captureChunk bufSize nSamples E cur with
    | .error e => .error e
    | .ok (cur', piece) =>
      have : cur'.filled = cur.filled + min (bufSize / 2) (nSamples - cur.filled) :=
        captureChunk_filled h
      (captureLoop bufSize nSamples E cur').map (piece ++ ·)
  else .ok []
termination_by nSamples - cur.filled

theorem captureLoop_end {bufSize nSamples : Nat} {E : Env α} {cur : Cursor}
    (full : ¬cur.filled < nSamples) : captureLoop bufSize nSamples E cur = .ok [] := by
  rw [captureLoop, dif_neg fun more => full more.1]

theorem captureLoop_ok {bufSize nSamples : Nat} {E : Env α} {cur cur' : Cursor} {piece : List α}
    (hs : 2 ≤ bufSize) (more : cur.filled < nSamples)
    (step : captureChunk bufSize nSamples E cur = .ok (cur', piece)) :
    captureLoop bufSize nSamples E cur = (captureLoop bufSize nSamples E cur').map (piece ++ ·) := by
  rw [captureLoop, dif_pos ⟨more, hs⟩]
  split
  · rename_i failed
    cases step.symm.trans failed
  · rename_i ok
    cases step.symm.trans ok
    rfl

theorem captureLoop_error {bufSize nSamples : Nat} {E : Env α} {cur : Cursor} {err : CaptureError}
    (hs : 2 ≤ bufSize) (more : cur.filled < nSamples)
    (step : captureChunk bufSize nSamples E cur = .error err) :
    captureLoop bufSize nSamples E cur = .error err := by
  rw [captureLoop, dif_pos ⟨more, hs⟩]
  split
  · rename_i failed
    cases step.symm.trans failed
    rfl
  · rename_i ok
    cases step.symm.trans ok

/-- `_capture_iq(n_samples)`. -/
def captureIq (bufSize nSamples : Nat) (E : Env α) : Except CaptureError (List α) :=
  captureLoop bufSize nSamples E (begin E)

/-- The cursors at the heads of the rounds. -/
inductive Reached (bufSize nSamples : Nat) (E : Env α) : Cursor → Prop where
  | start : Reached bufSize nSamples E (begin E)
  | round {cur cur' : Cursor} {piece : List α} (here : Reached bufSize nSamples E cur)
      (more : cur.filled < nSamples) (step : captureChunk bufSize nSamples E cur = .ok (cur', piece)) :
      Reached bufSize nSamples E cur'

/-! ## The wait -/

variable {bufSize nSamples chunkStart thisN' : Nat} {E : Env α} {deadline : ℚ}

/-- The wait is over at once when enough has been written. -/
theorem waitLoop_done {polls r : Nat}
    (done : thisN' ≤ samplesAdvanced chunkStart (E.bufWriteIdx r) bufSize) :
    waitLoop bufSize E chunkStart thisN' deadline polls r = some r := by
  have not_lt := Nat.not_lt.2 done
  cases polls <;> simp [waitLoop, not_lt]

/-- It ends at the first read that shows enough. -/
theorem waitLoop_reach {k : Nat} : ∀ {polls r : Nat}, k ≤ polls →
    (∀ q, r ≤ q → q < r + k → samplesAdvanced chunkStart (E.bufWriteIdx q) bufSize < thisN' ∧
      E.clock.polled q ≤ deadline) →
    thisN' ≤ samplesAdvanced chunkStart (E.bufWriteIdx (r + k)) bufSize →
    waitLoop bufSize E chunkStart thisN' deadline polls r = some (r + k) := by
  induction k with
  | zero =>
    intro polls r _ _ done
    exact waitLoop_done done
  | succ k ih =>
    intro polls r le waits done
    obtain ⟨polls, rfl⟩ : ∃ p, polls = p + 1 := ⟨polls - 1, by omega⟩
    obtain ⟨short, early⟩ := waits r (le_refl r) (by omega)
    have next : r + (k + 1) = r + 1 + k := by omega
    rw [waitLoop, if_pos short, if_neg (not_lt.2 early), next]
    rw [next] at done
    refine ih (by omega) ?_ done
    intro q low high
    exact waits q (by omega) (by omega)

/-- What the end of a wait tells: enough at the last read, too little before. -/
theorem waitLoop_some {polls r r' : Nat}
    (h : waitLoop bufSize E chunkStart thisN' deadline polls r = some r') :
    r ≤ r' ∧ thisN' ≤ samplesAdvanced chunkStart (E.bufWriteIdx r') bufSize ∧
      ∀ q, r ≤ q → q < r' → samplesAdvanced chunkStart (E.bufWriteIdx q) bufSize < thisN' := by
  induction polls generalizing r with
  | zero =>
    unfold waitLoop at h
    split at h
    · cases h
    · rename_i enough
      cases h
      exact ⟨le_refl r', Nat.not_lt.1 enough, fun q low high => absurd high (Nat.not_lt.2 low)⟩
  | succ polls ih =>
    unfold waitLoop at h
    split at h
    · rename_i short
      split at h
      · cases h
      · obtain ⟨le, enough, before⟩ := ih h
        refine ⟨by omega, enough, ?_⟩
        intro q low high
        rcases Nat.eq_or_lt_of_le low with rfl | later
        · exact short
        · exact before q later high
    · rename_i enough
      cases h
      exact ⟨le_refl r', Nat.not_lt.1 enough, fun q low high => absurd high (Nat.not_lt.2 low)⟩

/-- **The bound on the sleeps never decides.** On a clock that a sleep moves by
its 0.05 s the deadline has passed before `maxPolls` sleeps are over. -/
theorem waitLoop_bound (r k : Nat) (start : E.clock.started r ≤ E.clock.polled r)
    (sleeps : ∀ q, E.clock.polled q + 1 / 20 ≤ E.clock.polled (q + 1)) :
    waitLoop bufSize E chunkStart thisN' (E.clock.started r + patience thisN')
        (maxPolls thisN' + k) r
      = waitLoop bufSize E chunkStart thisN' (E.clock.started r + patience thisN')
        (maxPolls thisN') r := by
  have passed : ∀ j : Nat, E.clock.started r + j / 20 ≤ E.clock.polled (r + j) := by
    intro j
    induction j with
    | zero => simpa using start
    | succ j ih =>
      have := sleeps (r + j)
      push_cast
      rw [← Nat.add_assoc]
      linarith
  -- the polls left and those made always come to `maxPolls`
  suffices ∀ polls j, polls + j = maxPolls thisN' →
      waitLoop bufSize E chunkStart thisN' (E.clock.started r + patience thisN') (polls + k) (r + j)
        = waitLoop bufSize E chunkStart thisN' (E.clock.started r + patience thisN') polls (r + j) from
    this (maxPolls thisN') 0 rfl
  intro polls
  induction polls with
  | zero =>
    intro j last
    have late : E.clock.started r + patience thisN' < E.clock.polled (r + j) := by
      have floor := Nat.lt_floor_add_one (20 * patience thisN')
      have := passed j
      have count : (j : ℚ) = ⌊20 * patience thisN'⌋₊ + 1 := by
        rw [show j = maxPolls thisN' by omega, maxPolls]
        push_cast
        rfl
      linarith
    cases k with
    | zero => rfl
    | succ k => simp [waitLoop, late]
  | succ polls ih =>
    intro j sum
    have := ih (j + 1) (by omega)
    rw [show polls + 1 + k = polls + k + 1 by omega]
    simp only [waitLoop]
    rw [show r + j + 1 = r + (j + 1) by omega, this]

/-! ## What the control flow depends on -/

/-- Two calls that read the same indices and clock, whatever the cells hold. -/
def SameControl {β : Type} (E : Env α) (F : Env β) : Prop :=
  E.clock = F.clock ∧ E.bufWriteIdx = F.bufWriteIdx

theorem waitLoop_congr {β : Type} {F : Env β} (same : SameControl E F) (polls r : Nat) :
    waitLoop bufSize E chunkStart thisN' deadline polls r
      = waitLoop bufSize F chunkStart thisN' deadline polls r := by
  induction polls generalizing r with
  | zero => simp only [waitLoop, same.2]
  | succ polls ih => simp only [waitLoop, same.1, same.2, ih]

theorem captureChunk_congr (bufSize nSamples : Nat) {β : Type} {F : Env β} (same : SameControl E F)
    (cur : Cursor) :
    (captureChunk bufSize nSamples E cur).map Prod.fst
      = (captureChunk bufSize nSamples F cur).map Prod.fst := by
  unfold captureChunk
  simp only [waitLoop_congr same, same.1, same.2]
  split
  · rfl
  · split <;> rfl

theorem captureChunk_congr_ok {β : Type} {F : Env β} (same : SameControl E F) {cur cur' : Cursor}
    {piece : List α} (h : captureChunk bufSize nSamples E cur = .ok (cur', piece)) :
    ∃ piece', captureChunk bufSize nSamples F cur = .ok (cur', piece') := by
  have congr := captureChunk_congr bufSize nSamples same cur
  rw [h] at congr
  cases other : captureChunk bufSize nSamples F cur with
  | error err =>
    rw [other] at congr
    cases congr
  | ok result =>
    obtain ⟨cur'', piece'⟩ := result
    rw [other] at congr
    cases congr
    exact ⟨piece', rfl⟩

theorem reached_congr {β : Type} {F : Env β} (same : SameControl E F) {cur : Cursor}
    (h : Reached bufSize nSamples E cur) : Reached bufSize nSamples F cur := by
  induction h with
  | start =>
    have : begin E = begin F := by simp [begin, same.2]
    rw [this]
    exact .start
  | round _ more step ih =>
    obtain ⟨piece', step'⟩ := captureChunk_congr_ok same step
    exact .round ih more step'

/-- Calls with the same control fail alike. -/
theorem captureLoop_congr {β : Type} {F : Env β} (hs : 2 ≤ bufSize) (same : SameControl E F)
    {err : CaptureError} (m : Nat) : ∀ cur : Cursor, nSamples - cur.filled = m →
    captureLoop bufSize nSamples E cur = .error err →
    captureLoop bufSize nSamples F cur = .error err := by
  induction m using Nat.strong_induction_on with
  | _ m ih =>
    intro cur left failed
    by_cases more : cur.filled < nSamples
    · have congr := captureChunk_congr bufSize nSamples same cur
      cases step : captureChunk bufSize nSamples E cur with
      | error err' =>
        rw [captureLoop_error hs more step] at failed
        cases failed
        apply captureLoop_error hs more
        rw [step] at congr
        cases other : captureChunk bufSize nSamples F cur with
        | error err' =>
          rw [other] at congr
          cases congr
          rfl
        | ok result =>
          rw [other] at congr
          cases congr
      | ok result =>
        obtain ⟨cur', piece⟩ := result
        obtain ⟨piece', step'⟩ := captureChunk_congr_ok same step
        have filled := captureChunk_filled step
        have pos : 0 < thisN bufSize nSamples cur := by
          unfold thisN
          omega
        rw [captureLoop_ok hs more step] at failed
        cases next : captureLoop bufSize nSamples E cur' with
        | error err' =>
          rw [next] at failed
          cases failed
          rw [captureLoop_ok hs more step', ih _ (by omega) cur' rfl next]
          rfl
        | ok seg =>
          rw [next] at failed
          cases failed
    · rw [captureLoop_end more] at failed
      cases failed

end StreamWeb.Capture

import Mathlib.Data.Rat.Defs
import Mathlib.Data.List.Nodup
import Mathlib.Algebra.Order.Ring.Rat
import StreamWeb.Config
import StreamWeb.Data
import StreamWeb.Lib.Ring

/-!
# The receiver's writes into the IQ buffer

`_BufferSink.work` copies a chunk of samples into the circular buffer, in one
or two slice assignments, and then moves `buf_write_idx`. No lock is taken, so
a reader sees any state in between: the model splits a call into its start, the
single cell stores in any order, and its end, which makes the stores that are
left and publishes the index. `Rx.run` runs a receiver over any schedule of
these events and any stream of samples.

`Rx.Inv` relates the buffer to the stream: outside the call in progress every
cell holds the latest sample of its position, inside it the new one or the one
from a turn before.
-/

namespace StreamWeb

/-- The sample at a stream position; the buffer starts with zeros. -/
def sampleAt {α : Type} [Zero α] (x : Nat → α) (p : Int) : α := if p < 0 then 0 else x p.toNat

theorem sampleAt_nat {α : Type} [Zero α] (x : Nat → α) (p : Nat) : sampleAt x p = x p := by
  simp [sampleAt]

/-- The receiver: shared buffer and index, drop detection, and the work call in
progress with the stores it has not made yet. `published` counts the samples of
all finished calls and `busy` those of the call in progress. -/
structure Rx (α : Type) where
  iqBuffer : Nat → α
  bufWriteIdx : Nat
  dropQueue : List Nat
  rxOverflows : Nat
  prevWorkTime : ℚ
  pending : List (Nat × α)
  published : Nat
  busy : Nat

/-- What the receiver does next. -/
inductive RxEvent where
  | idle
  | begin (n : Nat) (now : ℚ)
  | store (i : Nat)
  | finish

/-- A start time and the events that follow. -/
structure Schedule where
  startTime : ℚ
  events : Nat → RxEvent

namespace Rx

variable {α : Type}

/-- Stream positions up to here are in the buffer or about to be. -/
def begun (w : Rx α) : Nat := w.published + w.busy

def init [Zero α] (startTime : ℚ) : Rx α where
  iqBuffer := fun _ => 0
  bufWriteIdx := 0
  dropQueue := []
  rxOverflows := 0
  prevWorkTime := startTime
  pending := []
  published := 0
  busy := 0

/-- The cell assignments of one call: one slice, or the rest of the buffer and
a slice at its start. -/
def workStores (size wi : Nat) (samples : List α) : List (Nat × α) :=
  let n := samples.length
  let space := size - wi
  if n ≤ space then (List.range' wi n).zip samples
  else (List.range' wi space).zip (samples.take space)
    ++ (List.range' 0 (n - space)).zip (samples.drop space)

/-- The index one call leaves. -/
def workIdx (size wi n : Nat) : Nat :=
  let space := size - wi
  if n ≤ space then wi + n else n - space

def storeAll (buf : Nat → α) (stores : List (Nat × α)) : Nat → α :=
  stores.foldl (fun b s => Function.update b s.1 s.2) buf

/-- The overflow detection at the start of a call: a gap of more than 50 ms
since the call before queues the write index as a drop position. -/
def noteGap (w : Rx α) (now : ℚ) : Rx α :=
  if 1 / 20 < now - w.prevWorkTime ∧ 0 < w.prevWorkTime then
    { w with rxOverflows := w.rxOverflows + 1, dropQueue := w.dropQueue ++ [w.bufWriteIdx]
             prevWorkTime := now }
  else { w with prevWorkTime := now }

/-- `_BufferSink.work`, as one step. -/
def work (size : Nat) (w : Rx α) (now : ℚ) (samples : List α) : Rx α :=
  { w.noteGap now with
    iqBuffer := storeAll w.iqBuffer (workStores size w.bufWriteIdx samples)
    bufWriteIdx := workIdx size w.bufWriteIdx samples.length
    published := w.published + samples.length }

/-- The next `n` samples of the stream. -/
def nextSamples (x : Nat → α) (w : Rx α) (n : Nat) : List α :=
  (List.range n).map fun i => x (w.published + i)

/-- A call starts; it brings between one sample and a bufferful. -/
def begin (size : Nat) (x : Nat → α) (w : Rx α) (n : Nat) (now : ℚ) : Rx α :=
  if w.busy = 0 ∧ 0 < n ∧ n ≤ size then
    { w.noteGap now with
      pending := workStores size w.bufWriteIdx (w.nextSamples x n)
      busy := n }
  else w

/-- One pending store is made. -/
def store (w : Rx α) (i : Nat) : Rx α :=
  match w.pending[i]? with
  | some s =>
    { w with iqBuffer := Function.update w.iqBuffer s.1 s.2, pending := w.pending.eraseIdx i }
  | none => w

/-- The stores that are left are made and the index is published. -/
def finish (size : Nat) (w : Rx α) : Rx α :=
  { w with
    iqBuffer := storeAll w.iqBuffer w.pending
    pending := []
    bufWriteIdx := workIdx size w.bufWriteIdx w.busy
    published := w.published + w.busy
    busy := 0 }

def step (size : Nat) (x : Nat → α) (w : Rx α) : RxEvent → Rx α
  | .idle => w
  | .begin n now => w.begin size x n now
  | .store i => w.store i
  | .finish => w.finish size

/-- The receiver at instant `t` of a schedule. -/
def run [Zero α] (size : Nat) (x : Nat → α) (S : Schedule) : Nat → Rx α
  | 0 => init S.startTime
  | t + 1 => (run size x S t).step size x (S.events t)

/-! ## The counters -/

theorem noteGap_eq (w : Rx α) (now : ℚ) :
    (w.noteGap now).iqBuffer = w.iqBuffer ∧ (w.noteGap now).bufWriteIdx = w.bufWriteIdx ∧
      (w.noteGap now).published = w.published ∧ (w.noteGap now).pending = w.pending ∧
      (w.noteGap now).busy = w.busy := by
  unfold noteGap
  split <;> simp

@[simp] theorem begin_published (size : Nat) (x : Nat → α) (w : Rx α) (n : Nat) (now : ℚ) :
    (w.begin size x n now).published = w.published := by
  unfold Rx.begin
  split
  · exact (noteGap_eq w now).2.2.1
  · rfl

@[simp] theorem begin_busy (size : Nat) (x : Nat → α) (w : Rx α) (n : Nat) (now : ℚ) :
    (w.begin size x n now).busy = if w.busy = 0 ∧ 0 < n ∧ n ≤ size then n else w.busy := by
  unfold Rx.begin
  split <;> rfl

@[simp] theorem store_published (w : Rx α) (i : Nat) : (w.store i).published = w.published := by
  unfold store
  split <;> rfl

@[simp] theorem store_busy (w : Rx α) (i : Nat) : (w.store i).busy = w.busy := by
  unfold store
  split <;> rfl

@[simp] theorem finish_published (size : Nat) (w : Rx α) :
    (w.finish size).published = w.published + w.busy := rfl

@[simp] theorem finish_busy (size : Nat) (w : Rx α) : (w.finish size).busy = 0 := rfl

/-- Split or not, a call does what `work` does in one step. -/
theorem finish_begin {size : Nat} (x : Nat → α) {w : Rx α} {n : Nat} (now : ℚ) (pos : 0 < n)
    (le : n ≤ size) (free : w.busy = 0) (none_left : w.pending = []) :
    (w.begin size x n now).finish size = w.work size now (w.nextSamples x n) := by
  obtain ⟨buf, idx, pub, pend, busy⟩ := noteGap_eq w now
  simp [Rx.begin, finish, work, free, pos, le, none_left, buf, idx, pub, pend, busy, nextSamples]

end Rx

end StreamWeb

import Mathlib.Tactic.Linarith
import StreamWeb.Lib.Tail
import StreamWeb.Processor.ExtractLast

/-!
# Detection boxes on the spectrogram

Each cycle appends the spectrogram of the last `SPEC_CHUNK_S` to the picture
and shifts the boxes of the earlier detections by as much. The cycles are
`DECODE_INTERVAL_S` apart, so the chunks leave gaps, and the place of a new
detection is measured on the decode window, which has none:
`boxes_stay_iff` says which boxes are on their packets.

A chunk is modelled by the positions of the stream it shows, oldest first.
-/

namespace StreamWeb.Processor

open Config Ring

/-- What the history loop reads of a packet. -/
structure Detection where
  timeS : ℚ
  f0Hz : Option ℚ := none
  freqHz : ℚ
  phyVer : Int
  signalDurationS : Option ℚ := none
  preambleDurationS : Option ℚ := none
  chipset : Option String := none
  deriving DecidableEq

structure HistoryEntry where
  offsetFromRight : ℚ
  freqHz : ℚ
  phyVer : Int
  signalDurationS : ℚ
  chipset : String
  deriving DecidableEq

/-- `det.get("F0_hz", det["freq_hz"])` -/
def Detection.f0 (det : Detection) : ℚ := det.f0Hz.getD det.freqHz

section Arithmetic

-- What an operation gives for its exact result: `Py.double` with floats, `id` in exact arithmetic.
variable (fl : ℚ → ℚ)

/-- `new_offset` -/
def Detection.newOffsetWith (det : Detection) : ℚ := fl (decodeWindowS - det.timeS)

def Detection.entryWith (det : Detection) : HistoryEntry where
  offsetFromRight := det.newOffsetWith fl
  freqHz := det.f0
  phyVer := det.phyVer
  signalDurationS := det.signalDurationS.getD (det.preambleDurationS.getD (fl (5 / 100)))
  chipset := det.chipset.getD "v-1"

/-- `d["offset_from_right"] += config.SPEC_CHUNK_S` -/
def HistoryEntry.shiftedWith (e : HistoryEntry) : HistoryEntry :=
  { e with offsetFromRight := fl (e.offsetFromRight + specChunkS) }

/-- The entries of the cycles before that are still listed. -/
def ageHistoryWith (history : List HistoryEntry) : List HistoryEntry :=
  (history.map (HistoryEntry.shiftedWith fl)).filter fun e => e.offsetFromRight ≤ specDurationS

/-- `is_dup` -/
def isDupWith (history : List HistoryEntry) (det : Detection) : Bool :=
  history.any fun existing =>
    |fl (existing.offsetFromRight - det.newOffsetWith fl)| < fl (15 / 100) ∧
      |fl (existing.freqHz - det.f0)| < 5000

/-- The body of the loop over the cycle's detections. -/
def recordWith (history : List HistoryEntry) (det : Detection) : List HistoryEntry :=
  if isDupWith fl history det then history else history ++ [det.entryWith fl]

end Arithmetic

/-! In exact arithmetic. -/

def Detection.entry : Detection → HistoryEntry := Detection.entryWith id

/-- The entry after further cycles. -/
def HistoryEntry.aged (e : HistoryEntry) (cycles : ℕ) : HistoryEntry :=
  { e with offsetFromRight := e.offsetFromRight + cycles * specChunkS }

def ageHistory : List HistoryEntry → List HistoryEntry := ageHistoryWith id

theorem Detection.offset_entry (det : Detection) : det.entry.offsetFromRight = decodeWindowS - det.timeS := rfl

theorem HistoryEntry.shifted_eq (e : HistoryEntry) : e.shiftedWith id = e.aged 1 := by
  rw [shiftedWith, aged, Nat.cast_one, one_mul]
  rfl

theorem ageHistory_eq (history : List HistoryEntry) :
    ageHistory history = (history.map fun e => e.aged 1).filter fun e => e.offsetFromRight ≤ specDurationS := by
  rw [ageHistory, ageHistoryWith, funext HistoryEntry.shifted_eq]

/-- What a cycle meets: the stream as far as it is published, whether `compute_spec_chunk` succeeds,
and the detections. -/
structure SpecCycle where
  published : ℤ
  computed : Bool
  detections : List Detection

/-- The spectrogram's part of the processor's state. -/
structure Spectrogram where
  specChunks : List (List ℤ) := []
  detectionHistory : List HistoryEntry := []

/-- The last `n` positions in front of `published`. -/
def lastPositions (published : ℤ) (n : ℕ) : List ℤ := (List.range n).map fun i : ℕ => published - n + i

/-- Steps 1 and 3 of a processor cycle. -/
def specCycleWith (fl : ℚ → ℚ) (s : Spectrogram) (c : SpecCycle) : Spectrogram where
  specChunks :=
    if c.computed then
      (s.specChunks ++ [lastPositions c.published specChunkSamples]).rtake maxSpecChunks
    else s.specChunks
  detectionHistory := c.detections.foldl (recordWith fl) (ageHistoryWith fl s.detectionHistory)

/-- The position shown at a distance, in seconds, from the right edge. -/
def displayed (chunks : List (List ℤ)) (distance : ℚ) : Option ℤ :=
  if 0 < distance then chunks.flatten.reverse[(⌈distance * sampleRate⌉ - 1).toNat]? else none

/-- What `_extract_last` copies for a chunk are the samples at its positions, when the writer leaves
them alone until the copy is done. -/
theorem extractLast_chunk {α : Type} [Zero α] (x : ℕ → α) (S : Schedule) (read done : ℕ)
    (copied : ℕ → ℕ) (within : ∀ c, read ≤ copied c ∧ copied c ≤ done)
    (slack : (Rx.run iqBufferSize x S done).begun
      ≤ (Rx.run iqBufferSize x S read).published + (iqBufferSize - specChunkSamples)) :
    extractLast iqBufferSize (Rx.run iqBufferSize x S read).bufWriteIdx specChunkSamples
        (fun c => (Rx.run iqBufferSize x S (copied c)).iqBuffer c)
      = (lastPositions (Rx.run iqBufferSize x S read).published specChunkSamples).map (sampleAt x) := by
  have room : specChunkSamples < iqBufferSize := by
    rw [specChunkSamples_eq, iqBufferSize_eq]
    omega
  rw [extractLast_refines x S read done specChunkSamples_pos room copied within slack, lastPositions,
    List.map_map]
  rfl

/-! ## Runs -/

section Arithmetic

variable (fl : ℚ → ℚ)

/-- The detections the loop adds. -/
def addedWith : List HistoryEntry → List Detection → List Detection
  | _, [] => []
  | history, det :: dets =>
    if isDupWith fl history det then addedWith history dets
    else det :: addedWith (history ++ [det.entryWith fl]) dets

variable (cycles : ℕ → SpecCycle)

/-- The state in front of a cycle. -/
def beforeWith : ℕ → Spectrogram
  | 0 => {}
  | n + 1 => specCycleWith fl (beforeWith n) (cycles n)

/-- What a cycle renders. -/
def renderedWith (n : ℕ) : Spectrogram := beforeWith fl cycles (n + 1)

/-- The entries of earlier cycles that a cycle still lists. -/
def stillListedWith (n : ℕ) : List HistoryEntry := ageHistoryWith fl (beforeWith fl cycles n).detectionHistory

/-- The detections a cycle adds. -/
def addedInWith (n : ℕ) : List Detection := addedWith fl (stillListedWith fl cycles n) (cycles n).detections

end Arithmetic

section Runs

variable (cycles : ℕ → SpecCycle)

/-! In exact arithmetic. -/

def before : ℕ → Spectrogram := beforeWith id cycles

def rendered (n : ℕ) : Spectrogram := renderedWith id cycles n

def addedIn (n : ℕ) : List Detection := addedInWith id cycles n

def stillListed (n : ℕ) : List HistoryEntry := stillListedWith id cycles n

/-- Each cycle advances the stream by the decode interval, and has its chunk. -/
structure Steady : Prop where
  advance : ∀ n, (cycles (n + 1)).published = (cycles n).published + decodeIntervalSamples
  computed : ∀ n, (cycles n).computed = true

/-- The packet starts at a position of the decode window, and its time says which. -/
structure Exact (c : SpecCycle) (det : Detection) (start : ℤ) : Prop where
  inside : c.published - decodeSamples ≤ start
  arrived : start < c.published
  time : det.timeS = (start - (c.published - decodeSamples) : ℤ) / sampleRate

/-- Every detection with an exact time is shown at the start of its packet, in every later cycle
that lists it. -/
def BoxesStay : Prop :=
  ∀ n, ∀ det ∈ addedIn cycles n, ∀ start, Exact (cycles n) det start →
    ∀ m, n < m → det.entry.aged (m - n) ∈ stillListed cycles m →
      displayed (rendered cycles m).specChunks (det.entry.aged (m - n)).offsetFromRight = some start

end Runs

/-! ## The history -/

theorem foldl_recordWith (fl : ℚ → ℚ) (dets : List Detection) (history : List HistoryEntry) :
    dets.foldl (recordWith fl) history = history ++ (addedWith fl history dets).map (Detection.entryWith fl) := by
  induction dets generalizing history with
  | nil => rw [addedWith, List.map_nil, List.append_nil, List.foldl_nil]
  | cons det dets ih =>
    rw [List.foldl_cons, ih, recordWith, addedWith]
    split
    · rfl
    · rw [List.append_assoc, List.map_cons, List.singleton_append]

theorem history_succWith (fl : ℚ → ℚ) (cycles : ℕ → SpecCycle) (n : ℕ) :
    (beforeWith fl cycles (n + 1)).detectionHistory =
      stillListedWith fl cycles n ++ (addedInWith fl cycles n).map (Detection.entryWith fl) :=
  foldl_recordWith fl _ _

/-- The chunks do not depend on the arithmetic. -/
theorem specChunks_beforeWith (fl : ℚ → ℚ) (cycles : ℕ → SpecCycle) (n : ℕ) :
    (beforeWith fl cycles n).specChunks = (before cycles n).specChunks := by
  induction n with
  | zero => rfl
  | succ n ih =>
    rw [before] at ih ⊢
    rw [beforeWith, beforeWith, specCycleWith, specCycleWith, ih]

theorem HistoryEntry.aged_aged (e : HistoryEntry) (a b : ℕ) : (e.aged a).aged b = e.aged (a + b) := by
  unfold aged
  push_cast
  rw [add_mul, ← add_assoc]

theorem HistoryEntry.offset_aged (e : HistoryEntry) (k : ℕ) :
    (e.aged k).offsetFromRight = e.offsetFromRight + k * specChunkS := rfl

section Runs

variable {cycles : ℕ → SpecCycle}

theorem history_succ (n : ℕ) :
    (before cycles (n + 1)).detectionHistory =
      stillListed cycles n ++ (addedIn cycles n).map Detection.entry := history_succWith id cycles n

theorem stillListed_eq (n : ℕ) : stillListed cycles n = ageHistory (before cycles n).detectionHistory := rfl

theorem rendered_eq (n : ℕ) : rendered cycles n = before cycles (n + 1) := rfl

/-- **What a cycle still lists**: the entries of the cycles before, aged by a chunk a cycle, up to the
width of the picture. -/
theorem mem_stillListed_iff {m : ℕ} {e : HistoryEntry} :
    e ∈ stillListed cycles m ↔
      e.offsetFromRight ≤ specDurationS ∧
        ∃ n < m, ∃ det ∈ addedIn cycles n, e = det.entry.aged (m - n) := by
  induction m generalizing e with
  | zero => simp [stillListed_eq, before, beforeWith, ageHistory, ageHistoryWith]
  | succ m ih =>
    rw [stillListed_eq, history_succ, ageHistory_eq, List.mem_filter, List.mem_map, decide_eq_true_eq,
      and_comm]
    apply and_congr_right
    intro narrow
    constructor
    · intro ⟨e', listed, aged⟩
      rcases List.mem_append.1 listed with earlier | new
      · obtain ⟨-, n, le, det, mem, rfl⟩ := ih.1 earlier
        refine ⟨n, by omega, det, mem, ?_⟩
        rw [← aged, HistoryEntry.aged_aged, Nat.succ_sub (by omega)]
      · obtain ⟨det, mem, rfl⟩ := List.mem_map.1 new
        refine ⟨m, by omega, det, mem, ?_⟩
        rw [← aged, Nat.add_sub_cancel_left]
    · intro ⟨n, le, det, mem, same⟩
      rcases Nat.lt_succ_iff_lt_or_eq.1 le with earlier | rfl
      · refine ⟨det.entry.aged (m - n), List.mem_append_left _ (ih.2 ⟨?_, n, earlier, det, mem, rfl⟩), ?_⟩
        · rw [same, HistoryEntry.offset_aged, Nat.succ_sub (by omega)] at narrow
          rw [HistoryEntry.offset_aged]
          push_cast at narrow
          have chunk : 0 ≤ specChunkS := by norm_num [specChunkS]
          linarith
        · rw [same, HistoryEntry.aged_aged, Nat.succ_sub (by omega)]
      · refine ⟨det.entry, List.mem_append_right _ (List.mem_map_of_mem mem), ?_⟩
        rw [same, Nat.add_sub_cancel_left]

/-! ## The picture -/

theorem Steady.published_eq (steady : Steady cycles) (n k : ℕ) :
    (cycles (n + k)).published = (cycles n).published + k * decodeIntervalSamples := by
  induction k with
  | zero => simp
  | succ k ih =>
    rw [← Nat.add_assoc, steady.advance, ih]
    push_cast
    ring

/-- The picture has the chunks of the last cycles. -/
theorem Steady.specChunks_eq (steady : Steady cycles) (n : ℕ) :
    (before cycles n).specChunks =
      ((List.range n).map fun c => lastPositions (cycles c).published specChunkSamples).rtake
        maxSpecChunks := by
  induction n with
  | zero => simp [before, beforeWith]
  | succ n ih =>
    rw [before] at ih ⊢
    rw [beforeWith, specCycleWith]
    dsimp only
    rw [if_pos (steady.computed n), ih, List.rtake_rtake_append, List.range_succ, List.map_append,
      List.map_singleton]

theorem getElem?_reverse_lastPositions (published : ℤ) {n i : ℕ} (inside : i < n) :
    (lastPositions published n).reverse[i]? = some (published - 1 - i) := by
  rw [lastPositions, List.getElem?_reverse (by simpa using inside), List.getElem?_map,
    List.getElem?_range (by simp; omega), Option.map_some, List.length_map, List.length_range]
  congr 1
  omega

/-- At `i` whole samples from the right edge the picture shows a sample of the chunk that many chunk
lengths back, if there is one. -/
theorem Steady.displayed_eq (steady : Steady cycles) (m : ℕ) {i : ℕ}
    (near : i / specChunkSamples < maxSpecChunks) :
    displayed (rendered cycles m).specChunks (((i + 1 : ℕ) : ℚ) / sampleRate) =
      if i / specChunkSamples ≤ m then
        some ((cycles (m - i / specChunkSamples)).published - 1 - (i % specChunkSamples : ℕ))
      else none := by
  have size := specChunkSamples_pos
  have rate := sampleRate_pos
  have index : (⌈((i + 1 : ℕ) : ℚ) / sampleRate * sampleRate⌉ - 1).toNat = i := by
    rw [div_mul_cancel₀ _ rate.ne', Int.ceil_natCast]
    omega
  have chunks : ∀ l ∈ (rendered cycles m).specChunks, l.length = specChunkSamples := by
    intro l mem
    rw [rendered_eq, steady.specChunks_eq] at mem
    obtain ⟨c, _, rfl⟩ := List.mem_map.1 ((List.rtake_sublist _ _).subset mem)
    simp [lastPositions]
  rw [displayed, if_pos (by positivity), index, List.getElem?_reverse_flatten size chunks, rendered_eq,
    steady.specChunks_eq, List.getElem?_reverse_rtake _ near]
  generalize i / specChunkSamples = back
  split
  · rename_i there
    have place : m + 1 - 1 - back = m - back := by omega
    rw [List.getElem?_reverse (by simp; omega), List.getElem?_map, List.length_map,
      List.length_range, place, List.getElem?_range (by omega), Option.map_some, Option.bind_some,
      getElem?_reverse_lastPositions _ (Nat.mod_lt i size)]
  · rename_i beyond
    rw [List.getElem?_eq_none (by simp; omega), Option.bind_none]

/-! ## The boxes -/

/-- The number of samples behind the first one of the packet. -/
theorem Exact.distance_eq {c : SpecCycle} {det : Detection} {start : ℤ} (timed : Exact c det start) :
    ((c.published - 1 - start).toNat : ℤ) = c.published - 1 - start := by
  apply Int.toNat_of_nonneg
  have arrived := timed.arrived
  omega

/-- A box is a whole number of samples from the right edge. -/
theorem Exact.offset_eq {c : SpecCycle} {det : Detection} {start : ℤ} (timed : Exact c det start)
    (k : ℕ) :
    (det.entry.aged k).offsetFromRight =
      (((c.published - 1 - start).toNat + k * specChunkSamples + 1 : ℕ) : ℚ) / sampleRate := by
  have distance : ((c.published - 1 - start).toNat : ℚ) = c.published - 1 - start := by
    exact_mod_cast timed.distance_eq
  rw [HistoryEntry.offset_aged, Detection.offset_entry, timed.time]
  push_cast
  rw [distance, decodeSamples_eq, specChunkSamples_eq]
  norm_num [decodeWindowS, specChunkS, sampleRate]
  ring

/-- **Where a box is**: as many times as there are chunk lengths between the packet and the end of its
decode window, the picture is behind by what the cycles advance more than a chunk. -/
theorem Steady.displayed_box (steady : Steady cycles) {n : ℕ} {det : Detection} {start : ℤ}
    (timed : Exact (cycles n) det start) {k : ℕ}
    (narrow : (det.entry.aged k).offsetFromRight ≤ specDurationS) :
    displayed (rendered cycles (n + k)).specChunks (det.entry.aged k).offsetFromRight =
      let back := ((cycles n).published - 1 - start).toNat / specChunkSamples
      if back ≤ n then some (start - back * (decodeIntervalSamples - specChunkSamples)) else none := by
  have size := specChunkSamples_pos
  have distance := timed.distance_eq
  rw [timed.offset_eq] at narrow ⊢
  generalize ((cycles n).published - 1 - start).toNat = i at *
  have quotient : (i + k * specChunkSamples) / specChunkSamples = i / specChunkSamples + k :=
    Nat.add_mul_div_right i k size
  have remainder : (i + k * specChunkSamples) % specChunkSamples = i % specChunkSamples :=
    Nat.add_mul_mod_self_right i k specChunkSamples
  have near : (i + k * specChunkSamples) / specChunkSamples < maxSpecChunks := by
    rw [div_le_iff₀ sampleRate_pos] at narrow
    have bound : i + k * specChunkSamples + 1 ≤ 7812500 := by
      have value : specDurationS * (sampleRate : ℚ) = (7812500 : ℕ) := by
        norm_num [specDurationS, sampleRate]
      rw [value] at narrow
      exact_mod_cast narrow
    rw [Nat.div_lt_iff_lt_mul size, maxSpecChunks_eq]
    rw [specChunkSamples_eq] at bound ⊢
    omega
  rw [steady.displayed_eq (n + k) near, quotient, remainder]
  have whole := Nat.div_add_mod i specChunkSamples
  generalize i / specChunkSamples = back at *
  dsimp only
  by_cases there : back ≤ n
  · have place : n + k - (back + k) = n - back := by omega
    have published := steady.published_eq (n - back) back
    rw [Nat.sub_add_cancel there] at published
    rw [if_pos (by omega), if_pos there, place]
    congr 1
    have whole' : (specChunkSamples : ℤ) * back + (i % specChunkSamples : ℕ) = i := by exact_mod_cast whole
    linarith
  · rw [if_neg (by omega), if_neg there]

/-- **Which boxes stay on their packets.** In a steady run: all detections with an exact time are
shown at their packets in every later cycle that lists them, exactly when each of these packets starts
within the last chunk of its decode window. -/
theorem boxes_stay_iff (steady : Steady cycles) :
    BoxesStay cycles ↔
      ∀ n, ∀ det ∈ addedIn cycles n, ∀ start, Exact (cycles n) det start →
        (cycles n).published - specChunkSamples ≤ start := by
  have drift : (0 : ℤ) < decodeIntervalSamples - specChunkSamples := by
    rw [decodeIntervalSamples_eq, specChunkSamples_eq]
    norm_num
  constructor
  · intro stay n det mem start timed
    have inside := timed.inside
    have arrived := timed.arrived
    have narrow : (det.entry.aged 1).offsetFromRight ≤ specDurationS := by
      have bound : ((cycles n).published - 1 - start).toNat + 1 * specChunkSamples + 1 ≤ 7812500 := by
        rw [decodeSamples_eq] at inside
        rw [specChunkSamples_eq]
        omega
      rw [timed.offset_eq, div_le_iff₀ sampleRate_pos]
      calc (((cycles n).published - 1 - start).toNat + 1 * specChunkSamples + 1 : ℕ)
          ≤ ((7812500 : ℕ) : ℚ) := by exact_mod_cast bound
        _ = specDurationS * sampleRate := by norm_num [specDurationS, sampleRate]
    have listed : det.entry.aged (n + 1 - n) ∈ stillListed cycles (n + 1) := by
      apply mem_stillListed_iff.2
      refine ⟨?_, n, by omega, det, mem, rfl⟩
      rwa [Nat.add_sub_cancel_left]
    have shown := stay n det mem start timed (n + 1) (by omega) listed
    rw [Nat.add_sub_cancel_left, steady.displayed_box timed narrow] at shown
    dsimp only at shown
    split at shown
    · have same : ((((cycles n).published - 1 - start).toNat / specChunkSamples : ℕ) : ℤ) *
          (decodeIntervalSamples - specChunkSamples) = 0 := by
        have := Option.some.inj shown
        linarith
      have newest := (mul_eq_zero.1 same).resolve_right drift.ne'
      rw [specChunkSamples_eq] at newest ⊢
      omega
    · cases shown
  · intro within n det mem start timed m later listed
    obtain ⟨k, rfl⟩ := Nat.exists_eq_add_of_lt later
    have age : n + k + 1 - n = k + 1 := by omega
    have narrow := (mem_stillListed_iff.1 listed).1
    have recent := within n det mem start timed
    have arrived := timed.arrived
    have newest : ((cycles n).published - 1 - start).toNat / specChunkSamples = 0 := by
      rw [specChunkSamples_eq] at recent ⊢
      omega
    rw [age] at narrow ⊢
    rw [Nat.add_assoc, steady.displayed_box timed narrow, newest]
    simp

end Runs

/-! ## A run with one detection -/

theorem addedWith_sublist (fl : ℚ → ℚ) (dets : List Detection) (history : List HistoryEntry) :
    (addedWith fl history dets).Sublist dets := by
  induction dets generalizing history with
  | nil => exact List.Sublist.refl _
  | cons det dets ih =>
    rw [addedWith]
    split
    · exact (ih _).cons _
    · exact (ih _).cons_cons _

def detectionAt (timeS : ℚ) : Detection where
  timeS
  freqHz := 0
  phyVer := 1

/-- It is in the second cycle. -/
def oneDetection (timeS : ℚ) (n : ℕ) : SpecCycle where
  published := decodeSamples + n * decodeIntervalSamples
  computed := true
  detections := if n = 1 then [detectionAt timeS] else []

theorem oneDetection_steady (timeS : ℚ) : Steady (oneDetection timeS) where
  advance n := by
    unfold oneDetection
    push_cast
    ring
  computed _ := rfl

/-- A packet that starts in the last chunk of the window. -/
theorem boxes_stay_late : BoxesStay (oneDetection (6 / 5)) := by
  apply (boxes_stay_iff (oneDetection_steady (6 / 5))).2
  intro n det mem start timed
  have listed := (addedWith_sublist id _ _).subset mem
  unfold oneDetection at listed
  split at listed
  · rw [List.mem_singleton] at listed
    have time := timed.time
    rw [listed, eq_div_iff sampleRate_pos.ne'] at time
    have place : start - ((oneDetection (6 / 5) n).published - decodeSamples) = 937500 := by
      have scaled : (detectionAt (6 / 5)).timeS * sampleRate = (937500 : ℤ) := by
        norm_num [detectionAt, sampleRate]
      rw [scaled] at time
      exact_mod_cast time.symm
    rw [decodeSamples_eq] at place
    rw [specChunkSamples_eq]
    omega
  · cases listed

/-- For a packet in the middle of the window the picture shows what came a tenth of a second before. -/
theorem boxes_drift : Steady (oneDetection (1 / 2)) ∧ ¬BoxesStay (oneDetection (1 / 2)) := by
  refine ⟨oneDetection_steady _, ?_⟩
  intro stay
  have published : (oneDetection (1 / 2) 1).published = 1640625 := by
    rw [oneDetection, decodeSamples_eq, decodeIntervalSamples_eq]
    norm_num
  have mem : detectionAt (1 / 2) ∈ addedIn (oneDetection (1 / 2)) 1 := by
    simp [addedIn, addedInWith, stillListedWith, beforeWith, specCycleWith, oneDetection, ageHistoryWith,
      addedWith, isDupWith]
  have timed : Exact (oneDetection (1 / 2) 1) (detectionAt (1 / 2)) 859375 := by
    constructor
    · rw [published, decodeSamples_eq]
      norm_num
    · rw [published]
      norm_num
    · rw [published, decodeSamples_eq]
      norm_num [detectionAt, sampleRate]
  have narrow : ((detectionAt (1 / 2)).entry.aged 1).offsetFromRight ≤ specDurationS := by
    norm_num [HistoryEntry.aged, Detection.offset_entry, detectionAt, decodeWindowS, specChunkS, specDurationS]
  have listed : (detectionAt (1 / 2)).entry.aged 1 ∈ stillListed (oneDetection (1 / 2)) 2 := by
    apply mem_stillListed_iff.2
    exact ⟨narrow, 1, by omega, _, mem, rfl⟩
  have shown := stay 1 _ mem 859375 timed 2 (by omega) listed
  rw [show (2 : ℕ) - 1 = 1 from rfl, (oneDetection_steady (1 / 2)).displayed_box timed narrow,
    published, decodeIntervalSamples_eq, specChunkSamples_eq] at shown
  norm_num at shown

end StreamWeb.Processor

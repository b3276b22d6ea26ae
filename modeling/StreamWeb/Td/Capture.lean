import StreamWeb.Config
import StreamWeb.Data

/-!
# The capture state machine

`td_capture.py` decides, one processor cycle at a time, which detection the
signal viewer captures. Two records live across cycles: a hit too close to the
end of the window to be rendered yet, and a failure that may only be cut off by
the window. Both are kept by their position modulo the IQ buffer and projected
into each cycle's window again.

Records are dictionaries compared by identity, so each carries a `ref` that is
given out when it is made.
-/

namespace StreamWeb.Td

open Config

/-- `_TRUNCATION_REASONS`. -/
def truncationReasons : List String := ["pdu_incomplete", "unknown"]

/-- `reason in _TRUNCATION_REASONS`, of a reason that may be `None`. -/
def isTruncation (reason : Option String) : Bool := reason.any fun r => truncationReasons.contains r

variable (K : DecoderConstants)

/-- `decoded_span`: start and end of a decoded attempt in seconds of the window. -/
def decodedSpan (a : Attempt) : ℚ × ℚ :=
  let start := a.timeS.getD 0
  let nSym := K.preambleLen + K.numHeaderSyms + a.numPduSymbols.getD 0
  let estimate : ℚ := nSym * K.slot (a.phyVer.getD 1) / sampleRate
  let dur := match a.signalDurationS with
    | some d => if d = 0 then estimate else d
    | none => estimate
  (start, start + dur)

/-- `_start_sample`. -/
def startSample (a : Attempt) : Int := a.startSample.getD (Py.round (a.timeS.getD 0 * sampleRate))

/-- A record made from an attempt: `_abs_start`, `_rel_start`, `_first_seen`. -/
structure Hit where
  ref : Nat
  attempt : Attempt
  absStart : Int
  relStart : Option Int
  firstSeen : ℚ
  deriving DecidableEq

inductive Target where
  | chipset (name : String)
  | ntwId (id : Int)
  deriving DecidableEq

/-- `TdCaptureState`; `nextRef` counts the records made so far. -/
structure State where
  pendingHit : Option Hit
  pendingConfirm : Option Hit
  target : Option Target
  nextRef : Nat

def State.fresh : State := ⟨none, none, none, 0⟩

namespace State

def resetPending (st : State) : State := { st with pendingHit := none, pendingConfirm := none }

/-- `hit is state.pending_hit`. -/
def isPending (st : State) (h : Hit) : Bool := st.pendingHit.any fun p => p.ref = h.ref

end State

structure Capture where
  tdHit : Hit
  tdStart : Int
  tdEnd : Int
  tdCenter : Int
  deriving DecidableEq

/-- `TdCaptureResult`. -/
structure Result where
  capture : Option Capture := none
  status : Option String := none

/-- The arguments of one call of `select_td_capture`. -/
structure Call where
  tdOn : Bool
  tdChipset : Option String
  tdNtwId : Option Int
  attempts : List Attempt
  packets : List Packet
  decodeStart : Int
  bufLen : Nat
  chunkLen : Nat
  now : ℚ

namespace Call

/-- `td_chipset` where it is true. -/
def chipset (c : Call) : Option String := c.tdChipset.filter fun s => s ≠ ""

def target (c : Call) : Option Target :=
  match c.chipset with
  | some s => some (.chipset s)
  | none => c.tdNtwId.map .ntwId

/-- A position of the ring in this cycle's window. -/
def relative (c : Call) (absStart : Int) : Int := (absStart - c.decodeStart) % c.bufLen

/-- A position of the window in the ring. -/
def absolute (c : Call) (rel : Int) : Int := (c.decodeStart + rel) % c.bufLen

end Call

def matchTol : Int := Py.int (tdTruncationMatchS * sampleRate)

/-- An attempt of the chipset near a position of the window. -/
def isNear (chipset : String) (rel : Int) (a : Attempt) : Bool :=
  a.chipset = some chipset ∧ |startSample a - rel| < matchTol

/-- `_retry_pending`. -/
def retryPending (st : State) (c : Call) : State × Option Hit :=
  match st.pendingHit with
  | none => (st, none)
  | some h =>
    let rel := c.relative h.absStart
    if decodeSamples ≤ rel ∨ tdPendingTimeoutS < c.now - h.firstSeen then
      ({ st with pendingHit := none }, none)
    else
      let h := { h with relStart := some rel }
      ({ st with pendingHit := some h }, some h)

/-- What becomes of the record that awaits confirmation. -/
inductive ConfirmOutcome where
  | decoded (a : Attempt)
  | leftWindow
  | promoted (a : Attempt)
  | timedOut
  | held
  deriving DecidableEq

/-- The tests of `_select_chipset` on `pending_confirm`, in their order. -/
def confirmOutcome (chipset : String) (p : Hit) (c : Call) : ConfirmOutcome :=
  let relC := c.relative p.absStart
  match c.attempts.find? fun a => a.decoded ∧ isNear chipset relC a with
  | some a => .decoded a
  | none =>
    if decodeSamples ≤ relC then .leftWindow
    else
      let timed :=
        if tdTruncationConfirmS < c.now - p.firstSeen then ConfirmOutcome.timedOut else .held
      match c.attempts.find? fun a => !a.decoded ∧ isNear chipset relC a with
      | some a => if isTruncation a.reason then timed else .promoted a
      | none => timed

/-- The attempts a fresh search of the chipset considers: failed, and not
inside the padded span of a packet decoded in this cycle. -/
def chipsetMatches (chipset : String) (attempts : List Attempt) : List Attempt :=
  let spans := (attempts.filter (·.decoded)).map (decodedSpan K)
  attempts.filter fun a => a.chipset = some chipset ∧ !a.decoded ∧
    !spans.any fun s => s.1 - tdPhantomPadS ≤ a.timeS.getD 0 ∧ a.timeS.getD 0 ≤ s.2 + tdPhantomPadS

/-- The search at the end of `_select_chipset`. -/
def searchChipset (st : State) (chipset : String) (c : Call) : State × Option Hit :=
  match chipsetMatches K chipset c.attempts with
  | [] => (st, none)
  | a :: _ =>
    let rel := startSample a
    let candidate : Hit := ⟨st.nextRef, a, c.absolute rel, none, c.now⟩
    let st := { st with nextRef := st.nextRef + 1 }
    if isTruncation a.reason then ({ st with pendingConfirm := some candidate }, none)
    else
      let candidate := { candidate with relStart := some rel }
      ({ st with pendingHit := some candidate }, some candidate)

/-- `_select_chipset` behind the tests on `pending_confirm`. -/
def continueChipset (st : State) (chipset : String) (c : Call) : State × Option Hit :=
  match retryPending st c with
  | (st, some hit) => (st, some hit)
  | (st, none) =>
    if st.pendingConfirm.isSome then (st, none)
    else searchChipset K st chipset c

/-- `_select_chipset`. -/
def selectChipset (st : State) (chipset : String) (c : Call) : State × Option Hit :=
  match st.pendingConfirm with
  | none => continueChipset K st chipset c
  | some p =>
    match confirmOutcome chipset p c with
    | .promoted a =>
      let confirmed : Hit :=
        ⟨st.nextRef, a, p.absStart, some (c.relative p.absStart), c.now⟩
      ({ st with pendingHit := some confirmed, pendingConfirm := none, nextRef := st.nextRef + 1 },
        some confirmed)
    | .held => continueChipset K st chipset c
    | _ => continueChipset K { st with pendingConfirm := none } chipset c

/-- `_select_device`. -/
def selectDevice (st : State) (tdNtwId : Int) (c : Call) : State × Option Hit :=
  match retryPending st c with
  | (st, some hit) => (st, some hit)
  | (st, none) =>
    match c.attempts.filter fun a => a.decoded ∧ a.ntwId = some tdNtwId with
    | [] => (st, none)
    | a :: _ =>
      let a := { a with reason := some (a.reason.getD "ok") }
      let rel := startSample a
      let candidate : Hit := ⟨st.nextRef, a, c.absolute rel, some rel, c.now⟩
      ({ st with pendingHit := some candidate, nextRef := st.nextRef + 1 }, some candidate)

def tdSamples : Int := Py.int (tdWindowS * sampleRate)

def preRoll : Int := Py.int (tdSamples * tdPreRollFrac)

/-- `_render_window`: center, start and end of the segment to render. -/
def renderWindow (h : Hit) : Int × Int × Int :=
  let tdCenter := h.relStart.getD (startSample h.attempt)
  let tdStart := max 0 (tdCenter - preRoll)
  (tdCenter, tdStart, tdStart + tdSamples)

/-- `_captured_status`. -/
def capturedStatus (h : Hit) (tdCenter : Int) : String :=
  let t := "t=" ++ Py.fixed 3 (tdCenter / sampleRate) ++ "s | "
  if h.attempt.decoded then t ++ "DECODED seq=" ++ Py.str h.attempt.seqNum
  else t ++ "FAILED: " ++ h.attempt.reason.getD "unknown"

/-- `_waiting_status`. -/
def waitingStatus (st : State) (c : Call) : Option String :=
  match st.pendingConfirm, c.chipset, c.tdNtwId with
  | some p, _, _ =>
    some ("Possible " ++ c.tdChipset.getD "None" ++ " failure at t=" ++
      Py.fixed 3 (p.attempt.timeS.getD 0) ++ "s cut off by decode window -- confirming...")
  | none, some chipset, _ =>
    some ("Waiting for " ++ chipset ++ " failure... (" ++ toString c.packets.length ++
      " decoded this cycle)")
  | none, none, some _ =>
    some ("Searching... (" ++ toString c.packets.length ++ " pkts, IDs: [" ++
      ", ".intercalate ((c.packets.take 5).map fun p => Py.str p.ntwId) ++ "])")
  | none, none, none => none

/-- The reset on a change of target or while the viewer is off. -/
def resetFor (st : State) (c : Call) : State :=
  if !c.tdOn ∨ c.target ≠ st.target then { st.resetPending with target := c.target } else st

/-- The selection of the target's mode. -/
def findHit (st : State) (c : Call) : State × Option Hit :=
  match c.chipset, c.tdNtwId with
  | some chipset, _ => selectChipset K st chipset c
  | none, some id => selectDevice st id c
  | none, none => (st, none)

/-- Whether a hit is too close to the end of the window to be rendered. -/
def isDeferred (c : Call) (h : Hit) : Prop := c.chunkLen < (renderWindow h).2.2

instance (c : Call) (h : Hit) : Decidable (isDeferred c h) := inferInstanceAs (Decidable (_ < _))

/-- `select_td_capture`. -/
def selectTdCapture (st : State) (c : Call) : State × Result :=
  let st := resetFor st c
  if !c.tdOn then (st, {})
  else
    match findHit K st c with
    | (st, some hit) =>
      let (tdCenter, tdStart, tdEnd) := renderWindow hit
      if isDeferred c hit then
        (if !st.isPending hit then { st with pendingHit := none } else st, {})
      else
        (if st.isPending hit then { st with pendingHit := none } else st,
          { capture := some ⟨hit, tdStart, tdEnd, tdCenter⟩
            status := some (capturedStatus hit tdCenter) })
    | (st, none) => (st, { status := waitingStatus st c })

/-! ## What a selection can do -/

/-- A record made from an attempt that matches the target. -/
def BuiltFrom : Target → Attempt → Hit → Prop
  | .chipset s, a, h => a.chipset = some s ∧ a.decoded = false ∧ h.attempt = a
  | .ntwId n, a, h =>
    a.decoded = true ∧ a.ntwId = some n ∧ h.attempt = { a with reason := some (a.reason.getD "ok") }

def isChipset : Option Target → Bool
  | some (.chipset _) => true
  | _ => false

/-- The outcomes of a selection, with what was tested on the way. `confirm` is
the record awaiting confirmation where it is kept, and `none` where it is given
up. -/
inductive Selects (c : Call) (st : State) : State × Option Hit → Prop where
  | nothing (confirm : Option Hit) (sub : confirm = st.pendingConfirm ∨ confirm = none) :
      Selects c st ({ st with pendingHit := none, pendingConfirm := confirm }, none)
  | retried (h : Hit) (confirm : Option Hit) (sub : confirm = st.pendingConfirm ∨ confirm = none)
      (pending : st.pendingHit = some h) (inside : c.relative h.absStart < decodeSamples)
      (young : c.now - h.firstSeen ≤ tdPendingTimeoutS) :
      Selects c st
        ({ st with
            pendingHit := some { h with relStart := some (c.relative h.absStart) }
            pendingConfirm := confirm },
          some { h with relStart := some (c.relative h.absStart) })
  | promoted (s : String) (p : Hit) (a : Attempt) (target : c.target = some (.chipset s))
      (held : st.pendingConfirm = some p) (mem : a ∈ c.attempts) (chipset : a.chipset = some s)
      (failed : a.decoded = false) (real : isTruncation a.reason = false)
      (inside : c.relative p.absStart < decodeSamples) :
      Selects c st
        (⟨some ⟨st.nextRef, a, p.absStart, some (c.relative p.absStart), c.now⟩, none, st.target,
            st.nextRef + 1⟩,
          some ⟨st.nextRef, a, p.absStart, some (c.relative p.absStart), c.now⟩)
  | suspected (s : String) (a : Attempt) (target : c.target = some (.chipset s))
      (mem : a ∈ c.attempts) (chipset : a.chipset = some s) (failed : a.decoded = false)
      (cut : isTruncation a.reason = true) :
      Selects c st
        (⟨none, some ⟨st.nextRef, a, c.absolute (startSample a), none, c.now⟩, st.target,
            st.nextRef + 1⟩, none)
  | matched (t : Target) (a a' : Attempt) (confirm : Option Hit) (target : c.target = some t)
      (mem : a ∈ c.attempts) (start : startSample a' = startSample a)
      (built : BuiltFrom t a
        ⟨st.nextRef, a', c.absolute (startSample a'), some (startSample a'), c.now⟩)
      (sub : confirm = none ∨ isChipset (some t) = false ∧ confirm = st.pendingConfirm)
      (real : isChipset (some t) = true → isTruncation a'.reason = false) :
      Selects c st
        (⟨some ⟨st.nextRef, a', c.absolute (startSample a'), some (startSample a'), c.now⟩, confirm,
            st.target, st.nextRef + 1⟩,
          some ⟨st.nextRef, a', c.absolute (startSample a'), some (startSample a'), c.now⟩)

theorem retryPending_cases (st : State) (c : Call) :
    retryPending st c = ({ st with pendingHit := none }, none) ∨
      ∃ h, st.pendingHit = some h ∧ c.relative h.absStart < decodeSamples ∧
        c.now - h.firstSeen ≤ tdPendingTimeoutS ∧
        retryPending st c
          = ({ st with pendingHit := some { h with relStart := some (c.relative h.absStart) } },
            some { h with relStart := some (c.relative h.absStart) }) := by
  unfold retryPending
  cases pending : st.pendingHit with
  | none =>
    left
    simp only [← pending]
  | some h =>
    by_cases aged : decodeSamples ≤ c.relative h.absStart ∨ tdPendingTimeoutS < c.now - h.firstSeen
    · left
      simp [aged]
    · right
      rw [not_or] at aged
      refine ⟨h, rfl, lt_of_not_ge aged.1, le_of_not_gt aged.2, ?_⟩
      simp [aged]

theorem mem_chipsetMatches {chipset : String} {attempts rest : List Attempt} {a : Attempt}
    (h : chipsetMatches K chipset attempts = a :: rest) :
    a ∈ attempts ∧ a.chipset = some chipset ∧ a.decoded = false := by
  have mem : a ∈ chipsetMatches K chipset attempts := by simp [h]
  simp only [chipsetMatches, List.mem_filter, decide_eq_true_eq] at mem
  obtain ⟨mem, chip, failed, -⟩ := mem
  exact ⟨mem, chip, by simpa using failed⟩

theorem isNear_iff {chipset : String} {rel : Int} {a : Attempt} :
    isNear chipset rel a = true ↔ a.chipset = some chipset ∧ |startSample a - rel| < matchTol := by
  simp [isNear]

theorem confirmOutcome_promoted {chipset : String} {p : Hit} {c : Call} {a : Attempt}
    (h : confirmOutcome chipset p c = .promoted a) :
    a ∈ c.attempts ∧ isNear chipset (c.relative p.absStart) a = true ∧ a.decoded = false ∧
      isTruncation a.reason = false ∧ c.relative p.absStart < decodeSamples := by
  unfold confirmOutcome at h
  simp only at h
  split at h
  · cases h
  · split at h
    · cases h
    · rename_i inside
      split at h
      · rename_i a' found
        split at h
        · split at h <;> cases h
        · rename_i real
          cases h
          have mem := List.mem_of_find?_eq_some found
          have near := List.find?_some found
          rw [decide_eq_true_eq, Bool.not_eq_true'] at near
          rw [Bool.not_eq_true] at real
          exact ⟨mem, near.2, near.1, real, lt_of_not_ge inside⟩
      · split at h <;> cases h

theorem target_of_chipset {c : Call} {s : String} (h : c.chipset = some s) :
    c.target = some (.chipset s) := by
  simp [Call.target, h]

theorem continueChipset_selects {c : Call} {s : String} (mode : c.chipset = some s) {st st' : State}
    (same : st' = st ∨ st' = { st with pendingConfirm := none }) :
    Selects c st (continueChipset K st' s c) := by
  have target := target_of_chipset mode
  have sub : st'.pendingConfirm = st.pendingConfirm ∨ st'.pendingConfirm = none := by
    rcases same with rfl | rfl
    · exact .inl rfl
    · exact .inr rfl
  have frame : st'.pendingHit = st.pendingHit ∧ st'.target = st.target ∧ st'.nextRef = st.nextRef := by
    rcases same with rfl | rfl <;> exact ⟨rfl, rfl, rfl⟩
  obtain ⟨hit_eq, target_eq, ref_eq⟩ := frame
  unfold continueChipset
  rcases retryPending_cases st' c with gone | ⟨h, pending, inside, young, served⟩
  · rw [gone]
    simp only
    cases confirm : st'.pendingConfirm with
    | some p =>
      rw [confirm] at sub
      have : Selects c st _ := .nothing (some p) sub
      simpa [confirm, ← target_eq, ← ref_eq] using this
    | none =>
      simp only [Option.isSome_none, Bool.false_eq_true, if_false, searchChipset]
      split
      · have : Selects c st _ := .nothing none (.inr rfl)
        simpa [confirm, ← target_eq, ← ref_eq] using this
      · rename_i a rest found
        obtain ⟨mem, chip, failed⟩ := mem_chipsetMatches K found
        by_cases cut : isTruncation a.reason = true
        · have : Selects c st _ := .suspected s a target mem chip failed cut
          simpa [cut, ← target_eq, ← ref_eq] using this
        · rw [Bool.not_eq_true] at cut
          have : Selects c st _ := .matched (.chipset s) a a none target mem rfl
            ⟨chip, failed, rfl⟩ (.inl rfl) fun _ => cut
          simpa [cut, confirm, ← target_eq, ← ref_eq] using this
  · rw [served]
    have : Selects c st _ := .retried h st'.pendingConfirm sub (hit_eq ▸ pending) inside young
    simpa [← target_eq, ← ref_eq] using this

theorem selectChipset_selects {c : Call} {s : String} (mode : c.chipset = some s) (st : State) :
    Selects c st (selectChipset K st s c) := by
  unfold selectChipset
  cases held : st.pendingConfirm with
  | none => exact continueChipset_selects K mode (.inl rfl)
  | some p =>
    cases outcome : confirmOutcome s p c with simp only [outcome]
    | promoted a =>
      obtain ⟨mem, near, failed, real, inside⟩ := confirmOutcome_promoted outcome
      exact .promoted s p a (target_of_chipset mode) held mem (isNear_iff.1 near).1 failed real inside
    | held => exact continueChipset_selects K mode (.inl rfl)
    | decoded a => exact continueChipset_selects K mode (.inr rfl)
    | leftWindow => exact continueChipset_selects K mode (.inr rfl)
    | timedOut => exact continueChipset_selects K mode (.inr rfl)

theorem selectDevice_selects {c : Call} {n : Int} (target : c.target = some (.ntwId n)) (st : State) :
    Selects c st (selectDevice st n c) := by
  unfold selectDevice
  rcases retryPending_cases st c with gone | ⟨h, pending, inside, young, served⟩
  · rw [gone]
    simp only
    split
    · exact .nothing st.pendingConfirm (.inl rfl)
    · rename_i a rest found
      have mem := List.mem_filter.1 (found ▸ List.mem_cons_self (a := a) (l := rest))
      rw [decide_eq_true_eq] at mem
      exact .matched (.ntwId n) a { a with reason := some (a.reason.getD "ok") } st.pendingConfirm
        target mem.1 rfl ⟨mem.2.1, mem.2.2, rfl⟩ (.inr ⟨rfl, rfl⟩) (by simp [isChipset])
  · rw [served]
    exact .retried h st.pendingConfirm (.inl rfl) pending inside young

theorem findHit_chipset {c : Call} {s : String} (mode : c.chipset = some s) (st : State) :
    findHit K st c = selectChipset K st s c := by
  simp [findHit, mode]

/-- **Every selection is one of these outcomes.** -/
theorem findHit_selects (st : State) (c : Call) :
    Selects c st (findHit K st c) ∨ c.target = none ∧ findHit K st c = (st, none) := by
  unfold findHit
  cases mode : c.chipset with
  | some s => exact .inl (selectChipset_selects K mode st)
  | none =>
    cases device : c.tdNtwId with
    | some n => exact .inl (selectDevice_selects (by simp [Call.target, mode, device]) st)
    | none => exact .inr ⟨by simp [Call.target, mode, device], rfl⟩

theorem selects_of_hit {st : State} {c : Call} {h : Hit} (hit : (findHit K st c).2 = some h) :
    Selects c st (findHit K st c) := by
  rcases findHit_selects K st c with selects | ⟨-, nothing⟩
  · exact selects
  · rw [nothing] at hit
    cases hit

end StreamWeb.Td

import StreamWeb.Lib.Machine

/-!
# The transmit flowgraph

`TXFlowgraph` keeps, beside the GNU Radio graph it derives from, three fields
that are to say what that graph is doing. A mode change stops the graph, takes
the old source out, builds and connects the new one, updates the fields and
starts again; any GNU Radio call on the way can raise. `Represents` is the
agreement of the fields with the graph.
-/

namespace StreamWeb

inductive TxMode where
  | tone
  | packet
  deriving DecidableEq

/-- What a source block plays. -/
inductive TxSource where
  | sigSource
  | fileSource (filePath : String) (repeats : Bool)
  deriving DecidableEq

def TxSource.mode : TxSource → TxMode
  | sigSource => .tone
  | fileSource .. => .packet

/-- A source block; no two have the same number. -/
structure TxBlock where
  number : ℕ
  source : TxSource
  deriving DecidableEq

/-- The GNU Radio call of a mode change that raises. -/
inductive GrFault where
  | constructor
  | connect
  | start
  deriving DecidableEq

inductive TxOutcome where
  | returned
  | fileNotFound
  /-- `start` without a source. -/
  | notConfigured
  | raised (fault : GrFault)
  deriving DecidableEq

structure TXFlowgraph where
  /-- The source connected to the sink in the GNU Radio graph. -/
  connected : Option TxBlock := none
  sourceBlock : Option TxBlock := none
  mode : Option TxMode := none
  running : Bool := false
  /-- How many source blocks were built. -/
  built : ℕ := 0
  deriving DecidableEq

namespace TXFlowgraph

/-- `stop` -/
def stop (g : TXFlowgraph) : TXFlowgraph := { g with running := false }

/-- `start`; `fault` tells whether GNU Radio's own `start` raises. -/
def start (g : TXFlowgraph) (fault : Bool) : TXFlowgraph × TxOutcome :=
  if g.sourceBlock = none then (g, .notConfigured)
  else if fault then (g, .raised .start)
  else ({ g with running := true }, .returned)

/-- The first half of a mode change: stop, and disconnect the old source. -/
def takeDown (g : TXFlowgraph) : TXFlowgraph :=
  let g := if g.running then g.stop else g
  if g.sourceBlock ≠ none then { g with connected := none } else g

/-- The second half, once the new source is connected. -/
def install (g : TXFlowgraph) (src : TxBlock) : TXFlowgraph :=
  { g with
    connected := some src, sourceBlock := some src, mode := some src.source.mode
    built := g.built + 1 }

/-- What `tone_mode` and `packet_mode` do under the lock, up to the source they build. -/
def changeMode (g : TXFlowgraph) (source : TxSource) (fault : Option GrFault) :
    TXFlowgraph × TxOutcome :=
  if fault = some .constructor then (g.takeDown, .raised .constructor)
  else if fault = some .connect then
    ({ g.takeDown with built := g.built + 1 }, .raised .connect)
  else if g.running then
    if fault = some .start then (g.takeDown.install ⟨g.built, source⟩, .raised .start)
    else ({ g.takeDown.install ⟨g.built, source⟩ with running := true }, .returned)
  else (g.takeDown.install ⟨g.built, source⟩, .returned)

/-- `tone_mode` -/
def toneMode (g : TXFlowgraph) (fault : Option GrFault) : TXFlowgraph × TxOutcome :=
  g.changeMode .sigSource fault

/-- `packet_mode`; `isFile` tells whether the file exists. -/
def packetMode (g : TXFlowgraph) (filePath : String) (repeats isFile : Bool)
    (fault : Option GrFault) : TXFlowgraph × TxOutcome :=
  if !isFile then (g, .fileNotFound) else g.changeMode (.fileSource filePath repeats) fault

end TXFlowgraph

/-- A call of a method, and what fails in it. -/
inductive TxCall where
  | toneMode (fault : Option GrFault)
  | packetMode (filePath : String) (repeats isFile : Bool) (fault : Option GrFault)
  | start (fault : Bool)
  | stop
  deriving DecidableEq

namespace TXFlowgraph

def call (g : TXFlowgraph) : TxCall → TXFlowgraph × TxOutcome
  | .toneMode fault => g.toneMode fault
  | .packetMode filePath repeats isFile fault => g.packetMode filePath repeats isFile fault
  | .start fault => g.start fault
  | .stop => (g.stop, .returned)

/-- The flowgraph after a sequence of calls. -/
def run (calls : List TxCall) : TXFlowgraph := Machine.after call {} calls

/-- The fields say what the graph is. -/
structure Represents (g : TXFlowgraph) : Prop where
  sourceBlock : g.sourceBlock = g.connected
  mode : g.mode = g.sourceBlock.map fun b => b.source.mode

/-- What a failed mode change is to leave alone. -/
structure Unchanged (g g' : TXFlowgraph) : Prop where
  running : g'.running = g.running
  mode : g'.mode = g.mode
  connected : g'.connected = g.connected

/-- A GNU Radio call of a mode change raises; `start` is only called when the graph was running. -/
def Raises (g : TXFlowgraph) : Option GrFault → Prop
  | none => False
  | some .start => g.running = true
  | some _ => True

/-- The call is a mode change in which a GNU Radio call raises. -/
def FailedChange (g : TXFlowgraph) : TxCall → Prop
  | .toneMode fault => g.Raises fault
  | .packetMode _ _ isFile fault => isFile = true ∧ g.Raises fault
  | .start _ | .stop => False

/-! ## What a mode change does -/

/-- The ways a mode change can end. -/
inductive Changes (g : TXFlowgraph) (source : TxSource) : TXFlowgraph × TxOutcome → Prop
  | done (g' : TXFlowgraph) (src : TxBlock) (connected : g'.connected = some src)
      (sourceBlock : g'.sourceBlock = some src) (mode : g'.mode = some src.source.mode)
      (running : g'.running = g.running) : Changes g source (g', .returned)
  | notConnected (g' : TXFlowgraph) (fault : GrFault)
      (connected : g'.connected = if g.sourceBlock ≠ none then none else g.connected)
      (sourceBlock : g'.sourceBlock = g.sourceBlock) (mode : g'.mode = g.mode)
      (running : g'.running = false) : Changes g source (g', .raised fault)
  | notRestarted (g' : TXFlowgraph) (before : g.running = true) (running : g'.running = false) :
      Changes g source (g', .raised .start)

theorem takeDown_eq (g : TXFlowgraph) :
    g.takeDown = { g with
      running := false
      connected := if g.sourceBlock ≠ none then none else g.connected } := by
  obtain ⟨connected, sourceBlock, mode, running, built⟩ := g
  cases running <;> cases sourceBlock <;> rfl

theorem changeMode_changes (g : TXFlowgraph) (source : TxSource) (fault : Option GrFault) :
    Changes g source (g.changeMode source fault) := by
  unfold changeMode
  rw [takeDown_eq]
  split
  next => exact .notConnected _ _ rfl rfl rfl rfl
  next =>
    split
    next => exact .notConnected _ _ rfl rfl rfl rfl
    next =>
      split
      next running =>
        split
        next => exact .notRestarted _ running rfl
        next => exact .done _ _ rfl rfl rfl running.symm
      next stopped => exact .done _ _ rfl rfl rfl (Bool.eq_false_iff.2 stopped).symm

theorem changeMode_raised_iff (g : TXFlowgraph) (source : TxSource) (fault : Option GrFault) :
    (∃ f, (g.changeMode source fault).2 = .raised f) ↔ g.Raises fault := by
  unfold changeMode
  rcases fault with _ | _ | _ | _
  · cases g.running <;> simp [Raises]
  · simp [Raises]
  · simp [Raises]
  · cases running : g.running <;> simp [Raises, running]

/-- A call is a mode change on its way, leaves everything alone, starts or stops. -/
inductive Calls (g : TXFlowgraph) : TxCall → TXFlowgraph × TxOutcome → Prop
  | change {c : TxCall} {r : TXFlowgraph × TxOutcome} (source : TxSource)
      (failed : FailedChange g c ↔ ∃ f, r.2 = .raised f) (changes : Changes g source r) : Calls g c r
  | refused {c : TxCall} {outcome : TxOutcome} (unfailed : ¬FailedChange g c) :
      Calls g c (g, outcome)
  | started {c : TxCall} (unfailed : ¬FailedChange g c) (source : g.sourceBlock ≠ none) :
      Calls g c ({ g with running := true }, .returned)
  | stopped {c : TxCall} (unfailed : ¬FailedChange g c) : Calls g c (g.stop, .returned)

theorem call_calls (g : TXFlowgraph) (c : TxCall) : Calls g c (g.call c) := by
  cases c with
  | toneMode fault =>
    exact .change .sigSource (changeMode_raised_iff g _ fault).symm (changeMode_changes g _ fault)
  | packetMode filePath repeats isFile fault =>
    cases isFile with
    | false => exact .refused (by simp [FailedChange])
    | true =>
      have failed : FailedChange g (.packetMode filePath repeats true fault) ↔ g.Raises fault := by
        simp [FailedChange]
      exact .change (.fileSource filePath repeats)
        (failed.trans (changeMode_raised_iff g _ fault).symm) (changeMode_changes g _ fault)
  | start fault =>
    simp only [call, start]
    split
    next => exact .refused id
    next source =>
      split
      next => exact .refused id
      next => exact .started id source
  | stop => exact .stopped id

/-- Without a source nothing runs. -/
def Idle (g : TXFlowgraph) : Prop := g.sourceBlock = none → g.running = false

theorem Idle.call {g : TXFlowgraph} (h : Idle g) (c : TxCall) : Idle (g.call c).1 := by
  generalize g.call c = r, call_calls g c = done
  cases done with
  | refused => exact h
  | started _ source => exact fun none => absurd none source
  | stopped => exact fun _ => rfl
  | change source failed changes =>
    intro none
    cases changes with
    | done g' src connected sourceBlock =>
      rw [sourceBlock] at none
      cases none
    | notConnected g' fault connected sourceBlock mode running => exact running
    | notRestarted g' before running => exact running

/-- A failed mode change leaves the transmitter alone exactly when it had no source. -/
theorem unchanged_iff {g : TXFlowgraph} (h : Represents g) (idle : Idle g) {c : TxCall}
    (failed : FailedChange g c) : Unchanged g (g.call c).1 ↔ g.sourceBlock = none := by
  generalize g.call c = r, call_calls g c = done
  cases done with
  | refused unfailed => exact absurd failed unfailed
  | started unfailed => exact absurd failed unfailed
  | stopped unfailed => exact absurd failed unfailed
  | change source raised changes =>
    obtain ⟨f, outcome⟩ := raised.1 failed
    cases changes with
    | done => cases outcome
    | notConnected g' fault connected sourceBlock mode running =>
      constructor
      · intro same
        by_contra some
        have none : g.connected = none := by
          rw [← same.connected, connected, if_pos some]
        exact some (h.sourceBlock.trans none)
      · intro none
        exact ⟨running.trans (idle none).symm, mode, by rw [connected, if_neg (not_not.2 none)]⟩
    | notRestarted g' before running =>
      constructor
      · intro same
        rw [same.running, before] at running
        cases running
      · intro none
        rw [idle none] at before
        cases before

/-- **One call** keeps the agreement, unless a mode change fails while there is a source. -/
theorem Represents.call {g : TXFlowgraph} (h : Represents g) (idle : Idle g) {c : TxCall}
    (harmless : FailedChange g c → g.sourceBlock = none) : Represents (g.call c).1 := by
  generalize g.call c = r, call_calls g c = done
  cases done with
  | refused => exact h
  | started => exact ⟨h.sourceBlock, h.mode⟩
  | stopped => exact ⟨h.sourceBlock, h.mode⟩
  | change source failed changes =>
    cases changes with
    | done g' src connected sourceBlock mode running =>
      exact ⟨sourceBlock.trans connected.symm, by rw [mode, sourceBlock, Option.map_some]⟩
    | notConnected g' fault connected sourceBlock mode running =>
      have none := harmless (failed.2 ⟨fault, rfl⟩)
      rw [if_neg (not_not.2 none)] at connected
      exact ⟨by rw [sourceBlock, connected, h.sourceBlock], by rw [mode, sourceBlock, h.mode]⟩
    | notRestarted g' before running =>
      have none := harmless (failed.2 ⟨.start, rfl⟩)
      rw [idle none] at before
      cases before

theorem run_snoc (calls : List TxCall) (c : TxCall) :
    run (calls ++ [c]) = ((run calls).call c).1 := Machine.after_snoc call {} calls c

/-- Every mode change of the run that fails finds no source. -/
def FailsUnconfigured (calls : List TxCall) : Prop :=
  ∀ before c after, calls = before ++ c :: after →
    FailedChange (run before) c → (run before).sourceBlock = none

theorem FailsUnconfigured.of_append {calls more : List TxCall}
    (h : FailsUnconfigured (calls ++ more)) : FailsUnconfigured calls := by
  rintro before c after rfl
  exact h before c (after ++ more) (by simp)

theorem idle_run (calls : List TxCall) : Idle (run calls) := by
  induction calls using List.reverseRecOn with
  | nil => exact fun _ => rfl
  | append_singleton calls c ih =>
    rw [run_snoc]
    exact ih.call c

/-- **Every run** whose failed mode changes find no source. -/
theorem represents_run {calls : List TxCall} (h : FailsUnconfigured calls) :
    Represents (run calls) := by
  induction calls using List.reverseRecOn with
  | nil => exact ⟨rfl, rfl⟩
  | append_singleton calls c ih =>
    rw [run_snoc]
    exact (ih h.of_append).call (idle_run calls) (h calls c [] rfl)

end TXFlowgraph

open TXFlowgraph in
/-- **When a failed mode change leaves the transmitter as it was.** In a run of calls every mode
change in which a GNU Radio call raises leaves `running`, `mode` and the connected source alone, and
the fields say at every point what the graph is, exactly when every such mode change finds
`_source_block` at `None`. -/
theorem tx_mode_change_iff (calls : List TxCall) :
    ((∀ before c after, calls = before ++ c :: after → FailedChange (run before) c →
        Unchanged (run before) ((run before).call c).1)
      ∧ ∀ before after, calls = before ++ after → Represents (run before))
    ↔ FailsUnconfigured calls := by
  constructor
  · rintro ⟨unchanged, represents⟩ before c after split failed
    exact (unchanged_iff (represents before _ split) (idle_run before) failed).1
      (unchanged before c after split failed)
  · intro h
    constructor
    · rintro before c after rfl failed
      exact (unchanged_iff (represents_run h.of_append) (idle_run before) failed).2
        (h before c after rfl failed)
    · rintro before after rfl
      exact represents_run h.of_append

/-- The tone is on and the file source of a packet raises. -/
def packetFails : List TxCall :=
  [.toneMode none, .start false, .packetMode "packet.iq" true true (some .constructor)]

open TXFlowgraph in
/-- The transmitter is off afterwards and has nothing connected, while the fields still show the
tone, and `start` then runs an empty graph. -/
theorem tx_mode_change_lost :
    ((run (packetFails.take 2)).call (.packetMode "packet.iq" true true (some .constructor))).2
        = .raised .constructor
      ∧ ¬Unchanged (run (packetFails.take 2)) (run packetFails)
      ∧ ¬Represents (run packetFails)
      ∧ ((run packetFails).start false).2 = .returned := by
  refine ⟨by decide, ?_, ?_, by decide⟩
  · intro same
    exact absurd same.running (by decide)
  · intro same
    exact absurd same.sourceBlock (by decide)

end StreamWeb

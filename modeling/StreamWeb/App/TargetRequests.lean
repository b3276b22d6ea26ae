import StreamWeb.App.TargetCell
import StreamWeb.Lib.Interleave

/-!
# Concurrent target requests

The server runs every `POST /api/timedomain` in a thread of its own, and the
setters of `SharedState` take no lock: a start request is a short program of
single assignments, and two kinds of request clear each other's cell in
opposite orders. `selected` is the target `select_td_capture` would find in
the cells. What an interleaving leaves in a cell is the last assignment to it,
so the outcome is decided by the last assignment of the chipset and of the
presence flag.
-/

namespace StreamWeb

/-- One assignment to a shared cell. -/
inductive TargetStep where
  | chipset (v : Option String)
  | ntwId (v : Int)
  | hasNtwId (v : Bool)
  | running (v : Bool)
  deriving DecidableEq

/-- A start request, by what it names. -/
inductive StartRequest where
  | chipset (name : String) (given : name ≠ "")
  | device (id : Int)

/-- What the cells select, as the bytes stored of a chipset's name or a device's id. -/
inductive Selection where
  | chipset (raw : Bytes)
  | ntwId (id : Int)
  deriving DecidableEq

namespace TargetCells

def assign (c : TargetCells) : TargetStep → TargetCells
  | .chipset v => c.setTargetChipset v
  | .ntwId v => { c with ntwId := v.bmod (2 ^ 64) }
  | .hasNtwId v => { c with hasNtwId := v }
  | .running v => c.setRunning v

def runSteps (c : TargetCells) (trace : List TargetStep) : TargetCells := trace.foldl assign c

/-- `current_target` of `select_td_capture`, from the cells. -/
def selected (c : TargetCells) : Option Selection :=
  if c.chipsetArr.value ≠ [] then some (.chipset c.chipsetArr.value)
  else c.targetNtwId.map .ntwId

end TargetCells

namespace StartRequest

/-- The assignments of a request, in the order the source makes them. -/
def steps : StartRequest → List TargetStep
  | chipset name _ => [.chipset (some name), .hasNtwId false, .running true]
  | device id => [.ntwId id, .hasNtwId true, .chipset none, .running true]

/-- The request's body. -/
def action : StartRequest → TdAction
  | chipset name _ => .start (some name) none
  | device id => .start none (some (.int id))

/-- What the request selects when no other interferes. -/
def target : StartRequest → Option Selection
  | chipset name _ => if keptBytes name ≠ [] then some (.chipset (keptBytes name)) else none
  | device id => some (.ntwId (id.bmod (2 ^ 64)))

/-- The steps of a request one after another are the handler. -/
theorem runSteps_steps (K : DecoderConstants) (c : TargetCells) (r : StartRequest) :
    c.runSteps r.steps = (apiTimedomain K c r.action).1 := by
  cases r with
  | chipset name given => simp [steps, action, apiTimedomain, given, TargetCells.runSteps,
      TargetCells.assign, TargetCells.setTargetNtwId]
  | device id => simp [steps, action, apiTimedomain, TargetCells.runSteps,
      TargetCells.assign, TargetCells.setTargetNtwId]

end StartRequest

namespace TargetStep

/-- The bytes a step leaves in the chipset cell. -/
def chipsetBytes : TargetStep → Option Bytes
  | chipset v => some (keptBytes (v.getD ""))
  | _ => none

def idWritten : TargetStep → Option Int
  | ntwId v => some (v.bmod (2 ^ 64))
  | _ => none

def flagWritten : TargetStep → Option Bool
  | hasNtwId v => some v
  | _ => none

def runningWritten : TargetStep → Option Bool
  | running v => some v
  | _ => none

end TargetStep

open LastWrite

/-! ## What an interleaving leaves -/

theorem assign_chipset (c : TargetCells) (step : TargetStep) :
    (c.assign step).chipsetArr.value = step.chipsetBytes.getD c.chipsetArr.value := by
  cases step with
  | chipset v => exact Py.CharArray.value_setValue _ (by simp)
  | _ => rfl

theorem assign_ntwId (c : TargetCells) (step : TargetStep) :
    (c.assign step).ntwId = step.idWritten.getD c.ntwId := by
  cases step <;> rfl

theorem assign_hasNtwId (c : TargetCells) (step : TargetStep) :
    (c.assign step).hasNtwId = step.flagWritten.getD c.hasNtwId := by
  cases step <;> rfl

theorem assign_running (c : TargetCells) (step : TargetStep) :
    (c.assign step).running = step.runningWritten.getD c.running := by
  cases step <;> rfl

theorem runSteps_chipset (c : TargetCells) (trace : List TargetStep) :
    (c.runSteps trace).chipsetArr.value
      = (last TargetStep.chipsetBytes trace).getD c.chipsetArr.value :=
  foldl_eq_last (fun c : TargetCells => c.chipsetArr.value) assign_chipset c trace

theorem runSteps_ntwId (c : TargetCells) (trace : List TargetStep) :
    (c.runSteps trace).ntwId = (last TargetStep.idWritten trace).getD c.ntwId :=
  foldl_eq_last TargetCells.ntwId assign_ntwId c trace

theorem runSteps_hasNtwId (c : TargetCells) (trace : List TargetStep) :
    (c.runSteps trace).hasNtwId = (last TargetStep.flagWritten trace).getD c.hasNtwId :=
  foldl_eq_last TargetCells.hasNtwId assign_hasNtwId c trace

theorem runSteps_running (c : TargetCells) (trace : List TargetStep) :
    (c.runSteps trace).running = (last TargetStep.runningWritten trace).getD c.running :=
  foldl_eq_last TargetCells.running assign_running c trace

section

variable {requests : List StartRequest} {trace : List TargetStep}

/-- A trace consists of the steps of the requests. -/
theorem mem_trace (h : Interleaves (requests.map StartRequest.steps) trace) (step : TargetStep) :
    step ∈ trace ↔ ∃ r ∈ requests, step ∈ r.steps := by
  rw [h.mem_iff]
  simp

/-- A name in the chipset cell was stored by a request for it. -/
theorem exists_of_chipsetBytes (h : Interleaves (requests.map StartRequest.steps) trace) {b : Bytes}
    (stored : last TargetStep.chipsetBytes trace = some b) (named : b ≠ []) :
    ∃ r ∈ requests, r.target = some (.chipset b) := by
  obtain ⟨step, member, written⟩ := exists_of_last stored
  obtain ⟨r, request, inside⟩ := (mem_trace h step).1 member
  cases r with
  | chipset name given =>
    simp only [StartRequest.steps, List.mem_cons, List.not_mem_nil, or_false] at inside
    rcases inside with rfl | rfl | rfl
    · cases written
      exact ⟨_, request, if_pos named⟩
    · cases written
    · cases written
  | device id =>
    simp only [StartRequest.steps, List.mem_cons, List.not_mem_nil, or_false] at inside
    rcases inside with rfl | rfl | rfl | rfl
    · cases written
    · cases written
    · cases written
      exact absurd rfl named
    · cases written

/-- A raised flag was raised by a request for a device, and the id is that of such a request. -/
theorem exists_of_flagWritten (h : Interleaves (requests.map StartRequest.steps) trace)
    (raised : last TargetStep.flagWritten trace = some true) :
    ∃ id, last TargetStep.idWritten trace = some id
      ∧ ∃ r ∈ requests, r.target = some (.ntwId id) := by
  obtain ⟨step, member, written⟩ := exists_of_last raised
  obtain ⟨r, request, inside⟩ := (mem_trace h step).1 member
  have device : ∃ v, .ntwId v ∈ trace := by
    cases r with
    | chipset name given =>
      simp only [StartRequest.steps, List.mem_cons, List.not_mem_nil, or_false] at inside
      rcases inside with rfl | rfl | rfl <;> cases written
    | device id => exact ⟨id, (mem_trace h _).2 ⟨_, request, List.mem_cons_self⟩⟩
  obtain ⟨v, assigned⟩ := device
  obtain ⟨id, stored⟩ := Option.ne_none_iff_exists'.1
    (last_ne_none (f := TargetStep.idWritten) assigned rfl)
  refine ⟨id, stored, ?_⟩
  obtain ⟨step, member, written⟩ := exists_of_last stored
  obtain ⟨r, request, inside⟩ := (mem_trace h step).1 member
  cases r with
  | chipset name given =>
    simp only [StartRequest.steps, List.mem_cons, List.not_mem_nil, or_false] at inside
    rcases inside with rfl | rfl | rfl <;> cases written
  | device id =>
    simp only [StartRequest.steps, List.mem_cons, List.not_mem_nil, or_false] at inside
    rcases inside with rfl | rfl | rfl | rfl
    · cases written
      exact ⟨_, request, rfl⟩
    · cases written
    · cases written
    · cases written

/-- Every request writes the chipset cell, the flag and `td_running`, the last always true. -/
theorem last_written (h : Interleaves (requests.map StartRequest.steps) trace)
    (nonempty : requests ≠ []) :
    (∃ b, last TargetStep.chipsetBytes trace = some b)
      ∧ (∃ f, last TargetStep.flagWritten trace = some f)
      ∧ last TargetStep.runningWritten trace = some true := by
  obtain ⟨r, rest, rfl⟩ := List.exists_cons_of_ne_nil nonempty
  have inside : ∀ step ∈ r.steps, step ∈ trace :=
    fun step member => (mem_trace h step).2 ⟨r, List.mem_cons_self, member⟩
  have assigns : (∃ v, .chipset v ∈ r.steps) ∧ (∃ v, .hasNtwId v ∈ r.steps)
      ∧ .running true ∈ r.steps := by
    cases r <;> simp [StartRequest.steps]
  obtain ⟨⟨v, chipset⟩, ⟨flag, raised⟩, running⟩ := assigns
  refine ⟨Option.ne_none_iff_exists'.1 (last_ne_none (inside _ chipset) rfl),
    Option.ne_none_iff_exists'.1 (last_ne_none (inside _ raised) rfl), ?_⟩
  obtain ⟨on, stored⟩ := Option.ne_none_iff_exists'.1
    (last_ne_none (f := TargetStep.runningWritten) (inside _ running) rfl)
  obtain ⟨step, member, written⟩ := exists_of_last stored
  obtain ⟨r, -, inside⟩ := (mem_trace h step).1 member
  have always : ∀ v, .running v ∈ r.steps → v = true := by
    cases r <;> simp [StartRequest.steps]
  cases step with
  | running v =>
    cases written
    rw [stored, always on inside]
  | _ => cases written

end

/-- What the cells select after an interleaving of at least one request. -/
theorem selected_runSteps {trace : List TargetStep} {b : Bytes} {f : Bool} (c : TargetCells)
    (chipset : last TargetStep.chipsetBytes trace = some b)
    (flag : last TargetStep.flagWritten trace = some f) :
    (c.runSteps trace).selected =
      if b ≠ [] then some (.chipset b)
      else if f then some (.ntwId ((last TargetStep.idWritten trace).getD c.ntwId)) else none := by
  rw [TargetCells.selected, TargetCells.targetNtwId, runSteps_chipset, runSteps_hasNtwId,
    runSteps_ntwId, chipset, flag]
  cases f <;> simp

/-- **When concurrent target requests are serialisable.** For every interleaving of the assignments
of any number of start requests: the cells select the target of one of the requests and capturing
is on exactly when it is not the case that the last assignment of the chipset stores no name and
the last assignment of the presence flag clears it. -/
theorem target_serialisable_iff (requests : List StartRequest) (nonempty : requests ≠ [])
    (c : TargetCells) (trace : List TargetStep)
    (h : Interleaves (requests.map StartRequest.steps) trace) :
    ((∃ r ∈ requests, (c.runSteps trace).selected = r.target)
        ∧ (c.runSteps trace).selected ≠ none ∧ (c.runSteps trace).running = true)
      ↔ ¬(last TargetStep.chipsetBytes trace = some []
        ∧ last TargetStep.flagWritten trace = some false) := by
  obtain ⟨⟨b, chipset⟩, ⟨f, flag⟩, running⟩ := last_written h nonempty
  have on : (c.runSteps trace).running = true := by rw [runSteps_running, running, Option.getD_some]
  rw [on, selected_runSteps c chipset flag, chipset, flag]
  by_cases named : b ≠ []
  · obtain ⟨r, request, target⟩ := exists_of_chipsetBytes h chipset named
    simp only [if_pos named]
    exact iff_of_true ⟨⟨r, request, target.symm⟩, by simp, trivial⟩
      fun ⟨empty, _⟩ => named (Option.some.inj empty)
  · simp only [if_neg named]
    cases f with
    | true =>
      obtain ⟨id, stored, r, request, target⟩ := exists_of_flagWritten h flag
      simp only [stored, if_true, Option.getD_some]
      exact iff_of_true ⟨⟨r, request, target.symm⟩, by simp, trivial⟩ (by simp)
    | false =>
      have empty : b = [] := not_not.1 named
      simp [empty]

/-- Two requests, one for a chipset and one for a device. -/
def chipsetAndDevice : List StartRequest := [.chipset "nrf52" (by decide), .device 7]

/-- Both requests have stored their target before either clears the other's. -/
def clearsBoth : List TargetStep :=
  [.chipset (some "nrf52"), .ntwId 7, .hasNtwId true, .chipset none, .hasNtwId false,
    .running true, .running true]

/-- Each of the two requests clears the target of the other: capturing is on with no target. -/
theorem target_lost :
    Interleaves (chipsetAndDevice.map StartRequest.steps) clearsBoth
      ∧ (TargetCells.initial.runSteps clearsBoth).selected = none
      ∧ (TargetCells.initial.runSteps clearsBoth).running = true := by
  refine ⟨?_, by decide +kernel, by decide +kernel⟩
  refine .step (i := 0) rfl (.step (i := 1) rfl (.step (i := 1) rfl (.step (i := 1) rfl
    (.step (i := 0) rfl (.step (i := 0) rfl (.step (i := 1) rfl (.done ?_)))))))
  decide

/-- The device's request runs first and the chipset's after it. -/
theorem target_serialisable_in_turn :
    (TargetCells.initial.runSteps
      [.ntwId 7, .hasNtwId true, .chipset none, .running true,
        .chipset (some "nrf52"), .hasNtwId false, .running true]).selected ≠ none :=
  ((target_serialisable_iff chipsetAndDevice (by simp [chipsetAndDevice]) .initial _
    (.step (i := 1) rfl (.step (i := 1) rfl (.step (i := 1) rfl (.step (i := 1) rfl
      (.step (i := 0) rfl (.step (i := 0) rfl (.step (i := 0) rfl (.done (by decide)))))))))).2
    (by decide +kernel)).2.1

end StreamWeb

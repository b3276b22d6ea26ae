import StreamWeb.App.Watchdog
import StreamWeb.Config

/-!
# Connecting, losing the connection, and leaving

`rx_loop` opens the SDR, watches that samples arrive, and leaves the process
with `_exit_for_restart` when the SDR stays away. Leaving is a protocol with two
other parties: the workers, each of which stops when it finds `running` cleared,
and the watchdog, which may be re-spawning one at that moment. Every read and
write of what they share is one step, and so is every call that takes time.
-/

namespace StreamWeb

namespace Restart

/-- `_STALE_TIMEOUT_S` -/
def staleTimeoutS : ℚ := 5

/-- `_WORKER_STOP_TIMEOUT_S` -/
def workerStopTimeoutS : ℚ := 3

/-- `_EXIT_CODE_CONNECTION_LOST` -/
def exitCodeConnectionLost : ℕ := 3

end Restart

/-- A worker process. -/
inductive ProcStatus where
  | alive
  /-- It was sent a SIGTERM. -/
  | terminated
  | dead
  deriving DecidableEq

/-- Where the RX thread is. -/
inductive RxPhase where
  /-- At the loop of `_connect`, behind so many attempts. -/
  | retry (attempts : ℕ)
  /-- At `SDRFlowgraph(state)` and `fg.start()`. -/
  | opening (attempts : ℕ)
  /-- At `state.rx_connected.set()`. -/
  | opened
  /-- Waiting to try again, with so many looks at `running` to come. -/
  | pausing (attempts polls : ℕ)
  /-- At the loop of `rx_loop`. -/
  | streaming
  /-- At `fg.seconds_since_last_sample()`. -/
  | checking
  /-- In `_teardown`, because the connection was lost or the loop has ended. -/
  | clearing (lost : Bool)
  /-- At `fg.stop()` and `fg.wait()`. -/
  | stopping (lost : Bool)
  /-- In `_exit_for_restart`, at `state.running.clear()`. -/
  | leaving
  /-- At `list(state.workers.values())`. -/
  | listing
  /-- In the first loop over `workers`. -/
  | joining (deadline : ℚ) (todo workers : List ℕ)
  /-- In the second. -/
  | terminating (todo : List ℕ)
  /-- Behind `os._exit`. -/
  | exited
  /-- `rx_loop` has returned. -/
  | returned
  deriving DecidableEq

/-- Where the watchdog is. -/
inductive DogPhase where
  | loop
  /-- In the `for` loop. -/
  | looking (todo : List (String × ℕ))
  /-- It has called `proc.is_alive()`; at `state.running`. -/
  | looked (name : String) (isAlive : Bool) (todo : List (String × ℕ))
  /-- At the spawn and `new_proc.start()`. -/
  | spawning (name : String) (todo : List (String × ℕ))
  /-- At `state.workers[name] = new_proc`. -/
  | storing (name : String) (newProc : ℕ) (todo : List (String × ℕ))
  | ended
  deriving DecidableEq

/-- What the RX thread, the watchdog and the workers share, and where they are. Processes are numbered
in the order in which they are started. -/
structure RestartState where
  running : Bool := true
  rxConnected : Bool := false
  /-- The flowgraph exists and was not stopped. -/
  flowgraph : Bool := false
  lastWorkTime : ℚ := 0
  workers : List (String × ℕ)
  procs : ℕ → ProcStatus
  started : ℕ
  rx : RxPhase := .retry 0
  dog : DogPhase := .loop
  watchdog : Watchdog := {}

/-- What a reader of the log finds. -/
inductive RxNote where
  /-- The SDR was opened, or was not. -/
  | attempt (success : Bool)
  /-- No samples for so long. -/
  | lost (idleS : ℚ)
  | exit (code : ℕ)
  deriving DecidableEq

inductive RestartStep where
  /-- The next step of the RX thread; `ok` tells whether the call it makes succeeds, where it makes
  one that can fail. -/
  | rx (now : ℚ) (ok : Bool)
  /-- The next step of the watchdog. -/
  | dog (now : ℚ)
  /-- `_BufferSink.work` is called. -/
  | work (now : ℚ)
  /-- A worker looks at `running`, and stops when it is cleared. -/
  | look (proc : ℕ)
  /-- A process ends, for whatever reason. -/
  | dies (proc : ℕ)
  /-- Someone else clears `running`. -/
  | stop

namespace RestartState

open Restart

variable (s : RestartState)

/-- `main` has started a worker for each of these names. -/
def initial (names : List String) : RestartState where
  workers := names.zipIdx
  procs p := if p < names.length then .alive else .dead
  started := names.length

/-- Process `p` is in the status `status` from now on. -/
def setProc (p : ℕ) (status : ProcStatus) : RestartState :=
  { s with procs := Function.update s.procs p status }

/-- `state.workers[name] = new_proc`, for a name that is there. -/
def setWorker (name : String) (newProc : ℕ) : RestartState :=
  { s with workers := s.workers.map fun w => if w.1 = name then (name, newProc) else w }

/-- The next step of `rx_loop`, with what it calls. The gain and the LO, which it looks at in between,
have their own models. -/
def rxStep (now : ℚ) (ok : Bool) : RestartState × Option RxNote :=
  match s.rx with
  | .retry attempts =>
    ({ s with rx := if s.running then .opening (attempts + 1) else .returned }, none)
  | .opening attempts =>
    if ok then
      ({ s with flowgraph := true, lastWorkTime := now, rx := .opened }, some (.attempt true))
    else if Config.sdrOpenAttemptsBeforeRestart ≤ attempts then
      ({ s with rx := .leaving }, some (.attempt false))
    else
      ({ s with rx := .pausing attempts (Config.sdrRetryIntervalS * 10) }, some (.attempt false))
  | .opened => ({ s with rxConnected := true, rx := .streaming }, none)
  | .pausing attempts 0 => ({ s with rx := .retry attempts }, none)
  | .pausing attempts (polls + 1) =>
    ({ s with rx := if s.running then .pausing attempts polls else .returned }, none)
  | .streaming => ({ s with rx := if s.running then .checking else .clearing false }, none)
  | .checking =>
    if staleTimeoutS < now - s.lastWorkTime then
      ({ s with rx := .clearing true }, some (.lost (now - s.lastWorkTime)))
    else ({ s with rx := .streaming }, none)
  | .clearing lost => ({ s with rxConnected := false, rx := .stopping lost }, none)
  | .stopping lost =>
    ({ s with
        flowgraph := s.flowgraph && !ok, rx := if lost then .leaving else .returned }, none)
  | .leaving => ({ s with running := false, rx := .listing }, none)
  | .listing =>
    ({ s with
        rx := .joining (now + workerStopTimeoutS) (s.workers.map (·.2)) (s.workers.map (·.2)) },
      none)
  | .joining deadline (p :: todo) workers =>
    if s.procs p = .dead ∨ deadline ≤ now then
      ({ s with rx := .joining deadline todo workers }, none)
    else (s, none)
  | .joining _ [] workers => ({ s with rx := .terminating workers }, none)
  | .terminating (p :: todo) =>
    if s.procs p = .dead then ({ s with rx := .terminating todo }, none)
    else ({ s.setProc p .terminated with rx := .terminating todo }, none)
  | .terminating [] => ({ s with rx := .exited }, some (.exit exitCodeConnectionLost))
  | .exited | .returned => (s, none)

/-- The next step of `_worker_watchdog`. Behind `os._exit` no thread takes one. -/
def dogStep (now : ℚ) : RestartState :=
  if s.rx = .exited then s
  else
    match s.dog with
    | .loop => { s with dog := if s.running then .looking s.workers else .ended }
    | .looking [] => { s with dog := .loop }
    | .looking ((name, p) :: todo) => { s with dog := .looked name (s.procs p ≠ .dead) todo }
    | .looked name isAlive todo =>
      match s.watchdog.check ⟨name, isAlive, s.running, now⟩ with
      | (watchdog, .restart _) => { s with watchdog := watchdog, dog := .spawning name todo }
      | (watchdog, _) => { s with watchdog := watchdog, dog := .looking todo }
    | .spawning name todo =>
      { s.setProc s.started .alive with
        started := s.started + 1, dog := .storing name s.started todo }
    | .storing name newProc todo => { s.setWorker name newProc with dog := .looking todo }
    | .ended => s

def step : RestartStep → RestartState × Option RxNote
  | .rx now ok => s.rxStep now ok
  | .dog now => (s.dogStep now, none)
  | .work now => (if s.flowgraph then { s with lastWorkTime := now } else s, none)
  | .look p => (if s.procs p = .alive ∧ s.running = false then s.setProc p .dead else s, none)
  | .dies p => (s.setProc p .dead, none)
  | .stop => ({ s with running := false }, none)

/-- The state after a run. -/
def run (names : List String) (steps : List RestartStep) : RestartState :=
  Machine.after step (initial names) steps

/-- What was logged in a run. -/
def notes (names : List String) (steps : List RestartStep) : List RxNote :=
  (Machine.outputs step (initial names) steps).filterMap id

theorem run_snoc (names : List String) (steps : List RestartStep) (e : RestartStep) :
    run names (steps ++ [e]) = ((run names steps).step e).1 :=
  Machine.after_snoc step (initial names) steps e

theorem notes_snoc (names : List String) (steps : List RestartStep) (e : RestartStep) :
    notes names (steps ++ [e]) = notes names steps ++ ((run names steps).step e).2.toList := by
  rw [notes, Machine.outputs_snoc, List.filterMap_append, ← notes, run]
  cases ((Machine.after step (initial names) steps).step e).2 <;> simp

/-! ## What a step does -/

variable {s : RestartState} {now : ℚ} {ok : Bool}

/-- What a step of the RX thread can do, with what it tested. -/
inductive RxSteps (s : RestartState) (now : ℚ) (ok : Bool) :
    RxPhase → RestartState × Option RxNote → Prop
  | tries {attempts : ℕ} (on : s.running = true) :
      RxSteps s now ok (.retry attempts) ({ s with rx := .opening (attempts + 1) }, none)
  | untried {attempts : ℕ} (off : s.running = false) :
      RxSteps s now ok (.retry attempts) ({ s with rx := .returned }, none)
  | opens {attempts : ℕ} :
      RxSteps s now ok (.opening attempts)
        ({ s with flowgraph := true, lastWorkTime := now, rx := .opened }, some (.attempt true))
  | givesUp {attempts : ℕ} (enough : Config.sdrOpenAttemptsBeforeRestart ≤ attempts) :
      RxSteps s now ok (.opening attempts) ({ s with rx := .leaving }, some (.attempt false))
  | pauses {attempts polls : ℕ} (more : attempts < Config.sdrOpenAttemptsBeforeRestart) :
      RxSteps s now ok (.opening attempts)
        ({ s with rx := .pausing attempts polls }, some (.attempt false))
  | connects :
      RxSteps s now ok .opened ({ s with rxConnected := true, rx := .streaming }, none)
  | again {attempts : ℕ} :
      RxSteps s now ok (.pausing attempts 0) ({ s with rx := .retry attempts }, none)
  | polls {attempts polls : ℕ} :
      RxSteps s now ok (.pausing attempts (polls + 1)) ({ s with rx := .pausing attempts polls }, none)
  | unpaused {attempts polls : ℕ} (off : s.running = false) :
      RxSteps s now ok (.pausing attempts (polls + 1)) ({ s with rx := .returned }, none)
  | checks : RxSteps s now ok .streaming ({ s with rx := .checking }, none)
  | ends (off : s.running = false) :
      RxSteps s now ok .streaming ({ s with rx := .clearing false }, none)
  | loses (stale : staleTimeoutS < now - s.lastWorkTime) :
      RxSteps s now ok .checking
        ({ s with rx := .clearing true }, some (.lost (now - s.lastWorkTime)))
  | stays (fresh : ¬staleTimeoutS < now - s.lastWorkTime) :
      RxSteps s now ok .checking ({ s with rx := .streaming }, none)
  | clears {lost : Bool} :
      RxSteps s now ok (.clearing lost) ({ s with rxConnected := false, rx := .stopping lost }, none)
  | stopsLost :
      RxSteps s now ok (.stopping true)
        ({ s with flowgraph := s.flowgraph && !ok, rx := .leaving }, none)
  | stops :
      RxSteps s now ok (.stopping false)
        ({ s with flowgraph := s.flowgraph && !ok, rx := .returned }, none)
  | leaves : RxSteps s now ok .leaving ({ s with running := false, rx := .listing }, none)
  | lists :
      RxSteps s now ok .listing
        ({ s with
            rx := .joining (now + workerStopTimeoutS) (s.workers.map (·.2)) (s.workers.map (·.2)) },
          none)
  | joins {deadline : ℚ} {p : ℕ} {todo workers : List ℕ} (due : s.procs p = .dead ∨ deadline ≤ now) :
      RxSteps s now ok (.joining deadline (p :: todo) workers)
        ({ s with rx := .joining deadline todo workers }, none)
  | waits {deadline : ℚ} {p : ℕ} {todo workers : List ℕ} (early : now < deadline) :
      RxSteps s now ok (.joining deadline (p :: todo) workers) (s, none)
  | joined {deadline : ℚ} {workers : List ℕ} :
      RxSteps s now ok (.joining deadline [] workers) ({ s with rx := .terminating workers }, none)
  | isDead {p : ℕ} {todo : List ℕ} (dead : s.procs p = .dead) :
      RxSteps s now ok (.terminating (p :: todo)) ({ s with rx := .terminating todo }, none)
  | terminates {p : ℕ} {todo : List ℕ} (present : s.procs p ≠ .dead) :
      RxSteps s now ok (.terminating (p :: todo))
        ({ s.setProc p .terminated with rx := .terminating todo }, none)
  | exits :
      RxSteps s now ok (.terminating []) ({ s with rx := .exited }, some (.exit exitCodeConnectionLost))
  | exited : RxSteps s now ok .exited (s, none)
  | returned : RxSteps s now ok .returned (s, none)

theorem rxStep_steps (s : RestartState) (now : ℚ) (ok : Bool) :
    RxSteps s now ok s.rx (s.rxStep now ok) := by
  unfold rxStep
  cases s.rx with
  | retry attempts =>
    dsimp only
    split
    next on => exact .tries on
    next off => exact .untried (Bool.eq_false_of_not_eq_true off)
  | opening attempts =>
    dsimp only
    split
    next => exact .opens
    next =>
      split
      next enough => exact .givesUp enough
      next more => exact .pauses (Nat.lt_of_not_le more)
  | opened => exact .connects
  | pausing attempts polls =>
    cases polls with
    | zero => exact .again
    | succ polls =>
      dsimp only
      split
      next => exact .polls
      next off => exact .unpaused (Bool.eq_false_of_not_eq_true off)
  | streaming =>
    dsimp only
    split
    next => exact .checks
    next off => exact .ends (Bool.eq_false_of_not_eq_true off)
  | checking =>
    dsimp only
    split
    next stale => exact .loses stale
    next fresh => exact .stays fresh
  | clearing lost => exact .clears
  | stopping lost =>
    cases lost with
    | true => exact .stopsLost
    | false => exact .stops
  | leaving => exact .leaves
  | listing => exact .lists
  | joining deadline todo workers =>
    cases todo with
    | nil => exact .joined
    | cons p todo =>
      dsimp only
      split
      next due => exact .joins due
      next early => exact .waits (not_le.1 fun late => early (.inr late))
  | terminating todo =>
    cases todo with
    | nil => exact .exits
    | cons p todo =>
      dsimp only
      split
      next dead => exact .isDead dead
      next present => exact .terminates present
  | exited => exact .exited
  | returned => exact .returned

/-- What a step of the watchdog can do, with what it tested. -/
inductive DogSteps (s : RestartState) : DogPhase → RestartState → Prop
  | nothing {phase : DogPhase} : DogSteps s phase s
  | looks : DogSteps s .loop { s with dog := .looking s.workers }
  | ends : DogSteps s .loop { s with dog := .ended }
  | sleeps : DogSteps s (.looking []) { s with dog := .loop }
  | isAlive {name : String} {p : ℕ} {todo : List (String × ℕ)} :
      DogSteps s (.looking ((name, p) :: todo)) { s with dog := .looked name (s.procs p ≠ .dead) todo }
  | skips {name : String} {isAlive : Bool} {todo : List (String × ℕ)} (watchdog : Watchdog) :
      DogSteps s (.looked name isAlive todo) { s with watchdog := watchdog, dog := .looking todo }
  | restarts {name : String} {todo : List (String × ℕ)} (on : s.running = true)
      (watchdog : Watchdog) :
      DogSteps s (.looked name false todo) { s with watchdog := watchdog, dog := .spawning name todo }
  | spawns {name : String} {todo : List (String × ℕ)} :
      DogSteps s (.spawning name todo)
        { s.setProc s.started .alive with
          started := s.started + 1, dog := .storing name s.started todo }
  | stores {name : String} {newProc : ℕ} {todo : List (String × ℕ)} :
      DogSteps s (.storing name newProc todo) { s.setWorker name newProc with dog := .looking todo }

theorem dogStep_steps (s : RestartState) (now : ℚ) : DogSteps s s.dog (s.dogStep now) := by
  unfold dogStep
  split
  next => exact .nothing
  next =>
    cases s.dog with
    | loop =>
      dsimp only
      split
      next => exact .looks
      next => exact .ends
    | looking todo =>
      cases todo with
      | nil => exact .sleeps
      | cons w todo => exact .isAlive
    | looked name isAlive todo =>
      dsimp only
      have checks := s.watchdog.check_checks ⟨name, isAlive, s.running, now⟩
      generalize s.watchdog.check ⟨name, isAlive, s.running, now⟩ = result at checks ⊢
      cases checks with
      | skip reason => exact .skips _
      | giveUp dead kept on full => exact .skips _
      | restart dead kept on room =>
        obtain rfl : isAlive = false := dead
        exact .restarts on _
    | spawning name todo => exact .spawns
    | storing name newProc todo => exact .stores
    | ended => exact .nothing

/-! ## Why the process is left -/

/-- Whether the SDR was opened, at each attempt in turn. -/
def attempts (log : List RxNote) : List Bool :=
  log.filterMap fun
    | .attempt success => some success
    | _ => none

/-- So many attempts have failed and no other was made. -/
def Failed (n : ℕ) (log : List RxNote) : Prop := attempts log = List.replicate n false

/-- The SDR was opened, before the attempts were used up. -/
def Opened (log : List RxNote) : Prop :=
  ∃ n < Config.sdrOpenAttemptsBeforeRestart, attempts log = List.replicate n false ++ [true]

/-- It was found that no samples came for too long. -/
def Lost (log : List RxNote) : Prop := ∃ idleS, staleTimeoutS < idleS ∧ .lost idleS ∈ log

/-- The SDR stays away: every attempt has failed, or it was open and the samples have stopped. -/
def Gone (log : List RxNote) : Prop :=
  Failed Config.sdrOpenAttemptsBeforeRestart log ∨ Opened log ∧ Lost log

/-- What is in the log where the RX thread is in a phase. -/
def History (log : List RxNote) : RxPhase → Prop
  | .retry n => n < Config.sdrOpenAttemptsBeforeRestart ∧ Failed n log
  | .pausing n _ => n < Config.sdrOpenAttemptsBeforeRestart ∧ Failed n log
  | .opening n => ∃ m < Config.sdrOpenAttemptsBeforeRestart, n = m + 1 ∧ Failed m log
  | .opened | .streaming | .checking | .clearing false | .stopping false => Opened log
  | .clearing true | .stopping true => Opened log ∧ Lost log
  | .leaving | .listing | .joining _ _ _ | .terminating _ | .exited => Gone log
  | .returned => Opened log ∨ ∃ n < Config.sdrOpenAttemptsBeforeRestart, Failed n log

/-- The flowgraph runs as long as it is said to be connected, which is until it is lost. -/
structure Connection (s : RestartState) : Prop where
  flowgraph : s.rxConnected = true → s.flowgraph = true
  phase : s.rxConnected = true →
    s.rx = .streaming ∨ s.rx = .checking ∨ ∃ lost, s.rx = .clearing lost
  opened : s.rx = .opened → s.flowgraph = true

theorem attempts_concat (log : List RxNote) (note : RxNote) :
    attempts (log ++ [note]) = attempts log ++ attempts [note] := by
  simp [attempts]

theorem Failed.attempt {n : ℕ} {log : List RxNote} (h : Failed n log) :
    Failed (n + 1) (log ++ [.attempt false]) := by
  rw [Failed, attempts_concat, h, List.replicate_succ']
  rfl

theorem Failed.opens {n : ℕ} {log : List RxNote} (h : Failed n log)
    (few : n < Config.sdrOpenAttemptsBeforeRestart) : Opened (log ++ [.attempt true]) :=
  ⟨n, few, by rw [attempts_concat, h]; rfl⟩

theorem Opened.lost {log : List RxNote} (h : Opened log) (idleS : ℚ) :
    Opened (log ++ [.lost idleS]) := by
  obtain ⟨n, few, eq⟩ := h
  exact ⟨n, few, by rw [attempts_concat, eq]; simp [attempts]⟩

theorem Gone.exit {log : List RxNote} (h : Gone log) (code : ℕ) : Gone (log ++ [.exit code]) := by
  have same : attempts (log ++ [.exit code]) = attempts log := by
    rw [attempts_concat]
    simp [attempts]
  rcases h with failed | ⟨⟨n, few, opened⟩, ⟨idleS, long, mem⟩⟩
  · exact .inl (same.trans failed)
  · exact .inr ⟨⟨n, few, same.trans opened⟩, idleS, long, List.mem_append_left _ mem⟩

theorem History.quiet {log : List RxNote} {phase : RxPhase} (h : History log phase) :
    History (log ++ []) phase := by
  rwa [List.append_nil]

/-- Wherever the RX thread is, the attempts are not used up or the SDR was not opened behind them. -/
theorem History.attempts {log : List RxNote} {phase : RxPhase} (h : History log phase) :
    (∃ n ≤ Config.sdrOpenAttemptsBeforeRestart, Failed n log) ∨ Opened log := by
  have gone : Gone log → (∃ n ≤ Config.sdrOpenAttemptsBeforeRestart, Failed n log) ∨ Opened log := by
    rintro (failed | ⟨opened, -⟩)
    · exact .inl ⟨_, le_rfl, failed⟩
    · exact .inr opened
  cases phase with
  | retry n => exact .inl ⟨n, h.1.le, h.2⟩
  | pausing n polls => exact .inl ⟨n, h.1.le, h.2⟩
  | opening n =>
    obtain ⟨m, few, -, failed⟩ := h
    exact .inl ⟨m, few.le, failed⟩
  | opened | streaming | checking => exact .inr h
  | clearing lost | stopping lost =>
    cases lost with
    | true => exact .inr h.1
    | false => exact .inr h
  | returned =>
    rcases h with opened | ⟨n, few, failed⟩
    · exact .inr opened
    · exact .inl ⟨n, few.le, failed⟩
  | _ => exact gone h

theorem history_rxStep {log : List RxNote} (h : History log s.rx) :
    History (log ++ (s.rxStep now ok).2.toList) (s.rxStep now ok).1.rx := by
  have steps := rxStep_steps s now ok
  generalize s.rxStep now ok = r at steps ⊢
  generalize here : s.rx = phase at steps h
  cases steps with
  | tries on =>
    obtain ⟨few, failed⟩ := h
    exact History.quiet (show History log (.opening _) from ⟨_, few, rfl, failed⟩)
  | untried off => exact History.quiet (show History log .returned from .inr ⟨_, h⟩)
  | opens =>
    obtain ⟨m, few, -, failed⟩ := h
    exact failed.opens few
  | givesUp enough =>
    obtain ⟨m, few, rfl, failed⟩ := h
    have all : m + 1 = Config.sdrOpenAttemptsBeforeRestart := Nat.le_antisymm few enough
    exact .inl (all ▸ failed.attempt)
  | pauses more =>
    obtain ⟨m, few, rfl, failed⟩ := h
    exact ⟨more, failed.attempt⟩
  | loses stale => exact ⟨h.lost _, _, stale, by simp⟩
  | unpaused off => exact History.quiet (show History log .returned from .inr ⟨_, h⟩)
  | stopsLost => exact History.quiet (show History log .leaving from .inr h)
  | stops => exact History.quiet (show History log .returned from .inl h)
  | clears =>
    rename_i lost
    cases lost with
    | true => exact History.quiet (show History log (.stopping true) from h)
    | false => exact History.quiet (show History log (.stopping false) from h)
  | exits => exact Gone.exit h _
  | waits early =>
    rw [← here] at h
    exact h.quiet
  | exited | returned =>
    rw [← here] at h
    exact h.quiet
  | _ => exact History.quiet h

theorem connection_rxStep (h : Connection s) : Connection (s.rxStep now ok).1 := by
  have steps := rxStep_steps s now ok
  generalize s.rxStep now ok = r at steps ⊢
  generalize here : s.rx = phase at steps
  obtain ⟨flowgraph, connected, opened⟩ := h
  rw [here] at connected opened
  cases steps with
  | opens => exact ⟨fun _ => rfl, fun on => by simpa using connected on, fun _ => rfl⟩
  | connects => exact ⟨fun _ => opened rfl, fun _ => .inl rfl, by simp⟩
  | checks => exact ⟨flowgraph, fun _ => .inr (.inl rfl), by simp⟩
  | stays fresh => exact ⟨flowgraph, fun _ => .inl rfl, by simp⟩
  | ends off => exact ⟨flowgraph, fun _ => .inr (.inr ⟨_, rfl⟩), by simp⟩
  | loses stale => exact ⟨flowgraph, fun _ => .inr (.inr ⟨_, rfl⟩), by simp⟩
  | clears => exact ⟨by simp, by simp, by simp⟩
  | stopsLost => exact ⟨fun on => by simpa using connected on, fun on => by simpa using connected on, by simp⟩
  | stops => exact ⟨fun on => by simpa using connected on, fun on => by simpa using connected on, by simp⟩
  | waits early => exact ⟨flowgraph, by rwa [here], by simp [here]⟩
  | exited | returned => exact ⟨flowgraph, by rwa [here], by simp [here]⟩
  | _ => exact ⟨flowgraph, fun on => by simpa using connected on, by simp⟩

/-- What only the RX thread changes. -/
structure SameRx (s s' : RestartState) : Prop where
  rx : s'.rx = s.rx
  rxConnected : s'.rxConnected = s.rxConnected
  flowgraph : s'.flowgraph = s.flowgraph

theorem SameRx.connection {s' : RestartState} (same : SameRx s s') (h : Connection s) :
    Connection s' := by
  obtain ⟨rx, rxConnected, flowgraph⟩ := same
  exact ⟨by rw [rxConnected, flowgraph]; exact h.flowgraph, by rw [rxConnected, rx]; exact h.phase,
    by rw [rx, flowgraph]; exact h.opened⟩

theorem sameRx_dogStep (s : RestartState) (now : ℚ) : SameRx s (s.dogStep now) := by
  have steps := dogStep_steps s now
  generalize s.dog = phase, s.dogStep now = s' at steps ⊢
  cases steps <;> exact ⟨rfl, rfl, rfl⟩

/-- The steps of the other parties, which log nothing. -/
theorem sameRx_step {e : RestartStep} (other : ∀ now ok, e ≠ .rx now ok) :
    SameRx s (s.step e).1 ∧ (s.step e).2 = none := by
  cases e with
  | rx now ok => exact absurd rfl (other now ok)
  | dog now => exact ⟨sameRx_dogStep s now, rfl⟩
  | work now =>
    refine ⟨?_, rfl⟩
    simp only [step]
    split <;> exact ⟨rfl, rfl, rfl⟩
  | look p =>
    refine ⟨?_, rfl⟩
    simp only [step]
    split <;> exact ⟨rfl, rfl, rfl⟩
  | dies p => exact ⟨⟨rfl, rfl, rfl⟩, rfl⟩
  | stop => exact ⟨⟨rfl, rfl, rfl⟩, rfl⟩

theorem step_cases (e : RestartStep) :
    (∃ now ok, e = .rx now ok) ∨ ∀ now ok, e ≠ .rx now ok := by
  cases e <;> simp

theorem history_run (names : List String) (steps : List RestartStep) :
    History (notes names steps) (run names steps).rx ∧ Connection (run names steps) := by
  induction steps using List.reverseRecOn with
  | nil => exact ⟨⟨by decide, rfl⟩, by simp [run, initial], by simp [run, initial], by simp [run, initial]⟩
  | append_singleton steps e ih =>
    rw [run_snoc, notes_snoc]
    obtain ⟨history, connection⟩ := ih
    rcases step_cases e with ⟨now, ok, rfl⟩ | other
    · exact ⟨history_rxStep history, connection_rxStep connection⟩
    · obtain ⟨same, silent⟩ := sameRx_step (s := run names steps) other
      rw [silent, same.rx]
      exact ⟨history.quiet, same.connection connection⟩

/-- An exit is logged behind the last step of the RX thread, with its own code. -/
theorem exited_of_exit {names : List String} {steps : List RestartStep} {code : ℕ}
    (logged : .exit code ∈ notes names steps) :
    code = exitCodeConnectionLost ∧ (run names steps).rx = .exited := by
  induction steps using List.reverseRecOn with
  | nil => simp [notes, Machine.outputs] at logged
  | append_singleton steps e ih =>
    rw [notes_snoc, List.mem_append, Option.mem_toList] at logged
    rw [run_snoc]
    rcases step_cases e with ⟨now, ok, rfl⟩ | other
    · have moves := rxStep_steps (run names steps) now ok
      simp only [step] at logged ⊢
      generalize (run names steps).rxStep now ok = r at moves logged ⊢
      rcases logged with before | new
      · obtain ⟨own, exited⟩ := ih before
        rw [exited] at moves
        cases moves
        exact ⟨own, exited⟩
      · generalize (run names steps).rx = phase at moves
        cases moves <;> cases new
        exact ⟨rfl, rfl⟩
    · obtain ⟨same, silent⟩ := sameRx_step (s := run names steps) other
      rw [silent] at logged
      rcases logged with before | new
      · rw [same.rx]
        exact ih before
      · cases new

end RestartState

open RestartState in
/-- **Why the process is left.** In every run, whatever the other parties do: the SDR is opened at most
ten times and never again once it was; it is said to be connected only while the flowgraph runs; and
the process is left with code three, connected no more, and only where all ten attempts have failed or
the SDR was open and no samples had come for more than five seconds. -/
theorem restart_reasons (names : List String) (steps : List RestartStep) :
    ((∃ n ≤ Config.sdrOpenAttemptsBeforeRestart, Failed n (notes names steps)) ∨
      Opened (notes names steps)) ∧
    ((run names steps).rxConnected = true → (run names steps).flowgraph = true) ∧
    ∀ code, .exit code ∈ notes names steps →
      code = 3 ∧ (run names steps).rxConnected = false ∧ Gone (notes names steps) := by
  obtain ⟨history, connection⟩ := history_run names steps
  refine ⟨history.attempts, connection.flowgraph, ?_⟩
  intro code logged
  obtain ⟨own, exited⟩ := exited_of_exit logged
  rw [exited] at history
  refine ⟨own, ?_, history⟩
  by_contra on
  have phase := connection.phase (Bool.eq_true_of_not_eq_false on)
  rw [exited] at phase
  simp at phase

end StreamWeb

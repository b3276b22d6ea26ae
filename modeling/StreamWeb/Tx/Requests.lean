import Mathlib.Logic.Function.Basic
import StreamWeb.Tx.Flowgraph

/-!
# Requests to the transmitter

Flask serves every request in a thread of its own. The threads share the global
`tx_fg`, which is set on first use without a lock, and the flowgraphs, of which
only a mode change takes the lock: starting and stopping go past it. A request
is here the statement it has come to, and GNU Radio's graph the one bit `onAir`:
it is started, stopped, or at the end of a file that is played once.

`_running` is written behind the call that starts or stops the graph. While no
start and stop of the same flowgraph overlap it never denies a transmission, and
where it claims one that is over, the graph has gone off without a record:
`running_tells_onAir`.
-/

namespace StreamWeb

/-- A flowgraph that was opened. -/
structure TxUnit where
  fg : TXFlowgraph := {}
  /-- GNU Radio's graph runs. -/
  onAir : Bool := false
  /-- A mode change holds `_lock`. -/
  locked : Bool := false

/-- The graph plays a file that is not repeated. -/
def TxUnit.playsOnce (u : TxUnit) : Bool :=
  match u.fg.connected with
  | some ⟨_, .fileSource _ false⟩ => true
  | _ => false

/-- The GNU Radio call that raises. -/
inductive TxFault where
  | topBlock
  | stop
  | wait
  | disconnectAll
  | constructor
  | connect
  | start
  deriving DecidableEq

/-- Where a request is: at the statement named. A start asks for a source, or for none: it is
refused once it has a flowgraph, as are an unknown mode and a file that does not exist. -/
inductive TxPhase where
  /-- `if tx_fg is None` -/
  | look (source : Option TxSource)
  /-- `TXFlowgraph()` -/
  | construct (source : Option TxSource)
  /-- `tx_fg = ` -/
  | assign (source : Option TxSource) (n : ℕ)
  /-- `return tx_fg` -/
  | fetch (source : Option TxSource)
  /-- `with self._lock`, and `was_running = self._running` -/
  | lock (source : Option TxSource) (n : ℕ)
  /-- `super().stop()` of the `stop` in a mode change -/
  | takeDown (source : TxSource) (n : ℕ)
  /-- `self.wait()` of the `stop` in a mode change -/
  | waitDown (source : TxSource) (n : ℕ)
  /-- `self._running = False` of the `stop` in a mode change -/
  | down (source : TxSource) (n : ℕ)
  /-- From the mode change's own `wait()` to `self._mode = `. -/
  | rebuild (source : TxSource) (n : ℕ) (wasRunning : Bool)
  /-- `super().start()` in a mode change -/
  | restart (n : ℕ)
  /-- `self._running = True` in `start` in a mode change -/
  | up (n : ℕ)
  /-- `self._running = True` in the mode change itself -/
  | upAgain (n : ℕ)
  /-- `if not fg.is_running` -/
  | check (n : ℕ)
  /-- `fg.start()` up to `super().start()` -/
  | start (n : ℕ)
  /-- `self._running = True` in `start` -/
  | started (n : ℕ)
  /-- `tx_fg is None` of a stop -/
  | stopLook
  /-- `not tx_fg.is_running` -/
  | stopCheck
  /-- `tx_fg.stop()` up to its `super().stop()` -/
  | stop
  /-- `self.wait()` in `stop` -/
  | waitStop (n : ℕ)
  /-- `self._running = False` in `stop` -/
  | stopped (n : ℕ)
  | done
  /-- A call has raised. -/
  | failed
  deriving DecidableEq

/-- Between a call of GNU Radio and the assignment that records it. -/
inductive TxSpan where
  | starting (n : ℕ)
  | stopping (n : ℕ)
  deriving DecidableEq

def TxPhase.span : TxPhase → Option TxSpan
  | up n | upAgain n | started n => some (.starting n)
  | waitDown _ n | down _ n | waitStop n | stopped n => some (.stopping n)
  | _ => none

/-- The flowgraph a request waits for. -/
def TxPhase.waitsFor : TxPhase → Option ℕ
  | waitDown _ n | waitStop n => some n
  | _ => none

structure TxServer where
  txFg : Option ℕ := none
  /-- How many flowgraphs were opened. -/
  opened : ℕ := 0
  units : ℕ → TxUnit := fun _ => {}
  requests : List TxPhase := []

inductive TxStep where
  | startRequest (source : Option TxSource)
  | stopRequest
  /-- The next statement of request `i`, and the GNU Radio call that raises in it. -/
  | next (i : ℕ) (fault : Option TxFault)
  /-- A file that is played once is over. -/
  | playedOut (n : ℕ)
  deriving DecidableEq

/-- `if self._source_block is not None: self.disconnect_all()` -/
def TXFlowgraph.disconnectAll (g : TXFlowgraph) : TXFlowgraph :=
  if g.sourceBlock ≠ none then { g with connected := none } else g

namespace TxServer

variable (s : TxServer)

/-- Request `i` goes on to the statement. -/
def goTo (i : ℕ) (p : TxPhase) : TxServer := { s with requests := s.requests.set i p }

def update (n : ℕ) (u : TxUnit) : TxServer := { s with units := Function.update s.units n u }

def setRunning (n : ℕ) (running : Bool) : TxServer :=
  s.update n { s.units n with fg := { (s.units n).fg with running } }

def setOnAir (n : ℕ) (onAir : Bool) : TxServer := s.update n { s.units n with onAir }

/-- Leaving the mode change. -/
def unlock (n : ℕ) (fg : TXFlowgraph) : TxServer := s.update n { s.units n with fg, locked := false }

/-- One statement of request `i`, which is at `p`. -/
def advance (i : ℕ) (fault : Option TxFault) (p : TxPhase) : TxServer :=
  match p with
  | .look source => if s.txFg = none then s.goTo i (.construct source) else s.goTo i (.fetch source)
  | .construct source =>
    if fault = some .topBlock then s.goTo i .failed
    else { s with opened := s.opened + 1 }.goTo i (.assign source s.opened)
  | .assign source n => { s with txFg := some n }.goTo i (.fetch source)
  | .fetch source =>
    match s.txFg with
    | some n => s.goTo i (.lock source n)
    | none => s.goTo i .done
  | .lock none _ => s.goTo i .done
  | .lock (some source) n =>
    if (s.units n).locked then s
    else
      let s' := s.update n { s.units n with locked := true }
      if (s.units n).fg.running then s'.goTo i (.takeDown source n)
      else s'.goTo i (.rebuild source n false)
  | .takeDown source n =>
    if fault = some .stop then (s.unlock n (s.units n).fg).goTo i .failed
    else (s.setOnAir n false).goTo i (.waitDown source n)
  | .waitDown source n =>
    if fault = some .wait then (s.unlock n (s.units n).fg).goTo i .failed
    else s.goTo i (.down source n)
  | .down source n => (s.setRunning n false).goTo i (.rebuild source n true)
  | .rebuild source n wasRunning =>
    let g := (s.units n).fg
    if (wasRunning ∧ fault = some .wait) ∨ (g.sourceBlock ≠ none ∧ fault = some .disconnectAll) then
      (s.unlock n g).goTo i .failed
    else
      let g := g.disconnectAll
      match fault with
      | some .constructor => (s.unlock n g).goTo i .failed
      | some .connect => (s.unlock n { g with built := g.built + 1 }).goTo i .failed
      | _ =>
        let g := g.install ⟨g.built, source⟩
        if wasRunning then (s.update n { s.units n with fg := g }).goTo i (.restart n)
        else (s.unlock n g).goTo i (.check n)
  | .restart n =>
    if fault = some .start then (s.unlock n (s.units n).fg).goTo i .failed
    else (s.setOnAir n true).goTo i (.up n)
  | .up n => (s.setRunning n true).goTo i (.upAgain n)
  | .upAgain n => (s.unlock n { (s.units n).fg with running := true }).goTo i (.check n)
  | .check n => if (s.units n).fg.running then s.goTo i .done else s.goTo i (.start n)
  | .start n =>
    if (s.units n).fg.sourceBlock = none ∨ fault = some .start then s.goTo i .failed
    else (s.setOnAir n true).goTo i (.started n)
  | .started n => (s.setRunning n true).goTo i .done
  | .stopLook => if s.txFg = none then s.goTo i .done else s.goTo i .stopCheck
  | .stopCheck =>
    match s.txFg with
    | some n => if (s.units n).fg.running then s.goTo i .stop else s.goTo i .done
    | none => s.goTo i .done
  | .stop =>
    match s.txFg with
    | some n =>
      if fault = some .stop then s.goTo i .failed
      else (s.setOnAir n false).goTo i (.waitStop n)
    | none => s.goTo i .done
  | .waitStop n => if fault = some .wait then s.goTo i .failed else s.goTo i (.stopped n)
  | .stopped n => (s.setRunning n false).goTo i .done
  | .done => s
  | .failed => s

def step (s : TxServer) : TxStep → TxServer × Unit
  | .startRequest source => ({ s with requests := s.requests ++ [.look source] }, ())
  | .stopRequest => ({ s with requests := s.requests ++ [.stopLook] }, ())
  | .next i fault =>
    match s.requests[i]? with
    | some p => (s.advance i fault p, ())
    | none => (s, ())
  | .playedOut n =>
    if (s.units n).onAir ∧ (s.units n).playsOnce then (s.setOnAir n false, ()) else (s, ())

def run (steps : List TxStep) : TxServer := Machine.after step {} steps

theorem run_snoc (steps : List TxStep) (e : TxStep) :
    run (steps ++ [e]) = ((run steps).step e).1 :=
  Machine.after_snoc step {} steps e

/-! ## What a statement can do to the air -/

variable {s : TxServer}

/-- Whether each flowgraph is on the air, and whether `_running` says so. -/
def air (s : TxServer) (n : ℕ) : Bool × Bool := ((s.units n).onAir, (s.units n).fg.running)

/-- A statement leaves the air alone, calls GNU Radio, or records what it called; it fails to when
`wait` raises. -/
inductive Moves (s : TxServer) (i : ℕ) (fault : Option TxFault) (p : TxPhase) (s' : TxServer) : Prop
  | quiet (p' : TxPhase) (moved : s'.requests = s.requests.set i p') (same : p'.span = p.span)
      (air : s'.air = s.air)
  | on (p' : TxPhase) (n : ℕ) (outside : p.span = none) (inside : p'.span = some (.starting n))
      (moved : s'.requests = s.requests.set i p')
      (air : s'.air = Function.update s.air n (true, (s.air n).2))
  | up (p' : TxPhase) (n : ℕ) (inside : p.span = some (.starting n))
      (still : p'.span = none ∨ p'.span = some (.starting n))
      (moved : s'.requests = s.requests.set i p')
      (air : s'.air = Function.update s.air n ((s.air n).1, true))
  | off (p' : TxPhase) (n : ℕ) (outside : p.span = none) (inside : p'.span = some (.stopping n))
      (moved : s'.requests = s.requests.set i p')
      (air : s'.air = Function.update s.air n (false, (s.air n).2))
  | down (p' : TxPhase) (n : ℕ) (inside : p.span = some (.stopping n)) (outside : p'.span = none)
      (moved : s'.requests = s.requests.set i p')
      (air : s'.air = Function.update s.air n ((s.air n).1, false))
  | lost (p' : TxPhase) (n : ℕ) (inside : p.span = some (.stopping n)) (outside : p'.span = none)
      (waits : p.waitsFor = some n) (raised : fault = some .wait)
      (moved : s'.requests = s.requests.set i p') (air : s'.air = s.air)

@[simp] theorem requests_goTo (i : ℕ) (p : TxPhase) : (s.goTo i p).requests = s.requests.set i p := rfl

@[simp] theorem air_goTo (i : ℕ) (p : TxPhase) : (s.goTo i p).air = s.air := rfl

@[simp] theorem requests_update (n : ℕ) (u : TxUnit) : (s.update n u).requests = s.requests := rfl

theorem air_update (n : ℕ) (u : TxUnit) :
    (s.update n u).air = Function.update s.air n (u.onAir, u.fg.running) := by
  funext m
  by_cases same : m = n
  · subst same
    simp [air, update]
  · simp [air, update, same]

theorem air_update_of_eq (n : ℕ) (u : TxUnit) (onAir : u.onAir = (s.units n).onAir)
    (running : u.fg.running = (s.units n).fg.running) : (s.update n u).air = s.air := by
  rw [air_update, onAir, running]
  exact Function.update_eq_self n s.air

theorem running_disconnectAll (g : TXFlowgraph) : g.disconnectAll.running = g.running := by
  unfold TXFlowgraph.disconnectAll
  split <;> rfl

theorem advance_moves (s : TxServer) (i : ℕ) (fault : Option TxFault) {p : TxPhase}
    (here : s.requests[i]? = some p) : Moves s i fault p (s.advance i fault p) := by
  have stays : s.requests = s.requests.set i p := by
    obtain ⟨inside, rfl⟩ := List.getElem?_eq_some_iff.1 here
    exact (List.set_getElem_self inside).symm
  cases p with
  | look source =>
    rw [advance]
    split
    next => exact .quiet _ rfl rfl rfl
    next => exact .quiet _ rfl rfl rfl
  | construct source =>
    rw [advance]
    split
    next => exact .quiet _ rfl rfl rfl
    next => exact .quiet _ rfl rfl rfl
  | assign source n => exact .quiet _ rfl rfl rfl
  | fetch source =>
    rw [advance]
    split
    next => exact .quiet _ rfl rfl rfl
    next => exact .quiet _ rfl rfl rfl
  | lock source n =>
    cases source with
    | none => exact .quiet _ rfl rfl rfl
    | some source =>
      rw [advance]
      split
      next => exact .quiet (.lock (some source) n) stays rfl rfl
      next =>
        dsimp only
        have same := air_update_of_eq (s := s) n { s.units n with locked := true } rfl rfl
        split
        next => exact .quiet _ rfl rfl same
        next => exact .quiet _ rfl rfl same
  | takeDown source n =>
    rw [advance]
    split
    next => exact .quiet _ rfl rfl (air_update_of_eq n _ rfl rfl)
    next => exact .off _ n rfl rfl rfl (air_update n _)
  | waitDown source n =>
    rw [advance]
    split
    next raised => exact .lost _ n rfl rfl rfl raised rfl (air_update_of_eq n _ rfl rfl)
    next => exact .quiet _ rfl rfl rfl
  | down source n => exact .down _ n rfl rfl rfl (air_update n _)
  | rebuild source n wasRunning =>
    have same := running_disconnectAll (s.units n).fg
    unfold advance
    dsimp only
    split
    next => exact .quiet _ rfl rfl (air_update_of_eq n _ rfl rfl)
    next =>
      split
      next => exact .quiet _ rfl rfl (air_update_of_eq n _ rfl same)
      next => exact .quiet _ rfl rfl (air_update_of_eq n _ rfl same)
      next =>
        split
        next => exact .quiet _ rfl rfl (air_update_of_eq n _ rfl same)
        next => exact .quiet _ rfl rfl (air_update_of_eq n _ rfl same)
  | restart n =>
    rw [advance]
    split
    next => exact .quiet _ rfl rfl (air_update_of_eq n _ rfl rfl)
    next => exact .on _ n rfl rfl rfl (air_update n _)
  | up n => exact .up _ n rfl (.inr rfl) rfl (air_update n _)
  | upAgain n => exact .up _ n rfl (.inl rfl) rfl (air_update n _)
  | check n =>
    rw [advance]
    split
    next => exact .quiet _ rfl rfl rfl
    next => exact .quiet _ rfl rfl rfl
  | start n =>
    rw [advance]
    split
    next => exact .quiet _ rfl rfl rfl
    next => exact .on _ n rfl rfl rfl (air_update n _)
  | started n => exact .up _ n rfl (.inl rfl) rfl (air_update n _)
  | stopLook =>
    rw [advance]
    split
    next => exact .quiet _ rfl rfl rfl
    next => exact .quiet _ rfl rfl rfl
  | stopCheck =>
    rw [advance]
    split
    next =>
      split
      next => exact .quiet _ rfl rfl rfl
      next => exact .quiet _ rfl rfl rfl
    next => exact .quiet _ rfl rfl rfl
  | stop =>
    rw [advance]
    split
    next n _ =>
      split
      next => exact .quiet _ rfl rfl rfl
      next => exact .off _ n rfl rfl rfl (air_update n _)
    next => exact .quiet _ rfl rfl rfl
  | waitStop n =>
    rw [advance]
    split
    next raised => exact .lost _ n rfl rfl rfl raised rfl rfl
    next => exact .quiet _ rfl rfl rfl
  | stopped n => exact .down _ n rfl rfl rfl (air_update n _)
  | done => exact .quiet .done stays rfl rfl
  | failed => exact .quiet .failed stays rfl rfl

/-- A file that is over takes its flowgraph off the air, or does nothing. -/
theorem step_playedOut (s : TxServer) (n : ℕ) :
    (s.step (.playedOut n)).1 = s ∨ ((s.units n).onAir = true ∧ (s.units n).playsOnce = true ∧
      (s.step (.playedOut n)).1 = s.setOnAir n false) := by
  rw [step]
  split
  next playing => exact .inr ⟨playing.1, playing.2, rfl⟩
  next => exact .inl rfl

theorem air_setOnAir (n : ℕ) (onAir : Bool) :
    (s.setOnAir n onAir).air = Function.update s.air n (onAir, (s.air n).2) :=
  air_update n _

/-! ## What `_running` says -/

/-- A request is between a call of GNU Radio and its record. -/
def InSpan (s : TxServer) (span : TxSpan) : Prop :=
  ∃ (i : ℕ) (p : TxPhase), s.requests[i]? = some p ∧ p.span = some span

/-- A start and a stop of one flowgraph are under way. -/
def Overlap (s : TxServer) : Prop := ∃ n, s.InSpan (.starting n) ∧ s.InSpan (.stopping n)

/-- In no state of the run a start and a stop of one flowgraph overlap. -/
def Serial (steps : List TxStep) : Prop :=
  ∀ before after, steps = before ++ after → ¬(run before).Overlap

/-- `_running` denies no transmission but one that a request is about to record. -/
structure Truthful (s : TxServer) : Prop where
  stopping : ∀ n, s.InSpan (.stopping n) → (s.air n).1 = false
  recorded : ∀ n, (s.air n).1 = true → (s.air n).2 = true ∨ s.InSpan (.starting n)

section Moved

variable {s' : TxServer} {i : ℕ} {p p' : TxPhase} {span : TxSpan}

theorem inSpan_of_moved (moved : s'.requests = s.requests.set i p') (now : s'.InSpan span) :
    p'.span = some span ∨ s.InSpan span := by
  obtain ⟨j, q, there, inside⟩ := now
  rw [moved, List.getElem?_set] at there
  split at there
  next =>
    split at there
    · cases there
      exact .inl inside
    · cases there
  next => exact .inr ⟨j, q, there, inside⟩

theorem inSpan_moved (moved : s'.requests = s.requests.set i p') (here : s.requests[i]? = some p)
    (outside : p.span ≠ some span) (before : s.InSpan span) : s'.InSpan span := by
  obtain ⟨j, q, there, inside⟩ := before
  refine ⟨j, q, ?_, inside⟩
  rw [moved, List.getElem?_set_ne]
  · exact there
  · rintro rfl
    rw [here] at there
    cases there
    exact outside inside

theorem inSpan_self (moved : s'.requests = s.requests.set i p') (here : s.requests[i]? = some p)
    (inside : p'.span = some span) : s'.InSpan span := by
  refine ⟨i, p', ?_, inside⟩
  rw [moved, List.getElem?_set_self (List.getElem?_eq_some_iff.1 here).1]

theorem inSpan_quiet (moved : s'.requests = s.requests.set i p') (here : s.requests[i]? = some p)
    (same : p'.span = p.span) : s'.InSpan span ↔ s.InSpan span := by
  constructor
  · intro now
    rcases inSpan_of_moved moved now with new | before
    · exact ⟨i, p, here, same.symm.trans new⟩
    · exact before
  · intro before
    by_cases inside : p.span = some span
    · exact inSpan_self moved here (same.trans inside)
    · exact inSpan_moved moved here inside before

/-- Who leaves a span, or stays in it, opens none. -/
theorem inSpan_of_left {span' : TxSpan} (moved : s'.requests = s.requests.set i p')
    (here : s.requests[i]? = some p) (inside : p.span = some span')
    (still : p'.span = none ∨ p'.span = some span') (now : s'.InSpan span) : s.InSpan span := by
  rcases inSpan_of_moved moved now with new | before
  · rcases still with none | again
    · rw [none] at new
      cases new
    · rw [again] at new
      cases new
      exact ⟨i, p, here, inside⟩
  · exact before

/-- **One statement** keeps `_running` truthful, unless a start and a stop overlap. -/
theorem Truthful.moves {fault : Option TxFault} (h : Truthful s) (here : s.requests[i]? = some p)
    (moves : Moves s i fault p s') (apart : ¬s'.Overlap) : Truthful s' := by
  cases moves with
  | quiet p' moved same air =>
    constructor
    · intro n now
      rw [air]
      exact h.stopping n ((inSpan_quiet moved here same).1 now)
    · intro n on
      rw [air] at on ⊢
      exact (h.recorded n on).imp_right (inSpan_quiet moved here same).2
  | on p' n outside inside moved air =>
    have other : ∀ span, p.span ≠ some span := by
      rw [outside]
      exact nofun
    constructor
    · intro m now
      rcases inSpan_of_moved moved now with new | before
      · rw [inside] at new
        cases new
      · rw [air]
        by_cases same : m = n
        · subst same
          exact absurd ⟨m, inSpan_self moved here inside, now⟩ apart
        · rw [Function.update_of_ne same]
          exact h.stopping m before
    · intro m on
      rw [air] at on ⊢
      by_cases same : m = n
      · subst same
        exact .inr (inSpan_self moved here inside)
      · rw [Function.update_of_ne same] at on ⊢
        exact (h.recorded m on).imp_right (inSpan_moved moved here (other _))
  | up p' n inside still moved air =>
    constructor
    · intro m now
      have off := h.stopping m (inSpan_of_left moved here inside still now)
      rw [air]
      by_cases same : m = n
      · subst same
        rw [Function.update_self]
        exact off
      · rw [Function.update_of_ne same]
        exact off
    · intro m on
      rw [air] at on ⊢
      by_cases same : m = n
      · subst same
        rw [Function.update_self]
        exact .inl rfl
      · rw [Function.update_of_ne same] at on ⊢
        refine (h.recorded m on).imp_right (inSpan_moved moved here ?_)
        rw [inside]
        rintro ⟨⟩
        exact same rfl
  | off p' n outside inside moved air =>
    have other : ∀ span, p.span ≠ some span := by
      rw [outside]
      exact nofun
    constructor
    · intro m now
      rw [air]
      by_cases same : m = n
      · rw [same, Function.update_self]
      · rw [Function.update_of_ne same]
        rcases inSpan_of_moved moved now with new | before
        · rw [inside] at new
          cases new
          exact absurd rfl same
        · exact h.stopping m before
    · intro m on
      rw [air] at on ⊢
      by_cases same : m = n
      · rw [same, Function.update_self] at on
        cases on
      · rw [Function.update_of_ne same] at on ⊢
        exact (h.recorded m on).imp_right (inSpan_moved moved here (other _))
  | down p' n inside outside moved air =>
    have off := h.stopping n ⟨i, p, here, inside⟩
    constructor
    · intro m now
      have off := h.stopping m (inSpan_of_left moved here inside (.inl outside) now)
      rw [air]
      by_cases same : m = n
      · subst same
        rw [Function.update_self]
        exact off
      · rw [Function.update_of_ne same]
        exact off
    · intro m on
      rw [air] at on ⊢
      by_cases same : m = n
      · rw [same, Function.update_self, off] at on
        cases on
      · rw [Function.update_of_ne same] at on ⊢
        refine (h.recorded m on).imp_right (inSpan_moved moved here ?_)
        rw [inside]
        rintro ⟨⟩
  | lost p' n inside outside waits raised moved air =>
    constructor
    · intro m now
      rw [air]
      exact h.stopping m (inSpan_of_left moved here inside (.inl outside) now)
    · intro m on
      rw [air] at on ⊢
      refine (h.recorded m on).imp_right (inSpan_moved moved here ?_)
      rw [inside]
      rintro ⟨⟩

end Moved

/-- Arriving requests are not in a span. -/
theorem inSpan_append {p : TxPhase} (outside : p.span = none) {span : TxSpan} :
    InSpan { s with requests := s.requests ++ [p] } span ↔ s.InSpan span := by
  constructor
  · rintro ⟨i, q, there, inside⟩
    rw [List.getElem?_append] at there
    split at there
    next => exact ⟨i, q, there, inside⟩
    next =>
      rw [List.mem_singleton.1 (List.mem_of_getElem? there), outside] at inside
      cases inside
  · rintro ⟨i, q, there, inside⟩
    refine ⟨i, q, ?_, inside⟩
    rw [List.getElem?_append_left (List.getElem?_eq_some_iff.1 there).1]
    exact there

theorem Truthful.append {p : TxPhase} (h : Truthful s) (outside : p.span = none) :
    Truthful { s with requests := s.requests ++ [p] } where
  stopping n now := h.stopping n ((inSpan_append outside).1 now)
  recorded n on := (h.recorded n on).imp_right (inSpan_append outside).2

/-- A graph that goes off by itself contradicts nothing. -/
theorem Truthful.goesOff (h : Truthful s) (n : ℕ) : Truthful (s.setOnAir n false) := by
  constructor
  · intro m now
    rw [air_setOnAir]
    by_cases same : m = n
    · rw [same, Function.update_self]
    · rw [Function.update_of_ne same]
      exact h.stopping m now
  · intro m on
    rw [air_setOnAir] at on ⊢
    by_cases same : m = n
    · rw [same, Function.update_self] at on
      cases on
    · rw [Function.update_of_ne same] at on ⊢
      exact h.recorded m on

theorem Truthful.step (h : Truthful s) (e : TxStep) (apart : ¬(s.step e).1.Overlap) :
    Truthful (s.step e).1 := by
  cases e with
  | startRequest source => exact h.append rfl
  | stopRequest => exact h.append rfl
  | next i fault =>
    unfold TxServer.step at apart ⊢
    dsimp only at apart ⊢
    cases here : s.requests[i]? with
    | none => exact h
    | some p =>
      rw [here] at apart
      exact h.moves here (advance_moves s i fault here) apart
  | playedOut n =>
    rcases step_playedOut s n with same | ⟨-, -, off⟩
    · rw [same]
      exact h
    · rw [off]
      exact h.goesOff n

theorem Serial.of_append {steps more : List TxStep} (serial : Serial (steps ++ more)) : Serial steps := by
  rintro before after rfl
  apply serial before (after ++ more)
  rw [List.append_assoc]

/-- **Every run** in which no start overlaps a stop. -/
theorem truthful_run {steps : List TxStep} (serial : Serial steps) : Truthful (run steps) := by
  induction steps using List.reverseRecOn with
  | nil =>
    constructor
    · rintro n ⟨i, p, here, -⟩
      cases here
    · intro n on
      cases on
  | append_singleton steps e ih =>
    have apart := serial (steps ++ [e]) [] (List.append_nil _).symm
    rw [run_snoc] at apart ⊢
    exact (ih serial.of_append).step e apart

/-! ## What goes off without a record -/

/-- Flowgraph `n` goes off the air, or stays off, without a record: its file is over, or the `wait` behind
its `stop` raises. -/
def Loses (s : TxServer) (n : ℕ) : TxStep → Prop
  | .playedOut m => m = n ∧ (s.units n).onAir = true ∧ (s.units n).playsOnce = true
  | .next i fault => fault = some .wait ∧ ∃ p, s.requests[i]? = some p ∧ p.waitsFor = some n
  | _ => False

/-- Flowgraph `n` went off without a record, and has not been on the air since. -/
def GoneOff (steps : List TxStep) (n : ℕ) : Prop :=
  ∃ before e after, steps = before ++ e :: after ∧ (run before).Loses n e ∧
    ∀ mid rest, after = mid ++ rest → ((run (before ++ e :: mid)).units n).onAir = false

section GoneOff

variable {steps : List TxStep} {e : TxStep} {n : ℕ}

theorem goneOff_now (loses : (run steps).Loses n e) (off : ((run (steps ++ [e])).air n).1 = false) :
    GoneOff (steps ++ [e]) n := by
  refine ⟨steps, e, [], rfl, loses, ?_⟩
  intro mid rest split
  rw [(List.nil_eq_append_iff.1 split).1]
  exact off

theorem GoneOff.snoc (gone : GoneOff steps n) (off : ((run (steps ++ [e])).air n).1 = false) :
    GoneOff (steps ++ [e]) n := by
  obtain ⟨before, first, after, rfl, loses, since⟩ := gone
  rw [List.append_assoc, List.cons_append] at off ⊢
  refine ⟨before, first, after ++ [e], rfl, loses, ?_⟩
  intro mid rest split
  rcases List.eq_nil_or_concat rest with rfl | ⟨rest, last, rfl⟩
  · rw [List.append_nil] at split
    rw [← split]
    exact off
  · rw [List.concat_eq_append, ← List.append_assoc] at split
    exact since mid rest (List.append_inj' split rfl).1

/-- What is off the air and not recorded so is being recorded, or has gone off without a record. -/
def Accounted (steps : List TxStep) : Prop :=
  ∀ n, ((run steps).air n).1 = false →
    ((run steps).air n).2 = true ∨ (run steps).InSpan (.starting n) →
    (run steps).InSpan (.stopping n) ∨ GoneOff steps n

theorem Accounted.still (h : Accounted steps)
    (onAir : ((run (steps ++ [e])).air n).1 = ((run steps).air n).1)
    (off : ((run (steps ++ [e])).air n).1 = false)
    (shown : ((run steps).air n).2 = true ∨ (run steps).InSpan (.starting n))
    (stopping : (run steps).InSpan (.stopping n) → (run (steps ++ [e])).InSpan (.stopping n)) :
    (run (steps ++ [e])).InSpan (.stopping n) ∨ GoneOff (steps ++ [e]) n := by
  rcases h n (onAir.symm.trans off) shown with stops | gone
  · exact .inl (stopping stops)
  · exact .inr (gone.snoc off)

theorem Accounted.moves {i : ℕ} {fault : Option TxFault} {p : TxPhase} (h : Accounted steps)
    (apart : ¬(run steps).Overlap) (here : (run steps).requests[i]? = some p)
    (moves : Moves (run steps) i fault p (run (steps ++ [.next i fault]))) :
    Accounted (steps ++ [.next i fault]) := by
  intro n off shown
  cases moves with
  | quiet p' moved same air =>
    have span : ∀ sp, (run (steps ++ [.next i fault])).InSpan sp ↔ (run steps).InSpan sp :=
      fun _ => inSpan_quiet moved here same
    rw [air, span] at shown
    exact h.still (by rw [air]) off shown (span _).2
  | on p' m outside inside moved air =>
    rw [air] at off shown
    by_cases same : n = m
    · rw [same, Function.update_self] at off
      cases off
    · rw [Function.update_of_ne same] at off shown
      have onAir : ((run (steps ++ [.next i fault])).air n).1 = ((run steps).air n).1 := by
        rw [air, Function.update_of_ne same]
      apply h.still onAir (onAir.trans off)
      · refine shown.imp_right fun now => ?_
        rcases inSpan_of_moved moved now with new | before
        · rw [inside] at new
          cases new
          exact absurd rfl same
        · exact before
      · apply inSpan_moved moved here
        rw [outside]
        exact nofun
  | up p' m inside still moved air =>
    have onAir : ((run (steps ++ [.next i fault])).air n).1 = ((run steps).air n).1 := by
      rw [air]
      by_cases same : n = m
      · rw [same, Function.update_self]
      · rw [Function.update_of_ne same]
    apply h.still onAir off
    · by_cases same : n = m
      · subst same
        exact .inr ⟨i, p, here, inside⟩
      · rw [air, Function.update_of_ne same] at shown
        exact shown.imp_right (inSpan_of_left moved here inside still)
    · apply inSpan_moved moved here
      rw [inside]
      rintro ⟨⟩
  | off p' m outside inside moved air =>
    by_cases same : n = m
    · subst same
      exact .inl (inSpan_self moved here inside)
    · rw [air, Function.update_of_ne same] at shown
      apply h.still (by rw [air, Function.update_of_ne same]) off
      · refine shown.imp_right fun now => ?_
        rcases inSpan_of_moved moved now with new | before
        · rw [inside] at new
          cases new
        · exact before
      · apply inSpan_moved moved here
        rw [outside]
        exact nofun
  | down p' m inside outside moved air =>
    have starting : (run (steps ++ [.next i fault])).InSpan (.starting n) → (run steps).InSpan (.starting n) :=
      inSpan_of_left moved here inside (.inl outside)
    by_cases same : n = m
    · subst same
      rw [air, Function.update_self] at shown
      rcases shown with shown | now
      · cases shown
      · exact absurd ⟨n, starting now, i, p, here, inside⟩ apart
    · rw [air, Function.update_of_ne same] at shown
      apply h.still (by rw [air, Function.update_of_ne same]) off (shown.imp_right starting)
      apply inSpan_moved moved here
      rw [inside]
      rintro ⟨⟩
      exact same rfl
  | lost p' m inside outside waits raised moved air =>
    by_cases same : n = m
    · subst same
      exact .inr (goneOff_now ⟨raised, p, here, waits⟩ off)
    · rw [air] at shown
      apply h.still (by rw [air]) off
      · exact shown.imp_right (inSpan_of_left moved here inside (.inl outside))
      · apply inSpan_moved moved here
        rw [inside]
        rintro ⟨⟩
        exact same rfl

theorem Accounted.quiet (h : Accounted steps) (air : (run (steps ++ [e])).air = (run steps).air)
    (span : ∀ sp, (run (steps ++ [e])).InSpan sp ↔ (run steps).InSpan sp) : Accounted (steps ++ [e]) := by
  intro n off shown
  rw [air, span] at shown
  exact h.still (by rw [air]) off shown (span _).2

theorem Accounted.step (h : Accounted steps) (apart : ¬(run steps).Overlap) (e : TxStep) :
    Accounted (steps ++ [e]) := by
  have step := run_snoc steps e
  cases e with
  | startRequest source =>
    refine h.quiet (by rw [step]; rfl) ?_
    rw [step]
    exact fun _ => inSpan_append rfl
  | stopRequest =>
    refine h.quiet (by rw [step]; rfl) ?_
    rw [step]
    exact fun _ => inSpan_append rfl
  | next i fault =>
    rw [TxServer.step] at step
    cases here : (run steps).requests[i]? with
    | none =>
      rw [here] at step
      refine h.quiet (by rw [step]) ?_
      rw [step]
      exact fun _ => Iff.rfl
    | some p =>
      rw [here] at step
      refine h.moves apart here ?_
      rw [step]
      exact advance_moves _ i fault here
  | playedOut m =>
    rcases step_playedOut (run steps) m with same | ⟨onAir, once, goes⟩
    · refine h.quiet (by rw [step, same]) ?_
      rw [step, same]
      exact fun _ => Iff.rfl
    · rw [goes] at step
      intro n off shown
      by_cases same : n = m
      · subst same
        exact .inr (goneOff_now ⟨rfl, onAir, once⟩ off)
      · have air : (run (steps ++ [.playedOut m])).air n = (run steps).air n := by
          rw [step, air_setOnAir, Function.update_of_ne same]
        have span : ∀ sp, (run (steps ++ [.playedOut m])).InSpan sp ↔ (run steps).InSpan sp := by
          rw [step]
          exact fun _ => Iff.rfl
        rw [air, span] at shown
        exact h.still (by rw [air]) off shown (span _).2

/-- **Every run** in which no start overlaps a stop. -/
theorem accounted_run (serial : Serial steps) : Accounted steps := by
  induction steps using List.reverseRecOn with
  | nil =>
    rintro n - (shown | ⟨i, p, here, -⟩)
    · cases shown
    · cases here
  | append_singleton steps e ih => exact (ih serial.of_append).step (serial steps [e] rfl) e

end GoneOff

/-- **What the status tells.** In every run of start, stop and mode change requests in which no start of a
flowgraph overlaps a stop of it, at every moment at which no request is between a call to a flowgraph and
its record: a flowgraph on the air is shown as running, and one that is shown as running and is off the
air has gone off without a record, and has not been on the air since. -/
theorem running_tells_onAir (steps : List TxStep) (serial : Serial steps) (n : ℕ)
    (idle : ¬(run steps).InSpan (.starting n) ∧ ¬(run steps).InSpan (.stopping n)) :
    (((run steps).units n).onAir = true → ((run steps).units n).fg.running = true) ∧
      (((run steps).units n).onAir = false → ((run steps).units n).fg.running = true →
        GoneOff steps n) := by
  constructor
  · intro on
    exact ((truthful_run serial).recorded n on).resolve_right idle.1
  · intro off shown
    exact (accounted_run serial n off (.inl shown)).resolve_left idle.2

/-! ## Runs that can be checked -/

def overlaps (s : TxServer) : Bool :=
  s.requests.any fun p => s.requests.any fun q =>
    match p.span, q.span with
    | some (.starting n), some (.stopping m) => n == m
    | _, _ => false

theorem overlaps_of_overlap (overlap : s.Overlap) : s.overlaps = true := by
  obtain ⟨n, ⟨i, p, here, inside⟩, j, q, there, inside'⟩ := overlap
  apply List.any_eq_true.2
  refine ⟨p, List.mem_of_getElem? here, ?_⟩
  apply List.any_eq_true.2
  refine ⟨q, List.mem_of_getElem? there, ?_⟩
  rw [inside, inside']
  exact beq_self_eq_true n

theorem serial_of_check {steps : List TxStep}
    (check : ∀ k ≤ steps.length, (run (steps.take k)).overlaps = false) : Serial steps := by
  rintro before after rfl overlap
  have here := check before.length (by simp)
  rw [List.take_left] at here
  rw [overlaps_of_overlap overlap] at here
  cases here

theorem idle_of_check {s : TxServer} (check : ∀ p ∈ s.requests, p.span = none) (n : ℕ) :
    ¬s.InSpan (.starting n) ∧ ¬s.InSpan (.stopping n) := by
  constructor
  all_goals
    rintro ⟨i, p, here, inside⟩
    rw [check p (List.mem_of_getElem? here)] at inside
    cases inside

/-- A source is asked for, and request 0 served up to its end. -/
def bringUp (source : TxSource) : List TxStep :=
  .startRequest (some source) :: List.replicate 9 (.next 0 none)

def toneUp : List TxStep := bringUp .sigSource

/-- A file is played once, up to its end. -/
def playedOnce : List TxStep := bringUp (.fileSource "packet.iq" false) ++ [.playedOut 0]

/-- The tone is on the air and shown, and the file is shown while it is over. -/
theorem running_tells_onAir_both :
    ((run toneUp).units 0).fg.running = true ∧ ((run playedOnce).units 0).fg.running = true ∧
      GoneOff playedOnce 0 := by
  have tone := running_tells_onAir toneUp (serial_of_check (by decide)) 0 (idle_of_check (by decide) 0)
  have file := running_tells_onAir playedOnce (serial_of_check (by decide)) 0 (idle_of_check (by decide) 0)
  have shown : ((run playedOnce).units 0).fg.running = true := by decide
  exact ⟨tone.1 (by decide), shown, file.2 (by decide) shown⟩

-- A stop between the mode change's stop and its start is recorded behind that start.
example :
    let s := run (toneUp ++ [.startRequest (some .sigSource), .stopRequest] ++
      [.next 2 none, .next 2 none] ++ List.replicate 3 (.next 1 none) ++ [.next 2 none] ++
      List.replicate 8 (.next 1 none) ++ [.next 2 none, .next 2 none])
    s.requests = [.done, .done, .done] ∧ (s.units 0).onAir = true ∧ (s.units 0).fg.running = false := by
  decide

end TxServer

end StreamWeb

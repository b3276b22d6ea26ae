import StreamWeb.Tx.Requests

/-!
# What a stop reaches

A stop takes the flowgraph off the air that `tx_fg` holds at that moment, and no
other. Two requests that both find `tx_fg` empty open two, and the one that is
assigned first is out of reach: `stop_silences` says what is silent behind a
stop, and that all is where the first request had been alone.
-/

namespace StreamWeb

/-- A statement of a stop, or the end of any request. -/
def TxPhase.isStop : TxPhase → Bool
  | stopLook | stopCheck | stop | waitStop _ | stopped _ | done | failed => true
  | _ => false

/-- Behind `super().stop()`, or answered without an error. -/
def TxPhase.hasStopped : TxPhase → Bool
  | waitStop _ | stopped _ | done => true
  | _ => false

/-- A request that found `tx_fg` empty and has not set it. -/
def TxPhase.building : TxPhase → Bool
  | construct _ | assign _ _ => true
  | _ => false

/-- A request whose next statement sets `tx_fg`. -/
def TxPhase.assigns : TxPhase → Bool
  | assign _ _ => true
  | _ => false

/-- The flowgraph a request has got. -/
def TxPhase.unit : TxPhase → Option ℕ
  | assign _ n | lock _ n | takeDown _ n | waitDown _ n | down _ n | rebuild _ n _ | restart n | up n
  | upAgain n | check n | start n | started n | waitStop n | stopped n => some n
  | _ => none

namespace TxServer

variable {s : TxServer}

theorem span_of_isStop {p : TxPhase} (stop : p.isStop) (n : ℕ) : p.span ≠ some (.starting n) := by
  intro inside
  cases p with
  | up | upAgain | started => cases stop
  | _ => cases inside

/-! ## A stop -/

/-- What holds behind `before` while only stops arrive, of which the ones from request `first` on are new. -/
structure Silencing (before : TxServer) (later : List TxStep) (s : TxServer) (first : ℕ) : Prop where
  stops : ∀ (i : ℕ) (p : TxPhase), s.requests[i]? = some p → p.isStop
  txFg : s.txFg = before.txFg
  others : ∀ m, before.txFg ≠ some m → (s.air m).1 = true → (before.air m).1 = true
  lasting : ∀ m, before.txFg ≠ some m → .playedOut m ∉ later → (s.air m).1 = (before.air m).1
  silent : ∀ (i : ℕ) (p : TxPhase) (n : ℕ), first ≤ i → s.requests[i]? = some p → p.hasStopped →
    before.txFg = some n → (s.air n).1 = false
  length : first ≤ s.requests.length

variable {before : TxServer} {later : List TxStep} {first : ℕ}

theorem Silencing.goTo {s' : TxServer} {i : ℕ} {p' : TxPhase} (e : TxStep)
    (h : Silencing before later s first) (moved : s'.requests = s.requests.set i p') (stop : p'.isStop)
    (txFg : s'.txFg = s.txFg) (others : ∀ m, before.txFg ≠ some m → (s'.air m).1 = (s.air m).1)
    (off : ∀ n, before.txFg = some n → (s.air n).1 = false → (s'.air n).1 = false)
    (silent : ∀ n, before.txFg = some n → p'.hasStopped → first ≤ i → (s'.air n).1 = false) :
    Silencing before (later ++ [e]) s' first := by
  have was : ∀ (j : ℕ) (q : TxPhase), s'.requests[j]? = some q → (j = i ∧ q = p') ∨ s.requests[j]? = some q := by
    intro j q there
    rw [moved, List.getElem?_set] at there
    split at there
    next same =>
      split at there
      · cases there
        exact .inl ⟨same.symm, rfl⟩
      · cases there
    next => exact .inr there
  refine ⟨?_, txFg.trans h.txFg, ?_, ?_, ?_, ?_⟩
  · intro j q there
    rcases was j q there with ⟨-, rfl⟩ | before
    · exact stop
    · exact h.stops j q before
  · intro m other on
    exact h.others m other ((others m other).symm.trans on)
  · intro m other lasts
    exact (others m other).trans (h.lasting m other fun mem => lasts (List.mem_append_left _ mem))
  · intro j q n new there stopped current
    rcases was j q there with ⟨rfl, rfl⟩ | before
    · exact silent n current stopped new
    · exact off n current (h.silent j q n new before stopped current)
  · rw [moved, List.length_set]
    exact h.length

/-- A file that is over puts nothing on the air. -/
theorem Silencing.playedOut (h : Silencing before later s first) (n : ℕ) :
    Silencing before (later ++ [.playedOut n]) (s.step (.playedOut n)).1 first := by
  have requests : (s.step (.playedOut n)).1.requests = s.requests := by
    rcases step_playedOut s n with same | ⟨-, -, off⟩
    · rw [same]
    · rw [off]
      rfl
  have txFg : (s.step (.playedOut n)).1.txFg = s.txFg := by
    rcases step_playedOut s n with same | ⟨-, -, off⟩
    · rw [same]
    · rw [off]
      rfl
  have air : ∀ m, ((s.step (.playedOut n)).1.air m).1 = (s.air m).1 ∨
      m = n ∧ ((s.step (.playedOut n)).1.air m).1 = false := by
    intro m
    rcases step_playedOut s n with same | ⟨-, -, off⟩
    · rw [same]
      exact .inl rfl
    · rw [off, air_setOnAir]
      by_cases same : m = n
      · rw [same, Function.update_self]
        exact .inr ⟨rfl, rfl⟩
      · rw [Function.update_of_ne same]
        exact .inl rfl
  refine ⟨?_, txFg.trans h.txFg, ?_, ?_, ?_, ?_⟩
  · rw [requests]
    exact h.stops
  · intro m other on
    rcases air m with same | ⟨-, off⟩
    · exact h.others m other (same.symm.trans on)
    · rw [off] at on
      cases on
  · intro m other lasts
    rcases air m with same | ⟨rfl, -⟩
    · exact same.trans (h.lasting m other fun mem => lasts (List.mem_append_left _ mem))
    · exact absurd (by simp) lasts
  · intro i p m new there stopped current
    rw [requests] at there
    rcases air m with same | ⟨-, off⟩
    · exact same.trans (h.silent i p m new there stopped current)
    · exact off
  · rw [requests]
    exact h.length

/-- With no start under way, what `_running` denies is not on the air. -/
theorem Silencing.off_of_stopped {n : ℕ} (h : Silencing before later s first) (truthful : Truthful s)
    (stopped : (s.units n).fg.running = false) : (s.air n).1 = false := by
  rw [← Bool.not_eq_true]
  intro on
  rcases truthful.recorded n on with shown | ⟨i, p, here, inside⟩
  · rw [air, stopped] at shown
    cases shown
  · exact span_of_isStop (h.stops i p here) n inside

theorem Silencing.advance {i : ℕ} {p : TxPhase} (e : TxStep) (h : Silencing before later s first)
    (truthful : Truthful s) (here : s.requests[i]? = some p) (fault : Option TxFault) :
    Silencing before (later ++ [e]) (s.advance i fault p) first := by
  have stop := h.stops i p here
  have stays : s.requests = s.requests.set i p := by
    obtain ⟨inside, rfl⟩ := List.getElem?_eq_some_iff.1 here
    exact (List.set_getElem_self inside).symm
  cases p with
  | stopLook =>
    rw [TxServer.advance]
    split
    next none =>
      refine h.goTo e rfl rfl rfl (fun _ _ => rfl) (fun _ _ off => off) ?_
      intro n current
      rw [h.txFg, current] at none
      cases none
    next =>
      refine h.goTo e rfl rfl rfl (fun _ _ => rfl) (fun _ _ off => off) ?_
      intro n _ stopped
      cases stopped
  | stopCheck =>
    rw [TxServer.advance]
    split
    next m is_m =>
      split
      next =>
        refine h.goTo e rfl rfl rfl (fun _ _ => rfl) (fun _ _ off => off) ?_
        intro n _ stopped
        cases stopped
      next stopped =>
        refine h.goTo e rfl rfl rfl (fun _ _ => rfl) (fun _ _ off => off) ?_
        intro n current _ _
        rw [h.txFg, current] at is_m
        cases is_m
        exact h.off_of_stopped truthful (Bool.eq_false_iff.2 stopped)
    next none =>
      refine h.goTo e rfl rfl rfl (fun _ _ => rfl) (fun _ _ off => off) ?_
      intro n current
      rw [h.txFg, current] at none
      cases none
  | stop =>
    rw [TxServer.advance]
    split
    next m is_m =>
      have current : before.txFg = some m := h.txFg.symm.trans is_m
      have air : ((s.setOnAir m false).goTo i (.waitStop m)).air = Function.update s.air m (false, (s.air m).2) :=
        air_setOnAir m false
      split
      next =>
        refine h.goTo e rfl rfl rfl (fun _ _ => rfl) (fun _ _ off => off) ?_
        intro n _ stopped
        cases stopped
      next =>
        refine h.goTo e rfl rfl rfl ?_ ?_ ?_
        · intro n other
          rw [air, Function.update_of_ne]
          rintro rfl
          exact other current
        · intro n is_n _
          rw [current] at is_n
          cases is_n
          rw [air, Function.update_self]
        · intro n is_n _ _
          rw [current] at is_n
          cases is_n
          rw [air, Function.update_self]
    next none =>
      refine h.goTo e rfl rfl rfl (fun _ _ => rfl) (fun _ _ off => off) ?_
      intro n current
      rw [h.txFg, current] at none
      cases none
  | waitStop m =>
    rw [TxServer.advance]
    split
    next =>
      refine h.goTo e rfl rfl rfl (fun _ _ => rfl) (fun _ _ off => off) ?_
      intro n _ stopped
      cases stopped
    next =>
      refine h.goTo e rfl rfl rfl (fun _ _ => rfl) (fun _ _ off => off) ?_
      intro n current _ new
      exact h.silent i _ n new here rfl current
  | stopped m =>
    have same : ∀ n, (((s.setRunning m false).goTo i .done).air n).1 = (s.air n).1 := by
      intro n
      have air : ((s.setRunning m false).goTo i .done).air = Function.update s.air m ((s.air m).1, false) :=
        air_update m _
      rw [air]
      by_cases is_m : n = m
      · rw [is_m, Function.update_self]
      · rw [Function.update_of_ne is_m]
    refine h.goTo e rfl rfl rfl (fun n _ => same n) (fun n _ off => (same n).trans off) ?_
    intro n current _ new
    exact (same n).trans (h.silent i _ n new here rfl current)
  | done =>
    refine h.goTo e stays rfl rfl (fun _ _ => rfl) (fun _ _ off => off) ?_
    intro n current _ new
    exact h.silent i _ n new here rfl current
  | failed =>
    refine h.goTo e stays rfl rfl (fun _ _ => rfl) (fun _ _ off => off) ?_
    intro n _ stopped
    cases stopped
  | _ => cases stop

theorem Silencing.stays (e : TxStep) (h : Silencing before later s first) :
    Silencing before (later ++ [e]) s first where
  stops := h.stops
  txFg := h.txFg
  others := h.others
  lasting m other lasts := h.lasting m other fun mem => lasts (List.mem_append_left _ mem)
  silent := h.silent
  length := h.length

theorem Silencing.step (h : Silencing before later s first) (truthful : Truthful s) {e : TxStep}
    (stop : ∀ source, e ≠ .startRequest source) : Silencing before (later ++ [e]) (s.step e).1 first := by
  cases e with
  | startRequest source => exact absurd rfl (stop source)
  | stopRequest =>
    have was : ∀ (j : ℕ) (q : TxPhase), (s.requests ++ [TxPhase.stopLook])[j]? = some q →
        s.requests[j]? = some q ∨ q = .stopLook := by
      intro j q there
      rw [List.getElem?_append] at there
      split at there
      next => exact .inl there
      next => exact .inr (List.mem_singleton.1 (List.mem_of_getElem? there))
    refine ⟨?_, h.txFg, h.others, (h.stays .stopRequest).lasting, ?_, ?_⟩
    · intro j q there
      rcases was j q there with before | rfl
      · exact h.stops j q before
      · rfl
    · intro j q n new there stopped current
      rcases was j q there with before | rfl
      · exact h.silent j q n new before stopped current
      · cases stopped
    · have longer : s.requests.length ≤ (s.requests ++ [TxPhase.stopLook]).length := by
        simp only [List.length_append, Nat.le_add_right]
      exact Nat.le_trans h.length longer
  | next i fault =>
    unfold TxServer.step
    dsimp only
    cases here : s.requests[i]? with
    | none => exact h.stays _
    | some p => exact h.advance _ truthful here fault
  | playedOut n => exact h.playedOut n

/-- No request to start is under way. -/
def NoStart (s : TxServer) : Prop := ∀ (i : ℕ) (p : TxPhase), s.requests[i]? = some p → p.isStop

/-- **The stops behind a moment** at which no start is under way. -/
theorem silencing_run {before later : List TxStep} (serial : Serial (before ++ later))
    (idle : (run before).NoStart) (stops : ∀ e ∈ later, ∀ source, e ≠ .startRequest source) :
    Silencing (run before) later (run (before ++ later)) (run before).requests.length := by
  induction later using List.reverseRecOn with
  | nil =>
    rw [List.append_nil]
    refine ⟨idle, rfl, fun _ _ on => on, fun _ _ _ => rfl, ?_, Nat.le_refl _⟩
    intro i p n new here
    have := (List.getElem?_eq_some_iff.1 here).1
    omega
  | append_singleton later e ih =>
    rw [← List.append_assoc] at serial ⊢
    rw [run_snoc]
    have so_far := ih serial.of_append fun e mem => stops e (List.mem_append_left _ mem)
    exact so_far.step (truthful_run serial.of_append) (stops e (by simp))

/-! ## The first request -/

/-- Whoever finds `tx_fg` empty is alone: no other request has found it so and not set it yet. -/
def FirstAlone (steps : List TxStep) : Prop :=
  ∀ before i fault after source, steps = before ++ .next i fault :: after →
    (run before).requests[i]? = some (.look source) → (run before).txFg = none →
    ∀ (j : ℕ) (p : TxPhase), (run before).requests[j]? = some p → p.building = false

/-- What a statement can do to `tx_fg` and the flowgraphs. -/
inductive Opens (s : TxServer) (i : ℕ) (p : TxPhase) (s' : TxServer) : Prop
  | same (p' : TxPhase) (moved : s'.requests = s.requests.set i p') (txFg : s'.txFg = s.txFg)
      (opened : s'.opened = s.opened) (building : p'.building = false)
      (unit : p'.unit = none ∨ p'.unit = p.unit ∨ p'.unit = s.txFg) (not_assign : p.assigns = false)
  | begins (source : Option TxSource) (look : p = .look source) (none : s.txFg = none)
      (moved : s'.requests = s.requests.set i (.construct source)) (txFg : s'.txFg = s.txFg)
      (opened : s'.opened = s.opened)
  | builds (source : Option TxSource) (construct : p = .construct source)
      (moved : s'.requests = s.requests.set i (.assign source s.opened)) (txFg : s'.txFg = s.txFg)
      (opened : s'.opened = s.opened + 1)
  | assigns (source : Option TxSource) (n : ℕ) (assign : p = .assign source n)
      (moved : s'.requests = s.requests.set i (.fetch source)) (txFg : s'.txFg = some n)
      (opened : s'.opened = s.opened)

theorem advance_opens (s : TxServer) (i : ℕ) (fault : Option TxFault) {p : TxPhase}
    (here : s.requests[i]? = some p) : Opens s i p (s.advance i fault p) := by
  have stays : s.requests = s.requests.set i p := by
    obtain ⟨inside, rfl⟩ := List.getElem?_eq_some_iff.1 here
    exact (List.set_getElem_self inside).symm
  cases p with
  | look source =>
    rw [advance]
    split
    next none => exact .begins source rfl none rfl rfl rfl
    next => exact .same _ rfl rfl rfl rfl (.inl rfl) rfl
  | construct source =>
    rw [advance]
    split
    next => exact .same _ rfl rfl rfl rfl (.inl rfl) rfl
    next => exact .builds source rfl rfl rfl rfl
  | assign source n => exact .assigns source n rfl rfl rfl rfl
  | fetch source =>
    rw [advance]
    split
    next n current => exact .same _ rfl rfl rfl rfl (.inr (.inr current.symm)) rfl
    next => exact .same _ rfl rfl rfl rfl (.inl rfl) rfl
  | lock source n =>
    cases source with
    | none => exact .same _ rfl rfl rfl rfl (.inl rfl) rfl
    | some source =>
      rw [advance]
      split
      next => exact .same (.lock (some source) n) stays rfl rfl rfl (.inr (.inl rfl)) rfl
      next =>
        dsimp only
        split
        next => exact .same _ rfl rfl rfl rfl (.inr (.inl rfl)) rfl
        next => exact .same _ rfl rfl rfl rfl (.inr (.inl rfl)) rfl
  | rebuild source n wasRunning =>
    unfold advance
    dsimp only
    split
    next => exact .same _ rfl rfl rfl rfl (.inl rfl) rfl
    next =>
      split
      next => exact .same _ rfl rfl rfl rfl (.inl rfl) rfl
      next => exact .same _ rfl rfl rfl rfl (.inl rfl) rfl
      next =>
        split
        next => exact .same _ rfl rfl rfl rfl (.inr (.inl rfl)) rfl
        next => exact .same _ rfl rfl rfl rfl (.inr (.inl rfl)) rfl
  | restart n =>
    rw [advance]
    split
    next => exact .same _ rfl rfl rfl rfl (.inl rfl) rfl
    next => exact .same _ rfl rfl rfl rfl (.inr (.inl rfl)) rfl
  | check n =>
    rw [advance]
    split
    next => exact .same _ rfl rfl rfl rfl (.inl rfl) rfl
    next => exact .same _ rfl rfl rfl rfl (.inr (.inl rfl)) rfl
  | start n =>
    rw [advance]
    split
    next => exact .same _ rfl rfl rfl rfl (.inl rfl) rfl
    next => exact .same _ rfl rfl rfl rfl (.inr (.inl rfl)) rfl
  | stopLook =>
    rw [advance]
    split
    next => exact .same _ rfl rfl rfl rfl (.inl rfl) rfl
    next => exact .same _ rfl rfl rfl rfl (.inl rfl) rfl
  | stopCheck =>
    rw [advance]
    split
    next =>
      split
      next => exact .same _ rfl rfl rfl rfl (.inl rfl) rfl
      next => exact .same _ rfl rfl rfl rfl (.inl rfl) rfl
    next => exact .same _ rfl rfl rfl rfl (.inl rfl) rfl
  | stop =>
    rw [advance]
    split
    next n current =>
      split
      next => exact .same _ rfl rfl rfl rfl (.inl rfl) rfl
      next => exact .same _ rfl rfl rfl rfl (.inr (.inr current.symm)) rfl
    next => exact .same _ rfl rfl rfl rfl (.inl rfl) rfl
  | done => exact .same .done stays rfl rfl rfl (.inl rfl) rfl
  | failed => exact .same .failed stays rfl rfl rfl (.inl rfl) rfl
  | takeDown source n | waitDown source n | waitStop n =>
    rw [advance]
    split
    next => exact .same _ rfl rfl rfl rfl (.inl rfl) rfl
    next => exact .same _ rfl rfl rfl rfl (.inr (.inl rfl)) rfl
  | down source n | up n | upAgain n =>
    exact .same _ rfl rfl rfl rfl (.inr (.inl rfl)) rfl
  | started n | stopped n => exact .same _ rfl rfl rfl rfl (.inl rfl) rfl

/-- There is no flowgraph, one that is about to be assigned, or one that is. -/
inductive Single (s : TxServer) : Prop
  | empty (txFg : s.txFg = none) (opened : s.opened = 0)
      (no_assign : ∀ (i : ℕ) (source : Option TxSource) (n : ℕ), s.requests[i]? ≠ some (.assign source n))
  | built (txFg : s.txFg = none) (opened : s.opened = 1) (i : ℕ) (source : Option TxSource)
      (assign : s.requests[i]? = some (.assign source 0))
  | assigned (txFg : s.txFg = some 0) (opened : s.opened = 1)
      (no_builder : ∀ (i : ℕ) (p : TxPhase), s.requests[i]? = some p → p.building = false)

/-- At most one flowgraph. -/
structure One (s : TxServer) : Prop where
  single : Single s
  builder : ∀ (i j : ℕ) (p q : TxPhase), s.requests[i]? = some p → s.requests[j]? = some q →
    p.building → q.building → i = j
  units : ∀ (i : ℕ) (p : TxPhase) (n : ℕ), s.requests[i]? = some p → p.unit = some n →
    n = 0 ∧ (p.building ∨ s.txFg = some 0)
  onAir : ∀ n, (s.air n).1 = true → s.txFg = some n

theorem unit_of_span {p : TxPhase} {n : ℕ} (inside : p.span = some (.starting n)) : p.unit = some n := by
  cases p with
  | up m | upAgain m | started m =>
    cases inside
    rfl
  | _ => cases inside

theorem not_building_of_span {p : TxPhase} {span : TxSpan} (inside : p.span = some span) :
    p.building = false := by
  cases p with
  | construct | assign => cases inside
  | _ => rfl

theorem not_building_of_unit {p : TxPhase} {n : ℕ} (holds : p.unit = some n)
    (not_assign : p.assigns = false) : p.building = false := by
  cases p with
  | construct => cases holds
  | assign => cases not_assign
  | _ => rfl

section Moved

variable {s' : TxServer} {i : ℕ} {p p' : TxPhase}

theorem requests_moved (moved : s'.requests = s.requests.set i p') {j : ℕ} {q : TxPhase}
    (there : s'.requests[j]? = some q) : (j = i ∧ q = p') ∨ (j ≠ i ∧ s.requests[j]? = some q) := by
  rw [moved, List.getElem?_set] at there
  split at there
  next same =>
    split at there
    · cases there
      exact .inl ⟨same.symm, rfl⟩
    · cases there
  next other => exact .inr ⟨fun same => other same.symm, there⟩

theorem moved_self (moved : s'.requests = s.requests.set i p') (here : s.requests[i]? = some p) :
    s'.requests[i]? = some p' := by
  rw [moved, List.getElem?_set_self (List.getElem?_eq_some_iff.1 here).1]

theorem moved_ne (moved : s'.requests = s.requests.set i p') {j : ℕ} (other : j ≠ i) :
    s'.requests[j]? = s.requests[j]? := by
  rw [moved, List.getElem?_set_ne other.symm]

/-- While a request constructs, there is no flowgraph. -/
theorem One.opened_of_construct {source : Option TxSource} (h : One s)
    (here : s.requests[i]? = some (.construct source)) : s.txFg = none ∧ s.opened = 0 := by
  cases h.single with
  | empty none zero no_assign => exact ⟨none, zero⟩
  | built none one j source' assign =>
    have same := h.builder i j _ _ here assign rfl rfl
    subst same
    rw [here] at assign
    cases assign
  | assigned current one no_builder => cases no_builder i _ here

theorem One.txFg_eq_zero (h : One s) {n : ℕ} (current : s.txFg = some n) : n = 0 := by
  cases h.single with
  | empty none => rw [current] at none; cases none
  | built none => rw [current] at none; cases none
  | assigned zero => exact Option.some.inj (current.symm.trans zero)

theorem single_advance (h : One s) (here : s.requests[i]? = some p) (opens : Opens s i p s')
    (alone : ∀ source, p = .look source → s.txFg = none →
      ∀ (j : ℕ) (q : TxPhase), s.requests[j]? = some q → q.building = false) : Single s' := by
  cases opens with
  | same p' moved txFg opened building unit not_assign =>
    cases h.single with
    | empty none zero no_assign =>
      refine .empty (txFg.trans none) (opened.trans zero) ?_
      intro j source n there
      rcases requests_moved moved there with ⟨-, rfl⟩ | ⟨-, before⟩
      · cases building
      · exact no_assign j source n before
    | built none one j source assign =>
      refine .built (txFg.trans none) (opened.trans one) j source ?_
      rw [moved_ne moved]
      · exact assign
      · rintro rfl
        rw [here] at assign
        cases assign
        cases not_assign
    | assigned current one no_builder =>
      refine .assigned (txFg.trans current) (opened.trans one) ?_
      intro j q there
      rcases requests_moved moved there with ⟨-, rfl⟩ | ⟨-, before⟩
      · exact building
      · exact no_builder j q before
  | begins source look none moved txFg opened =>
    have nobody := alone source look none
    cases h.single with
    | empty none zero no_assign =>
      refine .empty (txFg.trans none) (opened.trans zero) ?_
      intro j source n there
      rcases requests_moved moved there with ⟨-, same⟩ | ⟨-, before⟩
      · cases same
      · exact no_assign j source n before
    | built none one j source assign => cases nobody j _ assign
    | assigned current one no_builder =>
      rw [current] at none
      cases none
  | builds source construct moved txFg opened =>
    subst construct
    obtain ⟨none, zero⟩ := h.opened_of_construct here
    refine .built (txFg.trans none) (by rw [opened, zero]) i source ?_
    rw [moved_self moved here, zero]
  | assigns source n assign moved txFg opened =>
    subst assign
    have zero : n = 0 := (h.units i _ n here rfl).1
    subst zero
    cases h.single with
    | empty none zero no_assign => exact absurd here (no_assign i source 0)
    | built none one j source' assign =>
      refine .assigned txFg (opened.trans one) ?_
      intro k q there
      rcases requests_moved moved there with ⟨-, rfl⟩ | ⟨other, before⟩
      · rfl
      · rw [← Bool.not_eq_true]
        intro builds
        exact other (h.builder k i _ _ before here builds rfl)
    | assigned current one no_builder => cases no_builder i _ here

/-- What is behind a statement does not build, or nobody else does. -/
theorem builders_advance (h : One s) (here : s.requests[i]? = some p) (opens : Opens s i p s')
    (alone : ∀ source, p = .look source → s.txFg = none →
      ∀ (j : ℕ) (q : TxPhase), s.requests[j]? = some q → q.building = false) :
    ∃ p', s'.requests = s.requests.set i p' ∧ (p'.building = false ∨
      ∀ (j : ℕ) (q : TxPhase), j ≠ i → s.requests[j]? = some q → ¬q.building) := by
  cases opens with
  | same p' moved txFg opened building unit not_assign => exact ⟨p', moved, .inl building⟩
  | begins source look none moved txFg opened =>
    refine ⟨_, moved, .inr ?_⟩
    intro j q _ there
    rw [alone source look none j q there]
    exact Bool.false_ne_true
  | builds source construct moved txFg opened =>
    refine ⟨_, moved, .inr ?_⟩
    intro j q other there builds
    subst construct
    exact other (h.builder j i _ _ there here builds rfl)
  | assigns source n assign moved txFg opened => exact ⟨_, moved, .inl rfl⟩

theorem One.advance {fault : Option TxFault} (h : One s) (here : s.requests[i]? = some p)
    (opens : Opens s i p s') (moves : Moves s i fault p s')
    (alone : ∀ source, p = .look source → s.txFg = none →
      ∀ (j : ℕ) (q : TxPhase), s.requests[j]? = some q → q.building = false) : One s' := by
  have kept : s.txFg = some 0 → s'.txFg = some 0 := by
    intro current
    cases opens with
    | same p' moved txFg | begins source look none moved txFg | builds source construct moved txFg =>
      exact txFg.trans current
    | assigns source n assign moved txFg =>
      subst assign
      rw [txFg, (h.units i _ n here rfl).1]
  have units : ∀ (j : ℕ) (q : TxPhase) (n : ℕ), s'.requests[j]? = some q → q.unit = some n →
      n = 0 ∧ (q.building ∨ s'.txFg = some 0) := by
    intro j q n there holds
    have old : s.requests[j]? = some q → n = 0 ∧ (q.building ∨ s'.txFg = some 0) := fun before =>
      (h.units j q n before holds).imp_right (Or.imp_right kept)
    cases opens with
    | same p' moved txFg opened building unit not_assign =>
      rcases requests_moved moved there with ⟨-, rfl⟩ | ⟨-, before⟩
      · rcases unit with no_unit | same | current
        · rw [no_unit] at holds
          cases holds
        · rw [same] at holds
          obtain ⟨zero, builds | current⟩ := h.units i p n here holds
          · rw [not_building_of_unit holds not_assign] at builds
            cases builds
          · exact ⟨zero, .inr (kept current)⟩
        · rw [current] at holds
          have zero := h.txFg_eq_zero holds
          subst zero
          exact ⟨rfl, .inr (kept holds)⟩
      · exact old before
    | begins source look none moved txFg opened =>
      rcases requests_moved moved there with ⟨-, rfl⟩ | ⟨-, before⟩
      · cases holds
      · exact old before
    | builds source construct moved txFg opened =>
      subst construct
      rcases requests_moved moved there with ⟨-, rfl⟩ | ⟨-, before⟩
      · cases holds
        exact ⟨(h.opened_of_construct here).2, .inl rfl⟩
      · exact old before
    | assigns source m assign moved txFg opened =>
      rcases requests_moved moved there with ⟨-, rfl⟩ | ⟨-, before⟩
      · cases holds
      · exact old before
  refine ⟨single_advance h here opens alone, ?_, units, ?_⟩
  · obtain ⟨p', moved, few⟩ := builders_advance h here opens alone
    intro j k q r at_j at_k builds builds'
    rcases requests_moved moved at_j with ⟨rfl, rfl⟩ | ⟨j_ne, at_j⟩
    · rcases requests_moved moved at_k with ⟨rfl, -⟩ | ⟨k_ne, at_k⟩
      · rfl
      · rcases few with none | few
        · rw [none] at builds
          cases builds
        · exact absurd builds' (few k r k_ne at_k)
    · rcases requests_moved moved at_k with ⟨rfl, rfl⟩ | ⟨-, at_k⟩
      · rcases few with none | few
        · rw [none] at builds'
          cases builds'
        · exact absurd builds (few j q j_ne at_j)
      · exact h.builder j k q r at_j at_k builds builds'
  · intro n on
    have old_or_on : (s.air n).1 = true ∨ s'.InSpan (.starting n) := by
      cases moves with
      | quiet p' moved same air | lost p' m inside outside waits raised moved air =>
        rw [air] at on
        exact .inl on
      | on p' m outside inside moved air =>
        rw [air] at on
        by_cases same : n = m
        · subst same
          exact .inr (inSpan_self moved here inside)
        · rw [Function.update_of_ne same] at on
          exact .inl on
      | up p' m inside still moved air | down p' m inside outside moved air =>
        rw [air] at on
        by_cases same : n = m
        · subst same
          rw [Function.update_self] at on
          exact .inl on
        · rw [Function.update_of_ne same] at on
          exact .inl on
      | off p' m outside inside moved air =>
        rw [air] at on
        by_cases same : n = m
        · subst same
          rw [Function.update_self] at on
          cases on
        · rw [Function.update_of_ne same] at on
          exact .inl on
    rcases old_or_on with before | ⟨j, q, there, inside⟩
    · have current := h.onAir n before
      have zero := h.txFg_eq_zero current
      subst zero
      exact kept current
    · obtain ⟨zero, builds | current⟩ := units j q n there (unit_of_span inside)
      · rw [not_building_of_span inside] at builds
        cases builds
      · rw [zero, current]

end Moved

theorem One.append {p : TxPhase} (h : One s) (building : p.building = false) (unit : p.unit = none) :
    One { s with requests := s.requests ++ [p] } := by
  have was : ∀ (j : ℕ) (q : TxPhase), (s.requests ++ [p])[j]? = some q → s.requests[j]? = some q ∨ q = p := by
    intro j q there
    rw [List.getElem?_append] at there
    split at there
    next => exact .inl there
    next => exact .inr (List.mem_singleton.1 (List.mem_of_getElem? there))
  refine ⟨?_, ?_, ?_, h.onAir⟩
  · cases h.single with
    | empty none zero no_assign =>
      refine .empty none zero ?_
      intro j source n there
      rcases was j _ there with before | rfl
      · exact no_assign j source n before
      · cases building
    | built none one j source assign =>
      refine .built none one j source ?_
      exact (List.getElem?_append_left (List.getElem?_eq_some_iff.1 assign).1).trans assign
    | assigned current one no_builder =>
      refine .assigned current one ?_
      intro j q there
      rcases was j q there with before | rfl
      · exact no_builder j q before
      · exact building
  · intro j k q r at_j at_k builds builds'
    rcases was j q at_j with at_j | rfl
    · rcases was k r at_k with at_k | rfl
      · exact h.builder j k q r at_j at_k builds builds'
      · rw [building] at builds'
        cases builds'
    · rw [building] at builds
      cases builds
  · intro j q n there holds
    rcases was j q there with before | rfl
    · exact h.units j q n before holds
    · rw [unit] at holds
      cases holds

/-- A graph that goes off by itself opens nothing. -/
theorem One.goesOff (h : One s) (n : ℕ) : One (s.setOnAir n false) := by
  refine ⟨?_, h.builder, h.units, ?_⟩
  · cases h.single with
    | empty none zero no_assign => exact .empty none zero no_assign
    | built none one j source assign => exact .built none one j source assign
    | assigned current one no_builder => exact .assigned current one no_builder
  · intro m on
    rw [air_setOnAir] at on
    by_cases same : m = n
    · rw [same, Function.update_self] at on
      cases on
    · rw [Function.update_of_ne same] at on
      exact h.onAir m on

theorem FirstAlone.of_append {steps more : List TxStep} (alone : FirstAlone (steps ++ more)) :
    FirstAlone steps := by
  rintro before i fault after source rfl
  exact alone before i fault (after ++ more) source (by simp)

/-- **Every run** in which the first request is alone. -/
theorem one_run {steps : List TxStep} (alone : FirstAlone steps) : One (run steps) := by
  induction steps using List.reverseRecOn with
  | nil =>
    have nobody : ∀ (i : ℕ) (p : TxPhase), (run []).requests[i]? ≠ some p := by
      intro i p here
      cases here
    refine ⟨.empty rfl rfl fun i source n => nobody i _, ?_, ?_, ?_⟩
    · intro i j p q here
      exact absurd here (nobody i p)
    · intro i p n here
      exact absurd here (nobody i p)
    · intro n on
      cases on
  | append_singleton steps e ih =>
    have h := ih alone.of_append
    rw [run_snoc]
    cases e with
    | startRequest source => exact h.append rfl rfl
    | stopRequest => exact h.append rfl rfl
    | next i fault =>
      unfold TxServer.step
      dsimp only
      cases here : (run steps).requests[i]? with
      | none => exact h
      | some p =>
        refine h.advance here (advance_opens _ i fault here) (advance_moves _ i fault here) ?_
        intro source look none
        subst look
        exact alone steps i fault [] source rfl here none
    | playedOut n =>
      rcases step_playedOut (run steps) n with same | ⟨-, -, off⟩
      · rw [same]
        exact h
      · rw [off]
        exact h.goesOff n

/-! ## What is silent -/

/-- **What a stop reaches.** In every run in which no start overlaps a stop of the same flowgraph: when a
stop that came while no request to start was under way is answered without an error and none has come
since, the flowgraph in `tx_fg` is off the air. Any other is on the air as before, unless the file it
played once is over. When the first request had been alone, nothing is on the air. -/
theorem stop_silences (before later : List TxStep) (serial : Serial (before ++ later))
    (idle : (run before).NoStart) (stops : ∀ e ∈ later, ∀ source, e ≠ .startRequest source) (i : ℕ)
    (new : (run before).requests.length ≤ i) (answered : (run (before ++ later)).requests[i]? = some .done) :
    (∀ n, (run (before ++ later)).txFg = some n → ((run (before ++ later)).units n).onAir = false) ∧
      (∀ n, (run (before ++ later)).txFg ≠ some n →
        (((run (before ++ later)).units n).onAir = true → ((run before).units n).onAir = true) ∧
        (.playedOut n ∉ later →
          ((run (before ++ later)).units n).onAir = ((run before).units n).onAir)) ∧
      (FirstAlone before → ∀ n, ((run (before ++ later)).units n).onAir = false) := by
  have h := silencing_run serial idle stops
  have silent : ∀ n, (run before).txFg = some n → ((run (before ++ later)).air n).1 = false := fun n current =>
    h.silent i _ n new answered rfl current
  refine ⟨?_, ?_, ?_⟩
  · intro n current
    exact silent n (h.txFg ▸ current)
  · intro n other
    have other : (run before).txFg ≠ some n := h.txFg ▸ other
    exact ⟨h.others n other, h.lasting n other⟩
  · intro alone n
    by_cases current : (run before).txFg = some n
    · exact silent n current
    · rw [← Bool.not_eq_true]
      exact fun on => current ((one_run alone).onAir n (h.others n current on))

/-- A request looks, while another builds. -/
def crowded (s : TxServer) : Bool :=
  s.requests.any fun p => match p with
    | .look _ => s.requests.any TxPhase.building
    | _ => false

theorem firstAlone_of_check {steps : List TxStep}
    (check : ∀ k ≤ steps.length, (run (steps.take k)).crowded = false) : FirstAlone steps := by
  rintro before i fault after source rfl look _ j p there
  have here := check before.length (by simp)
  rw [List.take_left] at here
  have nobody := List.any_eq_false.1 here _ (List.mem_of_getElem? look)
  rw [← Bool.not_eq_true]
  intro builds
  exact nobody (List.any_eq_true.2 ⟨p, List.mem_of_getElem? there, builds⟩)

/-- A stop behind the tone. -/
def stopped : List TxStep := .stopRequest :: List.replicate 5 (.next 1 none)

theorem stop_silences_tone :
    ((run toneUp).units 0).onAir = true ∧ ((run (toneUp ++ stopped)).units 0).onAir = false := by
  have ended : ∀ p ∈ (run toneUp).requests, p.isStop := by decide
  have idle : (run toneUp).NoStart := fun i p here => ended p (List.mem_of_getElem? here)
  have stops : ∀ e ∈ stopped, ∀ source, e ≠ .startRequest source := by
    intro e mem source
    have only : ∀ e ∈ stopped, e = .stopRequest ∨ e = .next 1 none := by decide
    rcases only e mem with rfl | rfl <;> simp
  have silent := (stop_silences toneUp stopped (serial_of_check (by decide)) idle stops 1 (by decide)
    (by decide)).2.2 (firstAlone_of_check (by decide))
  exact ⟨by decide, silent 0⟩

-- Two first requests: the one that is assigned first stays on the air.
example :
    let s := run ([.startRequest (some .sigSource), .startRequest (some .sigSource)] ++
      [.next 0 none, .next 1 none] ++ List.replicate 8 (.next 0 none) ++ List.replicate 8 (.next 1 none) ++
      [.stopRequest] ++ List.replicate 5 (.next 2 none))
    s.requests = [.done, .done, .done] ∧ s.txFg = some 1 ∧ (s.units 1).onAir = false ∧
      (s.units 0).onAir = true := by
  decide

end TxServer

end StreamWeb

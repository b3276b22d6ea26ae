import StreamWeb.Lib.Machine
import StreamWeb.Lib.SlidingWindow
import Mathlib.Algebra.Order.Ring.Rat

/-!
# The worker watchdog

`_worker_watchdog` looks at every worker in turn, once a second. A `Check` is
one look: the worker's name, whether its process is alive, whether the app is
still running, and the monotonic clock at that moment. The loop's passes, one
after another, are a list of checks; a worker's history is read off the log of
what was decided at each.
-/

namespace StreamWeb

namespace Watchdog

/-- `_WORKER_MAX_RESTARTS` -/
def maxRestarts : ℕ := 5

/-- `_WORKER_RESTART_WINDOW_S` -/
def restartWindowS : ℚ := 60

end Watchdog

/-- One look of the watchdog at one worker. -/
structure Check where
  name : String
  isAlive : Bool
  running : Bool
  now : ℚ
  deriving DecidableEq

/-- What the watchdog did at a check. -/
inductive Verdict where
  | skip
  | giveUp
  /-- Restarted, for the `n`-th time within the window. -/
  | restart (n : ℕ)
  deriving DecidableEq

/-- `restarts` and `gave_up`; a name without an entry in `restarts` has the empty list. -/
structure Watchdog where
  restarts : String → List ℚ := fun _ => []
  gaveUp : String → Bool := fun _ => false

namespace Watchdog

/-- `recent` -/
def recent (w : Watchdog) (c : Check) : List ℚ :=
  SlidingWindow.recent restartWindowS c.now (w.restarts c.name)

/-- The body of the `for` loop of `_worker_watchdog`. -/
def check (w : Watchdog) (c : Check) : Watchdog × Verdict :=
  if c.isAlive || w.gaveUp c.name || !c.running then (w, .skip)
  else if maxRestarts ≤ (w.recent c).length then
    ({ w with gaveUp := Function.update w.gaveUp c.name true }, .giveUp)
  else
    ({ w with restarts := Function.update w.restarts c.name (w.recent c ++ [c.now]) },
      .restart ((w.recent c).length + 1))

/-- `check` with what it looked at beside its verdict. -/
def step (w : Watchdog) (c : Check) : Watchdog × (Check × Verdict) :=
  ((w.check c).1, (c, (w.check c).2))

/-- The watchdog after a run of checks. -/
def afterChecks (checks : List Check) : Watchdog := Machine.after step {} checks

/-- What was decided at each check of a run. -/
def log (checks : List Check) : List (Check × Verdict) := Machine.outputs step {} checks

/-- What is decided at one more check. -/
def verdict (checks : List Check) (c : Check) : Verdict := ((afterChecks checks).check c).2

/-- The clock at a logged restart of `name`. -/
def restartTime (name : String) : Check × Verdict → Option ℚ
  | (c, .restart _) => if c.name = name then some c.now else none
  | _ => none

/-- When `name` was restarted, in order. -/
def restartTimes (name : String) (checks : List Check) : List ℚ :=
  (log checks).filterMap (restartTime name)

/-- `name` was given up on in the run. -/
def GivenUp (name : String) (checks : List Check) : Prop :=
  ∃ entry ∈ log checks, entry.1.name = name ∧ entry.2 = .giveUp

/-- The worker is found dead: the app runs, and the watchdog has not given up on it before. -/
def FoundDead (checks : List Check) (c : Check) : Prop :=
  c.isAlive = false ∧ c.running = true ∧ ¬GivenUp c.name checks

theorem log_snoc (checks : List Check) (c : Check) :
    log (checks ++ [c]) = log checks ++ [(c, verdict checks c)] :=
  Machine.outputs_snoc step {} checks c

theorem afterChecks_snoc (checks : List Check) (c : Check) :
    afterChecks (checks ++ [c]) = ((afterChecks checks).check c).1 :=
  Machine.after_snoc step {} checks c

/-! ## What one check does -/

/-- What a check can do, with what it tested. -/
inductive Checks (w : Watchdog) (c : Check) : Watchdog × Verdict → Prop
  | skip (reason : c.isAlive = true ∨ w.gaveUp c.name = true ∨ c.running = false) :
      Checks w c (w, .skip)
  | giveUp (dead : c.isAlive = false) (kept : w.gaveUp c.name = false) (running : c.running = true)
      (full : maxRestarts ≤ (w.recent c).length) :
      Checks w c ({ w with gaveUp := Function.update w.gaveUp c.name true }, .giveUp)
  | restart (dead : c.isAlive = false) (kept : w.gaveUp c.name = false)
      (running : c.running = true) (room : (w.recent c).length < maxRestarts) :
      Checks w c
        ({ w with restarts := Function.update w.restarts c.name (w.recent c ++ [c.now]) },
          .restart ((w.recent c).length + 1))

theorem check_checks (w : Watchdog) (c : Check) : Checks w c (w.check c) := by
  unfold check
  split
  next skipped =>
    refine .skip ?_
    simpa [Bool.or_eq_true, or_assoc] using skipped
  next found =>
    have looked : c.isAlive = false ∧ w.gaveUp c.name = false ∧ c.running = true := by
      simpa [and_assoc] using found
    obtain ⟨dead, kept, running⟩ := looked
    split
    next full => exact .giveUp dead kept running full
    next room => exact .restart dead kept running (Nat.lt_of_not_le room)

/-! ## The history of a worker -/

theorem restartTimes_snoc (name : String) (checks : List Check) (c : Check) :
    restartTimes name (checks ++ [c])
      = restartTimes name checks ++ (restartTime name (c, verdict checks c)).toList := by
  rw [restartTimes, log_snoc, List.filterMap_append, ← restartTimes]
  cases timed : restartTime name (c, verdict checks c) <;> simp [timed]

theorem givenUp_snoc (name : String) (checks : List Check) (c : Check) :
    GivenUp name (checks ++ [c])
      ↔ GivenUp name checks ∨ (c.name = name ∧ verdict checks c = .giveUp) := by
  simp [GivenUp, log_snoc, or_and_right, exists_or]

theorem restartTime_other {name : String} {c : Check} (other : c.name ≠ name) (v : Verdict) :
    restartTime name (c, v) = none := by
  cases v <;> simp [restartTime, other]

/-- The set of names given up on is the history's. -/
theorem gaveUp_iff (name : String) (checks : List Check) :
    (afterChecks checks).gaveUp name = true ↔ GivenUp name checks := by
  induction checks using List.reverseRecOn with
  | nil => simp [afterChecks, GivenUp, log, Machine.outputs]
  | append_singleton checks c ih =>
    rw [givenUp_snoc, ← ih, afterChecks_snoc, verdict]
    generalize (afterChecks checks).check c = r, check_checks (afterChecks checks) c = done at *
    cases done with
    | skip => simp
    | giveUp =>
      by_cases same : name = c.name
      · simp [same]
      · simp [same, Ne.symm same]
    | restart => simp

/-- What the watchdog remembers of `name` is as good as the whole history. -/
structure Tracks (name : String) (checks : List Check) : Prop where
  same : ∀ later, (∀ c ∈ checks, c.now ≤ later) →
    SlidingWindow.recent restartWindowS later ((afterChecks checks).restarts name)
      = SlidingWindow.recent restartWindowS later (restartTimes name checks)
  bounded : ∀ s, SlidingWindow.Narrow restartWindowS s →
    (restartTimes name checks).countP s ≤ maxRestarts

theorem Tracks.start (name : String) : Tracks name [] where
  same _ _ := rfl
  bounded _ _ := Nat.zero_le _

/-- A check that leaves the worker's list and history alone. -/
theorem Tracks.keep {name : String} {checks : List Check} {c : Check} (h : Tracks name checks)
    (list : (afterChecks (checks ++ [c])).restarts name = (afterChecks checks).restarts name)
    (times : restartTimes name (checks ++ [c]) = restartTimes name checks) :
    Tracks name (checks ++ [c]) where
  same later passed := by
    rw [list, times]
    exact h.same later fun d member => passed d (List.mem_append_left _ member)
  bounded s narrow := by
    rw [times]
    exact h.bounded s narrow

/-- **One check** at a time no earlier than those before it. -/
theorem Tracks.step {name : String} {checks : List Check} {c : Check} (h : Tracks name checks)
    (latest : ∀ d ∈ checks, d.now ≤ c.now) : Tracks name (checks ++ [c]) := by
  have list := congrArg (fun w => w.restarts name) (afterChecks_snoc checks c)
  have times := restartTimes_snoc name checks c
  rw [verdict] at times
  generalize (afterChecks checks).check c = r, check_checks (afterChecks checks) c = done at *
  cases done with
  | skip => exact h.keep list (by simpa [restartTime] using times)
  | giveUp => exact h.keep list (by simpa [restartTime] using times)
  | restart _ _ _ room =>
    by_cases mine : c.name = name
    next =>
      subst mine
      have known := h.same c.now latest
      simp only [Function.update_self] at list
      simp only [restartTime, if_true, Option.toList_some] at times
      constructor
      · intro later passed
        have now : c.now ≤ later := passed c (List.mem_append_right _ List.mem_cons_self)
        rw [list, times, SlidingWindow.recent_append, SlidingWindow.recent_append, recent,
          SlidingWindow.recent_prune now, SlidingWindow.recent_later now known]
      · intro s narrow
        rw [times]
        apply SlidingWindow.countP_snoc_le _ h.bounded narrow
        rwa [← known]
    next =>
      have other : name ≠ c.name := fun same => mine same.symm
      rw [restartTime_other mine, Option.toList_none, List.append_nil] at times
      exact h.keep (by simpa [other] using list) times

/-- **Every run**: as long as the clock does not go back. -/
theorem tracks (name : String) (checks : List Check)
    (clock : checks.Pairwise fun c d => c.now ≤ d.now) : Tracks name checks := by
  induction checks using List.reverseRecOn with
  | nil => exact .start name
  | append_singleton checks c ih =>
    obtain ⟨before, -, latest⟩ := List.pairwise_append.1 clock
    exact (ih before).step fun d member => latest d member c List.mem_cons_self

/-! ## One worker at a time -/

/-- Two watchdogs know the same about `name`. -/
structure Agrees (name : String) (w w' : Watchdog) : Prop where
  restarts : w.restarts name = w'.restarts name
  gaveUp : w.gaveUp name = w'.gaveUp name

/-- Looking at another worker changes nothing here. -/
theorem Agrees.other {name : String} {w w' : Watchdog} (h : Agrees name w w') {c : Check}
    (other : c.name ≠ name) : Agrees name w (w'.check c).1 := by
  have apart : name ≠ c.name := fun same => other same.symm
  generalize w'.check c = r, check_checks w' c = done
  cases done with
  | skip => exact h
  | giveUp => exact ⟨h.restarts, by simpa [apart] using h.gaveUp⟩
  | restart => exact ⟨by simpa [apart] using h.restarts, h.gaveUp⟩

/-- Looking at the worker itself gives one verdict. -/
theorem Agrees.check {w w' : Watchdog} {c : Check} (h : Agrees c.name w w') :
    (w.check c).2 = (w'.check c).2 ∧ Agrees c.name (w.check c).1 (w'.check c).1 := by
  have recent : w.recent c = w'.recent c := by rw [Watchdog.recent, h.restarts, ← Watchdog.recent]
  unfold Watchdog.check
  rw [h.gaveUp, recent]
  split
  next => exact ⟨rfl, h⟩
  next =>
    split
    next => exact ⟨rfl, h.restarts, by simp⟩
    next => exact ⟨rfl, by simp, h.gaveUp⟩

/-- The checks of one worker alone lead to what the whole run knows about it, by the same
verdicts. -/
theorem log_filter (name : String) (checks : List Check) :
    log (checks.filter (·.name = name)) = (log checks).filter (·.1.name = name)
      ∧ Agrees name (afterChecks (checks.filter (·.name = name))) (afterChecks checks) := by
  induction checks using List.reverseRecOn with
  | nil => exact ⟨rfl, rfl, rfl⟩
  | append_singleton checks c ih =>
    obtain ⟨same, agrees⟩ := ih
    rw [List.filter_append, log_snoc, List.filter_append, ← same, afterChecks_snoc]
    by_cases mine : c.name = name
    · subst mine
      simp only [decide_true, List.filter_cons_of_pos, List.filter_nil, log_snoc, afterChecks_snoc]
      obtain ⟨verdicts, kept⟩ := agrees.check
      exact ⟨by rw [verdict, verdict, verdicts], kept⟩
    · simp only [mine, decide_false, Bool.false_eq_true, not_false_eq_true,
        List.filter_cons_of_neg, List.filter_nil, List.append_nil]
      exact ⟨trivial, agrees.other mine⟩

/-! ## The budget -/

/-- How many restarts of the worker lie within the last window at a check. -/
def recentRestarts (checks : List Check) (c : Check) : ℕ :=
  (restartTimes c.name checks).countP fun t => c.now - t < restartWindowS

theorem map_fst_log (checks : List Check) : (log checks).map Prod.fst = checks := by
  induction checks using List.reverseRecOn with
  | nil => rfl
  | append_singleton checks c ih => rw [log_snoc, List.map_append, ih, List.map_singleton]

/-- A restart happened at the time of a check. -/
theorem exists_of_mem_restartTimes {name : String} {checks : List Check} {t : ℚ}
    (member : t ∈ restartTimes name checks) : ∃ c ∈ checks, c.now = t := by
  obtain ⟨⟨c, v⟩, logged, time⟩ := List.mem_filterMap.1 member
  refine ⟨c, ?_, ?_⟩
  · rw [← map_fst_log checks]
    exact List.mem_map_of_mem logged
  · cases v with
    | restart n =>
      rw [restartTime] at time
      split at time
      · exact Option.some.inj time
      · cases time
    | skip => cases time
    | giveUp => cases time

/-- The last window ends now, so it holds no more than any other. -/
theorem recentRestarts_le {checks : List Check} {c : Check}
    (known : Tracks c.name checks) (latest : ∀ d ∈ checks, d.now ≤ c.now) :
    recentRestarts checks c ≤ maxRestarts := by
  have narrow := SlidingWindow.narrow_openClosed (w := restartWindowS) (c.now - restartWindowS)
  refine le_trans (List.countP_mono_left ?_) (known.bounded _ narrow)
  intro t member new
  obtain ⟨d, checked, rfl⟩ := exists_of_mem_restartTimes member
  have new := of_decide_eq_true new
  refine decide_eq_true ⟨sub_lt_comm.1 new, ?_⟩
  rw [sub_add_cancel]
  exact latest d checked

/-- A check gives up exactly on a worker found dead with its budget used up. -/
theorem verdict_giveUp_iff {checks : List Check} {c : Check} (known : Tracks c.name checks)
    (latest : ∀ d ∈ checks, d.now ≤ c.now) :
    verdict checks c = .giveUp ↔
      FoundDead checks c ∧ recentRestarts checks c = maxRestarts := by
  have count : ((afterChecks checks).recent c).length = recentRestarts checks c := by
    rw [recent, known.same c.now latest, SlidingWindow.length_recent, recentRestarts]
  have least := recentRestarts_le known latest
  have gone := gaveUp_iff c.name checks
  rw [verdict, FoundDead]
  generalize (afterChecks checks).check c = r, check_checks (afterChecks checks) c = done
  cases done with
  | skip reason =>
    refine iff_of_false (by simp) ?_
    rintro ⟨⟨dead, running, kept⟩, -⟩
    rcases reason with alive | given | stopped
    · simp [dead] at alive
    · exact kept (gone.1 given)
    · simp [running] at stopped
  | giveUp dead kept running full =>
    refine iff_of_true rfl ⟨⟨dead, running, ?_⟩, by omega⟩
    rw [← gone, kept]
    simp
  | restart _ _ _ room =>
    refine iff_of_false (by simp) ?_
    rintro ⟨-, used⟩
    omega

theorem verdict_of_givenUp {checks : List Check} {c : Check} (given : GivenUp c.name checks) :
    verdict checks c = .skip := by
  rw [verdict, check, (gaveUp_iff c.name checks).2 given]
  simp

end Watchdog

open Watchdog in
/-- **The restart budget of the watchdog.** While the clock does not go back, no half-open interval
of the window's length holds more restarts of a worker than the budget; the watchdog gives up on a
worker exactly when it finds it dead with the budget used up within the last window, and never
looks at it again; and what it decides about a worker it decides from that worker's checks. -/
theorem watchdog_restart_budget (checks : List Check)
    (clock : checks.Pairwise fun c d => c.now ≤ d.now) (name : String) :
    (∀ a, (restartTimes name checks).countP (fun t => a ≤ t ∧ t < a + restartWindowS) ≤ maxRestarts
      ∧ (restartTimes name checks).countP (fun t => a < t ∧ t ≤ a + restartWindowS) ≤ maxRestarts)
    ∧ (∀ before c rest, checks = before ++ c :: rest → c.name = name →
        (verdict before c = .giveUp ↔ FoundDead before c ∧ recentRestarts before c = maxRestarts)
        ∧ (GivenUp name before → verdict before c = .skip))
    ∧ log (checks.filter (·.name = name)) = (log checks).filter (·.1.name = name) := by
  refine ⟨fun a => ?_, ?_, (log_filter name checks).1⟩
  · have known := tracks name checks clock
    exact ⟨known.bounded _ (SlidingWindow.narrow_closedOpen a),
      known.bounded _ (SlidingWindow.narrow_openClosed a)⟩
  · rintro before c rest rfl rfl
    obtain ⟨ordered, -, latest⟩ := List.pairwise_append.1 clock
    have known := tracks c.name before ordered
    exact ⟨verdict_giveUp_iff known fun d member => latest d member c List.mem_cons_self,
      verdict_of_givenUp⟩

/-- A worker that dies every ten seconds and one that dies once. -/
def crashLoop : List Check :=
  (List.range 7).map (fun i => ⟨"processor", false, true, 10 * i⟩)
    ++ [⟨"td_renderer", false, true, 70⟩]

open Watchdog in
theorem watchdog_restart_budget_crashLoop :
    FoundDead (crashLoop.take 5) ⟨"processor", false, true, 50⟩
      ∧ recentRestarts (crashLoop.take 5) ⟨"processor", false, true, 50⟩ = maxRestarts :=
  ((watchdog_restart_budget crashLoop (by decide +kernel) "processor").2.1 (crashLoop.take 5)
    ⟨"processor", false, true, 50⟩ (crashLoop.drop 6) (by decide +kernel) rfl).1.1 (by decide +kernel)

open Watchdog in
/-- The worker that keeps dying is restarted five times and then given up on. -/
example : (log crashLoop).map Prod.snd
    = [.restart 1, .restart 2, .restart 3, .restart 4, .restart 5, .giveUp, .skip, .restart 1] := by
  decide +kernel

end StreamWeb

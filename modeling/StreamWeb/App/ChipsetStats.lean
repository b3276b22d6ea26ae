import StreamWeb.App.SharedState
import StreamWeb.Lib.Machine

/-!
# Reset and the chipset statistics

The decoder package counts attempts in module state, so every process that
imports it has counters of its own. The processor's count what it decodes, and
every cycle publishes what they say through `result_queue`; `POST /api/reset`
runs in the main process and resets the counters there. Each counted attempt
carries the number of resets handled before it was decoded, and each result
that of the resets handled before its cycle began.
-/

namespace StreamWeb

/-- An attempt and how many resets were handled before it was decoded. -/
abbrev Counted := ℕ × Attempt

/-- The decoder package's module state in one process: the attempts counted since
`reset_chipset_stats` last ran there. -/
abbrev ChipsetCounters := List Counted

/-- A result of a processor cycle on `result_queue`, with what its statistics count. -/
structure CycleResult where
  /-- How many resets were handled before the cycle began. -/
  began : ℕ
  counted : ChipsetCounters
  result : WorkerResult

/-- The processor's place in a cycle. -/
inductive CyclePhase where
  | waiting
  | begun (resets : ℕ)
  | decoded (resets : ℕ)

/-- The main process, the processor and the queue between them. -/
structure StatsSystem where
  app : SharedState := {}
  /-- The counters in the main process. -/
  appCounters : ChipsetCounters := []
  /-- The counters in the processor. -/
  counters : ChipsetCounters := []
  phase : CyclePhase := .waiting
  resultQueue : List CycleResult := []
  /-- How many resets were handled. -/
  resets : ℕ := 0

inductive StatsStep where
  /-- The processor begins a cycle. -/
  | begin
  /-- `decode_signal` makes and counts these attempts. -/
  | decode (attempts : List Attempt)
  /-- The cycle's result is put on the queue; `result` holds its other keys. -/
  | publish (result : WorkerResult)
  /-- `_drain_results` takes the oldest result. -/
  | drain
  /-- `POST /api/reset`. -/
  | reset

/-- `get_chipset_stats` as a function of the attempts counted. -/
abbrev ChipsetTable := List Attempt → List (String × Py.Dict)

namespace StatsSystem

variable (getChipsetStats : ChipsetTable)

def step (s : StatsSystem) : StatsStep → StatsSystem
  | .begin =>
    match s.phase with
    | .waiting => { s with phase := .begun s.resets }
    | _ => s
  | .decode attempts =>
    match s.phase with
    | .begun resets =>
      { s with
        counters := s.counters ++ attempts.map (Prod.mk s.resets), phase := .decoded resets }
    | _ => s
  | .publish result =>
    match s.phase with
    | .decoded resets =>
      { s with
        phase := .waiting
        resultQueue := s.resultQueue ++ [⟨resets, s.counters,
          { result with chipsetStats := some (getChipsetStats (s.counters.map Prod.snd)) }⟩] }
    | _ => s
  | .drain =>
    match s.resultQueue with
    | [] => s
    | r :: rest => { s with app := s.app.drainResult r.result, resultQueue := rest }
  | .reset => { s with app := s.app.apiReset, appCounters := [], resets := s.resets + 1 }

/-- The system after a run. -/
def run (steps : List StatsStep) : StatsSystem := steps.foldl (step getChipsetStats) {}

/-- The next drain installs the statistics of `r`. -/
def Installs (s : StatsSystem) (r : CycleResult) : Prop :=
  s.resultQueue.head? = some r ∧ r.result.chipsetStats.getD [] ≠ []

/-- The cycle of `r` began after the latest reset. -/
def Current (s : StatsSystem) (r : CycleResult) : Prop := r.began = s.resets

/-- All that `r` counts was decoded after the latest reset. -/
def CountsFresh (s : StatsSystem) (r : CycleResult) : Prop := ∀ a ∈ r.counted, a.1 = s.resets

theorem run_snoc (steps : List StatsStep) (e : StatsStep) :
    run getChipsetStats (steps ++ [e]) = (run getChipsetStats steps).step getChipsetStats e := by
  simp [run]

/-- Every reset of the run found the processor's counters empty. -/
def ResetsEarly (steps : List StatsStep) : Prop :=
  ∀ before e after, steps = before ++ e :: after → e = .reset →
    (run getChipsetStats before).counters = []

/-- What the counters and the results on their way hold. -/
structure Tallies (s : StatsSystem) : Prop where
  decoded : ∀ a ∈ s.counters, a.1 ≤ s.resets
  phase : ∀ n, s.phase = .begun n ∨ s.phase = .decoded n → n ≤ s.resets
  began : ∀ r ∈ s.resultQueue, r.began ≤ s.resets
  counted : ∀ r ∈ s.resultQueue, ∀ a ∈ r.counted, a ∈ s.counters
  complete : ∀ r ∈ s.resultQueue, ∀ a ∈ s.counters, a.1 < r.began → a ∈ r.counted
  table : ∀ r ∈ s.resultQueue,
    r.result.chipsetStats = some (getChipsetStats (r.counted.map Prod.snd))

theorem Tallies.start : Tallies getChipsetStats {} := by
  constructor <;> simp

theorem Tallies.step {s : StatsSystem} (h : Tallies getChipsetStats s) (e : StatsStep) :
    Tallies getChipsetStats (s.step getChipsetStats e) := by
  obtain ⟨decoded, phase, began, counted, complete, table⟩ := h
  cases e with
  | begin =>
    simp only [StatsSystem.step]
    split
    · refine ⟨decoded, ?_, began, counted, complete, table⟩
      rintro n (same | same) <;> cases same
      exact le_rfl
    · exact ⟨decoded, phase, began, counted, complete, table⟩
  | decode attempts =>
    simp only [StatsSystem.step]
    split
    next resets here =>
      refine ⟨?_, ?_, began, ?_, ?_, table⟩
      · intro a member
        rcases List.mem_append.1 member with old | new
        · exact decoded a old
        · obtain ⟨b, -, rfl⟩ := List.mem_map.1 new
          exact le_rfl
      · rintro n (same | same) <;> cases same
        exact phase _ (.inl here)
      · intro r queued a member
        exact List.mem_append_left _ (counted r queued a member)
      · intro r queued a member stale
        rcases List.mem_append.1 member with old | new
        · exact complete r queued a old stale
        · obtain ⟨b, -, rfl⟩ := List.mem_map.1 new
          exact absurd (began r queued) (Nat.not_le_of_lt stale)
    next => exact ⟨decoded, phase, began, counted, complete, table⟩
  | publish result =>
    simp only [StatsSystem.step]
    split
    next resets here =>
      refine ⟨decoded, by simp, ?_, ?_, ?_, ?_⟩
      · exact List.forall_mem_append.2 ⟨began, List.forall_mem_singleton.2 (phase _ (.inr here))⟩
      · exact List.forall_mem_append.2 ⟨counted, List.forall_mem_singleton.2 fun _ member => member⟩
      · exact List.forall_mem_append.2 ⟨complete, List.forall_mem_singleton.2 fun _ member _ => member⟩
      · exact List.forall_mem_append.2 ⟨table, List.forall_mem_singleton.2 rfl⟩
    next => exact ⟨decoded, phase, began, counted, complete, table⟩
  | drain =>
    simp only [StatsSystem.step]
    split
    next => exact ⟨decoded, phase, began, counted, complete, table⟩
    next r rest here =>
      have queued : ∀ r' ∈ rest, r' ∈ s.resultQueue := fun r' member =>
        here ▸ List.mem_cons_of_mem r member
      exact ⟨decoded, phase, fun r' m => began r' (queued r' m), fun r' m => counted r' (queued r' m),
        fun r' m => complete r' (queued r' m), fun r' m => table r' (queued r' m)⟩
  | reset =>
    exact ⟨fun a member => Nat.le_succ_of_le (decoded a member),
      fun n here => Nat.le_succ_of_le (phase n here),
      fun r queued => Nat.le_succ_of_le (began r queued), counted, complete, table⟩

theorem tallies_run (steps : List StatsStep) :
    Tallies getChipsetStats (run getChipsetStats steps) := by
  induction steps using List.reverseRecOn with
  | nil => exact .start getChipsetStats
  | append_singleton steps e ih =>
    rw [run_snoc]
    exact ih.step getChipsetStats e

/-- A step adds freshly decoded attempts to the processor's counters, and takes none away. -/
theorem step_counters (s : StatsSystem) (e : StatsStep) (h : e ≠ .reset) :
    (s.step getChipsetStats e).resets = s.resets
      ∧ ∃ new : List Attempt, (s.step getChipsetStats e).counters
        = s.counters ++ new.map (Prod.mk s.resets) := by
  cases e with
  | reset => exact absurd rfl h
  | decode attempts =>
    simp only [step]
    split
    · exact ⟨rfl, attempts, rfl⟩
    · exact ⟨rfl, [], by simp⟩
  | begin =>
    simp only [step]
    split <;> exact ⟨rfl, [], by simp⟩
  | publish result =>
    simp only [step]
    split <;> exact ⟨rfl, [], by simp⟩
  | drain =>
    simp only [step]
    split <;> exact ⟨rfl, [], by simp⟩

/-- The counters hold nothing older than the latest reset exactly when every reset found them
empty. -/
theorem resetsEarly_iff (steps : List StatsStep) :
    ResetsEarly getChipsetStats steps
      ↔ ∀ a ∈ (run getChipsetStats steps).counters, a.1 = (run getChipsetStats steps).resets := by
  induction steps using List.reverseRecOn with
  | nil => simp [ResetsEarly, run]
  | append_singleton steps e ih =>
    rw [ResetsEarly, List.forall_split_snoc, ← ResetsEarly, ih, run_snoc]
    have tallies := tallies_run getChipsetStats steps
    by_cases reset : e = .reset
    · subst reset
      constructor
      · rintro ⟨-, empty⟩ a member
        have member : a ∈ (run getChipsetStats steps).counters := member
        rw [empty rfl] at member
        cases member
      · intro fresh
        have empty : (run getChipsetStats steps).counters = [] := by
          apply List.eq_nil_iff_forall_not_mem.2
          intro a member
          have late : a.1 = (run getChipsetStats steps).resets + 1 := fresh a member
          exact absurd (tallies.decoded a member) (by omega)
        simp [empty]
    · obtain ⟨resets, new, counters⟩ := step_counters getChipsetStats _ e reset
      rw [resets, counters]
      constructor
      · rintro ⟨fresh, -⟩ a member
        rcases List.mem_append.1 member with old | new
        · exact fresh a old
        · obtain ⟨b, -, rfl⟩ := List.mem_map.1 new
          rfl
      · intro fresh
        exact ⟨fun a member => fresh a (List.mem_append_left _ member), fun same => absurd same reset⟩

/-- A drain that installs puts exactly the counts of the result in place. -/
theorem drain_installs {s : StatsSystem} (h : Tallies getChipsetStats s) {r : CycleResult}
    (installs : s.Installs r) : (s.step getChipsetStats .drain).app.chipsetStats
      = getChipsetStats (r.counted.map Prod.snd) := by
  obtain ⟨head, nonempty⟩ := installs
  have queued : r ∈ s.resultQueue := List.mem_of_head? head
  obtain ⟨rest, queue⟩ : ∃ rest, s.resultQueue = r :: rest := List.head?_eq_some_iff.1 head
  have table := h.table r queued
  rw [table, Option.getD_some] at nonempty
  simp [step, queue, SharedState.drainResult, table, nonempty]

end StatsSystem

open StatsSystem in
/-- **When a reset reaches the statistics.** In a run of cycles, drains and resets in any order,
whatever statistics a drain installs from a cycle that began after the latest reset count only
attempts decoded after it, exactly when at every such drain each reset so far had found the
processor's counters still empty. -/
theorem reset_reaches_stats_iff (getChipsetStats : ChipsetTable) (steps : List StatsStep) :
    (∀ before after r, steps = before ++ .drain :: after →
        (run getChipsetStats before).Installs r → (run getChipsetStats before).Current r →
        ((run getChipsetStats before).step getChipsetStats .drain).app.chipsetStats
            = getChipsetStats (r.counted.map Prod.snd)
          ∧ (run getChipsetStats before).CountsFresh r)
      ↔ ∀ before after r, steps = before ++ .drain :: after →
        (run getChipsetStats before).Installs r → (run getChipsetStats before).Current r →
        ResetsEarly getChipsetStats before := by
  have single : ∀ before r, (run getChipsetStats before).Installs r →
      (run getChipsetStats before).Current r →
      ((run getChipsetStats before).CountsFresh r ↔ ResetsEarly getChipsetStats before) := by
    intro before r installs current
    have tallies := tallies_run getChipsetStats before
    have queued := List.mem_of_head? installs.1
    rw [resetsEarly_iff]
    constructor
    · intro fresh a member
      by_contra other
      have stale : a.1 < r.began := by
        rw [current]
        exact lt_of_le_of_ne (tallies.decoded a member) other
      exact other (fresh a (tallies.complete r queued a member stale))
    · intro fresh a member
      exact fresh a (tallies.counted r queued a member)
  constructor
  · intro property before after r split installs current
    exact (single before r installs current).1 (property before after r split installs current).2
  · intro early before after r split installs current
    exact ⟨drain_installs getChipsetStats (tallies_run getChipsetStats before) installs,
      (single before r installs current).2 (early before after r split installs current)⟩

/-- A table with the number of attempts of one chipset. -/
def attemptTable : ChipsetTable := fun attempts =>
  if attempts.isEmpty then [] else [("A", [("attempts", .int attempts.length)])]

/-- A cycle that decodes `attempts`, up to its result. -/
def decodingCycle (attempts : List Attempt) : List StatsStep :=
  [.begin, .decode attempts, .publish {}]

/-- A cycle with one attempt, its result drained, a reset, and a cycle without attempts. -/
def resetBetween : List StatsStep :=
  decodingCycle [{ chipset := some "A" }] ++ [.drain, .reset] ++ decodingCycle []

open StatsSystem in
/-- The result of the second cycle puts back the attempt that was decoded before the reset. -/
theorem reset_undone :
    (run attemptTable resetBetween).Installs ⟨1, [(0, { chipset := some "A" })],
        { chipsetStats := some [("A", [("attempts", .int 1)])] }⟩
      ∧ (run attemptTable resetBetween).resets = 1
      ∧ (run attemptTable resetBetween).app.chipsetStats = []
      ∧ ((run attemptTable resetBetween).step attemptTable .drain).app.chipsetStats
        = [("A", [("attempts", .int 1)])] :=
  ⟨⟨rfl, by simp⟩, rfl, rfl, rfl⟩

end StreamWeb

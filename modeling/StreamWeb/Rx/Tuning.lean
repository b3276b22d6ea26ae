import StreamWeb.App.TargetCell
import StreamWeb.Lib.Machine

/-!
# LO requests and the receive loop

`POST /api/lo` and `rx_loop` share the LO cell as they share the gain's, without
a lock, but `rx_loop` writes the cell only where `fg.set_frequency` failed. So
a request is undone by a failure and by nothing else (`lo_kept_iff`). Requests
can still overwrite one another; `lo_counted` says what the frequency is made of.
-/

namespace StreamWeb

/-- What the shared cell, a signed 64-bit integer, keeps of a frequency. -/
def loCell (freq : ℤ) : ℤ := freq.bmod (2 ^ 64)

/-- Where `rx_loop` is in its treatment of the LO. -/
inductive TunePhase where
  /-- At the comparison with `cur_freq`. -/
  | compare
  /-- The cell differed; at `new_freq = state.lo_freq_hz`. -/
  | reread
  /-- At `fg.set_frequency(new_freq)`. -/
  | setFrequency (newFreq : ℤ)
  /-- It failed; at `state.lo_freq_hz = cur_freq`. -/
  | writeBack
  deriving DecidableEq

/-- The LO cell, the hardware, the locals of `rx_loop`, and what each request under way is about to
write. -/
structure Tuning where
  cell : ℤ := Config.centerFreqHz
  hardware : ℤ := Config.centerFreqHz
  curFreq : ℤ := Config.centerFreqHz
  phase : TunePhase := .compare
  requests : List ℤ := []
  deriving DecidableEq

inductive TuneStep where
  /-- `api_lo` reads the cell and computes the new frequency. -/
  | read (deltaKHz : JsonInt)
  /-- A request writes the cell and returns the frequency. -/
  | write (request : ℕ)
  /-- The next step of `rx_loop`; `ok` tells whether `set_frequency` succeeds, where that is the
  step. -/
  | loop (ok : Bool)

namespace Tuning

/-- The next step of an iteration of `rx_loop`. -/
def loop (s : Tuning) (ok : Bool) : Tuning :=
  match s.phase with
  | .compare => if s.cell ≠ s.curFreq then { s with phase := .reread } else s
  | .reread => { s with phase := .setFrequency s.cell }
  | .setFrequency newFreq =>
    if ok then { s with hardware := newFreq, curFreq := newFreq, phase := .compare }
    else { s with phase := .writeBack }
  | .writeBack => { s with cell := s.curFreq, phase := .compare }

/-- One step, and the frequency a request returns with it. A `delta_khz` that `int` does not take
raises before anything is written. -/
def step (s : Tuning) : TuneStep → Tuning × Option ℤ
  | .read (.int deltaKHz) => ({ s with requests := s.requests ++ [s.cell + deltaKHz * 1000] }, none)
  | .read .invalid => (s, none)
  | .write i =>
    match s.requests[i]? with
    | some newFreq =>
      ({ s with cell := loCell newFreq, requests := s.requests.eraseIdx i }, some newFreq)
    | none => (s, none)
  | .loop ok => (s.loop ok, none)

/-- The state after a run. -/
def run (steps : List TuneStep) : Tuning := Machine.after step {} steps

/-- The state after as many steps of the loop alone as there are outcomes. -/
def loops (s : Tuning) (oks : List Bool) : Tuning := Machine.after step s (oks.map .loop)

theorem run_snoc (steps : List TuneStep) (e : TuneStep) :
    run (steps ++ [e]) = ((run steps).step e).1 :=
  Machine.after_snoc step {} steps e

theorem loops_snoc (s : Tuning) (oks : List Bool) (ok : Bool) :
    s.loops (oks ++ [ok]) = (s.loops oks).loop ok := by
  rw [loops, List.map_append, List.map_singleton, Machine.after_snoc]
  rfl

theorem loops_append (s : Tuning) (oks later : List Bool) :
    s.loops (oks ++ later) = (s.loops oks).loops later := by
  rw [loops, loops, loops, List.map_append, Machine.after, List.foldl_append]
  rfl

theorem loops_cons (s : Tuning) (ok : Bool) (later : List Bool) :
    s.loops (ok :: later) = (s.loop ok).loops later :=
  loops_append s [ok] later

/-! ## What the loop does alone -/

variable {s : Tuning}

/-- What a step of the loop can do. -/
inductive Loops (s : Tuning) (ok : Bool) : TunePhase → Tuning → Prop
  | agreed (same : s.cell = s.curFreq) : Loops s ok .compare s
  | differed (differs : s.cell ≠ s.curFreq) : Loops s ok .compare { s with phase := .reread }
  | reread : Loops s ok .reread { s with phase := .setFrequency s.cell }
  | tuned {newFreq : ℤ} (success : ok = true) :
      Loops s ok (.setFrequency newFreq)
        { s with hardware := newFreq, curFreq := newFreq, phase := .compare }
  | failed {newFreq : ℤ} (failure : ok = false) :
      Loops s ok (.setFrequency newFreq) { s with phase := .writeBack }
  | writeBack : Loops s ok .writeBack { s with cell := s.curFreq, phase := .compare }

theorem loop_loops (s : Tuning) (ok : Bool) : Loops s ok s.phase (s.loop ok) := by
  unfold loop
  cases s.phase with
  | compare =>
    dsimp only
    split
    next differs => exact .differed differs
    next same => exact .agreed (not_not.1 same)
  | reread => exact .reread
  | setFrequency newFreq =>
    cases ok with
    | true => exact .tuned rfl
    | false => exact .failed rfl
  | writeBack => exact .writeBack

/-- A step of the loop changes the cell by a write-back alone. -/
theorem cell_loop (s : Tuning) (ok : Bool) :
    (s.loop ok).cell = if s.phase = .writeBack then s.curFreq else s.cell := by
  have steps := loop_loops s ok
  generalize s.phase = phase, s.loop ok = s' at steps ⊢
  cases steps <;> simp

/-- The loop has nothing left to do. -/
structure Idle (s : Tuning) : Prop where
  phase : s.phase = .compare
  cell : s.cell = s.curFreq

theorem Idle.loop (h : Idle s) (ok : Bool) : s.loop ok = s := by
  simp [Tuning.loop, h.phase, h.cell]

theorem Idle.loops (h : Idle s) (oks : List Bool) : s.loops oks = s := by
  induction oks using List.reverseRecOn with
  | nil => rfl
  | append_singleton oks ok ih => rw [loops_snoc, ih, h.loop]

/-- A write-back ends an iteration, and the next one has nothing to do. -/
theorem idle_of_writeBack (here : s.phase = .writeBack) (ok : Bool) : Idle (s.loop ok) := by
  simp only [Tuning.loop, here]
  exact ⟨rfl, rfl⟩

/-- What an iteration that was started with no request to come goes through. -/
inductive Stage (s : Tuning) : Prop
  | idle (idle : Idle s)
  | reread (phase : s.phase = .reread)
  | setFrequency (phase : s.phase = .setFrequency s.cell)
  | writeBack (phase : s.phase = .writeBack)

theorem Stage.loop (h : Stage s) (ok : Bool) : Stage (s.loop ok) := by
  cases h with
  | idle idle => exact .idle (by rwa [idle.loop])
  | reread phase => exact .setFrequency (by simp [Tuning.loop, phase])
  | setFrequency phase =>
    cases ok with
    | true => exact .idle (by constructor <;> simp [Tuning.loop, phase])
    | false => exact .writeBack (by simp [Tuning.loop, phase])
  | writeBack phase => exact .idle (idle_of_writeBack phase ok)

theorem stage_of_compare (here : s.phase = .compare) (ok : Bool) : Stage (s.loop ok) := by
  have steps := loop_loops s ok
  rw [here] at steps
  generalize s.loop ok = s' at steps ⊢
  cases steps with
  | agreed same => exact .idle ⟨here, same⟩
  | differed differs => exact .reread rfl

theorem Stage.loops (h : Stage s) (oks : List Bool) : Stage (s.loops oks) := by
  induction oks using List.reverseRecOn with
  | nil => exact h
  | append_singleton oks ok ih =>
    rw [loops_snoc]
    exact ih.loop ok

/-- Within these steps of the loop one full iteration is completed. -/
def FullIteration (s : Tuning) (oks : List Bool) : Prop :=
  ∃ first ok iteration rest, oks = first ++ ok :: iteration ++ rest ∧
    (s.loops first).phase = .compare ∧ (s.loops (first ++ ok :: iteration)).phase = .compare

theorem idle_of_fullIteration {oks : List Bool} (full : FullIteration s oks) : Idle (s.loops oks) := by
  obtain ⟨first, ok, iteration, rest, rfl, start, done⟩ := full
  have stage : Stage (s.loops (first ++ ok :: iteration)) := by
    rw [loops_append, loops_cons]
    exact (stage_of_compare start ok).loops iteration
  have idle : Idle (s.loops (first ++ ok :: iteration)) := by
    cases stage with
    | idle idle => exact idle
    | reread phase => rw [done] at phase; cases phase
    | setFrequency phase => rw [done] at phase; cases phase
    | writeBack phase => rw [done] at phase; cases phase
  rwa [loops_append, idle.loops]

/-- Every write-back among these steps writes `freq`. -/
def WritesBackOnly (s : Tuning) (freq : ℤ) (oks : List Bool) : Prop :=
  ∀ earlier ok later, oks = earlier ++ ok :: later → (s.loops earlier).phase = .writeBack →
    (s.loops earlier).curFreq = freq

theorem cell_of_writesBackOnly {freq : ℤ} {oks : List Bool} (written : s.cell = freq)
    (only : WritesBackOnly s freq oks) : (s.loops oks).cell = freq := by
  induction oks using List.reverseRecOn with
  | nil => exact written
  | append_singleton oks ok ih =>
    obtain ⟨earlier, last⟩ := List.forall_split_snoc
      (P := fun oks _ => (s.loops oks).phase = .writeBack → (s.loops oks).curFreq = freq).1 only
    rw [loops_snoc, cell_loop]
    split
    next here => exact last here
    next => exact ih earlier

/-- What a write-back wrote is there to stay. -/
theorem cell_of_writeBack {earlier later : List Bool} {ok : Bool}
    (here : (s.loops earlier).phase = .writeBack) :
    (s.loops (earlier ++ ok :: later)).cell = (s.loops earlier).curFreq := by
  rw [loops_append, loops_cons, (idle_of_writeBack here ok).loops, cell_loop, if_pos here]

/-- Nothing is written back where nothing fails. -/
theorem loops_ne_writeBack (start : s.phase ≠ .writeBack) {oks : List Bool} (ok : false ∉ oks) :
    (s.loops oks).phase ≠ .writeBack := by
  induction oks using List.reverseRecOn with
  | nil => exact start
  | append_singleton oks o ih =>
    rw [List.mem_append, not_or, List.mem_singleton] at ok
    rw [loops_snoc]
    have before := ih ok.1
    have steps := loop_loops (s.loops oks) o
    generalize here : (s.loops oks).phase = phase at before steps
    generalize (s.loops oks).loop o = s' at steps ⊢
    cases steps with
    | agreed same => rw [here]; exact before
    | failed failure => exact absurd failure.symm ok.2
    | _ => simp

/-! ## What holds in every run -/

theorem hardware_loop (h : s.hardware = s.curFreq) (ok : Bool) :
    (s.loop ok).hardware = (s.loop ok).curFreq := by
  have steps := loop_loops s ok
  generalize s.phase = phase, s.loop ok = s' at steps ⊢
  cases steps with
  | tuned success => rfl
  | _ => exact h

/-- The hardware is where the loop believes it to be, failures or not. -/
theorem hardware_after (h : s.hardware = s.curFreq) (steps : List TuneStep) :
    (Machine.after step s steps).hardware = (Machine.after step s steps).curFreq := by
  induction steps using List.reverseRecOn with
  | nil => exact h
  | append_singleton steps e ih =>
    rw [Machine.after_snoc]
    cases e with
    | read deltaKHz => cases deltaKHz <;> exact ih
    | write i =>
      simp only [step]
      split <;> exact ih
    | loop ok => exact hardware_loop ih ok

theorem run_ne_writeBack {steps : List TuneStep} (ok : .loop false ∉ steps) :
    (run steps).phase ≠ .writeBack := by
  induction steps using List.reverseRecOn with
  | nil => simp [run]
  | append_singleton steps e ih =>
    rw [List.mem_append, not_or, List.mem_singleton] at ok
    have before := ih ok.1
    rw [run_snoc]
    cases e with
    | read deltaKHz => cases deltaKHz <;> exact before
    | write i =>
      simp only [step]
      split <;> exact before
    | loop o =>
      cases o with
      | true => exact loops_ne_writeBack before (show false ∉ [true] by simp)
      | false => exact absurd rfl ok.2

end Tuning

open Tuning in
/-- **A failed call alone undoes a request.** Take any run, with failures of `set_frequency` or
without, a last write by a request, and a full iteration of `rx_loop` after it. The cell and the
hardware then agree, and they hold what the request wrote exactly when whatever `rx_loop` wrote back
since was the same frequency. So where `set_frequency` never fails no request is undone, wherever in
its iteration the loop was. -/
theorem lo_kept_iff (before : List TuneStep) (i : ℕ) (freq : ℤ)
    (returned : ((run before).step (.write i)).2 = some freq) (oks : List Bool)
    (full : FullIteration (run (before ++ [.write i])) oks) :
    ((run (before ++ [.write i])).loops oks).hardware
        = ((run (before ++ [.write i])).loops oks).cell ∧
      (((run (before ++ [.write i])).loops oks).cell = loCell freq
        ↔ WritesBackOnly (run (before ++ [.write i])) (loCell freq) oks) ∧
      (.loop false ∉ before → false ∉ oks →
        ((run (before ++ [.write i])).loops oks).hardware = loCell freq) := by
  have written : (run (before ++ [.write i])).cell = loCell freq := by
    rw [run_snoc]
    simp only [step] at returned ⊢
    split at returned
    next newFreq request =>
      cases returned
      rfl
    next => cases returned
  have no_failure : .loop false ∉ before → .loop false ∉ before ++ [.write i] := by simp
  have same : (run (before ++ [.write i])).hardware = (run (before ++ [.write i])).curFreq :=
    hardware_after rfl _
  have unbroken := fun ok : .loop false ∉ before => run_ne_writeBack (no_failure ok)
  generalize run (before ++ [.write i]) = s at written same unbroken full ⊢
  have agree : (s.loops oks).hardware = (s.loops oks).cell := by
    rw [(idle_of_fullIteration full).cell]
    exact hardware_after same _
  have kept : (s.loops oks).cell = loCell freq ↔ WritesBackOnly s (loCell freq) oks := by
    constructor
    · rintro holds earlier ok later rfl here
      rw [← holds, cell_of_writeBack here]
    · exact cell_of_writesBackOnly written
  refine ⟨agree, kept, ?_⟩
  intro good never
  rw [agree, kept]
  rintro earlier ok later rfl here
  have quiet : false ∉ earlier := fun mem => never (List.mem_append_left _ mem)
  exact absurd here (loops_ne_writeBack (unbroken good) quiet)

/-- A request for one kilohertz up overtakes the loop between its second read and its call, and is
kept all the same. -/
def overtakenTune : List TuneStep :=
  [.read (.int 1), .write 0, .loop true, .loop true, .read (.int 1)]

/-- The second request is tuned to, one iteration later. -/
theorem lo_kept_iff_overtaken :
    ((Tuning.run (overtakenTune ++ [.write 0])).loops (List.replicate 4 true)).hardware
      = 2482442375 :=
  (lo_kept_iff overtakenTune 0 2482442375 (by decide +kernel) (List.replicate 4 true)
    ⟨[true], true, [true, true], [], rfl, by decide +kernel, by decide +kernel⟩).2.2
    (by simp [overtakenTune]) (by decide)

namespace Tuning

/-! ## What the frequency is made of -/

/-- The steps asked for, in the order in which the requests read the cell. -/
def deltas (steps : List TuneStep) : List ℤ :=
  steps.filterMap fun
    | .read (.int deltaKHz) => some deltaKHz
    | _ => none

/-- What a cell keeps of the centre frequency and steps some of the requests asked for, each counted
once. -/
def Counted (steps : List TuneStep) (freq : ℤ) : Prop :=
  ∃ counted : List ℤ, counted.Sublist (deltas steps) ∧
    freq = loCell (Config.centerFreqHz + 1000 * counted.sum)

theorem deltas_snoc (steps : List TuneStep) (e : TuneStep) :
    deltas (steps ++ [e]) = deltas steps ++ deltas [e] := by
  simp [deltas]

theorem loCell_loCell_add (freq d : ℤ) : loCell (loCell freq + d) = loCell (freq + d) := by
  simp [loCell]

theorem Counted.later {steps : List TuneStep} {freq : ℤ} (h : Counted steps freq) (e : TuneStep) :
    Counted (steps ++ [e]) freq := by
  obtain ⟨counted, sub, eq⟩ := h
  refine ⟨counted, ?_, eq⟩
  rw [deltas_snoc]
  exact sub.trans (List.sublist_append_left _ _)

/-- A request adds its own step to what it read. -/
theorem Counted.request {steps : List TuneStep} {freq : ℤ} (h : Counted steps freq) (deltaKHz : ℤ) :
    Counted (steps ++ [.read (.int deltaKHz)]) (loCell (freq + deltaKHz * 1000)) := by
  obtain ⟨counted, sub, rfl⟩ := h
  refine ⟨counted ++ [deltaKHz], ?_, ?_⟩
  · rw [deltas_snoc]
    exact sub.append (List.Sublist.refl _)
  · rw [loCell_loCell_add, List.sum_append, List.sum_singleton]
    congr 1
    ring

/-- Every frequency in sight is counted. -/
structure Tallied (steps : List TuneStep) (s : Tuning) : Prop where
  cell : Counted steps s.cell
  hardware : Counted steps s.hardware
  curFreq : Counted steps s.curFreq
  phase : ∀ newFreq, s.phase = .setFrequency newFreq → Counted steps newFreq
  requests : ∀ newFreq ∈ s.requests, Counted steps (loCell newFreq)

theorem Tallied.start : Tallied [] {} := by
  have centre : Counted [] Config.centerFreqHz := ⟨[], List.Sublist.refl _, by decide +kernel⟩
  exact ⟨centre, centre, centre, by simp, by simp⟩

theorem Tallied.later {steps : List TuneStep} (h : Tallied steps s) (e : TuneStep) :
    Tallied (steps ++ [e]) s where
  cell := h.cell.later e
  hardware := h.hardware.later e
  curFreq := h.curFreq.later e
  phase newFreq here := (h.phase newFreq here).later e
  requests newFreq mem := (h.requests newFreq mem).later e

theorem Tallied.loop {steps : List TuneStep} (h : Tallied steps s) (ok : Bool) :
    Tallied steps (s.loop ok) := by
  have moves := loop_loops s ok
  generalize here : s.phase = phase, s.loop ok = s' at moves ⊢
  cases moves with
  | agreed same => exact h
  | differed differs => exact ⟨h.cell, h.hardware, h.curFreq, by simp, h.requests⟩
  | reread =>
    refine ⟨h.cell, h.hardware, h.curFreq, ?_, h.requests⟩
    rintro newFreq ⟨⟩
    exact h.cell
  | @tuned newFreq success =>
    have new := h.phase newFreq here
    exact ⟨h.cell, new, new, by simp, h.requests⟩
  | failed failure => exact ⟨h.cell, h.hardware, h.curFreq, by simp, h.requests⟩
  | writeBack => exact ⟨h.curFreq, h.hardware, h.curFreq, by simp, h.requests⟩

theorem tallied_run (steps : List TuneStep) : Tallied steps (run steps) := by
  refine Machine.after_rule step (P := Tallied) Tallied.start ?_ steps
  intro steps e h
  generalize Machine.after step {} steps = s at h
  have kept := h.later e
  cases e with
  | read deltaKHz =>
    cases deltaKHz with
    | invalid => exact kept
    | int deltaKHz =>
      refine ⟨kept.cell, kept.hardware, kept.curFreq, kept.phase, ?_⟩
      intro newFreq mem
      rcases List.mem_append.1 mem with old | new
      · exact kept.requests newFreq old
      · rw [List.mem_singleton.1 new]
        exact h.cell.request deltaKHz
  | write i =>
    simp only [step]
    split
    next newFreq request =>
      refine ⟨(kept.requests newFreq (List.mem_of_getElem? request)), kept.hardware, kept.curFreq,
        kept.phase, ?_⟩
      exact fun other mem => kept.requests other (List.mem_of_mem_eraseIdx mem)
    next => exact kept
  | loop ok => exact kept.loop ok

/-- No request reads the cell while another is under way. -/
def Serial (steps : List TuneStep) : Prop :=
  ∀ before e after, steps = before ++ e :: after →
    (∃ deltaKHz, e = .read deltaKHz) → (run before).requests = []

theorem serial_snoc {steps : List TuneStep} {e : TuneStep} :
    Serial (steps ++ [e]) ↔
      Serial steps ∧ ((∃ deltaKHz, e = .read deltaKHz) → (run steps).requests = []) :=
  List.forall_split_snoc (P := fun before (e : TuneStep) =>
    (∃ deltaKHz : JsonInt, e = .read deltaKHz) → (run before).requests = [])

/-- With the requests one at a time and no failure, nothing is left out. -/
inductive Complete (steps : List TuneStep) (s : Tuning) : Prop
  | none (requests : s.requests = [])
      (cell : s.cell = loCell (Config.centerFreqHz + 1000 * (deltas steps).sum))
  | one {newFreq : ℤ} (requests : s.requests = [newFreq])
      (cell : loCell newFreq = loCell (Config.centerFreqHz + 1000 * (deltas steps).sum))

theorem complete_run {steps : List TuneStep} (serial : Serial steps) (ok : .loop false ∉ steps) :
    Complete steps (run steps) := by
  induction steps using List.reverseRecOn with
  | nil => exact .none rfl (by decide +kernel)
  | append_singleton steps e ih =>
    obtain ⟨earlier, last⟩ := serial_snoc.1 serial
    rw [List.mem_append, not_or, List.mem_singleton] at ok
    have before := ih earlier ok.1
    have quiet := run_ne_writeBack ok.1
    rw [run_snoc]
    generalize run steps = s at before quiet last
    cases e with
    | read deltaKHz =>
      have idle := last ⟨deltaKHz, rfl⟩
      have cell : s.cell = loCell (Config.centerFreqHz + 1000 * (deltas steps).sum) := by
        cases before with
        | none requests cell => exact cell
        | one requests cell =>
          rw [idle] at requests
          cases requests
      cases deltaKHz with
      | invalid =>
        have same : deltas (steps ++ [.read .invalid]) = deltas steps := by simp [deltas]
        exact .none idle (by rw [same]; exact cell)
      | int deltaKHz =>
        refine .one (by simp [step, idle]; rfl) ?_
        rw [cell, loCell_loCell_add, deltas_snoc]
        congr 1
        simp [deltas]
        ring
    | write i =>
      have same : deltas (steps ++ [.write i]) = deltas steps := by simp [deltas]
      simp only [step]
      split
      next newFreq request =>
        cases before with
        | none requests cell =>
          rw [requests] at request
          cases request
        | one requests cell =>
          rw [requests] at request
          obtain ⟨rfl, rfl⟩ : i = 0 ∧ _ := by
            cases i with
            | zero => exact ⟨rfl, Option.some.inj request⟩
            | succ i => cases request
          refine .none (by simp [requests]) ?_
          rw [same, ← cell]
      next =>
        cases before with
        | none requests cell => exact .none requests (by rw [same, cell])
        | one requests cell => exact .one requests (by rw [same, cell])
    | loop o =>
      have same : deltas (steps ++ [.loop o]) = deltas steps := by simp [deltas]
      have cell_same : (s.loop o).cell = s.cell := by rw [cell_loop, if_neg quiet]
      have requests_same : (s.loop o).requests = s.requests := by
        have moves := loop_loops s o
        generalize s.phase = phase, s.loop o = s' at moves ⊢
        cases moves <;> rfl
      cases before with
      | none requests cell =>
        exact .none (requests_same.trans requests)
          (by rw [same, ← cell]; exact cell_same)
      | one requests cell => exact .one (requests_same.trans requests) (by rw [same, cell])

end Tuning

open Tuning in
/-- **What the frequency is made of.** In every run, whatever fails and however the requests overlap,
the cell and the hardware hold the centre frequency and steps some of the requests asked for, none of
them twice. Where no request reads while another is under way and nothing fails, they are all there
whenever none is under way. -/
theorem lo_counted (steps : List TuneStep) :
    (∃ counted : List ℤ, counted.Sublist (deltas steps) ∧
      (run steps).cell = loCell (Config.centerFreqHz + 1000 * counted.sum)) ∧
    (∃ counted : List ℤ, counted.Sublist (deltas steps) ∧
      (run steps).hardware = loCell (Config.centerFreqHz + 1000 * counted.sum)) ∧
    (Serial steps → .loop false ∉ steps → (run steps).requests = [] →
      (run steps).cell = loCell (Config.centerFreqHz + 1000 * (deltas steps).sum)) := by
  refine ⟨(tallied_run steps).cell, (tallied_run steps).hardware, ?_⟩
  intro serial ok idle
  cases complete_run serial ok with
  | none requests cell => exact cell
  | one requests cell =>
    rw [idle] at requests
    cases requests

end StreamWeb

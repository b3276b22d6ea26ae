import StreamWeb.App.Captures
import StreamWeb.Lib.Conveyor

/-!
# Captures are shown in the order they were made

A capture's job passes a queue with room for one, the renderer and the queue of
results, and can be lost in the first two. What `td_renderer` put into the
result queue comes out in that order, so the renderings that are drained never
go back to an older capture. When the processor sees every job it replaces and
no plot raises, the last capture is not lost either.
-/

namespace StreamWeb

/-- The job a message brings a rendering of. -/
def Message.number (m : Message) : Option ℕ := m.rendering.map (·.job.number)

namespace Pipeline

variable (K : DecoderConstants) (hitItems : Td.Hit → Py.Dict)

/-- The jobs on their way, from the oldest to the newest. -/
def line (s : Pipeline) : List ℕ :=
  s.resultQueue.filterMap Message.number ++
    ((s.rendering.map (·.number)).toList ++ (s.jobQueue.map (·.number)).toList)

/-- A queue gives back what one process put into it in order: a rendering is not drained in front of
an earlier one. -/
def DrainsInOrder (s : Pipeline) : PipelineStep → Prop
  | .drain i => ∀ m, s.resultQueue[i]? = some m → m.number ≠ none →
      ∀ m' ∈ s.resultQueue.take i, m'.number = none
  | _ => True

def FirstInFirstOut (steps : List PipelineStep) : Prop :=
  ∀ before e after, steps = before ++ e :: after → (run K hitItems before).DrainsInOrder e

/-- The jobs whose renderings were drained, in that order. -/
def drained (steps : List PipelineStep) : List ℕ :=
  (Machine.outputs (step K hitItems) {} steps).filterMap fun r => r.map (·.job.number)

/-- Every put into the job queue sees what it replaces. -/
def Sees (e : PipelineStep) : Prop := ∀ seen, e = .select seen → seen = true

/-- No plot raises. -/
def Plots (e : PipelineStep) : Prop := ∀ plot zoom, e = .render plot zoom → ∃ image, plot = .ok image

/-! ## One step -/

variable {K hitItems} {s : Pipeline} {e : PipelineStep}

/-- What comes out in a step. -/
def out (r : Pipeline × Option Rendering) : List ℕ := (r.2.map (·.job.number)).toList

/-- What a step does to the line. -/
inductive LineStep (s : Pipeline) (e : PipelineStep) (r : Pipeline × Option Rendering) : Prop
  | moved (jobs : r.1.jobs = s.jobs) (line : out r ++ r.1.line = s.line)
  /-- A plot raised. -/
  | failed (raised : ¬Plots e) (jobs : r.1.jobs = s.jobs) (line : (out r ++ r.1.line).Sublist s.line)
  | made {front : List ℕ} (front_of : front.Sublist s.line) (jobs : r.1.jobs = s.jobs + 1)
    (line : out r ++ r.1.line = front ++ [s.jobs])
  /-- The new job found the queue full. -/
  | refused (unseen : ¬Sees e) (jobs : r.1.jobs = s.jobs + 1) (line : out r ++ r.1.line = s.line)

theorem step_lineStep (turn : s.DrainsInOrder e) : LineStep s e (s.step K hitItems e) := by
  generalize s.step K hitItems e = r, step_steps K hitItems s e = steps at *
  cases steps with
  | nothing => exact .moved rfl rfl
  | assigned a => exact .moved rfl rfl
  | zoomed n => exact .moved rfl rfl
  | observed o here => exact .moved rfl rfl
  | read => exact .moved rfl rfl
  | selected seen here selects missed => exact .moved rfl rfl
  | @captured o tdOn tdChipset tdNtwId tdState result cap job seen here selects capture made =>
    have number : job.number = s.jobs := by
      rw [made]
      rfl
    cases waiting : s.jobQueue with
    | none =>
      refine .made (List.Sublist.refl s.line) rfl ?_
      simp [line, out, submit, waiting, number]
    | some old =>
      cases seen with
      | true =>
        refine .made (show List.Sublist (s.resultQueue.filterMap Message.number ++
          (s.rendering.map (·.number)).toList) s.line from ?_) rfl ?_
        · rw [line, ← List.append_assoc]
          exact List.sublist_append_left _ _
        · simp [line, out, submit, number]
      | false =>
        refine .refused ?_ rfl ?_
        · intro sees
          cases sees false rfl
        · simp [line, out, submit, waiting]
  | @sent o tdStatus here =>
    refine .moved rfl ?_
    have none : (o.message tdStatus).number = none := rfl
    simp [line, out, none]
  | @taken job idle waiting =>
    refine .moved rfl ?_
    simp [line, out, idle, waiting]
  | @rendered job plot zoom here =>
    cases plot with
    | ok image =>
      refine .moved rfl ?_
      have number : (renderMessage job (.ok image) zoom).number = some job.number := rfl
      simp [line, out, number, here]
    | error text =>
      refine .failed ?_ rfl ?_
      · intro plots
        obtain ⟨image, none⟩ := plots _ _ rfl
        cases none
      · have number : (renderMessage job (.error text) zoom).number = none := rfl
        simp [line, out, number, here]
  | @drained i m here =>
    refine .moved rfl ?_
    have first := Conveyor.take_out_first here (turn m here)
    have brings : out ({ s with
        resultQueue := s.resultQueue.eraseIdx i
        app := s.app.drainResult m.result
        shown := s.shown.merge m }, m.rendering) = m.number.toList := rfl
    rw [brings, line, line, ← List.append_assoc, first]

/-! ## A run -/

/-- What was drained and what is on its way, after a run. -/
theorem drained_snoc (steps : List PipelineStep) (e : PipelineStep) :
    drained K hitItems (steps ++ [e]) =
      drained K hitItems steps ++ out ((run K hitItems steps).step K hitItems e) := by
  rw [drained, Machine.outputs_snoc, List.filterMap_append]
  rfl

/-- The line of a run, with what came out of it. -/
theorem ordered_run (steps : List PipelineStep) (fifo : FirstInFirstOut K hitItems steps) :
    Conveyor.Ordered (run K hitItems steps).jobs
        (drained K hitItems steps ++ (run K hitItems steps).line) ∧
      ((∀ e ∈ steps, Sees e ∧ Plots e) →
        Conveyor.Newest (run K hitItems steps).jobs
          (drained K hitItems steps ++ (run K hitItems steps).line)) := by
  induction steps using List.reverseRecOn with
  | nil => exact ⟨.empty, fun _ => .zero⟩
  | append_singleton steps e ih =>
    obtain ⟨earlier, turn⟩ := List.forall_split_snoc.1 fifo
    obtain ⟨ordered, newest⟩ := ih earlier
    have line_step : LineStep _ e ((run K hitItems steps).step K hitItems e) := step_lineStep turn
    have after : run K hitItems (steps ++ [e]) = ((run K hitItems steps).step K hitItems e).1 :=
      Machine.after_snoc _ _ _ _
    rw [drained_snoc, after, List.append_assoc]
    generalize (run K hitItems steps).step K hitItems e = r at line_step ⊢
    cases line_step with
    | moved jobs line =>
      rw [jobs, line]
      exact ⟨ordered, fun good => newest fun e mem => good e (List.mem_append_left _ mem)⟩
    | failed raised jobs line =>
      rw [jobs]
      refine ⟨ordered.lose (line.append_left _), ?_⟩
      intro good
      exact absurd (good e (by simp)).2 raised
    | made front_of jobs line =>
      rw [jobs, line, ← List.append_assoc]
      refine ⟨ordered.add ?_, fun _ => .add⟩
      exact (front_of.append_left _).append_right _
    | refused unseen jobs line =>
      rw [jobs, line]
      refine ⟨ordered.add (List.sublist_append_left _ _), ?_⟩
      intro good
      exact absurd (good e (by simp)).1 unseen

/-- **Captures are shown in order, and the last one is shown.** In every run of the four parties in
which the result queue gives back what the renderer put into it first in, first out, the renderings
that are drained come from jobs made later and later. If every put sees the job it replaces and no
plot raises, then whenever nothing is on its way the rendering drained last is that of the last
capture made. -/
theorem captures_shown_in_order (steps : List PipelineStep) (fifo : FirstInFirstOut K hitItems steps) :
    (drained K hitItems steps).Pairwise (· < ·) ∧
      ((∀ e ∈ steps, Sees e ∧ Plots e) → (run K hitItems steps).line = [] →
        0 < (run K hitItems steps).jobs →
        (drained K hitItems steps).getLast? = some ((run K hitItems steps).jobs - 1)) := by
  obtain ⟨ordered, newest⟩ := ordered_run steps fifo
  refine ⟨(List.pairwise_append.1 ordered.sorted).1, ?_⟩
  intro good idle some_job
  have last := newest good some_job
  rwa [idle, List.append_nil] at last

/-- A queue that is drained from its front is first in, first out. -/
theorem firstInFirstOut_of_front {steps : List PipelineStep} (front : ∀ i, .drain i ∈ steps → i = 0) :
    FirstInFirstOut K hitItems steps := by
  rintro before e after rfl
  unfold DrainsInOrder
  split
  next i =>
    intro m here brings m' mem
    rw [front i (by simp), List.take_zero] at mem
    cases mem
  next => trivial

/-! ## Two captures -/

/-- The pipeline between two cycles of the search for chipset A, with nothing on its way. -/
structure Idle (s : Pipeline) : Prop where
  cells : s.cells.running = true ∧ s.cells.tdChipset = .ok (some "A") ∧ s.cells.hasNtwId = false
  phase : s.phase = .elsewhere
  nothing : s.jobQueue = none ∧ s.rendering = none ∧ s.resultQueue = []

/-- A cycle and the rendering of its capture, with both messages drained. -/
def shownCycle : List PipelineStep :=
  [.observe failedCycle, .read, .read, .read, .select true, .send, .take,
    .render (.ok ([137], ⟨0, none, none, 0, none, none⟩)) (.ok []), .drain 0, .drain 0]

variable (hitItems) in
/-- A cycle that captures shows its capture. -/
theorem Idle.cycle (idle : Idle s)
    (captures : (Td.selectTdCapture K s.tdState (failedCycle.call true (some "A") none)).2.capture.isSome = true) :
    Idle (Machine.after (step K hitItems) s shownCycle) ∧
      (Machine.after (step K hitItems) s shownCycle).tdState =
        (Td.selectTdCapture K s.tdState (failedCycle.call true (some "A") none)).1 ∧
      (Machine.after (step K hitItems) s shownCycle).jobs = s.jobs + 1 ∧
      (Machine.outputs (step K hitItems) s shownCycle).filterMap (fun r => r.map (·.job.number)) = [s.jobs] := by
  obtain ⟨cells, tdState, phase, jobs, jobQueue, rendering, resultQueue, app, shown⟩ := s
  obtain ⟨⟨running, chipset, device⟩, rfl, rfl, rfl, rfl⟩ := idle
  obtain ⟨cap, capture⟩ := Option.isSome_iff_exists.1 captures
  dsimp only at running chipset device capture
  have first : readCell cells (.readRunning failedCycle) = .readChipset failedCycle true := by
    rw [readCell, running]
  have second : readCell cells (.readChipset failedCycle true) = .readHasNtw failedCycle true (some "A") := by
    rw [readCell, chipset]
  have third : readCell cells (.readHasNtw failedCycle true (some "A")) =
      .selecting failedCycle true (some "A") none := by
    simp [readCell, device]
  refine ⟨?_, ?_, ?_, ?_⟩ <;>
    simp only [shownCycle, Machine.after_cons, Machine.after_nil, Machine.outputs, step, first, second, third,
      select, capture, submit, makeJob, Observed.message, renderMessage, List.nil_append, List.cons_append,
      List.isEmpty_nil, if_true, List.getElem?_cons_zero, List.eraseIdx_zero, List.tail_cons]
  · exact ⟨⟨running, chipset, device⟩, rfl, rfl, rfl, rfl⟩
  · simp

/-- The request for chipset A, and two cycles. -/
def twoShown : List PipelineStep :=
  [.assign (.chipset (some "A")), .assign (.hasNtwId false), .assign (.running true)] ++
    (shownCycle ++ shownCycle)

theorem captures_twice :
    (Td.selectTdCapture Td.exampleConstants .fresh
      (failedCycle.call true (some "A") none)).2.capture.isSome = true ∧
    (Td.selectTdCapture Td.exampleConstants
      (Td.selectTdCapture Td.exampleConstants .fresh (failedCycle.call true (some "A") none)).1
      (failedCycle.call true (some "A") none)).2.capture.isSome = true := by
  rw [failedCycle_call]
  decide +kernel

theorem captures_shown_in_order_two :
    drained Td.exampleConstants exampleItems twoShown = [0, 1] ∧
      (drained Td.exampleConstants exampleItems twoShown).Pairwise (· < ·) ∧
      (drained Td.exampleConstants exampleItems twoShown).getLast? =
        some ((run Td.exampleConstants exampleItems twoShown).jobs - 1) := by
  have asked : Idle (run Td.exampleConstants exampleItems (twoShown.take 3)) :=
    ⟨⟨rfl, by decide +kernel, rfl⟩, rfl, rfl, rfl, rfl⟩
  obtain ⟨captures, again⟩ := captures_twice
  obtain ⟨idle, state, jobs, drained₁⟩ := asked.cycle (K := Td.exampleConstants) exampleItems captures
  have fresh : (run Td.exampleConstants exampleItems (twoShown.take 3)).tdState = .fresh := rfl
  rw [fresh] at state
  rw [← state] at again
  obtain ⟨idle', -, jobs', drained₂⟩ := idle.cycle (K := Td.exampleConstants) exampleItems again
  have split : twoShown = twoShown.take 3 ++ (shownCycle ++ shownCycle) := rfl
  have behind : run Td.exampleConstants exampleItems twoShown = Machine.after (step Td.exampleConstants exampleItems)
      (Machine.after (step Td.exampleConstants exampleItems)
        (run Td.exampleConstants exampleItems (twoShown.take 3)) shownCycle) shownCycle := by
    rw [split, run, Machine.after_append, Machine.after_append]
    rfl
  have all : drained Td.exampleConstants exampleItems twoShown = [0, 1] := by
    rw [split, drained, Machine.outputs_append, Machine.outputs_append, List.filterMap_append,
      List.filterMap_append]
    exact congrArg₂ (· ++ ·) (rfl : _ = []) (congrArg₂ (· ++ ·) drained₁ (drained₂.trans (by rw [jobs]; rfl)))
  have fifo : FirstInFirstOut Td.exampleConstants exampleItems twoShown := by
    apply firstInFirstOut_of_front
    intro i mem
    simpa [twoShown, shownCycle] using mem
  obtain ⟨ordered, newest⟩ := captures_shown_in_order twoShown fifo
  refine ⟨all, ordered, newest ?_ ?_ ?_⟩
  · intro e mem
    simp only [twoShown, shownCycle, List.cons_append, List.nil_append, List.mem_cons, List.not_mem_nil,
      or_false] at mem
    constructor
    · rintro seen rfl
      simpa using mem
    · rintro plot zoom rfl
      simp only [PipelineStep.render.injEq, reduceCtorEq, or_false, false_or, or_self] at mem
      exact ⟨_, mem.1⟩
  · rw [behind, line, idle'.nothing.1, idle'.nothing.2.1, idle'.nothing.2.2]
    rfl
  · rw [behind, jobs', jobs]
    exact Nat.succ_pos _

end Pipeline

end StreamWeb

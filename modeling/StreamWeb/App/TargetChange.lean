import StreamWeb.App.Captures

/-!
# Captures across a change of target

A start request returns when its assignments are done. A capture selected for
another target may then still be under way: in the cycle that has read the old
cells, waiting for `td_renderer`, being rendered, or rendered and not yet
drained. `Quiet` says that there is none. It is kept by every step that leaves
the target alone (`Quiet.step`), and whatever it excludes is shown in some
continuation (`Clean`), so the captures shown after a request returned are all
for its target exactly when it returned to a quiet pipeline.
-/

namespace StreamWeb

open LastWrite

/-- `current_target` of `select_td_capture`. -/
def currentTarget (tdChipset : Option String) (tdNtwId : Option Int) : Option Td.Target :=
  match tdChipset.filter fun s => s ≠ "" with
  | some s => some (.chipset s)
  | none => tdNtwId.map .ntwId

theorem call_target (o : Observed) (tdOn : Bool) (tdChipset : Option String)
    (tdNtwId : Option Int) :
    (o.call tdOn tdChipset tdNtwId).target = currentTarget tdChipset tdNtwId := rfl

/-- The target the processor finds in the cells, unless it crashes on them, is `t`. -/
def TargetCells.Holds (c : TargetCells) (t : Option Td.Target) : Prop :=
  ∀ tdChipset, c.tdChipset = .ok tdChipset → currentTarget tdChipset c.targetNtwId = t

/-- The target a request stores, as the processor reads it; none where it crashes on the name. -/
def StartRequest.tdTarget : StartRequest → Option Td.Target
  | chipset name _ =>
    match TargetCells.decodeTarget (keptBytes name) with
    | .ok tdChipset => currentTarget tdChipset none
    | .error _ => none
  | device id => some (.ntwId (id.bmod (2 ^ 64)))

/-- The assignment of the target a step makes. -/
def PipelineStep.assigned : PipelineStep → Option TargetStep
  | .assign (.running _) => none
  | .assign a => some a
  | _ => none

/-- The step does not change the target. -/
def PipelineStep.KeepsTarget (e : PipelineStep) : Prop := e.assigned = none

/-- The request is the last that assigned the target; the last step of both kinds switches capturing
on. -/
def LastRequest (steps : List PipelineStep) (r : StartRequest) : Prop :=
  ∃ earlier, steps.filterMap PipelineStep.assigned = earlier ++ r.steps.dropLast

/-- Where a message comes from. -/
inductive Message.Made : Message → Prop
  | cycle (o : Observed) (tdStatus : Option String) : Made (o.message tdStatus)
  | rendered (job : RenderJob) (plot : Except String (Bytes × TdStats))
    (zoom : Except String Bytes) : Made (renderMessage job plot zoom)

/-- How a step that brings a rendering, or none, changes the capture that is shown. -/
def Updates (before later : SharedState) : Option Rendering → Prop
  | some r => later.tdLatestImg = r.tdImg ∧ later.tdDecodeInfo = some r.infoOut ∧
    later.tdIqSegment = some r.job.tdSeg
  | none => later.tdLatestImg = before.tdLatestImg ∧ later.tdDecodeInfo = before.tdDecodeInfo ∧
    later.tdIqSegment = before.tdIqSegment

variable (K : DecoderConstants) (hitItems : Td.Hit → Py.Dict)

namespace Pipeline

/-- Every capture that is shown from here on, as long as the target is not changed, was selected
for `t`. -/
def Clean (s : Pipeline) (t : Option Td.Target) : Prop :=
  ∀ during, (∀ e ∈ during, PipelineStep.KeepsTarget e) →
    ∀ r, some r ∈ Machine.outputs (step K hitItems) s during → r.job.target = t

/-- The selection the cycle in progress comes to, if it has read some cell already and the target is
not changed. -/
def coming (s : Pipeline) : Option (Observed × Bool × Option String × Option Int) :=
  match s.phase with
  | .readChipset o tdOn =>
    match s.cells.tdChipset with
    | .ok tdChipset => some (o, tdOn, tdChipset, s.cells.targetNtwId)
    | .error _ => none
  | .readHasNtw o tdOn tdChipset => some (o, tdOn, tdChipset, s.cells.targetNtwId)
  | .readNtwId o tdOn tdChipset => some (o, tdOn, tdChipset, some s.cells.ntwId)
  | .selecting o tdOn tdChipset tdNtwId => some (o, tdOn, tdChipset, tdNtwId)
  | .elsewhere | .readRunning _ | .sending _ _ | .crashed => none

/-- Nothing selected for another target than `t` is under way. -/
structure Quiet (s : Pipeline) (t : Option Td.Target) : Prop where
  cycle : ∀ o tdOn tdChipset tdNtwId, s.coming = some (o, tdOn, tdChipset, tdNtwId) →
    (Td.selectTdCapture K s.tdState (o.call tdOn tdChipset tdNtwId)).2.capture ≠ none →
    currentTarget tdChipset tdNtwId = t
  waiting : ∀ job, s.jobQueue = some job → job.target = t
  rendering : ∀ job, s.rendering = some job → job.target = t
  messages : ∀ m ∈ s.resultQueue, ∀ r, m.rendering = some r → r.job.target = t

variable {K hitItems} {s : Pipeline} {t : Option Td.Target}

/-! ## Quiet stays quiet -/

theorem renderMessage_job {job : RenderJob} {plot : Except String (Bytes × TdStats)}
    {zoom : Except String Bytes} {r : Rendering}
    (brings : (renderMessage job plot zoom).rendering = some r) : r.job = job := by
  cases plot with
  | ok image =>
    cases brings
    rfl
  | error e => cases brings

theorem step_cells (s : Pipeline) (e : PipelineStep) :
    (s.step K hitItems e).1.cells = match e with
      | .assign a => s.cells.assign a
      | .setNSyms n => s.cells.setZoomNSyms K n
      | _ => s.cells := by
  cases e with
  | assign a => rfl
  | setNSyms n => rfl
  | _ =>
    generalize s.step K hitItems _ = r, step_steps K hitItems s _ = steps
    cases steps <;> rfl

/-- A step that keeps the target keeps it in the cells. -/
theorem holds_step (h : s.cells.Holds t) {e : PipelineStep} (keeps : e.KeepsTarget) :
    (s.step K hitItems e).1.cells.Holds t := by
  rw [step_cells]
  cases e with
  | assign a =>
    cases a with
    | running v => exact h
    | _ => cases keeps
  | _ => exact h

/-- The processor's next read comes to the same selection, or begins to read the target. -/
theorem coming_read {x : Observed × Bool × Option String × Option Int}
    (h : coming { s with phase := readCell s.cells s.phase } = some x) :
    s.coming = some x ∨ ∃ tdChipset, s.cells.tdChipset = .ok tdChipset
      ∧ x.2.2 = (tdChipset, s.cells.targetNtwId) := by
  obtain ⟨cells, tdState, phase, _⟩ := s
  cases phase with
  | readRunning o =>
    right
    simp only [readCell, coming] at h
    split at h
    next tdChipset read =>
      cases h
      exact ⟨tdChipset, read, rfl⟩
    next => cases h
  | readChipset o tdOn =>
    left
    simp only [readCell, coming] at h ⊢
    cases read : cells.tdChipset with
    | ok tdChipset => simpa [read] using h
    | error e => simp [read] at h
  | readHasNtw o tdOn tdChipset =>
    left
    simp only [readCell, coming, TargetCells.targetNtwId] at h ⊢
    cases raised : cells.hasNtwId <;> simpa [raised] using h
  | readNtwId o tdOn tdChipset => exact .inl h
  | selecting o tdOn tdChipset tdNtwId => exact .inl h
  | elsewhere => cases h
  | sending o tdStatus => cases h
  | crashed => cases h

/-- **Quiet stays quiet** while the target is not changed. -/
theorem Quiet.step (h : Quiet K s t) (holds : s.cells.Holds t) {e : PipelineStep}
    (keeps : e.KeepsTarget) : Quiet K (s.step K hitItems e).1 t := by
  generalize s.step K hitItems e = r, step_steps K hitItems s e = steps at *
  cases steps with
  | nothing => exact h
  | assigned a =>
    cases a with
    | running v => exact ⟨h.cycle, h.waiting, h.rendering, h.messages⟩
    | _ => cases keeps
  | zoomed n => exact ⟨h.cycle, h.waiting, h.rendering, h.messages⟩
  | observed o here => exact ⟨by simp [coming], h.waiting, h.rendering, h.messages⟩
  | read =>
    refine ⟨?_, h.waiting, h.rendering, h.messages⟩
    intro o tdOn tdChipset tdNtwId here capture
    rcases coming_read here with same | ⟨name, read, target⟩
    · exact h.cycle o tdOn tdChipset tdNtwId same capture
    · obtain ⟨rfl, rfl⟩ := Prod.mk.inj target
      exact holds _ read
  | selected seen here selects missed =>
    exact ⟨by simp [coming], h.waiting, h.rendering, h.messages⟩
  | @captured o tdOn tdChipset tdNtwId tdState result cap job seen here selects capture made =>
    -- the job is for the target the cycle has read
    have coming : s.coming = some (o, tdOn, tdChipset, tdNtwId) := by rw [coming, here]
    refine ⟨by simp [Pipeline.coming], ?_, h.rendering, h.messages⟩
    intro job' waiting
    rcases submit_cases waiting with old | rfl
    · exact h.waiting job' old
    · rw [made, makeJob, call_target]
      exact h.cycle o tdOn tdChipset tdNtwId coming (by simp [selects, capture])
  | sent here =>
    refine ⟨by simp [coming], h.waiting, h.rendering, ?_⟩
    refine List.forall_mem_append.2 ⟨h.messages, List.forall_mem_singleton.2 ?_⟩
    rintro r ⟨⟩
  | @taken job idle waiting =>
    refine ⟨h.cycle, by simp, ?_, h.messages⟩
    rintro job' ⟨⟩
    exact h.waiting job waiting
  | @rendered job plot zoom here =>
    refine ⟨h.cycle, h.waiting, by simp, ?_⟩
    refine List.forall_mem_append.2 ⟨h.messages, List.forall_mem_singleton.2 ?_⟩
    intro r brings
    rw [renderMessage_job brings]
    exact h.rendering job here
  | drained here =>
    exact ⟨h.cycle, h.waiting, h.rendering,
      fun m' member => h.messages m' (List.mem_of_mem_eraseIdx member)⟩

/-- What a step brings was on the result queue. -/
theorem mem_of_output {e : PipelineStep} {r : Rendering}
    (brings : (s.step K hitItems e).2 = some r) : ∃ m ∈ s.resultQueue, m.rendering = some r := by
  generalize s.step K hitItems e = r', step_steps K hitItems s e = steps at *
  cases steps with
  | @drained i m here => exact ⟨m, List.mem_of_getElem? here, brings⟩
  | _ => cases brings

/-- A quiet pipeline shows nothing selected for another target. -/
theorem Quiet.clean (h : Quiet K s t) (holds : s.cells.Holds t) : Clean K hitItems s t := by
  intro during keeps
  induction during generalizing s with
  | nil =>
    intro r member
    cases member
  | cons e during ih =>
    intro r member
    rcases List.mem_cons.1 member with now | later
    · obtain ⟨m, queued, brings⟩ := mem_of_output now.symm
      exact h.messages m queued r brings
    · have kept : e.KeepsTarget := keeps e List.mem_cons_self
      exact ih (h.step holds kept) (holds_step holds kept)
        (fun e' later => keeps e' (List.mem_cons_of_mem _ later)) r later

/-! ## What is under way comes to be shown -/

theorem Clean.step (h : Clean K hitItems s t) {e : PipelineStep} (keeps : e.KeepsTarget) :
    Clean K hitItems (s.step K hitItems e).1 t := by
  intro during more r member
  refine h (e :: during) ?_ r (List.mem_cons_of_mem _ member)
  rintro e' (_ | ⟨_, later⟩)
  · exact keeps
  · exact more e' later

theorem Clean.messages (h : Clean K hitItems s t) {m : Message} (queued : m ∈ s.resultQueue)
    {r : Rendering} (brings : m.rendering = some r) : r.job.target = t := by
  obtain ⟨i, here⟩ := List.getElem?_of_mem queued
  refine h [.drain i] (by simp [PipelineStep.KeepsTarget, PipelineStep.assigned]) r ?_
  simp [Machine.outputs, Pipeline.step, here, brings]

/-- A plot of the job that succeeds is drained at once. -/
theorem Clean.rendering (h : Clean K hitItems s t) {job : RenderJob}
    (here : s.rendering = some job) : job.target = t := by
  let stats : TdStats := ⟨0, none, none, 0, none, none⟩
  let e : PipelineStep := .render (.ok ([], stats)) (.ok [])
  have clean : Clean K hitItems (s.step K hitItems e).1 t := h.step rfl
  have queued : renderMessage job (.ok ([], stats)) (.ok [])
      ∈ (s.step K hitItems e).1.resultQueue := by
    simp [e, Pipeline.step, here]
  exact clean.messages queued (r := ⟨job, [], stats⟩) rfl

/-- `td_renderer` ends what it is rendering, then takes the job. -/
theorem Clean.waiting (h : Clean K hitItems s t) {job : RenderJob}
    (here : s.jobQueue = some job) : job.target = t := by
  cases busy : s.rendering with
  | none =>
    have clean : Clean K hitItems (s.step K hitItems .take).1 t := h.step rfl
    exact clean.rendering (by simp [Pipeline.step, busy, here])
  | some other =>
    let e : PipelineStep := .render (.error "") (.ok [])
    have ended : Clean K hitItems (s.step K hitItems e).1 t := h.step rfl
    have clean : Clean K hitItems ((s.step K hitItems e).1.step K hitItems .take).1 t :=
      ended.step rfl
    exact clean.rendering (by simp [e, Pipeline.step, busy, here])

/-- The capture of the cycle that is about to select is handed over. -/
theorem Clean.selecting (h : Clean K hitItems s t) {o : Observed} {tdOn : Bool}
    {tdChipset : Option String} {tdNtwId : Option Int}
    (here : s.phase = .selecting o tdOn tdChipset tdNtwId)
    (capture : (Td.selectTdCapture K s.tdState (o.call tdOn tdChipset tdNtwId)).2.capture ≠ none) :
    currentTarget tdChipset tdNtwId = t := by
  obtain ⟨cap, found⟩ := Option.ne_none_iff_exists'.1 capture
  let job := s.makeJob hitItems o (o.call tdOn tdChipset tdNtwId) cap
  have clean : Clean K hitItems (s.step K hitItems (.select true)).1 t := h.step rfl
  have waiting : (s.step K hitItems (.select true)).1.jobQueue = some job := by
    simp only [Pipeline.step, here, Pipeline.select, found, submit]
    split <;> rfl
  rw [← call_target o tdOn]
  exact clean.waiting waiting

variable (K hitItems) in
/-- Three more reads bring a cycle to its selection. -/
theorem reads_selecting {o : Observed} {tdOn : Bool} {tdChipset : Option String}
    {tdNtwId : Option Int} (h : s.coming = some (o, tdOn, tdChipset, tdNtwId)) :
    (Machine.after (step K hitItems) s [.read, .read, .read]).phase
        = .selecting o tdOn tdChipset tdNtwId
      ∧ (Machine.after (step K hitItems) s [.read, .read, .read]).tdState = s.tdState := by
  refine ⟨?_, rfl⟩
  obtain ⟨cells, tdState, phase, _⟩ := s
  cases phase with
  | readChipset o' tdOn' =>
    simp only [coming] at h
    split at h
    next name read =>
      cases h
      simp only [Machine.after_cons, Machine.after_nil, step, readCell, read,
        TargetCells.targetNtwId]
      cases cells.hasNtwId <;> rfl
    next => cases h
  | readHasNtw o' tdOn' name =>
    cases h
    simp only [Machine.after_cons, Machine.after_nil, step, readCell, TargetCells.targetNtwId]
    cases cells.hasNtwId <;> rfl
  | readNtwId o' tdOn' name =>
    cases h
    rfl
  | selecting o' tdOn' name id =>
    cases h
    rfl
  | elsewhere => cases h
  | readRunning o' => cases h
  | sending o' tdStatus => cases h
  | crashed => cases h

theorem Clean.quiet (h : Clean K hitItems s t) : Quiet K s t where
  cycle o tdOn tdChipset tdNtwId here capture := by
    obtain ⟨selecting, tdState⟩ := reads_selecting K hitItems here
    have clean :
        Clean K hitItems (Machine.after (Pipeline.step K hitItems) s [.read, .read, .read]) t :=
      ((h.step (e := .read) rfl).step (e := .read) rfl).step (e := .read) rfl
    exact clean.selecting selecting (by rwa [tdState])
  waiting job := h.waiting
  rendering job := h.rendering
  messages m queued r := h.messages queued

/-! ## The cells when a request returns -/

variable (K hitItems) in
/-- A reading of the cells that `setNSyms` leaves alone, after a run. -/
theorem cells_run {β : Type} {f : TargetStep → Option β} (read : TargetCells → β)
    (write : ∀ c a, read (c.assign a) = (f a).getD (read c))
    (running : ∀ v, f (.running v) = none)
    (other : ∀ c n, read (TargetCells.setZoomNSyms K c n) = read c) (steps : List PipelineStep) :
    read (run K hitItems steps).cells
      = (last f (steps.filterMap PipelineStep.assigned)).getD (read .initial) := by
  rw [last_filterMap]
  refine foldl_eq_last (fun s : Pipeline => read s.cells) (fun s e => ?_) {} steps
  rw [step_cells]
  cases e with
  | assign a =>
    cases a with
    | running v => simpa [PipelineStep.assigned, running] using write s.cells (.running v)
    | _ => exact write s.cells _
  | setNSyms n => exact other s.cells n
  | _ => rfl

/-- The cells hold the target of the last request. -/
theorem holds_lastRequest {steps : List PipelineStep} {r : StartRequest}
    (last : LastRequest steps r) :
    (run K hitItems steps).cells.Holds r.tdTarget := by
  obtain ⟨earlier, assignments⟩ := last
  have chipset := cells_run K hitItems (f := TargetStep.chipsetBytes)
    (fun c => c.chipsetArr.value) assign_chipset (fun _ => rfl) (fun _ _ => rfl) steps
  have flag := cells_run K hitItems (f := TargetStep.flagWritten)
    (fun c => c.hasNtwId) assign_hasNtwId (fun _ => rfl) (fun _ _ => rfl) steps
  have id := cells_run K hitItems (f := TargetStep.idWritten)
    (fun c => c.ntwId) assign_ntwId (fun _ => rfl) (fun _ _ => rfl) steps
  rw [assignments, last_append] at chipset flag id
  intro name read
  cases r with
  | chipset requested given =>
    have raw : (run K hitItems steps).cells.chipsetArr.value = keptBytes requested := chipset
    have none : (run K hitItems steps).cells.hasNtwId = false := flag
    rw [TargetCells.tdChipset, raw] at read
    simp [StartRequest.tdTarget, read, TargetCells.targetNtwId, none]
  | device requested =>
    have raw : (run K hitItems steps).cells.chipsetArr.value = [] := chipset
    have raised : (run K hitItems steps).cells.hasNtwId = true := flag
    have stored : (run K hitItems steps).cells.ntwId = requested.bmod (2 ^ 64) := id
    rw [TargetCells.tdChipset, raw] at read
    cases read
    simp [currentTarget, StartRequest.tdTarget, TargetCells.targetNtwId, raised, stored]

/-! ## What an update is -/

theorem made_step (h : ∀ m ∈ s.resultQueue, m.Made) (e : PipelineStep) :
    ∀ m ∈ (s.step K hitItems e).1.resultQueue, m.Made := by
  generalize s.step K hitItems e = r, step_steps K hitItems s e = steps
  cases steps with
  | @sent o tdStatus here =>
    exact List.forall_mem_append.2 ⟨h, List.forall_mem_singleton.2 (.cycle o tdStatus)⟩
  | @rendered job plot zoom here =>
    exact List.forall_mem_append.2 ⟨h, List.forall_mem_singleton.2 (.rendered job plot zoom)⟩
  | drained here => exact fun m member => h m (List.mem_of_mem_eraseIdx member)
  | _ => exact h

theorem updates_step (h : ∀ m ∈ s.resultQueue, m.Made) (e : PipelineStep) :
    Updates s.app (s.step K hitItems e).1.app (s.step K hitItems e).2 := by
  generalize s.step K hitItems e = r, step_steps K hitItems s e = steps
  cases steps with
  | @drained i m here =>
    cases h m (List.mem_of_getElem? here) with
    | cycle o tdStatus => exact ⟨rfl, rfl, rfl⟩
    | rendered job plot zoom => cases plot <;> exact ⟨rfl, rfl, rfl⟩
  | _ => exact ⟨rfl, rfl, rfl⟩

/-- A message is a cycle's or the renderer's. -/
theorem made_run (steps : List PipelineStep) :
    ∀ m ∈ (run K hitItems steps).resultQueue, m.Made := by
  induction steps using List.reverseRecOn with
  | nil =>
    intro m member
    cases member
  | append_singleton steps e ih =>
    rw [run, Machine.after_snoc]
    exact made_step ih e

/-- **What a step shows.** -/
theorem updates_run (steps : List PipelineStep) (e : PipelineStep) :
    Updates (run K hitItems steps).app ((run K hitItems steps).step K hitItems e).1.app
      ((run K hitItems steps).step K hitItems e).2 :=
  updates_step (made_run steps) e

/-- **When captures do not leak across a change of target.** In every run of the four parties, when
a start request returns and at every moment until the next: what is shown from there on, until the
target is changed, is all selected for the request's target exactly when nothing selected for
another is under way. -/
theorem captures_for_target_iff (K : DecoderConstants) (hitItems : Td.Hit → Py.Dict)
    (steps : List PipelineStep) (r : StartRequest) (last : LastRequest steps r) :
    Clean K hitItems (run K hitItems steps) r.tdTarget
      ↔ Quiet K (run K hitItems steps) r.tdTarget := by
  constructor
  · intro clean
    exact clean.quiet
  · intro quiet
    exact quiet.clean (holds_lastRequest last)

/-- A request for device 7 at start-up. -/
theorem captures_for_target_iff_start :
    Clean Td.exampleConstants exampleItems
      (run Td.exampleConstants exampleItems ((StartRequest.device 7).steps.map .assign))
      (some (.ntwId 7)) :=
  (captures_for_target_iff _ _ _ (.device 7) ⟨[], rfl⟩).2
    ⟨by rintro o tdOn tdChipset tdNtwId ⟨⟩, by rintro job ⟨⟩, by rintro job ⟨⟩,
      by rintro m ⟨⟩⟩

/-- The target becomes device 7 while a cycle that has read chipset A comes to its capture. -/
def changedBehind : List PipelineStep :=
  [.assign (.chipset (some "A")), .assign (.hasNtwId false), .assign (.running true),
    .observe failedCycle, .read, .read, .read, .assign (.ntwId 7), .assign (.hasNtwId true),
    .assign (.chipset none), .assign (.running true)]

theorem changedBehind_captures :
    (Td.selectTdCapture Td.exampleConstants .fresh
      (failedCycle.call true (some "A") none)).2.capture.isSome = true := by
  rw [failedCycle_call]
  decide +kernel

/-- The capture of chipset A is shown after the request for device 7 has returned. -/
theorem capture_leaks :
    LastRequest changedBehind (.device 7) ∧ ¬Clean Td.exampleConstants exampleItems
      (run Td.exampleConstants exampleItems changedBehind) (StartRequest.device 7).tdTarget := by
  refine ⟨⟨[.chipset (some "A"), .hasNtwId false], rfl⟩, ?_⟩
  intro clean
  have coming : (run Td.exampleConstants exampleItems changedBehind).coming
      = some (failedCycle, true, some "A", none) := by rfl
  have captures := Option.isSome_iff_ne_none.1 changedBehind_captures
  have leaked := clean.quiet.cycle _ _ _ _ coming captures
  cases leaked

end Pipeline

end StreamWeb

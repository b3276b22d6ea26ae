import StreamWeb.App.Pipeline
import StreamWeb.Td.Position

/-!
# The capture that is shown

The image, the decode info and the IQ segment of a capture arrive in one
message or not at all, so that in whatever order messages are drained the
three always come from one render job (`captures_consistent`). The start
sample is counted from the start of the segment by the processor, and survives
`td_renderer`'s filter and the statistics it merges in.
-/

namespace StreamWeb

variable (K : DecoderConstants) (hitItems : Td.Hit → Py.Dict)

namespace Td

/-- The hit of a selection lies inside the window. -/
theorem relStart_nonneg {st : State} {c : Call} {h : Hit}
    (inside : ∀ a ∈ c.attempts, 0 ≤ startSample a) (buffer : 0 < c.bufLen)
    (hit : (findHit K st c).2 = some h) : ∃ rel, h.relStart = some rel ∧ 0 ≤ rel := by
  have projected : ∀ absStart, 0 ≤ c.relative absStart :=
    fun absStart => Int.emod_nonneg _ (by omega)
  have selects := selects_of_hit K hit
  generalize findHit K st c = r at *
  cases selects with
  | nothing => cases hit
  | suspected => cases hit
  | retried =>
    cases hit
    exact ⟨_, rfl, projected _⟩
  | promoted =>
    cases hit
    exact ⟨_, rfl, projected _⟩
  | matched t a a' confirm target mem start =>
    cases hit
    exact ⟨_, rfl, start ▸ inside a mem⟩

/-- The window of a capture: it begins at most the pre-roll in front of the hit and ends inside the
chunk. -/
theorem capture_window {st : State} {c : Call} {cap : Capture}
    (inside : ∀ a ∈ c.attempts, 0 ≤ startSample a) (buffer : 0 < c.bufLen)
    (capture : (selectTdCapture K st c).2.capture = some cap) :
    0 ≤ cap.tdCenter ∧ cap.tdStart = max 0 (cap.tdCenter - preRoll) ∧
      cap.tdEnd = cap.tdStart + tdSamples ∧ cap.tdEnd ≤ c.chunkLen := by
  simp only [selectTdCapture] at capture
  split at capture
  · cases capture
  · split at capture
    next st' h selected =>
      have hit : (findHit K (resetFor st c) c).2 = some h := by rw [selected]
      obtain ⟨rel, position, nonneg⟩ := relStart_nonneg K inside buffer hit
      split at capture
      · cases capture
      next now =>
        cases capture
        refine ⟨?_, rfl, rfl, not_lt.1 now⟩
        simpa [renderWindow, position] using nonneg
    next => cases capture

end Td

/-! ## A job -/

/-- The start sample of a job lies in its segment. -/
def RenderJob.Good (job : RenderJob) : Prop :=
  ∃ n : ℤ, job.decodeInfo.lookup "start_sample" = some (.int n) ∧ 0 ≤ n ∧ n < job.tdSeg.length

theorem lookup_decodeInfo (hit : Py.Dict) (cap : Td.Capture) :
    (decodeInfo hit cap).lookup "start_sample" = some (.int (cap.tdCenter - cap.tdStart)) := by
  have time : "start_sample" ≠ "time_s" := by decide
  have energy : "start_sample" ≠ "energy_dB" := by decide
  unfold decodeInfo
  dsimp only
  split
  · rw [Dict.lookup_set_of_ne time, Dict.lookup_set_self]
  · rw [Dict.lookup_set_of_ne energy, Dict.lookup_set_of_ne time, Dict.lookup_set_self]

/-- The job of every capture is good when the cycle's attempts start inside the window. -/
theorem makeJob_good {s : Pipeline} {o : Observed} {tdOn : Bool} {tdChipset : Option String}
    {tdNtwId : Option Int} {cap : Td.Capture} {st : Td.State}
    (inside : ∀ a ∈ o.attempts, 0 ≤ Td.startSample a)
    (capture : (Td.selectTdCapture K st (o.call tdOn tdChipset tdNtwId)).2.capture = some cap) :
    (s.makeJob hitItems o (o.call tdOn tdChipset tdNtwId) cap).Good := by
  have buffer : 0 < (o.call tdOn tdChipset tdNtwId).bufLen := by
    show 0 < Config.iqBufferSize
    rw [Config.iqBufferSize_eq]
    omega
  obtain ⟨center, start, stop, fits⟩ := Td.capture_window K inside buffer capture
  have fits : cap.tdEnd ≤ o.decodeChunk.length := fits
  rw [Td.tdSamples_eq] at stop
  rw [Td.preRoll_eq] at start
  have low : 0 ≤ cap.tdStart := by omega
  have length := Np.length_slice o.decodeChunk low fits (by omega)
  refine ⟨cap.tdCenter - cap.tdStart, lookup_decodeInfo _ cap, by omega, ?_⟩
  show cap.tdCenter - cap.tdStart < (Np.slice o.decodeChunk cap.tdStart cap.tdEnd).length
  omega

/-- What the renderer hands on has the start sample of the job. -/
theorem lookup_infoOut {r : Rendering} {n : ℤ}
    (start : r.job.decodeInfo.lookup "start_sample" = some (.int n)) :
    r.infoOut.lookup "start_sample" = some (.int n) := by
  have absent : "start_sample" ∉ r.tdStats.items.map Prod.fst := by
    simp [TdStats.items]
  rw [Rendering.infoOut, Dict.lookup_update_of_not_mem absent]
  exact Dict.lookup_filter start rfl

/-! ## A message -/

/-- A message brings all three fields, from one good job, or none. -/
structure Message.Good (m : Message) : Prop where
  none : m.rendering = none →
    m.result.tdImg = none ∧ m.result.tdDecodeInfo = none ∧ m.result.tdIqSegment = none
  some : ∀ r, m.rendering = some r → m.result.tdImg = some r.tdImg ∧
    m.result.tdDecodeInfo = some r.infoOut ∧ m.result.tdIqSegment = some r.job.tdSeg ∧ r.job.Good

theorem message_good (o : Observed) (tdStatus : Option String) : (o.message tdStatus).Good where
  none _ := ⟨rfl, rfl, rfl⟩
  some _ none := by cases none

theorem renderMessage_good {job : RenderJob} (good : job.Good)
    (plot : Except String (Bytes × TdStats)) (zoom : Except String Bytes) :
    (renderMessage job plot zoom).Good := by
  cases plot with
  | error e =>
    constructor
    · exact fun _ => ⟨rfl, rfl, rfl⟩
    · intro r none
      cases none
  | ok image =>
    constructor
    · intro none
      cases none
    · rintro r ⟨⟩
      exact ⟨rfl, rfl, rfl, good⟩

/-! ## The pipeline -/

/-- What is shown is still initial, or all three fields come from one job, whose start sample lies
in the segment. -/
inductive Shows (s : Pipeline) : Prop
  | initial (shown : s.shown = {}) (img : s.app.tdLatestImg = []) (info : s.app.tdDecodeInfo = none)
      (segment : s.app.tdIqSegment = none)
  | rendered (r : Rendering) (n : ℤ) (shown : s.shown = ⟨some r, some r, some r⟩)
      (img : s.app.tdLatestImg = r.tdImg) (info : s.app.tdDecodeInfo = some r.infoOut)
      (segment : s.app.tdIqSegment = some r.job.tdSeg)
      (start : r.infoOut.lookup "start_sample" = some (.int n)) (low : 0 ≤ n)
      (high : n < r.job.tdSeg.length)

/-- The attempts of a cycle. -/
def TdPhase.attempts : TdPhase → List Attempt
  | readRunning o | readChipset o _ | readHasNtw o _ _ | readNtwId o _ _ | selecting o _ _ _ =>
    o.attempts
  | elsewhere | sending _ _ | crashed => []

/-- Everything on its way is good. -/
structure Sound (s : Pipeline) : Prop where
  phase : ∀ a ∈ s.phase.attempts, 0 ≤ Td.startSample a
  waiting : ∀ job, s.jobQueue = some job → job.Good
  rendering : ∀ job, s.rendering = some job → job.Good
  messages : ∀ m ∈ s.resultQueue, m.Good
  shows : Shows s

/-- A drained message keeps the three fields together. -/
theorem Shows.drain {s s' : Pipeline} (h : Shows s) {m : Message} (good : m.Good)
    (app : s'.app = s.app.drainResult m.result) (shown : s'.shown = s.shown.merge m) : Shows s' := by
  cases brings : m.rendering with
  | none =>
    obtain ⟨img, info, segment⟩ := good.none brings
    have same : s'.shown = s.shown := by simp [shown, Shown.merge, img, info, segment]
    have kept : s'.app.tdLatestImg = s.app.tdLatestImg ∧ s'.app.tdDecodeInfo = s.app.tdDecodeInfo ∧
        s'.app.tdIqSegment = s.app.tdIqSegment := by
      simp [app, SharedState.drainResult, img, info, segment]
    obtain ⟨keptImg, keptInfo, keptSegment⟩ := kept
    cases h with
    | initial shown img info segment =>
      exact .initial (same.trans shown) (keptImg.trans img) (keptInfo.trans info)
        (keptSegment.trans segment)
    | rendered r n shown img info segment start low high =>
      exact .rendered r n (same.trans shown) (keptImg.trans img) (keptInfo.trans info)
        (keptSegment.trans segment) start low high
  | some r =>
    obtain ⟨img, info, segment, n, start, low, high⟩ := good.some r brings
    refine .rendered r n ?_ ?_ ?_ ?_ (lookup_infoOut start) low high
    · simp [shown, Shown.merge, img, info, segment, brings]
    · simp [app, SharedState.drainResult, img]
    · simp [app, SharedState.drainResult, info]
    · simp [app, SharedState.drainResult, segment]

theorem Shows.congr {s s' : Pipeline} (h : Shows s) (app : s'.app = s.app)
    (shown : s'.shown = s.shown) : Shows s' := by
  cases h with
  | initial shown' img info segment =>
    exact .initial (shown.trans shown') (by rw [app, img]) (by rw [app, info]) (by rw [app, segment])
  | rendered r n shown' img info segment start low high =>
    exact .rendered r n (shown.trans shown') (by rw [app, img]) (by rw [app, info])
      (by rw [app, segment]) start low high

theorem readCell_attempts (cells : TargetCells) {phase : TdPhase} {a : Attempt}
    (member : a ∈ (Pipeline.readCell cells phase).attempts) : a ∈ phase.attempts := by
  unfold Pipeline.readCell at member
  split at member
  · exact member
  · split at member
    · exact member
    · cases member
  · split at member <;> exact member
  · exact member
  · exact member

/-- The job queue holds what it held or the new job. -/
theorem submit_cases {waiting : Option RenderJob} {seen : Bool} {job kept : RenderJob}
    (h : Pipeline.submit waiting seen job = some kept) : waiting = some kept ∨ kept = job := by
  unfold Pipeline.submit at h
  split at h
  · split at h
    · exact .inr (Option.some.inj h).symm
    · exact .inl h
  · exact .inr (Option.some.inj h).symm

/-- **Every step** of the four parties. -/
theorem Sound.step {s : Pipeline} (h : Sound s) {e : PipelineStep}
    (inside : ∀ o, e = .observe o → ∀ a ∈ o.attempts, 0 ≤ Td.startSample a) :
    Sound (s.step K hitItems e).1 := by
  have keep {s' : Pipeline} (app : s'.app = s.app) (shown : s'.shown = s.shown) : Shows s' :=
    h.shows.congr app shown
  generalize s.step K hitItems e = r, Pipeline.step_steps K hitItems s e = steps at *
  cases steps with
  | nothing => exact h
  | assigned a => exact ⟨h.phase, h.waiting, h.rendering, h.messages, keep rfl rfl⟩
  | zoomed n => exact ⟨h.phase, h.waiting, h.rendering, h.messages, keep rfl rfl⟩
  | observed o here => exact ⟨inside o rfl, h.waiting, h.rendering, h.messages, keep rfl rfl⟩
  | read =>
    exact ⟨fun a member => h.phase a (readCell_attempts s.cells member), h.waiting, h.rendering,
      h.messages, keep rfl rfl⟩
  | selected seen here selects missed =>
    exact ⟨by simp [TdPhase.attempts], h.waiting, h.rendering, h.messages, keep rfl rfl⟩
  | @captured o tdOn tdChipset tdNtwId tdState result cap job seen here selects capture made =>
    refine ⟨by simp [TdPhase.attempts], ?_, h.rendering, h.messages, keep rfl rfl⟩
    intro job' waiting
    rcases submit_cases waiting with old | rfl
    · exact h.waiting job' old
    · have attempts := h.phase
      rw [here] at attempts
      rw [made]
      exact makeJob_good K hitItems attempts (by rw [selects, capture])
  | sent here =>
    refine ⟨by simp [TdPhase.attempts], h.waiting, h.rendering, ?_, keep rfl rfl⟩
    exact List.forall_mem_append.2 ⟨h.messages, List.forall_mem_singleton.2 (message_good _ _)⟩
  | @taken job idle waiting =>
    refine ⟨h.phase, by simp, ?_, h.messages, keep rfl rfl⟩
    rintro job' ⟨⟩
    exact h.waiting job waiting
  | @rendered job plot zoom here =>
    have new := renderMessage_good (h.rendering job here) plot zoom
    refine ⟨h.phase, h.waiting, by simp, ?_, keep rfl rfl⟩
    exact List.forall_mem_append.2 ⟨h.messages, List.forall_mem_singleton.2 new⟩
  | @drained i m here =>
    exact ⟨h.phase, h.waiting, h.rendering,
      fun m' member => h.messages m' (List.mem_of_mem_eraseIdx member),
      h.shows.drain (h.messages m (List.mem_of_getElem? here)) rfl rfl⟩

open Pipeline in
/-- **The capture downloads stay consistent.** Behind every run of the four parties, where either
plot of a job may raise and messages are drained in any order: the image, the decode info and the IQ
segment are still initial or come from one render job, whose start sample then lies in the segment.
The decoder reports no attempt that starts before its window. -/
theorem captures_consistent (steps : List PipelineStep)
    (inside : ∀ o, .observe o ∈ steps → ∀ a ∈ o.attempts, 0 ≤ Td.startSample a) :
    Shows (run K hitItems steps) := by
  have sound : Sound (run K hitItems steps) := by
    induction steps using List.reverseRecOn with
    | nil =>
      exact ⟨by simp [run, TdPhase.attempts], by simp [run], by simp [run], by simp [run],
        .initial rfl rfl rfl rfl⟩
    | append_singleton steps e ih =>
      rw [run, Machine.after_snoc]
      apply (ih fun o member => inside o (List.mem_append_left _ member)).step K hitItems
      rintro o rfl
      exact inside o (List.mem_append_right _ List.mem_cons_self)
  exact sound.shows

/-- The items of a hit of the small example. -/
def exampleItems (h : Td.Hit) : Py.Dict :=
  [("decoded", .bool h.attempt.decoded), ("reason", .str (h.attempt.reason.getD "unknown")),
    ("_abs_start", .int h.absStart)]

/-- A cycle with one failed attempt of chipset A and a full window. -/
def failedCycle : Observed where
  attempts := [Td.failedAt 100000 "header_fail"]
  packets := []
  decodeStart := 0
  decodeChunk := List.replicate 1171875 0
  now := 100

/-- The window is only counted. -/
theorem failedCycle_call : failedCycle.call true (some "A") none =
    { tdOn := true, tdChipset := some "A", tdNtwId := none, packets := [], decodeStart := 0
      attempts := [Td.failedAt 100000 "header_fail"], bufLen := Config.iqBufferSize
      chunkLen := 1171875, now := 100 } := by
  simp only [Observed.call, failedCycle, List.length_replicate]

/-- A capture of chipset A, from the request to the drained rendering. -/
def oneCapture : List PipelineStep :=
  [.assign (.chipset (some "A")), .assign (.hasNtwId false), .assign (.running true),
    .observe failedCycle, .read, .read, .read, .select true, .send, .take,
    .render (.ok ([137], ⟨0, none, none, 0, none, none⟩)) (.ok []), .drain 1]

theorem captures_consistent_one :
    Shows (Pipeline.run Td.exampleConstants exampleItems oneCapture) := by
  apply captures_consistent
  intro o member a attempt
  have cycle : o = failedCycle := by
    simpa [oneCapture] using member
  subst cycle
  rw [List.mem_singleton.1 attempt]
  decide

end StreamWeb

import StreamWeb.App.SharedState
import StreamWeb.App.TargetRequests
import StreamWeb.Lib.Dict
import StreamWeb.Lib.Machine
import StreamWeb.Np
import StreamWeb.Td.Capture

/-!
# From a target to a capture

Four parties: requests assign the target's cells, the processor reads them one
by one in every cycle, selects and hands a render job over, `td_renderer`
renders, and the drain thread merges the results of both into the shared
state. Jobs wait in a queue with room for one, results in one that is drained
in any order. A job carries its number and the target it was selected for, and
a rendering its job, so that it can be said where what is shown comes from.
-/

namespace StreamWeb

/-- The statistics `render_td_plot` returns. -/
structure TdStats where
  symCount : ℕ
  symMeanMs : Option ℚ
  symStdMs : Option ℚ
  gapCount : ℕ
  gapMeanMs : Option ℚ
  gapStdMs : Option ℚ

namespace Py.Val

/-- A float or `None`. -/
def ofFloat : Option ℚ → Py.Val
  | Option.some x => .float x
  | Option.none => .none

/-- `bool(v)` -/
def truthy : Py.Val → Bool
  | .none => false
  | .bool b => b
  | .int n => n != 0
  | .float x => x != 0
  | .str s => s != ""
  | .list vs => !vs.isEmpty
  | .bytes bs => !bs.isEmpty

/-- `isinstance(v, (str, int, float, bool, list, type(None)))` -/
def isPlain : Py.Val → Bool
  | .bytes _ => false
  | _ => true

end Py.Val

def TdStats.items (s : TdStats) : Py.Dict :=
  [("sym_count", .int s.symCount), ("sym_mean_ms", .ofFloat s.symMeanMs),
    ("sym_std_ms", .ofFloat s.symStdMs), ("gap_count", .int s.gapCount),
    ("gap_mean_ms", .ofFloat s.gapMeanMs), ("gap_std_ms", .ofFloat s.gapStdMs)]

/-- A request on `td_job_queue`. -/
structure RenderJob where
  /-- How many jobs were made before. -/
  number : ℕ
  /-- The target the capture was selected for. -/
  target : Option Td.Target
  tdSeg : List Sample
  decodeInfo : Py.Dict
  nSyms : Int

/-- `decode_info` of a capture, from the items of its hit. -/
def decodeInfo (hit : Py.Dict) (cap : Td.Capture) : Py.Dict :=
  let info := hit.filter fun e => e.1.toList.head? != some '_'
  let info := Dict.setDefault info "decoded" (.bool false)
  let info := Dict.setDefault info "reason" (.str "unknown")
  let info := Dict.set info "start_sample" (.int (cap.tdCenter - cap.tdStart))
  let info := Dict.set info "time_s" (.float (cap.tdCenter / Config.sampleRate))
  if (info.lookup "energy_dB").any Py.Val.truthy then info
  else Dict.set info "energy_dB" ((hit.lookup "total_energy_dB").getD .none)

/-- What `render_td_plot` returned for a job. -/
structure Rendering where
  job : RenderJob
  tdImg : Bytes
  tdStats : TdStats

/-- `info_out` -/
def Rendering.infoOut (r : Rendering) : Py.Dict :=
  Dict.update (r.job.decodeInfo.filter fun e => e.2.isPlain) r.tdStats.items

/-- A message on `result_queue`, and the rendering it brings. -/
structure Message where
  result : WorkerResult
  rendering : Option Rendering

/-- The body of the loop of `td_renderer_main`; both plots may raise. -/
def renderMessage (job : RenderJob) (plot : Except String (Bytes × TdStats))
    (zoom : Except String Bytes) : Message :=
  let tdZoomImg := match zoom with
    | .ok img => if img.isEmpty then none else some img
    | .error _ => none
  match plot with
  | .ok (tdImg, tdStats) =>
    let r : Rendering := ⟨job, tdImg, tdStats⟩
    ⟨{ tdImg := some tdImg, tdDecodeInfo := some r.infoOut, tdIqSegment := some job.tdSeg, tdZoomImg },
      some r⟩
  | .error e => ⟨{ tdStatus := some ("Render error: " ++ e), tdZoomImg }, none⟩

/-- What a cycle has found when it comes to the capture, with the finished part of its result. -/
structure Observed where
  attempts : List Attempt
  packets : List Packet
  decodeStart : Int
  decodeChunk : List Sample
  now : ℚ
  img : Option Bytes := none
  detections : List Packet := []
  decodeEntries : List DecodeEntry := []
  stats : DecodeStats := {}
  chipsetStats : List (String × Py.Dict) := []

/-- The cycle's result; its capture keys other than the status are always `None`. -/
def Observed.message (o : Observed) (tdStatus : Option String) : Message where
  result :=
    { img := o.img
      detections := some o.detections
      decodeEntries := some o.decodeEntries
      stats := some o.stats
      chipsetStats := some o.chipsetStats
      tdStatus }
  rendering := none

/-- The call of `select_td_capture`. -/
def Observed.call (o : Observed) (tdOn : Bool) (tdChipset : Option String) (tdNtwId : Option Int) :
    Td.Call where
  tdOn
  tdChipset
  tdNtwId
  attempts := o.attempts
  packets := o.packets
  decodeStart := o.decodeStart
  bufLen := Config.iqBufferSize
  chunkLen := o.decodeChunk.length
  now := o.now

/-- The processor's place in the part of a cycle that deals with the capture. -/
inductive TdPhase where
  /-- Elsewhere in the cycle. -/
  | elsewhere
  | readRunning (o : Observed)
  | readChipset (o : Observed) (tdOn : Bool)
  | readHasNtw (o : Observed) (tdOn : Bool) (tdChipset : Option String)
  | readNtwId (o : Observed) (tdOn : Bool) (tdChipset : Option String)
  | selecting (o : Observed) (tdOn : Bool) (tdChipset : Option String) (tdNtwId : Option Int)
  | sending (o : Observed) (tdStatus : Option String)
  /-- The stored name did not decode. -/
  | crashed

/-- The renderings the three fields of the shared state come from. -/
structure Shown where
  latestImg : Option Rendering := none
  decodeInfo : Option Rendering := none
  iqSegment : Option Rendering := none

/-- Where the three fields come from after a message. -/
def Shown.merge (shown : Shown) (m : Message) : Shown where
  latestImg := if m.result.tdImg.isSome then m.rendering else shown.latestImg
  decodeInfo := if m.result.tdDecodeInfo.isSome then m.rendering else shown.decodeInfo
  iqSegment := if m.result.tdIqSegment.isSome then m.rendering else shown.iqSegment

structure Pipeline where
  cells : TargetCells := .initial
  tdState : Td.State := .fresh
  phase : TdPhase := .elsewhere
  jobs : ℕ := 0
  jobQueue : Option RenderJob := none
  /-- The job `td_renderer` is rendering. -/
  rendering : Option RenderJob := none
  resultQueue : List Message := []
  app : SharedState := {}
  shown : Shown := {}

inductive PipelineStep where
  /-- An assignment by a request. -/
  | assign (a : TargetStep)
  | setNSyms (n : Int)
  /-- A cycle comes to the capture. -/
  | observe (o : Observed)
  /-- The processor's next read of a cell. -/
  | read
  /-- The selection, and the hand-over of a capture; `seen` tells whether a waiting job is visible
  to `get_nowait`. -/
  | select (seen : Bool)
  | send
  | take
  | render (plot : Except String (Bytes × TdStats)) (zoom : Except String Bytes)
  /-- The drain thread gets the `i`-th message. -/
  | drain (i : ℕ)

namespace Pipeline

variable (K : DecoderConstants) (hitItems : Td.Hit → Py.Dict)

/-- The processor's next read. -/
def readCell (cells : TargetCells) : TdPhase → TdPhase
  | .readRunning o => .readChipset o cells.running
  | .readChipset o tdOn =>
    match cells.tdChipset with
    | .ok tdChipset => .readHasNtw o tdOn tdChipset
    | .error _ => .crashed
  | .readHasNtw o tdOn tdChipset =>
    if cells.hasNtwId then .readNtwId o tdOn tdChipset else .selecting o tdOn tdChipset none
  | .readNtwId o tdOn tdChipset => .selecting o tdOn tdChipset (some cells.ntwId)
  | phase => phase

/-- `_submit_td_render`: a waiting job is replaced, unless `get_nowait` misses it and the queue is
still full. -/
def submit (waiting : Option RenderJob) (seen : Bool) (job : RenderJob) : Option RenderJob :=
  match waiting with
  | some old => if seen then some job else some old
  | none => some job

/-- The job made of a capture. -/
def makeJob (s : Pipeline) (o : Observed) (call : Td.Call) (cap : Td.Capture) : RenderJob where
  number := s.jobs
  target := call.target
  tdSeg := Np.slice o.decodeChunk cap.tdStart cap.tdEnd
  decodeInfo := StreamWeb.decodeInfo (hitItems cap.tdHit) cap
  nSyms := s.cells.zoomNSyms

/-- The selection of a cycle. -/
def select (s : Pipeline) (o : Observed) (call : Td.Call) (seen : Bool) : Pipeline :=
  let (tdState, result) := Td.selectTdCapture K s.tdState call
  match result.capture with
  | some cap =>
    { s with
      tdState, phase := .sending o result.status, jobs := s.jobs + 1
      jobQueue := submit s.jobQueue seen (s.makeJob hitItems o call cap) }
  | none => { s with tdState, phase := .sending o result.status }

/-- One step, and the rendering a drain brings. -/
def step (s : Pipeline) : PipelineStep → Pipeline × Option Rendering
  | .assign a => ({ s with cells := s.cells.assign a }, none)
  | .setNSyms n => ({ s with cells := s.cells.setZoomNSyms K n }, none)
  | .observe o =>
    match s.phase with
    | .elsewhere => ({ s with phase := .readRunning o }, none)
    | _ => (s, none)
  | .read => ({ s with phase := readCell s.cells s.phase }, none)
  | .select seen =>
    match s.phase with
    | .selecting o tdOn tdChipset tdNtwId =>
      (s.select K hitItems o (o.call tdOn tdChipset tdNtwId) seen, none)
    | _ => (s, none)
  | .send =>
    match s.phase with
    | .sending o tdStatus =>
      ({ s with phase := .elsewhere, resultQueue := s.resultQueue ++ [o.message tdStatus] }, none)
    | _ => (s, none)
  | .take =>
    match s.rendering, s.jobQueue with
    | none, some job => ({ s with rendering := some job, jobQueue := none }, none)
    | _, _ => (s, none)
  | .render plot zoom =>
    match s.rendering with
    | some job =>
      ({ s with
        rendering := none, resultQueue := s.resultQueue ++ [renderMessage job plot zoom] }, none)
    | none => (s, none)
  | .drain i =>
    match s.resultQueue[i]? with
    | some m =>
      ({ s with
        resultQueue := s.resultQueue.eraseIdx i
        app := s.app.drainResult m.result
        shown := s.shown.merge m }, m.rendering)
    | none => (s, none)

/-- What a step makes of the pipeline: nothing where its party is elsewhere. -/
inductive Steps (s : Pipeline) : PipelineStep → Pipeline × Option Rendering → Prop
  | nothing (e : PipelineStep) : Steps s e (s, none)
  | assigned (a : TargetStep) : Steps s (.assign a) ({ s with cells := s.cells.assign a }, none)
  | zoomed (n : Int) : Steps s (.setNSyms n) ({ s with cells := s.cells.setZoomNSyms K n }, none)
  | observed (o : Observed) (here : s.phase = .elsewhere) :
    Steps s (.observe o) ({ s with phase := .readRunning o }, none)
  | read : Steps s .read ({ s with phase := readCell s.cells s.phase }, none)
  | selected {o : Observed} {tdOn : Bool} {tdChipset : Option String} {tdNtwId : Option Int}
    {tdState : Td.State} {result : Td.Result} (seen : Bool)
    (here : s.phase = .selecting o tdOn tdChipset tdNtwId)
    (selects : Td.selectTdCapture K s.tdState (o.call tdOn tdChipset tdNtwId) = (tdState, result))
    (missed : result.capture = none) :
    Steps s (.select seen) ({ s with tdState, phase := .sending o result.status }, none)
  | captured {o : Observed} {tdOn : Bool} {tdChipset : Option String} {tdNtwId : Option Int}
    {tdState : Td.State} {result : Td.Result} {cap : Td.Capture} {job : RenderJob} (seen : Bool)
    (here : s.phase = .selecting o tdOn tdChipset tdNtwId)
    (selects : Td.selectTdCapture K s.tdState (o.call tdOn tdChipset tdNtwId) = (tdState, result))
    (capture : result.capture = some cap)
    (made : job = s.makeJob hitItems o (o.call tdOn tdChipset tdNtwId) cap) :
    Steps s (.select seen)
      ({ s with
        tdState, phase := .sending o result.status, jobs := s.jobs + 1
        jobQueue := submit s.jobQueue seen job }, none)
  | sent {o : Observed} {tdStatus : Option String} (here : s.phase = .sending o tdStatus) :
    Steps s .send
      ({ s with phase := .elsewhere, resultQueue := s.resultQueue ++ [o.message tdStatus] }, none)
  | taken {job : RenderJob} (idle : s.rendering = none) (waiting : s.jobQueue = some job) :
    Steps s .take ({ s with rendering := some job, jobQueue := none }, none)
  | rendered {job : RenderJob} (plot : Except String (Bytes × TdStats)) (zoom : Except String Bytes)
    (here : s.rendering = some job) :
    Steps s (.render plot zoom)
      ({ s with
        rendering := none, resultQueue := s.resultQueue ++ [renderMessage job plot zoom] }, none)
  | drained {i : ℕ} {m : Message} (here : s.resultQueue[i]? = some m) :
    Steps s (.drain i)
      ({ s with
        resultQueue := s.resultQueue.eraseIdx i
        app := s.app.drainResult m.result
        shown := s.shown.merge m }, m.rendering)

theorem step_steps (s : Pipeline) (e : PipelineStep) :
    Steps K hitItems s e (s.step K hitItems e) := by
  cases e with
  | assign a => exact .assigned a
  | setNSyms n => exact .zoomed n
  | observe o =>
    simp only [step]
    split
    next here => exact .observed o here
    next => exact .nothing _
  | read => exact .read
  | select seen =>
    simp only [step]
    split
    next o tdOn tdChipset tdNtwId here =>
      unfold select
      split
      next tdState result selects =>
        split
        next cap capture => exact .captured seen here selects capture rfl
        next missed => exact .selected seen here selects missed
    next => exact .nothing _
  | send =>
    simp only [step]
    split
    next o tdStatus here => exact .sent here
    next => exact .nothing _
  | take =>
    simp only [step]
    split
    next job idle waiting => exact .taken idle waiting
    next => exact .nothing _
  | render plot zoom =>
    simp only [step]
    split
    next job here => exact .rendered plot zoom here
    next => exact .nothing _
  | drain i =>
    simp only [step]
    split
    next m here => exact .drained here
    next => exact .nothing _

/-- The pipeline after a run. -/
def run (steps : List PipelineStep) : Pipeline := Machine.after (step K hitItems) {} steps

end Pipeline

end StreamWeb

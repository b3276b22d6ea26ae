import StreamWeb.App.CaptureExact
import StreamWeb.Lib.Machine
import StreamWeb.Lib.TryLock
import StreamWeb.Py.IntText
import StreamWeb.Spectrum.FccCheck

/-!
# Requests that capture

`/api/iq_capture`, `/api/record_analyze` and `/api/fcc_check` run in threads of
their own and share one lock, which a request tries for and never waits for. A
request goes through the phases of its handler, one step at a time: it parses
its duration, tries the lock, captures, gives the lock back on every way out of
the `try`, and makes its reply of what it captured.

`capture_lock` is mutual exclusion with exact refusals, `capture_answers` that
no request can hold another one up, and `capture_replies` what the replies may
be.
-/

namespace StreamWeb

open Config Capture Spectrum

/-! ## The duration -/

def captureDefaultSeconds : ℤ := 10
def captureMaxSeconds : ℤ := 30
def fccCheckDefaultSeconds : ℤ := Py.int (spectrumAvgChunks * specChunkS)

/-- `jsonify(error=…), status` -/
structure ErrorReply where
  error : String
  status : ℕ
  deriving DecidableEq

def notAnInteger : ErrorReply := ⟨"'seconds' must be an integer", 400⟩
def tooFew : ErrorReply := ⟨"'seconds' must be >= 1", 400⟩
def tooMany (maximum : ℤ) : ErrorReply := ⟨s!"'seconds' must be <= {maximum}", 400⟩

/-- `_parse_seconds`; `raw` is the query parameter. -/
def parseSeconds (default : Option ℤ) (maximum : ℤ) (raw : Option String) : Except ErrorReply ℤ :=
  match raw with
  | none =>
    match default with
    | some seconds => .ok seconds
    | none => .error ⟨"'seconds' query parameter is required", 400⟩
  | some text =>
    match Py.intOfStr text with
    | none => .error notAnInteger
    | some seconds =>
      if seconds < 1 then .error tooFew
      else if maximum < seconds then .error (tooMany maximum)
      else .ok seconds

inductive CaptureEndpoint where
  | iqCapture
  | recordAnalyze
  | fccCheck
  deriving DecidableEq

/-- The call of `_parse_seconds` of each handler. -/
def CaptureEndpoint.parse : CaptureEndpoint → Option String → Except ErrorReply ℤ
  | .iqCapture => parseSeconds (some captureDefaultSeconds) captureMaxSeconds
  | .recordAnalyze => parseSeconds (some captureDefaultSeconds) captureMaxSeconds
  | .fccCheck => parseSeconds (some fccCheckDefaultSeconds) captureMaxSeconds

/-! ## The replies -/

/-- A download with its headers. -/
structure CaptureFile (β : Type) where
  mimetype : String
  downloadName : String
  sampleRateHz : ℕ
  centerFreqHz : ℤ
  durationS : ℤ
  nSamples : ℕ
  body : β

inductive CaptureReply where
  | error (e : ErrorReply)
  /-- An exception that the handler does not catch. -/
  | raised
  /-- The segment, as `np.save` writes it. -/
  | iq (file : CaptureFile (List Sample))
  | report (file : CaptureFile String)
  | fcc (reply : FccReply)

/-- `report["capture"]` -/
structure ReportCapture where
  seconds : ℤ
  sampleRateHz : ℕ
  centerFreqHz : ℤ
  nSamples : ℕ

/-- What a handler reads when it makes its reply. -/
structure LiveReads where
  loFreqHz : ℤ
  rxGainDB : ℚ
  time : ℤ

/-- What the replies are made with. -/
structure CaptureTools (nBins : ℕ) where
  /-- `analyze_recording` and `build_report`, or an exception. -/
  reportText : List Sample → ReportCapture → Option String
  decibels : Decibels
  findPeaks : DistanceFilter
  computeSpecChunk : List Sample → SpecChunk nBins

variable {nBins : ℕ} (tools : CaptureTools nBins)

def captureFile {β : Type} (mimetype downloadName : String) (seconds : ℤ) (segment : List Sample)
    (reads : LiveReads) (body : β) : CaptureFile β where
  mimetype
  downloadName
  sampleRateHz := sampleRate
  centerFreqHz := reads.loFreqHz
  durationS := seconds
  nSamples := segment.length
  body

/-- What a handler makes of its segment, with the lock given back. -/
def respond (endpoint : CaptureEndpoint) (seconds : ℤ) (segment : List Sample) (reads : LiveReads) :
    CaptureReply :=
  match endpoint with
  | .iqCapture =>
    .iq (captureFile "application/octet-stream" s!"iq_{reads.time}_{seconds}s.npy" seconds segment reads
      segment)
  | .recordAnalyze =>
    match tools.reportText segment ⟨seconds, sampleRate, reads.loFreqHz, segment.length⟩ with
    | none => .raised
    | some text =>
      .report (captureFile "text/plain" s!"sat_record_{reads.time}_{seconds}s.txt" seconds segment reads
        text)
  | .fccCheck =>
    match fccCheck tools.decibels tools.findPeaks tools.computeSpecChunk seconds segment reads.loFreqHz
        reads.rxGainDB with
    | .error .tooShort =>
      .error ⟨s!"'seconds' must be >= {Py.fixed 1 specChunkS} to fill one FFT window", 400⟩
    | .error (.raised _) => .raised
    | .ok reply => .fcc reply

/-! ## A request -/

/-- How a capture ended: with a segment, with a `CaptureError`, or with another exception. -/
abbrev CaptureOutcome := Option (Except CaptureError (List Sample))

inductive CapturePhase where
  | absent
  | arrived (endpoint : CaptureEndpoint) (raw : Option String)
  | parsed (endpoint : CaptureEndpoint) (seconds : ℤ)
  | capturing (endpoint : CaptureEndpoint) (seconds : ℤ)
  /-- In front of the `finally`. -/
  | releasing (endpoint : CaptureEndpoint) (seconds : ℤ) (outcome : CaptureOutcome)
  | preparing (endpoint : CaptureEndpoint) (seconds : ℤ) (segment : List Sample)
  | answered (reply : CaptureReply)

/-- Between `acquire` and `release`. -/
def CapturePhase.Holds : CapturePhase → Prop
  | .capturing _ _ | .releasing _ _ _ => True
  | _ => False

/-- The steps a request has behind it. -/
def CapturePhase.rank : CapturePhase → ℕ
  | .absent => 0
  | .arrived _ _ => 1
  | .parsed _ _ => 2
  | .capturing _ _ => 3
  | .releasing _ _ _ => 4
  | .preparing _ _ _ => 5
  | .answered _ => 6

/-- `_capture_lock`, and the requests by number. -/
abbrev CaptureServer := TryLock.State ℕ CapturePhase

/-- What a step of a request reads: `env` is `none` where an exception other than `CaptureError` ends
the capture. -/
structure CaptureIO where
  env : Option (Env Sample)
  reads : LiveReads

inductive CaptureEvent where
  | arrive (i : ℕ) (endpoint : CaptureEndpoint) (raw : Option String)
  | step (i : ℕ) (io : CaptureIO)

def busy : ErrorReply := ⟨"Another capture is already in progress", 409⟩

/-- Where a request goes from the end of its `try`. -/
def afterRelease (endpoint : CaptureEndpoint) (seconds : ℤ) : CaptureOutcome → CapturePhase
  | none => .answered .raised
  | some (.error e) => .answered (.error ⟨e.message, e.status⟩)
  | some (.ok segment) => .preparing endpoint seconds segment

namespace CaptureServer

/-- One step of request `i`. -/
def advance (s : CaptureServer) (i : ℕ) (io : CaptureIO) : CaptureServer :=
  match s.phase i with
  | .absent => s
  | .arrived endpoint raw =>
    match endpoint.parse raw with
    | .error e => s.goto i (.answered (.error e))
    | .ok seconds => s.goto i (.parsed endpoint seconds)
  | .parsed endpoint seconds =>
    if s.locked then s.goto i (.answered (.error busy))
    else { s.goto i (.capturing endpoint seconds) with locked := true }
  | .capturing endpoint seconds =>
    s.goto i (.releasing endpoint seconds
      (io.env.map (captureIq iqBufferSize (seconds * sampleRate).toNat)))
  | .releasing endpoint seconds outcome =>
    { s.goto i (afterRelease endpoint seconds outcome) with locked := false }
  | .preparing endpoint seconds segment =>
    s.goto i (.answered (respond tools endpoint seconds segment io.reads))
  | .answered _ => s

def step (s : CaptureServer) : CaptureEvent → CaptureServer × Unit
  | .arrive i endpoint raw =>
    match s.phase i with
    | .absent => (s.goto i (.arrived endpoint raw), ())
    | _ => (s, ())
  | .step i io => (advance tools s i io, ())

def initial : CaptureServer := ⟨false, fun _ => .absent⟩

def run (events : List CaptureEvent) : CaptureServer := Machine.after (step tools) initial events

variable {tools} {s : CaptureServer} {i j : ℕ} {io : CaptureIO}

/-! ## One step -/

/-- What a step makes of the server: request `i` alone moves, and the lock follows it. -/
inductive Advances (tools : CaptureTools nBins) (s : CaptureServer) (i : ℕ) (io : CaptureIO) :
    CapturePhase → CaptureServer → Prop
  | absent : Advances tools s i io .absent s
  | refused {endpoint : CaptureEndpoint} {raw : Option String} {e : ErrorReply}
    (failed : endpoint.parse raw = .error e) :
    Advances tools s i io (.arrived endpoint raw) (s.goto i (.answered (.error e)))
  | parsed {endpoint : CaptureEndpoint} {raw : Option String} {seconds : ℤ}
    (ok : endpoint.parse raw = .ok seconds) :
    Advances tools s i io (.arrived endpoint raw) (s.goto i (.parsed endpoint seconds))
  | busy {endpoint : CaptureEndpoint} {seconds : ℤ} (taken : s.locked = true) :
    Advances tools s i io (.parsed endpoint seconds) (s.goto i (.answered (.error StreamWeb.busy)))
  | acquired {endpoint : CaptureEndpoint} {seconds : ℤ} (free : s.locked = false) :
    Advances tools s i io (.parsed endpoint seconds)
      { s.goto i (.capturing endpoint seconds) with locked := true }
  | captured {endpoint : CaptureEndpoint} {seconds : ℤ} :
    Advances tools s i io (.capturing endpoint seconds)
      (s.goto i (.releasing endpoint seconds
        (io.env.map (captureIq iqBufferSize (seconds * sampleRate).toNat))))
  | released {endpoint : CaptureEndpoint} {seconds : ℤ} {outcome : CaptureOutcome} :
    Advances tools s i io (.releasing endpoint seconds outcome)
      { s.goto i (afterRelease endpoint seconds outcome) with locked := false }
  | responded {endpoint : CaptureEndpoint} {seconds : ℤ} {segment : List Sample} :
    Advances tools s i io (.preparing endpoint seconds segment)
      (s.goto i (.answered (respond tools endpoint seconds segment io.reads)))
  | answered {reply : CaptureReply} : Advances tools s i io (.answered reply) s

theorem advance_advances : Advances tools s i io (s.phase i) (advance tools s i io) := by
  unfold advance
  cases s.phase i with
  | absent => exact .absent
  | arrived endpoint raw =>
    dsimp only
    split
    next failed => exact .refused failed
    next ok => exact .parsed ok
  | parsed endpoint seconds =>
    dsimp only
    split
    next taken => exact .busy taken
    next free => exact .acquired (by simpa using free)
  | capturing endpoint seconds => exact .captured
  | releasing endpoint seconds outcome => exact .released
  | preparing endpoint seconds segment => exact .responded
  | answered reply => exact .answered

variable (tools) in
/-- A number is given to one request only. -/
theorem step_arrive (s : CaptureServer) (i : ℕ) (endpoint : CaptureEndpoint) (raw : Option String) :
    s.phase i ≠ .absent ∧ step tools s (.arrive i endpoint raw) = (s, ()) ∨
      s.phase i = .absent ∧
        step tools s (.arrive i endpoint raw) = (s.goto i (.arrived endpoint raw), ()) := by
  unfold step
  cases here : s.phase i with
  | absent => exact .inr ⟨rfl, by simp only [here]⟩
  | _ => exact .inl ⟨by simp, by simp only [here]⟩

theorem afterRelease_out (endpoint : CaptureEndpoint) (seconds : ℤ) (outcome : CaptureOutcome) :
    ¬(afterRelease endpoint seconds outcome).Holds := by
  unfold afterRelease
  split <;> exact not_false

/-- The others stay where they are. -/
theorem advance_of_ne (ne : j ≠ i) : (advance tools s i io).phase j = s.phase j := by
  have advances : Advances tools s i io (s.phase i) (advance tools s i io) := advance_advances
  generalize s.phase i = phase, advance tools s i io = s' at advances ⊢
  cases advances with
  | absent | answered => rfl
  | refused | parsed | busy | acquired | captured | released | responded => exact s.goto_of_ne ne _

/-- A step is a move of the lock. -/
theorem advance_move : TryLock.Move CapturePhase.Holds i s (advance tools s i io) := by
  have stay : TryLock.Move CapturePhase.Holds i s s := by
    have pass := TryLock.Move.pass (s := s) (i := i) (s.phase i) (Iff.refl (CapturePhase.Holds _))
    rwa [TryLock.State.goto, Function.update_eq_self] at pass
  have advances : Advances tools s i io (s.phase i) (advance tools s i io) := advance_advances
  generalize here : s.phase i = phase at advances
  generalize advance tools s i io = s' at advances ⊢
  cases advances with
  | absent => exact stay
  | refused => exact .pass _ (by rw [here]; rfl)
  | parsed => exact .pass _ (by rw [here]; rfl)
  | busy => exact .pass _ (by rw [here]; rfl)
  | acquired free => exact .enter _ free trivial
  | captured => exact .pass _ (by rw [here]; rfl)
  | released => exact .leave _ (by rw [here]; trivial) (afterRelease_out _ _ _)
  | responded => exact .pass _ (by rw [here]; rfl)
  | answered => exact stay

/-! ## Mutual exclusion -/

theorem run_snoc (events : List CaptureEvent) (e : CaptureEvent) :
    run tools (events ++ [e]) = (step tools (run tools events) e).1 :=
  Machine.after_snoc (step tools) initial events e

variable (tools) in
theorem exclusive_run (events : List CaptureEvent) :
    TryLock.Exclusive CapturePhase.Holds (run tools events) := by
  apply Machine.after_rule (P := fun _ s => TryLock.Exclusive CapturePhase.Holds s)
  · exact .empty rfl fun _ => not_false
  · intro events e h
    cases e with
    | step i io => exact h.move advance_move
    | arrive i endpoint raw =>
      rcases step_arrive tools (Machine.after (step tools) initial events) i endpoint raw
        with ⟨-, same⟩ | ⟨absent, eq⟩
      · rw [same]
        exact h
      · rw [eq]
        apply h.move (.pass _ ?_)
        rw [absent]
        rfl

/-- **Captures exclude each other, and nothing else is refused.** Behind every run, of any number of
requests in any order of their steps, at most one request is between taking the lock and giving it
back, and the lock is taken exactly while one is. So a request that tries the lock is refused exactly
when another is capturing: no way out of a handler leaves the lock behind. -/
theorem capture_lock (tools : CaptureTools nBins) (events : List CaptureEvent) :
    TryLock.Exclusive CapturePhase.Holds (run tools events) ∧
      ∀ i io endpoint seconds, (run tools events).phase i = .parsed endpoint seconds →
        ((∃ j, ((run tools events).phase j).Holds) →
          (run tools (events ++ [.step i io])).phase i = .answered (.error StreamWeb.busy)) ∧
        ((∀ j, ¬((run tools events).phase j).Holds) →
          (run tools (events ++ [.step i io])).phase i = .capturing endpoint seconds) := by
  have exclusive := exclusive_run tools events
  refine ⟨exclusive, ?_⟩
  intro i io endpoint seconds here
  rw [run_snoc]
  generalize run tools events = s at *
  have advances : Advances tools s i io (s.phase i) (advance tools s i io) := advance_advances
  rw [here] at advances
  change (_ → (advance tools s i io).phase i = _) ∧ (_ → (advance tools s i io).phase i = _)
  generalize advance tools s i io = s' at advances ⊢
  cases advances with
  | busy taken =>
    refine ⟨fun _ => s.goto_self i _, ?_⟩
    intro none
    obtain ⟨j, held⟩ := exclusive.held.1 taken
    exact absurd held (none j)
  | acquired free =>
    refine ⟨?_, fun _ => s.goto_self i _⟩
    rintro ⟨j, held⟩
    exact absurd held (exclusive.free_iff.1 free j)

/-! ## Every request answers -/

/-- A step of a request that has not answered takes it further. -/
theorem rank_advance (arrived : s.phase i ≠ .absent) :
    min 6 ((s.phase i).rank + 1) ≤ ((advance tools s i io).phase i).rank := by
  have advances : Advances tools s i io (s.phase i) (advance tools s i io) := advance_advances
  generalize here : s.phase i = phase at advances arrived
  generalize advance tools s i io = s' at advances ⊢
  cases advances with
  | absent => exact absurd rfl arrived
  | answered =>
    rw [here]
    exact min_le_left _ _
  | released =>
    change _ ≤ ((s.goto i _).phase i).rank
    rw [s.goto_self]
    unfold afterRelease
    split <;> simp [CapturePhase.rank]
  | _ =>
    change _ ≤ ((s.goto i _).phase i).rank
    rw [s.goto_self]
    simp [CapturePhase.rank]

/-- The steps of request `i` among the events. -/
def ownSteps (i : ℕ) (events : List CaptureEvent) : ℕ :=
  events.countP fun
    | .step j _ => i == j
    | .arrive _ _ _ => false

variable (tools) in
/-- However the others move, a request's own steps are all it needs. -/
theorem rank_after (events : List CaptureEvent) (arrived : s.phase i ≠ .absent) :
    min 6 ((s.phase i).rank + ownSteps i events) ≤
      ((Machine.after (step tools) s events).phase i).rank := by
  induction events generalizing s with
  | nil => exact min_le_right _ _
  | cons e events ih =>
    have present : ∀ {p : CapturePhase}, 0 < p.rank → p ≠ .absent := by
      rintro p pos rfl
      cases pos
    have started : 0 < (s.phase i).rank := by
      cases here : s.phase i with
      | absent => exact absurd here arrived
      | _ => simp [CapturePhase.rank]
    rw [Machine.after_cons]
    cases e with
    | arrive j endpoint raw =>
      have same : (step tools s (.arrive j endpoint raw)).1.phase i = s.phase i := by
        rcases step_arrive tools s j endpoint raw with ⟨-, eq⟩ | ⟨absent, eq⟩
        · rw [eq]
        · rw [eq]
          apply s.goto_of_ne
          rintro rfl
          exact arrived absent
      have later := ih (s := (step tools s (.arrive j endpoint raw)).1) (by rwa [same])
      rw [same] at later
      exact later
    | step j io =>
      by_cases own : i = j
      · subst own
        have further : min 6 ((s.phase i).rank + 1) ≤ ((advance tools s i io).phase i).rank :=
          rank_advance arrived
        have later := ih (s := advance tools s i io) (present (by omega))
        have count : ownSteps i (.step i io :: events) = ownSteps i events + 1 := by
          simp [ownSteps]
        rw [count]
        change _ ≤ ((Machine.after (step tools) (advance tools s i io) events).phase i).rank
        omega
      · have same : (advance tools s j io).phase i = s.phase i := advance_of_ne own
        have later := ih (s := advance tools s j io) (by rwa [same])
        have count : ownSteps i (.step j io :: events) = ownSteps i events := by
          simp [ownSteps, own]
        rw [count]
        rwa [same] at later

/-- **No request holds another one up.** From any point of any run at which a request arrives, five
steps of its own bring its answer, whatever the other requests do in between and wherever they stop. -/
theorem capture_answers (tools : CaptureTools nBins) (before after : List CaptureEvent) (i : ℕ)
    (endpoint : CaptureEndpoint) (raw : Option String)
    (fresh : (run tools before).phase i = .absent) (own : 5 ≤ ownSteps i after) :
    ∃ reply, (run tools (before ++ .arrive i endpoint raw :: after)).phase i = .answered reply := by
  have arrives : (step tools (run tools before) (.arrive i endpoint raw)).1 =
      (run tools before).goto i (.arrived endpoint raw) := by
    rcases step_arrive tools (run tools before) i endpoint raw with ⟨present, -⟩ | ⟨-, eq⟩
    · exact absurd fresh present
    · rw [eq]
  have split : run tools (before ++ .arrive i endpoint raw :: after) =
      Machine.after (step tools) ((run tools before).goto i (.arrived endpoint raw)) after := by
    rw [run, Machine.after, List.foldl_append, List.foldl_cons]
    change Machine.after (step tools) (step tools (run tools before) _).1 after = _
    rw [arrives]
  have started : ((run tools before).goto i (.arrived endpoint raw)).phase i ≠ .absent := by
    rw [TryLock.State.goto_self]
    simp
  have reached := rank_after tools after started
  rw [TryLock.State.goto_self, ← split] at reached
  cases there : (run tools (before ++ .arrive i endpoint raw :: after)).phase i with
  | answered reply => exact ⟨reply, rfl⟩
  | _ =>
    rw [there] at reached
    simp only [CapturePhase.rank] at reached
    omega

end CaptureServer

/-! ## What is answered -/

/-- How a round fails. -/
theorem captureChunk_fails {size nSamples : ℕ} {E : Env Sample} {cur : Cursor} {e : CaptureError}
    (failed : captureChunk size nSamples E cur = .error e) : e = timedOut ∨ e = overran := by
  unfold captureChunk at failed
  dsimp only at failed
  split at failed
  · cases failed
    exact .inl rfl
  · split at failed
    · cases failed
      exact .inr rfl
    · cases failed

/-- From any head of a round on, the loop fills what is left or fails in one of two ways, wherever in
the buffer the index was. -/
theorem captureLoop_outcome {size nSamples : ℕ} {E : Env Sample} (hs : 2 ≤ size)
    (inside : E.bufWriteIdx 0 ≤ size) (m : ℕ) : ∀ cur : Cursor,
    Reached size nSamples E cur → nSamples - cur.filled = m →
    match captureLoop size nSamples E cur with
    | .ok segment => segment.length = m
    | .error e => e = timedOut ∨ e = overran := by
  -- the cells are those of a stream whose first read finds that many samples
  have first : E.bufWriteIdx 0 = Ring.rest size ((fun _ => E.bufWriteIdx 0) 0) := by
    show E.bufWriteIdx 0 = Ring.rest size (E.bufWriteIdx 0)
    unfold Ring.rest
    split
    · assumption
    · rw [Nat.mod_eq_of_lt (by omega)]
      omega
  induction m using Nat.strong_induction_on with
  | _ m ih =>
    intro cur reached left
    by_cases more : cur.filled < nSamples
    · cases step : captureChunk size nSamples E cur with
      | error e =>
        rw [captureLoop_error hs more step]
        exact captureChunk_fails step
      | ok result =>
        obtain ⟨cur', piece⟩ := result
        have pos := thisN_pos hs more
        have le := (thisN_le size more).2.1
        have filled := captureChunk_filled step
        have behind := ih _ (by omega) cur' (.round reached more step) rfl
        rw [captureLoop_ok hs more step]
        cases rest : captureLoop size nSamples E cur' with
        | error e =>
          rw [rest] at behind
          exact behind
        | ok back =>
          rw [rest] at behind
          obtain ⟨r, -, -, rfl⟩ := captureChunk_inv step
          show (_ ++ back).length = m
          rw [List.length_append, behind, window_placed hs (reached_placed hs first reached) more,
            List.length_map, List.length_range]
          omega
    · rw [captureLoop_end more]
      show ([] : List Sample).length = m
      simp only [List.length_nil]
      omega

/-- The durations that are captured. -/
def Bounded (seconds : ℤ) : Prop := 1 ≤ seconds ∧ seconds ≤ captureMaxSeconds

def samplesOf (seconds : ℤ) : ℕ := (seconds * sampleRate).toNat

/-- The errors a client can get. -/
def captureErrors : List ErrorReply :=
  [notAnInteger, tooFew, tooMany captureMaxSeconds, busy, ⟨timedOut.message, timedOut.status⟩,
    ⟨overran.message, overran.status⟩]

/-- A download is of the duration asked for, sample by sample. -/
structure CaptureFile.Full {β : Type} (file : CaptureFile β) : Prop where
  bounded : Bounded file.durationS
  nSamples : file.nSamples = samplesOf file.durationS
  rate : file.sampleRateHz = sampleRate

inductive CaptureReply.Allowed : CaptureReply → Prop
  | error {e : ErrorReply} (listed : e ∈ captureErrors) : Allowed (.error e)
  | raised : Allowed .raised
  | iq {file : CaptureFile (List Sample)} (full : file.Full)
    (body : file.body.length = file.nSamples) : Allowed (.iq file)
  | report {file : CaptureFile String} (full : file.Full) : Allowed (.report file)
  | fcc {reply : FccReply} (bounded : Bounded reply.analysis.seconds)
    (chunks : (reply.analysis.nChunks : ℤ) = 2 * reply.analysis.seconds) : Allowed (.fcc reply)

def CaptureOutcome.Good (seconds : ℤ) : CaptureOutcome → Prop
  | none => True
  | some (.error e) => e = timedOut ∨ e = overran
  | some (.ok segment) => segment.length = samplesOf seconds

theorem captureIq_good {E : Env Sample} (seconds : ℤ) (inside : E.bufWriteIdx 0 ≤ iqBufferSize) :
    CaptureOutcome.Good seconds (some (captureIq iqBufferSize (samplesOf seconds) E)) := by
  have outcome := captureLoop_outcome two_le_iqBufferSize inside (samplesOf seconds) (begin E) .start
    (Nat.sub_zero _)
  rw [captureIq]
  cases result : captureLoop iqBufferSize (samplesOf seconds) E (begin E) with
  | error e =>
    rw [result] at outcome
    exact outcome
  | ok segment =>
    rw [result] at outcome
    exact outcome

/-- What a request carries through its phases. -/
def CapturePhase.Good : CapturePhase → Prop
  | .absent | .arrived _ _ => True
  | .parsed _ seconds | .capturing _ seconds => Bounded seconds
  | .releasing _ seconds outcome => Bounded seconds ∧ CaptureOutcome.Good seconds outcome
  | .preparing _ seconds segment => Bounded seconds ∧ segment.length = samplesOf seconds
  | .answered reply => reply.Allowed

theorem parseSeconds_ok {default maximum seconds : ℤ} {raw : Option String} (low : 1 ≤ default)
    (high : default ≤ maximum) (parsed : parseSeconds (some default) maximum raw = .ok seconds) :
    1 ≤ seconds ∧ seconds ≤ maximum := by
  unfold parseSeconds at parsed
  split at parsed
  · cases parsed
    exact ⟨low, high⟩
  split at parsed
  · cases parsed
  split at parsed
  · cases parsed
  split at parsed
  · cases parsed
  · cases parsed
    omega

theorem parseSeconds_error {default maximum : ℤ} {raw : Option String} {e : ErrorReply}
    (failed : parseSeconds (some default) maximum raw = .error e) :
    e ∈ [notAnInteger, tooFew, tooMany maximum] := by
  unfold parseSeconds at failed
  split at failed
  · cases failed
  split at failed
  · cases failed
    simp
  split at failed
  · cases failed
    simp
  split at failed
  · cases failed
    simp
  · cases failed

theorem fccCheckDefaultSeconds_eq : fccCheckDefaultSeconds = 5 := by
  norm_num [fccCheckDefaultSeconds, spectrumAvgChunks_eq, specChunkS, Py.int]

theorem parse_ok {endpoint : CaptureEndpoint} {raw : Option String} {seconds : ℤ}
    (parsed : endpoint.parse raw = .ok seconds) : Bounded seconds := by
  cases endpoint with
  | fccCheck =>
    apply parseSeconds_ok _ _ parsed
    · rw [fccCheckDefaultSeconds_eq]
      omega
    · rw [fccCheckDefaultSeconds_eq, captureMaxSeconds]
      omega
  | _ => exact parseSeconds_ok (by decide) (by decide) parsed

theorem parse_error {endpoint : CaptureEndpoint} {raw : Option String} {e : ErrorReply}
    (failed : endpoint.parse raw = .error e) : e ∈ captureErrors := by
  have listed : e ∈ [notAnInteger, tooFew, tooMany captureMaxSeconds] := by
    cases endpoint with
    | _ => exact parseSeconds_error failed
  exact List.mem_append_left [busy, ⟨timedOut.message, timedOut.status⟩, ⟨overran.message, overran.status⟩]
    listed

/-- Two chunks for every second: there is always one. -/
theorem chunks_of_seconds {seconds : ℤ} (bounded : Bounded seconds) :
    ((samplesOf seconds / specChunkSamples : ℕ) : ℤ) = 2 * seconds := by
  obtain ⟨n, rfl⟩ := Int.eq_ofNat_of_zero_le (by have := bounded.1; omega : 0 ≤ seconds)
  have samples : samplesOf n = n * 2 * 390625 := by
    rw [samplesOf, sampleRate]
    omega
  rw [samples, specChunkSamples_eq, Nat.mul_div_cancel _ (by omega)]
  push_cast
  ring

theorem respond_allowed {endpoint : CaptureEndpoint} {seconds : ℤ} {segment : List Sample}
    (bounded : Bounded seconds) (full : segment.length = samplesOf seconds) (reads : LiveReads) :
    (respond tools endpoint seconds segment reads).Allowed := by
  cases endpoint with
  | iqCapture => exact .iq ⟨bounded, full, rfl⟩ rfl
  | recordAnalyze =>
    simp only [respond]
    split
    · exact .raised
    · exact .report ⟨bounded, full, rfl⟩
  | fccCheck =>
    have chunks := chunks_of_seconds bounded
    have count : (segmentChunks tools.computeSpecChunk segment).length =
        samplesOf seconds / specChunkSamples := by
      rw [segmentChunks, List.length_map, List.length_range, full]
    simp only [respond, fccCheck, count]
    have low := bounded.1
    split
    next short =>
      split at short
      · omega
      · split at short
        · cases short
        · cases short
    · exact .raised
    next reply replied =>
      split at replied
      · cases replied
      · split at replied
        · cases replied
        · cases replied
          refine .fcc ?_ ?_
          all_goals
            unfold fccReply
            split
          · exact bounded
          · exact bounded
          · exact chunks
          · exact chunks

open CaptureServer in
/-- **What the clients are told.** In every run in which the write index stays inside of the buffer:
an error is one of six, a download has the sample rate's worth of samples for every second of a
duration between one and thirty, and a compliance reply averages two chunks for every second. So the
duration is never found to be missing, nor too short for one chunk. -/
theorem capture_replies (tools : CaptureTools nBins) (events : List CaptureEvent)
    (inside : ∀ i io E, .step i io ∈ events → io.env = some E → E.bufWriteIdx 0 ≤ iqBufferSize)
    (i : ℕ) (reply : CaptureReply) (answered : (run tools events).phase i = .answered reply) :
    reply.Allowed := by
  suffices good : ∀ i, ((run tools events).phase i).Good by
    have := good i
    rwa [answered] at this
  clear answered
  induction events using List.reverseRecOn with
  | nil => exact fun _ => trivial
  | append_singleton events e ih =>
    have before := ih fun i io E mem => inside i io E (List.mem_append_left _ mem)
    rw [run_snoc]
    generalize run tools events = s at before ⊢
    intro j
    cases e with
    | arrive i endpoint raw =>
      rcases step_arrive tools s i endpoint raw with ⟨-, eq⟩ | ⟨-, eq⟩
      · rw [eq]
        exact before j
      · rw [eq]
        by_cases here : j = i
        · subst here
          show ((s.goto j _).phase j).Good
          rw [s.goto_self]
          trivial
        · show ((s.goto i _).phase j).Good
          rw [s.goto_of_ne here]
          exact before j
    | step i io =>
      by_cases here : j = i
      · subst here
        have good := before j
        have advances : Advances tools s j io (s.phase j) (advance tools s j io) := advance_advances
        change ((advance tools s j io).phase j).Good
        generalize phase : s.phase j = p at advances good
        generalize advance tools s j io = s' at advances ⊢
        cases advances with
        | absent =>
          rw [phase]
          exact good
        | answered =>
          rw [phase]
          exact good
        | refused failed =>
          rw [s.goto_self]
          exact .error (parse_error failed)
        | parsed ok =>
          rw [s.goto_self]
          exact parse_ok ok
        | busy =>
          rw [s.goto_self]
          exact .error (by simp [captureErrors])
        | acquired =>
          change ((s.goto j _).phase j).Good
          rw [s.goto_self]
          exact good
        | @captured endpoint seconds =>
          rw [s.goto_self]
          refine ⟨good, ?_⟩
          cases env : io.env with
          | none => trivial
          | some E =>
            exact captureIq_good seconds (inside j io E (by simp) env)
        | @released endpoint seconds outcome =>
          change ((s.goto j _).phase j).Good
          rw [s.goto_self]
          obtain ⟨bounded, outcome_good⟩ := good
          unfold afterRelease
          split
          · exact .raised
          · apply CaptureReply.Allowed.error
            rcases outcome_good with rfl | rfl
            · simp [captureErrors]
            · simp [captureErrors]
          · exact ⟨bounded, outcome_good⟩
        | responded =>
          rw [s.goto_self]
          exact respond_allowed tools good.1 good.2 io.reads
      · show ((advance tools s i io).phase j).Good
        rw [advance_of_ne here]
        exact before j

/-! ## Refused requests -/

def toneTools : CaptureTools 41 where
  reportText _ _ := some "=== Hubble sat-record diagnostic ===\n"
  decibels := toneDecibels
  findPeaks := keepHighest
  computeSpecChunk _ := toneChunk

/-- A receiver that has published half a buffer and stands still. -/
def halfFull : CaptureIO where
  env := some ⟨⟨fun _ => 0, fun _ => 10⟩, fun _ => 781250, fun _ _ => 0⟩
  reads := ⟨2482440375, 20, 1700000000⟩

/-- A request for 31 seconds. -/
def tooLong : List CaptureEvent :=
  [.arrive 0 .iqCapture (some "31"), .step 0 halfFull]

theorem capture_replies_refused : (CaptureReply.error ⟨"'seconds' must be <= 30", 400⟩).Allowed := by
  apply capture_replies toneTools tooLong _ 0
  · rfl
  · intro i io E mem env
    have io_eq : io = halfFull := by
      simp only [tooLong, List.mem_cons, List.not_mem_nil, CaptureEvent.step.injEq, reduceCtorEq,
        false_or, or_false] at mem
      exact mem.2
    subst io_eq
    cases env
    show 781250 ≤ iqBufferSize
    rw [iqBufferSize_eq]
    omega

/-- A request that is in front of its capture. -/
def holding : List CaptureEvent := [.arrive 0 .iqCapture (some "1"), .step 0 halfFull, .step 0 halfFull]

/-- Beside a request that has the lock another one is answered. -/
theorem capture_answers_beside :
    (CaptureServer.run toneTools holding).locked = true ∧ ∃ reply,
      (CaptureServer.run toneTools (holding ++ .arrive 1 .fccCheck (some "1") ::
        List.replicate 5 (.step 1 halfFull))).phase 1 = .answered reply := by
  constructor
  · rfl
  · apply CaptureServer.capture_answers toneTools holding _ 1
    · rfl
    · decide

end StreamWeb

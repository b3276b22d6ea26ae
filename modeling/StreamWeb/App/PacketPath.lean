import StreamWeb.Processor.Dedup
import StreamWeb.App.PacketFeed
import StreamWeb.Hitl.Annotator
import StreamWeb.Processor.DecodeEntries

/-!
# From the decoder to the clients

The way of a packet through the parts: the processor reports what a cycle kept,
the drain thread hands the entries to the annotation poster one by one and then
puts them into the feed under the lock, and a poll takes the feed. The queue
between the processes keeps each one's messages in order, and those of the
renderers, which carry no entries, come in between anywhere.

`packets_reach_clients` follows the entries over any run: nothing is reordered
or doubled, and what a poll can have missed shows in its length.
-/

namespace StreamWeb

open Processor

/-- An entry as the dictionary that the annotation poster reads. -/
def DecodeEntry.items (e : DecodeEntry) : Py.Dict :=
  [("timestamp", .str e.timestamp), ("unix_ts", .float e.unixTs), ("rx_start_unix_ts", .ofFloat e.rxStartUnixTs),
    ("phy_ver", .int e.phyVer), ("ntw_id", .int e.ntwId), ("ntw_id_hex", .str e.ntwIdHex),
    ("seq_num", .int e.seqNum), ("auth_tag", .ofOption .int e.authTag), ("energy_dB", .float e.energyDB),
    ("chipset", .str e.chipset), ("channel_num", .ofOption .int e.channelNum),
    ("freq_delta_hz", .ofFloat e.freqDeltaHz), ("payload_val", .ofOption .int e.payloadVal),
    ("payload_bytes", .ofOption .int e.payloadBytes), ("header_n_corr", .ofOption .int e.headerNCorr),
    ("pdu_n_corr", .ofOption .int e.pduNCorr),
    ("num_pdu_symbols", .ofOption (fun n : Nat => .int n) e.numPduSymbols),
    ("sym_count", .ofOption (fun n : Nat => .int n) e.symCount), ("sym_mean_ms", .ofFloat e.symMeanMs),
    ("sym_std_ms", .ofFloat e.symStdMs), ("gap_count", .ofOption (fun n : Nat => .int n) e.gapCount),
    ("gap_mean_ms", .ofFloat e.gapMeanMs), ("gap_std_ms", .ofFloat e.gapStdMs)]

/-- What the processor has when it comes to the entries. -/
structure Decoded where
  cycle : Cycle
  clocks : Clocks
  decodeChunk : List Sample
  /-- The other keys of the cycle's result. -/
  rest : WorkerResult

structure PacketPath where
  recentDecodes : RecentDecodes := fun _ => none
  /-- The messages of the processor on `result_queue`. -/
  reported : List WorkerResult := []
  /-- Those of the renderers. -/
  rendered : List WorkerResult := []
  /-- The message the drain thread has got, and its entries that are not submitted yet. -/
  inHand : Option (WorkerResult × List DecodeEntry) := none
  app : SharedState := {}
  annotator : HarvesterAnnotator := {}

inductive PathStep where
  | cycle (d : Decoded)
  | render (r : WorkerResult)
  /-- `state.result_queue.get`, of the processor's next message. -/
  | take
  /-- The same of a renderer's message. -/
  | takeRendered (i : ℕ)
  /-- A turn of the loop of `submit`. -/
  | submit
  /-- The critical section of `_drain_results`. -/
  | update
  | poll
  | reset
  /-- A step of the poster's own thread. -/
  | post (a : AnnotatorStep)

/-- What shows of a step outside: the entries of a cycle that are put on the queue, and the response
of a poll. -/
structure PathNote where
  made : List DecodeEntry := []
  polled : Option (Except Py.Error (List PacketLine)) := none

namespace PacketPath

variable (K : DecoderConstants) (smoothed : Nat → List Sample → List ℚ) (annotated : Bool)

/-- The entries `_drain_results` submits: none without an annotator. -/
def toSubmit (r : WorkerResult) : List DecodeEntry := if annotated then r.decodeEntries.getD [] else []

def step (s : PacketPath) : PathStep → PacketPath × PathNote
  | .cycle d =>
    let (recentDecodes, packets) := dedupCycle s.recentDecodes d.cycle
    match decodeEntries K smoothed d.decodeChunk d.clocks packets with
    | some entries =>
      ({ s with recentDecodes, reported := s.reported ++ [{ d.rest with decodeEntries := some entries }] },
        { made := entries })
    -- The process ends, and the next one starts with nothing remembered.
    | none => ({ s with recentDecodes := fun _ => none }, {})
  | .render r => ({ s with rendered := s.rendered ++ [{ r with decodeEntries := none }] }, {})
  | .take =>
    match s.inHand, s.reported with
    | none, r :: later => ({ s with reported := later, inHand := some (r, toSubmit annotated r) }, {})
    | _, _ => (s, {})
  | .takeRendered i =>
    match s.inHand, s.rendered[i]? with
    | none, some r =>
      ({ s with rendered := s.rendered.eraseIdx i, inHand := some (r, toSubmit annotated r) }, {})
    | _, _ => (s, {})
  | .submit =>
    match s.inHand with
    | some (r, e :: rest) =>
      ({ s with inHand := some (r, rest), annotator := (s.annotator.submit e.items).1 }, {})
    | _ => (s, {})
  | .update =>
    match s.inHand with
    | some (r, []) => ({ s with inHand := none, app := s.app.drainResult r }, {})
    | _ => (s, {})
  | .poll => ({ s with app := (apiPackets s.app).1 }, { polled := some (apiPackets s.app).2 })
  | .reset => ({ s with app := s.app.apiReset }, {})
  | .post a =>
    match a with
    | .submit _ => (s, {})
    | a => ({ s with annotator := (s.annotator.step a).1 }, {})

def run (steps : List PathStep) : PacketPath := Machine.after (step K smoothed annotated) {} steps

def notes (steps : List PathStep) : List PathNote := Machine.outputs (step K smoothed annotated) {} steps

/-- All entries the processor has put on the queue, in order. -/
def made (notes : List PathNote) : List DecodeEntry := notes.flatMap PathNote.made

/-- The responses of the polls, in order. -/
def polls (notes : List PathNote) : List (Except Py.Error (List PacketLine)) :=
  notes.filterMap PathNote.polled

def entriesOf (r : WorkerResult) : List DecodeEntry := r.decodeEntries.getD []

/-- The entries of the message in hand that are submitted, or need not be. -/
def handed (s : PacketPath) : List DecodeEntry :=
  match s.inHand with
  | some (r, rest) => (entriesOf r).take ((entriesOf r).length - rest.length)
  | none => []

/-- The other entries on the way to the feed. -/
def waiting (s : PacketPath) : List DecodeEntry :=
  (match s.inHand with
    | some (_, rest) => rest
    | none => []) ++ s.reported.flatMap entriesOf

/-! ## One step -/

variable {annotated} {s : PacketPath}

theorem handed_eq {r : WorkerResult} {front rest : List DecodeEntry} (here : s.inHand = some (r, rest))
    (split : entriesOf r = front ++ rest) : s.handed = front := by
  unfold handed
  rw [here]
  simp [split]

/-- What became of the entries of a run: the events of the feed, and the steps of the poster. -/
structure Follows (annotated : Bool) (ns : List PathNote) (s : PacketPath) (events : List FeedEvent)
    (posts : List AnnotatorStep) : Prop where
  app : s.app = Machine.after feedStep {} events
  polls : polls ns = responses {} events
  made : made ns = arrivals events ++ (s.handed ++ s.waiting)
  inHand : ∀ r rest, s.inHand = some (r, rest) → ∃ front, entriesOf r = front ++ rest
  rendered : ∀ r ∈ s.rendered, entriesOf r = []
  annotator : s.annotator = HarvesterAnnotator.run posts
  submitted : annotated = true → (HarvesterAnnotator.notes posts).flatMap Note.submitted
    = (arrivals events ++ s.handed).map DecodeEntry.items

theorem run_annotator (posts : List AnnotatorStep) (e : AnnotatorStep) :
    HarvesterAnnotator.run (posts ++ [e]) = ((HarvesterAnnotator.run posts).step e).1 :=
  Machine.after_snoc _ _ posts e

theorem notes_annotator (posts : List AnnotatorStep) (e : AnnotatorStep) :
    (HarvesterAnnotator.notes (posts ++ [e])).flatMap Note.submitted
      = (HarvesterAnnotator.notes posts).flatMap Note.submitted
        ++ ((HarvesterAnnotator.run posts).step e).2.submitted := by
  rw [HarvesterAnnotator.notes, Machine.outputs_snoc, List.flatMap_append, ← HarvesterAnnotator.notes]
  simp [HarvesterAnnotator.run]

theorem made_snoc (ns : List PathNote) (n : PathNote) : made (ns ++ [n]) = made ns ++ n.made := by
  simp [made]

theorem polls_snoc (ns : List PathNote) (n : PathNote) : polls (ns ++ [n]) = polls ns ++ n.polled.toList := by
  rw [polls, List.filterMap_append, ← polls]
  cases h : n.polled <;> simp [h]

theorem arrivals_snoc (events : List FeedEvent) (ev : FeedEvent) :
    arrivals (events ++ [ev]) = arrivals events ++ ev.entries := by
  simp [arrivals]

section Steps

variable {ns : List PathNote} {events : List FeedEvent} {posts : List AnnotatorStep}

/-- A step that is seen by nobody and leaves the entries where they are. -/
theorem Follows.quiet {s' : PacketPath} (h : Follows annotated ns s events posts) (app : s'.app = s.app)
    (annotator : s'.annotator = s.annotator) (handed : s'.handed = s.handed) (waiting : s'.waiting = s.waiting)
    (inHand : ∀ r rest, s'.inHand = some (r, rest) → ∃ front, entriesOf r = front ++ rest)
    (rendered : ∀ r ∈ s'.rendered, entriesOf r = []) : Follows annotated (ns ++ [⟨[], none⟩]) s' events posts := by
  refine ⟨app.trans h.app, ?_, ?_, inHand, rendered, annotator.trans h.annotator, ?_⟩
  · rw [polls_snoc, h.polls]
    exact List.append_nil _
  · rw [made_snoc, handed, waiting, h.made]
    exact List.append_nil _
  · intro on
    rw [handed]
    exact h.submitted on

/-- The drain thread gets a message: its entries are in hand, where they were on the queue. -/
theorem Follows.got {s' : PacketPath} {r : WorkerResult} (h : Follows annotated ns s events posts)
    (idle : s.inHand = none) (inHand : s'.inHand = some (r, toSubmit annotated r)) (app : s'.app = s.app)
    (annotator : s'.annotator = s.annotator)
    (queued : s.reported.flatMap entriesOf = entriesOf r ++ s'.reported.flatMap entriesOf)
    (rendered : ∀ r ∈ s'.rendered, entriesOf r = []) :
    Follows annotated (ns ++ [⟨[], none⟩]) s' events posts := by
  have before : s.handed = [] := by
    unfold handed
    rw [idle]
  obtain ⟨front, split⟩ : ∃ front, entriesOf r = front ++ toSubmit annotated r := by
    unfold toSubmit
    cases annotated with
    | true => exact ⟨[], rfl⟩
    | false => exact ⟨entriesOf r, (List.append_nil _).symm⟩
  have now : s'.handed = front := handed_eq inHand split
  refine ⟨app.trans h.app, ?_, ?_, ?_, rendered, annotator.trans h.annotator, ?_⟩
  · rw [polls_snoc, h.polls]
    exact List.append_nil _
  · rw [made_snoc, h.made, before, now, waiting, waiting, idle, inHand, queued, split]
    simp
  · intro r' rest' same
    rw [inHand] at same
    cases same
    exact ⟨front, split⟩
  · intro on
    have none : front = [] := by
      subst on
      exact List.append_left_eq_self.1 split.symm
    rw [now, none, ← before]
    exact h.submitted on

/-- A step of the poster's own thread. -/
theorem Follows.posted (h : Follows annotated ns s events posts) {post : AnnotatorStep}
    (own : ∀ e, post ≠ .submit e) :
    Follows annotated (ns ++ [⟨[], none⟩]) { s with annotator := (s.annotator.step post).1 } events
      (posts ++ [post]) := by
  refine ⟨h.app, ?_, ?_, h.inHand, h.rendered, ?_, ?_⟩
  · rw [polls_snoc, h.polls]
    exact List.append_nil _
  · rw [made_snoc, h.made]
    exact List.append_nil _
  · rw [run_annotator, ← h.annotator]
  · intro on
    rw [notes_annotator, h.submitted on, submitted_post _ own]
    exact List.append_nil _

theorem Follows.step (h : Follows annotated ns s events posts) (e : PathStep) :
    ∃ events' posts', Follows annotated (ns ++ [(s.step K smoothed annotated e).2])
      (s.step K smoothed annotated e).1 events' posts' := by
  cases e with
  | cycle d =>
    unfold PacketPath.step
    dsimp only
    split
    next entries _ =>
      refine ⟨events, posts, h.app, ?_, ?_, h.inHand, h.rendered, h.annotator, h.submitted⟩
      · rw [polls_snoc, h.polls]
        exact List.append_nil _
      · rw [made_snoc, h.made]
        simp [handed, waiting, entriesOf]
    next => exact ⟨events, posts, h.quiet rfl rfl rfl rfl h.inHand h.rendered⟩
  | render r =>
    refine ⟨events, posts, h.quiet rfl rfl rfl rfl h.inHand ?_⟩
    intro r' mem
    rcases List.mem_append.1 mem with old | new
    · exact h.rendered r' old
    · rw [List.mem_singleton.1 new]
      rfl
  | take =>
    unfold PacketPath.step
    dsimp only
    split
    next r later idle queue =>
      refine ⟨events, posts, h.got idle rfl rfl rfl ?_ h.rendered⟩
      rw [queue, List.flatMap_cons]
    next => exact ⟨events, posts, h.quiet rfl rfl rfl rfl h.inHand h.rendered⟩
  | takeRendered i =>
    unfold PacketPath.step
    dsimp only
    split
    next r idle there =>
      have empty := h.rendered r (List.mem_of_getElem? there)
      refine ⟨events, posts, h.got idle rfl rfl rfl ?_ ?_⟩
      · rw [empty]
        rfl
      · intro r' mem
        exact h.rendered r' ((List.eraseIdx_sublist _ i).subset mem)
    next => exact ⟨events, posts, h.quiet rfl rfl rfl rfl h.inHand h.rendered⟩
  | submit =>
    unfold PacketPath.step
    dsimp only
    split
    next r e rest here =>
      obtain ⟨front, split⟩ := h.inHand r (e :: rest) here
      have before := handed_eq here split
      have split' : entriesOf r = (front ++ [e]) ++ rest := by
        rw [split, List.append_assoc]
        rfl
      refine ⟨events, posts ++ [.submit e.items], h.app, ?_, ?_, ?_, h.rendered, ?_, ?_⟩
      · rw [polls_snoc, h.polls]
        exact List.append_nil _
      · rw [made_snoc, h.made, before, handed_eq rfl split', waiting, waiting, here]
        simp
      · intro r' rest' same
        cases same
        exact ⟨front ++ [e], split'⟩
      · rw [run_annotator, ← h.annotator]
        rfl
      · intro on
        rw [notes_annotator, h.submitted on, before, handed_eq rfl split', HarvesterAnnotator.step,
          submitted_submit]
        simp
    next => exact ⟨events, posts, h.quiet rfl rfl rfl rfl h.inHand h.rendered⟩
  | update =>
    unfold PacketPath.step
    dsimp only
    split
    next r here =>
      obtain ⟨front, split⟩ := h.inHand r [] here
      rw [List.append_nil] at split
      have before := handed_eq here (split.trans (List.append_nil _).symm)
      refine ⟨events ++ [.drain r], posts, ?_, ?_, ?_, ?_, h.rendered, h.annotator, ?_⟩
      · rw [Machine.after_snoc, ← h.app]
        rfl
      · rw [polls_snoc, h.polls, responses_snoc]
        rfl
      · rw [made_snoc, h.made, arrivals_snoc, before, ← split]
        simp [handed, waiting, here, FeedEvent.entries, entriesOf]
      · intro r' rest' same
        cases same
      · intro on
        rw [h.submitted on, arrivals_snoc, before, ← split]
        simp [handed, FeedEvent.entries, entriesOf]
    next => exact ⟨events, posts, h.quiet rfl rfl rfl rfl h.inHand h.rendered⟩
  | poll =>
    refine ⟨events ++ [.poll], posts, ?_, ?_, ?_, h.inHand, h.rendered, h.annotator, ?_⟩
    · rw [Machine.after_snoc, ← h.app]
      rfl
    · rw [polls_snoc, h.polls, responses_snoc, ← h.app]
      rfl
    · rw [made_snoc, h.made, arrivals_snoc]
      simp [PacketPath.step, handed, waiting, FeedEvent.entries]
    · intro on
      rw [h.submitted on, arrivals_snoc]
      simp [PacketPath.step, handed, FeedEvent.entries]
  | reset =>
    refine ⟨events ++ [.reset], posts, ?_, ?_, ?_, h.inHand, h.rendered, h.annotator, ?_⟩
    · rw [Machine.after_snoc, ← h.app]
      rfl
    · rw [polls_snoc, h.polls, responses_snoc]
      rfl
    · rw [made_snoc, h.made, arrivals_snoc]
      simp [PacketPath.step, handed, waiting, FeedEvent.entries]
    · intro on
      rw [h.submitted on, arrivals_snoc]
      simp [PacketPath.step, handed, FeedEvent.entries]
  | post a =>
    cases a with
    | submit entry => exact ⟨events, posts, h.quiet rfl rfl rfl rfl h.inHand h.rendered⟩
    | start | get | post | flag =>
      refine ⟨events, _, h.posted ?_⟩
      intro e same
      cases same

end Steps

/-! ## Every run -/

theorem run_snoc (steps : List PathStep) (e : PathStep) :
    run K smoothed annotated (steps ++ [e]) = ((run K smoothed annotated steps).step K smoothed annotated e).1 :=
  Machine.after_snoc _ _ steps e

theorem notes_snoc (steps : List PathStep) (e : PathStep) :
    notes K smoothed annotated (steps ++ [e])
      = notes K smoothed annotated steps ++ [((run K smoothed annotated steps).step K smoothed annotated e).2] :=
  Machine.outputs_snoc _ _ steps e

/-- **Every run** can be followed. -/
theorem follows_run (steps : List PathStep) :
    ∃ events posts, Follows annotated (notes K smoothed annotated steps) (run K smoothed annotated steps)
      events posts := by
  induction steps using List.reverseRecOn with
  | nil =>
    refine ⟨[], [], rfl, rfl, rfl, ?_, ?_, rfl, fun _ => rfl⟩
    · intro r rest same
      cases same
    · intro r mem
      cases mem
  | append_singleton steps e ih =>
    obtain ⟨events, posts, h⟩ := ih
    rw [notes_snoc, run_snoc]
    exact h.step K smoothed e

/-- Every entry is made by a cycle of the run, from one of the packets the decoder returned in it. -/
theorem made_reports (steps : List PathStep) {e : DecodeEntry} (mem : e ∈ made (notes K smoothed annotated steps)) :
    ∃ d pkt, PathStep.cycle d ∈ steps ∧ pkt ∈ d.cycle.packets ∧
      Reports K smoothed d.decodeChunk d.clocks pkt e := by
  induction steps using List.reverseRecOn with
  | nil => cases mem
  | append_singleton steps step ih =>
    rw [notes_snoc, made_snoc, List.mem_append] at mem
    rcases mem with before | new
    · obtain ⟨d, pkt, happened, listed, reports⟩ := ih before
      exact ⟨d, pkt, List.mem_append_left _ happened, listed, reports⟩
    · cases step with
      | cycle d =>
        unfold PacketPath.step at new
        dsimp only at new
        split at new
        next entries are_made =>
          obtain ⟨pkt, kept, reports⟩ := decodeEntries_reports are_made new
          exact ⟨d, pkt, by simp, dedupCycle_subset _ _ kept, reports⟩
        next => cases new
      | render | poll | reset => cases new
      | take | takeRendered | submit | update =>
        unfold PacketPath.step at new
        dsimp only at new
        split at new <;> cases new
      | post a => cases a <;> cases new

/-- The polls' responses are those of the entries they took; short ones have missed nothing. -/
theorem polled_of_events (events : List FeedEvent) :
    ∃ polled : List (List DecodeEntry),
      responses {} events = polled.map (fun taken => taken.mapM packetLine) ∧
      (polled.flatten ++ (Machine.after feedStep {} events).packetFeed).Sublist (arrivals events) ∧
      ((∀ taken ∈ polled, taken.length < 1000) → (Machine.after feedStep {} events).packetFeed.length < 1000 →
        polled.flatten ++ (Machine.after feedStep {} events).packetFeed = arrivals events) := by
  have whole : ∀ l : List DecodeEntry, (l.rtake 1000).length < 1000 → l.rtake 1000 = l := by
    intro l short
    rw [List.rtake, List.length_drop] at short
    exact List.rtake_of_length_le (by omega)
  have feed : (Machine.after feedStep {} events).packetFeed = (segments events).2.rtake 1000 :=
    (feed_after events).feed
  refine ⟨(segments events).1.map (List.rtake · 1000), ?_, ?_, ?_⟩
  · simp only [responses_eq, List.map_map, SharedState.maxPacketFeed, Function.comp_def]
  · rw [feed, ← segments_flatten]
    exact (List.flatten_map_sublist (List.rtake_sublist 1000) _).append (List.rtake_sublist 1000 _)
  · intro short short_feed
    rw [feed] at short_feed ⊢
    rw [whole _ short_feed, ← segments_flatten]
    congr 1
    have same : (segments events).1.map (List.rtake · 1000) = (segments events).1 := by
      conv_rhs => rw [← List.map_id (segments events).1]
      exact List.map_congr_left fun seg mem => whole seg (short _ (List.mem_map_of_mem mem))
    rw [same]

end PacketPath

open PacketPath in
/-- **From the decoder to the clients**, for every run of cycles, renderers, the drain thread, the
annotation poster, polls and resets in any order. The entries the processor put on the queue are, in
order, those that have come to the feed, those of the message the drain thread has in hand that are
through with the poster, and the rest. What the polls took and the feed still holds is what came to the
feed, less what a full feed has dropped: nothing, while the polls return fewer than 1000 lines. The poster
has been given each entry before the feed, and every entry is one of the packets the decoder returned in a
cycle. -/
theorem packets_reach_clients (K : DecoderConstants) (smoothed : Nat → List Sample → List ℚ) (annotated : Bool)
    (steps : List PathStep) :
    ∃ (polled : List (List DecodeEntry)) (fed : List DecodeEntry) (posts : List AnnotatorStep),
      made (notes K smoothed annotated steps)
        = fed ++ (handed (run K smoothed annotated steps) ++ waiting (run K smoothed annotated steps)) ∧
      polls (notes K smoothed annotated steps) = polled.map (fun taken => taken.mapM packetLine) ∧
      (polled.flatten ++ (run K smoothed annotated steps).app.packetFeed).Sublist fed ∧
      ((∀ taken ∈ polled, taken.length < 1000) → (run K smoothed annotated steps).app.packetFeed.length < 1000 →
        polled.flatten ++ (run K smoothed annotated steps).app.packetFeed = fed) ∧
      (run K smoothed annotated steps).annotator = HarvesterAnnotator.run posts ∧
      (annotated = true → (HarvesterAnnotator.notes posts).flatMap Note.submitted
        = (fed ++ handed (run K smoothed annotated steps)).map DecodeEntry.items) ∧
      ∀ e ∈ made (notes K smoothed annotated steps), ∃ d pkt, PathStep.cycle d ∈ steps ∧
        pkt ∈ d.cycle.packets ∧ Reports K smoothed d.decodeChunk d.clocks pkt e := by
  obtain ⟨events, posts, h⟩ := follows_run K smoothed steps
  obtain ⟨polled, responses, sub, short⟩ := polled_of_events events
  rw [← h.app] at sub short
  exact ⟨polled, arrivals events, posts, h.made, h.polls.trans responses, sub, short, h.annotator, h.submitted,
    fun e mem => made_reports K smoothed steps mem⟩

end StreamWeb

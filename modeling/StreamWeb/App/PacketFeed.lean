import StreamWeb.App.SharedState
import StreamWeb.Lib.Machine
import StreamWeb.Lib.Tail

/-!
# Conservation of the packet feed

The drain thread, the mock injector, `GET /api/packets` and `POST /api/reset`
meet in the two bounded lists of `SharedState`. Every interleaving of their
critical sections is a list of `FeedEvent`s; `segments` splits what arrived at
the polls. The run lemma `feed_after` says what the two lists hold after any
run, and `packet_feed_conserved` what every poll returned on the way.
-/

namespace StreamWeb

/-- One critical section. -/
inductive FeedEvent where
  | drain (r : WorkerResult)
  | mock (e : DecodeEntry)
  | poll
  | reset

/-- A critical section and, for a poll, its response. -/
def feedStep (s : SharedState) :
    FeedEvent → SharedState × Option (Except Py.Error (List PacketLine))
  | .drain r => (s.drainResult r, none)
  | .mock e => (s.mockAppend e, none)
  | .poll => ((apiPackets s).1, some (apiPackets s).2)
  | .reset => (s.apiReset, none)

/-- The responses of the polls, in order. -/
def responses (s : SharedState) (events : List FeedEvent) :
    List (Except Py.Error (List PacketLine)) :=
  (Machine.outputs feedStep s events).filterMap id

/-- The entries an event brings. -/
def FeedEvent.entries : FeedEvent → List DecodeEntry
  | .drain r => r.decodeEntries.getD []
  | .mock e => [e]
  | .poll | .reset => []

/-- All entries that arrived, in order. -/
def arrivals (events : List FeedEvent) : List DecodeEntry := events.flatMap FeedEvent.entries

/-- What arrived before each poll since the poll before it, and what arrived
since the last poll. -/
def segments (events : List FeedEvent) : List (List DecodeEntry) × List DecodeEntry :=
  events.foldl (fun acc ev =>
    match ev with
    | .poll => (acc.1 ++ [acc.2], [])
    | ev => (acc.1, acc.2 ++ ev.entries)) ([], [])

/-- What arrived since the last reset. -/
def sinceReset (events : List FeedEvent) : List DecodeEntry :=
  events.foldl (fun acc ev =>
    match ev with
    | .reset => []
    | ev => acc ++ ev.entries) []

theorem segments_snoc (events : List FeedEvent) (ev : FeedEvent) :
    segments (events ++ [ev]) =
      match ev with
      | .poll => ((segments events).1 ++ [(segments events).2], [])
      | ev => ((segments events).1, (segments events).2 ++ ev.entries) := by
  simp [segments]

theorem sinceReset_snoc (events : List FeedEvent) (ev : FeedEvent) :
    sinceReset (events ++ [ev]) =
      match ev with
      | .reset => []
      | ev => sinceReset events ++ ev.entries := by
  simp [sinceReset]

/-- The segments cut the arrivals into consecutive pieces. -/
theorem segments_flatten (events : List FeedEvent) :
    (segments events).1.flatten ++ (segments events).2 = arrivals events := by
  induction events using List.reverseRecOn with
  | nil => rfl
  | append_singleton events ev ih =>
    rw [segments_snoc, arrivals, List.flatMap_append, ← arrivals, ← ih]
    cases ev <;> simp [FeedEvent.entries]

/-! ## What one step does -/

theorem extendKeep_rtake (n : Nat) (old entries : List DecodeEntry) :
    SharedState.extendKeep n (old.rtake n) entries = (old ++ entries).rtake n :=
  List.rtake_rtake_append n old entries

/-- The guard of an empty batch leaves what extending with it would leave. -/
theorem drain_keep (n : Nat) (old entries : List DecodeEntry) :
    (if entries.isEmpty then old.rtake n else SharedState.extendKeep n (old.rtake n) entries)
      = (old ++ entries).rtake n := by
  cases entries with
  | nil => simp
  | cons e es => simp only [List.isEmpty_cons, Bool.false_eq_true, if_false, extendKeep_rtake]

/-- The two bounded lists after a run. -/
structure Tails (feed results : List DecodeEntry) (s : SharedState) : Prop where
  feed : s.packetFeed = feed.rtake SharedState.maxPacketFeed
  results : s.decodeResults = results.rtake Config.maxDecodeHistory

/-- Every critical section keeps the tails, the feed's restarted by a poll and
the results' by a reset. -/
theorem Tails.step {feed results : List DecodeEntry} {s : SharedState} (h : Tails feed results s)
    (ev : FeedEvent) :
    Tails (match ev with | .poll => [] | ev => feed ++ ev.entries)
      (match ev with | .reset => [] | ev => results ++ ev.entries) (feedStep s ev).1 := by
  cases ev with
  | drain r =>
    constructor
    · simp only [feedStep, SharedState.drainResult, h.feed]
      exact drain_keep _ feed _
    · simp only [feedStep, SharedState.drainResult, h.results]
      exact drain_keep _ results _
  | mock e =>
    constructor
    · simp only [feedStep, SharedState.mockAppend, h.feed]
      exact extendKeep_rtake _ feed [e]
    · simp only [feedStep, SharedState.mockAppend, h.results]
      exact extendKeep_rtake _ results [e]
  | poll =>
    refine ⟨by simp [feedStep, apiPackets], ?_⟩
    simpa [feedStep, apiPackets, FeedEvent.entries] using h.results
  | reset =>
    refine ⟨?_, by simp [feedStep, SharedState.apiReset]⟩
    simpa [feedStep, SharedState.apiReset, FeedEvent.entries] using h.feed

/-- **The run lemma.** The feed is the tail of what arrived since the last
poll, the results are the tail of what arrived since the last reset. -/
theorem feed_after (events : List FeedEvent) :
    Tails (segments events).2 (sinceReset events) (Machine.after feedStep {} events) := by
  refine Machine.after_rule (P := fun events s => Tails (segments events).2 (sinceReset events) s)
    feedStep ⟨(List.rtake_nil _).symm, (List.rtake_nil _).symm⟩ (fun events ev ih => ?_) events
  have next := ih.step ev
  rw [segments_snoc, sinceReset_snoc]
  cases ev <;> exact next

theorem responses_snoc (s : SharedState) (events : List FeedEvent) (ev : FeedEvent) :
    responses s (events ++ [ev])
      = responses s events ++ (feedStep (Machine.after feedStep s events) ev).2.toList := by
  rw [responses, Machine.outputs_snoc, List.filterMap_append, ← responses]
  cases (feedStep (Machine.after feedStep s events) ev).2 <;> rfl

/-- Every poll serialises the tail of its segment. -/
theorem responses_eq (events : List FeedEvent) :
    responses {} events
      = (segments events).1.map fun seg => (seg.rtake SharedState.maxPacketFeed).mapM packetLine := by
  induction events using List.reverseRecOn with
  | nil => rfl
  | append_singleton events ev ih =>
    rw [responses_snoc, segments_snoc, ih]
    cases ev with
    | poll => simp [feedStep, apiPackets, (feed_after events).feed]
    | drain r => simp [feedStep]
    | mock e => simp [feedStep]
    | reset => simp [feedStep]

/-- **Conservation of the packet feed**, for every interleaving of drained
results, synthetic entries, polls and resets. Each poll's response is the
serialisation, in order, of the last `min 1000 k` of the `k` entries that
arrived since the poll before. So what the polls return is a subsequence of the
arrivals, and all of them (up to those still in the feed) when no more than 1000
arrive between two polls. `decode_results` is the last 200 entries since the
last reset. -/
theorem packet_feed_conserved (events : List FeedEvent) :
    responses {} events
        = (segments events).1.map (fun seg => (seg.rtake 1000).mapM packetLine) ∧
      ((segments events).1.map (List.rtake · 1000)).flatten.Sublist (arrivals events) ∧
      ((∀ seg ∈ (segments events).1, seg.length ≤ 1000) →
        ((segments events).1.map (List.rtake · 1000)).flatten ++ (segments events).2
          = arrivals events) ∧
      (Machine.after feedStep {} events).decodeResults = (sinceReset events).rtake 200 := by
  refine ⟨responses_eq events, ?_, ?_, (feed_after events).results⟩
  · rw [← segments_flatten]
    exact (List.flatten_map_sublist (List.rtake_sublist 1000) _).trans
      (List.sublist_append_left _ _)
  · intro bounded
    have whole : (segments events).1.map (List.rtake · 1000) = (segments events).1 := by
      conv_rhs => rw [← List.map_id (segments events).1]
      exact List.map_congr_left fun seg mem => List.rtake_of_length_le (bounded seg mem)
    rw [whole, segments_flatten]

/-! ## A failing poll -/

/-- The payload value is one of the entry's number of bytes. -/
def DecodeEntry.Fits (e : DecodeEntry) : Prop :=
  ∀ pv, e.payloadVal = some pv → 0 < e.payloadBytes.getD 0 →
    (e.payloadBytes.getD 0).toNat ≤ Py.ssizeMax ∧ 0 ≤ pv ∧
      pv.toNat < 256 ^ (e.payloadBytes.getD 0).toNat

theorem Py.toBytes_ok_iff (v : Int) (n : Nat) :
    (∃ bytes, Py.toBytes v n = .ok bytes) ↔ n ≤ Py.ssizeMax ∧ 0 ≤ v ∧ v.toNat < 256 ^ n := by
  simp [Py.toBytes_eq_ok_iff]

/-- An entry is serialised exactly when its payload fits. -/
theorem packetLine_ok_iff (e : DecodeEntry) : (∃ line, packetLine e = .ok line) ↔ e.Fits := by
  have serialised : (∃ line, packetLine e = .ok line) ↔ ∃ b64, e.payloadB64 = .ok b64 := by
    unfold packetLine
    cases e.payloadB64 <;> simp [Except.map]
  rw [serialised]
  unfold DecodeEntry.payloadB64 DecodeEntry.Fits
  cases e.payloadVal with
  | none => simp
  | some pv =>
    simp only
    split_ifs with some_bytes
    · have converted := Py.toBytes_ok_iff pv (e.payloadBytes.getD 0).toNat
      simp only [Option.some.injEq, forall_eq', some_bytes, true_implies]
      rw [← converted]
      cases Py.toBytes pv (e.payloadBytes.getD 0).toNat <;> simp [Except.map]
    · simp [some_bytes]

/-- The first entry that does not fit decides the fate of a poll. -/
theorem poll_ok_iff (feed : List DecodeEntry) :
    (∃ lines, feed.mapM packetLine = .ok lines) ↔ ∀ e ∈ feed, e.Fits := by
  induction feed with
  | nil => simp [pure, Except.pure]
  | cons e feed ih =>
    rw [List.forall_mem_cons, ← ih, ← packetLine_ok_iff, List.mapM_cons]
    cases packetLine e with
    | error err => simp [bind, Except.bind]
    | ok line =>
      cases feed.mapM packetLine <;> simp [bind, Except.bind, pure, Except.pure]

/-- **When a failing poll loses nothing.** For every content of the feed: a poll that raises leaves
the entries it found, exactly when every payload value fits its number of bytes, so that no poll
raises. -/
theorem failing_poll_iff (s : SharedState) :
    (∀ err, (apiPackets s).2 = .error err → s.packetFeed.Sublist (apiPackets s).1.packetFeed) ↔
      ∀ e ∈ s.packetFeed, e.Fits := by
  rw [← poll_ok_iff]
  constructor
  · intro kept
    cases polled : s.packetFeed.mapM packetLine with
    | ok lines => exact ⟨lines, rfl⟩
    | error err =>
      have gone : s.packetFeed = [] := List.sublist_nil.1 (kept err polled)
      rw [gone] at polled
      cases polled
  · rintro ⟨lines, polled⟩ err failed
    have same : s.packetFeed.mapM packetLine = .error err := failed
    rw [polled] at same
    cases same

def feedEntry (payloadVal payloadBytes : Option Int) : DecodeEntry where
  timestamp := "12:00:00"
  unixTs := 0
  phyVer := 1
  ntwId := 7
  ntwIdHex := "0x7"
  seqNum := 1
  authTag := none
  energyDB := 0
  chipset := "A"
  channelNum := none
  freqDeltaHz := none
  payloadVal := payloadVal
  payloadBytes := payloadBytes

/-- A value of two bytes reported as one: the poll raises, and the entry in front of it is gone too. -/
theorem failing_poll_loses :
    (apiPackets { packetFeed := [feedEntry (some 5) (some 1), feedEntry (some 256) (some 1)] }).2
        = .error (.overflowError "int too big to convert") ∧
      ¬[feedEntry (some 5) (some 1), feedEntry (some 256) (some 1)].Sublist
        (apiPackets { packetFeed := [feedEntry (some 5) (some 1), feedEntry (some 256) (some 1)] }).1.packetFeed := by
  refine ⟨by rfl, ?_⟩
  intro kept
  exact absurd (List.sublist_nil.1 kept) (List.cons_ne_nil _ _)

end StreamWeb

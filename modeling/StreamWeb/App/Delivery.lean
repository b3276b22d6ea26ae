import StreamWeb.App.PacketPath

/-!
# From the air to the clients

The decode windows list a transmission several times, `recent_decodes` drops
the repeats, and the entries of what is left go their way to a poll.
`clients_hear` follows the de-duplication's reports to the clients, and
`transmissions_delivered` puts the two together: once all entries are through,
the clients have heard of each transmission once, under the condition on the
packet lists under which the de-duplication reports it once.
-/

namespace StreamWeb

open Processor PacketPath

def PathStep.decoded? : PathStep → Option Decoded
  | .cycle d => some d
  | _ => none

/-- The processor's cycles of a run. -/
def decodedOf (steps : List PathStep) : List Decoded := steps.filterMap PathStep.decoded?

def cyclesOf (steps : List PathStep) : List Cycle := (decodedOf steps).map Decoded.cycle

/-- What an entry says was on air, by the clock of the cycles; the wall clock is ahead by `offset`. -/
def DecodeEntry.report (offset : ℚ) (e : DecodeEntry) : Option Report :=
  e.rxStartUnixTs.map fun started => ⟨(some e.ntwId, e.authTag, e.payloadVal), started - offset⟩

/-- The two clocks of a cycle go together, and its packets have what an entry is made of. -/
structure MakesEntries (K : DecoderConstants) (smoothed : Nat → List Sample → List ℚ) (offset : ℚ) (d : Decoded) :
    Prop where
  clocks : d.clocks.wallT0 = d.cycle.t0 + offset
  entries : ∀ pkt ∈ d.cycle.packets, ∃ e, decodeEntry K smoothed d.decodeChunk d.clocks pkt = some e

/-- No entry is on its way. -/
structure Through (s : PacketPath) : Prop where
  queue : s.reported = []
  drain : s.inHand = none
  feed : s.app.packetFeed = []

section Run

variable {K : DecoderConstants} {smoothed : Nat → List Sample → List ℚ} {annotated : Bool} {offset : ℚ}

theorem report_decodeEntry {decodeChunk : List Sample} {clocks : Clocks} {t0 : ℚ} {pkt : Packet} {e : DecodeEntry}
    (clock : clocks.wallT0 = t0 + offset) (made : decodeEntry K smoothed decodeChunk clocks pkt = some e) :
    e.report offset = some (report t0 pkt) := by
  obtain ⟨ntwId, has_id, made⟩ := Option.bind_eq_some_iff.1 made
  obtain ⟨timing, -, made⟩ := Option.bind_eq_some_iff.1 made
  obtain ⟨seqNum, -, made⟩ := Option.bind_eq_some_iff.1 made
  cases Option.some.inj made
  rw [DecodeEntry.report, Option.map_some, report, decodeKey, startT, startTWith, has_id, clock]
  congr 2
  ring

/-- The entries of a cycle say what its de-duplication reports. -/
theorem report_decodeEntries {d : Decoded} (sound : MakesEntries K smoothed offset d) {packets : List Packet}
    (listed : packets ⊆ d.cycle.packets) :
    ∃ entries, decodeEntries K smoothed d.decodeChunk d.clocks packets = some entries ∧
      entries.map (DecodeEntry.report offset) = (packets.map (report d.cycle.t0)).map some := by
  induction packets with
  | nil => exact ⟨[], rfl, rfl⟩
  | cons pkt packets ih =>
    obtain ⟨e, made⟩ := sound.entries pkt (listed List.mem_cons_self)
    obtain ⟨entries, are_made, reports⟩ := ih fun pkt mem => listed (List.mem_cons_of_mem _ mem)
    refine ⟨e :: entries, ?_, ?_⟩
    · rw [decodeEntries] at are_made ⊢
      rw [List.mapM_cons, made, are_made]
      rfl
    · rw [List.map_cons, reports, report_decodeEntry sound.clocks made, List.map_cons, List.map_cons]

variable (K smoothed annotated)

/-- A step that is no cycle makes no entries and forgets no packet. -/
theorem step_of_not_cycle (s : PacketPath) {e : PathStep} (other : e.decoded? = none) :
    (s.step K smoothed annotated e).1.recentDecodes = s.recentDecodes ∧
      (s.step K smoothed annotated e).2.made = [] := by
  cases e with
  | cycle d => cases other
  | render | poll | reset => exact ⟨rfl, rfl⟩
  | take | takeRendered | submit | update =>
    unfold PacketPath.step
    dsimp only
    split <;> exact ⟨rfl, rfl⟩
  | post a => cases a <;> exact ⟨rfl, rfl⟩

/-- A cycle that makes its entries. -/
theorem step_cycle (s : PacketPath) {d : Decoded} {entries : List DecodeEntry}
    (are_made : decodeEntries K smoothed d.decodeChunk d.clocks (dedupCycle s.recentDecodes d.cycle).2
      = some entries) :
    (s.step K smoothed annotated (.cycle d)).1.recentDecodes = (dedupCycle s.recentDecodes d.cycle).1 ∧
      (s.step K smoothed annotated (.cycle d)).2.made = entries := by
  unfold PacketPath.step
  dsimp only
  rw [are_made]
  exact ⟨rfl, rfl⟩

/-- **The entries of a run** say what the de-duplication reports. -/
theorem report_made (steps : List PathStep) (sound : ∀ d ∈ decodedOf steps, MakesEntries K smoothed offset d)
    (s : PacketPath) :
    (made (Machine.outputs (PacketPath.step K smoothed annotated) s steps)).map (DecodeEntry.report offset)
      = (reportedFrom s.recentDecodes (cyclesOf steps)).map some := by
  induction steps generalizing s with
  | nil => rfl
  | cons e steps ih =>
    rw [Machine.outputs, made, List.flatMap_cons, ← made, List.map_append]
    by_cases cycle : ∃ d, e = .cycle d
    · obtain ⟨d, rfl⟩ := cycle
      have here := sound d List.mem_cons_self
      obtain ⟨entries, are_made, reports⟩ :=
        report_decodeEntries here (dedupCycle_subset _ d.cycle)
      obtain ⟨kept, new⟩ := step_cycle K smoothed annotated s are_made
      have later := ih (fun d' mem => sound d' (List.mem_cons_of_mem _ mem))
        (s.step K smoothed annotated (.cycle d)).1
      rw [later, kept, new, reports, ← List.map_append]
      rfl
    · have other : e.decoded? = none := by
        cases e with
        | cycle d => exact absurd ⟨d, rfl⟩ cycle
        | render | take | takeRendered | submit | update | poll | reset | post => rfl
      have rest : decodedOf (e :: steps) = decodedOf steps := List.filterMap_cons_none other
      obtain ⟨kept, quiet⟩ := step_of_not_cycle K smoothed annotated s other
      rw [rest] at sound
      rw [ih sound, kept, quiet, cyclesOf, cyclesOf, rest]
      rfl

/-- A response has a line for every entry. -/
theorem length_of_mapM_packetLine {entries : List DecodeEntry} {lines : List PacketLine}
    (answer : entries.mapM packetLine = .ok lines) : lines.length = entries.length := by
  induction entries generalizing lines with
  | nil =>
    cases answer
    rfl
  | cons e entries ih =>
    rw [List.mapM_cons] at answer
    cases first : packetLine e with
    | error err =>
      rw [first] at answer
      cases answer
    | ok line =>
      cases rest : entries.mapM packetLine with
      | error err =>
        rw [first, rest] at answer
        cases answer
      | ok later =>
        rw [first, rest] at answer
        cases answer
        rw [List.length_cons, List.length_cons, ih rest]

/-- **What the clients hear** when all entries are through is what the de-duplication reported, in order. -/
theorem clients_hear (steps : List PathStep) (sound : ∀ d ∈ decodedOf steps, MakesEntries K smoothed offset d)
    (through : Through (run K smoothed annotated steps))
    (answered : ∀ response ∈ polls (notes K smoothed annotated steps),
      ∃ lines, response = .ok lines ∧ lines.length < 1000) :
    ∃ taken : List (List DecodeEntry),
      polls (notes K smoothed annotated steps) = taken.map (fun entries => entries.mapM packetLine) ∧
      taken.flatten.map (DecodeEntry.report offset) = (reported (cyclesOf steps)).map some := by
  obtain ⟨events, posts, h⟩ : ∃ events posts, Follows annotated (notes K smoothed annotated steps)
      (run K smoothed annotated steps) events posts := follows_run K smoothed steps
  obtain ⟨taken, responses, -, whole⟩ := polled_of_events events
  have polled := h.polls.trans responses
  rw [← h.app, through.feed, List.append_nil] at whole
  have short : ∀ entries ∈ taken, entries.length < 1000 := by
    intro entries mem
    obtain ⟨lines, answer, few⟩ := answered (entries.mapM packetLine) (by
      rw [polled]
      exact List.mem_map_of_mem mem)
    rwa [← length_of_mapM_packetLine answer]
  refine ⟨taken, polled, ?_⟩
  have idle : (run K smoothed annotated steps).handed ++ (run K smoothed annotated steps).waiting = [] := by
    rw [handed, waiting, through.drain, through.queue]
    rfl
  rw [whole short (by simp), ← List.append_nil (arrivals events), ← idle, ← h.made]
  exact report_made K smoothed annotated steps sound {}

end Run

/-- **Every transmission reaches the clients once.** In every run in which the cycles list what lies in
their windows and make their entries, and at the end of which all entries are through: every entry that a
client has got tells of a transmission, and the clients have got at most one for each transmission, and
one if it ended between the first and the last cycle, exactly when two consecutive cycles that both list a
transmission list no other of its key behind it in the earlier list or in front of it in the later. -/
theorem transmissions_delivered (K : DecoderConstants) (smoothed : Nat → List Sample → List ℚ) (annotated : Bool)
    (steps : List PathStep) (air : Set Transmission) (longest offset : ℚ)
    (listening : Listening air longest (cyclesOf steps))
    (sound : ∀ d ∈ decodedOf steps, MakesEntries K smoothed offset d)
    (through : Through (run K smoothed annotated steps))
    (answered : ∀ response ∈ polls (notes K smoothed annotated steps),
      ∃ lines, response = .ok lines ∧ lines.length < 1000) :
    ∃ taken : List (List DecodeEntry),
      polls (notes K smoothed annotated steps) = taken.map (fun entries => entries.mapM packetLine) ∧
      (∀ e ∈ taken.flatten, ∃ a ∈ air, e.report offset = some a.report) ∧
      ((∀ a ∈ air,
          (taken.flatten.map (DecodeEntry.report offset)).count (some a.report) ≤ 1 ∧
          (EndsDuring (cyclesOf steps) a →
            (taken.flatten.map (DecodeEntry.report offset)).count (some a.report) = 1)) ↔
        ∀ a ∈ air, ((cyclesOf steps).map Cycle.reports).IsChain (Changes.InOrder Report.key a.report)) := by
  obtain ⟨taken, polled, heard⟩ := clients_hear K smoothed annotated steps sound through answered
  refine ⟨taken, polled, ?_, ?_⟩
  · intro e mem
    have said := List.mem_map_of_mem (f := DecodeEntry.report offset) mem
    rw [heard, listening.reported_eq_kept] at said
    obtain ⟨r, kept, same⟩ := List.mem_map.1 said
    obtain ⟨reports, cycle, shown⟩ := List.mem_flatten.1 ((Changes.kept_sublist _).subset kept)
    obtain ⟨c, is_cycle, rfl⟩ := List.mem_map.1 cycle
    obtain ⟨a, on_air, -, rfl⟩ := (listening.decoded c is_cycle r).1 shown
    exact ⟨a, on_air, same.symm⟩
  · rw [heard]
    apply forall₂_congr
    intro a on_air
    rw [List.count_map_of_injective _ _ (Option.some_injective _)]
    by_cases listed : ∃ c ∈ cyclesOf steps, a.Within c.t0
    · obtain ⟨c, is_cycle, inside⟩ := listed
      have pos := listening.count_pos on_air is_cycle inside
      rw [← listening.count_reported on_air is_cycle inside]
      constructor
      · intro atMost
        omega
      · intro once
        exact ⟨once.le, fun _ => once⟩
    · obtain ⟨zero, ordered⟩ := listening.count_unlisted on_air listed
      constructor
      · exact fun _ => ordered
      · intro _
        refine ⟨by omega, ?_⟩
        intro ends
        exact absurd (listening.listed on_air ends) listed

/-- The wall clock is a thousand seconds ahead. -/
def decodedCycle (cycle : Cycle) : Decoded where
  cycle
  clocks := ⟨"12:00:00", cycle.t0 + 1000, cycle.t0 + 1000⟩
  decodeChunk := []
  rest := {}

/-- Three cycles, and the drain thread and a client behind them. -/
def threeCycleRun : List PathStep :=
  (threeCycles [packetAt 0, packetAt (11 / 10)]).map (fun c => .cycle (decodedCycle c)) ++
    [.take, .update, .take, .update, .poll, .take, .update, .poll]

def noSymbols : DecoderConstants := ⟨0, 0, 0, fun _ => none, 0⟩

theorem transmissions_delivered_in_order :
    ∃ taken : List (List DecodeEntry),
      polls (notes noSymbols (fun _ _ => []) false threeCycleRun)
        = taken.map (fun entries => entries.mapM packetLine) ∧
      (taken.flatten.map (DecodeEntry.report 1000)).count (some early.report) = 1 := by
  have sound : ∀ d ∈ decodedOf threeCycleRun, MakesEntries noSymbols (fun _ _ => []) 1000 d := by
    intro d mem
    have mem : d ∈ (threeCycles [packetAt 0, packetAt (11 / 10)]).map decodedCycle := mem
    obtain ⟨c, cycle, rfl⟩ := List.mem_map.1 mem
    refine ⟨rfl, ?_⟩
    intro pkt listed
    have made : ∃ time, pkt = packetAt time := by
      simp only [threeCycles, List.mem_cons, List.not_mem_nil, or_false] at cycle
      rcases cycle with rfl | rfl | rfl <;> simp [decodedCycle] at listed <;> grind
    obtain ⟨time, rfl⟩ := made
    exact ⟨_, rfl⟩
  have through : Through (run noSymbols (fun _ _ => []) false threeCycleRun) := by
    constructor
    · exact List.isEmpty_iff.1 (by decide +kernel)
    · exact Option.isNone_iff_eq_none.1 (by decide +kernel)
    · exact List.isEmpty_iff.1 (by decide +kernel)
  have lengths : (polls (notes noSymbols (fun _ _ => []) false threeCycleRun)).map
      (fun response => response.toOption.map List.length) = [some 1, some 1] := by
    decide +kernel
  have answered : ∀ response ∈ polls (notes noSymbols (fun _ _ => []) false threeCycleRun),
      ∃ lines, response = .ok lines ∧ lines.length < 1000 := by
    intro response mem
    have length := List.mem_map_of_mem (f := fun response => response.toOption.map List.length) mem
    rw [lengths] at length
    cases response with
    | error err => simp [Except.toOption] at length
    | ok lines => exact ⟨lines, rfl, by simp [Except.toOption] at length; omega⟩
  obtain ⟨taken, polled, -, once⟩ := transmissions_delivered noSymbols (fun _ _ => []) false threeCycleRun
    {early, late} (1 / 2) 1000 (listening_threeCycles (.inl rfl)) sound through answered
  have ordered : ∀ a ∈ ({early, late} : Set Transmission),
      ((cyclesOf threeCycleRun).map Cycle.reports).IsChain (Changes.InOrder Report.key a.report) := by
    rintro a (rfl | rfl) <;> decide +kernel
  have ends : EndsDuring (cyclesOf threeCycleRun) early := by
    have same : cyclesOf threeCycleRun = threeCycles [packetAt 0, packetAt (11 / 10)] := rfl
    rw [same]
    norm_num [EndsDuring, threeCycles, early, Transmission.stop]
  exact ⟨taken, polled, (once.2 ordered early (.inl rfl)).2 ends⟩

end StreamWeb

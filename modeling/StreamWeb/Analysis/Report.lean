import Mathlib.Algebra.Order.WithTop.Untop0
import Mathlib.Data.Prod.Lex
import StreamWeb.Analysis.ExactlyOnce
import StreamWeb.Np
import StreamWeb.Py.Rounding

/-!
# The report on a recording

`analyze_recording` has every packet of the recording measured by the decoder
package, picks the healthiest as the representative and lists all of them.
`report_complete` follows the transmissions of a recording into the report:
each has its line, in order of time, and the representative is the first of the
best.
-/

/-- What `List.argmax` returns, in its place. -/
theorem List.exists_split_of_argmax {α β : Type*} [LinearOrder β] {f : α → β} {l : List α} {m : α}
    (largest : l.argmax f = some m) :
    ∃ before after, l = before ++ m :: after ∧ (∀ a ∈ before, f a < f m) ∧ ∀ a ∈ after, f a ≤ f m := by
  induction l using List.reverseRecOn generalizing m with
  | nil => cases largest
  | append_singleton l a ih =>
    rw [List.argmax_concat] at largest
    cases earlier : l.argmax f with
    | none =>
      rw [earlier] at largest
      cases largest
      rw [List.argmax_eq_none] at earlier
      subst earlier
      exact ⟨[], [], rfl, by simp, by simp⟩
    | some c =>
      simp only [earlier] at largest
      obtain ⟨before, after, rfl, less, atMost⟩ := ih earlier
      split at largest
      next more =>
        cases largest
        refine ⟨before ++ c :: after, [], rfl, ?_, by simp⟩
        intro b mem
        rcases List.mem_append.1 mem with front | back
        · exact (less b front).trans more
        · rcases List.mem_cons.1 back with rfl | behind
          · exact more
          · exact (atMost b behind).trans_lt more
      next not_more =>
        cases largest
        refine ⟨before, after ++ [a], by simp, less, ?_⟩
        intro b mem
        rcases List.mem_append.1 mem with behind | last
        · exact atMost b behind
        · rw [List.mem_singleton.1 last]
          exact not_lt.1 not_more

namespace StreamWeb.Analysis

open Config

/-! ## The decoder package's analysis -/

structure PacketTiming where
  symMeanMs : Option ℚ
  gapMeanMs : Option ℚ
  totalDriftUs : Option ℚ
  perSymbol : List Py.Dict := []

structure PacketAmplitude where
  meanDbfs : Option ℚ
  snrDb : Option ℚ
  perSymbol : List Py.Dict := []

/-- What `analyze_packet` returns. -/
structure PacketAnalysis where
  chipset : Py.Dict := []
  timing : PacketTiming
  amplitude : PacketAmplitude
  channels : Option Py.Dict := none
  hops : Option Py.Dict := none

/-! ## The report -/

structure RsCorrections where
  headerMean : Option ℚ
  pduMean : Option ℚ
  pduMax : Option Int

structure PacketInfo where
  absTimeS : ℚ
  channelNum : Option Int
  chipset : Option String

structure PacketRow extends PacketInfo where
  symMeanMs : Option ℚ
  gapMeanMs : Option ℚ
  totalDriftUs : Option ℚ
  ampMeanDbfs : Option ℚ
  snrDb : Option ℚ

structure Representative where
  info : PacketInfo
  timing : PacketTiming
  amplitude : PacketAmplitude
  channels : Option Py.Dict
  hops : Option Py.Dict

/-- The keys that are absent or `None` when there is no packet. -/
structure Findings where
  rsCorrections : RsCorrections
  chipset : Py.Dict
  freqDeltaHz : Option ℚ
  representative : Representative

structure AnalysisReport where
  /-- `summary["packets"]` -/
  count : Nat
  findings : Option Findings
  packets : List PacketRow

/-- `round(float(np.mean(xs)), 2) if xs else None` -/
def roundedMeanOf (xs : List Int) : Option ℚ :=
  if xs = [] then none else some (Py.roundTo 2 (Np.mean (xs.map Int.cast)))

/-- `_rs_corrections` -/
def rsCorrections (packets : List DecodedPacket) : RsCorrections :=
  let hdr := packets.filterMap fun p => p.packet.headerNCorr
  let pdu := packets.filterMap fun p => p.packet.pduNCorr
  ⟨roundedMeanOf hdr, roundedMeanOf pdu, pdu.max?⟩

/-- `_packet_info` -/
def packetInfo (pkt : DecodedPacket) : PacketInfo :=
  ⟨Py.roundTo 4 pkt.absTimeS, pkt.packet.channelNum, pkt.packet.chipset⟩

/-- `_packet_line` -/
def packetLine (pkt : DecodedPacket) (timing : PacketTiming) (amplitude : PacketAmplitude) : PacketRow where
  toPacketInfo := packetInfo pkt
  symMeanMs := timing.symMeanMs
  gapMeanMs := timing.gapMeanMs
  totalDriftUs := timing.totalDriftUs
  ampMeanDbfs := amplitude.meanDbfs
  snrDb := amplitude.snrDb

/-- A packet and its analysis. -/
abbrev Analyzed := DecodedPacket × PacketAnalysis

/-- `_quality`: the SNR, `-inf` for none, and then the length. -/
def quality (p : Analyzed) : WithBot ℚ ×ₗ Nat :=
  toLex ((p.2.amplitude.snrDb : WithBot ℚ), p.1.packet.numPduSymbols.getD 0)

section Recording

variable (K : DecoderConstants) (tools : Tools) (analyzePacket : List Sample → DecodedPacket → Option PacketAnalysis)
  (iq : List Sample)

/-- `analyze_recording`; `none` for an exception. -/
def analyzeRecording : Option AnalysisReport := do
  let packets ← decodePackets K tools iq
  if packets = [] then return ⟨0, none, []⟩
  let analyses ← packets.mapM (analyzePacket iq)
  let analyzed := packets.zip analyses
  let rep ← analyzed.argmax quality
  return {
    count := packets.length
    findings := some {
      rsCorrections := rsCorrections packets
      chipset := rep.2.chipset
      freqDeltaHz := rep.1.packet.freqDeltaHz.map (Py.roundTo 1)
      representative := ⟨packetInfo rep.1, rep.2.timing, rep.2.amplitude, rep.2.channels, rep.2.hops⟩ }
    packets := analyzed.map fun p => packetLine p.1 p.2.timing p.2.amplitude }

/-- The corrections over the packets that have a number. -/
structure RsRight (packets : List DecodedPacket) (rs : RsCorrections) : Prop where
  header : ∀ mean, rs.headerMean = some mean →
    |mean - Np.mean ((packets.filterMap fun p => p.packet.headerNCorr).map Int.cast)| ≤ 1 / 200
  pdu : ∀ mean, rs.pduMean = some mean →
    |mean - Np.mean ((packets.filterMap fun p => p.packet.pduNCorr).map Int.cast)| ≤ 1 / 200
  pduMax : ∀ top, rs.pduMax = some top ↔
    IsGreatest {n | ∃ p ∈ packets, p.packet.pduNCorr = some n} top

/-- What the findings say of the packets. -/
structure FindingsRight (analyzed : List Analyzed) (f : Findings) : Prop where
  /-- The representative is the first of the best. -/
  representative : ∃ before rep after, analyzed = before ++ rep :: after ∧
    (∀ p ∈ before, quality p < quality rep) ∧ (∀ p ∈ after, quality p ≤ quality rep) ∧
    f.representative = ⟨packetInfo rep.1, rep.2.timing, rep.2.amplitude, rep.2.channels, rep.2.hops⟩ ∧
    f.chipset = rep.2.chipset ∧ f.freqDeltaHz = rep.1.packet.freqDeltaHz.map (Py.roundTo 1)
  rs : RsRight (analyzed.map Prod.fst) f.rsCorrections

/-- A report on the packets, with one line for each. -/
structure ReportRight (analyzed : List Analyzed) (r : AnalysisReport) : Prop where
  count : r.count = analyzed.length
  packets : r.packets = analyzed.map fun p => packetLine p.1 p.2.timing p.2.amplitude
  none : r.findings = none ↔ analyzed = []
  findings : ∀ f, r.findings = some f → FindingsRight analyzed f

variable {K tools analyzePacket iq}

theorem roundedMeanOf_near {xs : List Int} {mean : ℚ} (isMean : roundedMeanOf xs = some mean) :
    |mean - Np.mean (xs.map Int.cast)| ≤ 1 / 200 := by
  unfold roundedMeanOf at isMean
  split at isMean
  next => cases isMean
  next =>
    cases isMean
    have rounded := Py.abs_roundTo_sub 2 (Np.mean (xs.map Int.cast))
    norm_num at rounded ⊢
    exact rounded

theorem rsRight_rsCorrections (packets : List DecodedPacket) : RsRight packets (rsCorrections packets) := by
  refine ⟨fun _ => roundedMeanOf_near, fun _ => roundedMeanOf_near, ?_⟩
  intro top
  have members : ∀ n, n ∈ (packets.filterMap fun p => p.packet.pduNCorr) ↔
      ∃ p ∈ packets, p.packet.pduNCorr = some n := fun n => List.mem_filterMap
  rw [rsCorrections, List.max?_eq_some_iff, members]
  refine and_congr_right fun _ => forall_congr' fun n => ?_
  rw [members]
  rfl

/-- The analyses stand beside their packets. -/
theorem mapM_zip {packets : List DecodedPacket} {analyses : List PacketAnalysis}
    (ran : packets.mapM (analyzePacket iq) = some analyses) :
    (packets.zip analyses).map Prod.fst = packets ∧
      ∀ p ∈ packets.zip analyses, analyzePacket iq p.1 = some p.2 := by
  induction packets generalizing analyses with
  | nil => simp
  | cons d packets ih =>
    rw [List.mapM_cons] at ran
    obtain ⟨a, analyzed, ran⟩ := Option.bind_eq_some_iff.1 ran
    obtain ⟨rest, others, ran⟩ := Option.bind_eq_some_iff.1 ran
    cases ran
    obtain ⟨firsts, each⟩ := ih others
    refine ⟨by rw [List.zip_cons_cons, List.map_cons, firsts], ?_⟩
    intro p mem
    rcases List.mem_cons.1 mem with rfl | later
    · exact analyzed
    · exact each p later

/-- What a report says, whatever the recording. -/
theorem reportRight_of_ran {r : AnalysisReport} (ran : analyzeRecording K tools analyzePacket iq = some r) :
    ∃ analyzed : List Analyzed, decodePackets K tools iq = some (analyzed.map Prod.fst) ∧
      (∀ p ∈ analyzed, analyzePacket iq p.1 = some p.2) ∧ ReportRight analyzed r := by
  obtain ⟨packets, decoded, ran⟩ := Option.bind_eq_some_iff.1 ran
  split at ran
  next empty =>
    cases ran
    subst empty
    exact ⟨[], decoded, by simp, rfl, rfl, by simp, by simp⟩
  next some_packet =>
    obtain ⟨analyses, ran_all, ran⟩ := Option.bind_eq_some_iff.1 ran
    obtain ⟨rep, best, ran⟩ := Option.bind_eq_some_iff.1 ran
    cases ran
    obtain ⟨firsts, each⟩ := mapM_zip ran_all
    obtain ⟨before, after, split, less, atMost⟩ := List.exists_split_of_argmax best
    refine ⟨packets.zip analyses, by rw [firsts, decoded], each, ?_, rfl, ?_, ?_⟩
    · conv_lhs => rw [← firsts]
      rw [List.length_map]
    · rw [split]
      simp
    · rintro f ⟨⟩
      refine ⟨⟨before, rep, after, split, less, atMost, rfl, rfl, rfl⟩, ?_⟩
      rw [firsts]
      exact rsRight_rsCorrections packets

/-- When every packet can be analysed, there is a report. -/
theorem analyzeRecording_isSome {packets : List DecodedPacket} (decoded : decodePackets K tools iq = some packets)
    (analyzes : ∀ d, (analyzePacket iq d).isSome) : ∃ r, analyzeRecording K tools analyzePacket iq = some r := by
  have all : ∀ ds : List DecodedPacket, ∃ as, ds.mapM (analyzePacket iq) = some as ∧ as.length = ds.length := by
    intro ds
    induction ds with
    | nil => exact ⟨[], rfl, rfl⟩
    | cons d ds ih =>
      obtain ⟨a, isA⟩ := Option.isSome_iff_exists.1 (analyzes d)
      obtain ⟨as, isAs, length⟩ := ih
      exact ⟨a :: as, by simp [List.mapM_cons, isA, isAs], by simp [length]⟩
  unfold analyzeRecording
  rw [decoded]
  obtain ⟨as, isAs, length⟩ := all packets
  simp only [Option.bind_eq_bind, Option.bind_some, isAs]
  split
  next => exact ⟨_, rfl⟩
  next some_packet =>
    cases best : (packets.zip as).argmax quality with
    | some rep => exact ⟨_, rfl⟩
    | none =>
      rw [List.argmax_eq_none, ← List.length_eq_zero_iff, List.length_zip, length, min_self,
        List.length_eq_zero_iff] at best
      exact absurd best some_packet

end Recording

/-- **Every transmission is in the report.** For every recording of transmissions that can be recovered, and
every decoder that answers each window with its transmissions in some order: there is a report, its lines
are those of the transmissions, each once, in order of time and each with the analysis of its own packet,
the representative is the first of those with the best SNR and then the most symbols, and the corrections
are over all packets. -/
theorem report_complete (K : DecoderConstants) (tools : Tools)
    (analyzePacket : List Sample → DecodedPacket → Option PacketAnalysis) (iq : List Sample)
    (txs : List Transmission) (air : OnAir iq.length txs) (slots : tools.SlotsLong) (answers : Answers tools iq txs)
    (recoverable : Recoverable iq.length txs) (analyzes : ∀ d, (analyzePacket iq d).isSome) :
    ∃ r analyzed, analyzeRecording K tools analyzePacket iq = some r ∧
      (analyzed.map fun p : Analyzed => p.1.report).Perm (txs.map Transmission.report) ∧
      analyzed.Pairwise (fun p q => p.1.absStart ≤ q.1.absStart) ∧
      (∀ p ∈ analyzed, analyzePacket iq p.1 = some p.2) ∧ ReportRight analyzed r := by
  obtain ⟨ds, decoded, once⟩ := recoverable.exactlyOnce (K := K) air slots answers
  obtain ⟨r, ran⟩ := analyzeRecording_isSome decoded analyzes
  obtain ⟨analyzed, decoded', each, right⟩ := reportRight_of_ran ran
  cases Option.some.inj (decoded'.symm.trans decoded)
  obtain ⟨entries, sorted⟩ := once
  rw [List.map_map] at entries
  rw [List.pairwise_map] at sorted
  exact ⟨r, analyzed, ran, entries, sorted, each, right⟩

/-- An analysis that knows the SNR only. -/
def loud (_ : List Sample) (_ : DecodedPacket) : Option PacketAnalysis :=
  some { timing := ⟨none, none, none, []⟩, amplitude := ⟨none, some 20, []⟩ }

/-- Two packets of a device, half a second each. -/
theorem report_complete_following :
    ∃ r, analyzeRecording protocol (inOrder [first, following]) loud (numbered 1171875) = some r ∧ r.count = 2 := by
  have separated : Separated 1171875 [first, following] := by
    intro o window a ha b hb insideA insideB
    simp only [List.mem_cons, List.not_mem_nil, or_false] at ha hb
    rcases ha with rfl | rfl <;> rcases hb with rfl | rfl <;> decide
  have air := onAir_pair following (.inr rfl)
  have onAir : OnAir (numbered 1171875).length [first, following] := by rwa [length_numbered]
  have recoverable : Recoverable (numbered 1171875).length [first, following] := by
    rw [length_numbered]
    exact separated.recoverable air (by decide) (by decide +kernel)
  obtain ⟨r, analyzed, ran, lines, -, -, right⟩ := report_complete protocol (inOrder [first, following]) loud
    (numbered 1171875) [first, following] onAir scripted_slotsLong inOrder_answers recoverable fun _ => rfl
  refine ⟨r, ran, ?_⟩
  have length := lines.length_eq
  rw [List.length_map] at length
  rw [right.count, length]
  rfl

end StreamWeb.Analysis

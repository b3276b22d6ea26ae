import StreamWeb.Hitl.Annotation
import StreamWeb.Processor.Dedup
import StreamWeb.Spectrum.TdPlot

/-!
# What the processor reports about a packet

A cycle turns the packets it kept into `decode_entries`: the device's number in
hexadecimal, the time the packet started on air, and the timing statistics of
its corrected edges. A packet without the keys that are read with `[]`, or one
the tracker fails on, ends the process: no list is made of the cycle.
-/

namespace StreamWeb.Processor

open Config

/-- `f"0x{v:0wX}"` -/
def hexId (w : Nat) (v : Int) : String :=
  String.ofList ('0' :: 'x' :: (Py.hexPadded w v).toList.map Char.toUpper)

/-- `ntw_hex` -/
def ntwHex (ver ntwId : Int) : String := if ver = -1 then hexId 9 ntwId else hexId 8 ntwId

/-- What a cycle reads of the clocks: `ts`, `unix_ts` and `wall_t0`. -/
structure Clocks where
  ts : String
  unixTs : ℚ
  wallT0 : ℚ

section Entry

variable (K : DecoderConstants) (smoothed : Nat → List Sample → List ℚ) (decodeChunk : List Sample)

/-- `edges` of a packet with a start. -/
def packetEdges (pkt : Packet) (pktStart : Int) : Option (List (Int × Int)) :=
  let slot := K.slot pkt.phyVer
  let nSym := K.preambleLen + K.numHeaderSyms + pkt.numPduSymbols.getD 0
  Timing.correctSymbolEdges smoothed decodeChunk pktStart 0 nSym 0 slot K.samplesPerSymbol

/-- `timing`, where there is any. -/
def packetTiming (pkt : Packet) : Option (Option TdStats) :=
  match pkt.startSample with
  | none => some none
  | some pktStart =>
    (packetEdges K smoothed decodeChunk pkt pktStart).map fun edges =>
      if edges.isEmpty then none else some (edgesToTimingStats edges sampleRate)

/-- The entry of a packet. -/
def decodeEntry (clocks : Clocks) (pkt : Packet) : Option DecodeEntry := do
  let ntwId ← pkt.ntwId
  let timing ← packetTiming K smoothed decodeChunk pkt
  let seqNum ← pkt.seqNum
  some {
    timestamp := clocks.ts
    unixTs := clocks.unixTs
    rxStartUnixTs := some (clocks.wallT0 - (decodeWindowS - pkt.timeS.getD 0))
    phyVer := pkt.phyVer
    ntwId
    ntwIdHex := ntwHex pkt.phyVer ntwId
    seqNum
    authTag := pkt.authTag
    energyDB := Py.roundTo 1 pkt.totalEnergyDB
    chipset := pkt.chipset.getD ""
    channelNum := pkt.channelNum
    freqDeltaHz := pkt.freqDeltaHz
    payloadVal := pkt.payloadVal
    payloadBytes := pkt.payloadBytes
    headerNCorr := pkt.headerNCorr
    pduNCorr := pkt.pduNCorr
    numPduSymbols := pkt.numPduSymbols
    symCount := timing.map TdStats.symCount
    symMeanMs := timing.bind TdStats.symMeanMs
    symStdMs := timing.bind TdStats.symStdMs
    gapCount := timing.map TdStats.gapCount
    gapMeanMs := timing.bind TdStats.gapMeanMs
    gapStdMs := timing.bind TdStats.gapStdMs }

/-- `decode_entries` of a cycle. -/
def decodeEntries (clocks : Clocks) (packets : List Packet) : Option (List DecodeEntry) :=
  packets.mapM (decodeEntry K smoothed decodeChunk clocks)

end Entry

/-! ## The device's number -/

/-- How many digits a number is written with. -/
def idWidth (ver : Int) : Nat := if ver = -1 then 9 else 8

theorem ntwHex_eq (ver ntwId : Int) : ntwHex ver ntwId = hexId (idWidth ver) ntwId := by
  unfold ntwHex idWidth
  split <;> rfl

theorem nodup_upperDigits : (hexDigits.map Char.toUpper).Nodup := by
  decide

theorem toUpper_inj {c d : Char} (hc : c ∈ hexDigits) (hd : d ∈ hexDigits) (same : c.toUpper = d.toUpper) : c = d :=
  List.inj_on_of_nodup_map nodup_upperDigits hc hd same

theorem map_toUpper_inj {cs ds : List Char} (hc : ∀ c ∈ cs, c ∈ hexDigits) (hd : ∀ d ∈ ds, d ∈ hexDigits)
    (same : cs.map Char.toUpper = ds.map Char.toUpper) : cs = ds := by
  induction cs generalizing ds with
  | nil => exact (List.map_eq_nil_iff.1 same.symm).symm
  | cons c cs ih =>
    cases ds with
    | nil => cases same
    | cons d ds =>
      rw [List.map_cons, List.map_cons, List.cons.injEq] at same
      have head := toUpper_inj (hc c List.mem_cons_self) (hd d List.mem_cons_self) same.1
      have tail := ih (fun c mem => hc c (List.mem_cons_of_mem _ mem))
        (fun d mem => hd d (List.mem_cons_of_mem _ mem)) same.2
      rw [head, tail]

/-- A number of the digits it is written with. -/
def FitsId (ver ntwId : Int) : Prop := 0 ≤ ntwId ∧ ntwId.toNat < 16 ^ idWidth ver

theorem readsBack_ntwId {ver ntwId : Int} (fits : FitsId ver ntwId) :
    ReadsBack (Py.hexPadded (idWidth ver) ntwId) (idWidth ver) ntwId := by
  apply Py.readsBack_hexPadded _ fits.1 fits.2
  unfold idWidth
  split <;> omega

/-- **The device's number** as it is written tells its packets from any other's: of another number, and of
the other family of versions. -/
theorem ntwHex_inj {ver ver' ntwId ntwId' : Int} (fits : FitsId ver ntwId) (fits' : FitsId ver' ntwId') :
    ntwHex ver ntwId = ntwHex ver' ntwId' ↔ (ver = -1 ↔ ver' = -1) ∧ ntwId = ntwId' := by
  have reads := readsBack_ntwId fits
  have reads' := readsBack_ntwId fits'
  rw [ntwHex_eq, ntwHex_eq]
  constructor
  · intro same
    have lists := congrArg String.toList same
    rw [hexId, hexId, String.toList_ofList, String.toList_ofList, List.cons.injEq, List.cons.injEq] at lists
    have digits := map_toUpper_inj reads.digits reads'.digits lists.2.2
    constructor
    · have width : idWidth ver = idWidth ver' := by
        rw [← reads.length, ← reads'.length, ← String.length_toList, ← String.length_toList, digits]
      unfold idWidth at width
      split at width <;> split at width <;> omega
    · rw [← reads.value, ← reads'.value, digits]
  · rintro ⟨family, rfl⟩
    have width : idWidth ver = idWidth ver' := by
      unfold idWidth
      split <;> split <;> omega
    rw [width]

/-! ## An entry and its packet -/

/-- What an entry says of the packet of a cycle. -/
structure Reports (K : DecoderConstants) (smoothed : Nat → List Sample → List ℚ) (decodeChunk : List Sample)
    (clocks : Clocks) (pkt : Packet) (e : DecodeEntry) : Prop where
  ids : pkt.ntwId = some e.ntwId ∧ pkt.seqNum = some e.seqNum ∧ e.ntwIdHex = ntwHex pkt.phyVer e.ntwId
  payload : e.payloadVal = pkt.payloadVal ∧ e.payloadBytes = pkt.payloadBytes ∧ e.authTag = pkt.authTag
  /-- The statistics are those of the edges the tracker found, if it found any. -/
  timing : e.symCount = none ∨ ∃ pktStart edges stats, pkt.startSample = some pktStart ∧
    packetEdges K smoothed decodeChunk pkt pktStart = some edges ∧ Describes stats edges sampleRate ∧
    e.symCount = some stats.symCount ∧ e.symMeanMs = stats.symMeanMs ∧ e.symStdMs = stats.symStdMs ∧
    e.gapCount = some stats.gapCount ∧ e.gapMeanMs = stats.gapMeanMs ∧ e.gapStdMs = stats.gapStdMs
  /-- A packet that starts with sample `start` of the chunk started on air as long before `wallT0` as this
  sample lies before the end of the chunk. -/
  started : ∀ start : Nat, pkt.timeS = some ((start : ℚ) / sampleRate) →
    e.rxStartUnixTs = some (clocks.wallT0 - ((decodeSamples : ℚ) - start) / sampleRate)

theorem decodeEntry_reports {K : DecoderConstants} {smoothed : Nat → List Sample → List ℚ}
    {decodeChunk : List Sample} {clocks : Clocks} {pkt : Packet} {e : DecodeEntry}
    (made : decodeEntry K smoothed decodeChunk clocks pkt = some e) :
    Reports K smoothed decodeChunk clocks pkt e := by
  obtain ⟨ntwId, has_id, made⟩ := Option.bind_eq_some_iff.1 made
  obtain ⟨timing, timed, made⟩ := Option.bind_eq_some_iff.1 made
  obtain ⟨seqNum, has_seq, made⟩ := Option.bind_eq_some_iff.1 made
  cases Option.some.inj made
  refine ⟨⟨has_id, has_seq, rfl⟩, ⟨rfl, rfl, rfl⟩, ?_, ?_⟩
  · unfold packetTiming at timed
    split at timed
    next =>
      cases timed
      exact .inl rfl
    next pktStart start =>
      obtain ⟨edges, tracked, timed⟩ := Option.map_eq_some_iff.1 timed
      split at timed
      · cases timed
        exact .inl rfl
      · cases timed
        exact .inr ⟨pktStart, edges, edgesToTimingStats edges sampleRate, start, tracked,
          edgesToTimingStats_describes edges sampleRate, rfl, rfl, rfl, rfl, rfl, rfl⟩
  · intro start at_start
    dsimp only
    rw [at_start, Option.getD_some, decodeSamples_eq]
    norm_num [decodeWindowS, sampleRate]
    ring

/-- Every entry of a list reports a packet of it. -/
theorem decodeEntries_reports {K : DecoderConstants} {smoothed : Nat → List Sample → List ℚ}
    {decodeChunk : List Sample} {clocks : Clocks} {packets : List Packet} {entries : List DecodeEntry}
    (made : decodeEntries K smoothed decodeChunk clocks packets = some entries) {e : DecodeEntry}
    (mem : e ∈ entries) : ∃ pkt ∈ packets, Reports K smoothed decodeChunk clocks pkt e := by
  unfold decodeEntries at made
  induction packets generalizing entries with
  | nil =>
    cases made
    cases mem
  | cons pkt packets ih =>
    rw [List.mapM_cons] at made
    obtain ⟨first, is_first, made⟩ := Option.bind_eq_some_iff.1 made
    obtain ⟨later, are_later, made⟩ := Option.bind_eq_some_iff.1 made
    cases Option.some.inj made
    rcases List.mem_cons.1 mem with rfl | mem
    · exact ⟨pkt, List.mem_cons_self, decodeEntry_reports is_first⟩
    · obtain ⟨pkt', mem', reports⟩ := ih are_later mem
      exact ⟨pkt', List.mem_cons_of_mem _ mem', reports⟩

end StreamWeb.Processor

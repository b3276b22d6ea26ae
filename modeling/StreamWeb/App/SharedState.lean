import Mathlib.Data.List.DropRight
import StreamWeb.Config
import StreamWeb.Data

/-!
# The main process's state and its critical sections

`SharedState` is the part of the source's class of that name that lives in the
main process behind `state.lock`. Each operation below is one critical section
of it: `drainResult` of `_drain_results`, `mockAppend` of `_mock_injector`,
`apiReset` of `POST /api/reset` and the first half of `apiPackets`, whose
serialisation runs after the lock is released.
-/

namespace StreamWeb

structure SharedState where
  latestImg : Bytes := []
  latestDetections : List Packet := []
  decodeResults : List DecodeEntry := []
  packetFeed : List DecodeEntry := []
  decodeStats : DecodeStats := {}
  tdLatestImg : Bytes := []
  tdZoomLatestImg : Bytes := []
  tdStatus : String := ""
  tdDecodeInfo : Option Py.Dict := none
  tdIqSegment : Option (List Sample) := none
  chipsetStats : List (String × Py.Dict) := []

namespace SharedState

/-- The limit of `packet_feed`. -/
def maxPacketFeed : Nat := 1000

/-- `xs.extend(entries); xs[:] = xs[-n:]`. -/
def extendKeep (n : Nat) (xs entries : List DecodeEntry) : List DecodeEntry :=
  (xs ++ entries).rtake n

/-- `_drain_results`, the update of the state by one message. An empty image,
an empty list of entries and an empty statistics table are false in Python and
leave the old value; the other keys are guarded by `is not None`. -/
def drainResult (s : SharedState) (r : WorkerResult) : SharedState :=
  let entries := r.decodeEntries.getD []
  { latestImg := if (r.img.getD []).isEmpty then s.latestImg else r.img.getD []
    latestDetections := r.detections.getD s.latestDetections
    decodeResults :=
      if entries.isEmpty then s.decodeResults
      else extendKeep Config.maxDecodeHistory s.decodeResults entries
    packetFeed :=
      if entries.isEmpty then s.packetFeed
      else extendKeep maxPacketFeed s.packetFeed entries
    decodeStats := r.stats.getD s.decodeStats
    chipsetStats :=
      if (r.chipsetStats.getD []).isEmpty then s.chipsetStats else r.chipsetStats.getD []
    tdLatestImg := r.tdImg.getD s.tdLatestImg
    tdZoomLatestImg := r.tdZoomImg.getD s.tdZoomLatestImg
    tdStatus := r.tdStatus.getD s.tdStatus
    tdDecodeInfo := r.tdDecodeInfo.or s.tdDecodeInfo
    tdIqSegment := r.tdIqSegment.or s.tdIqSegment }

/-- `_mock_injector`, the update of the state by one synthetic entry. -/
def mockAppend (s : SharedState) (entry : DecodeEntry) : SharedState :=
  { s with
    packetFeed := extendKeep maxPacketFeed s.packetFeed [entry]
    decodeResults := extendKeep Config.maxDecodeHistory s.decodeResults [entry] }

/-- `POST /api/reset`, as far as it changes the main process's state. -/
def apiReset (s : SharedState) : SharedState :=
  { s with
    decodeResults := []
    decodeStats := { s.decodeStats with
      processTimeMs := 0, nDetections := 0, timestamp := ""
      tSpecMs := 0, tRenderMs := 0, tDecodeMs := 0 }
    chipsetStats := [] }

end SharedState

/-- One line of the response of `GET /api/packets`. -/
structure PacketLine where
  deviceId : String
  seqNum : Int
  authTag : Option Int
  phyVer : Option Int
  deviceType : String
  timestamp : ℚ
  rssiDB : Option ℚ
  channelNum : Option Int
  freqOffsetHz : Option ℚ
  payloadB64 : String
  pduNCorr : Option Int
  headerNCorr : Option Int
  symCount : Option Nat
  symMeanMs : Option ℚ
  symStdMs : Option ℚ
  gapCount : Option Nat
  gapMeanMs : Option ℚ
  gapStdMs : Option ℚ
  deriving DecidableEq

/-- `payload_b64` of an entry: empty without a payload, an exception when the
value does not fit its byte count. -/
def DecodeEntry.payloadB64 (e : DecodeEntry) : Except Py.Error String :=
  match e.payloadVal with
  | some pv =>
    if 0 < e.payloadBytes.getD 0 then
      (Py.toBytes pv (e.payloadBytes.getD 0).toNat).map Py.b64encode
    else .ok ""
  | none => .ok ""

/-- The body of the serialisation loop of `api_packets`. -/
def packetLine (e : DecodeEntry) : Except Py.Error PacketLine :=
  e.payloadB64.map fun payloadB64 =>
    { deviceId := e.ntwIdHex
      seqNum := e.seqNum
      authTag := e.authTag
      phyVer := some e.phyVer
      deviceType := e.chipset
      timestamp := e.unixTs
      rssiDB := some e.energyDB
      channelNum := e.channelNum
      freqOffsetHz := e.freqDeltaHz
      payloadB64
      pduNCorr := e.pduNCorr
      headerNCorr := e.headerNCorr
      symCount := e.symCount
      symMeanMs := e.symMeanMs
      symStdMs := e.symStdMs
      gapCount := e.gapCount
      gapMeanMs := e.gapMeanMs
      gapStdMs := e.gapStdMs }

/-- `GET /api/packets`: take the feed and clear it under the lock, then
serialise what was taken, entry by entry. -/
def apiPackets (s : SharedState) : SharedState × Except Py.Error (List PacketLine) :=
  ({ s with packetFeed := [] }, s.packetFeed.mapM packetLine)

end StreamWeb

import StreamWeb.Py

/-!
# Records that travel between the parts

The dictionaries of the source as structures: a key the source reads with
`get` is an `Option` field, a key it reads with `[]` is a plain one. Floats
are exact rationals.
-/

namespace StreamWeb

/-- One IQ sample (`np.complex64`). -/
structure Sample where
  re : ℚ
  im : ℚ
  deriving DecidableEq

instance : Zero Sample := ⟨⟨0, 0⟩⟩

/-- A decoded packet, as `decode_signal` returns it. -/
structure Packet where
  phyVer : Int
  ntwId : Option Int
  seqNum : Option Int
  authTag : Option Int
  payloadVal : Option Int := none
  payloadBytes : Option Int := none
  timeS : Option ℚ := none
  startSample : Option Int := none
  signalDurationS : Option ℚ := none
  totalEnergyDB : ℚ := 0
  chipset : Option String := none
  channelNum : Option Int := none
  freqDeltaHz : Option ℚ := none
  headerNCorr : Option Int := none
  pduNCorr : Option Int := none
  numPduSymbols : Option Nat := none
  deriving DecidableEq

/-- A decode attempt, failed or not, as `decode_signal` returns it. -/
structure Attempt where
  chipset : Option String := none
  decoded : Bool := false
  reason : Option String := none
  startSample : Option Int := none
  timeS : Option ℚ := none
  signalDurationS : Option ℚ := none
  phyVer : Option Int := none
  numPduSymbols : Option Nat := none
  ntwId : Option Int := none
  seqNum : Option Int := none
  /-- Set by the processor. -/
  sampleDrop : Bool := false
  deriving DecidableEq

/-- One entry of `decode_entries`: what the processor reports about a packet. -/
structure DecodeEntry where
  timestamp : String
  unixTs : ℚ
  rxStartUnixTs : Option ℚ := none
  phyVer : Int
  ntwId : Int
  ntwIdHex : String
  seqNum : Int
  authTag : Option Int
  energyDB : ℚ
  chipset : String
  channelNum : Option Int
  freqDeltaHz : Option ℚ
  payloadVal : Option Int
  payloadBytes : Option Int
  headerNCorr : Option Int := none
  pduNCorr : Option Int := none
  numPduSymbols : Option Nat := none
  symCount : Option Nat := none
  symMeanMs : Option ℚ := none
  symStdMs : Option ℚ := none
  gapCount : Option Nat := none
  gapMeanMs : Option ℚ := none
  gapStdMs : Option ℚ := none
  deriving DecidableEq

/-- The processor's cycle statistics; the last three keys are absent until the
first cycle's result. -/
structure DecodeStats where
  processTimeMs : ℚ := 0
  nDetections : Nat := 0
  timestamp : String := ""
  tSpecMs : ℚ := 0
  tRenderMs : ℚ := 0
  tDecodeMs : ℚ := 0
  rxGainDB : Option ℚ := none
  rxPeakPct : Option ℚ := none
  rxOverflows : Option Nat := none
  deriving DecidableEq

/-- A message on `result_queue`, from the processor or from a renderer. -/
structure WorkerResult where
  img : Option Bytes := none
  detections : Option (List Packet) := none
  decodeEntries : Option (List DecodeEntry) := none
  stats : Option DecodeStats := none
  chipsetStats : Option (List (String × Py.Dict)) := none
  tdImg : Option Bytes := none
  tdZoomImg : Option Bytes := none
  tdStatus : Option String := none
  tdDecodeInfo : Option Py.Dict := none
  tdIqSegment : Option (List Sample) := none

end StreamWeb

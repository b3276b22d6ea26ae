import StreamWeb.Py
import Mathlib.Tactic.NormNum

/-!
# Configuration constants

`config.py`, as far as the modelled code reads it. Decimal literals are the
rationals they denote and arithmetic on them is exact; the sample counts the
source derives with `int` from seconds and the sample rate are derived the
same way here, and the `_eq` lemmas give their values.

`DecoderConstants` are the protocol constants re-exported from
`hubble_satnet_decoder`, which is not part of the repository: every result
holds for all of their values.
-/

namespace StreamWeb

/-- Constants of the decoder package. -/
structure DecoderConstants where
  preambleLen : Nat
  numHeaderSyms : Nat
  samplesPerSymbol : Nat
  /-- `slot_samples[ver]["slot"]`, absent for an unknown version. -/
  slotSamples : Int → Option Nat
  /-- `slot_samples[1]["slot"]`. -/
  slotSamples1 : Nat

/-- `config.slot_samples.get(ver, config.slot_samples[1])["slot"]`. -/
def DecoderConstants.slot (K : DecoderConstants) (ver : Int) : Nat :=
  (K.slotSamples ver).getD K.slotSamples1

namespace Config

/-! ## Radio and buffer -/

def sampleRate : Nat := 781250

def centerFreqHz : ℤ := 2482440375
def rxInitialGainDB : ℤ := 20
def rxGainMinDB : ℤ := 0
def rxGainStepDB : ℤ := 2
def rxGainMaxDB (sdrType : String) : ℤ := if sdrType = "bladerf" then 60 else 71

def specDurationS : ℚ := 10
def specChunkS : ℚ := 1 / 2
def specChunkSamples : Nat := (Py.int (specChunkS * sampleRate)).toNat
def maxSpecChunks : Nat := (Py.int (specDurationS / specChunkS)).toNat
def specImgWidth : Nat := 1200
def specImgHeight : Nat := 200

def iqBufferDurationS : ℚ := 2
def iqBufferSize : Nat := (Py.int (iqBufferDurationS * sampleRate)).toNat

/-! ## Spectrum analyzer -/

/-- Bins on either side of the centre that the display interpolates over. -/
def specDcNotchBins : ℤ := 10
def spectrumAvgChunks : Nat := max 1 (maxSpecChunks / 2)

def fccOverlayMinSnrDB : ℚ := 15
def spurMinSnrDB : ℚ := 10
def spurMinProminenceDB : ℚ := 6
def spurMinSepKHz : ℚ := 10
def spurLimitDbc : ℚ := 20
def channelSpacing : ℚ := 25750

/-! ## Decoder scheduling -/

def decodeWindowS : ℚ := 3 / 2
def decodeIntervalS : ℚ := 3 / 5
def decodeSamples : Nat := (Py.int (decodeWindowS * sampleRate)).toNat
/-- `int(DECODE_INTERVAL_S * SAMPLE_RATE)`. -/
def decodeIntervalSamples : Nat := (Py.int (decodeIntervalS * sampleRate)).toNat
def dedupStartTolS : ℚ := 1

def maxDecodeHistory : Nat := 200
def sdrRetryIntervalS : Nat := 3
def sdrOpenAttemptsBeforeRestart : Nat := 10

/-! ## Time-domain viewer -/

def tdWindowS : ℚ := 3 / 4
def tdMaxAgeS : ℚ := 9 / 10 * iqBufferDurationS
def tdPendingTimeoutS : ℚ := min 3 tdMaxAgeS
def tdTruncationConfirmS : ℚ := min 2 tdMaxAgeS
def tdTruncationMatchS : ℚ := 1 / 100
def tdPhantomPadS : ℚ := 1 / 50
def tdPreRollFrac : ℚ := 1 / 10

/-! ## Values of the derived constants -/

theorem sampleRate_pos : (0 : ℚ) < sampleRate := by norm_num [sampleRate]

theorem iqBufferSize_eq : iqBufferSize = 1562500 := by
  norm_num [iqBufferSize, Py.int, iqBufferDurationS, sampleRate]
  rfl

theorem iqBufferSize_pos : 0 < iqBufferSize := by
  rw [iqBufferSize_eq]
  omega

theorem decodeSamples_eq : decodeSamples = 1171875 := by
  norm_num [decodeSamples, Py.int, decodeWindowS, sampleRate]
  rfl

theorem decodeIntervalSamples_eq : decodeIntervalSamples = 468750 := by
  norm_num [decodeIntervalSamples, Py.int, decodeIntervalS, sampleRate]
  rfl

theorem specChunkSamples_eq : specChunkSamples = 390625 := by
  norm_num [specChunkSamples, Py.int, specChunkS, sampleRate]
  rfl

theorem specChunkSamples_pos : 0 < specChunkSamples := by
  rw [specChunkSamples_eq]
  omega

theorem maxSpecChunks_eq : maxSpecChunks = 20 := by
  norm_num [maxSpecChunks, Py.int, specDurationS, specChunkS]
  rfl

theorem spectrumAvgChunks_eq : spectrumAvgChunks = 10 := by
  rw [spectrumAvgChunks, maxSpecChunks_eq]
  rfl

theorem tdPendingTimeoutS_eq : tdPendingTimeoutS = 9 / 5 := by
  norm_num [tdPendingTimeoutS, tdMaxAgeS, iqBufferDurationS]

end Config

end StreamWeb

import StreamWeb.App.PacketFeed
import StreamWeb.Lib.Dict
import StreamWeb.Lib.Numeral
import StreamWeb.Py.Base64

/-!
# The encodings of an annotation

`annotation_data` turns a decode entry into the dictionary that is posted. The
payload and the identifiers become hexadecimal digits there, and the feed of
`/api/packets` has the same payload in base64: `payload_encodings` is the
agreement of the two. How a point in time is written is left to `utc`, `none`
where the conversion raises.
-/

namespace StreamWeb

namespace Py

/-- Why a format specifier is refused, each a `ValueError`. -/
inductive FormatError where
  | invalidSpecifier
  | tooManyDigits
  deriving DecidableEq

/-- `f"{v:0wx}"`: a sign, zeros up to the width, the digits. -/
def hexPadded (w : Nat) (v : Int) : String :=
  let sign := if v < 0 then ['-'] else []
  let digits := Nat.toDigits 16 v.natAbs
  String.ofList (sign ++ List.replicate (w - (sign.length + digits.length)) '0' ++ digits)

/-- `f"{v:0{width}x}"`. -/
def formatHex (v width : Int) : Except FormatError String :=
  if width < 0 then .error .invalidSpecifier
  else if ssizeMax < width.toNat then .error .tooManyDigits
  else .ok (hexPadded width.toNat v)

end Py

/-- Why `annotation_data` raises. -/
inductive AnnotationError where
  | timestamp
  | valueError (reason : Py.FormatError)
  deriving DecidableEq

/-- `_hex32` -/
def hex32 (value : Option Int) : Option String := value.map (Py.hexPadded 8)

variable (utc : ℚ → Option String)

/-- `_utc` -/
def utcText : Option ℚ → Except AnnotationError Py.Val
  | none => .ok .none
  | some unixTs => match utc unixTs with
    | some text => .ok (.str text)
    | none => .error .timestamp

namespace Py.Val

/-- A value, or `None`. -/
def ofOption {α : Type} (f : α → Py.Val) (x : Option α) : Py.Val := (x.map f).getD .none

def isNone : Py.Val → Bool
  | .none => true
  | _ => false

end Py.Val

/-- The items of `data` in front of the payload. -/
def annotationItems (entry : DecodeEntry) (rxStartUtc decodedUtc : Py.Val)
    (centerFreqHz : Option Int) (sdrType : Option String) : Py.Dict :=
  [("evt", .str "sat_rx"),
    ("seq", .int entry.seqNum),
    ("eid", .ofOption .str (hex32 (some entry.ntwId))),
    ("tag", .ofOption .str (hex32 entry.authTag)),
    ("phy_ver", .int entry.phyVer),
    ("ch0", .ofOption .int entry.channelNum),
    ("rx_start_utc", rxStartUtc),
    ("decoded_utc", decodedUtc),
    ("energy_db", .float entry.energyDB),
    ("freq_delta_hz", .ofOption .float entry.freqDeltaHz),
    ("chipset", if entry.chipset = "" then .none else .str entry.chipset),
    ("rs_corr_header", .ofOption .int entry.headerNCorr),
    ("rs_corr_pdu", .ofOption .int entry.pduNCorr),
    ("num_pdu_symbols", .ofOption (fun n : Nat => .int n) entry.numPduSymbols),
    ("payload_bytes", .ofOption .int entry.payloadBytes),
    ("sdr", .ofOption .str sdrType),
    ("center_freq_hz", .ofOption .int centerFreqHz)]

/-- `data["payload_hex"]`, where the entry has a payload. -/
def payloadHex (entry : DecodeEntry) : Except AnnotationError Py.Dict :=
  match entry.payloadVal with
  | none => .ok []
  | some payload => match Py.formatHex payload (2 * entry.payloadBytes.getD 0) with
    | .ok digits => .ok [("payload_hex", .str digits)]
    | .error reason => .error (.valueError reason)

/-- `annotation_data`; no number here is a NaN or an infinity. -/
def annotationData (entry : DecodeEntry) (centerFreqHz : Option Int) (sdrType : Option String) :
    Except AnnotationError Py.Dict := do
  let rxStartUtc ← utcText utc entry.rxStartUnixTs
  let decodedUtc ← utcText utc (some entry.unixTs)
  let payload ← payloadHex entry
  let data := annotationItems entry rxStartUtc decodedUtc centerFreqHz sdrType ++ payload
  return data.filter fun item => !item.2.isNone

/-! ## What the readers see -/

def hexDigits : List Char := "0123456789abcdef".toList

namespace Py

/-- `int(digits, 16)`, of lowercase digits. -/
def readHex (digits : List Char) : Nat := Numeral.value 16 (digits.map hexDigits.idxOf)

/-- `bytes.fromhex(digits)`, of lowercase digits. -/
def fromHex : List Char → Option Bytes
  | [] => some []
  | [_] => none
  | a :: b :: rest => do
    let u ← hexDigits.idxOf? a
    let v ← hexDigits.idxOf? b
    let bytes ← fromHex rest
    some (UInt8.ofNat (16 * u + v) :: bytes)

/-- `int.from_bytes(bytes, "big")` -/
def fromBytes (bytes : Bytes) : Nat := Numeral.value 256 (bytes.map UInt8.toNat)

end Py

/-- `n` lowercase hexadecimal digits that read back to `v`. -/
structure ReadsBack (text : String) (n : Nat) (v : Int) : Prop where
  length : text.length = n
  digits : ∀ c ∈ text.toList, c ∈ hexDigits
  value : (Py.readHex text.toList : Int) = v

theorem digitChar_hexDigits : ∀ d < 16, Nat.digitChar d ∈ hexDigits ∧
    hexDigits.idxOf (Nat.digitChar d) = d ∧ hexDigits.idxOf? (Nat.digitChar d) = some d := by
  decide +kernel

namespace Py

theorem hexPadded_eq {w : Nat} {v : Int} (some_digits : 0 < w) (low : 0 ≤ v)
    (fits : v.toNat < 16 ^ w) :
    hexPadded w v = String.ofList ((Numeral.fixed 16 w v.toNat).map Nat.digitChar) := by
  have magnitude : v.natAbs = v.toNat := by omega
  unfold hexPadded
  rw [if_neg (not_lt.2 low), magnitude, ← Numeral.replicate_append_toDigits (by omega) some_digits fits]
  simp

/-- A number below the power of the width is written with exactly its digits. -/
theorem readsBack_hexPadded {w : Nat} {v : Int} (some_digits : 0 < w) (low : 0 ≤ v)
    (fits : v.toNat < 16 ^ w) : ReadsBack (hexPadded w v) w v := by
  rw [hexPadded_eq some_digits low fits]
  have small : ∀ d ∈ Numeral.fixed 16 w v.toNat, d < 16 :=
    fun d mem => Numeral.lt_of_mem_fixed (by omega) mem
  refine ⟨by simp, ?_, ?_⟩
  · intro c mem
    rw [String.toList_ofList] at mem
    obtain ⟨d, digit, rfl⟩ := List.mem_map.1 mem
    exact (digitChar_hexDigits d (small d digit)).1
  · have same : ∀ d < 16, (hexDigits.idxOf ∘ Nat.digitChar) d = d :=
      fun d lt => (digitChar_hexDigits d lt).2.1
    rw [readHex, String.toList_ofList, List.map_map, Numeral.map_fixed (by omega) same,
      Numeral.value_fixed fits]
    omega

theorem fromHex_pairs (bytes : List Nat) (small : ∀ d ∈ bytes, d < 256) :
    fromHex ((bytes.flatMap fun d => [d / 16, d % 16]).map Nat.digitChar) =
      some (bytes.map UInt8.ofNat) := by
  induction bytes with
  | nil => rfl
  | cons d bytes ih =>
    have hd := small d List.mem_cons_self
    have rest := ih fun x mem => small x (List.mem_cons_of_mem d mem)
    obtain ⟨-, -, high⟩ := digitChar_hexDigits (d / 16) (by omega)
    obtain ⟨-, -, low⟩ := digitChar_hexDigits (d % 16) (by omega)
    have whole : 16 * (d / 16) + d % 16 = d := Nat.div_add_mod d 16
    rw [List.flatMap_cons, List.map_append, List.map_cons, List.map_cons, List.map_nil,
      List.cons_append, List.cons_append, List.nil_append, fromHex, high, low, rest]
    simp only [Option.bind_eq_bind, Option.bind_some, List.map_cons, whole]

theorem bigEndian_eq (n v : Nat) : bigEndian n v = (Numeral.fixed 256 n v).map UInt8.ofNat := by
  induction n generalizing v with
  | zero => rfl
  | succ n ih =>
    rw [bigEndian, Numeral.fixed, ih, List.map_append]
    rfl

/-- Two digits have room for a byte. -/
theorem pow_digits (b : Nat) : (16 : Nat) ^ (2 * b) = 256 ^ b := by
  rw [pow_mul, show (16 : Nat) ^ 2 = 256 from rfl]

/-- The digits of the bytes are the digits of the number. -/
theorem fromHex_hexPadded {b : Nat} {v : Int} (some_bytes : 0 < b) (low : 0 ≤ v)
    (fits : v.toNat < 256 ^ b) :
    fromHex (hexPadded (2 * b) v).toList = some (bigEndian b v.toNat) := by
  rw [hexPadded_eq (by omega) low (by rwa [pow_digits]), String.toList_ofList, Numeral.fixed_pairs,
    fromHex_pairs _ fun d mem => Numeral.lt_of_mem_fixed (by omega) mem, ← bigEndian_eq]

theorem fromBytes_bigEndian {n v : Nat} (fits : v < 256 ^ n) : fromBytes (bigEndian n v) = v := by
  have same : ∀ d < 256, (UInt8.toNat ∘ UInt8.ofNat) d = d := fun d lt => UInt8.toNat_ofNat_of_lt' lt
  rw [fromBytes, bigEndian_eq, List.map_map, Numeral.map_fixed (by omega) same,
    Numeral.value_fixed fits]

theorem length_bigEndian (n v : Nat) : (bigEndian n v).length = n := by
  rw [bigEndian_eq, List.length_map, Numeral.length_fixed]

end Py

/-! ## What is posted -/

section Posted

variable {utc : ℚ → Option String} {entry : DecodeEntry} {centerFreqHz : Option Int}
  {sdrType : Option String} {data : Py.Dict}

theorem annotationData_ok (posted : annotationData utc entry centerFreqHz sdrType = .ok data) :
    ∃ rxStartUtc decodedUtc payload, payloadHex entry = .ok payload ∧
      data = (annotationItems entry rxStartUtc decodedUtc centerFreqHz sdrType ++ payload).filter
        fun item => !item.2.isNone := by
  unfold annotationData at posted
  cases started : utcText utc entry.rxStartUnixTs with
  | error err => simp [started, bind, Except.bind] at posted
  | ok rxStartUtc =>
    cases decoded : utcText utc (some entry.unixTs) with
    | error err => simp [started, decoded, bind, Except.bind] at posted
    | ok decodedUtc =>
      cases formatted : payloadHex entry with
      | error err => simp [started, decoded, formatted, bind, Except.bind] at posted
      | ok payload =>
        simp only [started, decoded, formatted, bind, Except.bind, pure, Except.pure,
          Except.ok.injEq] at posted
        exact ⟨rxStartUtc, decodedUtc, payload, rfl, posted.symm⟩

/-- The points in time of the entry can be written. -/
structure Timestamped (utc : ℚ → Option String) (entry : DecodeEntry) : Prop where
  started : ∀ unixTs, entry.rxStartUnixTs = some unixTs → (utc unixTs).isSome
  decoded : (utc entry.unixTs).isSome

theorem annotationData_isOk (times : Timestamped utc entry) {payload : Py.Dict}
    (formatted : payloadHex entry = .ok payload) :
    ∃ data, annotationData utc entry centerFreqHz sdrType = .ok data := by
  have started : ∃ text, utcText utc entry.rxStartUnixTs = .ok text := by
    cases start : entry.rxStartUnixTs with
    | none => exact ⟨_, rfl⟩
    | some unixTs =>
      obtain ⟨text, written⟩ := Option.isSome_iff_exists.1 (times.started unixTs start)
      exact ⟨.str text, by rw [utcText, written]⟩
  obtain ⟨rxStartUtc, started⟩ := started
  obtain ⟨text, written⟩ := Option.isSome_iff_exists.1 times.decoded
  have decoded : utcText utc (some entry.unixTs) = .ok (.str text) := by rw [utcText, written]
  unfold annotationData
  rw [started, decoded, formatted]
  exact ⟨_, rfl⟩

theorem lookup_eid (posted : annotationData utc entry centerFreqHz sdrType = .ok data) :
    data.lookup "eid" = some (.str (Py.hexPadded 8 entry.ntwId)) := by
  obtain ⟨rxStartUtc, decodedUtc, payload, -, rfl⟩ := annotationData_ok posted
  exact Dict.lookup_filter rfl rfl

theorem lookup_tag (posted : annotationData utc entry centerFreqHz sdrType = .ok data) {tag : Int}
    (found : entry.authTag = some tag) : data.lookup "tag" = some (.str (Py.hexPadded 8 tag)) := by
  obtain ⟨rxStartUtc, decodedUtc, payload, -, rfl⟩ := annotationData_ok posted
  apply Dict.lookup_filter
  · rw [annotationItems, found]
    rfl
  · rfl

theorem lookup_payloadHex (posted : annotationData utc entry centerFreqHz sdrType = .ok data)
    {digits : String} (formatted : payloadHex entry = .ok [("payload_hex", .str digits)]) :
    data.lookup "payload_hex" = some (.str digits) := by
  obtain ⟨rxStartUtc, decodedUtc, payload, same, rfl⟩ := annotationData_ok posted
  rw [formatted] at same
  cases same
  exact Dict.lookup_filter rfl rfl

end Posted

theorem payloadHex_eq {entry : DecodeEntry} {b : Nat} {pv : Int} (bytes : entry.payloadBytes = some (b : Int))
    (value : entry.payloadVal = some pv) (width : 2 * b ≤ Py.ssizeMax) :
    payloadHex entry = .ok [("payload_hex", .str (Py.hexPadded (2 * b) pv))] := by
  have width' : (2 * (b : Int)).toNat = 2 * b := by omega
  rw [payloadHex, value, bytes, Option.getD_some]
  dsimp only
  rw [Py.formatHex, if_neg (by omega), width', if_neg (not_lt.2 width)]

theorem packetLine_payloadB64 {entry : DecodeEntry} {b : Nat} {pv : Int}
    (bytes : entry.payloadBytes = some (b : Int)) (value : entry.payloadVal = some pv)
    (some_bytes : 0 < b) (size : b ≤ Py.ssizeMax) (low : 0 ≤ pv) (fits : pv.toNat < 256 ^ b) :
    ∃ line, packetLine entry = .ok line ∧
      line.payloadB64 = Py.b64encode (Py.bigEndian b pv.toNat) := by
  have converted : Py.toBytes pv b = .ok (Py.bigEndian b pv.toNat) :=
    Py.toBytes_eq_ok_iff.2 ⟨⟨size, low, fits⟩, rfl⟩
  have encoded : entry.payloadB64 = .ok (Py.b64encode (Py.bigEndian b pv.toNat)) := by
    rw [DecodeEntry.payloadB64, value, bytes, Option.getD_some]
    dsimp only
    rw [if_pos (by omega), Int.toNat_natCast, converted]
    rfl
  rw [packetLine, encoded]
  exact ⟨_, rfl, rfl⟩

/-- **The two encodings of a payload agree.** For every entry with a payload of `b` bytes and a value
that fits them: the posted digits are `2 * b`, they and the characters in the feed stand for the same
`b` bytes, and these are the value. The identifiers that are posted are eight digits each, which read
back to them. -/
theorem payload_encodings (utc : ℚ → Option String) (entry : DecodeEntry)
    (centerFreqHz : Option Int) (sdrType : Option String) :
    (∀ (b : Nat) (pv : Int), entry.payloadBytes = some (b : Int) → entry.payloadVal = some pv →
      1 ≤ b → 2 * b ≤ Py.ssizeMax → 0 ≤ pv → pv.toNat < 256 ^ b →
      ∃ digits b64 bytes,
        (Timestamped utc entry →
          ∃ data, annotationData utc entry centerFreqHz sdrType = .ok data) ∧
        (∀ data, annotationData utc entry centerFreqHz sdrType = .ok data →
          data.lookup "payload_hex" = some (.str digits)) ∧
        (∃ line, packetLine entry = .ok line ∧ line.payloadB64 = b64) ∧
        ReadsBack digits (2 * b) pv ∧ Py.fromHex digits.toList = some bytes ∧
        Py.b64decode b64 = some bytes ∧ bytes.length = b ∧ (Py.fromBytes bytes : Int) = pv) ∧
      ∀ data, annotationData utc entry centerFreqHz sdrType = .ok data →
        (0 ≤ entry.ntwId → entry.ntwId < 2 ^ 32 →
          ∃ eid, data.lookup "eid" = some (.str eid) ∧ ReadsBack eid 8 entry.ntwId) ∧
        ∀ authTag, entry.authTag = some authTag → 0 ≤ authTag → authTag < 2 ^ 32 →
          ∃ tag, data.lookup "tag" = some (.str tag) ∧ ReadsBack tag 8 authTag := by
  constructor
  · intro b pv bytes value some_bytes width low fits
    have formatted := payloadHex_eq bytes value width
    refine ⟨Py.hexPadded (2 * b) pv, Py.b64encode (Py.bigEndian b pv.toNat), Py.bigEndian b pv.toNat,
      ?_, ?_, ?_, ?_, ?_, ?_, ?_, ?_⟩
    · exact fun times => annotationData_isOk times formatted
    · exact fun data posted => lookup_payloadHex posted formatted
    · exact packetLine_payloadB64 bytes value some_bytes (by omega) low fits
    · exact Py.readsBack_hexPadded (by omega) low (by rwa [Py.pow_digits])
    · exact Py.fromHex_hexPadded some_bytes low fits
    · exact Py.b64decode_b64encode _
    · exact Py.length_bigEndian _ _
    · rw [Py.fromBytes_bigEndian fits]
      omega
  · intro data posted
    constructor
    · intro low small
      exact ⟨_, lookup_eid posted, Py.readsBack_hexPadded (by omega) low (by omega)⟩
    · intro authTag found low small
      exact ⟨_, lookup_tag posted found, Py.readsBack_hexPadded (by omega) low (by omega)⟩

/-- Three bytes that begin with a zero. -/
theorem payload_encodings_leading_zero : ∃ digits b64 bytes,
    (∀ data, annotationData (fun _ => some "1970-01-01T00:00:00.000Z")
        (feedEntry (some 0xbeef) (some (3 : Nat))) none none = .ok data →
      data.lookup "payload_hex" = some (.str digits)) ∧
    (∃ line, packetLine (feedEntry (some 0xbeef) (some (3 : Nat))) = .ok line ∧
      line.payloadB64 = b64) ∧
    Py.fromHex digits.toList = some bytes ∧ Py.b64decode b64 = some bytes ∧ bytes.length = 3 := by
  obtain ⟨digits, b64, bytes, -, hex, line, -, read, decoded, length, -⟩ :=
    (payload_encodings (fun _ => some "1970-01-01T00:00:00.000Z")
      (feedEntry (some 0xbeef) (some (3 : Nat))) none none).1 3 0xbeef rfl rfl (by decide) (by decide)
      (by decide) (by decide)
  exact ⟨digits, b64, bytes, hex, line, read, decoded, length⟩

/-- A byte count no object can have, and a negative identifier. -/
theorem payload_encodings_limits :
    (feedEntry (some 0) (some (2 ^ 63))).payloadB64
        = .error (.overflowError "Python int too large to convert to C ssize_t") ∧
      payloadHex (feedEntry (some 0) (some (2 ^ 63))) = .error (.valueError .tooManyDigits) ∧
      hex32 (some (-1)) = some "-0000001" ∧ '-' ∉ hexDigits := by
  refine ⟨?_, ?_, by rfl, by decide⟩
  · rfl
  · rfl

end StreamWeb

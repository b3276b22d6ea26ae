import StreamWeb.Config
import StreamWeb.Data
import StreamWeb.Lib.Utf8

/-!
# The capture target's shared cells

`POST /api/timedomain` stores the target of a capture in shared cells that the
processor reads every cycle. The chipset name lives in a `ctypes` character
array of 32 bytes: the setter stores the UTF-8 form cut to 31 bytes, and both
readers decode the bytes in front of the first NUL.

The cut is by bytes, so it can fall inside a character, and what is left no
longer decodes. `readers_ok_iff` is the exact condition.
-/

namespace StreamWeb

namespace Py

/-- `s.encode()`. A string with a lone surrogate has no UTF-8 form and raises
there; the strings of the model are those that have one. -/
def encode (s : String) : Bytes := Utf8.encode s

/-- `b.decode()`. -/
def decode (b : Bytes) : Except Error String :=
  match Utf8.decode b with
  | some s => .ok s
  | none => .error .unicodeDecodeError

theorem decode_eq_ok {b : Bytes} {t : String} : decode b = .ok t ↔ Utf8.decode b = some t := by
  unfold decode
  cases Utf8.decode b <;> simp

/-- `mp.Array("c", n)`. -/
structure CharArray (n : Nat) where
  bytes : Bytes
  size : bytes.length = n

namespace CharArray

variable {n : Nat}

/-- Assigning `.value`: the bytes, and a NUL behind them where there is room.
A longer value is refused before anything is written. -/
def setValue (a : CharArray n) (b : Bytes) : CharArray n :=
  if h : b.length < n then
    ⟨b ++ 0 :: a.bytes.drop (b.length + 1), by simp [a.size]; omega⟩
  else if h : b.length = n then ⟨b, h⟩
  else a

/-- Reading `.value`: the bytes in front of the first NUL. -/
def value (a : CharArray n) : Bytes := a.bytes.takeWhile (· != 0)

theorem value_setValue (a : CharArray n) {b : Bytes} (h : b.length < n) :
    (a.setValue b).value = b.takeWhile (· != 0) := by
  simp only [setValue, dif_pos h, value, List.takeWhile_append]
  split
  · rename_i whole
    simp [(List.takeWhile_prefix _).eq_of_length whole]
  · rfl

end CharArray

end Py

/-- The cells `api_timedomain` writes. -/
structure TargetCells where
  running : Bool
  ntwId : Int
  hasNtwId : Bool
  chipsetArr : Py.CharArray 32
  zoomNSyms : Int

namespace TargetCells

/-- The cells at start-up. -/
def initial : TargetCells where
  running := false
  ntwId := 0
  hasNtwId := false
  chipsetArr := ⟨List.replicate 32 0, rfl⟩
  zoomNSyms := 6

/-- The `td_target_chipset` setter. -/
def setTargetChipset (c : TargetCells) (v : Option String) : TargetCells :=
  { c with chipsetArr := c.chipsetArr.setValue ((Py.encode (v.getD "")).take 31) }

/-- The `td_target_ntw_id` setter; the cell is a signed 64-bit integer. -/
def setTargetNtwId (c : TargetCells) : Option Int → TargetCells
  | none => { c with hasNtwId := false }
  | some v => { c with ntwId := v.bmod (2 ^ 64), hasNtwId := true }

def setRunning (c : TargetCells) (v : Bool) : TargetCells := { c with running := v }

/-- The `td_zoom_n_syms` setter. -/
def setZoomNSyms (K : DecoderConstants) (c : TargetCells) (v : Int) : TargetCells :=
  { c with zoomNSyms := max 1 (min v K.preambleLen) }

/-- `raw.decode() if raw else None`, the expression of both readers. -/
def decodeTarget (raw : Bytes) : Except Py.Error (Option String) :=
  if raw.isEmpty then .ok none else (Py.decode raw).map some

/-- The `td_target_chipset` getter, read by `/api/status` and `/api/timedomain`. -/
def targetChipset (c : TargetCells) : Except Py.Error (Option String) :=
  decodeTarget c.chipsetArr.value

/-- `td_chipset` of the processor loop. -/
def tdChipset (c : TargetCells) : Except Py.Error (Option String) :=
  decodeTarget c.chipsetArr.value

/-- The `td_target_ntw_id` getter. -/
def targetNtwId (c : TargetCells) : Option Int := if c.hasNtwId then some c.ntwId else none

end TargetCells

/-- A number in a request body: what `int` makes of it, or `ValueError` or
`TypeError`. -/
inductive JsonInt where
  | int (v : Int)
  | invalid

/-- The body of `POST /api/timedomain`. -/
inductive TdAction where
  | start (chipset : Option String) (deviceId : Option JsonInt)
  | stop
  | setNSyms (n : JsonInt)

/-- `POST /api/timedomain`, up to its response: the cells after it, and
whether the request was refused with status 400. -/
def apiTimedomain (K : DecoderConstants) (c : TargetCells) :
    TdAction → TargetCells × Option String
  | .start chipset deviceId =>
    if chipset.getD "" ≠ "" then
      (((c.setTargetChipset chipset).setTargetNtwId none).setRunning true, none)
    else
      match deviceId with
      | some (.int v) =>
        (((c.setTargetNtwId (some v)).setTargetChipset none).setRunning true, none)
      | some .invalid => (c, some "Invalid device_id")
      | none => (c, none)
  | .stop => (c.setRunning false, none)
  | .setNSyms (.int v) => (c.setZoomNSyms K v, none)
  | .setNSyms .invalid => (c, some "Invalid n_syms")

/-! ## What the readers see -/

/-- The bytes both readers decode after `s` was stored. -/
def keptBytes (s : String) : Bytes := ((Py.encode s).take 31).takeWhile (· != 0)

theorem chipsetArr_start (K : DecoderConstants) (c : TargetCells) {s : String} (h : s ≠ "")
    (d : Option JsonInt) :
    (apiTimedomain K c (.start (some s) d)).1.chipsetArr.value = keptBytes s := by
  simp only [apiTimedomain, Option.getD_some, ne_eq, h, not_false_eq_true, if_true,
    TargetCells.setRunning, TargetCells.setTargetNtwId, TargetCells.setTargetChipset]
  exact Py.CharArray.value_setValue _ (by simp)

/-- Stored, `s` reads back as a prefix of itself, and as itself when it fits. -/
def ReadsPrefix (s : String) (r : Except Py.Error (Option String)) : Prop :=
  ∃ t u, r = .ok (some t) ∧ s = t ++ u ∧
    ((Py.encode s).length ≤ 31 → 0 ∉ Py.encode s → t = s)

/-- The condition under which the stored bytes decode: the name does not begin
with NUL, and it fits, or a NUL ends it within its first 31 bytes, or a
character ends exactly at byte 31. -/
def SafeTarget (s : String) : Prop :=
  (Py.encode s).head? ≠ some 0 ∧
    ((Py.encode s).length ≤ 31 ∨ 0 ∈ (Py.encode s).take 31 ∨ Utf8.Boundary s 31)

instance (s : String) : Decidable (SafeTarget s) := inferInstanceAs (Decidable (_ ∧ _))

/-- The kept bytes are the UTF-8 form up to byte 31, or up to a NUL. -/
theorem keptBytes_cut (s : String) :
    (keptBytes s = (Py.encode s).take 31 ∧ 0 ∉ (Py.encode s).take 31) ∨
      ∃ rest, Py.encode s = keptBytes s ++ 0 :: rest ∧ 0 ∈ (Py.encode s).take 31 := by
  have whole : keptBytes s ++ ((Py.encode s).take 31).dropWhile (· != 0) = (Py.encode s).take 31 :=
    List.takeWhile_append_dropWhile
  cases tail : ((Py.encode s).take 31).dropWhile (· != 0) with
  | nil =>
    rw [tail, List.append_nil] at whole
    refine .inl ⟨whole, fun nul => ?_⟩
    rw [← whole] at nul
    simpa using List.mem_takeWhile_imp nul
  | cons b rest =>
    have stop : b = 0 := by
      have some : ((Py.encode s).take 31).dropWhile (· != 0) ≠ [] := by simp [tail]
      simpa [tail] using List.head_dropWhile_not (· != 0) some
    subst stop
    rw [tail] at whole
    refine .inr ⟨rest ++ (Py.encode s).drop 31, ?_, by simp [← whole]⟩
    rw [← List.cons_append, ← List.append_assoc, whole, List.take_append_drop]

theorem keptBytes_ne_nil {s : String} (h : s ≠ "") (first : (Py.encode s).head? ≠ some 0) :
    keptBytes s ≠ [] := by
  unfold keptBytes
  cases form : Py.encode s with
  | nil => exact absurd form (Utf8.encode_ne_nil h)
  | cons b rest =>
    rw [form] at first
    simp_all

/-- A cut in front of a NUL, at the end or on a character boundary leaves the
bytes of a prefix of the name. -/
theorem keptBytes_boundary {s : String} (h : SafeTarget s) :
    ∃ c, Py.encode s = keptBytes s ++ c ∧ Utf8.Boundary s (keptBytes s).length := by
  rcases keptBytes_cut s with ⟨kept, clean⟩ | ⟨rest, cut, -⟩
  · refine ⟨(Py.encode s).drop 31, by rw [kept, List.take_append_drop], ?_⟩
    rcases h.2 with short | nul | bound
    · rw [kept, List.take_of_length_le short]
      exact ⟨s, "", by simp, rfl⟩
    · exact absurd nul clean
    · obtain ⟨t, u, rfl, size⟩ := bound
      refine ⟨t, u, rfl, ?_⟩
      rw [kept, Py.encode, Utf8.encode_append, List.length_take, List.length_append, size]
      simp
  · exact ⟨_, cut, Utf8.boundary_of_nul cut⟩

theorem readsPrefix_of_safe {s : String} (h : s ≠ "") (safe : SafeTarget s) :
    ReadsPrefix s (TargetCells.decodeTarget (keptBytes s)) := by
  obtain ⟨c, cut, bound⟩ := keptBytes_boundary safe
  obtain ⟨t, u, split, form, read⟩ := Utf8.decode_cut cut bound
  have some : (keptBytes s).isEmpty = false := by simp [keptBytes_ne_nil h safe.1]
  refine ⟨t, u, ?_, split, fun short clean => ?_⟩
  · simp [TargetCells.decodeTarget, some, Py.decode_eq_ok.2 read, Except.map]
  · rcases keptBytes_cut s with ⟨kept, -⟩ | ⟨rest, -, nul⟩
    · rw [List.take_of_length_le short] at kept
      exact Utf8.encode_inj (form.trans kept)
    · exact absurd (List.mem_of_mem_take nul) clean

theorem safe_of_readsPrefix {s : String}
    (h : ReadsPrefix s (TargetCells.decodeTarget (keptBytes s))) : SafeTarget s := by
  obtain ⟨t, u, read, -, -⟩ := h
  unfold TargetCells.decodeTarget at read
  split at read
  · cases read
  · rename_i nonempty
    have ok : Utf8.decode (keptBytes s) = some t := by
      apply Py.decode_eq_ok.1
      cases decoded : Py.decode (keptBytes s) with
      | ok t' => simpa [decoded, Except.map] using read
      | error e => simp [decoded, Except.map] at read
    constructor
    · intro nul
      apply nonempty
      unfold keptBytes
      cases form : Py.encode s with
      | nil => simp
      | cons b rest => simp_all
    · rcases keptBytes_cut s with ⟨kept, -⟩ | ⟨rest, -, nul⟩
      · rcases Nat.le_total (Py.encode s).length 31 with short | long
        · exact .inl short
        · have cut : Py.encode s = keptBytes s ++ (Py.encode s).drop 31 := by
            rw [kept, List.take_append_drop]
          have bound := Utf8.boundary_of_decode cut ok
          rw [kept, List.length_take, Nat.min_eq_left long] at bound
          exact .inr (.inr bound)
      · exact .inr (.inl nul)

/-- **Both readers of a stored target.** For every name that
`POST /api/timedomain` stores, whatever the cells held before: both readers
succeed and yield a prefix of the name, the name itself when it fits, exactly
when the 31 bytes that are kept do not end inside a character and do not begin
with NUL. -/
theorem readers_ok_iff (K : DecoderConstants) (c : TargetCells) (s : String) (stored : s ≠ "")
    (d : Option JsonInt) :
    (ReadsPrefix s (apiTimedomain K c (.start (some s) d)).1.targetChipset ∧
        ReadsPrefix s (apiTimedomain K c (.start (some s) d)).1.tdChipset) ↔
      SafeTarget s := by
  simp only [TargetCells.targetChipset, TargetCells.tdChipset, chipsetArr_start K c stored d,
    and_self]
  exact ⟨safe_of_readsPrefix, readsPrefix_of_safe stored⟩

theorem readers_ok_nrf52 :
    ReadsPrefix "nrf52"
        (apiTimedomain ⟨8, 4, 6250, fun _ => none, 7000⟩ .initial
          (.start (some "nrf52") none)).1.targetChipset ∧
      ReadsPrefix "nrf52"
        (apiTimedomain ⟨8, 4, 6250, fun _ => none, 7000⟩ .initial
          (.start (some "nrf52") none)).1.tdChipset :=
  (readers_ok_iff _ _ "nrf52" (by decide) none).2 (by decide)

/-- Thirty letters and an `é`: byte 31 is the first of the two bytes of the
last character, and both readers raise. -/
theorem readers_fail_inside_character :
    ¬ ReadsPrefix "aaaaaaaaaaaaaaaaaaaaaaaaaaaaaaé"
        (apiTimedomain ⟨8, 4, 6250, fun _ => none, 7000⟩ .initial
          (.start (some "aaaaaaaaaaaaaaaaaaaaaaaaaaaaaaé") none)).1.targetChipset ∧
      ¬ ReadsPrefix "aaaaaaaaaaaaaaaaaaaaaaaaaaaaaaé"
        (apiTimedomain ⟨8, 4, 6250, fun _ => none, 7000⟩ .initial
          (.start (some "aaaaaaaaaaaaaaaaaaaaaaaaaaaaaaé") none)).1.tdChipset := by
  simp only [TargetCells.targetChipset, TargetCells.tdChipset]
  rw [chipsetArr_start _ _ (by decide)]
  have cut : ¬ SafeTarget "aaaaaaaaaaaaaaaaaaaaaaaaaaaaaaé" := by decide
  exact ⟨mt safe_of_readsPrefix cut, mt safe_of_readsPrefix cut⟩

end StreamWeb

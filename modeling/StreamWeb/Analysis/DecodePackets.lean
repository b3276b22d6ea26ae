import Mathlib.Logic.Function.Basic
import Mathlib.Tactic.Linarith
import StreamWeb.Config
import StreamWeb.Lib.PwFilter
import StreamWeb.Py.Double
import StreamWeb.Timing

/-!
# The offline sweep over a recording

`decode_packets` slides overlapping windows over a recording, joins each
decoded packet to the attempt that knows where it starts, and drops the
packets it has accepted before. `Swept` says what it has accepted at any
moment: of all packets shown so far, in order, those that are not within
`DEDUP_START_TOL_S` of one accepted earlier (`List.pwFilter`), as the
comparison of two floats has it (`Close`).
-/

namespace StreamWeb.Analysis

open Config Timing

def windowStep (win : Nat) : Nat := max 1 (win - decodeIntervalSamples)

/-- The start offsets of the decoder's windows. -/
def windowOffsets (n win : Nat) : List Nat :=
  if n ≤ win then [0]
  else
    let offsets := (List.range ((n - win) / windowStep win + 1)).map (· * windowStep win)
    if offsets.getLast? = some (n - win) then offsets else offsets ++ [n - win]

/-- `(pkt.get("seq_num"), pkt.get("auth_tag"), pkt.get("payload_val"))`. -/
abbrev Bucket := Option Int × Option Int × Option Int

def bucketKey (p : Packet) : Bucket := (p.seqNum, p.authTag, p.payloadVal)

/-- `(p.get("ntw_id"), p.get("seq_num"))`, the key that joins packets to attempts. -/
abbrev JoinKey := Option Int × Option Int

/-- A packet with its place in the recording. -/
structure Located where
  packet : Packet
  absStart : Int
  absTimeS : ℚ
  deriving DecidableEq

/-- An entry of the result. -/
structure DecodedPacket extends Located where
  edges : List (Int × Int)
  deriving DecidableEq

/-- The functions of the decoder package and of `scipy` that the sweep calls. -/
structure Tools where
  /-- Packets and attempts of a window; `none` for an exception. -/
  decodeSignal : List Sample → Option (List Packet × List Attempt)
  /-- A packet's number of symbols and the samples of a slot. -/
  packetSymbolGrid : Located → Nat × Nat
  smoothed : Nat → List Sample → List ℚ

/-- `abs_start / sr` -/
def absTime (absStart : Int) : ℚ := Py.double (absStart / sampleRate)

/-- `abs(t - t') < config.DEDUP_START_TOL_S` -/
def Close (t t' : ℚ) : Prop := |Py.subDouble t t'| < dedupStartTolS

instance : DecidableRel Close := fun t t' => inferInstanceAs (Decidable (|Py.subDouble t t'| < dedupStartTolS))

/-- The accepted times of each bucket. -/
abbrev Seen := Bucket → List ℚ

/-- Whether the packet was accepted before; if not, its time is recorded. -/
def isDuplicate (d : Located) (seen : Seen) : Bool × Seen :=
  let times := seen (bucketKey d.packet)
  if times.any fun t => Close d.absTimeS t then (true, seen)
  else (false, Function.update seen (bucketKey d.packet) (times ++ [d.absTimeS]))

/-- The dictionary `starts`: of the decoded attempts with a key the last one counts. -/
def startsOf (attempts : List Attempt) (key : JoinKey) : Option Int :=
  attempts.reverse.findSome? fun a =>
    if a.decoded = true ∧ (a.ntwId, a.seqNum) = key then a.startSample else none

structure SweepState where
  accepted : List DecodedPacket
  seen : Seen

variable (K : DecoderConstants) (tools : Tools) (iq : List Sample)

/-- The corrected edges of a packet, as indices of the recording. -/
def packetEdges (d : Located) : Option (List (Int × Int)) :=
  let (nSym, slot) := tools.packetSymbolGrid d
  let lo := max 0 (d.absStart - slot)
  let hi := min (iq.length : Int) (d.absStart + nSym * slot + slot)
  (correctSymbolEdges tools.smoothed (Np.slice iq lo hi) (d.absStart - lo) 0 nSym 0 slot
    K.samplesPerSymbol).map fun edges => edges.map fun edge => (edge.1 + lo, edge.2 + lo)

/-- One packet of the window at `offset`. -/
def acceptPacket (offset : Nat) (starts : JoinKey → Option Int) (st : SweepState) (p : Packet) :
    Option SweepState :=
  match starts (p.ntwId, p.seqNum) with
  | none => some st
  | some start =>
    let absStart := offset + start
    let d : Located := ⟨p, absStart, absTime absStart⟩
    match isDuplicate d st.seen with
    | (true, seen) => some ⟨st.accepted, seen⟩
    | (false, seen) =>
      (packetEdges K tools iq d).map fun edges => ⟨st.accepted ++ [⟨d, edges⟩], seen⟩

/-- One window. When the decoder raises, the window is skipped. -/
def sweepWindow (st : SweepState) (offset : Nat) : Option SweepState :=
  match tools.decodeSignal ((iq.drop offset).take decodeSamples) with
  | none => some st
  | some (packets, attempts) => packets.foldlM (acceptPacket K tools iq offset (startsOf attempts)) st

/-- The packets of a recording; `none` for the error of `filtfilt`. -/
def decodePackets : Option (List DecodedPacket) :=
  ((windowOffsets iq.length decodeSamples).foldlM (sweepWindow K tools iq) ⟨[], fun _ => []⟩).map
    fun st => st.accepted.insertionSort fun d d' => d.absStart ≤ d'.absStart

/-! ## Times -/

theorem close_self (t : ℚ) : Close t t := by
  rw [Close, Py.subDouble, sub_self, Py.double_zero, abs_zero]
  norm_num [dedupStartTolS]

theorem close_comm {t t' : ℚ} : Close t t' ↔ Close t' t := by
  rw [Close, Close, Py.subDouble, Py.subDouble, ← neg_sub, Py.double_neg, abs_neg]

/-- What the tolerance lies between, the rounding of the difference leaves there. -/
theorem not_close {t t' : ℚ} (far : dedupStartTolS ≤ |t - t'|) : ¬Close t t' := by
  have bound := Py.double_mono far
  have tolerance : Py.double dedupStartTolS = dedupStartTolS := Py.double_intCast (m := 1) (by norm_num)
  rw [tolerance] at bound
  rw [Close, Py.subDouble, Py.abs_double]
  exact not_lt.2 bound

/-- What lies between close times is close to the later one. -/
theorem close_of_between {t t' between : ℚ} (close : Close t t') (low : t' ≤ between) (high : between ≤ t) :
    Close t between := by
  have shorter : |t - between| ≤ |t - t'| := by
    rw [abs_of_nonneg (sub_nonneg.2 high), abs_of_nonneg (sub_nonneg.2 (low.trans high))]
    linarith
  rw [Close, Py.subDouble, Py.abs_double] at *
  exact lt_of_le_of_lt (Py.double_mono shorter) close

/-- Starts more than a second apart are told apart, for a hundred years: the errors of both times
together are less than a sample. -/
theorem not_close_absTime {start start' : Int} (low : 0 ≤ start) (low' : 0 ≤ start')
    (high : start < 2 ^ 52) (high' : start' < 2 ^ 52) (gap : (sampleRate : Int) < |start - start'|) :
    ¬Close (absTime start) (absTime start') := by
  have rate := sampleRate_pos
  have error : ∀ s : Int, 0 ≤ s → s < 2 ^ 52 → |absTime s - s / sampleRate| ≤ 1 / (2 * sampleRate) := by
    intro s low high
    have low : (0 : ℚ) ≤ s := by exact_mod_cast low
    have high : (s : ℚ) ≤ 2 ^ 52 := by exact_mod_cast high.le
    have relative := Py.abs_double_sub_le_mul (s / sampleRate)
    rw [abs_of_nonneg (div_nonneg low rate.le)] at relative
    apply relative.trans
    rw [div_div, div_le_div_iff₀ (by positivity) (by positivity)]
    linarith [mul_le_mul_of_nonneg_right high rate.le]
  have samples : (sampleRate : ℚ) + 1 ≤ |(start : ℚ) - start'| := by exact_mod_cast gap
  have exact : 1 + 1 / sampleRate ≤ |(start : ℚ) / sampleRate - start' / sampleRate| := by
    rw [← sub_div, abs_div, abs_of_pos rate, le_div_iff₀ rate, add_mul, one_mul, div_mul_cancel₀ _ rate.ne']
    exact samples
  have halves : 1 / (2 * (sampleRate : ℚ)) + 1 / (2 * sampleRate) = 1 / sampleRate := by
    field_simp
    norm_num
  apply not_close
  have apart := abs_sub_abs_le_abs_sub ((start : ℚ) / sampleRate - start' / sampleRate)
    (start / sampleRate - start' / sampleRate - (absTime start - absTime start'))
  have both : |(start : ℚ) / sampleRate - start' / sampleRate - (absTime start - absTime start')|
      ≤ 1 / sampleRate := by
    have first := error start low high
    have second := error start' low' high'
    rw [abs_le] at *
    constructor <;> linarith
  rw [sub_sub_cancel] at apart
  unfold dedupStartTolS
  linarith

/-! ## What the windows show -/

/-- What identifies an entry: the packet's numbers and where it starts. -/
structure Report where
  ntwId : Option Int
  seqNum : Option Int
  authTag : Option Int
  payloadVal : Option Int
  start : Int
  deriving DecidableEq

namespace Report

variable (e e' : Report)

def bucket : Bucket := (e.seqNum, e.authTag, e.payloadVal)

def timeS : ℚ := absTime e.start

/-- Not taken for the same packet. -/
def Apart : Prop := e.bucket = e'.bucket → ¬Close e.timeS e'.timeS

instance : DecidableRel Apart := fun e e' =>
  inferInstanceAs (Decidable (e.bucket = e'.bucket → ¬Close e.timeS e'.timeS))

theorem apart_irrefl : ¬e.Apart e := fun apart => apart rfl (close_self _)

theorem apart_symm (apart : e.Apart e') : e'.Apart e :=
  fun same close => apart same.symm (close_comm.1 close)

theorem not_apart : ¬e.Apart e' ↔ e.bucket = e'.bucket ∧ Close e.timeS e'.timeS := by
  rw [Apart, Classical.not_imp, not_not]

end Report

def reportAt (p : Packet) (start : Int) : Report := ⟨p.ntwId, p.seqNum, p.authTag, p.payloadVal, start⟩

def DecodedPacket.report (d : DecodedPacket) : Report := reportAt d.packet d.absStart

/-- A packet of a window as it is joined to its start. -/
def showing (offset : Nat) (starts : JoinKey → Option Int) (p : Packet) : Option Report :=
  (starts (p.ntwId, p.seqNum)).map fun start => reportAt p (offset + start)

/-- All that the window at `offset` shows, in order. -/
def shownIn (offset : Nat) : List Report :=
  match tools.decodeSignal ((iq.drop offset).take decodeSamples) with
  | none => []
  | some (packets, attempts) => packets.filterMap (showing offset (startsOf attempts))

/-- All that the sweep is shown, in order. -/
def shown : List Report := (windowOffsets iq.length decodeSamples).flatMap (shownIn tools iq)

/-- The state of the sweep behind what it was shown, latest first. -/
structure Swept (latest : List Report) (st : SweepState) : Prop where
  kept : (st.accepted.map DecodedPacket.report).reverse = latest.pwFilter Report.Apart
  times : ∀ d ∈ st.accepted, d.absTimeS = d.report.timeS
  seen : ∀ b, st.seen b = (st.accepted.filter fun d => bucketKey d.packet = b).map (·.absTimeS)
  measured : st.accepted ≠ [] → padLen smoothingWindow < iq.length

/-! ## The windows -/

section Windows

variable {n win : Nat}

theorem windowStep_pos : 0 < windowStep win := lt_of_lt_of_le one_pos (le_max_left _ _)

theorem windowOffsets_of_le (short : n ≤ win) : windowOffsets n win = [0] := if_pos short

/-- The last regular offset. -/
theorem getLast_offsets (m step : Nat) :
    ((List.range (m / step + 1)).map (· * step)).getLast? = some (m / step * step) := by
  rw [List.range_succ, List.map_append, List.map_singleton, List.getLast?_concat]

/-- Beyond one window: the multiples of the step that leave room for a window, and the end. -/
theorem mem_windowOffsets (long : win < n) {o : Nat} :
    o ∈ windowOffsets n win ↔ (∃ k ≤ (n - win) / windowStep win, o = k * windowStep win) ∨ o = n - win := by
  have regular : o ∈ (List.range ((n - win) / windowStep win + 1)).map (· * windowStep win) ↔
      ∃ k ≤ (n - win) / windowStep win, o = k * windowStep win := by
    simp only [List.mem_map, List.mem_range, Nat.lt_succ_iff, eq_comm]
  unfold windowOffsets
  rw [if_neg (not_le.2 long)]
  dsimp only
  rw [getLast_offsets]
  split
  · rename_i last
    rw [regular]
    constructor
    · exact .inl
    · rintro (mem | rfl)
      · exact mem
      · exact ⟨_, le_rfl, (Option.some.inj last).symm⟩
  · rw [List.mem_append, regular, List.mem_singleton]

theorem windowOffsets_fit (long : win < n) {o : Nat} (mem : o ∈ windowOffsets n win) : o + win ≤ n := by
  rcases (mem_windowOffsets long).1 mem with ⟨k, le, rfl⟩ | rfl
  · have := Nat.mul_le_mul_right (windowStep win) le
    have := Nat.div_mul_le_self (n - win) (windowStep win)
    omega
  · omega

theorem windowOffsets_sorted (n win : Nat) : (windowOffsets n win).Pairwise (· < ·) := by
  unfold windowOffsets
  split
  · exact List.pairwise_singleton _ _
  · have regular : ((List.range ((n - win) / windowStep win + 1)).map (· * windowStep win)).Pairwise
        (· < ·) := by
      apply List.Pairwise.map _ _ List.pairwise_lt_range
      exact fun i j lt => Nat.mul_lt_mul_of_pos_right lt windowStep_pos
    dsimp only
    rw [getLast_offsets]
    split
    · exact regular
    · rename_i last
      apply List.pairwise_append.2
      refine ⟨regular, List.pairwise_singleton _ _, ?_⟩
      intro o mem stop isStop
      cases List.mem_singleton.1 isStop
      obtain ⟨k, bound, rfl⟩ := List.mem_map.1 mem
      have := Nat.mul_le_mul_right (windowStep win) (Nat.lt_succ_iff.1 (List.mem_range.1 bound))
      have := Nat.div_mul_le_self (n - win) (windowStep win)
      have : (n - win) / windowStep win * windowStep win ≠ n - win := fun same => last (congrArg some same)
      omega

/-- Whatever is no longer than the decode interval lies wholly in a window. -/
theorem windowOffsets_cover (room : decodeIntervalSamples < win) {start length : Nat}
    (short : length ≤ decodeIntervalSamples) (inside : start + length ≤ n) :
    ∃ o ∈ windowOffsets n win, o ≤ start ∧ start + length ≤ o + win := by
  by_cases long : win < n
  · have step : windowStep win = win - decodeIntervalSamples := by
      unfold windowStep
      omega
    by_cases before : start / windowStep win ≤ (n - win) / windowStep win
    · refine ⟨_, (mem_windowOffsets long).2 (.inl ⟨_, before, rfl⟩), Nat.div_mul_le_self _ _, ?_⟩
      have := Nat.lt_div_mul_add windowStep_pos (a := start) (b := windowStep win)
      omega
    · have behind : n - win ≤ start := by
        by_contra short
        exact before (Nat.div_le_div_right (by omega))
      exact ⟨n - win, (mem_windowOffsets long).2 (.inr rfl), behind, by omega⟩
  · exact ⟨0, by rw [windowOffsets_of_le (not_lt.1 long)]; simp, by omega, by omega⟩

theorem windowOffsets_head (n win : Nat) : (windowOffsets n win).head? = some 0 := by
  unfold windowOffsets
  split
  · rfl
  · have first : ((List.range ((n - win) / windowStep win + 1)).map (· * windowStep win)).head? = some 0 := by
      simp [List.range_succ_eq_map]
    dsimp only
    split
    · exact first
    · rw [List.head?_append, first, Option.some_or]

/-- **The windows cover the recording.** They start at its first sample, in strictly increasing
order, none reaches over its end, and with a window longer than the decode interval nothing as long
as that interval falls between two of them. -/
theorem windowOffsets_covers (n : Nat) {win : Nat} (room : decodeIntervalSamples < win) :
    (windowOffsets n win).head? = some 0 ∧ (windowOffsets n win).Pairwise (· < ·) ∧
      (∀ o ∈ windowOffsets n win, o ≤ min (o + win) n ∧ (win < n → o + win ≤ n)) ∧
      ∀ start length, length ≤ decodeIntervalSamples → start + length ≤ n →
        ∃ o ∈ windowOffsets n win, o ≤ start ∧ start + length ≤ min (o + win) n := by
  refine ⟨windowOffsets_head n win, windowOffsets_sorted n win, ?_, ?_⟩
  · intro o mem
    by_cases long : win < n
    · have fits := windowOffsets_fit long mem
      omega
    · rw [windowOffsets_of_le (not_lt.1 long), List.mem_singleton] at mem
      omega
  · intro start length short inside
    obtain ⟨o, mem, before, behind⟩ := windowOffsets_cover room short inside
    exact ⟨o, mem, before, le_min behind inside⟩

/-- A packet across the end of the decoder's first window, in a recording of three seconds. -/
theorem windowOffsets_covers_decoder :
    ∃ o ∈ windowOffsets 2343750 decodeSamples, o ≤ 1000000 ∧
      1000000 + 400000 ≤ min (o + decodeSamples) 2343750 := by
  have room : decodeIntervalSamples < decodeSamples := by
    rw [Config.decodeIntervalSamples_eq, Config.decodeSamples_eq]
    omega
  apply (windowOffsets_covers 2343750 room).2.2.2
  · rw [Config.decodeIntervalSamples_eq]
    omega
  · omega

end Windows

/-! ## The join -/

section Join

variable {attempts : List Attempt} {key : JoinKey} {start : Int}

/-- Attempts that come later replace those before. -/
theorem startsOf_append (before after : List Attempt) (key : JoinKey) :
    startsOf (before ++ after) key = (startsOf after key).or (startsOf before key) := by
  unfold startsOf
  rw [List.reverse_append, List.findSome?_append]

theorem mem_of_startsOf (found : startsOf attempts key = some start) :
    ∃ a ∈ attempts, a.decoded = true ∧ (a.ntwId, a.seqNum) = key ∧ a.startSample = some start := by
  obtain ⟨a, mem, here⟩ := List.exists_of_findSome?_eq_some found
  obtain ⟨⟨decoded, same⟩, here⟩ := Option.ite_none_right_eq_some.1 here
  exact ⟨a, List.mem_reverse.1 mem, decoded, same, here⟩

theorem startsOf_of_mem {a : Attempt} (mem : a ∈ attempts) (decoded : a.decoded = true)
    (same : (a.ntwId, a.seqNum) = key) (located : a.startSample = some start) :
    ∃ found, startsOf attempts key = some found := by
  apply Option.isSome_iff_exists.1
  apply List.findSome?_isSome_iff.2
  refine ⟨a, List.mem_reverse.2 mem, ?_⟩
  rw [if_pos ⟨decoded, same⟩, located]
  rfl

end Join

variable {iq}

/-! ## One packet -/

/-- What accepting a packet does to the state, by what it shows. -/
inductive Accepts (iq : List Sample) (st : SweepState) : Option Report → SweepState → Prop where
  | unplaced : Accepts iq st none st
  | repeated (e : Report) (t : ℚ) (seen : t ∈ st.seen e.bucket)
      (close : Close e.timeS t) : Accepts iq st (some e) st
  | fresh (d : DecodedPacket) (time : d.absTimeS = d.report.timeS)
      (far : ∀ t ∈ st.seen d.report.bucket, ¬Close d.report.timeS t)
      (measured : padLen smoothingWindow < iq.length) :
      Accepts iq st (some d.report) ⟨st.accepted ++ [d],
        Function.update st.seen d.report.bucket (st.seen d.report.bucket ++ [d.report.timeS])⟩

variable {K tools} {latest : List Report} {st st' : SweepState} {offset : Nat}
  {starts : JoinKey → Option Int} {p : Packet}

theorem packetEdges_measured {d : Located} {edges : List (Int × Int)}
    (some_edges : packetEdges K tools iq d = some edges) : padLen smoothingWindow < iq.length := by
  obtain ⟨corrected, tracked, -⟩ := Option.map_eq_some_iff.1 some_edges
  have long := correctSymbolEdges_isSome.1 (Option.isSome_of_mem tracked)
  exact lt_of_lt_of_le long (Np.length_slice_le _ _ _)

/-- A segment of a recording that is long enough is, when the slots are. -/
theorem packetEdges_isSome {d : Located} (long : padLen smoothingWindow < iq.length)
    (low : 0 ≤ d.absStart) (high : d.absStart ≤ iq.length)
    (slots : padLen smoothingWindow < (tools.packetSymbolGrid d).2) :
    (packetEdges K tools iq d).isSome := by
  unfold packetEdges
  rw [Option.isSome_map, correctSymbolEdges_isSome]
  have symbols : 0 ≤ ((tools.packetSymbolGrid d).1 : Int) * (tools.packetSymbolGrid d).2 := by positivity
  have segment := Np.length_slice iq (Int.le_max_left 0 (d.absStart - (tools.packetSymbolGrid d).2))
    (Int.min_le_left iq.length (d.absStart + (tools.packetSymbolGrid d).1 * (tools.packetSymbolGrid d).2
      + (tools.packetSymbolGrid d).2)) (by omega)
  apply Int.ofNat_lt.1
  refine lt_of_lt_of_eq ?_ segment.symm
  omega

theorem acceptPacket_accepts (ran : acceptPacket K tools iq offset starts st p = some st') :
    Accepts iq st (showing offset starts p) st' := by
  unfold acceptPacket at ran
  unfold showing
  cases found : starts (p.ntwId, p.seqNum) with
  | none =>
    rw [found] at ran
    cases ran
    exact .unplaced
  | some start =>
    rw [found] at ran
    dsimp only [isDuplicate] at ran
    by_cases seen : (st.seen (bucketKey p)).any (fun t => Close (absTime (offset + start)) t) = true
    · rw [if_pos seen] at ran
      cases ran
      obtain ⟨t, mem, close⟩ := List.any_eq_true.1 seen
      exact .repeated (reportAt p (offset + start)) t mem (of_decide_eq_true close)
    · rw [if_neg seen] at ran
      obtain ⟨edges, measured, rfl⟩ := Option.map_eq_some_iff.1 ran
      apply Accepts.fresh ⟨⟨p, offset + start, _⟩, edges⟩ rfl ?_ (packetEdges_measured measured)
      intro t mem close
      exact seen (List.any_eq_true.2 ⟨t, mem, decide_eq_true close⟩)

theorem foldlM_total {α σ : Type} {f : σ → α → Option σ} {l : List α}
    (total : ∀ a ∈ l, ∀ s, ∃ s', f s a = some s') (s : σ) : ∃ s', l.foldlM f s = some s' := by
  induction l generalizing s with
  | nil => exact ⟨s, rfl⟩
  | cons a l ih =>
    obtain ⟨next, now⟩ := total a List.mem_cons_self s
    obtain ⟨last, later⟩ := ih (fun b hb => total b (List.mem_cons_of_mem a hb)) next
    exact ⟨last, by rw [List.foldlM_cons, now]; exact later⟩

/-- A packet with a start is accepted, or dropped, unless its segment is too short. -/
theorem acceptPacket_isSome
    (tracks : ∀ e ∈ showing offset starts p, ∀ d : Located, d.absStart = e.start →
      (packetEdges K tools iq d).isSome) :
    ∃ st', acceptPacket K tools iq offset starts st p = some st' := by
  unfold acceptPacket
  unfold showing at tracks
  cases found : starts (p.ntwId, p.seqNum) with
  | none => exact ⟨st, rfl⟩
  | some start =>
    rw [found] at tracks
    dsimp only [isDuplicate]
    split
    · exact ⟨_, rfl⟩
    · obtain ⟨edges, tracked⟩ := Option.isSome_iff_exists.1 (tracks (reportAt p (offset + start)) rfl
        ⟨p, offset + start, absTime (offset + start)⟩ rfl)
      exact ⟨_, congrArg (Option.map _) tracked⟩

/-! ## What has been accepted -/

namespace Swept

theorem mem_kept (h : Swept iq latest st) {e : Report} :
    e ∈ latest.pwFilter Report.Apart ↔ ∃ d ∈ st.accepted, d.report = e := by
  rw [← h.kept, List.mem_reverse, List.mem_map]

/-- The accepted times are those of the accepted packets. -/
theorem mem_seen (h : Swept iq latest st) {b : Bucket} {t : ℚ} :
    t ∈ st.seen b ↔ ∃ e ∈ latest.pwFilter Report.Apart, e.bucket = b ∧ e.timeS = t := by
  rw [h.seen, List.mem_map]
  constructor
  · rintro ⟨d, mem, rfl⟩
    obtain ⟨mem, same⟩ := List.mem_filter.1 mem
    exact ⟨d.report, h.mem_kept.2 ⟨d, mem, rfl⟩, of_decide_eq_true same, (h.times d mem).symm⟩
  · rintro ⟨e, mem, rfl, rfl⟩
    obtain ⟨d, accepted, rfl⟩ := h.mem_kept.1 mem
    exact ⟨d, List.mem_filter.2 ⟨accepted, decide_eq_true rfl⟩, h.times d accepted⟩

/-- One packet: what it shows is filtered like everything before it. -/
theorem accept (h : Swept iq latest st) {e : Option Report} (ran : Accepts iq st e st') :
    Swept iq (e.toList ++ latest) st' := by
  cases ran with
  | unplaced => exact h
  | repeated e t seen close =>
    obtain ⟨e', mem, same, rfl⟩ := h.mem_seen.1 seen
    have skip : ¬∀ e' ∈ latest.pwFilter Report.Apart, e.Apart e' :=
      fun all => (e.not_apart e').2 ⟨same.symm, close⟩ (all e' mem)
    refine ⟨?_, h.times, h.seen, h.measured⟩
    rw [h.kept]
    exact (List.pwFilter_cons_of_neg skip).symm
  | fresh d time far measured =>
    have keep : ∀ e ∈ latest.pwFilter Report.Apart, d.report.Apart e :=
      fun e mem same => far e.timeS (h.mem_seen.2 ⟨e, mem, same.symm, rfl⟩)
    refine ⟨?_, ?_, ?_, fun _ => measured⟩
    · rw [List.map_append, List.reverse_append, h.kept]
      exact (List.pwFilter_cons_of_pos keep).symm
    · intro d' mem
      rcases List.mem_append.1 mem with old | new
      · exact h.times d' old
      · cases List.mem_singleton.1 new
        exact time
    · intro b
      rw [List.filter_append, List.map_append, ← h.seen]
      by_cases here : b = d.report.bucket
      · subst here
        have this : bucketKey d.packet = d.report.bucket := rfl
        simp [this, time]
      · have other : bucketKey d.packet ≠ b := Ne.symm here
        simp [Function.update_of_ne here, other]

/-- The packets of a window. -/
theorem packets (h : Swept iq latest st) {ps : List Packet}
    (ran : ps.foldlM (acceptPacket K tools iq offset starts) st = some st') :
    Swept iq ((ps.filterMap (showing offset starts)).reverse ++ latest) st' := by
  induction ps generalizing latest st with
  | nil =>
    cases ran
    exact h
  | cons p ps ih =>
    rw [List.foldlM_cons] at ran
    obtain ⟨next, now, later⟩ := Option.bind_eq_some_iff.1 ran
    have after := ih (h.accept (acceptPacket_accepts now)) later
    rw [List.filterMap_cons]
    cases showed : showing offset starts p with
    | none =>
      rw [showed] at after
      exact after
    | some e =>
      rw [showed] at after
      simpa using after

/-- All windows. -/
theorem windows (h : Swept iq latest st) {offsets : List Nat}
    (ran : offsets.foldlM (sweepWindow K tools iq) st = some st') :
    Swept iq ((offsets.flatMap (shownIn tools iq)).reverse ++ latest) st' := by
  induction offsets generalizing latest st with
  | nil =>
    cases ran
    exact h
  | cons o offsets ih =>
    rw [List.foldlM_cons] at ran
    obtain ⟨next, now, later⟩ := Option.bind_eq_some_iff.1 ran
    have window : Swept iq ((shownIn tools iq o).reverse ++ latest) next := by
      unfold sweepWindow at now
      unfold shownIn
      split at now
      · cases now
        exact h
      · exact h.packets now
    rw [List.flatMap_cons, List.reverse_append, List.append_assoc]
    exact ih window later

end Swept

/-- **What a sweep returns**: of all it is shown, what is not close to
something accepted before, sorted by start. -/
theorem decodePackets_spec {ds : List DecodedPacket} (ran : decodePackets K tools iq = some ds) :
    (ds.map DecodedPacket.report).Perm ((shown tools iq).reverse.pwFilter Report.Apart) ∧
      ds.Pairwise (fun d d' => d.absStart ≤ d'.absStart) ∧
      (ds ≠ [] → padLen smoothingWindow < iq.length) := by
  obtain ⟨st, swept, rfl⟩ := Option.map_eq_some_iff.1 ran
  have start : Swept iq [] ⟨[], fun _ => []⟩ := ⟨rfl, by simp, by simp, by simp⟩
  have final := start.windows swept
  have sorted := List.perm_insertionSort (fun d d' : DecodedPacket => d.absStart ≤ d'.absStart) st.accepted
  refine ⟨?_, ?_, ?_⟩
  · rw [List.append_nil] at final
    have reports := (sorted.map DecodedPacket.report).trans (List.reverse_perm _).symm
    rw [final.kept] at reports
    exact reports
  · have total : Std.Total fun d d' : DecodedPacket => d.absStart ≤ d'.absStart :=
      ⟨fun d d' => le_total d.absStart d'.absStart⟩
    have trans : IsTrans DecodedPacket fun d d' => d.absStart ≤ d'.absStart :=
      ⟨fun _ _ _ => le_trans⟩
    exact List.pairwise_insertionSort _ _
  · intro some_packet
    apply final.measured
    rintro none
    apply some_packet
    rw [none]
    rfl

/-- A sweep whose packets all have a long enough segment returns. -/
theorem decodePackets_isSome
    (tracks : ∀ e ∈ shown tools iq, ∀ d : Located, d.absStart = e.start →
      (packetEdges K tools iq d).isSome) : ∃ ds, decodePackets K tools iq = some ds := by
  have window : ∀ o ∈ windowOffsets iq.length decodeSamples, ∀ st,
      ∃ st', sweepWindow K tools iq st o = some st' := by
    intro o mem st
    unfold sweepWindow
    cases answer : tools.decodeSignal ((iq.drop o).take decodeSamples) with
    | none => exact ⟨st, rfl⟩
    | some found =>
      apply foldlM_total
      intro p hp st
      apply acceptPacket_isSome
      intro e showed
      apply tracks e
      apply List.mem_flatMap.2
      refine ⟨o, mem, ?_⟩
      unfold shownIn
      rw [answer]
      exact List.mem_filterMap.2 ⟨p, hp, showed⟩
  obtain ⟨st, swept⟩ := foldlM_total window ⟨[], fun _ => []⟩
  exact ⟨_, congrArg (Option.map _) swept⟩

end StreamWeb.Analysis

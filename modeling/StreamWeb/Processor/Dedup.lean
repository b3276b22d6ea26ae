import Mathlib.Tactic.Linarith
import StreamWeb.Config
import StreamWeb.Data
import StreamWeb.Lib.Changes
import StreamWeb.Lib.Machine

/-!
# De-duplication of live packets

Decode windows overlap, so a cycle's packets contain repeats of the cycles
before. `recent_decodes` remembers for each key the start time of the packet
reported last and drops a packet that starts within a second of it.

Of packets whose starts are exact and a second apart this keeps what changes
(`reported_eq_kept`): a transmission is reported again when another packet of
its key was listed in between. `reported_exactly_once_iff` is the condition on
the packet lists under which each transmission is reported once.
-/

namespace StreamWeb.Processor

open Config Changes

/-- `(p.get("ntw_id"), p.get("auth_tag"), p.get("payload_val"))`. -/
abbrev DecodeKey := Option Int × Option Int × Option Int

def decodeKey (p : Packet) : DecodeKey := (p.ntwId, p.authTag, p.payloadVal)

abbrev RecentDecodes := DecodeKey → Option ℚ

/-- A processor cycle: its clock and the packets `decode_signal` returned. -/
structure Cycle where
  t0 : ℚ
  packets : List Packet

section Arithmetic

-- how times are subtracted: as floats, or exactly where they are taken to be exact
variable (minus : ℚ → ℚ → ℚ)

/-- The start of a packet of a window that ends at `t0`. -/
def startTWith (t0 : ℚ) (p : Packet) : ℚ := minus t0 (minus decodeWindowS (p.timeS.getD 0))

/-- The entries younger than 3 s. -/
def pruneDecodesWith (t0 : ℚ) (recent : RecentDecodes) : RecentDecodes :=
  fun k => (recent k).filter fun v => minus t0 v < 3

/-- The loop over a cycle's packets: the table it leaves and `deduped`. -/
def dedupeWith (t0 : ℚ) : RecentDecodes → List Packet → RecentDecodes × List Packet
  | recent, [] => (recent, [])
  | recent, p :: ps =>
    let start := startTWith minus t0 p
    let repeated := match recent (decodeKey p) with
      | some prev => decide (|minus start prev| < dedupStartTolS)
      | none => false
    if repeated then dedupeWith t0 recent ps
    else
      let rest := dedupeWith t0 (Function.update recent (decodeKey p) (some start)) ps
      (rest.1, p :: rest.2)

def dedupCycleWith (recent : RecentDecodes) (c : Cycle) : RecentDecodes × List Packet :=
  dedupeWith minus c.t0 (pruneDecodesWith minus c.t0 recent) c.packets

end Arithmetic

/-! With exact times: -/

def startT (t0 : ℚ) (p : Packet) : ℚ := startTWith (· - ·) t0 p

def pruneDecodes (t0 : ℚ) (recent : RecentDecodes) : RecentDecodes := pruneDecodesWith (· - ·) t0 recent

def dedupe (t0 : ℚ) (recent : RecentDecodes) (ps : List Packet) : RecentDecodes × List Packet :=
  dedupeWith (· - ·) t0 recent ps

def dedupCycle (recent : RecentDecodes) (c : Cycle) : RecentDecodes × List Packet :=
  dedupCycleWith (· - ·) recent c

/-- What a packet reports. -/
structure Report where
  key : DecodeKey
  start : ℚ
  deriving DecidableEq

def report (t0 : ℚ) (p : Packet) : Report := ⟨decodeKey p, startT t0 p⟩

def Cycle.reports (c : Cycle) : List Report := c.packets.map (report c.t0)

/-- All reports of a run, in order. -/
def reportedFrom (recent : RecentDecodes) (cycles : List Cycle) : List Report :=
  (List.zipWith (fun c ps => ps.map (report c.t0)) cycles
    (Machine.outputs dedupCycle recent cycles)).flatten

def reported (cycles : List Cycle) : List Report := reportedFrom (fun _ => none) cycles

/-! ## One packet -/

section Packet

variable {minus : ℚ → ℚ → ℚ} {t0 : ℚ} {recent : RecentDecodes} {p : Packet}

theorem dedupeWith_cons_of_close (ps : List Packet) {prev : ℚ} (held : recent (decodeKey p) = some prev)
    (close : |minus (startTWith minus t0 p) prev| < dedupStartTolS) :
    dedupeWith minus t0 recent (p :: ps) = dedupeWith minus t0 recent ps := by
  simp [dedupeWith, held, close]

theorem dedupeWith_cons_of_far (ps : List Packet)
    (far : ¬∃ prev, recent (decodeKey p) = some prev ∧
      |minus (startTWith minus t0 p) prev| < dedupStartTolS) :
    dedupeWith minus t0 recent (p :: ps)
      = ((dedupeWith minus t0 (Function.update recent (decodeKey p) (some (startTWith minus t0 p))) ps).1,
        p :: (dedupeWith minus t0 (Function.update recent (decodeKey p) (some (startTWith minus t0 p))) ps).2) := by
  rw [dedupeWith]
  cases held : recent (decodeKey p) with
  | none => simp
  | some prev =>
    have apart : ¬|minus (startTWith minus t0 p) prev| < dedupStartTolS := fun close => far ⟨prev, held, close⟩
    simp [apart]

/-- What is kept of a cycle are packets of it, in their order. -/
theorem dedupeWith_sublist (minus : ℚ → ℚ → ℚ) (t0 : ℚ) (recent : RecentDecodes) (ps : List Packet) :
    (dedupeWith minus t0 recent ps).2.Sublist ps := by
  induction ps generalizing recent with
  | nil => exact .slnil
  | cons p ps ih =>
    rw [dedupeWith]
    dsimp only
    split <;> split
    · exact (ih _).cons p
    · exact (ih _).cons_cons p
    · exact (ih _).cons p
    · exact (ih _).cons_cons p

theorem dedupCycle_subset (recent : RecentDecodes) (c : Cycle) : (dedupCycle recent c).2 ⊆ c.packets :=
  (dedupeWith_sublist _ _ _ _).subset

end Packet

/-! ## The table remembers the last report of each key -/

/-- Reports of one key are equal or `DEDUP_START_TOL_S` apart. -/
def Spaced (S : Set Report) : Prop :=
  ∀ e ∈ S, ∀ e' ∈ S, e.key = e'.key → e ≠ e' → dedupStartTolS ≤ |e.start - e'.start|

/-- The table agrees with the last reports, except for those at least 3 s old
at time `t`, which it may have dropped. -/
def Remembers (S : Set Report) (t : ℚ) (recent : RecentDecodes) (last : DecodeKey → Option Report) :
    Prop :=
  ∀ k, (last k = none ∧ recent k = none) ∨
    ∃ e ∈ S, last k = some e ∧ e.key = k ∧ (recent k = some e.start ∨ recent k = none ∧ e.start ≤ t - 3)

section Remembering

variable {S : Set Report} {t t0 : ℚ} {recent : RecentDecodes} {last : DecodeKey → Option Report}

theorem Remembers.prune (h : Remembers S t recent last) (le : t ≤ t0) :
    Remembers S t0 (pruneDecodes t0 recent) last := by
  intro k
  rcases h k with ⟨none_yet, absent⟩ | ⟨e, mem, shown, key, held | ⟨dropped, old⟩⟩
  · exact .inl ⟨none_yet, by simp [pruneDecodes, pruneDecodesWith, absent]⟩
  · refine .inr ⟨e, mem, shown, key, ?_⟩
    by_cases young : t0 - e.start < 3
    · left
      simp [pruneDecodes, pruneDecodesWith, held, young]
    · right
      have old : 3 ≤ t0 - e.start := not_lt.1 young
      exact ⟨by simp [pruneDecodes, pruneDecodesWith, held, old], by linarith⟩
  · refine .inr ⟨e, mem, shown, key, .inr ⟨by simp [pruneDecodes, pruneDecodesWith, dropped], ?_⟩⟩
    linarith

theorem Remembers.update (h : Remembers S t recent last) {e : Report} (mem : e ∈ S) :
    Remembers S t (Function.update recent e.key (some e.start)) (Function.update last e.key (some e)) := by
  intro k
  by_cases here : k = e.key
  · subst here
    exact .inr ⟨e, mem, by simp, rfl, .inl (by simp)⟩
  · rw [Function.update_of_ne here, Function.update_of_ne here]
    exact h k

/-- The table's test is whether the last report of the key is the same. -/
theorem Remembers.repeated_iff (spaced : Spaced S) (h : Remembers S t0 recent last) {e : Report}
    (mem : e ∈ S) (inside : t0 - decodeWindowS ≤ e.start) :
    (∃ prev, recent e.key = some prev ∧ |e.start - prev| < dedupStartTolS) ↔ last e.key = some e := by
  constructor
  · rintro ⟨prev, held, close⟩
    rcases h e.key with ⟨-, absent⟩ | ⟨e', mem', shown, key, held' | ⟨dropped, -⟩⟩
    · rw [absent] at held
      cases held
    · rw [held'] at held
      cases held
      by_cases same : e = e'
      · rw [shown, same]
      · exact absurd (spaced e mem e' mem' key.symm same) (not_le.2 close)
    · rw [dropped] at held
      cases held
  · intro shown
    rcases h e.key with ⟨none_yet, -⟩ | ⟨e', -, shown', -, held | ⟨-, old⟩⟩
    · rw [none_yet] at shown
      cases shown
    · rw [shown'] at shown
      cases shown
      exact ⟨e.start, held, by simp [dedupStartTolS]⟩
    · -- a packet still in the window is younger than what was dropped
      rw [shown'] at shown
      cases shown
      unfold decodeWindowS at inside
      linarith

/-- One cycle: the table goes on remembering and `deduped` is what changed. -/
theorem dedupe_eq_kept (spaced : Spaced S) {ps : List Packet}
    (mem : ∀ p ∈ ps, report t0 p ∈ S) (inside : ∀ p ∈ ps, t0 - decodeWindowS ≤ startT t0 p)
    (h : Remembers S t0 recent last) :
    (dedupe t0 recent ps).2.map (report t0) = kept Report.key last (ps.map (report t0)) ∧
      Remembers S t0 (dedupe t0 recent ps).1 (lastOf Report.key last (ps.map (report t0))) := by
  induction ps generalizing recent last with
  | nil => exact ⟨rfl, h⟩
  | cons p ps ih =>
    have mem' : ∀ q ∈ ps, report t0 q ∈ S := fun q hq => mem q (List.mem_cons_of_mem p hq)
    have inside' : ∀ q ∈ ps, t0 - decodeWindowS ≤ startT t0 q :=
      fun q hq => inside q (List.mem_cons_of_mem p hq)
    have here := mem p List.mem_cons_self
    have test := h.repeated_iff spaced here (inside p List.mem_cons_self)
    have next := ih mem' inside' (h.update here)
    by_cases repeated : last (report t0 p).key = some (report t0 p)
    · obtain ⟨prev, held, close⟩ := test.2 repeated
      have unchanged : Function.update last (report t0 p).key (some (report t0 p)) = last := by
        rw [← repeated, Function.update_eq_self]
      have skip : dedupe t0 recent (p :: ps) = dedupe t0 recent ps := dedupeWith_cons_of_close ps held close
      rw [skip, List.map_cons, kept, lastOf_cons, if_pos repeated, unchanged]
      exact ih mem' inside' h
    · have take : dedupe t0 recent (p :: ps) = _ := dedupeWith_cons_of_far ps fun found => repeated (test.1 found)
      rw [take, List.map_cons, List.map_cons, kept, lastOf_cons, if_neg repeated]
      exact ⟨congrArg (report t0 p :: ·) next.1, next.2⟩

end Remembering

/-- **The de-duplication keeps what changes.** -/
theorem reportedFrom_eq_kept {S : Set Report} (spaced : Spaced S) {cycles : List Cycle}
    (mem : ∀ c ∈ cycles, ∀ p ∈ c.packets, report c.t0 p ∈ S)
    (inside : ∀ c ∈ cycles, ∀ p ∈ c.packets, c.t0 - decodeWindowS ≤ startT c.t0 p)
    (sorted : (cycles.map Cycle.t0).IsChain (· ≤ ·)) {t : ℚ} (start : ∀ c ∈ cycles.head?, t ≤ c.t0)
    {recent : RecentDecodes} {last : DecodeKey → Option Report} (h : Remembers S t recent last) :
    reportedFrom recent cycles = kept Report.key last (cycles.map Cycle.reports).flatten := by
  induction cycles generalizing t recent last with
  | nil => rfl
  | cons c cycles ih =>
    obtain ⟨now, after⟩ := dedupe_eq_kept spaced (mem c List.mem_cons_self)
      (inside c List.mem_cons_self) (h.prune (start c rfl))
    have tail := ih (fun c' hc => mem c' (List.mem_cons_of_mem c hc))
      (fun c' hc => inside c' (List.mem_cons_of_mem c hc)) sorted.tail ?later after
    case later =>
      intro c' first
      cases cycles with
      | nil => cases first
      | cons c'' cycles =>
        cases first
        exact (List.isChain_cons_cons.1 sorted).1
    have step : reportedFrom recent (c :: cycles) = (dedupCycle recent c).2.map (report c.t0)
        ++ reportedFrom (dedupCycle recent c).1 cycles := rfl
    rw [step, List.map_cons, List.flatten_cons, kept_append]
    exact congrArg₂ (· ++ ·) now tail

/-! ## Transmissions on the air -/

structure Transmission where
  key : DecodeKey
  start : ℚ
  duration : ℚ
  deriving DecidableEq

namespace Transmission

def stop (a : Transmission) : ℚ := a.start + a.duration

def report (a : Transmission) : Report := ⟨a.key, a.start⟩

/-- It lies wholly inside the decode window that ends at `t0`. -/
def Within (t0 : ℚ) (a : Transmission) : Prop := t0 - decodeWindowS ≤ a.start ∧ a.stop ≤ t0

end Transmission

/-- It ends between the first and the last cycle. -/
def EndsDuring (cycles : List Cycle) (a : Transmission) : Prop :=
  (∃ c ∈ cycles.head?, c.t0 ≤ a.stop) ∧ ∃ c ∈ cycles.getLast?, a.stop ≤ c.t0

/-- What the cycles may rely on: no transmission is longer than `longest`,
those of one key start `DEDUP_START_TOL_S` apart, the cycles are spaced so that
the window holds two of them and a transmission, and each cycle's packets are
those of the transmissions inside its window, with exact starts, in any order. -/
structure Listening (air : Set Transmission) (longest : ℚ) (cycles : List Cycle) : Prop where
  short : ∀ a ∈ air, a.duration ≤ longest
  fits : decodeIntervalS ≤ decodeWindowS - longest
  spaced : ∀ a ∈ air, ∀ b ∈ air, a.key = b.key → a ≠ b → dedupStartTolS ≤ |a.start - b.start|
  gaps : (cycles.map Cycle.t0).IsChain
    fun t t' => decodeIntervalS ≤ t' - t ∧ t' - t ≤ decodeWindowS - longest
  once : ∀ c ∈ cycles, c.reports.Nodup
  decoded : ∀ c ∈ cycles, ∀ e, e ∈ c.reports ↔ ∃ a ∈ air, a.Within c.t0 ∧ a.report = e

namespace Listening

variable {air : Set Transmission} {longest : ℚ} {cycles : List Cycle} {a : Transmission}

theorem report_inj (h : Listening air longest cycles) {b : Transmission} (ha : a ∈ air) (hb : b ∈ air)
    (same : b.report = a.report) : b = a := by
  by_contra ne
  have far := h.spaced b hb a ha (congrArg Report.key same) ne
  have start : b.start = a.start := congrArg Report.start same
  rw [start, sub_self, abs_zero] at far
  norm_num [dedupStartTolS] at far

theorem mem_reports_iff (h : Listening air longest cycles) (ha : a ∈ air) {c : Cycle}
    (hc : c ∈ cycles) : a.report ∈ c.reports ↔ a.Within c.t0 := by
  rw [h.decoded c hc]
  constructor
  · rintro ⟨b, hb, inside, same⟩
    rwa [h.report_inj ha hb same] at inside
  · exact fun inside => ⟨a, ha, inside, rfl⟩

theorem sorted (h : Listening air longest cycles) : (cycles.map Cycle.t0).IsChain (· ≤ ·) := by
  apply h.gaps.imp
  rintro t t' ⟨low, -⟩
  norm_num [decodeIntervalS] at low
  linarith

theorem pairwise (h : Listening air longest cycles) :
    cycles.Pairwise fun c c' => c.t0 ≤ c'.t0 :=
  List.pairwise_map.1 (List.isChain_iff_pairwise.1 h.sorted)

/-- The reports of a run keep what changes in the packet lists. -/
theorem reported_eq_kept (h : Listening air longest cycles) :
    reported cycles = kept Report.key (fun _ => none) (cycles.map Cycle.reports).flatten := by
  have spaced : Spaced (Transmission.report '' air) := by
    rintro _ ⟨a, ha, rfl⟩ _ ⟨b, hb, rfl⟩ key ne
    exact h.spaced a ha b hb key fun same => ne (congrArg _ same)
  have shown : ∀ c ∈ cycles, ∀ p ∈ c.packets,
      ∃ a ∈ air, a.Within c.t0 ∧ a.report = report c.t0 p :=
    fun c hc p hp => (h.decoded c hc _).1 (List.mem_map_of_mem hp)
  apply reportedFrom_eq_kept spaced (t := (cycles.head?.map Cycle.t0).getD 0) ?_ ?_ h.sorted ?_
    fun _ => .inl ⟨rfl, rfl⟩
  · intro c hc p hp
    obtain ⟨a, ha, -, same⟩ := shown c hc p hp
    exact ⟨a, ha, same⟩
  · intro c hc p hp
    obtain ⟨a, -, inside, same⟩ := shown c hc p hp
    have start : a.start = startT c.t0 p := congrArg Report.start same
    exact start ▸ inside.1
  · intro c first
    rw [Option.mem_def] at first
    simp [first]

/-- A transmission that has ended leaves the windows once its start does. -/
theorem leaves {e : Report} (start : ℚ) : ∀ {cs : List Cycle},
    (∀ c ∈ cs, e ∈ c.reports ↔ c.t0 - decodeWindowS ≤ start) →
    cs.Pairwise (fun c c' => c.t0 ≤ c'.t0) → Leaves e (cs.map Cycle.reports) := by
  intro cs
  induction cs with
  | nil => exact fun _ _ => trivial
  | cons c cs ih =>
    intro shown sorted
    obtain ⟨later, sorted'⟩ := List.pairwise_cons.1 sorted
    refine ⟨?_, ih (fun c' hc => shown c' (List.mem_cons_of_mem c hc)) sorted'⟩
    intro out b' mem
    obtain ⟨c', hc, rfl⟩ := List.mem_map.1 mem
    rw [shown c' (List.mem_cons_of_mem c hc)]
    rw [shown c List.mem_cons_self] at out
    have := later c' hc
    intro inside
    apply out
    linarith

/-- The cycles that list a transmission are consecutive. -/
theorem block (h : Listening air longest cycles) (ha : a ∈ air) :
    Block a.report (cycles.map Cycle.reports) := by
  have shown := fun c (hc : c ∈ cycles) => h.mem_reports_iff ha hc
  have sorted := h.pairwise
  clear h
  induction cycles with
  | nil => trivial
  | cons c cs ih =>
    obtain ⟨later, sorted'⟩ := List.pairwise_cons.1 sorted
    have shown' := fun c' (hc : c' ∈ cs) => shown c' (List.mem_cons_of_mem c hc)
    refine ⟨?_, ih shown' sorted'⟩
    intro here
    have ended := ((shown c List.mem_cons_self).1 here).2
    apply leaves a.start ?_ sorted'
    intro c' hc
    rw [shown' c' hc]
    constructor
    · exact fun inside => inside.1
    · exact fun low => ⟨low, le_trans ended (later c' hc)⟩

/-- Every transmission that ends between two cycles is listed. -/
theorem listed (h : Listening air longest cycles) (ha : a ∈ air) (ends : EndsDuring cycles a) :
    ∃ c ∈ cycles, a.Within c.t0 := by
  have short := h.short a ha
  have gaps := h.gaps
  have fits := h.fits
  clear h
  obtain ⟨⟨first, isFirst, low⟩, last, isLast, high⟩ := ends
  induction cycles generalizing first with
  | nil => cases isFirst
  | cons c cs ih =>
    cases isFirst
    -- the cycle at the end of the transmission, if it ends exactly there
    by_cases now : a.stop ≤ c.t0
    · refine ⟨c, List.mem_cons_self, ?_, now⟩
      norm_num [decodeIntervalS] at fits
      unfold Transmission.stop at low
      linarith
    · cases cs with
      | nil =>
        cases isLast
        exact absurd high now
      | cons c' cs =>
        obtain ⟨⟨-, gap⟩, gaps'⟩ := List.isChain_cons_cons.1 gaps
        by_cases next : a.stop ≤ c'.t0
        · refine ⟨c', List.mem_cons_of_mem _ List.mem_cons_self, ?_, next⟩
          unfold Transmission.stop at now
          linarith
        · obtain ⟨found, mem, inside⟩ := ih gaps' c' rfl (le_of_not_ge next) isLast
          exact ⟨found, List.mem_cons_of_mem _ mem, inside⟩

/-- **A listed transmission is reported once** if and only if its listings are
in order. -/
theorem count_reported (h : Listening air longest cycles) (ha : a ∈ air) {c : Cycle}
    (hc : c ∈ cycles) (inside : a.Within c.t0) :
    (reported cycles).count a.report = 1 ↔
      (cycles.map Cycle.reports).IsChain (InOrder Report.key a.report) := by
  rw [h.reported_eq_kept]
  apply count_kept_block
  · intro b mem
    obtain ⟨c', hc', rfl⟩ := List.mem_map.1 mem
    exact h.once c' hc'
  · exact h.block ha
  · exact ⟨c.reports, List.mem_map_of_mem hc, (h.mem_reports_iff ha hc).2 inside⟩
  · simp

/-- A transmission that no cycle lists is not reported, and its listings are in order. -/
theorem count_unlisted (h : Listening air longest cycles) (ha : a ∈ air)
    (out : ¬∃ c ∈ cycles, a.Within c.t0) :
    (reported cycles).count a.report = 0 ∧
      (cycles.map Cycle.reports).IsChain (InOrder Report.key a.report) := by
  have absent : ∀ b ∈ cycles.map Cycle.reports, a.report ∉ b := by
    intro b mem here
    obtain ⟨c, hc, rfl⟩ := List.mem_map.1 mem
    exact out ⟨c, hc, (h.mem_reports_iff ha hc).1 here⟩
  refine ⟨?_, isChain_of_absent absent⟩
  rw [h.reported_eq_kept, List.count_eq_zero]
  intro mem
  obtain ⟨b, hb, here⟩ := List.mem_flatten.1 ((kept_sublist _).subset mem)
  exact absent b hb here

/-- What is listed is reported at least once. -/
theorem count_pos (h : Listening air longest cycles) (ha : a ∈ air) {c : Cycle} (hc : c ∈ cycles)
    (inside : a.Within c.t0) : 0 < (reported cycles).count a.report := by
  rw [h.reported_eq_kept, List.count_pos_iff]
  apply mem_kept_of_mem _ (by simp)
  exact List.mem_flatten.2 ⟨c.reports, List.mem_map_of_mem hc, (h.mem_reports_iff ha hc).2 inside⟩

end Listening

/-- **Exactly-once reporting**: every transmission is reported at most once,
and once when it ends between the first and the last cycle, if and only if,
whenever two consecutive cycles both list a transmission, it comes last of its
key in the earlier list and first of its key in the later. -/
theorem reported_exactly_once_iff (air : Set Transmission) (longest : ℚ) (cycles : List Cycle)
    (h : Listening air longest cycles) :
    (∀ a ∈ air, (reported cycles).count a.report ≤ 1 ∧
        (EndsDuring cycles a → (reported cycles).count a.report = 1)) ↔
      ∀ a ∈ air, (cycles.map Cycle.reports).IsChain (InOrder Report.key a.report) := by
  apply forall₂_congr
  intro a ha
  by_cases listed : ∃ c ∈ cycles, a.Within c.t0
  · obtain ⟨c, hc, inside⟩ := listed
    have pos := h.count_pos ha hc inside
    rw [← h.count_reported ha hc inside]
    constructor
    · intro atMost
      omega
    · intro once
      exact ⟨once.le, fun _ => once⟩
  · obtain ⟨zero, ordered⟩ := h.count_unlisted ha listed
    constructor
    · exact fun _ => ordered
    · intro _
      refine ⟨by omega, ?_⟩
      intro ends
      exact absurd (h.listed ha ends) listed

/-- Two transmissions of one device with the same payload, 1.1 s apart. -/
def early : Transmission := ⟨(some 7, some 1, some 5), 11 / 10, 1 / 10⟩

def late : Transmission := ⟨(some 7, some 1, some 5), 11 / 5, 1 / 10⟩

/-- Their packet in a window of which they start at `time`. -/
def packetAt (time : ℚ) : Packet where
  phyVer := 1
  ntwId := some 7
  seqNum := some 1
  authTag := some 1
  payloadVal := some 5
  timeS := some time

/-- The first window is empty, the second holds `early`, the third both;
`later` are its packets. -/
def threeCycles (later : List Packet) : List Cycle :=
  [⟨1, []⟩, ⟨2, [packetAt (3 / 5)]⟩, ⟨13 / 5, later⟩]

theorem listening_threeCycles {later : List Packet}
    (order : later = [packetAt 0, packetAt (11 / 10)] ∨ later = [packetAt (11 / 10), packetAt 0]) :
    Listening {early, late} (1 / 2) (threeCycles later) := by
  have second : ∀ e, e ∈ (⟨13 / 5, later⟩ : Cycle).reports ↔ e = early.report ∨ e = late.report := by
    intro e
    rcases order with rfl | rfl
    · simp [Cycle.reports, report, startT, startTWith, packetAt, early, late, Transmission.report, decodeKey,
        decodeWindowS]
      norm_num
    · simp [Cycle.reports, report, startT, startTWith, packetAt, early, late, Transmission.report, decodeKey,
        decodeWindowS]
      norm_num
      exact or_comm
  have first : (⟨2, [packetAt (3 / 5)]⟩ : Cycle).reports = [early.report] := by
    simp [Cycle.reports, report, startT, startTWith, packetAt, early, Transmission.report, decodeKey,
      decodeWindowS]
    norm_num
  constructor
  · rintro a (rfl | rfl) <;> norm_num [early, late]
  · norm_num [decodeIntervalS, decodeWindowS]
  · rintro a (rfl | rfl) b (rfl | rfl) - ne
    · exact absurd rfl ne
    · norm_num [early, late, dedupStartTolS, abs_of_nonneg, abs_of_nonpos]
    · norm_num [early, late, dedupStartTolS, abs_of_nonneg, abs_of_nonpos]
    · exact absurd rfl ne
  · norm_num [threeCycles, decodeIntervalS, decodeWindowS]
  · rintro c hc
    simp only [threeCycles, List.mem_cons, List.not_mem_nil, or_false] at hc
    rcases hc with rfl | rfl | rfl
    · exact List.nodup_nil
    · rw [first]
      exact List.nodup_singleton _
    · rcases order with rfl | rfl <;>
      norm_num [Cycle.reports, report, startT, startTWith, packetAt, decodeKey, decodeWindowS]
  · rintro c hc
    simp only [threeCycles, List.mem_cons, List.not_mem_nil, or_false] at hc
    rcases hc with rfl | rfl | rfl
    · norm_num [Cycle.reports, Transmission.Within, early, late, Transmission.stop, decodeWindowS]
    · intro e
      rw [first]
      norm_num [Transmission.Within, early, late, Transmission.stop, decodeWindowS, eq_comm]
    · intro e
      rw [second]
      norm_num [Transmission.Within, early, late, Transmission.stop, decodeWindowS, eq_comm]

/-- With the packets in time order each is reported once. -/
theorem reported_exactly_once_in_order :
    (reported (threeCycles [packetAt 0, packetAt (11 / 10)])).count early.report = 1 := by
  have ordered : ∀ a ∈ ({early, late} : Set Transmission),
      ((threeCycles [packetAt 0, packetAt (11 / 10)]).map Cycle.reports).IsChain
        (InOrder Report.key a.report) := by
    rintro a (rfl | rfl) <;> decide +kernel
  have ends : EndsDuring (threeCycles [packetAt 0, packetAt (11 / 10)]) early := by
    norm_num [EndsDuring, threeCycles, early, Transmission.stop]
  exact ((reported_exactly_once_iff {early, late} (1 / 2) _
    (listening_threeCycles (.inl rfl))).2 ordered early (.inl rfl)).2 ends

/-- With the later one first, the earlier one is reported again. -/
theorem reported_twice :
    Listening {early, late} (1 / 2) (threeCycles [packetAt (11 / 10), packetAt 0]) ∧
      EndsDuring (threeCycles [packetAt (11 / 10), packetAt 0]) early ∧
      (reported (threeCycles [packetAt (11 / 10), packetAt 0])).count early.report = 2 := by
  refine ⟨listening_threeCycles (.inr rfl), ?_, ?_⟩
  · norm_num [EndsDuring, threeCycles, early, Transmission.stop]
  · decide +kernel

end StreamWeb.Processor

import StreamWeb.Analysis.DecodePackets

/-!
# Exactly-once reporting by the offline sweep

A window's packets are joined to its attempts by `(ntw_id, seq_num)`, of which
a window may hold several: all of them get the start of the attempt listed
last. And two transmissions that start exactly `DEDUP_START_TOL_S` apart may be
taken for one, as the difference of their times is rounded. `Recoverable` is the
exact condition on the transmissions of a recording under which neither does
harm, whatever the order of the decoder's lists, and
`decodePackets_exactly_once_iff` says so.
-/

namespace StreamWeb.Analysis

open Config Timing

/-- A transmission of the recording, in samples. -/
structure Transmission where
  start : Nat
  length : Nat
  ntwId : Option Int
  seqNum : Option Int
  authTag : Option Int
  payloadVal : Option Int
  deriving DecidableEq

namespace Transmission

variable (a : Transmission)

def key : JoinKey := (a.ntwId, a.seqNum)

def numbers : Option Int × Option Int × Option Int × Option Int :=
  (a.ntwId, a.seqNum, a.authTag, a.payloadVal)

/-- The transmission reported with the start `start`. -/
def reportedAt (start : Int) : Report := ⟨a.ntwId, a.seqNum, a.authTag, a.payloadVal, start⟩

def report : Report := a.reportedAt a.start

/-- With the same sequence number, tag and payload they start `DEDUP_START_TOL_S` apart. -/
def Spaced (b : Transmission) : Prop :=
  a.report.bucket = b.report.bucket → dedupStartTolS * sampleRate ≤ |(a.start : ℚ) - b.start|

instance : DecidableRel Spaced := fun a b =>
  inferInstanceAs (Decidable (_ → dedupStartTolS * sampleRate ≤ |(a.start : ℚ) - b.start|))

/-- It lies wholly inside the window at `offset`. -/
def Inside (offset : Nat) : Prop := offset ≤ a.start ∧ a.start + a.length ≤ offset + decodeSamples

instance (offset : Nat) : Decidable (a.Inside offset) := inferInstanceAs (Decidable (_ ∧ _))

end Transmission

/-- The transmissions of a recording of `n` samples: none is longer than the
decode interval, and those that differ only in `ntw_id` and start do not start
within `DEDUP_START_TOL_S` of each other, which is a number of samples here. -/
structure OnAir (n : Nat) (txs : List Transmission) : Prop where
  inside : ∀ a ∈ txs, a.start + a.length ≤ n
  short : ∀ a ∈ txs, a.length ≤ decodeIntervalSamples
  spaced : txs.Pairwise Transmission.Spaced

def inWindow (txs : List Transmission) (offset : Nat) : List Transmission :=
  txs.filter fun a => a.Inside offset

/-- The window at `offset` gives one packet and one decoded attempt for every
transmission inside it, and nothing else, in any order. -/
structure Answer (txs : List Transmission) (offset : Nat) (packets : List Packet)
    (attempts : List Attempt) : Prop where
  packets : (packets.map fun p => (p.ntwId, p.seqNum, p.authTag, p.payloadVal)).Perm
    ((inWindow txs offset).map Transmission.numbers)
  attempts : (attempts.map fun a => (a.decoded, (a.ntwId, a.seqNum), a.startSample)).Perm
    ((inWindow txs offset).map fun a => (true, a.key, some ((a.start : Int) - offset)))

def Answers (tools : Tools) (iq : List Sample) (txs : List Transmission) : Prop :=
  ∀ o ∈ windowOffsets iq.length decodeSamples, ∃ packets attempts,
    tools.decodeSignal ((iq.drop o).take decodeSamples) = some (packets, attempts) ∧
      Answer txs o packets attempts

/-- A slot is longer than the padding of `filtfilt`. -/
def Tools.SlotsLong (tools : Tools) : Prop :=
  ∀ d, padLen smoothingWindow < (tools.packetSymbolGrid d).2

/-- One entry for each transmission, with its own start, sorted by start. -/
structure ExactlyOnce (txs : List Transmission) (ds : List DecodedPacket) : Prop where
  entries : (ds.map DecodedPacket.report).Perm (txs.map Transmission.report)
  sorted : ds.Pairwise fun d d' => d.absStart ≤ d'.absStart

/-- The condition on the transmissions of a recording of `n` samples. -/
structure Recoverable (n : Nat) (txs : List Transmission) : Prop where
  /-- The recording is longer than the padding of `filtfilt`. -/
  measurable : txs ≠ [] → padLen smoothingWindow < n
  /-- The sweep tells their times apart. -/
  told : txs.Pairwise fun a b => a.report.Apart b.report
  /-- Every transmission has a window in which all of its key start with it. -/
  alone : ∀ a ∈ txs, ∃ o ∈ windowOffsets n decodeSamples, a.Inside o ∧
    ∀ b ∈ txs, b.Inside o → b.key = a.key → b.start = a.start
  /-- When a window can report `a` at the start of `b`, then that is right for
  a transmission with the numbers of `a`, or else it is a duplicate of what an
  earlier window is certain to report rightly. -/
  repaired : ∀ o ∈ windowOffsets n decodeSamples, ∀ a ∈ txs, ∀ b ∈ txs, a.Inside o → b.Inside o →
    b.key = a.key → a.reportedAt b.start ∈ txs.map Transmission.report ∨
      ∃ o' ∈ windowOffsets n decodeSamples, o' < o ∧ ∃ u ∈ txs, u.Inside o' ∧
        ∀ v ∈ txs, v.Inside o' → v.key = u.key →
          u.reportedAt v.start ∈ txs.map Transmission.report ∧
            ¬(a.reportedAt b.start).Apart (u.reportedAt v.start)

variable {K : DecoderConstants} {tools : Tools} {iq : List Sample} {n : Nat} {txs : List Transmission}
  {a b : Transmission} {o : Nat}

theorem mem_inWindow : a ∈ inWindow txs o ↔ a ∈ txs ∧ a.Inside o := by
  rw [inWindow, List.mem_filter, decide_eq_true_eq]

theorem Recoverable.apart (recoverable : Recoverable n txs) :
    ∀ e ∈ txs.map Transmission.report, ∀ e' ∈ txs.map Transmission.report, e ≠ e' → e.Apart e' := by
  have told : (txs.map Transmission.report).Pairwise Report.Apart := List.pairwise_map.2 recoverable.told
  have symm : Std.Symm Report.Apart := ⟨Report.apart_symm⟩
  intro e he e' he' ne
  exact told.forall he he' ne

namespace OnAir

theorem nodup (air : OnAir n txs) : (txs.map Transmission.report).Nodup := by
  apply List.pairwise_map.2
  apply air.spaced.imp
  intro a b far same
  have start : (a.start : Int) = b.start := congrArg Report.start same
  have start : (a.start : ℚ) = b.start := by exact_mod_cast start
  have far := far (congrArg Report.bucket same)
  rw [start, sub_self, abs_zero] at far
  norm_num [dedupStartTolS, sampleRate] at far

theorem report_inj (air : OnAir n txs) (ha : a ∈ txs) (hb : b ∈ txs) (same : a.report = b.report) :
    a = b :=
  List.inj_on_of_nodup_map air.nodup ha hb same

end OnAir

/-! ## What a window shows -/

section Window

variable {packets : List Packet} {attempts : List Attempt}

theorem shownIn_eq (answered : tools.decodeSignal ((iq.drop o).take decodeSamples) = some (packets, attempts)) :
    shownIn tools iq o = packets.filterMap (showing o (startsOf attempts)) := by
  unfold shownIn
  rw [answered]

/-- The start found for a key is that of a transmission with this key. -/
theorem Answer.joined (h : Answer txs o packets attempts) {key : JoinKey} {start : Int}
    (found : startsOf attempts key = some start) :
    ∃ b ∈ inWindow txs o, b.key = key ∧ o + start = b.start := by
  obtain ⟨x, mem, decoded, same, located⟩ := mem_of_startsOf found
  obtain ⟨b, inside, eq⟩ := List.mem_map.1 (h.attempts.subset (List.mem_map_of_mem mem))
  rw [decoded, same, located] at eq
  simp only [Prod.mk.injEq, true_and, Option.some.injEq] at eq
  exact ⟨b, inside, eq.1, by omega⟩

/-- Every transmission inside is found by its key. -/
theorem Answer.found (h : Answer txs o packets attempts) (inside : a ∈ inWindow txs o) :
    ∃ start, startsOf attempts a.key = some start := by
  have listed := h.attempts.symm.subset (List.mem_map_of_mem inside)
  obtain ⟨x, mem, eq⟩ := List.mem_map.1 listed
  simp only [Prod.mk.injEq] at eq
  obtain ⟨decoded, same, located⟩ := eq
  exact startsOf_of_mem mem decoded same located

theorem showing_of_numbers {p : Packet} {starts : JoinKey → Option Int} {start : Int}
    (same : a.numbers = (p.ntwId, p.seqNum, p.authTag, p.payloadVal)) (found : starts a.key = some start) :
    showing o starts p = some (a.reportedAt (o + start)) := by
  simp only [Transmission.numbers, Prod.mk.injEq] at same
  obtain ⟨ntw, seq, auth, payload⟩ := same
  unfold Transmission.key at found
  rw [ntw, seq] at found
  unfold showing Transmission.reportedAt
  rw [found, ntw, seq, auth, payload]
  rfl

/-- A window reports its transmissions, each at the start of one of its key. -/
theorem Answer.of_shown (h : Answer txs o packets attempts) {e : Report}
    (showed : e ∈ packets.filterMap (showing o (startsOf attempts))) :
    ∃ a ∈ inWindow txs o, ∃ b ∈ inWindow txs o, b.key = a.key ∧ e = a.reportedAt b.start ∧
      startsOf attempts a.key = some ((b.start : Int) - o) := by
  obtain ⟨p, mem, here⟩ := List.mem_filterMap.1 showed
  obtain ⟨a, ha, same⟩ := List.mem_map.1 (h.packets.subset (List.mem_map_of_mem mem))
  obtain ⟨start, found⟩ := h.found ha
  obtain ⟨b, hb, key, eq⟩ := h.joined found
  rw [showing_of_numbers same found, eq] at here
  refine ⟨a, ha, b, hb, key, (Option.some.inj here).symm, ?_⟩
  rw [found, ← eq]
  congr 1
  omega

/-- A window reports every transmission inside it. -/
theorem Answer.shows (h : Answer txs o packets attempts) (ha : a ∈ inWindow txs o) :
    ∃ b ∈ inWindow txs o, b.key = a.key ∧
      a.reportedAt b.start ∈ packets.filterMap (showing o (startsOf attempts)) := by
  obtain ⟨p, mem, same⟩ := List.mem_map.1 (h.packets.symm.subset (List.mem_map_of_mem ha))
  obtain ⟨start, found⟩ := h.found ha
  obtain ⟨b, hb, key, eq⟩ := h.joined found
  refine ⟨b, hb, key, List.mem_filterMap.2 ⟨p, mem, ?_⟩⟩
  rw [showing_of_numbers same.symm found, eq]

end Window

theorem Answers.of_shownIn (answers : Answers tools iq txs)
    (window : o ∈ windowOffsets iq.length decodeSamples) {e : Report} (showed : e ∈ shownIn tools iq o) :
    ∃ a ∈ txs, ∃ b ∈ txs, a.Inside o ∧ b.Inside o ∧ b.key = a.key ∧ e = a.reportedAt b.start := by
  obtain ⟨packets, attempts, answered, answer⟩ := answers o window
  rw [shownIn_eq answered] at showed
  obtain ⟨a, ha, b, hb, key, eq, -⟩ := answer.of_shown showed
  obtain ⟨ha, insideA⟩ := mem_inWindow.1 ha
  obtain ⟨hb, insideB⟩ := mem_inWindow.1 hb
  exact ⟨a, ha, b, hb, insideA, insideB, key, eq⟩

theorem Answers.shows (answers : Answers tools iq txs)
    (window : o ∈ windowOffsets iq.length decodeSamples) (ha : a ∈ txs) (inside : a.Inside o) :
    ∃ b ∈ txs, b.Inside o ∧ b.key = a.key ∧ a.reportedAt b.start ∈ shownIn tools iq o := by
  obtain ⟨packets, attempts, answered, answer⟩ := answers o window
  obtain ⟨b, hb, key, showed⟩ := answer.shows (mem_inWindow.2 ⟨ha, inside⟩)
  obtain ⟨hb, insideB⟩ := mem_inWindow.1 hb
  exact ⟨b, hb, insideB, key, by rwa [shownIn_eq answered]⟩

/-! ## The condition is sufficient -/

/-- With starts inside the recording the sweep returns. -/
theorem Answers.returns (answers : Answers tools iq txs) (air : OnAir iq.length txs)
    (slots : tools.SlotsLong) (measurable : txs ≠ [] → padLen smoothingWindow < iq.length) :
    ∃ ds, decodePackets K tools iq = some ds := by
  apply decodePackets_isSome
  intro e showed d same
  obtain ⟨o, window, here⟩ := List.mem_flatMap.1 showed
  obtain ⟨a, ha, b, hb, -, -, -, rfl⟩ := answers.of_shownIn window here
  have start : d.absStart = b.start := same
  have bound := air.inside b hb
  exact packetEdges_isSome (measurable (List.ne_nil_of_mem ha)) (by omega) (by omega) (slots d)

/-- Behind any number of windows, the accepted reports are the true ones among those shown. -/
theorem accepted_prefix (answers : Answers tools iq txs)
    (recoverable : Recoverable iq.length txs) {before : List Nat} :
    ∀ after, windowOffsets iq.length decodeSamples = before ++ after → ∀ e,
      e ∈ (before.flatMap (shownIn tools iq)).reverse.pwFilter Report.Apart ↔
        e ∈ txs.map Transmission.report ∧ e ∈ (before.flatMap (shownIn tools iq)).reverse := by
  induction before using List.reverseRecOn with
  | nil => simp
  | append_singleton before o ih =>
    intro after split
    have split' : windowOffsets iq.length decodeSamples = before ++ o :: after := by
      rw [split, List.append_assoc, List.singleton_append]
    have window : o ∈ windowOffsets iq.length decodeSamples := by
      rw [split']
      exact List.mem_append_right _ List.mem_cons_self
    rw [List.flatMap_append, List.flatMap_singleton, List.reverse_append]
    apply List.mem_pwFilter_append Report.apart_irrefl recoverable.apart (ih _ split')
    intro e showed wrong
    obtain ⟨a, ha, b, hb, insideA, insideB, key, rfl⟩ :=
      answers.of_shownIn window (List.mem_reverse.1 showed)
    rcases recoverable.repaired o window a ha b hb insideA insideB key with right | repaired
    · exact absurd right wrong
    · obtain ⟨o', window', earlier, u, hu, insideU, certain⟩ := repaired
      obtain ⟨v, hv, insideV, key', there⟩ := answers.shows window' hu insideU
      obtain ⟨right, close⟩ := certain v hv insideV key'
      refine ⟨_, List.mem_reverse.2 (List.mem_flatMap.2 ⟨o', ?_, there⟩), right, close⟩
      -- an earlier window has been swept
      have sorted := windowOffsets_sorted iq.length decodeSamples
      rw [split'] at sorted window'
      rcases List.mem_append.1 window' with swept | later
      · exact swept
      · rcases List.mem_cons.1 later with rfl | later
        · omega
        · have := (List.pairwise_cons.1 (List.pairwise_append.1 sorted).2.1).1 o' later
          omega

theorem Recoverable.exactlyOnce (recoverable : Recoverable iq.length txs) (air : OnAir iq.length txs)
    (slots : tools.SlotsLong) (answers : Answers tools iq txs) :
    ∃ ds, decodePackets K tools iq = some ds ∧ ExactlyOnce txs ds := by
  obtain ⟨ds, ran⟩ := answers.returns (K := K) air slots recoverable.measurable
  obtain ⟨entries, sorted, -⟩ := decodePackets_spec ran
  refine ⟨ds, ran, entries.trans ?_, sorted⟩
  have exact := accepted_prefix answers recoverable [] (List.append_nil _).symm
  apply (List.perm_ext_iff_of_nodup (List.nodup_pwFilter Report.apart_irrefl _) air.nodup).2
  intro e
  refine (exact e).trans (and_iff_left_of_imp ?_)
  -- every transmission is shown in a window in which its start is certain
  intro mem
  obtain ⟨a, ha, rfl⟩ := List.mem_map.1 mem
  obtain ⟨o, window, inside, alone⟩ := recoverable.alone a ha
  obtain ⟨b, hb, insideB, key, showed⟩ := answers.shows window ha inside
  rw [alone b hb insideB key] at showed
  exact List.mem_reverse.2 (List.mem_flatMap.2 ⟨o, window, showed⟩)

/-! ## The condition is necessary

A recording whose samples are all different, and a decoder that may list a
window's packets and attempts in any order it likes. -/

def Transmission.packet (a : Transmission) : Packet where
  phyVer := 1
  ntwId := a.ntwId
  seqNum := a.seqNum
  authTag := a.authTag
  payloadVal := a.payloadVal

def Transmission.attempt (a : Transmission) (offset : Nat) : Attempt where
  decoded := true
  startSample := some (a.start - offset)
  ntwId := a.ntwId
  seqNum := a.seqNum

/-- Sample `i` is the number `i`. -/
def numbered (n : Nat) : List Sample := (List.range n).map fun i : Nat => ⟨i, 0⟩

/-- A decoder of numbered samples that gives for each offset what it is told. -/
def scripted (packets attempts : Nat → List Transmission) : Tools where
  decodeSignal window :=
    let o := ((window.head?.map Sample.re).getD 0).num.toNat
    some ((packets o).map Transmission.packet, (attempts o).map (·.attempt o))
  packetSymbolGrid _ := (1, 6250)
  smoothed _ window := window.map fun _ => 0

theorem scripted_slotsLong {packets attempts : Nat → List Transmission} :
    (scripted packets attempts).SlotsLong := by
  intro d
  show padLen smoothingWindow < 6250
  decide

theorem length_numbered : (numbered n).length = n := by simp [numbered]

/-- The decoder sees which window it is given. -/
theorem scripted_decodeSignal (packets attempts : Nat → List Transmission)
    (window : o ∈ windowOffsets n decodeSamples) :
    (scripted packets attempts).decodeSignal (((numbered n).drop o).take decodeSamples) =
      some ((packets o).map Transmission.packet, (attempts o).map (·.attempt o)) := by
  have head : ((((numbered n).drop o).take decodeSamples).head?.map Sample.re).getD 0 = (o : ℚ) := by
    rw [List.head?_take, if_neg (by rw [decodeSamples_eq]; decide), List.head?_drop]
    by_cases inside : o < n
    · simp [numbered, inside]
    · have first : o = 0 := by
        by_cases long : decodeSamples < n
        · have := windowOffsets_fit long window
          rw [decodeSamples_eq] at this
          omega
        · rw [windowOffsets_of_le (not_lt.1 long)] at window
          exact List.mem_singleton.1 window
      subst first
      simp [numbered, not_lt.1 inside]
  unfold scripted
  dsimp only
  rw [head, Rat.num_natCast, Int.toNat_natCast]

theorem scripted_answers {packets attempts : Nat → List Transmission}
    (all : ∀ o, (packets o).Perm (inWindow txs o) ∧ (attempts o).Perm (inWindow txs o)) :
    Answers (scripted packets attempts) (numbered n) txs := by
  intro o window
  rw [length_numbered] at window
  refine ⟨_, _, scripted_decodeSignal packets attempts window, ?_, ?_⟩
  · rw [List.map_map]
    exact (all o).1.map _
  · rw [List.map_map]
    exact (all o).2.map _

/-- The transmissions with `bad` behind the others. -/
def badLast (bad : Transmission → Bool) (l : List Transmission) : List Transmission :=
  l.filter (fun a => !bad a) ++ l.filter bad

theorem badLast_perm (bad : Transmission → Bool) (l : List Transmission) : (badLast bad l).Perm l :=
  List.perm_append_comm.trans (List.filter_append_perm bad l)

/-- The decoder that lists the attempts of bad starts last. -/
def adverse (txs : List Transmission) (packets : Nat → List Transmission)
    (bad : Nat → Transmission → Bool) : Tools :=
  scripted packets fun o => badLast (bad o) (inWindow txs o)

section Adverse

variable {packets : Nat → List Transmission} (bad : Nat → Transmission → Bool)

theorem adverse_answers (all : ∀ o, (packets o).Perm (inWindow txs o)) :
    Answers (adverse txs packets bad) (numbered n) txs :=
  scripted_answers fun o => ⟨all o, badLast_perm (bad o) _⟩

/-- A bad start is found in place of a good one. -/
theorem startsOf_badLast {v : Transmission} (hv : v ∈ inWindow txs o) (isBad : bad o v = true) {start : Int}
    (found : startsOf ((badLast (bad o) (inWindow txs o)).map (·.attempt o)) v.key = some start) :
    ∃ b ∈ inWindow txs o, b.key = v.key ∧ bad o b = true ∧ start = b.start - o := by
  have listed : v.attempt o ∈ ((inWindow txs o).filter (bad o)).map (·.attempt o) :=
    List.mem_map_of_mem (List.mem_filter.2 ⟨hv, isBad⟩)
  obtain ⟨last, first⟩ := startsOf_of_mem listed rfl rfl rfl
  unfold badLast at found
  rw [List.map_append, startsOf_append] at found
  rw [show startsOf _ v.key = some last from first, Option.some_or] at found
  cases found
  obtain ⟨x, mem, -, same, located⟩ := mem_of_startsOf first
  obtain ⟨b, isLast, rfl⟩ := List.mem_map.1 mem
  obtain ⟨hb, badB⟩ := List.mem_filter.1 isLast
  exact ⟨b, hb, same, badB, (Option.some.inj located).symm⟩

/-- Whatever a window can report at a bad start it does. -/
theorem adverse_shown (all : ∀ o, (packets o).Perm (inWindow txs o))
    (window : o ∈ windowOffsets n decodeSamples) {e : Report}
    (showed : e ∈ shownIn (adverse txs packets bad) (numbered n) o) :
    ∃ a ∈ inWindow txs o, ∃ b ∈ inWindow txs o, b.key = a.key ∧ e = a.reportedAt b.start ∧
      ∀ v ∈ inWindow txs o, v.key = a.key → bad o v = true → bad o b = true := by
  have answered : (adverse txs packets bad).decodeSignal _ = some _ :=
    scripted_decodeSignal packets (fun o => badLast (bad o) (inWindow txs o)) window
  rw [shownIn_eq answered] at showed
  obtain ⟨packets', attempts', answered', answer⟩ :=
    adverse_answers (n := n) bad all o (by rwa [length_numbered])
  have same := answered'.symm.trans answered
  cases same
  obtain ⟨a, ha, b, hb, key, rfl, found⟩ := answer.of_shown showed
  by_cases worse : ∃ v ∈ inWindow txs o, v.key = a.key ∧ bad o v = true
  · obtain ⟨v, hv, key', isBad⟩ := worse
    rw [← key'] at found
    obtain ⟨b', hb', key'', badB, start⟩ := startsOf_badLast bad hv isBad found
    have same : (b'.start : Int) = b.start := by omega
    exact ⟨a, ha, b', hb', key''.trans key', by rw [same], fun _ _ _ _ => badB⟩
  · exact ⟨a, ha, b, hb, key, rfl, fun v hv key' isBad => absurd ⟨v, hv, key', isBad⟩ worse⟩

/-- The packet listed first is reported first. -/
theorem adverse_first (all : ∀ o, (packets o).Perm (inWindow txs o))
    (window : o ∈ windowOffsets n decodeSamples) {rest : List Transmission} (first : packets o = a :: rest) :
    ∃ start later, shownIn (adverse txs packets bad) (numbered n) o = a.reportedAt start :: later := by
  have answered : (adverse txs packets bad).decodeSignal _ = some _ :=
    scripted_decodeSignal packets (fun o => badLast (bad o) (inWindow txs o)) window
  obtain ⟨packets', attempts', answered', answer⟩ :=
    adverse_answers (n := n) bad all o (by rwa [length_numbered])
  have same := answered'.symm.trans answered
  cases same
  have here : a ∈ inWindow txs o := (all o).subset (first ▸ List.mem_cons_self)
  obtain ⟨start, found⟩ := answer.found here
  have head : showing o (startsOf _) a.packet = some (a.reportedAt (o + start)) := showing_of_numbers rfl found
  rw [shownIn_eq answered, first, List.map_cons, List.filterMap_cons_some head]
  exact ⟨_, _, rfl⟩

end Adverse

/-- The claim on the transmissions of a recording: whatever the recording is
and in whatever order the decoder lists what it finds. -/
def AlwaysExactlyOnce (K : DecoderConstants) (n : Nat) (txs : List Transmission) : Prop :=
  ∀ (tools : Tools) (iq : List Sample), iq.length = n → tools.SlotsLong → Answers tools iq txs →
    ∃ ds, decodePackets K tools iq = some ds ∧ ExactlyOnce txs ds

/-- What is accepted of an adverse decoder's reports is what is on the air. -/
theorem AlwaysExactlyOnce.accepted (always : AlwaysExactlyOnce K n txs)
    {packets : Nat → List Transmission} (all : ∀ o, (packets o).Perm (inWindow txs o))
    (bad : Nat → Transmission → Bool) (e : Report) :
    e ∈ (shown (adverse txs packets bad) (numbered n)).reverse.pwFilter Report.Apart ↔
      e ∈ txs.map Transmission.report := by
  obtain ⟨ds, ran, exactly⟩ := always _ (numbered n) length_numbered scripted_slotsLong
    (adverse_answers bad all)
  exact ((decodePackets_spec ran).1.symm.trans exactly.entries).mem_iff

theorem AlwaysExactlyOnce.measurable (always : AlwaysExactlyOnce K n txs) (some_tx : txs ≠ []) :
    padLen smoothingWindow < n := by
  obtain ⟨ds, ran, exactly⟩ := always _ (numbered n) length_numbered scripted_slotsLong
    (adverse_answers (fun _ _ => false) fun o => List.Perm.refl (inWindow txs o))
  rw [← length_numbered (n := n)]
  apply (decodePackets_spec ran).2.2
  rintro rfl
  have none := exactly.entries.length_eq
  rw [List.length_map, List.length_map, List.length_nil] at none
  exact some_tx (List.length_eq_zero_iff.1 none.symm)

/-- What is accepted is told apart. -/
theorem AlwaysExactlyOnce.told (always : AlwaysExactlyOnce K n txs) :
    txs.Pairwise fun a b => a.report.Apart b.report := by
  obtain ⟨ds, ran, exactly⟩ := always _ (numbered n) length_numbered scripted_slotsLong
    (adverse_answers (fun _ _ => false) fun o => List.Perm.refl (inWindow txs o))
  have same := (decodePackets_spec ran).1.symm.trans exactly.entries
  apply List.pairwise_map.1
  exact (same.pairwise_iff fun {e e'} => e.apart_symm e').1 (List.pairwise_pwFilter _)

/-- Let every window prefer starts other than that of `a`. -/
theorem AlwaysExactlyOnce.alone (always : AlwaysExactlyOnce K n txs) (air : OnAir n txs) (ha : a ∈ txs) :
    ∃ o ∈ windowOffsets n decodeSamples, a.Inside o ∧
      ∀ b ∈ txs, b.Inside o → b.key = a.key → b.start = a.start := by
  have all : ∀ o, (inWindow txs o).Perm (inWindow txs o) := fun o => List.Perm.refl _
  have kept := (always.accepted all (fun _ v => decide (v.start ≠ a.start)) a.report).2
    (List.mem_map_of_mem ha)
  have showed := List.mem_reverse.1 (List.pwFilter_subset _ kept)
  rw [shown, length_numbered] at showed
  obtain ⟨o, window, here⟩ := List.mem_flatMap.1 showed
  obtain ⟨u, hu, w, hw, key, eq, prefers⟩ := adverse_shown _ all window here
  simp only [Transmission.report, Transmission.reportedAt, Report.mk.injEq, Int.natCast_inj] at eq
  obtain ⟨ntw, seq, auth, payload, start⟩ := eq
  have certain : ∀ v ∈ inWindow txs o, v.key = u.key → v.start = a.start := by
    intro v hv key'
    by_contra other
    exact absurd start.symm (of_decide_eq_true (prefers v hv key' (decide_eq_true other)))
  obtain ⟨hu', inside⟩ := mem_inWindow.1 hu
  have same : a = u := by
    apply air.report_inj ha hu'
    simp only [Transmission.report, Transmission.reportedAt, certain u hu rfl, ntw, seq, auth, payload]
  subst same
  exact ⟨o, window, inside, fun b hb insideB => certain b (mem_inWindow.2 ⟨hb, insideB⟩)⟩

/-- The numbers of `a` but for the network, which is that of `v`, and the start of `v`. -/
def Transmission.joinedTo (a v : Transmission) : Report := { a.reportedAt v.start with ntwId := v.ntwId }

/-- Joined to `v`, a packet like `a` makes a true report that excludes `e`. -/
def Excludes (txs : List Transmission) (a : Transmission) (e : Report) (v : Transmission) : Prop :=
  a.joinedTo v ∈ txs.map Transmission.report ∧ ¬e.Apart (a.joinedTo v)

instance (e : Report) : DecidablePred (Excludes txs a e) := fun _ => inferInstanceAs (Decidable (_ ∧ _))

/-- The window at `o` lists the packet of `a` first. -/
def packetFirst (txs : List Transmission) (a : Transmission) (o o' : Nat) : List Transmission :=
  if o' = o then a :: (inWindow txs o).erase a else inWindow txs o'

/-- The window at `o` prefers the start of `b`, every other one starts that do
not exclude the report of `a` at that start. -/
def joinsTo (txs : List Transmission) (a b : Transmission) (o o' : Nat) (v : Transmission) : Bool :=
  if o' = o then v.start = b.start else ¬Excludes txs a (a.reportedAt b.start) v

theorem packetFirst_perm (here : a ∈ inWindow txs o) (o' : Nat) :
    (packetFirst txs a o o').Perm (inWindow txs o') := by
  unfold packetFirst
  split
  · rename_i same
    rw [same]
    exact (List.perm_cons_erase here).symm
  · exact List.Perm.refl _

theorem joinedTo_eq {u v : Transmission} {s t : Int} (bucket : (a.reportedAt s).bucket = (u.reportedAt t).bucket)
    (key : v.key = u.key) : a.joinedTo v = u.reportedAt v.start := by
  simp only [Report.bucket, Transmission.reportedAt, Prod.mk.injEq] at bucket
  obtain ⟨seq, auth, payload⟩ := bucket
  have ntw : v.ntwId = u.ntwId := congrArg Prod.fst key
  simp only [Transmission.joinedTo, Transmission.reportedAt, ntw, seq, auth, payload]

/-- The window at `o` reports `a` first, at the start of `b`. -/
theorem shownIn_joinsTo (window : o ∈ windowOffsets n decodeSamples) (ha : a ∈ inWindow txs o)
    (hb : b ∈ inWindow txs o) (key : b.key = a.key) :
    ∃ later, shownIn (adverse txs (packetFirst txs a o) (joinsTo txs a b o)) (numbered n) o =
      a.reportedAt b.start :: later := by
  obtain ⟨start, later, first⟩ := adverse_first (joinsTo txs a b o) (packetFirst_perm ha) window (if_pos rfl)
  obtain ⟨a', -, b', -, key', eq, prefers⟩ :=
    adverse_shown _ (packetFirst_perm ha) window (by rw [first]; exact List.mem_cons_self)
  simp only [Transmission.reportedAt, Report.mk.injEq] at eq
  obtain ⟨ntw, seq, -, -, rfl⟩ := eq
  have sameKey : b.key = a'.key := by
    rw [key]
    exact Prod.ext ntw seq
  have bad := prefers b hb sameKey (by simp [joinsTo])
  have moved : b'.start = b.start := by simpa [joinsTo] using bad
  rw [moved] at first
  exact ⟨later, first⟩

/-- When another window reports `u` so that `a` at the start of `b` is excluded,
it does so whatever start it finds for `u`. -/
theorem certain_of_joinsTo {o' : Nat} (other : o' ≠ o) {u w : Transmission}
    (key : w.key = u.key) (right : u.reportedAt w.start ∈ txs.map Transmission.report)
    (close : ¬(a.reportedAt b.start).Apart (u.reportedAt w.start))
    (prefers : ∀ v ∈ inWindow txs o', v.key = u.key → joinsTo txs a b o o' v = true →
      joinsTo txs a b o o' w = true) :
    ∀ v ∈ txs, v.Inside o' → v.key = u.key →
      u.reportedAt v.start ∈ txs.map Transmission.report ∧
        ¬(a.reportedAt b.start).Apart (u.reportedAt v.start) := by
  have bucket := ((Report.not_apart _ _).1 close).1
  have spares : ∀ x, joinsTo txs a b o o' x = true ↔ ¬Excludes txs a (a.reportedAt b.start) x := by
    intro x
    rw [joinsTo, if_neg other, decide_eq_true_eq]
  have excluding : Excludes txs a (a.reportedAt b.start) w := by
    unfold Excludes
    rw [joinedTo_eq bucket key]
    exact ⟨right, close⟩
  intro v hv inside key'
  rw [← joinedTo_eq bucket key']
  by_contra spared
  exact (spares w).1 (prefers v (mem_inWindow.2 ⟨hv, inside⟩) key' ((spares v).2 spared)) excluding

/-- Such a decoder makes the sweep report `a` at the start of `b`, unless an
earlier window is certain to exclude that. -/
theorem AlwaysExactlyOnce.repaired (always : AlwaysExactlyOnce K n txs)
    (window : o ∈ windowOffsets n decodeSamples) (ha : a ∈ txs) (hb : b ∈ txs) (insideA : a.Inside o)
    (insideB : b.Inside o) (key : b.key = a.key) (wrong : a.reportedAt b.start ∉ txs.map Transmission.report) :
    ∃ o' ∈ windowOffsets n decodeSamples, o' < o ∧ ∃ u ∈ txs, u.Inside o' ∧
      ∀ v ∈ txs, v.Inside o' → v.key = u.key →
        u.reportedAt v.start ∈ txs.map Transmission.report ∧
          ¬(a.reportedAt b.start).Apart (u.reportedAt v.start) := by
  have hereA := mem_inWindow.2 ⟨ha, insideA⟩
  have accepted := always.accepted (packetFirst_perm hereA) (joinsTo txs a b o)
  obtain ⟨later, first⟩ := shownIn_joinsTo window hereA (mem_inWindow.2 ⟨hb, insideB⟩) key
  obtain ⟨before, after, split⟩ := List.append_of_mem window
  rw [shown, length_numbered, split, List.flatMap_append, List.flatMap_cons, first, List.cons_append,
    List.reverse_append, List.reverse_cons, List.append_assoc, List.singleton_append] at accepted
  -- the report of `a` at the start of `b` is wrong, so one before it has excluded it
  obtain ⟨g, swept, right, close⟩ := List.exists_excluding (G := {e | e ∈ txs.map Transmission.report})
    (fun e kept => (accepted e).1 kept) wrong
  obtain ⟨o', before', showed⟩ := List.mem_flatMap.1 (List.mem_reverse.1 swept)
  have sorted := windowOffsets_sorted n decodeSamples
  rw [split] at sorted
  have earlier : o' < o := (List.pairwise_append.1 sorted).2.2 o' before' o List.mem_cons_self
  have window' : o' ∈ windowOffsets n decodeSamples := by
    rw [split]
    exact List.mem_append_left _ before'
  obtain ⟨u, hu, w, -, key', rfl, prefers⟩ := adverse_shown _ (packetFirst_perm hereA) window' showed
  obtain ⟨hu, insideU⟩ := mem_inWindow.1 hu
  exact ⟨o', window', earlier, u, hu, insideU, certain_of_joinsTo earlier.ne key' right close prefers⟩

/-- **Exactly-once reporting by the sweep**, whatever the recording and the
order of the decoder's lists: it holds if and only if the transmissions are
recoverable. -/
theorem decodePackets_exactly_once_iff (K : DecoderConstants) (n : Nat) (txs : List Transmission)
    (air : OnAir n txs) : AlwaysExactlyOnce K n txs ↔ Recoverable n txs := by
  constructor
  · intro always
    refine ⟨always.measurable, always.told, fun a ha => always.alone air ha, ?_⟩
    intro o window a ha b hb insideA insideB key
    by_cases right : a.reportedAt b.start ∈ txs.map Transmission.report
    · exact .inl right
    · exact .inr (always.repaired window ha hb insideA insideB key right)
  · rintro recoverable tools iq rfl slots answers
    exact recoverable.exactlyOnce air slots answers

/-- In a recording of up to a century the sweep tells all times apart, unless two transmissions
start a second apart to the sample. -/
theorem OnAir.told (air : OnAir n txs) (century : n < 2 ^ 52)
    (uneven : txs.Pairwise fun a b =>
      a.report.bucket = b.report.bucket → |(a.start : Int) - b.start| ≠ sampleRate) :
    txs.Pairwise fun a b => a.report.Apart b.report := by
  have early : ∀ a ∈ txs, (a.start : Int) < 2 ^ 52 := by
    intro a ha
    have := air.inside a ha
    omega
  apply (air.spaced.and uneven).imp_of_mem
  rintro a b ha hb ⟨spaced, uneven⟩ same
  apply not_close_absTime (Int.natCast_nonneg _) (Int.natCast_nonneg _) (early a ha) (early b hb)
  have apart : (sampleRate : Int) ≤ |(a.start : Int) - b.start| := by
    have spaced := spaced same
    rw [dedupStartTolS, one_mul] at spaced
    exact_mod_cast spaced
  exact lt_of_le_of_ne apart (uneven same).symm

/-- No window wholly holds two transmissions of one key that start apart. -/
def Separated (n : Nat) (txs : List Transmission) : Prop :=
  ∀ o ∈ windowOffsets n decodeSamples, ∀ a ∈ txs, ∀ b ∈ txs, a.Inside o → b.Inside o →
    b.key = a.key → b.start = a.start

/-- Then every transmission is joined to its own start in every window. -/
theorem Separated.recoverable (separated : Separated n txs) (air : OnAir n txs)
    (measurable : padLen smoothingWindow < n)
    (told : txs.Pairwise fun a b => a.report.Apart b.report) : Recoverable n txs := by
  refine ⟨fun _ => measurable, told, ?_, ?_⟩
  · intro a ha
    have room : decodeIntervalSamples < decodeSamples := by
      rw [decodeIntervalSamples_eq, decodeSamples_eq]
      decide
    obtain ⟨o, window, inside⟩ := windowOffsets_cover room (air.short a ha) (air.inside a ha)
    exact ⟨o, window, inside, fun b hb insideB => separated o window a ha b hb inside insideB⟩
  · intro o window a ha b hb insideA insideB key
    left
    rw [separated o window a ha b hb insideA insideB key]
    exact List.mem_map_of_mem ha

/-! ## Two packets of one device in a window -/

def protocol : DecoderConstants := ⟨32, 6, 6250, fun _ => none, 7500⟩

/-- A half-second packet at 0.1 s. -/
def first : Transmission := ⟨78125, 390625, some 7, some 1, some 1, some 5⟩

/-- Another of the same device and sequence number at 0.8 s, with other content. -/
def second : Transmission := ⟨625000, 390625, some 7, some 1, some 2, some 6⟩

/-- The same with the next sequence number. -/
def following : Transmission := ⟨625000, 390625, some 7, some 2, some 2, some 6⟩

/-- A packet of another device a second behind one at sample 8, with the same sequence number and
content, is taken for the same: the difference of their times is rounded to less than a second. -/
example : Transmission.Spaced ⟨8, 390625, some 7, some 1, some 1, some 5⟩
      ⟨781258, 390625, some 8, some 1, some 1, some 5⟩ ∧
    Close (absTime 781258) (absTime 8) := by
  decide +kernel

/-- The decoder that lists a window's packets and attempts in order of time. -/
def inOrder (txs : List Transmission) : Tools := scripted (inWindow txs) (inWindow txs)

theorem inOrder_answers : Answers (inOrder txs) (numbered n) txs :=
  scripted_answers fun _ => ⟨List.Perm.refl _, List.Perm.refl _⟩

theorem onAir_pair (b : Transmission) (other : b = second ∨ b = following) :
    OnAir 1171875 [first, b] := by
  constructor
  · rcases other with rfl | rfl <;> decide
  · rw [decodeIntervalSamples_eq]
    rcases other with rfl | rfl <;> decide
  · rcases other with rfl | rfl <;> decide +kernel

/-- With different sequence numbers both are reported, each once. -/
theorem exactly_once_following :
    ∃ ds, decodePackets protocol (inOrder [first, following]) (numbered 1171875) = some ds ∧
      ExactlyOnce [first, following] ds := by
  have separated : Separated 1171875 [first, following] := by
    intro o window a ha b hb insideA insideB
    simp only [List.mem_cons, List.not_mem_nil, or_false] at ha hb
    rcases ha with rfl | rfl <;> rcases hb with rfl | rfl <;> decide
  have air := onAir_pair following (.inr rfl)
  exact (decodePackets_exactly_once_iff protocol 1171875 [first, following] air).2
    (separated.recoverable air (by decide) (by decide +kernel)) (inOrder _) (numbered 1171875) length_numbered
    scripted_slotsLong inOrder_answers

theorem shown_pair : shown (inOrder [first, second]) (numbered 1171875) =
    [first.reportedAt second.start, second.report] := by
  have whole : windowOffsets 1171875 decodeSamples = [0] := windowOffsets_of_le decodeSamples_eq.ge
  have both : inWindow [first, second] 0 = [first, second] := by decide +kernel
  have answered : (inOrder [first, second]).decodeSignal _ = some _ :=
    scripted_decodeSignal (inWindow [first, second]) (inWindow [first, second])
      (whole ▸ List.mem_singleton_self 0)
  rw [shown, length_numbered, whole, List.flatMap_singleton, shownIn_eq answered, both]
  decide

/-- **Both packets get the start of the second**, and none that of the first. -/
theorem joined_to_wrong_start :
    OnAir 1171875 [first, second] ∧ (inOrder [first, second]).SlotsLong ∧
      Answers (inOrder [first, second]) (numbered 1171875) [first, second] ∧
      ∃ ds, decodePackets protocol (inOrder [first, second]) (numbered 1171875) = some ds ∧
        (ds.map DecodedPacket.report).Perm [second.report, first.reportedAt second.start] ∧
        ¬ExactlyOnce [first, second] ds := by
  have air := onAir_pair second (.inl rfl)
  have answers : Answers (inOrder [first, second]) (numbered 1171875) [first, second] := inOrder_answers
  have onAir : OnAir (numbered 1171875).length [first, second] := by rwa [length_numbered]
  obtain ⟨ds, ran⟩ := answers.returns (K := protocol) onAir scripted_slotsLong
    fun _ => by rw [length_numbered]; decide
  have reports := (decodePackets_spec ran).1
  have kept : [second.report, first.reportedAt second.start].pwFilter Report.Apart =
      [second.report, first.reportedAt second.start] := by decide +kernel
  rw [shown_pair, List.reverse_cons, List.reverse_singleton, List.singleton_append, kept] at reports
  refine ⟨air, scripted_slotsLong, answers, ds, ran, reports, ?_⟩
  intro exactly
  have listed : first.report ∈ [second.report, first.reportedAt second.start] :=
    (reports.symm.trans exactly.entries).symm.subset List.mem_cons_self
  revert listed
  decide

end StreamWeb.Analysis

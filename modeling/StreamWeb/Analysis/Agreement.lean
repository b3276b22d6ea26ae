import StreamWeb.Analysis.DecodePackets
import StreamWeb.Lib.Greedy
import StreamWeb.Processor.Dedup

/-!
# The two de-duplications

`DEDUP_START_TOL_S` is shared by the processor's loop and by the sweep over a
recording: decodes of the same packet, that is of the same device id, auth tag
and payload, within it are to be treated as one (`SameDecode`). On packets in
order of their start the processor's table, which remembers one start for each
key and forgets it by age, collapses what is the same and close as floats go
(`liveKept_eq`). The sweep goes by the sequence number where the processor goes
by the device id. `live_offline_agree_iff` is the condition on pairs of packets
under which it makes no difference.
-/

namespace StreamWeb.Analysis

open Config Greedy
open Processor (RecentDecodes decodeKey startTWith pruneDecodesWith dedupeWith dedupCycleWith
  dedupeWith_cons_of_close dedupeWith_cons_of_far dedupeWith_sublist)
open Py (subDouble)

/-- A packet and when it starts. -/
abbrev Timed := Packet × ℚ

/-- Decodes of the same packet: the same device id, auth tag and payload, within the tolerance. -/
def SameDecode (x k : Timed) : Prop := decodeKey x.1 = decodeKey k.1 ∧ |x.2 - k.2| < dedupStartTolS

/-- What the processor takes for the same packet. -/
def SameKey (x k : Timed) : Prop := decodeKey x.1 = decodeKey k.1 ∧ Close x.2 k.2

/-- What the sweep takes for the same packet. -/
def SameBucket (x k : Timed) : Prop := bucketKey x.1 = bucketKey k.1 ∧ Close x.2 k.2

instance : DecidableRel SameDecode := fun _ _ => inferInstanceAs (Decidable (_ ∧ _))

instance : DecidableRel SameKey := fun _ _ => inferInstanceAs (Decidable (_ ∧ _))

instance : DecidableRel SameBucket := fun _ _ => inferInstanceAs (Decidable (_ ∧ _))

/-- Two packets of which both rules say what is documented. -/
structure Alike (k x : Timed) : Prop where
  /-- Close together, with one tag and payload, they have one device id or two as they have one
  sequence number or two. -/
  keys : Close x.2 k.2 → x.1.authTag = k.1.authTag → x.1.payloadVal = k.1.payloadVal →
    (x.1.ntwId = k.1.ntwId ↔ x.1.seqNum = k.1.seqNum)
  /-- The rounding of the difference does not put the same packet out of the tolerance. -/
  rounding : decodeKey x.1 = decodeKey k.1 → |x.2 - k.2| < dedupStartTolS → Close x.2 k.2

instance : DecidableRel Alike := fun k x =>
  decidable_of_iff
    ((Close x.2 k.2 → x.1.authTag = k.1.authTag → x.1.payloadVal = k.1.payloadVal →
        (x.1.ntwId = k.1.ntwId ↔ x.1.seqNum = k.1.seqNum)) ∧
      (decodeKey x.1 = decodeKey k.1 → |x.2 - k.2| < dedupStartTolS → Close x.2 k.2))
    ⟨fun h => ⟨h.1, h.2⟩, fun h => ⟨h.keys, h.rounding⟩⟩

/-! ## The processor -/

/-- The packets of a cycle with their starts. -/
def timed (t0 : ℚ) (ps : List Packet) : List Timed := ps.map fun p => (p, startTWith subDouble t0 p)

/-- What the processor keeps of a run of cycles. -/
def liveKeptFrom : RecentDecodes → List Processor.Cycle → List Timed
  | _, [] => []
  | recent, c :: cs =>
    timed c.t0 (dedupCycleWith subDouble recent c).2 ++ liveKeptFrom (dedupCycleWith subDouble recent c).1 cs

def liveKept (cycles : List Processor.Cycle) : List Timed := liveKeptFrom (fun _ => none) cycles

/-- The table against what was kept: an entry is the start of a kept packet, and a kept packet is
no later than the entry of its key, unless it is three seconds old but for the rounding. -/
structure Recalls (ks : List Timed) (t : ℚ) (recent : RecentDecodes) : Prop where
  known : ∀ key prev, recent key = some prev → ∃ e ∈ ks, decodeKey e.1 = key ∧ e.2 = prev
  latest : ∀ e ∈ ks, (∃ prev, recent (decodeKey e.1) = some prev ∧ e.2 ≤ prev) ∨ e.2 ≤ t - 11 / 4

namespace Recalls

variable {ks : List Timed} {t t0 start : ℚ} {recent : RecentDecodes} {p : Packet}

/-- An entry that is dropped is old. -/
theorem old_of_dropped {prev : ℚ} (dropped : ¬subDouble t0 prev < 3) : 11 / 4 < t0 - prev := by
  by_contra young
  have bound := Py.double_mono (not_lt.1 young)
  have exact : Py.double (11 / 4) = 11 / 4 := by
    have := Py.double_eq_self (m := 11) (e := -2) (by norm_num)
    norm_num at this
    exact this
  rw [exact] at bound
  apply dropped
  unfold subDouble
  linarith

theorem prune (h : Recalls ks t recent) (le : t ≤ t0) :
    Recalls ks t0 (pruneDecodesWith subDouble t0 recent) := by
  constructor
  · intro key prev held
    exact h.known key prev (Option.filter_eq_some_iff.1 held).1
  · intro e member
    rcases h.latest e member with ⟨prev, held, later⟩ | old
    · by_cases young : subDouble t0 prev < 3
      · exact .inl ⟨prev, Option.filter_eq_some_iff.2 ⟨held, decide_eq_true young⟩, later⟩
      · right
        linarith [old_of_dropped young]
    · right
      linarith

theorem add (h : Recalls ks t recent) (ordered : ∀ e ∈ ks, e.2 ≤ start) :
    Recalls (ks ++ [(p, start)]) t (Function.update recent (decodeKey p) (some start)) := by
  constructor
  · intro key prev held
    by_cases here : key = decodeKey p
    · subst here
      rw [Function.update_self] at held
      cases held
      exact ⟨(p, start), by simp, rfl, rfl⟩
    · rw [Function.update_of_ne here] at held
      obtain ⟨e, member, facts⟩ := h.known key prev held
      exact ⟨e, List.mem_append_left _ member, facts⟩
  · intro e member
    rcases List.mem_append.1 member with old | new
    · by_cases here : decodeKey e.1 = decodeKey p
      · exact .inl ⟨start, by rw [here, Function.update_self], ordered e old⟩
      · rw [Function.update_of_ne here]
        exact h.latest e old
    · rw [List.mem_singleton.1 new]
      exact .inl ⟨start, by rw [Function.update_self], le_rfl⟩

/-- The table's test of a packet that starts inside the window finds every kept one that is close. -/
theorem repeats_iff (h : Recalls ks t recent) (ordered : ∀ e ∈ ks, e.2 ≤ start)
    (inside : t - decodeWindowS ≤ start) :
    (∃ prev, recent (decodeKey p) = some prev ∧ Close start prev) ↔ Repeats SameKey ks (p, start) := by
  constructor
  · rintro ⟨prev, held, close⟩
    obtain ⟨e, member, key, rfl⟩ := h.known _ prev held
    exact ⟨e, member, key.symm, close⟩
  · rintro ⟨e, member, key, close⟩
    have key : decodeKey p = decodeKey e.1 := key
    have close : Close start e.2 := close
    rcases h.latest e member with ⟨prev, held, later⟩ | old
    · obtain ⟨e', member', -, rfl⟩ := h.known _ prev held
      exact ⟨e'.2, by rw [key, held], close_of_between close later (ordered e' member')⟩
    · -- a packet in the window starts well after what the table may have dropped
      refine absurd close (not_close ?_)
      rw [abs_of_nonneg (sub_nonneg.2 (ordered e member))]
      unfold decodeWindowS at inside
      unfold dedupStartTolS
      linarith

end Recalls

/-- In order of start. -/
def InOrder (xs : List Timed) : Prop := xs.Pairwise fun x y => x.2 ≤ y.2

/-- One cycle keeps what repeats nothing kept, and the table goes on recalling it. -/
theorem dedupe_keptFrom {t0 : ℚ} {ps : List Packet}
    (inside : ∀ p ∈ ps, t0 - decodeWindowS ≤ startTWith subDouble t0 p) {ks : List Timed}
    {recent : RecentDecodes} (h : Recalls ks t0 recent) (ordered : InOrder (ks ++ timed t0 ps)) :
    ks ++ timed t0 (dedupeWith subDouble t0 recent ps).2 = keptFrom SameKey ks (timed t0 ps)
      ∧ Recalls (ks ++ timed t0 (dedupeWith subDouble t0 recent ps).2) t0 (dedupeWith subDouble t0 recent ps).1 := by
  induction ps generalizing ks recent with
  | nil =>
    rw [dedupeWith, timed, List.map_nil, List.append_nil]
    exact ⟨rfl, h⟩
  | cons p ps ih =>
    have inside' : ∀ q ∈ ps, t0 - decodeWindowS ≤ startTWith subDouble t0 q :=
      fun q member => inside q (List.mem_cons_of_mem p member)
    have before : ∀ e ∈ ks, e.2 ≤ startTWith subDouble t0 p := fun e member =>
      (List.pairwise_append.1 ordered).2.2 e member (p, startTWith subDouble t0 p) List.mem_cons_self
    have test := h.repeats_iff (p := p) before (inside p List.mem_cons_self)
    show ks ++ timed t0 (dedupeWith subDouble t0 recent (p :: ps)).2
        = keptFrom SameKey ks ((p, startTWith subDouble t0 p) :: timed t0 ps) ∧ _
    by_cases again : Repeats SameKey ks (p, startTWith subDouble t0 p)
    · obtain ⟨prev, held, close⟩ := test.2 again
      have skip := dedupeWith_cons_of_close ps held close
      have rest : (ks ++ timed t0 ps).Sublist (ks ++ timed t0 (p :: ps)) :=
        (List.sublist_cons_self _ _).append_left ks
      rw [skip, keptFrom_cons_of_repeats again]
      exact ih inside' h (ordered.sublist rest)
    · have take := dedupeWith_cons_of_far ps fun found => again (test.1 found)
      have rest : InOrder ((ks ++ [(p, startTWith subDouble t0 p)]) ++ timed t0 ps) := by
        rw [List.append_assoc]
        exact ordered
      have next := ih inside' (h.add before) rest
      rw [take, keptFrom_cons_of_new again, ← next.1]
      refine ⟨by simp [timed], ?_⟩
      have shift : ks ++ timed t0 (p :: (dedupeWith subDouble t0
            (Function.update recent (decodeKey p) (some (startTWith subDouble t0 p))) ps).2)
          = ks ++ [(p, startTWith subDouble t0 p)] ++ timed t0 (dedupeWith subDouble t0
            (Function.update recent (decodeKey p) (some (startTWith subDouble t0 p))) ps).2 := by
        simp [timed]
      rw [shift]
      exact next.2

/-- All packets of a run of cycles with their starts. -/
def allTimed (cycles : List Processor.Cycle) : List Timed := cycles.flatMap fun c => timed c.t0 c.packets

/-- A run of cycles: the clock does not go back, a packet starts inside its cycle's window, and the
packets come in order of start. -/
structure Run (cycles : List Processor.Cycle) : Prop where
  clock : (cycles.map Processor.Cycle.t0).Pairwise (· ≤ ·)
  inside : ∀ c ∈ cycles, ∀ p ∈ c.packets, c.t0 - decodeWindowS ≤ startTWith subDouble c.t0 p
  ordered : InOrder (allTimed cycles)

theorem liveKeptFrom_eq {cycles : List Processor.Cycle}
    (clock : (cycles.map Processor.Cycle.t0).Pairwise (· ≤ ·))
    (inside : ∀ c ∈ cycles, ∀ p ∈ c.packets, c.t0 - decodeWindowS ≤ startTWith subDouble c.t0 p)
    {ks : List Timed} {t : ℚ} {recent : RecentDecodes} (h : Recalls ks t recent)
    (later : ∀ c ∈ cycles, t ≤ c.t0) (ordered : InOrder (ks ++ allTimed cycles)) :
    ks ++ liveKeptFrom recent cycles = keptFrom SameKey ks (allTimed cycles) := by
  induction cycles generalizing ks t recent with
  | nil => exact List.append_nil ks
  | cons c cs ih =>
    obtain ⟨first, clock⟩ := List.pairwise_cons.1 clock
    have split : allTimed (c :: cs) = timed c.t0 c.packets ++ allTimed cs := List.flatMap_cons
    rw [split, ← List.append_assoc] at ordered
    have here := dedupe_keptFrom (inside c List.mem_cons_self) (h.prune (later c List.mem_cons_self))
      (ordered.sublist (List.sublist_append_left _ _))
    have kept : (ks ++ timed c.t0 (dedupCycleWith subDouble recent c).2).Sublist (ks ++ timed c.t0 c.packets) :=
      ((dedupeWith_sublist _ _ _ _).map _).append_left ks
    rw [split, keptFrom_append, ← here.1, liveKeptFrom, ← List.append_assoc]
    exact ih clock (fun c' member => inside c' (List.mem_cons_of_mem c member)) here.2
      (fun c' member => first c'.t0 (List.mem_map_of_mem member))
      (ordered.sublist (kept.append_right _))

/-- **The processor collapses** packets of the same device id, auth tag and payload that are close. -/
theorem liveKept_eq {cycles : List Processor.Cycle} (run : Run cycles) :
    liveKept cycles = kept SameKey (allTimed cycles) := by
  cases cycles with
  | nil => rfl
  | cons c cs =>
    have blank : Recalls [] c.t0 fun _ => none := ⟨by simp, by simp⟩
    apply liveKeptFrom_eq run.clock run.inside blank _ run.ordered
    intro c' member
    rcases List.mem_cons.1 member with rfl | later
    · exact le_rfl
    · exact (List.pairwise_cons.1 run.clock).1 c'.t0 (List.mem_map_of_mem later)

/-! ## The sweep -/

def Located.timed (d : Located) : Timed := (d.packet, d.absTimeS)

/-- What folding `_is_duplicate` over a sequence keeps. -/
def offlineKeptFrom : Seen → List Located → List Located
  | _, [] => []
  | seen, d :: ds =>
    if (isDuplicate d seen).1 then offlineKeptFrom (isDuplicate d seen).2 ds
    else d :: offlineKeptFrom (isDuplicate d seen).2 ds

def offlineKept (ds : List Located) : List Located := offlineKeptFrom (fun _ => []) ds

/-- The buckets hold the starts of what was kept. -/
def Lists (ks : List Timed) (seen : Seen) : Prop :=
  ∀ b t, t ∈ seen b ↔ ∃ e ∈ ks, bucketKey e.1 = b ∧ e.2 = t

theorem Lists.repeats_iff {ks : List Timed} {seen : Seen} (h : Lists ks seen) (d : Located) :
    (∃ t ∈ seen (bucketKey d.packet), Close d.absTimeS t)
      ↔ Repeats SameBucket ks d.timed := by
  constructor
  · rintro ⟨t, member, close⟩
    obtain ⟨e, kept, key, rfl⟩ := (h _ t).1 member
    exact ⟨e, kept, key.symm, close⟩
  · rintro ⟨e, kept, key, close⟩
    exact ⟨e.2, (h _ e.2).2 ⟨e, kept, key.symm, rfl⟩, close⟩

theorem Lists.add {ks : List Timed} {seen : Seen} (h : Lists ks seen) (d : Located) :
    Lists (ks ++ [d.timed]) (Function.update seen (bucketKey d.packet)
      (seen (bucketKey d.packet) ++ [d.absTimeS])) := by
  intro b t
  by_cases here : b = bucketKey d.packet
  · subst here
    rw [Function.update_self, List.mem_append, h]
    simp [Located.timed, or_and_right, exists_or, eq_comm]
  · rw [Function.update_of_ne here, h]
    simp [Located.timed, or_and_right, exists_or, Ne.symm here]

/-- **The sweep collapses** packets of the same sequence number, auth tag and payload that are close. -/
theorem offlineKeptFrom_eq {ks : List Timed} {seen : Seen} (h : Lists ks seen) (ds : List Located) :
    ks ++ (offlineKeptFrom seen ds).map Located.timed
      = keptFrom SameBucket ks (ds.map Located.timed) := by
  induction ds generalizing ks seen with
  | nil => exact List.append_nil ks
  | cons d ds ih =>
    have test := h.repeats_iff d
    have any : ((seen (bucketKey d.packet)).any fun t => Close d.absTimeS t) = true
        ↔ Repeats SameBucket ks d.timed := by
      rw [← test]
      simp
    rw [offlineKeptFrom, isDuplicate, List.map_cons]
    by_cases again : Repeats SameBucket ks d.timed
    · rw [if_pos (any.2 again), keptFrom_cons_of_repeats again, if_pos rfl]
      exact ih h
    · rw [if_neg (mt any.1 again), keptFrom_cons_of_new again, if_neg Bool.false_ne_true,
        List.map_cons, ← ih (h.add d), List.append_assoc]
      rfl

theorem offlineKept_eq (ds : List Located) :
    (offlineKept ds).map Located.timed = kept SameBucket (ds.map Located.timed) := by
  have start : Lists [] fun _ => [] := by
    intro b t
    simp
  exact offlineKeptFrom_eq start ds

/-! ## When the two agree -/

/-- The cycles of a run with some of their packets left out. -/
def PartOf (part cycles : List Processor.Cycle) : Prop :=
  List.Forall₂ (fun c c' => c.t0 = c'.t0 ∧ c.packets.Sublist c'.packets) part cycles

section Part

variable {part cycles : List Processor.Cycle}

theorem PartOf.refl (cycles : List Processor.Cycle) : PartOf cycles cycles :=
  List.forall₂_same.2 fun c _ => ⟨rfl, List.Sublist.refl c.packets⟩

theorem PartOf.clocks (h : PartOf part cycles) :
    part.map Processor.Cycle.t0 = cycles.map Processor.Cycle.t0 := by
  induction h with
  | nil => rfl
  | cons head _ ih => rw [List.map_cons, List.map_cons, head.1, ih]

theorem PartOf.sublist (h : PartOf part cycles) : (allTimed part).Sublist (allTimed cycles) := by
  induction h with
  | nil => exact List.Sublist.refl []
  | @cons c c' _ _ head _ ih =>
    have first : (timed c.t0 c.packets).Sublist (timed c'.t0 c'.packets) := by
      rw [head.1]
      exact head.2.map _
    exact first.append ih

theorem PartOf.inside (h : PartOf part cycles)
    (inside : ∀ c ∈ cycles, ∀ p ∈ c.packets, c.t0 - decodeWindowS ≤ startTWith subDouble c.t0 p) :
    ∀ c ∈ part, ∀ p ∈ c.packets, c.t0 - decodeWindowS ≤ startTWith subDouble c.t0 p := by
  induction h with
  | nil => simp
  | @cons c c' _ _ head _ ih =>
    intro d member p listed
    rcases List.mem_cons.1 member with rfl | later
    · rw [head.1]
      exact inside c' List.mem_cons_self p (head.2.subset listed)
    · exact ih (fun d' member' => inside d' (List.mem_cons_of_mem c' member')) d later p listed

theorem PartOf.run (h : PartOf part cycles) (run : Run cycles) : Run part :=
  ⟨h.clocks ▸ run.clock, h.inside run.inside, run.ordered.sublist h.sublist⟩

/-- Any choice of a run's packets is what a part of it shows. -/
theorem exists_partOf {xs : List Timed} (chosen : xs.Sublist (allTimed cycles)) :
    ∃ part, PartOf part cycles ∧ allTimed part = xs := by
  induction cycles generalizing xs with
  | nil =>
    cases List.eq_nil_of_sublist_nil chosen
    exact ⟨[], .nil, rfl⟩
  | cons c cs ih =>
    have split : allTimed (c :: cs) = timed c.t0 c.packets ++ allTimed cs := List.flatMap_cons
    rw [split] at chosen
    obtain ⟨here, later, rfl, first, rest⟩ := List.sublist_append_iff.1 chosen
    obtain ⟨ps, packets, rfl⟩ := List.sublist_map_iff.1 first
    obtain ⟨part, isPart, rfl⟩ := ih rest
    exact ⟨⟨c.t0, ps⟩ :: part, .cons ⟨rfl, packets⟩ isPart, List.flatMap_cons⟩

/-- Two packets are alike when what is documented of them is what either rule says. -/
theorem alike_iff {k x : Timed} :
    Alike k x ↔ (SameKey x k ↔ SameDecode x k) ∧ (SameBucket x k ↔ SameDecode x k) := by
  have within : Close x.2 k.2 → |x.2 - k.2| < dedupStartTolS := by
    intro close
    by_contra far
    exact not_close (not_lt.1 far) close
  have keys : decodeKey x.1 = decodeKey k.1
      ↔ x.1.ntwId = k.1.ntwId ∧ x.1.authTag = k.1.authTag ∧ x.1.payloadVal = k.1.payloadVal := by
    simp [decodeKey]
  have buckets : bucketKey x.1 = bucketKey k.1
      ↔ x.1.seqNum = k.1.seqNum ∧ x.1.authTag = k.1.authTag ∧ x.1.payloadVal = k.1.payloadVal := by
    simp [bucketKey]
  constructor
  · rintro ⟨ids, rounding⟩
    have live : SameKey x k ↔ SameDecode x k := by
      constructor
      · intro same
        exact ⟨same.1, within same.2⟩
      · intro same
        exact ⟨same.1, rounding same.1 same.2⟩
    refine ⟨live, ?_⟩
    rw [← live, SameBucket, SameKey, keys, buckets]
    apply and_congr_left
    intro close
    apply and_congr_left
    intro content
    exact (ids close content.1 content.2).symm
  · rintro ⟨live, sweep⟩
    refine ⟨fun close tag payload => ?_, fun key near => (live.2 ⟨key, near⟩).2⟩
    have same := live.trans sweep.symm
    rw [SameKey, SameBucket, keys, buckets] at same
    simpa [close, tag, payload] using same

end Part

/-- **When the two rules agree.** On a run of cycles, and on whatever part of its packets is received, the
processor and the sweep keep the same packets, which are those the documented rule keeps, exactly when any
two packets of the run are alike. -/
theorem live_offline_agree_iff (cycles : List Processor.Cycle) (run : Run cycles) :
    (∀ part, PartOf part cycles → ∀ ds : List Located, ds.map Located.timed = allTimed part →
        liveKept part = (offlineKept ds).map Located.timed
          ∧ liveKept part = kept SameDecode (allTimed part)
          ∧ (offlineKept ds).map Located.timed = kept SameDecode (allTimed part))
      ↔ (allTimed cycles).Pairwise Alike := by
  have pairs : (allTimed cycles).Pairwise Alike
      ↔ (∀ ys, ys.Sublist (allTimed cycles) → kept SameKey ys = kept SameDecode ys)
        ∧ ∀ ys, ys.Sublist (allTimed cycles) → kept SameBucket ys = kept SameDecode ys := by
    rw [forall_sublist_kept_eq_iff, forall_sublist_kept_eq_iff, ← List.pairwise_and_iff]
    exact List.Pairwise.iff fun _ _ => alike_iff
  rw [pairs]
  constructor
  · intro agree
    have both : ∀ ys, ys.Sublist (allTimed cycles) →
        kept SameKey ys = kept SameDecode ys ∧ kept SameBucket ys = kept SameDecode ys := by
      intro ys chosen
      obtain ⟨part, isPart, rfl⟩ := exists_partOf chosen
      have same : ((allTimed part).map fun x => (⟨x.1, 0, x.2⟩ : Located)).map Located.timed = allTimed part := by
        rw [List.map_map]
        exact List.map_id _
      obtain ⟨-, live, sweep⟩ := agree part isPart _ same
      rw [liveKept_eq (isPart.run run)] at live
      rw [offlineKept_eq, same] at sweep
      exact ⟨live, sweep⟩
    exact ⟨fun ys chosen => (both ys chosen).1, fun ys chosen => (both ys chosen).2⟩
  · rintro ⟨live, sweep⟩ part isPart ds same
    rw [liveKept_eq (isPart.run run), offlineKept_eq, same, live _ isPart.sublist, sweep _ isPart.sublist]
    exact ⟨rfl, rfl, rfl⟩

/-- A packet that starts `timeS` into its window. -/
def devicePacket (ntwId seqNum : Int) (timeS : ℚ) : Packet where
  phyVer := 1
  ntwId := some ntwId
  seqNum := some seqNum
  authTag := some 99
  payloadVal := some 1
  timeS := some timeS

/-- A cycle whose window starts at 0. -/
def firstCycle (ps : List Packet) : Processor.Cycle := ⟨3 / 2, ps⟩

/-- The packets of the cycle with their places in a recording that starts with the window. -/
def recorded (ps : List Packet) : List Located :=
  ps.map fun p =>
    let absStart := ⌊p.timeS.getD 0 * (sampleRate : ℚ)⌋
    ⟨p, absStart, absTime absStart⟩

/-- The device repeats a payload with the next sequence number: the processor drops the second
packet and the sweep keeps both. -/
theorem live_offline_differ :
    (Run [firstCycle [devicePacket 7 5 (1 / 2), devicePacket 7 6 1]]
        ∧ (recorded [devicePacket 7 5 (1 / 2), devicePacket 7 6 1]).map Located.timed
          = allTimed [firstCycle [devicePacket 7 5 (1 / 2), devicePacket 7 6 1]])
      ∧ liveKept [firstCycle [devicePacket 7 5 (1 / 2), devicePacket 7 6 1]]
        = [(devicePacket 7 5 (1 / 2), 1 / 2)]
      ∧ (offlineKept (recorded [devicePacket 7 5 (1 / 2), devicePacket 7 6 1])).map Located.timed
        = [(devicePacket 7 5 (1 / 2), 1 / 2), (devicePacket 7 6 1, 1)] := by
  refine ⟨⟨⟨by decide +kernel, by decide +kernel, ?_⟩, by decide +kernel⟩, by decide +kernel, by decide +kernel⟩
  unfold InOrder
  decide +kernel

/-- A packet of another device stands between two decodes of one packet. -/
def decodes : List Packet := [devicePacket 7 5 0, devicePacket 8 6 (1 / 2), devicePacket 7 5 (1 / 2)]

theorem live_offline_agree_iff_decodes :
    liveKept [firstCycle decodes] = (offlineKept (recorded decodes)).map Located.timed
      ∧ liveKept [firstCycle decodes] = kept SameDecode (allTimed [firstCycle decodes])
      ∧ (offlineKept (recorded decodes)).map Located.timed = kept SameDecode (allTimed [firstCycle decodes]) := by
  have run : Run [firstCycle decodes] := by
    refine ⟨by decide +kernel, by decide +kernel, ?_⟩
    unfold InOrder
    decide +kernel
  exact (live_offline_agree_iff _ run).2 (by decide +kernel) _ (PartOf.refl _) _ (by decide +kernel)

end StreamWeb.Analysis

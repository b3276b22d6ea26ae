import Mathlib.Data.Int.ModEq
import StreamWeb.Td.Invariant

/-!
# Positions of captures in the stream

The window of a cycle starts at a position of the sample stream, but the state
machine sees it, and keeps its records, modulo the IQ buffer only. Over a run
whose clock follows the samples a hit is never rendered at another position
than the one it was recorded at (`capture_position`): a hit that was deferred
lies in the last part of its window, and before its projection could wrap round
to where it would be rendered it is too old to be kept.
-/

namespace StreamWeb.Td

open Config

variable (K : DecoderConstants)

theorem tdSamples_eq : tdSamples = 585937 := by
  norm_num [tdSamples, Py.int, tdWindowS, sampleRate]

theorem preRoll_eq : preRoll = 58593 := by
  norm_num [preRoll, tdSamples_eq, Py.int, tdPreRollFrac]

theorem matchTol_eq : matchTol = 7812 := by
  norm_num [matchTol, Py.int, tdTruncationMatchS, sampleRate]

/-- A cycle of the processor: the stream position its window starts at, its
clock and what the state machine is given. -/
structure Cycle where
  windowStart : Int
  now : ℚ
  tdOn : Bool
  tdChipset : Option String
  tdNtwId : Option Int
  attempts : List Attempt
  packets : List Packet

/-- The call a cycle makes: the window's start in the buffer only. -/
def Cycle.call (c : Cycle) : Call where
  tdOn := c.tdOn
  tdChipset := c.tdChipset
  tdNtwId := c.tdNtwId
  attempts := c.attempts
  packets := c.packets
  decodeStart := c.windowStart % iqBufferSize
  bufLen := iqBufferSize
  chunkLen := decodeSamples
  now := c.now

def runTo (cycles : List Cycle) : State := stateAfter K (cycles.map Cycle.call)

theorem runTo_snoc (cycles : List Cycle) (c : Cycle) :
    runTo K (cycles ++ [c]) = (selectTdCapture K (runTo K cycles) c.call).1 := by
  simp [runTo, stateAfter]

theorem good_runTo (cycles : List Cycle) : Good (cycles.map Cycle.call) (runTo K cycles) :=
  good_run K _

/-- The projection of a stream position into a window. -/
theorem relative_eq (c : Cycle) {absStart P : Int} (same : absStart ≡ P [ZMOD iqBufferSize]) :
    c.call.relative absStart = (P - c.windowStart) % iqBufferSize := by
  show (absStart - c.windowStart % iqBufferSize) % (iqBufferSize : Int) = _
  rw [Int.sub_emod_emod]
  exact same.sub_right c.windowStart

theorem absolute_modEq (c : Cycle) (rel : Int) :
    c.call.absolute rel ≡ c.windowStart + rel [ZMOD iqBufferSize] := by
  show (c.windowStart % iqBufferSize + rel) % (iqBufferSize : Int) ≡ _ [ZMOD _]
  rw [Int.emod_add_emod]
  exact Int.mod_modEq _ _

/-- A position projected into the window is that position. -/
theorem relative_modEq (c : Cycle) (absStart : Int) :
    absStart ≡ c.windowStart + c.call.relative absStart [ZMOD iqBufferSize] := by
  rw [relative_eq c (Int.ModEq.refl absStart), Int.ModEq, Int.add_emod_emod, add_sub_cancel]

/-- The part of the window a hit can be rendered from. -/
theorem isDeferred_iff (c : Cycle) {h : Hit} {rel : Int} (position : h.relStart = some rel) :
    isDeferred c.call h ↔ 644532 ≤ rel := by
  have chunk : (c.call.chunkLen : Int) = 1171875 := by
    show ((decodeSamples : Nat) : Int) = _
    rw [decodeSamples_eq]
    rfl
  unfold isDeferred renderWindow
  rw [chunk, position, tdSamples_eq, preRoll_eq]
  show (1171875 : Int) < max 0 (rel - 58593) + 585937 ↔ _
  omega

/-! ## Where a hit was recorded -/

/-- Behind the cycles `before`, the cycle `made` matched or promoted the record
`ref`, at `rel` of its window. -/
def RecordedAt (before : List Cycle) (made : Cycle) (ref : Nat) (rel : Int) : Prop :=
  (runTo K before).nextRef ≤ ref ∧
    ∃ h, (findHit K (resetFor (runTo K before) made.call) made.call).2 = some h ∧ h.ref = ref ∧
      h.relStart = some rel

/-- A pending hit and where it was recorded: its position modulo the buffer is
that of the stream, and it was too late in its window to be rendered. -/
def Tracked (cycles : List Cycle) (h : Hit) : Prop :=
  ∃ before made later rel, cycles = before ++ made :: later ∧ RecordedAt K before made h.ref rel ∧
    h.absStart ≡ made.windowStart + rel [ZMOD iqBufferSize] ∧ h.firstSeen = made.now ∧
    644532 ≤ rel ∧ rel < decodeSamples

theorem Tracked.later {cycles : List Cycle} {h : Hit} (t : Tracked K cycles h) (c : Cycle) :
    Tracked K (cycles ++ [c]) h := by
  obtain ⟨before, made, later, rel, rfl, facts⟩ := t
  exact ⟨before, made, later ++ [c], rel, by simp, facts⟩

/-- The attempts of a cycle start inside its window. -/
def InWindow (c : Cycle) : Prop := ∀ a ∈ c.attempts, 0 ≤ startSample a ∧ startSample a < decodeSamples

/-- A hit of a selection is a pending one projected into the window, or was
recorded in this cycle at its position there. -/
theorem selected_cases {c : Cycle} (inside : InWindow c) {st : State} {r : State × Option Hit}
    (selects : Selects c.call st r) {h : Hit} (hit : r.2 = some h) :
    (∃ p, st.pendingHit = some p ∧ c.call.relative p.absStart < decodeSamples ∧
        c.now - p.firstSeen ≤ tdPendingTimeoutS ∧
        h = { p with relStart := some (c.call.relative p.absStart) }) ∨
      ∃ rel, h.relStart = some rel ∧ h.ref = st.nextRef ∧ h.firstSeen = c.now ∧
        h.absStart ≡ c.windowStart + rel [ZMOD iqBufferSize] ∧ rel < decodeSamples := by
  cases selects with
  | nothing => cases hit
  | suspected => cases hit
  | retried p confirm sub pending inside young =>
    cases hit
    exact .inl ⟨p, pending, inside, young, rfl⟩
  | promoted s p a target held mem chipset failed real lt =>
    cases hit
    exact .inr ⟨_, rfl, rfl, rfl, relative_modEq c p.absStart, lt⟩
  | matched t a a' confirm target mem start built sub real =>
    cases hit
    refine .inr ⟨_, rfl, rfl, rfl, absolute_modEq c _, ?_⟩
    rw [start]
    exact (inside a mem).2

theorem resetFor_pendingHit {st : State} {c : Call} {p : Hit}
    (pending : (resetFor st c).pendingHit = some p) : st.pendingHit = some p := by
  unfold resetFor at pending
  split at pending
  · cases pending
  · exact pending

@[simp] theorem resetFor_nextRef (st : State) (c : Call) : (resetFor st c).nextRef = st.nextRef := by
  unfold resetFor
  split <;> rfl

/-- The hit of a cycle: an earlier one, still young enough, or one recorded now. -/
theorem hit_cases {cycles : List Cycle} {c : Cycle} (inside : InWindow c)
    (tracked : ∀ p, (runTo K cycles).pendingHit = some p → Tracked K cycles p) {h : Hit}
    (hit : (findHit K (resetFor (runTo K cycles) c.call) c.call).2 = some h) :
    (Tracked K cycles h ∧ c.now - h.firstSeen ≤ tdPendingTimeoutS ∧
        c.call.relative h.absStart < decodeSamples ∧
        h.relStart = some (c.call.relative h.absStart)) ∨
      ∃ rel, h.relStart = some rel ∧ RecordedAt K cycles c h.ref rel ∧ h.firstSeen = c.now ∧
        h.absStart ≡ c.windowStart + rel [ZMOD iqBufferSize] ∧ rel < decodeSamples := by
  rcases selected_cases inside (selects_of_hit K hit) hit with
    ⟨p, pending, lt, young, rfl⟩ | ⟨rel, here, ref, seen, same, lt⟩
  · exact .inl ⟨tracked p (resetFor_pendingHit pending), young, lt, rfl⟩
  · rw [resetFor_nextRef] at ref
    exact .inr ⟨rel, here, ⟨ref.ge, h, hit, rfl, here⟩, seen, same, lt⟩

/-- **Pending hits are tracked** after every run. -/
theorem tracked_run (cycles : List Cycle) (inside : ∀ c ∈ cycles, InWindow c) :
    ∀ p, (runTo K cycles).pendingHit = some p → Tracked K cycles p := by
  induction cycles using List.reverseRecOn with
  | nil =>
    intro p pending
    cases pending
  | append_singleton cycles c ih =>
    have tracked := ih fun c' hc => inside c' (List.mem_append_left [c] hc)
    have inside_c := inside c (by simp)
    intro p pending
    rw [runTo_snoc] at pending
    by_cases on : c.call.tdOn = true
    · have kept := findHit_kept K (good_runTo K cycles) on
      rw [selectTdCapture_eq K on kept.pending] at pending
      split at pending
      · rename_i h hit
        split at pending
        · rename_i deferred
          have same := (kept.pending h hit).symm.trans pending
          cases same
          rcases hit_cases K inside_c tracked hit with ⟨old, -, -, -⟩ | ⟨rel, here, made, seen, same, lt⟩
          · exact old.later K c
          · have late := (isDeferred_iff c here).1 deferred
            exact ⟨cycles, c, [], rel, rfl, made, same, seen, late, lt⟩
        · cases pending
      · rename_i none_hit
        -- without a hit the selection leaves nothing pending
        exfalso
        rcases findHit_selects K (resetFor (runTo K cycles) c.call) c.call with selects | ⟨untargeted, nothing⟩
        · generalize found : findHit K (resetFor (runTo K cycles) c.call) c.call = r at *
          cases selects <;> simp_all
        · rw [nothing] at pending
          have gone := ((good_runTo K cycles).reset c.call).untargeted
            ((resetFor_target _ _).trans untargeted)
          rw [gone.1] at pending
          cases pending
    · rw [Bool.not_eq_true] at on
      rw [selectTdCapture_off K _ on, (resetFor_off _ on).1] at pending
      cases pending

/-! ## Captures -/

/-- A run whose window never goes back and whose clock follows the samples: over
any two cycles to within a tenth of the buffer. -/
structure Steady (cycles : List Cycle) : Prop where
  forward : cycles.Pairwise fun c c' => c.windowStart ≤ c'.windowStart
  drift : cycles.Pairwise fun c c' =>
    |((c'.windowStart - c.windowStart : Int) : ℚ) - sampleRate * (c'.now - c.now)|
      < 1 / 10 * iqBufferDurationS * sampleRate
  inWindow : ∀ c ∈ cycles, InWindow c

/-- **No aliased capture.** What a cycle captures lies at the stream position
at which the hit was recorded, however many cycles it was deferred. -/
theorem capture_position (cycles : List Cycle) (c : Cycle) (steady : Steady (cycles ++ [c]))
    {cap : Capture} (some_cap : (selectTdCapture K (runTo K cycles) c.call).2.capture = some cap) :
    ∃ before made later rel, cycles ++ [c] = before ++ made :: later ∧
      RecordedAt K before made cap.tdHit.ref rel ∧
      c.windowStart + cap.tdCenter = made.windowStart + rel := by
  obtain ⟨-, hit, -, rendered, -, center_eq⟩ := captured K (good_runTo K cycles) some_cap
  have tracked := tracked_run K cycles fun c' hc => steady.inWindow c' (List.mem_append_left [c] hc)
  rcases hit_cases K (steady.inWindow c (by simp)) tracked hit with
    ⟨⟨before, made, later, rel, split, recorded, same, seen, late, lt⟩, young, -, here⟩ |
      ⟨rel, here, recorded, -⟩
  · refine ⟨before, made, later ++ [c], rel, by simp [split], recorded, ?_⟩
    have pair : made.windowStart ≤ c.windowStart ∧
        |((c.windowStart - made.windowStart : Int) : ℚ) - sampleRate * (c.now - made.now)|
          < 1 / 10 * iqBufferDurationS * sampleRate := by
      have mem : made ∈ cycles := by simp [split]
      exact ⟨(List.pairwise_append.1 steady.forward).2.2 made mem c (by simp),
        (List.pairwise_append.1 steady.drift).2.2 made mem c (by simp)⟩
    obtain ⟨forward, drift⟩ := pair
    -- by the time-out the window has slid less than the buffer
    have slide : c.windowStart - made.windowStart < 1562500 := by
      rw [seen, tdPendingTimeoutS_eq] at young
      norm_num [iqBufferDurationS, sampleRate] at drift
      have bound := (abs_lt.1 drift).2
      have : ((c.windowStart : ℚ) - made.windowStart) < 1562500 := by linarith
      exact_mod_cast this
    rw [isDeferred_iff c here] at rendered
    have center_rel : cap.tdCenter = c.call.relative cap.tdHit.absStart := by
      rw [center_eq, renderWindow, here]
      rfl
    rw [relative_eq c same, iqBufferSize_eq] at rendered center_rel
    rw [decodeSamples_eq] at lt
    push_cast at rendered center_rel lt
    omega
  · refine ⟨cycles, c, [], rel, rfl, recorded, ?_⟩
    rw [center_eq, renderWindow, here]
    rfl

/-- Decoder constants of a small example. -/
def exampleConstants : DecoderConstants := ⟨32, 6, 6250, fun _ => none, 7500⟩

def chipsetCycle (windowStart : Int) (now : ℚ) (attempts : List Attempt) : Cycle :=
  ⟨windowStart, now, true, some "A", none, attempts, []⟩

def failedAt (start : Int) (reason : String) : Attempt where
  chipset := some "A"
  reason := some reason
  startSample := some start
  timeS := some (start / sampleRate)

/-- A hit near the end of its window, deferred once and then captured where it was. -/
theorem capture_position_deferred :
    ∃ before made later rel,
      [chipsetCycle 0 100 [failedAt 700000 "header_fail"]] ++ [chipsetCycle 200000 (100 + 32 / 125) []]
        = before ++ made :: later ∧
      RecordedAt exampleConstants before made 0 rel ∧ 200000 + 500000 = made.windowStart + rel := by
  have steady : Steady
      ([chipsetCycle 0 100 [failedAt 700000 "header_fail"]]
        ++ [chipsetCycle 200000 (100 + 32 / 125) []]) := by
    constructor
    · simp [chipsetCycle]
    · norm_num [chipsetCycle, iqBufferDurationS, sampleRate]
    · rintro c hc a ha
      simp only [List.singleton_append, List.mem_cons, List.not_mem_nil, or_false] at hc
      rcases hc with rfl | rfl
      · simp only [chipsetCycle, List.mem_singleton] at ha
        subst ha
        rw [decodeSamples_eq]
        norm_num [startSample, failedAt]
      · cases ha
  have some_cap : (selectTdCapture exampleConstants
      (runTo exampleConstants [chipsetCycle 0 100 [failedAt 700000 "header_fail"]])
      (chipsetCycle 200000 (100 + 32 / 125) []).call).2.capture
        = some ⟨⟨0, failedAt 700000 "header_fail", 700000, some 500000, 100⟩, 441407, 1027344,
          500000⟩ := by
    decide +kernel
  exact capture_position exampleConstants _ _ steady some_cap

end StreamWeb.Td

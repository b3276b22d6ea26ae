import StreamWeb.Td.Position

/-!
# Phantom suppression

A failed attempt inside the padded span of a packet decoded in the same cycle
is a spurious detection. The fresh search leaves such attempts out; a hit that
was deferred and a truncation that is promoted are records of earlier cycles,
and nothing compares them with the packets of the cycle that serves them.
`phantom_capture_iff` is what follows.
-/

namespace StreamWeb.Td

open Config

variable (K : DecoderConstants)

/-- `t`, in seconds of the window, lies in the padded span of a decoded attempt. -/
def Covered (attempts : List Attempt) (t : ℚ) : Prop :=
  ∃ d ∈ attempts, d.decoded = true ∧ (decodedSpan K d).1 - tdPhantomPadS ≤ t ∧
    t ≤ (decodedSpan K d).2 + tdPhantomPadS

/-- A hit at `rel` leaves enough samples behind it to be rendered. -/
def Renderable (c : Call) (rel : Int) : Prop := max 0 (rel - preRoll) + tdSamples ≤ c.chunkLen

/-- A record of an earlier cycle that this one serves: a deferred hit still in the window and young
enough, or a held truncation whose re-check fails for a real reason. -/
def Serves (st : State) (s : String) (c : Call) (absStart : Int) : Prop :=
  (∃ h, st.pendingHit = some h ∧ h.absStart = absStart ∧ c.relative absStart < decodeSamples ∧
      c.now - h.firstSeen ≤ tdPendingTimeoutS) ∨
    ∃ p a, st.pendingConfirm = some p ∧ p.absStart = absStart ∧ confirmOutcome s p c = .promoted a

/-- The cycle serves a record of an earlier one at a position that can be rendered and that a packet
decoded now covers. -/
def ServesCovered (st : State) (s : String) (c : Call) : Prop :=
  c.tdOn = true ∧ ∃ absStart, Serves st s c absStart ∧ Renderable c (c.relative absStart) ∧
    Covered K c.attempts (c.relative absStart / sampleRate)

theorem not_covered_of_mem_chipsetMatches {s : String} {attempts : List Attempt} {a : Attempt}
    (mem : a ∈ chipsetMatches K s attempts) : ¬Covered K attempts (a.timeS.getD 0) := by
  rintro ⟨d, member, decoded, low, high⟩
  simp only [chipsetMatches, List.mem_filter, decide_eq_true_eq, Bool.not_eq_true',
    List.any_eq_false, List.mem_map] at mem
  exact mem.2.2.2 _ ⟨d, ⟨member, decoded⟩, rfl⟩ ⟨low, high⟩

/-! ## Where a hit comes from -/

/-- The hit of a selection in chipset mode: one of an earlier cycle projected into this one, or an
attempt of the fresh search. -/
inductive HitFrom (st : State) (s : String) (c : Call) (h : Hit) : Prop
  | served (absStart : Int) (serves : Serves st s c absStart)
      (position : h.relStart = some (c.relative absStart))
  | fresh (a : Attempt) (mem : a ∈ chipsetMatches K s c.attempts)
      (position : h.relStart = some (startSample a))

theorem continueChipset_hitFrom {st st' : State} {s : String} {c : Call} {h : Hit}
    (same : st' = st ∨ st' = { st with pendingConfirm := none })
    (hit : (continueChipset K st' s c).2 = some h) : HitFrom K st s c h := by
  have pendingHit : st'.pendingHit = st.pendingHit := by
    rcases same with rfl | rfl <;> rfl
  unfold continueChipset at hit
  rcases retryPending_cases st' c with gone | ⟨p, pending, inside, young, served⟩
  · rw [gone] at hit
    simp only at hit
    split at hit
    · cases hit
    · unfold searchChipset at hit
      split at hit
      · cases hit
      · rename_i a rest found
        simp only at hit
        split at hit
        · cases hit
        · cases hit
          exact .fresh a (found ▸ List.mem_cons_self) rfl
  · rw [served] at hit
    cases hit
    exact .served p.absStart (.inl ⟨p, pendingHit ▸ pending, rfl, inside, young⟩) rfl

theorem selectChipset_hitFrom {st : State} {s : String} {c : Call} {h : Hit}
    (hit : (selectChipset K st s c).2 = some h) : HitFrom K st s c h := by
  unfold selectChipset at hit
  cases held : st.pendingConfirm with
  | none =>
    rw [held] at hit
    exact continueChipset_hitFrom K (.inl rfl) hit
  | some p =>
    rw [held] at hit
    simp only at hit
    cases outcome : confirmOutcome s p c with
    | promoted a =>
      rw [outcome] at hit
      cases hit
      exact .served p.absStart (.inr ⟨p, a, held, rfl, outcome⟩) rfl
    | held =>
      rw [outcome] at hit
      exact continueChipset_hitFrom K (.inl rfl) hit
    | decoded a =>
      rw [outcome] at hit
      exact continueChipset_hitFrom K (.inr rfl) hit
    | leftWindow =>
      rw [outcome] at hit
      exact continueChipset_hitFrom K (.inr rfl) hit
    | timedOut =>
      rw [outcome] at hit
      exact continueChipset_hitFrom K (.inr rfl) hit

/-- A record that is served is the hit of the selection. -/
theorem selectChipset_serves {st : State} {s : String} {c : Call} {absStart : Int}
    (apart : st.pendingHit = none ∨ st.pendingConfirm = none) (serves : Serves st s c absStart) :
    ∃ h, (selectChipset K st s c).2 = some h ∧ h.relStart = some (c.relative absStart) := by
  rcases serves with ⟨p, pending, rfl, inside, young⟩ | ⟨p, a, held, rfl, outcome⟩
  · have none : st.pendingConfirm = none := by
      rcases apart with gone | gone
      · rw [gone] at pending
        cases pending
      · exact gone
    have aged : ¬(decodeSamples ≤ c.relative p.absStart ∨ tdPendingTimeoutS < c.now - p.firstSeen) :=
      not_or.2 ⟨not_le_of_gt inside, not_lt_of_ge young⟩
    refine ⟨{ p with relStart := some (c.relative p.absStart) }, ?_, rfl⟩
    simp [selectChipset, none, continueChipset, retryPending, pending, aged]
  · refine ⟨⟨st.nextRef, a, p.absStart, some (c.relative p.absStart), c.now⟩, ?_, rfl⟩
    simp [selectChipset, held, outcome]

theorem isDeferred_iff_not_renderable {c : Call} {h : Hit} {rel : Int}
    (position : h.relStart = some rel) : isDeferred c h ↔ ¬Renderable c rel := by
  rw [isDeferred, renderWindow, position, Renderable, not_le]
  rfl

theorem tdCenter_of_position {h : Hit} {rel : Int} (position : h.relStart = some rel) :
    (renderWindow h).1 = rel := by
  rw [renderWindow, position]
  rfl

/-- A hit that can be rendered is captured. -/
theorem capture_of_hit {calls : List Call} {c : Call} (on : c.tdOn = true) {h : Hit}
    (hit : (findHit K (resetFor (stateAfter K calls) c) c).2 = some h) (now : ¬isDeferred c h) :
    ∃ cap, (selectTdCapture K (stateAfter K calls) c).2.capture = some cap ∧ cap.tdHit = h := by
  have kept := findHit_kept K (good_run K calls) on
  refine ⟨⟨h, (renderWindow h).2.1, (renderWindow h).2.2, (renderWindow h).1⟩, ?_, rfl⟩
  rw [selectTdCapture_eq K on kept.pending, hit]
  simp only [if_neg now]

/-- **When a phantom is captured.** In chipset mode, in every reachable state and for every cycle
whose attempts are timed by their samples, no captured failure lies in the padded span of a packet
decoded in that cycle exactly when the cycle does not serve a record of an earlier one at a
position that such a packet covers. -/
theorem phantom_capture_iff (calls : List Call) (c : Call) (s : String) (mode : c.chipset = some s)
    (timed : ∀ a ∈ c.attempts, a.timeS.getD 0 = (startSample a : ℚ) / sampleRate) :
    (∀ cap, (selectTdCapture K (stateAfter K calls) c).2.capture = some cap →
        cap.tdHit.attempt.decoded = false → ¬Covered K c.attempts (cap.tdCenter / sampleRate)) ↔
      ¬ServesCovered K (resetFor (stateAfter K calls) c) s c := by
  have chipsetMode := findHit_chipset K mode (resetFor (stateAfter K calls) c)
  constructor
  · rintro clean ⟨on, absStart, serves, renderable, covered⟩
    have good := (good_run K calls).reset c
    obtain ⟨h, hit, position⟩ := selectChipset_serves K good.apart serves
    rw [← chipsetMode] at hit
    have now : ¬isDeferred c h := by
      rw [isDeferred_iff_not_renderable position]
      exact not_not.2 renderable
    obtain ⟨cap, capture, rfl⟩ := capture_of_hit K on hit now
    have center := (captured K (good_run K calls) capture).2.2.2.2.2
    rw [tdCenter_of_position position] at center
    obtain ⟨t, a, target, -, built⟩ := (callInv_run K calls c).matching cap.tdHit
      (.inr (.inr (by rw [capture]; rfl)))
    rw [target_of_chipset mode] at target
    cases target
    refine clean cap capture ?_ (center ▸ covered)
    rw [built.2.2]
    exact built.2.1
  · rintro unserved cap capture - covered
    obtain ⟨on, hit, -, rendered, -, center⟩ := captured K (good_run K calls) capture
    rw [chipsetMode] at hit
    cases selectChipset_hitFrom K hit with
    | served absStart serves position =>
      rw [isDeferred_iff_not_renderable position, not_not] at rendered
      rw [center, tdCenter_of_position position] at covered
      exact unserved ⟨on, absStart, serves, rendered, covered⟩
    | fresh a mem position =>
      rw [center, tdCenter_of_position position, ← timed a (List.mem_of_mem_filter mem)] at covered
      exact not_covered_of_mem_chipsetMatches K mem covered

def decodedAttempt (start : Int) (seconds : ℚ) : Attempt where
  chipset := some "A"
  decoded := true
  startSample := some start
  timeS := some (start / sampleRate)
  signalDurationS := some seconds

/-- A failure that is deferred, and the cycle that serves it: a packet around it has decoded. -/
def lateDecode : List Cycle × Cycle :=
  ([chipsetCycle 0 100 [failedAt 700000 "header_fail"]],
    chipsetCycle 200000 (100 + 32 / 125) [decodedAttempt 450000 (1 / 5)])

/-- The retried hit is captured at sample 500000, inside the span of the decoded packet. -/
theorem phantom_captured :
    (∀ a ∈ lateDecode.2.call.attempts, a.timeS.getD 0 = (startSample a : ℚ) / sampleRate) ∧
      ∃ cap, (selectTdCapture exampleConstants (runTo exampleConstants lateDecode.1)
          lateDecode.2.call).2.capture = some cap ∧
        cap.tdHit.attempt.decoded = false ∧
        Covered exampleConstants lateDecode.2.call.attempts (cap.tdCenter / sampleRate) := by
  refine ⟨by decide +kernel, ⟨⟨0, failedAt 700000 "header_fail", 700000, some 500000, 100⟩, 441407,
    1027344, 500000⟩, by decide +kernel, rfl, ?_⟩
  exact ⟨decodedAttempt 450000 (1 / 5), by decide +kernel, rfl, by decide +kernel, by decide +kernel⟩

/-- A fresh failure beside a decoded packet. -/
theorem phantom_capture_iff_fresh :
    ¬Covered exampleConstants [decodedAttempt 450000 (1 / 5), failedAt 100000 "header_fail"]
      ((100000 : Int) / sampleRate) := by
  have start : resetFor (stateAfter exampleConstants [])
      (chipsetCycle 0 100 [decodedAttempt 450000 (1 / 5), failedAt 100000 "header_fail"]).call
        = ⟨none, none, some (.chipset "A"), 0⟩ := by
    rfl
  refine (phantom_capture_iff exampleConstants []
    (chipsetCycle 0 100 [decodedAttempt 450000 (1 / 5), failedAt 100000 "header_fail"]).call "A" rfl
    (by decide +kernel)).2 ?_ ⟨⟨0, failedAt 100000 "header_fail", 100000, some 100000, 100⟩, 41407,
      627344, 100000⟩ (by decide +kernel) rfl
  rw [start]
  rintro ⟨-, absStart, ⟨h, pending, -⟩ | ⟨p, a, held, -⟩, -⟩
  · cases pending
  · cases held

end StreamWeb.Td

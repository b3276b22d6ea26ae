import StreamWeb.Td.Truncation

/-!
# The backlog at the nominal cadence

A hit that is made too late in its window to be rendered waits in the state.
While it does nothing is awaited beside it, so the cycles behind project it
into their windows before they look at any attempt. At the nominal cadence the
window has slid far enough for it within two cycles, before it can leave the
window or grow too old: `backlog_captured`.
-/

namespace StreamWeb.Td

open Config

variable (K : DecoderConstants)

/-- The next cycle of the same target: the window slides by what was received, at least a decode
interval and at most so far that a deferred hit is still inside. -/
structure Follows (c c' : Cycle) : Prop where
  on : c'.tdOn = true
  target : c'.call.target = c.call.target
  interval : decodeIntervalS * sampleRate ≤ ((c'.windowStart - c.windowStart : Int) : ℚ)
  slide : c'.windowStart - c.windowStart ≤ 644531
  clock : c'.now - c.now = ((c'.windowStart - c.windowStart : Int) : ℚ) / sampleRate

/-- A hit the cycle makes, fresh or promoted, at a position of its window. -/
structure MadeAt (st : State) (c : Cycle) (h : Hit) (rel : Int) : Prop where
  on : c.tdOn = true
  hit : (findHit K (resetFor st c.call) c.call).2 = some h
  made : (findHit K (resetFor st c.call) c.call).1.nextRef ≠ st.nextRef
  position : h.relStart = some rel
  inWindow : 0 ≤ rel ∧ rel < decodeSamples

/-- The cycle captures the record at a position of the stream. -/
def Captures (st : State) (c : Cycle) (h : Hit) (P : Int) : Prop :=
  ∃ cap, (selectTdCapture K st c.call).2.capture = some cap ∧ cap.tdHit.ref = h.ref ∧
    cap.tdHit.attempt = h.attempt ∧ c.windowStart + cap.tdCenter = P

/-! ## A hit in the backlog -/

/-- Behind the cycle `c` the hit, seen at `seen`, waits alone. -/
structure Waits (st : State) (c : Cycle) (h : Hit) (P : Int) (seen : ℚ) : Prop where
  pending : st.pendingHit = some h
  alone : isChipset c.call.target = true → st.pendingConfirm = none
  target : st.target = c.call.target
  targeted : c.call.target.isSome = true
  position : h.absStart ≡ P [ZMOD iqBufferSize]
  firstSeen : h.firstSeen = seen

/-- A hit a cycle makes and cannot render waits behind it. -/
theorem MadeAt.waits {st : State} {c : Cycle} {h : Hit} {rel : Int} (made : MadeAt K st c h rel)
    (deferred : isDeferred c.call h) :
    Waits (selectTdCapture K st c.call).1 c h (c.windowStart + rel) c.now := by
  have on : c.call.tdOn = true := made.on
  have result : (selectTdCapture K st c.call).1 = (findHit K (resetFor st c.call) c.call).1 := by
    rw [selectTdCapture_eq K on (findHit_pending K _ _), made.hit]
    simp only [if_pos deferred]
  rw [result]
  have hit := made.hit
  have fresh := made.made
  have position := made.position
  rw [← resetFor_nextRef st c.call] at fresh
  have selects := selects_of_hit K hit
  generalize findHit K (resetFor st c.call) c.call = r at *
  cases selects with
  | nothing => cases hit
  | suspected => cases hit
  | retried => exact absurd rfl fresh
  | promoted s p a target held mem chipset failed real lt =>
    cases hit
    cases position
    refine ⟨rfl, fun _ => rfl, resetFor_target st c.call, by rw [target]; rfl, ?_, rfl⟩
    exact relative_modEq c p.absStart
  | matched t a a' confirm target mem start built sub real =>
    cases hit
    cases position
    refine ⟨rfl, ?_, resetFor_target st c.call, by rw [target]; rfl, absolute_modEq c _, rfl⟩
    intro chipset
    rw [target] at chipset
    rcases sub with gone | ⟨device, -⟩
    · exact gone
    · rw [chipset] at device
      cases device

/-- The selection behind a waiting hit returns it, whatever the attempts, while it is in the window
and young enough. -/
theorem Waits.retried {st : State} {c c' : Cycle} {h : Hit} {P : Int} {seen : ℚ}
    (waits : Waits st c h P seen) (follows : Follows c c')
    (inWindow : 0 ≤ P - c'.windowStart ∧ P - c'.windowStart < decodeSamples)
    (young : c'.now - seen ≤ tdPendingTimeoutS) :
    findHit K (resetFor st c'.call) c'.call =
      ({ st with pendingHit := some { h with relStart := some (P - c'.windowStart) } },
        some { h with relStart := some (P - c'.windowStart) }) := by
  have on : c'.call.tdOn = true := follows.on
  have kept : resetFor st c'.call = st := by
    simp [resetFor, on, waits.target, follows.target]
  have rel : c'.call.relative h.absStart = P - c'.windowStart := by
    rw [relative_eq c' waits.position, iqBufferSize_eq, Int.emod_eq_of_lt inWindow.1]
    rw [decodeSamples_eq] at inWindow
    push_cast
    omega
  have served : retryPending st c'.call
      = ({ st with pendingHit := some { h with relStart := some (P - c'.windowStart) } },
        some { h with relStart := some (P - c'.windowStart) }) := by
    have now : c'.call.now - h.firstSeen ≤ tdPendingTimeoutS := by
      rw [waits.firstSeen]
      exact young
    simp [retryPending, waits.pending, rel, not_le_of_gt inWindow.2, not_lt_of_ge now]
  rw [kept]
  unfold findHit
  cases mode : c'.call.chipset with
  | some s =>
    have alone := waits.alone (by rw [← follows.target, target_of_chipset mode]; rfl)
    simp [selectChipset, alone, continueChipset, served]
  | none =>
    cases device : c'.call.tdNtwId with
    | some n => simp [selectDevice, served]
    | none =>
      have targeted := waits.targeted
      rw [← follows.target] at targeted
      simp [Call.target, mode, device] at targeted

/-- One cycle on: the hit is captured where it was made, or waits again because its window still ends
too soon. -/
theorem Waits.step {st : State} {c c' : Cycle} {h : Hit} {P : Int} {seen : ℚ}
    (waits : Waits st c h P seen) (follows : Follows c c')
    (inWindow : 0 ≤ P - c'.windowStart ∧ P - c'.windowStart < decodeSamples)
    (young : c'.now - seen ≤ tdPendingTimeoutS) :
    Captures K st c' h P ∨
      ∃ h', h'.ref = h.ref ∧ h'.attempt = h.attempt ∧ 644532 ≤ P - c'.windowStart ∧
        Waits (selectTdCapture K st c'.call).1 c' h' P seen := by
  have on : c'.call.tdOn = true := follows.on
  have retried := waits.retried K follows inWindow young
  have outcome := selectTdCapture_eq K on (findHit_pending K (resetFor st c'.call) c'.call)
  rw [retried] at outcome
  simp only at outcome
  have late := isDeferred_iff c' (show ({ h with relStart := some (P - c'.windowStart) } : Hit).relStart
    = some (P - c'.windowStart) from rfl)
  by_cases deferred : isDeferred c'.call { h with relStart := some (P - c'.windowStart) }
  · right
    refine ⟨{ h with relStart := some (P - c'.windowStart) }, rfl, rfl, late.1 deferred, ?_⟩
    rw [outcome, if_pos deferred]
    refine ⟨rfl, ?_, ?_, ?_, waits.position, waits.firstSeen⟩
    · rw [follows.target]
      exact waits.alone
    · rw [follows.target]
      exact waits.target
    · rw [follows.target]
      exact waits.targeted
  · left
    rw [if_neg deferred] at outcome
    refine ⟨_, by rw [outcome], rfl, rfl, ?_⟩
    show c'.windowStart + (P - c'.windowStart) = P
    ring

/-- **The backlog loses nothing.** In every state and for either target: a fresh or promoted hit that a
cycle defers is captured, where it was made, by the next cycle or by the one behind it, whatever
their attempts, when the windows slide at the nominal cadence. -/
theorem backlog_captured (st : State) (c₀ c₁ : Cycle) (h : Hit) (rel : Int)
    (made : MadeAt K st c₀ h rel) (deferred : isDeferred c₀.call h) (next : Follows c₀ c₁) :
    Captures K (selectTdCapture K st c₀.call).1 c₁ h (c₀.windowStart + rel) ∨
      ∀ c₂, Follows c₁ c₂ →
        Captures K (selectTdCapture K (selectTdCapture K st c₀.call).1 c₁.call).1 c₂ h
          (c₀.windowStart + rel) := by
  have late := (isDeferred_iff c₀ made.position).1 deferred
  have inside := made.inWindow.2
  rw [decodeSamples_eq] at inside
  have slide := next.slide
  have cadence : ∀ {c c' : Cycle}, Follows c c' →
      468750 ≤ c'.windowStart - c.windowStart ∧ c'.now - c.now ≤ 33 / 40 := by
    intro c c' follows
    have interval := follows.interval
    have clock := follows.clock
    have bound : ((c'.windowStart - c.windowStart : Int) : ℚ) ≤ 644531 := by
      exact_mod_cast follows.slide
    norm_num [decodeIntervalS, sampleRate] at interval clock
    constructor
    · have : ((468750 : Int) : ℚ) ≤ ((c'.windowStart - c.windowStart : Int) : ℚ) := by
        push_cast at *
        linarith
      exact_mod_cast this
    · rw [clock]
      push_cast at bound
      linarith
  obtain ⟨interval, soon⟩ := cadence next
  rcases (made.waits K deferred).step K next (by rw [decodeSamples_eq]; push_cast at *; omega)
      (by rw [tdPendingTimeoutS_eq]; linarith) with
    captured | ⟨h', ref, attempt, late', waits⟩
  · exact .inl captured
  · right
    intro c₂ follows
    obtain ⟨interval', soon'⟩ := cadence follows
    have slide' := follows.slide
    rcases waits.step K follows (by rw [decodeSamples_eq]; push_cast at *; omega)
        (by rw [tdPendingTimeoutS_eq]; linarith) with
      ⟨cap, some_cap, ref', attempt', at_P⟩ | ⟨-, -, -, late'', -⟩
    · exact ⟨cap, some_cap, ref'.trans ref, attempt'.trans attempt, at_P⟩
    · push_cast at *
      omega

/-- A hit at the very end of its window, at the shortest cadence. -/
theorem backlog_captured_twice :
    Captures exampleConstants
        (selectTdCapture exampleConstants .fresh
          (chipsetCycle 0 100 [failedAt 1171874 "header_fail"]).call).1
        (chipsetCycle 468750 (100 + 3 / 5) [failedAt 0 "header_fail"])
        ⟨0, failedAt 1171874 "header_fail", 1171874, some 1171874, 100⟩ (0 + 1171874) ∨
      ∀ c₂, Follows (chipsetCycle 468750 (100 + 3 / 5) [failedAt 0 "header_fail"]) c₂ →
        Captures exampleConstants
          (selectTdCapture exampleConstants
            (selectTdCapture exampleConstants .fresh
              (chipsetCycle 0 100 [failedAt 1171874 "header_fail"]).call).1
            (chipsetCycle 468750 (100 + 3 / 5) [failedAt 0 "header_fail"]).call).1
          c₂ ⟨0, failedAt 1171874 "header_fail", 1171874, some 1171874, 100⟩ (0 + 1171874) := by
  apply backlog_captured exampleConstants .fresh
    (chipsetCycle 0 100 [failedAt 1171874 "header_fail"])
  · exact ⟨rfl, by decide +kernel, by decide +kernel, rfl, by decide +kernel⟩
  · decide +kernel
  · exact ⟨rfl, rfl, by decide +kernel, by decide, by decide +kernel⟩

end StreamWeb.Td

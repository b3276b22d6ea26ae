import StreamWeb.Lib.Machine
import StreamWeb.Td.Capture

/-!
# The invariant of the capture state machine

`Good` is what the two pending records satisfy between calls: at most one is
set, each was made from an attempt the target asks for, in a call since the
target was chosen, and their reasons tell them apart in chipset mode. The reset
keeps it (`Good.reset`), each selection helper keeps it and leaves a hit it
returns pending (`Kept`), hence every call keeps it, and `callInv_run` reads
the properties of a call off.
-/

namespace StreamWeb.Td

variable (K : DecoderConstants)

/-- The state after a sequence of calls from a fresh one. -/
def stateAfter (calls : List Call) : State := Machine.after (selectTdCapture K) .fresh calls

/-- An attempt of a call since which the viewer is on with target `t`. -/
def RecentAttempt (calls : List Call) (t : Target) (a : Attempt) : Prop :=
  ∃ before c later, calls = before ++ c :: later ∧ a ∈ c.attempts ∧
    ∀ c' ∈ c :: later, c'.tdOn = true ∧ c'.target = some t

/-- A record of the current target. -/
def Matching (calls : List Call) (target : Option Target) (h : Hit) : Prop :=
  ∃ t a, target = some t ∧ RecentAttempt calls t a ∧ BuiltFrom t a h

/-- What holds of the records between two calls. -/
structure Good (calls : List Call) (st : State) : Prop where
  apart : st.pendingHit = none ∨ st.pendingConfirm = none
  hit : ∀ h, st.pendingHit = some h → Matching calls st.target h
  confirm : ∀ h, st.pendingConfirm = some h → Matching calls st.target h
  hitReason : ∀ h, st.pendingHit = some h → isChipset st.target = true →
    isTruncation h.attempt.reason = false
  confirmReason : ∀ h, st.pendingConfirm = some h →
    isChipset st.target = true ∧ isTruncation h.attempt.reason = true

theorem good_fresh : Good [] .fresh where
  apart := .inl rfl
  hit := by simp [State.fresh]
  confirm := by simp [State.fresh]
  hitReason := by simp [State.fresh]
  confirmReason := by simp [State.fresh]

/-- A state without records is good. -/
theorem good_empty {calls : List Call} {st : State} (hit : st.pendingHit = none)
    (confirm : st.pendingConfirm = none) : Good calls st where
  apart := .inl hit
  hit := by simp [hit]
  confirm := by simp [confirm]
  hitReason := by simp [hit]
  confirmReason := by simp [confirm]

theorem RecentAttempt.snoc {calls : List Call} {t : Target} {a : Attempt} {c : Call}
    (h : RecentAttempt calls t a) (on : c.tdOn = true) (target : c.target = some t) :
    RecentAttempt (calls ++ [c]) t a := by
  obtain ⟨before, made, later, rfl, mem, since⟩ := h
  refine ⟨before, made, later ++ [c], by simp, mem, ?_⟩
  intro c' hc
  rw [← List.cons_append] at hc
  rcases List.mem_append.1 hc with old | new
  · exact since c' old
  · rw [List.mem_singleton.1 new]
    exact ⟨on, target⟩

theorem RecentAttempt.now {calls : List Call} {t : Target} {a : Attempt} {c : Call}
    (mem : a ∈ c.attempts) (on : c.tdOn = true) (target : c.target = some t) :
    RecentAttempt (calls ++ [c]) t a := by
  refine ⟨calls, c, [], rfl, mem, ?_⟩
  intro c' hc
  rw [List.mem_singleton.1 hc]
  exact ⟨on, target⟩

/-! ## The reset -/

@[simp] theorem resetFor_target (st : State) (c : Call) : (resetFor st c).target = c.target := by
  unfold resetFor
  split
  · rfl
  · rename_i same
    simp only [not_or, ne_eq, not_not] at same
    exact same.2.symm

theorem resetFor_off (st : State) {c : Call} (off : c.tdOn = false) :
    (resetFor st c).pendingHit = none ∧ (resetFor st c).pendingConfirm = none := by
  simp [resetFor, off, State.resetPending]

/-- The reset keeps the invariant, now with the call in the history. -/
theorem Good.reset {calls : List Call} {st : State} (h : Good calls st) (c : Call) :
    Good (calls ++ [c]) (resetFor st c) := by
  by_cases fresh : c.tdOn = false ∨ c.target ≠ st.target
  · apply good_empty <;> simp [resetFor, fresh, State.resetPending]
  · rw [not_or] at fresh
    obtain ⟨on, same⟩ := fresh
    rw [Bool.not_eq_false] at on
    rw [not_not] at same
    have kept : resetFor st c = st := by simp [resetFor, on, same]
    have carry : ∀ p, Matching calls st.target p → Matching (calls ++ [c]) st.target p := by
      rintro p ⟨t, a, target, recent, built⟩
      exact ⟨t, a, target, recent.snoc on (same.trans target), built⟩
    rw [kept]
    exact ⟨h.apart, fun p hp => carry p (h.hit p hp), fun p hp => carry p (h.confirm p hp),
      h.hitReason, h.confirmReason⟩

/-! ## The selection -/

/-- A selection that keeps the invariant leaves the hit it returns pending. -/
structure Kept (calls : List Call) (c : Call) (r : State × Option Hit) : Prop where
  good : Good calls r.1
  target : r.1.target = c.target
  pending : ∀ h, r.2 = some h → r.1.pendingHit = some h

/-- A kept or given-up record awaiting confirmation is as good as before. -/
theorem Good.confirm_sub {calls : List Call} {st : State} (h : Good calls st) {confirm : Option Hit}
    (sub : confirm = st.pendingConfirm ∨ confirm = none) {p : Hit} (held : confirm = some p) :
    Matching calls st.target p ∧ isChipset st.target = true ∧ isTruncation p.attempt.reason = true := by
  rcases sub with rfl | rfl
  · exact ⟨h.confirm p held, h.confirmReason p held⟩
  · cases held

theorem Good.selects {calls : List Call} {c : Call} {st : State} {r : State × Option Hit}
    (h : Good (calls ++ [c]) st) (on : c.tdOn = true) (same : st.target = c.target)
    (selects : Selects c st r) : Kept (calls ++ [c]) c r := by
  have built : ∀ {t : Target} {a : Attempt} {p : Hit}, c.target = some t → a ∈ c.attempts →
      BuiltFrom t a p → Matching (calls ++ [c]) st.target p := by
    intro t a p target mem built
    exact ⟨t, a, same.trans target, .now mem on target, built⟩
  cases selects with
  | nothing confirm sub =>
    refine ⟨?_, same, by simp⟩
    constructor
    · exact .inl rfl
    · simp
    · intro p held
      exact (h.confirm_sub sub held).1
    · simp
    · intro p held
      exact (h.confirm_sub sub held).2
  | retried p confirm sub pending inside young =>
    -- the record is the same but for its position in this window
    obtain ⟨t, a, target, recent, origin⟩ := h.hit p pending
    have from' : BuiltFrom t a { p with relStart := some (c.relative p.absStart) } := by
      cases t <;> exact origin
    refine ⟨?_, same, by simp⟩
    constructor
    · right
      have none_held : st.pendingConfirm = none := by
        rcases h.apart with gone | gone
        · rw [gone] at pending
          cases pending
        · exact gone
      rcases sub with kept | kept
      · exact kept.trans none_held
      · exact kept
    · rintro p' ⟨⟩
      exact ⟨t, a, target, recent, from'⟩
    · intro q held
      exact (h.confirm_sub sub held).1
    · rintro p' ⟨⟩ mode
      exact h.hitReason p pending mode
    · intro q held
      exact (h.confirm_sub sub held).2
  | promoted s p a target held mem chipset failed real inside =>
    refine ⟨?_, same, by simp⟩
    constructor
    · exact .inr rfl
    · rintro p' ⟨⟩
      exact built target mem ⟨chipset, failed, rfl⟩
    · simp
    · rintro p' ⟨⟩ -
      exact real
    · simp
  | suspected s a target mem chipset failed cut =>
    refine ⟨?_, same, by simp⟩
    constructor
    · exact .inl rfl
    · simp
    · rintro p' ⟨⟩
      exact built target mem ⟨chipset, failed, rfl⟩
    · simp
    · rintro p' ⟨⟩
      refine ⟨?_, cut⟩
      show isChipset st.target = true
      rw [same, target]
      rfl
  | matched t a a' confirm target mem start origin sub real =>
    -- a device target has no record awaiting confirmation
    have none_held : confirm = none := by
      rcases sub with gone | ⟨device, rfl⟩
      · exact gone
      · cases held : st.pendingConfirm with
        | none => rfl
        | some p =>
          have mode := (h.confirmReason p held).1
          rw [same, target, device] at mode
          cases mode
    subst none_held
    refine ⟨?_, same, by simp⟩
    constructor
    · exact .inr rfl
    · rintro p' ⟨⟩
      exact built target mem origin
    · simp
    · rintro p' ⟨⟩ mode
      apply real
      rw [← target, ← same]
      exact mode
    · simp

/-- Without a target nothing is pending. -/
theorem Good.untargeted {calls : List Call} {st : State} (h : Good calls st) (none_set : st.target = none) :
    st.pendingHit = none ∧ st.pendingConfirm = none := by
  constructor
  · by_contra set
    obtain ⟨p, pending⟩ := Option.ne_none_iff_exists'.1 set
    obtain ⟨t, a, target, -⟩ := h.hit p pending
    rw [none_set] at target
    cases target
  · by_contra set
    obtain ⟨p, held⟩ := Option.ne_none_iff_exists'.1 set
    obtain ⟨t, a, target, -⟩ := h.confirm p held
    rw [none_set] at target
    cases target

theorem findHit_kept {calls : List Call} {st : State} (h : Good calls st) {c : Call}
    (on : c.tdOn = true) : Kept (calls ++ [c]) c (findHit K (resetFor st c) c) := by
  have good := h.reset c
  rcases findHit_selects K (resetFor st c) c with selects | ⟨-, nothing⟩
  · exact good.selects on (resetFor_target st c) selects
  · rw [nothing]
    exact ⟨good, resetFor_target st c, by simp⟩

/-! ## A call -/

/-- What a call does behind its selection: a deferred hit stays pending, a hit
that is rendered is served. -/
theorem selectTdCapture_eq {st : State} {c : Call} (on : c.tdOn = true)
    (pending : ∀ h, (findHit K (resetFor st c) c).2 = some h →
      (findHit K (resetFor st c) c).1.pendingHit = some h) :
    selectTdCapture K st c = match (findHit K (resetFor st c) c).2 with
      | some h =>
        if isDeferred c h then ((findHit K (resetFor st c) c).1, {})
        else ({ (findHit K (resetFor st c) c).1 with pendingHit := none },
          { capture := some ⟨h, (renderWindow h).2.1, (renderWindow h).2.2, (renderWindow h).1⟩
            status := some (capturedStatus h (renderWindow h).1) })
      | none => ((findHit K (resetFor st c) c).1,
          { status := waitingStatus (findHit K (resetFor st c) c).1 c }) := by
  simp only [selectTdCapture, on, Bool.not_true, Bool.false_eq_true, if_false]
  cases selected : findHit K (resetFor st c) c with
  | mk st' hit =>
    cases hit with
    | none => rfl
    | some h =>
      have itself : st'.isPending h = true := by
        have held : st'.pendingHit = some h := by
          have := pending h (by rw [selected])
          rwa [selected] at this
        simp [State.isPending, held]
      simp only [itself, Bool.not_true, Bool.false_eq_true, if_false, if_true]

theorem selectTdCapture_off (st : State) {c : Call} (off : c.tdOn = false) :
    selectTdCapture K st c = (resetFor st c, {}) := by
  simp [selectTdCapture, off]

/-- Serving a hit keeps the invariant. -/
theorem Good.served {calls : List Call} {st : State} (h : Good calls st) :
    Good calls { st with pendingHit := none } where
  apart := .inl rfl
  hit := by simp
  confirm := h.confirm
  hitReason := by simp
  confirmReason := h.confirmReason

/-- **Every call keeps the invariant.** -/
theorem Good.step {calls : List Call} {st : State} (h : Good calls st) (c : Call) :
    Good (calls ++ [c]) (selectTdCapture K st c).1 ∧ (selectTdCapture K st c).1.target = c.target := by
  by_cases on : c.tdOn = true
  · have kept := findHit_kept K h on
    rw [selectTdCapture_eq K on kept.pending]
    split
    · split
      · exact ⟨kept.good, kept.target⟩
      · exact ⟨kept.good.served, kept.target⟩
    · exact ⟨kept.good, kept.target⟩
  · rw [Bool.not_eq_true] at on
    rw [selectTdCapture_off K st on]
    exact ⟨h.reset c, resetFor_target st c⟩

theorem good_run (calls : List Call) : Good calls (stateAfter K calls) :=
  Machine.after_rule (selectTdCapture K) good_fresh (fun _ c h => (h.step K c).1) calls

/-! ## The properties of a call -/

/-- What holds after the call `c` of a run that made `calls` before it. -/
structure CallInv (calls : List Call) (c : Call) : Prop where
  /-- Not both records are set. -/
  apart : ¬((selectTdCapture K (stateAfter K calls) c).1.pendingHit.isSome = true ∧
    (selectTdCapture K (stateAfter K calls) c).1.pendingConfirm.isSome = true)
  /-- Off or without a target neither is. -/
  idle : c.tdOn = false ∨ c.target = none →
    (selectTdCapture K (stateAfter K calls) c).1.pendingHit = none ∧
      (selectTdCapture K (stateAfter K calls) c).1.pendingConfirm = none
  /-- Every record was made from an attempt that matches this call's target, in
  a call since which the viewer has been on with this target. -/
  matching : ∀ h, ((selectTdCapture K (stateAfter K calls) c).1.pendingHit = some h ∨
      (selectTdCapture K (stateAfter K calls) c).1.pendingConfirm = some h ∨
      (selectTdCapture K (stateAfter K calls) c).2.capture.map Capture.tdHit = some h) →
    Matching (calls ++ [c]) c.target h
  /-- In chipset mode a record awaiting confirmation has a truncation reason. -/
  confirmReason : c.chipset.isSome = true → ∀ h,
    (selectTdCapture K (stateAfter K calls) c).1.pendingConfirm = some h →
      isTruncation h.attempt.reason = true
  /-- In chipset mode a pending hit and a capture never have one. -/
  hitReason : c.chipset.isSome = true → ∀ h,
    ((selectTdCapture K (stateAfter K calls) c).1.pendingHit = some h ∨
      (selectTdCapture K (stateAfter K calls) c).2.capture.map Capture.tdHit = some h) →
      isTruncation h.attempt.reason = false
  /-- A hit that is deferred is the pending hit itself, and stays it. -/
  deferred : c.tdOn = true → ∀ h, (findHit K (resetFor (stateAfter K calls) c) c).2 = some h →
    isDeferred c h →
      (findHit K (resetFor (stateAfter K calls) c) c).1.isPending h = true ∧
        (selectTdCapture K (stateAfter K calls) c).1.pendingHit = some h
  /-- A capture leaves no pending hit. -/
  served : (selectTdCapture K (stateAfter K calls) c).2.capture.isSome = true →
    (selectTdCapture K (stateAfter K calls) c).1.pendingHit = none

theorem isChipset_of_chipset {c : Call} (mode : c.chipset.isSome = true) : isChipset c.target = true := by
  obtain ⟨s, some_s⟩ := Option.isSome_iff_exists.1 mode
  rw [target_of_chipset some_s]
  rfl

/-- A capture is the hit that was pending behind the selection, and serves it. -/
theorem captured {calls : List Call} {st : State} (good : Good calls st) {c : Call} {cap : Capture}
    (some_cap : (selectTdCapture K st c).2.capture = some cap) :
    c.tdOn = true ∧ (findHit K (resetFor st c) c).2 = some cap.tdHit ∧
      (findHit K (resetFor st c) c).1.pendingHit = some cap.tdHit ∧ ¬isDeferred c cap.tdHit ∧
      (selectTdCapture K st c).1.pendingHit = none ∧ cap.tdCenter = (renderWindow cap.tdHit).1 := by
  by_cases on : c.tdOn = true
  · have kept := findHit_kept K good on
    rw [selectTdCapture_eq K on kept.pending] at some_cap ⊢
    cases hit : (findHit K (resetFor st c) c).2 with
    | none =>
      rw [hit] at some_cap
      cases some_cap
    | some h =>
      rw [hit] at some_cap
      simp only at some_cap ⊢
      by_cases deferred : isDeferred c h
      · rw [if_pos deferred] at some_cap
        cases some_cap
      · rw [if_neg deferred] at some_cap ⊢
        cases some_cap
        exact ⟨on, rfl, kept.pending h hit, deferred, rfl, rfl⟩
  · rw [Bool.not_eq_true] at on
    rw [selectTdCapture_off K _ on] at some_cap
    cases some_cap

/-- **The reachable-state invariant.** It holds after every call of every
sequence of calls from a fresh state. -/
theorem callInv_run (calls : List Call) (c : Call) : CallInv K calls c := by
  obtain ⟨good, target⟩ := (good_run K calls).step K c
  constructor
  · rintro ⟨hit, confirm⟩
    rcases good.apart with gone | gone
    · simp [gone] at hit
    · simp [gone] at confirm
  · rintro (off | untargeted)
    · rw [selectTdCapture_off K _ off]
      exact resetFor_off _ off
    · exact good.untargeted (target.trans untargeted)
  · rintro h (pending | held | cap)
    · exact target ▸ good.hit h pending
    · exact target ▸ good.confirm h held
    · obtain ⟨cap, some_cap, rfl⟩ := Option.map_eq_some_iff.1 cap
      obtain ⟨on, -, pending, -⟩ := captured K (good_run K calls) some_cap
      have kept := findHit_kept K (good_run K calls) on
      exact kept.target ▸ kept.good.hit _ pending
  · intro _ h held
    exact (good.confirmReason h held).2
  · rintro mode h (pending | cap)
    · apply good.hitReason h pending
      rw [target]
      exact isChipset_of_chipset mode
    · obtain ⟨cap, some_cap, rfl⟩ := Option.map_eq_some_iff.1 cap
      obtain ⟨on, -, pending, -⟩ := captured K (good_run K calls) some_cap
      have kept := findHit_kept K (good_run K calls) on
      apply kept.good.hitReason _ pending
      rw [kept.target]
      exact isChipset_of_chipset mode
  · intro on h hit deferred
    have kept := findHit_kept K (good_run K calls) on
    have pending := kept.pending h hit
    refine ⟨by simp [State.isPending, pending], ?_⟩
    rw [selectTdCapture_eq K on kept.pending, hit]
    simp only [if_pos deferred]
    exact pending
  · intro cap
    obtain ⟨capture, some_cap⟩ := Option.isSome_iff_exists.1 cap
    obtain ⟨-, -, -, -, gone, -⟩ := captured K (good_run K calls) some_cap
    exact gone

end StreamWeb.Td

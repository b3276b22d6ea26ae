import StreamWeb.Processor.SampleDrop
import StreamWeb.Td.Phantom

/-!
# Truncations behind the sample-drop annotation

A cycle annotates its attempts before it selects one. The annotation extends
the reason of an attempt a drop lies in, and the extended reason is not one of
the truncation reasons: the fresh search then takes the attempt for a real
failure. `truncation_held_iff` says when it is captured on first sight.
-/

namespace StreamWeb.Td

open Config Processor

variable (K : DecoderConstants)

/-- The arguments of the selection in a cycle: the attempts annotated with the drops. -/
def Call.annotated (c : Call) (offsets : List Int) : Call :=
  { c with attempts := annotateSampleDrops offsets c.attempts }

/-- The record awaiting confirmation is one the attempt matches. -/
def Awaited (st : State) (s : String) (c : Call) (a : Attempt) : Prop :=
  ∃ p, st.pendingConfirm = some p ∧ isNear s (c.relative p.absStart) a = true

/-- The cycle makes a record from the attempt and captures it at once. -/
def CapturedAtOnce (st : State) (offsets : List Int) (c : Call) (a : Attempt) : Prop :=
  (selectTdCapture K st (c.annotated offsets)).1.nextRef ≠ st.nextRef ∧
    ∃ cap, (selectTdCapture K st (c.annotated offsets)).2.capture = some cap ∧
      cap.tdHit.attempt = annotate offsets a

/-- The selection comes to its fresh search: the deferred hit is too old or has left the window, and
the record awaiting confirmation is given up. -/
structure Searches (st : State) (s : String) (c : Call) : Prop where
  hit : ∀ h, st.pendingHit = some h →
    decodeSamples ≤ c.relative h.absStart ∨ tdPendingTimeoutS < c.now - h.firstSeen
  confirm : ∀ p, st.pendingConfirm = some p →
    confirmOutcome s p c ≠ .held ∧ ∀ a, confirmOutcome s p c ≠ .promoted a

/-! ## The fresh search -/

theorem retryPending_none {st : State} {c : Call}
    (gone : ∀ h, st.pendingHit = some h →
      decodeSamples ≤ c.relative h.absStart ∨ tdPendingTimeoutS < c.now - h.firstSeen) :
    retryPending st c = ({ st with pendingHit := none }, none) := by
  rcases retryPending_cases st c with none_left | ⟨h, pending, inside, young, -⟩
  · exact none_left
  · rcases gone h pending with left | old
    · exact absurd inside (not_lt_of_ge left)
    · exact absurd young (not_le_of_gt old)

theorem gone_of_retryPending {st : State} {c : Call} (served : (retryPending st c).2 = none) {h : Hit}
    (pending : st.pendingHit = some h) :
    decodeSamples ≤ c.relative h.absStart ∨ tdPendingTimeoutS < c.now - h.firstSeen := by
  by_contra kept
  simp [retryPending, pending, kept] at served

/-- The first match of a search that is reached, failed for a real reason, is the hit. -/
theorem selectChipset_fresh {st : State} {s : String} {c : Call} (searches : Searches st s c)
    {a : Attempt} {rest : List Attempt} (found : chipsetMatches K s c.attempts = a :: rest)
    (real : isTruncation a.reason = false) :
    selectChipset K st s c =
      (⟨some ⟨st.nextRef, a, c.absolute (startSample a), some (startSample a), c.now⟩, none, st.target,
          st.nextRef + 1⟩,
        some ⟨st.nextRef, a, c.absolute (startSample a), some (startSample a), c.now⟩) := by
  have search : ∀ st' : State, st'.pendingHit = st.pendingHit → st'.pendingConfirm = none →
      st'.target = st.target → st'.nextRef = st.nextRef → continueChipset K st' s c =
        (⟨some ⟨st.nextRef, a, c.absolute (startSample a), some (startSample a), c.now⟩, none,
            st.target, st.nextRef + 1⟩,
          some ⟨st.nextRef, a, c.absolute (startSample a), some (startSample a), c.now⟩) := by
    intro st' hit confirm target ref
    rw [continueChipset, retryPending_none (hit ▸ searches.hit)]
    simp [confirm, searchChipset, found, real, target, ref]
  unfold selectChipset
  cases held : st.pendingConfirm with
  | none => exact search st rfl held rfl rfl
  | some p =>
    obtain ⟨unheld, unpromoted⟩ := searches.confirm p held
    cases outcome : confirmOutcome s p c with simp only [outcome]
    | promoted a' => exact absurd outcome (unpromoted a')
    | held => exact absurd outcome unheld
    | decoded a' => exact search { st with pendingConfirm := none } rfl rfl rfl rfl
    | leftWindow => exact search { st with pendingConfirm := none } rfl rfl rfl rfl
    | timedOut => exact search { st with pendingConfirm := none } rfl rfl rfl rfl

/-- The record a selection makes and returns: a promotion, or the first match of the search. -/
inductive Makes (st : State) (s : String) (c : Call) (h : Hit) : Prop
  | promoted (p : Hit) (awaited : st.pendingConfirm = some p)
      (outcome : confirmOutcome s p c = .promoted h.attempt)
  | searched (searches : Searches st s c) (rest : List Attempt)
      (found : chipsetMatches K s c.attempts = h.attempt :: rest)
      (real : isTruncation h.attempt.reason = false)
      (position : h.relStart = some (startSample h.attempt))

theorem continueChipset_makes {st st' : State} {s : String} {c : Call} {h : Hit}
    (hitSame : st'.pendingHit = st.pendingHit) (refSame : st'.nextRef = st.nextRef)
    (confirm : st'.pendingConfirm = none → ∀ p, st.pendingConfirm = some p →
      confirmOutcome s p c ≠ .held ∧ ∀ a, confirmOutcome s p c ≠ .promoted a)
    (hit : (continueChipset K st' s c).2 = some h)
    (made : (continueChipset K st' s c).1.nextRef ≠ st.nextRef) : Makes K st s c h := by
  unfold continueChipset at hit made
  rcases retryPending_cases st' c with gone | ⟨p, pending, inside, young, served⟩
  · rw [gone] at hit made
    simp only at hit made
    split at hit
    · cases hit
    · rename_i none_held
      rw [Option.not_isSome_iff_eq_none] at none_held
      unfold searchChipset at hit
      split at hit
      · cases hit
      · rename_i a rest found
        simp only at hit
        split at hit
        · cases hit
        · rename_i real
          cases hit
          rw [Bool.not_eq_true] at real
          refine .searched ⟨?_, confirm none_held⟩ rest found real rfl
          intro q pending
          exact gone_of_retryPending (by rw [gone]) (hitSame.trans pending)
  · rw [served] at made
    exact absurd refSame made

theorem selectChipset_makes {st : State} {s : String} {c : Call} {h : Hit}
    (hit : (selectChipset K st s c).2 = some h)
    (made : (selectChipset K st s c).1.nextRef ≠ st.nextRef) : Makes K st s c h := by
  unfold selectChipset at hit made
  cases held : st.pendingConfirm with
  | none =>
    rw [held] at hit made
    refine continueChipset_makes K rfl rfl ?_ hit made
    intro _ p awaited
    rw [held] at awaited
    cases awaited
  | some p =>
    rw [held] at hit made
    simp only at hit made
    have given_up : confirmOutcome s p c ≠ .held → (∀ a, confirmOutcome s p c ≠ .promoted a) →
        (continueChipset K { st with pendingConfirm := none } s c).2 = some h →
        (continueChipset K { st with pendingConfirm := none } s c).1.nextRef ≠ st.nextRef →
        Makes K st s c h := by
      intro unheld unpromoted hit made
      refine continueChipset_makes K (by rfl) (by rfl) ?_ hit made
      intro _ q awaited
      rw [held] at awaited
      cases awaited
      exact ⟨unheld, unpromoted⟩
    cases outcome : confirmOutcome s p c with
    | promoted a =>
      rw [outcome] at hit
      cases hit
      exact .promoted p held outcome
    | held =>
      rw [outcome] at hit made
      refine continueChipset_makes K rfl rfl ?_ hit made
      intro unheld
      rw [held] at unheld
      cases unheld
    | decoded a =>
      rw [outcome] at hit made
      exact given_up (by simp [outcome]) (by simp [outcome]) hit made
    | leftWindow =>
      rw [outcome] at hit made
      exact given_up (by simp [outcome]) (by simp [outcome]) hit made
    | timedOut =>
      rw [outcome] at hit made
      exact given_up (by simp [outcome]) (by simp [outcome]) hit made

/-! ## The annotated cycle -/

@[simp] theorem resetFor_annotated (st : State) (c : Call) (offsets : List Int) :
    resetFor st (c.annotated offsets) = resetFor st c := rfl

@[simp] theorem startSample_annotate (offsets : List Int) (a : Attempt) :
    startSample (annotate offsets a) = startSample a := by
  obtain ⟨mark, reason, same⟩ := annotate_frame offsets a
  rw [same]
  rfl

@[simp] theorem isNear_annotate (s : String) (rel : Int) (offsets : List Int) (a : Attempt) :
    isNear s rel (annotate offsets a) = isNear s rel a := by
  have start := startSample_annotate offsets a
  obtain ⟨mark, reason, same⟩ := annotate_frame offsets a
  rw [same] at start ⊢
  simp [isNear, start]

/-- The annotation leaves the decoded attempts alone and moves no other: the search finds the same
attempts, annotated. -/
theorem chipsetMatches_annotated (s : String) (offsets : List Int) (attempts : List Attempt) :
    chipsetMatches K s (annotateSampleDrops offsets attempts)
      = (chipsetMatches K s attempts).map (annotate offsets) := by
  have spans : (attempts.map (annotate offsets)).filter (·.decoded) = attempts.filter (·.decoded) := by
    induction attempts with
    | nil => rfl
    | cons a rest ih =>
      rw [List.map_cons, List.filter_cons, List.filter_cons, annotate_keeps_decoded, ih]
      split_ifs with ok
      · rw [annotate_decoded ok]
      · rfl
  rw [annotateSampleDrops_eq, chipsetMatches, spans, chipsetMatches, List.filter_map]
  congr 1
  apply List.filter_congr
  intro a _
  obtain ⟨mark, reason, same⟩ := annotate_frame offsets a
  rw [Function.comp_apply, same]

theorem isTruncation_iff {reason : Option String} :
    isTruncation reason = true ↔ reason = some "pdu_incomplete" ∨ reason = some "unknown" := by
  cases reason <;> simp [isTruncation, truncationReasons]

/-- The extended reason of a truncation is not one, and no other reason is extended to it. -/
theorem dropReason_truncation {reason : Option String} (cut : isTruncation reason = true) :
    isTruncation (some (dropReason reason)) = false ∧
      ∀ reason', dropReason reason' = dropReason reason → reason' = reason := by
  have extended : ∀ r : String, r ≠ "" → r ≠ "ok" →
      "sample_drop" ≠ r ++ "+sample_drop" → ∀ reason',
      dropReason reason' = r ++ "+sample_drop" → reason' = some r := by
    intro r _ _ other reason' same
    unfold dropReason at same
    split at same
    · split_ifs at same with extends'
      · rw [String.append_left_inj] at same
        rw [same]
      · exact absurd same other
    · exact absurd same other
  rcases isTruncation_iff.1 cut with rfl | rfl
  · exact ⟨by decide, extended _ (by decide) (by decide) (by decide)⟩
  · exact ⟨by decide, extended _ (by decide) (by decide) (by decide)⟩

/-- A truncation the annotation turns into a real failure has a drop in it. -/
theorem isCut_of_real {offsets : List Int} {a : Attempt} (cut : isTruncation a.reason = true)
    (real : isTruncation (annotate offsets a).reason = false) : isCut offsets a = true := by
  by_contra whole
  rw [Bool.not_eq_true] at whole
  rw [annotate_uncut whole, cut] at real
  cases real

/-- An attempt that is annotated to the same was a truncation too. -/
theorem truncation_of_annotate_eq {offsets : List Int} {a a' : Attempt} (failed : a.decoded = false)
    (same : annotate offsets a' = annotate offsets a) (cut : isTruncation a.reason = true)
    (drop : isCut offsets a = true) : isTruncation a'.reason = true ∧ isCut offsets a' = true := by
  have drop' : isCut offsets a' = true := by
    rw [← isCut_annotate, same, isCut_annotate, drop]
  have failed' : a'.decoded = false := by
    rw [← annotate_keeps_decoded offsets a', same, annotate_keeps_decoded, failed]
  rw [annotate_cut failed' drop', annotate_cut failed drop] at same
  have reasons := congrArg Attempt.reason same
  simp only [Option.some.injEq] at reasons
  rw [(dropReason_truncation cut).2 _ reasons]
  exact ⟨cut, drop'⟩

/-! ## Truncations captured on first sight -/

/-- A hit of a selection is the pending one behind it. -/
theorem findHit_pending (st : State) (c : Call) (h : Hit) (hit : (findHit K st c).2 = some h) :
    (findHit K st c).1.pendingHit = some h := by
  have selects := selects_of_hit K hit
  generalize findHit K st c = r at *
  cases selects with
  | nothing => cases hit
  | suspected => cases hit
  | retried => exact hit
  | promoted => exact hit
  | matched => exact hit

/-- A truncation that a cycle captures: the first match of a search that is reached, with a drop in
it and enough samples behind it, and nothing awaited matches it. -/
structure Leaked (st : State) (s : String) (offsets : List Int) (c : Call) (a : Attempt) : Prop where
  on : c.tdOn = true
  first : (chipsetMatches K s c.attempts).head? = some a
  cut : isTruncation a.reason = true
  drop : isCut offsets a = true
  renderable : Renderable c (startSample a)
  searches : Searches st s (c.annotated offsets)
  unawaited : ¬Awaited st s c a

theorem Leaked.capturedAtOnce {st : State} {s : String} {offsets : List Int} {c : Call} {a : Attempt}
    (mode : c.chipset = some s) (leaked : Leaked K (resetFor st c) s offsets c a) :
    a ∈ c.attempts ∧ CapturedAtOnce K st offsets c a := by
  obtain ⟨rest, first⟩ := List.head?_eq_some_iff.1 leaked.first
  obtain ⟨mem, -, failed⟩ := mem_chipsetMatches K first
  refine ⟨mem, ?_⟩
  have found : chipsetMatches K s (c.annotated offsets).attempts
      = annotate offsets a :: rest.map (annotate offsets) := by
    show chipsetMatches K s (annotateSampleDrops offsets c.attempts) = _
    rw [chipsetMatches_annotated, first, List.map_cons]
  have real : isTruncation (annotate offsets a).reason = false := by
    rw [annotate_cut failed leaked.drop]
    exact (dropReason_truncation leaked.cut).1
  have selected := selectChipset_fresh K leaked.searches found real
  have on : (c.annotated offsets).tdOn = true := leaked.on
  have chipset : (c.annotated offsets).chipset = some s := mode
  rw [← findHit_chipset K chipset] at selected
  have rendered : ¬isDeferred (c.annotated offsets) ⟨(resetFor st c).nextRef, annotate offsets a,
      (c.annotated offsets).absolute (startSample (annotate offsets a)),
      some (startSample (annotate offsets a)), (c.annotated offsets).now⟩ := by
    rw [isDeferred_iff_not_renderable rfl, not_not, startSample_annotate]
    exact leaked.renderable
  have outcome := selectTdCapture_eq K on (findHit_pending K (resetFor st c) (c.annotated offsets))
  rw [resetFor_annotated, selected] at outcome
  simp only [if_neg rendered] at outcome
  constructor
  · rw [outcome]
    simp
  · rw [outcome]
    exact ⟨_, rfl, rfl⟩

theorem CapturedAtOnce.leaked {st : State} {s : String} {offsets : List Int} {c : Call} {a : Attempt}
    (mode : c.chipset = some s) (cut : isTruncation a.reason = true)
    (unawaited : ¬Awaited (resetFor st c) s c a) (captured : CapturedAtOnce K st offsets c a) :
    ∃ a', Leaked K (resetFor st c) s offsets c a' := by
  obtain ⟨made, cap, some_cap, attempt⟩ := captured
  by_cases on : (c.annotated offsets).tdOn = true
  swap
  · rw [Bool.not_eq_true] at on
    rw [selectTdCapture_off K st on] at some_cap
    cases some_cap
  rw [selectTdCapture_eq K on (findHit_pending K _ _)] at some_cap made
  rw [resetFor_annotated] at some_cap made
  have chipset : (c.annotated offsets).chipset = some s := mode
  rw [findHit_chipset K chipset] at some_cap made
  cases hit : (selectChipset K (resetFor st c) s (c.annotated offsets)).2 with
  | none =>
    rw [hit] at some_cap
    cases some_cap
  | some h =>
    rw [hit] at some_cap made
    simp only at some_cap made
    by_cases deferred : isDeferred (c.annotated offsets) h
    · rw [if_pos deferred] at some_cap
      cases some_cap
    rw [if_neg deferred] at some_cap made
    cases some_cap
    simp only at attempt made
    rw [← resetFor_nextRef st c] at made
    cases selectChipset_makes K hit made with
    | promoted p awaited outcome =>
      obtain ⟨-, near, -⟩ := confirmOutcome_promoted outcome
      rw [attempt, isNear_annotate] at near
      exact absurd ⟨p, awaited, near⟩ unawaited
    | searched searches rest found real position =>
      have first := chipsetMatches_annotated K s offsets c.attempts
      rw [show annotateSampleDrops offsets c.attempts = (c.annotated offsets).attempts from rfl,
        found, eq_comm, List.map_eq_cons_iff] at first
      obtain ⟨a', rest', first, same, -⟩ := first
      rw [attempt] at same real position
      obtain ⟨-, -, failed'⟩ := mem_chipsetMatches K first
      have failed : a.decoded = false := by
        rw [← annotate_keeps_decoded offsets a, ← same, annotate_keeps_decoded, failed']
      obtain ⟨cut', drop'⟩ := truncation_of_annotate_eq failed same cut (isCut_of_real cut real)
      refine ⟨a', on, by rw [first, List.head?_cons], cut', drop', ?_, searches, ?_⟩
      · rw [isDeferred_iff_not_renderable position, not_not, ← same, startSample_annotate] at deferred
        exact deferred
      · rintro ⟨p, awaited, near⟩
        rw [← isNear_annotate s _ offsets, same, isNear_annotate] at near
        exact unawaited ⟨p, awaited, near⟩

/-- **When a truncation is held.** For every state and every cycle in chipset mode, with whatever
drops: no attempt reported with a truncation reason, and matched by nothing awaited, is captured at
once, exactly when the search does not come to a first match that is such a truncation, with a
drop in it and enough samples behind it. -/
theorem truncation_held_iff (st : State) (offsets : List Int) (c : Call) (s : String)
    (mode : c.chipset = some s) :
    (∀ a ∈ c.attempts, isTruncation a.reason = true → ¬Awaited (resetFor st c) s c a →
        ¬CapturedAtOnce K st offsets c a) ↔
      ¬∃ a, Leaked K (resetFor st c) s offsets c a := by
  constructor
  · rintro held ⟨a, leaked⟩
    obtain ⟨mem, captured⟩ := leaked.capturedAtOnce K mode
    exact held a mem leaked.cut leaked.unawaited captured
  · intro sound a _ cut unawaited captured
    exact sound (captured.leaked K mode cut unawaited)

/-- The same failure beside a gap is held. -/
theorem truncation_held_iff_uncut :
    ¬CapturedAtOnce exampleConstants .fresh [200000]
      (chipsetCycle 0 100 [failedAt 100000 "pdu_incomplete"]).call
      (failedAt 100000 "pdu_incomplete") := by
  refine (truncation_held_iff exampleConstants .fresh [200000]
    (chipsetCycle 0 100 [failedAt 100000 "pdu_incomplete"]).call "A" rfl).2 ?_ _ (by decide +kernel)
    (by decide +kernel) ?_
  · rintro ⟨a, leaked⟩
    have first : (chipsetMatches exampleConstants "A" [failedAt 100000 "pdu_incomplete"]).head?
        = some (failedAt 100000 "pdu_incomplete") := by
      decide +kernel
    obtain rfl := Option.some.inj (leaked.first.symm.trans first)
    exact absurd leaked.drop (by decide +kernel)
  · rintro ⟨p, awaited, -⟩
    cases awaited

/-- A packet cut off by the window, with a gap in what the window shows of it: its truncation is
captured as a failure in the cycle that reports it. -/
theorem truncation_captured_at_once :
    dropSampleOffsets iqBufferSize 1171875 [110000] = [110000] ∧
      isTruncation (failedAt 100000 "pdu_incomplete").reason = true ∧
      ¬Awaited (resetFor .fresh (chipsetCycle 0 100 [failedAt 100000 "pdu_incomplete"]).call) "A"
        (chipsetCycle 0 100 [failedAt 100000 "pdu_incomplete"]).call
        (failedAt 100000 "pdu_incomplete") ∧
      CapturedAtOnce exampleConstants .fresh [110000]
        (chipsetCycle 0 100 [failedAt 100000 "pdu_incomplete"]).call
        (failedAt 100000 "pdu_incomplete") := by
  refine ⟨by decide +kernel, by decide +kernel, ?_, by decide +kernel, ?_⟩
  · rintro ⟨p, awaited, -⟩
    cases awaited
  · exact ⟨⟨⟨0, annotate [110000] (failedAt 100000 "pdu_incomplete"), 100000, some 100000, 100⟩, 41407,
      627344, 100000⟩, by decide +kernel, rfl⟩

end StreamWeb.Td

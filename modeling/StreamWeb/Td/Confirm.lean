import StreamWeb.Td.Position

/-!
# Confirming the same packet

A failure that may be cut off by the window is held by its position modulo the
buffer, and an attempt near its projection into a later window settles it. The
buffer is only half a second longer than the window, so a position that has
left the window at its front is projected into it again at its end:
`confirm_same_packet_iff` is the exact condition on a later window under which
only attempts at the held position settle it.
-/

namespace StreamWeb.Td

open Config

variable (K : DecoderConstants)

/-- Behind the cycles `before`, the cycle `made` put the record `ref` on hold,
made from an attempt at `rel` of its window. -/
def HeldAt (before : List Cycle) (made : Cycle) (ref : Nat) (rel : Int) : Prop :=
  (runTo K before).nextRef ≤ ref ∧
    ∃ p, (findHit K (resetFor (runTo K before) made.call) made.call).1.pendingConfirm = some p ∧
      p.ref = ref ∧ startSample p.attempt = rel

/-- In this call the attempt `a` settles the record on hold: the record is
cleared as decoded by it, or promoted with it to a failure. -/
def ResolvedBy (st : State) (c : Call) (a : Attempt) : Prop :=
  c.tdOn = true ∧ ∃ s p, c.chipset = some s ∧ (resetFor st c).pendingConfirm = some p ∧
    (confirmOutcome s p c = .decoded a ∨ confirmOutcome s p c = .promoted a)

/-- A record on hold and the position in the stream it stands for. -/
def Suspect (cycles : List Cycle) (p : Hit) (P : Int) : Prop :=
  ∃ before made later rel, cycles = before ++ made :: later ∧ HeldAt K before made p.ref rel ∧
    P = made.windowStart + rel ∧ 0 ≤ rel ∧ rel < decodeSamples

theorem Suspect.later {cycles : List Cycle} {p : Hit} {P : Int} (h : Suspect K cycles p P) (c : Cycle) :
    Suspect K (cycles ++ [c]) p P := by
  obtain ⟨before, made, later, rel, rfl, facts⟩ := h
  exact ⟨before, made, later ++ [c], rel, by simp, facts⟩

/-- A record on hold behind a selection was on hold before, or is new. -/
theorem confirm_cases {c : Call} {st : State} {r : State × Option Hit} (selects : Selects c st r)
    {p : Hit} (held : r.1.pendingConfirm = some p) :
    st.pendingConfirm = some p ∨
      ∃ a ∈ c.attempts, p = ⟨st.nextRef, a, c.absolute (startSample a), none, c.now⟩ := by
  cases selects with
  | nothing confirm sub =>
    rcases sub with rfl | rfl
    · exact .inl held
    · cases held
  | retried h confirm sub pending inside young =>
    rcases sub with rfl | rfl
    · exact .inl held
    · cases held
  | promoted => cases held
  | suspected s a target mem chipset failed cut =>
    cases held
    exact .inr ⟨a, mem, rfl⟩
  | matched t a a' confirm target mem start built sub real =>
    rcases sub with rfl | ⟨-, rfl⟩
    · cases held
    · exact .inl held

theorem resetFor_pendingConfirm {st : State} {c : Call} {p : Hit}
    (held : (resetFor st c).pendingConfirm = some p) : st.pendingConfirm = some p := by
  unfold resetFor at held
  split at held
  · cases held
  · exact held

/-- The record on hold after a call is the one after its selection. -/
theorem selectTdCapture_confirm {calls : List Call} {st : State} (good : Good calls st) {c : Call}
    {p : Hit} (held : (selectTdCapture K st c).1.pendingConfirm = some p) :
    (findHit K (resetFor st c) c).1.pendingConfirm = some p := by
  by_cases on : c.tdOn = true
  · have kept := findHit_kept K good on
    rw [selectTdCapture_eq K on kept.pending] at held
    split at held
    · split at held
      · exact held
      · exact held
    · exact held
  · rw [Bool.not_eq_true] at on
    rw [selectTdCapture_off K _ on, (resetFor_off _ on).2] at held
    cases held

/-- **Records on hold stand for a stream position** after every run. -/
theorem suspect_run (cycles : List Cycle) (inside : ∀ c ∈ cycles, InWindow c) :
    ∀ p, (runTo K cycles).pendingConfirm = some p →
      ∃ P, Suspect K cycles p P ∧ p.absStart ≡ P [ZMOD iqBufferSize] := by
  induction cycles using List.reverseRecOn with
  | nil =>
    intro p held
    cases held
  | append_singleton cycles c ih =>
    have before := ih fun c' hc => inside c' (List.mem_append_left [c] hc)
    intro p held
    rw [runTo_snoc] at held
    have selected := selectTdCapture_confirm K (good_runTo K cycles) held
    have carry : (resetFor (runTo K cycles) c.call).pendingConfirm = some p →
        ∃ P, Suspect K (cycles ++ [c]) p P ∧ p.absStart ≡ P [ZMOD iqBufferSize] := by
      intro old
      obtain ⟨P, suspect, same⟩ := before p (resetFor_pendingConfirm old)
      exact ⟨P, suspect.later K c, same⟩
    rcases findHit_selects K (resetFor (runTo K cycles) c.call) c.call with selects | ⟨-, nothing⟩
    · rcases confirm_cases selects selected with old | ⟨a, mem, rfl⟩
      · exact carry old
      · obtain ⟨low, high⟩ := inside c (by simp) a mem
        refine ⟨c.windowStart + startSample a, ⟨cycles, c, [], startSample a, rfl, ?_, rfl, low, high⟩,
          absolute_modEq c _⟩
        exact ⟨(resetFor_nextRef _ _).ge, _, selected, rfl, rfl⟩
    · rw [nothing] at selected
      exact carry selected

/-! ## Settling a record -/

theorem confirmOutcome_decoded {s : String} {p : Hit} {c : Call} {a : Attempt}
    (h : confirmOutcome s p c = .decoded a) :
    a ∈ c.attempts ∧ isNear s (c.relative p.absStart) a = true := by
  unfold confirmOutcome at h
  simp only at h
  split at h
  · rename_i found
    cases h
    have near := List.find?_some found
    rw [decide_eq_true_eq] at near
    exact ⟨List.mem_of_find?_eq_some found, near.2⟩
  · split at h
    · cases h
    · split at h
      · split at h
        · split at h <;> cases h
        · cases h
      · split at h <;> cases h

/-- Whatever settles a record is near its projection. -/
theorem ResolvedBy.near {st : State} {c : Call} {a : Attempt} {p : Hit} (h : ResolvedBy st c a)
    (held : st.pendingConfirm = some p) :
    a ∈ c.attempts ∧ |startSample a - c.relative p.absStart| < matchTol := by
  obtain ⟨-, s, p', -, held', outcome⟩ := h
  have same := (resetFor_pendingConfirm held').symm.trans held
  cases same
  rcases outcome with decoded | promoted
  · obtain ⟨mem, near⟩ := confirmOutcome_decoded decoded
    exact ⟨mem, (isNear_iff.1 near).2⟩
  · obtain ⟨mem, near⟩ := confirmOutcome_promoted promoted
    exact ⟨mem, (isNear_iff.1 near.1).2⟩

/-- A decoded attempt of the target near the projection settles the record. -/
theorem resolvedBy_decoded {st : State} {c : Call} {a : Attempt} {s : String} {p : Hit}
    (on : c.tdOn = true) (mode : c.chipset = some s) (same : c.target = st.target)
    (held : st.pendingConfirm = some p) (only : c.attempts = [a]) (chipset : a.chipset = some s)
    (decoded : a.decoded = true) (near : |startSample a - c.relative p.absStart| < matchTol) :
    ResolvedBy st c a := by
  refine ⟨on, s, p, mode, ?_, .inl ?_⟩
  · simp [resetFor, on, same, held]
  · have isNear_a := isNear_iff.2 ⟨chipset, near⟩
    simp [confirmOutcome, only, decoded, isNear_a]

/-- A run that holds a record last asked for a chipset. -/
theorem last_chipset {cycles : List Cycle} {p : Hit}
    (held : (runTo K cycles).pendingConfirm = some p) :
    ∃ c s, c ∈ cycles ∧ c.call.chipset = some s ∧ (runTo K cycles).target = c.call.target := by
  have mode := ((good_runTo K cycles).confirmReason p held).1
  rcases List.eq_nil_or_concat cycles with rfl | ⟨before, c, rfl⟩
  · cases held
  · have target := ((good_runTo K before).step K c.call).2
    rw [List.concat_eq_append, runTo_snoc] at *
    rw [target] at mode
    refine ⟨c, ?_⟩
    cases chip : c.call.chipset with
    | some s => exact ⟨s, by simp, rfl, target⟩
    | none =>
      rw [Call.target, chip] at mode
      cases device : c.call.tdNtwId <;> simp [device, isChipset] at mode

/-- A position in front of a window whose projection modulo `n` is less than
`tol` from the window has a position of the window near the projection, and
that one is far from it. -/
theorem exists_near_projection (n width tol : Int) {x : Int} (wide : 0 < width) (pos : 0 < tol)
    (room : 2 * tol ≤ n) (past : x < 0) (projected : x % n < width + tol - 1) :
    ∃ start, 0 ≤ start ∧ start < width ∧ |start - x % n| < tol ∧ tol ≤ start - x := by
  have low := Int.emod_nonneg x (show n ≠ 0 by omega)
  have turns := Int.emod_add_mul_ediv x n
  have round : x / n ≤ -1 := by
    have := Int.ediv_neg_of_neg_of_pos past (show 0 < n by omega)
    omega
  have turn : n * (x / n) ≤ -n := by nlinarith
  refine ⟨min (x % n) (width - 1), by omega, by omega, ?_, by omega⟩
  rw [abs_lt]
  omega

def decodedAt (chipset : String) (start : Int) : Attempt where
  chipset := some chipset
  decoded := true
  startSample := some start

/-- A later cycle with the target of `c` and one decoded attempt. -/
def probe (c : Cycle) (windowStart : Int) (chipset : String) (start : Int) : Cycle where
  windowStart := windowStart
  now := c.now
  tdOn := true
  tdChipset := c.tdChipset
  tdNtwId := c.tdNtwId
  attempts := [decodedAt chipset start]
  packets := []

/-- **Only the same packet settles a record.** After any run, a record on hold
stands for the stream position `P` of the attempt it was made from. In a later
window that starts at `D`, whatever the decoder returns, only attempts within
the tolerance of `P` clear the record as decoded or promote it, if and only if
the window has not gone past `P`, or `P` is projected so far behind the window
that no attempt is near. -/
theorem confirm_same_packet_iff (cycles : List Cycle) (inside : ∀ c ∈ cycles, InWindow c) (p : Hit)
    (held : (runTo K cycles).pendingConfirm = some p) :
    ∃ P, Suspect K cycles p P ∧ ∀ D : Int, (∀ c ∈ cycles, c.windowStart ≤ D) →
      ((∀ next : Cycle, next.windowStart = D → InWindow next → ∀ a,
          ResolvedBy (runTo K cycles) next.call a → |D + startSample a - P| < matchTol) ↔
        D ≤ P ∨ decodeSamples + matchTol - 1 ≤ (P - D) % iqBufferSize) := by
  obtain ⟨P, suspect, same⟩ := suspect_run K cycles inside p held
  refine ⟨P, suspect, ?_⟩
  intro D forward
  have tol := matchTol_eq
  have window := decodeSamples_eq
  have buffer := iqBufferSize_eq
  constructor
  · intro only
    by_contra bad
    rw [not_or, not_le, not_le] at bad
    obtain ⟨past, projected⟩ := bad
    obtain ⟨c, s, -, mode, target⟩ := last_chipset K held
    -- a decoded packet at the projection, or at the end of the window next to it
    obtain ⟨start, low, high, near, far⟩ := exists_near_projection iqBufferSize decodeSamples
      matchTol (by omega) (by omega) (by omega) (by omega) projected
    have resolved : ResolvedBy (runTo K cycles) (probe c D s start).call (decodedAt s start) := by
      refine resolvedBy_decoded rfl mode target.symm held rfl rfl rfl ?_
      rw [relative_eq _ same]
      exact near
    have close := only (probe c D s start) rfl (by
      intro a mem
      rw [List.mem_singleton.1 mem]
      exact ⟨low, high⟩) _ resolved
    rw [abs_lt] at close
    have close' : D + start - P < matchTol := close.2
    omega
  · rintro cond next rfl inside' a resolved
    obtain ⟨mem, near⟩ := resolved.near held
    obtain ⟨low, high⟩ := inside' a mem
    rw [relative_eq next same, abs_lt] at near
    rcases cond with ahead | behind
    · obtain ⟨before, made, later, rel, rfl, -, rfl, -, lt⟩ := suspect
      have order := forward made (by simp)
      rw [Int.emod_eq_of_lt (by omega) (by omega)] at near
      rw [abs_lt]
      omega
    · omega

/-- A failure in the first half second of its window that the window cut off. -/
def cutOff : Cycle := chipsetCycle 0 100 [failedAt 300000 "pdu_incomplete"]

def cutOffHit : Hit := ⟨0, failedAt 300000 "pdu_incomplete", 300000, none, 100⟩

theorem inWindow_singleton {windowStart : Int} {now : ℚ} {a : Attempt} (low : 0 ≤ startSample a)
    (high : startSample a < 1171875) : InWindow (chipsetCycle windowStart now [a]) := by
  intro a' mem
  rw [List.mem_singleton.1 mem, decodeSamples_eq]
  exact ⟨low, high⟩

theorem confirm_same_packet_cutOff :
    ∃ P, Suspect exampleConstants [cutOff] cutOffHit P ∧ ∀ D : Int, (∀ c ∈ [cutOff], c.windowStart ≤ D) →
      ((∀ next : Cycle, next.windowStart = D → InWindow next → ∀ a,
          ResolvedBy (runTo exampleConstants [cutOff]) next.call a → |D + startSample a - P| < matchTol) ↔
        D ≤ P ∨ decodeSamples + matchTol - 1 ≤ (P - D) % iqBufferSize) := by
  refine confirm_same_packet_iff exampleConstants [cutOff] ?_ cutOffHit (by decide +kernel)
  intro c mem
  rw [List.mem_singleton.1 mem]
  exact inWindow_singleton (by decide) (by decide)

/-- A window that slides 1.1 s goes past the held position, which is then
projected two seconds later: the packet decoded there clears the record. -/
theorem settled_by_other_packet :
    InWindow cutOff ∧
      InWindow (chipsetCycle 859375 (100 + 11 / 10) [decodedAt "A" 1003125]) ∧
      decodeIntervalS * sampleRate ≤ 859375 ∧ 859375 ≤ decodeWindowS * sampleRate ∧
      (859375 : ℚ) = sampleRate * (11 / 10) ∧
      HeldAt exampleConstants [] cutOff 0 300000 ∧
      ResolvedBy (runTo exampleConstants [cutOff])
        (chipsetCycle 859375 (100 + 11 / 10) [decodedAt "A" 1003125]).call (decodedAt "A" 1003125) ∧
      matchTol ≤ |859375 + startSample (decodedAt "A" 1003125) - 300000| := by
  refine ⟨inWindow_singleton (by decide) (by decide), inWindow_singleton (by decide) (by decide), ?_, ?_,
    ?_, ⟨by decide, cutOffHit, by decide +kernel, rfl, rfl⟩, ?_, ?_⟩
  · norm_num [decodeIntervalS, sampleRate]
  · norm_num [decodeWindowS, sampleRate]
  · norm_num [sampleRate]
  · exact ⟨rfl, "A", cutOffHit, rfl, by decide +kernel, .inl (by decide +kernel)⟩
  · rw [matchTol_eq]
    decide

end StreamWeb.Td

import StreamWeb.Config
import StreamWeb.Lib.Machine

/-!
# Gain requests and the receive loop

`POST /api/gain` and `rx_loop` share the gain cell without a lock. Every read
and write of the cell and every call of `fg.set_gain` is one step: a request
reads the cell and later writes what it computed; an iteration of `rx_loop`,
in manual mode, reads the cell to compare it, reads it again to clamp it, sets
the gain, and writes the cell back. `target` is the gain the loop is heading
for when no request interferes; its steps keep it, and it is what the cell and
the hardware hold whenever an iteration ends.
-/

namespace StreamWeb

/-- `int(max(RX_GAIN_MIN_DB, min(RX_GAIN_MAX_DB, gain)))` -/
def clampGain (sdrType : String) (gain : ℚ) : ℤ :=
  Py.int (max (Config.rxGainMinDB : ℚ) (min (Config.rxGainMaxDB sdrType : ℚ) gain))

/-- Where `rx_loop` is in its treatment of the gain. -/
inductive GainPhase where
  /-- At the comparison with `cur_gain`. -/
  | compare
  /-- The cell differed; at the second read. -/
  | reread
  /-- At `fg.set_gain(new_gain)`. -/
  | setGain (newGain : ℤ)
  /-- At `state.rx_gain_dB = cur_gain`. -/
  | writeBack
  deriving DecidableEq

/-- The gain cell, the hardware, the locals of `rx_loop`, and what each request under way is about
to write. The cell is a double that only ever holds integers. -/
structure GainState where
  cell : ℤ := Config.rxInitialGainDB
  hardware : ℤ := Config.rxInitialGainDB
  curGain : ℤ := Config.rxInitialGainDB
  phase : GainPhase := .compare
  requests : List ℤ := []
  deriving DecidableEq

inductive GainStep where
  /-- `api_gain` reads the cell and computes the new gain. -/
  | read (direction : ℚ)
  /-- A request writes the cell and returns what it wrote. -/
  | write (request : ℕ)
  /-- The next step of `rx_loop`; `ok` tells whether `set_gain` succeeds, where that is the step. -/
  | loop (ok : Bool)
  deriving DecidableEq

namespace GainState

variable (sdrType : String)

/-- The next step of an iteration of `rx_loop`. -/
def loop (s : GainState) (ok : Bool) : GainState :=
  match s.phase with
  | .compare => if s.cell ≠ s.curGain then { s with phase := .reread } else s
  | .reread => { s with phase := .setGain (clampGain sdrType s.cell) }
  | .setGain newGain =>
    if ok then { s with hardware := newGain, curGain := newGain, phase := .writeBack }
    else { s with phase := .writeBack }
  | .writeBack => { s with cell := s.curGain, phase := .compare }

/-- One step, and the gain a request returns with it. -/
def step (s : GainState) : GainStep → GainState × Option ℤ
  | .read direction =>
    ({ s with requests := s.requests ++
        [clampGain sdrType (s.cell + direction * Config.rxGainStepDB)] }, none)
  | .write i =>
    match s.requests[i]? with
    | some newGain => ({ s with cell := newGain, requests := s.requests.eraseIdx i }, some newGain)
    | none => (s, none)
  | .loop ok => (s.loop sdrType ok, none)

/-- The state after a run. -/
def run (steps : List GainStep) : GainState := Machine.after (step sdrType) {} steps

/-- What `rx_loop` has read and not yet written back. -/
def held (s : GainState) : Option ℤ :=
  match s.phase with
  | .setGain newGain => some newGain
  | .writeBack => some s.curGain
  | .compare | .reread => none

/-- The gain the loop is heading for. -/
def target (s : GainState) : ℤ := s.held.getD s.cell

/-! ## The clamp -/

/-- A gain the clamp lets through. -/
def InRange (gain : ℤ) : Prop :=
  Config.rxGainMinDB ≤ gain ∧ gain ≤ Config.rxGainMaxDB sdrType

variable {sdrType}

theorem int_intCast (n : ℤ) : Py.int n = n := by
  simp [Py.int]

theorem clampGain_of_inRange {gain : ℤ} (h : InRange sdrType gain) :
    clampGain sdrType gain = gain := by
  have low : (Config.rxGainMinDB : ℚ) ≤ gain := by exact_mod_cast h.1
  have high : (gain : ℚ) ≤ Config.rxGainMaxDB sdrType := by exact_mod_cast h.2
  rw [clampGain, min_eq_right high, max_eq_right low, int_intCast]

theorem inRange_clampGain (gain : ℚ) : InRange sdrType (clampGain sdrType gain) := by
  have order : Config.rxGainMinDB ≤ Config.rxGainMaxDB sdrType := by
    unfold Config.rxGainMinDB Config.rxGainMaxDB
    split <;> omega
  have low : (Config.rxGainMinDB : ℚ)
      ≤ max (Config.rxGainMinDB : ℚ) (min (Config.rxGainMaxDB sdrType : ℚ) gain) := le_max_left _ _
  have high : max (Config.rxGainMinDB : ℚ) (min (Config.rxGainMaxDB sdrType : ℚ) gain)
      ≤ Config.rxGainMaxDB sdrType :=
    max_le (by exact_mod_cast order) (min_le_left _ _)
  have nonneg : (0 : ℚ)
      ≤ max (Config.rxGainMinDB : ℚ) (min (Config.rxGainMaxDB sdrType : ℚ) gain) := by
    simp [Config.rxGainMinDB]
  rw [clampGain, Py.int, if_pos nonneg]
  exact ⟨Int.le_floor.2 low, Int.cast_le.1 ((Int.floor_le _).trans high)⟩

/-! ## What is kept -/

/-- Every gain in sight is one the clamp lets through, and the loop knows the hardware's. -/
structure Sound (sdrType : String) (s : GainState) : Prop where
  hardware : s.hardware = s.curGain
  cell : InRange sdrType s.cell
  curGain : InRange sdrType s.curGain
  held : ∀ gain ∈ s.held, InRange sdrType gain
  requests : ∀ gain ∈ s.requests, InRange sdrType gain

theorem Sound.start : Sound sdrType {} := by
  have initial : InRange sdrType Config.rxInitialGainDB := by
    unfold InRange Config.rxInitialGainDB Config.rxGainMinDB Config.rxGainMaxDB
    split <;> omega
  exact ⟨rfl, initial, initial, by simp [GainState.held], by simp⟩

theorem Sound.loop {s : GainState} (h : Sound sdrType s) : Sound sdrType (s.loop sdrType true) := by
  obtain ⟨hardware, cell, curGain, held, requests⟩ := h
  unfold GainState.loop
  cases phase : s.phase with
  | compare =>
    by_cases differs : s.cell ≠ s.curGain
    · simp only [if_pos differs]
      exact ⟨hardware, cell, curGain, by simp [GainState.held], requests⟩
    · simp only [if_neg differs]
      exact ⟨hardware, cell, curGain, held, requests⟩
  | reread =>
    refine ⟨hardware, cell, curGain, ?_, requests⟩
    rintro gain ⟨⟩
    exact inRange_clampGain _
  | setGain newGain =>
    have range : InRange sdrType newGain := held newGain (by simp [GainState.held, phase])
    refine ⟨rfl, cell, range, ?_, requests⟩
    rintro gain ⟨⟩
    exact range
  | writeBack => exact ⟨hardware, curGain, curGain, by simp [GainState.held], requests⟩

/-- **Every step** in which `set_gain` does not fail. -/
theorem Sound.step {s : GainState} (h : Sound sdrType s) {e : GainStep} (ok : e ≠ .loop false) :
    Sound sdrType (s.step sdrType e).1 := by
  cases e with
  | read direction =>
    refine ⟨h.hardware, h.cell, h.curGain, h.held, ?_⟩
    intro gain member
    rcases List.mem_append.1 member with before | new
    · exact h.requests gain before
    · rw [List.mem_singleton.1 new]
      exact inRange_clampGain _
  | write i =>
    simp only [GainState.step]
    split
    next newGain request =>
      exact ⟨h.hardware, h.requests newGain (List.mem_of_getElem? request), h.curGain, h.held,
        fun gain member => h.requests gain (List.mem_of_mem_eraseIdx member)⟩
    next => exact h
  | loop success =>
    cases success with
    | true => exact h.loop
    | false => exact absurd rfl ok

theorem sound_run {steps : List GainStep} (ok : .loop false ∉ steps) :
    Sound sdrType (run sdrType steps) := by
  induction steps using List.reverseRecOn with
  | nil => exact .start
  | append_singleton steps e ih =>
    rw [List.mem_append, not_or, List.mem_singleton] at ok
    rw [run, Machine.after_snoc]
    exact (ih ok.1).step (Ne.symm ok.2)

/-! ## The loop alone -/

/-- The loop heads where it did, and once at the comparison it has arrived. -/
theorem loop_target {s : GainState} (h : Sound sdrType s) :
    (s.loop sdrType true).target = s.target
      ∧ ((s.loop sdrType true).phase = .compare →
        (s.loop sdrType true).cell = (s.loop sdrType true).curGain) := by
  unfold GainState.loop
  cases phase : s.phase with
  | compare =>
    by_cases differs : s.cell ≠ s.curGain
    · simp [differs, target, GainState.held, phase]
    · simp only [if_neg differs, true_and]
      exact fun _ => not_not.1 differs
  | reread => simp [target, GainState.held, phase, clampGain_of_inRange h.cell]
  | setGain newGain => simp [target, GainState.held, phase]
  | writeBack => simp [target, GainState.held, phase]

variable (sdrType) in
/-- The state after `n` more steps of the loop, none of which fails. -/
def loops (s : GainState) (n : ℕ) : GainState :=
  Machine.after (step sdrType) s (List.replicate n (.loop true))

theorem loops_succ (s : GainState) (n : ℕ) :
    loops sdrType s (n + 1) = (loops sdrType s n).loop sdrType true := by
  rw [loops, List.replicate_succ', Machine.after_snoc]
  rfl

theorem sound_loops {s : GainState} (h : Sound sdrType s) (n : ℕ) :
    Sound sdrType (loops sdrType s n) ∧ (loops sdrType s n).target = s.target := by
  induction n with
  | zero => exact ⟨h, rfl⟩
  | succ n ih =>
    rw [loops_succ]
    exact ⟨ih.1.loop, (loop_target ih.1).1.trans ih.2⟩

/-- The loop has nothing left to do. -/
structure Settled (gain : ℤ) (s : GainState) : Prop where
  phase : s.phase = .compare
  cell : s.cell = gain
  curGain : s.curGain = gain

theorem Settled.loop {gain : ℤ} {s : GainState} (h : Settled gain s) :
    s.loop sdrType true = s := by
  simp [GainState.loop, h.phase, h.cell, h.curGain]

/-- An iteration that ends has arrived. -/
theorem settled_of_compare {s : GainState} (h : Sound sdrType s) {n : ℕ}
    (done : (loops sdrType s (n + 1)).phase = .compare) :
    Settled s.target (loops sdrType s (n + 1)) := by
  obtain ⟨sound, heading⟩ := sound_loops h n
  obtain ⟨same, arrived⟩ := loop_target sound
  rw [loops_succ] at done ⊢
  have cell : ((loops sdrType s n).loop sdrType true).cell = s.target := by
    rw [← heading, ← same, target, held, done, Option.getD_none]
  exact ⟨done, cell, (arrived done).symm.trans cell⟩

theorem settled_later {gain : ℤ} {s : GainState} {m n : ℕ} (later : m ≤ n)
    (settled : Settled gain (loops sdrType s m)) : Settled gain (loops sdrType s n) := by
  induction n, later using Nat.le_induction with
  | base => exact settled
  | succ n _ ih => rwa [loops_succ, ih.loop]

variable (sdrType) in
/-- Within `n` steps of the loop one full iteration is completed. -/
def FullIteration (s : GainState) (n : ℕ) : Prop :=
  ∃ k m, k < m ∧ m ≤ n ∧ (loops sdrType s k).phase = .compare
    ∧ (loops sdrType s m).phase = .compare

/-- After a full iteration the cell and the hardware hold what the loop was heading for. -/
theorem settled_of_fullIteration {s : GainState} (h : Sound sdrType s) {n : ℕ}
    (full : FullIteration sdrType s n) : Settled s.target (loops sdrType s n) := by
  obtain ⟨k, m, after, within, -, done⟩ := full
  obtain ⟨m, rfl⟩ := Nat.exists_eq_add_of_lt after
  exact settled_later within (settled_of_compare h done)

/-- A request's write changes the cell and nothing of the loop. -/
theorem write_target {s : GainState} {i : ℕ} {gain : ℤ}
    (returned : (s.step sdrType (.write i)).2 = some gain) :
    (s.step sdrType (.write i)).1.target = s.held.getD gain := by
  simp only [step] at returned ⊢
  split at returned
  next newGain request =>
    cases returned
    rfl
  next => cases returned

end GainState

open GainState in
/-- **When a gain request is kept.** Take any run in which `set_gain` does not fail, a last write by
a request, and a full iteration of `rx_loop` after it. The hardware and the cell then hold what that
request returned exactly when at its write `rx_loop` was not between its second read and its
write-back with another gain. -/
theorem gain_kept_iff (sdrType : String) (before : List GainStep) (ok : .loop false ∉ before)
    (i : ℕ) (gain : ℤ) (returned : ((run sdrType before).step sdrType (.write i)).2 = some gain)
    (n : ℕ) (full : FullIteration sdrType (run sdrType (before ++ [.write i])) n) :
    ((run sdrType (before ++ [.write i] ++ List.replicate n (.loop true))).hardware = gain
        ∧ (run sdrType (before ++ [.write i] ++ List.replicate n (.loop true))).cell = gain)
      ↔ ∀ other ∈ (run sdrType before).held, other = gain := by
  have written : Sound sdrType (run sdrType (before ++ [.write i])) :=
    sound_run (by simpa using ok)
  have heading : (run sdrType (before ++ [.write i])).target
      = (run sdrType before).held.getD gain := by
    rw [run, Machine.after_snoc]
    exact write_target returned
  have after : run sdrType (before ++ [.write i] ++ List.replicate n (.loop true))
      = loops sdrType (run sdrType (before ++ [.write i])) n := by
    rw [run, Machine.after, List.foldl_append]
    rfl
  have settled := settled_of_fullIteration written full
  have hardware := (sound_loops written n).1.hardware
  rw [after, hardware, settled.curGain, settled.cell, heading, and_self]
  cases (run sdrType before).held <;> simp

/-- A request for one step up, and one more that reads the new gain and writes its own between the
second read of `rx_loop` and its call of `set_gain`. -/
def overtaken : List GainStep :=
  [.read 1, .write 0, .loop true, .loop true, .read 1]

/-- The second request returns 24 dB and both the cell and the hardware end at 22 dB. -/
theorem gain_request_lost :
    ((GainState.run "pluto" overtaken).step "pluto" (.write 0)).2 = some 24
      ∧ (GainState.run "pluto" (overtaken ++ [.write 0])).requests = []
      ∧ GainState.FullIteration "pluto" (GainState.run "pluto" (overtaken ++ [.write 0])) 3
      ∧ (GainState.run "pluto"
          (overtaken ++ [.write 0] ++ List.replicate 3 (.loop true))).hardware = 22
      ∧ (GainState.run "pluto"
          (overtaken ++ [.write 0] ++ List.replicate 3 (.loop true))).cell = 22 :=
  ⟨by decide +kernel, by decide +kernel,
    ⟨2, 3, by decide, by decide, by decide +kernel, by decide +kernel⟩,
    by decide +kernel, by decide +kernel⟩

/-- A lone request. -/
theorem gain_kept_iff_alone :
    (GainState.run "pluto" ([.read 1] ++ [.write 0] ++ List.replicate 4 (.loop true))).hardware = 22
      ∧ (GainState.run "pluto" ([.read 1] ++ [.write 0] ++ List.replicate 4 (.loop true))).cell = 22 :=
  (gain_kept_iff "pluto" [.read 1] (by decide) 0 22 (by decide +kernel) 4
    ⟨0, 4, by decide, by decide, by decide +kernel, by decide +kernel⟩).2 (by decide +kernel)

end StreamWeb

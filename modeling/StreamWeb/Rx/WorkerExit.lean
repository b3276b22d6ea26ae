import Mathlib.Data.List.Nodup
import StreamWeb.Rx.Restart

/-!
# No worker is left behind

`_exit_for_restart` waits for the workers it finds listed and terminates those
that stay. The watchdog may be about to list another one. What can be alive
then is bounded by what the RX thread has yet to see to, `attended`, and the one
process that the watchdog holds in its hands or has stored too late.
-/

namespace StreamWeb.RestartState

open Restart

/-- The processes the RX thread has yet to see to, with these workers listed. -/
def attendedIn (workers : List (String × ℕ)) : RxPhase → List ℕ
  | .joining _ _ workers => workers
  | .terminating todo => todo
  | .exited => []
  | _ => workers.map (·.2)

/-- The processes the RX thread has yet to see to. -/
def attended (s : RestartState) : List ℕ := attendedIn s.workers s.rx

/-- `_exit_for_restart` has listed the workers. -/
def Listed : RxPhase → Prop
  | .joining _ _ _ | .terminating _ | .exited => True
  | _ => False

/-- `_exit_for_restart` has cleared `running`. -/
def Cleared : RxPhase → Prop
  | .listing | .joining _ _ _ | .terminating _ | .exited => True
  | _ => False

/-- The watchdog has found `running` set and not yet stored the process it starts. -/
def MidSpawn : DogPhase → Prop
  | .spawning _ _ | .storing _ _ _ => True
  | _ => False

instance : DecidablePred MidSpawn
  | .spawning _ _ | .storing _ _ _ => .isTrue trivial
  | .loop | .looking _ | .looked _ _ _ | .ended => .isFalse id

/-- The workers the watchdog has yet to look at in this pass are still those listed. -/
structure Pending (s : RestartState) (todo : List (String × ℕ)) : Prop where
  workers : ∀ w ∈ todo, w ∈ s.workers
  nodup : (todo.map (·.1)).Nodup

/-- A worker listed under a name that does not come up again, and is dead. -/
structure Replaceable (s : RestartState) (name : String) (todo : List (String × ℕ)) : Prop where
  pending : Pending s todo
  once : ∀ w ∈ todo, w.1 ≠ name
  present : ∃ p, (name, p) ∈ s.workers
  dead : ∀ p, (name, p) ∈ s.workers → s.procs p = .dead

/-- What the watchdog knows. -/
def DogSound (s : RestartState) : DogPhase → Prop
  | .loop | .ended => True
  | .looking todo => Pending s todo
  | .looked name isAlive todo => Pending s todo ∧ (isAlive = false → Replaceable s name todo)
  | .spawning name todo => Replaceable s name todo
  | .storing name newProc todo => Replaceable s name todo ∧ newProc < s.started

/-- The process that may have been started too late to be seen to. -/
def LateSound (rx : RxPhase) (late : Option ℕ) : DogPhase → Prop
  | .spawning _ _ => late = none
  | .storing _ newProc _ => ∀ p, late = some p → p = newProc
  | _ => Listed rx ∨ late = none

/-- The books the parties keep. -/
structure Sound (s : RestartState) : Prop where
  keyed : (s.workers.map (·.1)).Nodup
  known : ∀ w ∈ s.workers, w.2 < s.started
  fresh : ∀ p, s.started ≤ p → s.procs p = .dead
  dog : DogSound s s.dog
  cleared : Cleared s.rx → s.running = false
  late : ∃ late, (∀ p, s.procs p = .alive → p ∈ s.attended ∨ late = some p) ∧
    LateSound s.rx late s.dog

variable {s s' : RestartState} {now : ℚ} {ok : Bool}

theorem Listed.cleared {phase : RxPhase} (h : Listed phase) : Cleared phase := by
  cases phase <;> first | exact h | cases h

theorem attendedIn_of_listed {phase : RxPhase} (h : Listed phase) (workers workers' : List (String × ℕ)) :
    attendedIn workers phase = attendedIn workers' phase := by
  cases phase <;> first | rfl | cases h

theorem attendedIn_of_not_listed {phase : RxPhase} (h : ¬Listed phase)
    (workers : List (String × ℕ)) : attendedIn workers phase = workers.map (·.2) := by
  cases phase <;> first | rfl | exact absurd trivial h

/-- Nothing has happened but that processes have come nearer to their end. -/
structure Quieter (s s' : RestartState) : Prop where
  workers : s'.workers = s.workers
  started : s'.started = s.started
  dog : s'.dog = s.dog
  dead : ∀ p, s.procs p = .dead → s'.procs p = .dead
  alive : ∀ p, s'.procs p = .alive → s.procs p = .alive
  running : s.running = false → s'.running = false

theorem Quieter.of_eq (workers : s'.workers = s.workers) (started : s'.started = s.started)
    (dog : s'.dog = s.dog) (procs : s'.procs = s.procs)
    (running : s.running = false → s'.running = false) : Quieter s s' :=
  ⟨workers, started, dog, fun _ h => by rwa [procs], fun _ h => by rwa [← procs], running⟩

/-- A process is ended, or told to end. -/
theorem Quieter.setProc {p : ℕ} {status : ProcStatus} (down : status ≠ .alive)
    (kept : s.procs p = .dead → status = .dead) : Quieter s (s.setProc p status) where
  workers := rfl
  started := rfl
  dog := rfl
  dead q h := by
    by_cases same : q = p
    · subst same
      simpa [RestartState.setProc] using kept h
    · simpa [RestartState.setProc, same] using h
  alive q h := by
    by_cases same : q = p
    · subst same
      exact absurd (by simpa [RestartState.setProc] using h) down
    · simpa [RestartState.setProc, same] using h
  running h := h

theorem Pending.same {todo : List (String × ℕ)} (h : Pending s todo) (workers : s'.workers = s.workers) :
    Pending s' todo :=
  ⟨by rw [workers]; exact h.workers, h.nodup⟩

theorem Quieter.replaceable (q : Quieter s s') {name : String} {todo : List (String × ℕ)}
    (h : Replaceable s name todo) : Replaceable s' name todo where
  pending := h.pending.same q.workers
  once := h.once
  present := by rw [q.workers]; exact h.present
  dead p mem := q.dead p (h.dead p (q.workers ▸ mem))

theorem Quieter.dogSound (q : Quieter s s') {phase : DogPhase} (h : DogSound s phase) :
    DogSound s' phase := by
  cases phase with
  | loop | ended => trivial
  | looking todo => exact Pending.same h q.workers
  | looked name isAlive todo => exact ⟨h.1.same q.workers, fun dead => q.replaceable (h.2 dead)⟩
  | spawning name todo => exact q.replaceable h
  | storing name newProc todo => exact ⟨q.replaceable h.1, q.started ▸ h.2⟩

/-! ## The RX thread -/

theorem quieter_rxStep (s : RestartState) (now : ℚ) (ok : Bool) : Quieter s (s.rxStep now ok).1 := by
  have steps := rxStep_steps s now ok
  generalize s.rx = phase, s.rxStep now ok = r at steps ⊢
  cases steps with
  | @terminates p todo present =>
    have q : Quieter s (s.setProc p .terminated) :=
      .setProc (by simp) fun dead => absurd dead present
    exact ⟨q.workers, q.started, q.dog, q.dead, q.alive, q.running⟩
  | leaves => exact .of_eq rfl rfl rfl rfl fun _ => rfl
  | _ => exact .of_eq rfl rfl rfl rfl id

/-- It sees to every process it drops from its list. -/
theorem attended_rxStep {p : ℕ} (alive : (s.rxStep now ok).1.procs p = .alive)
    (mem : p ∈ s.attended) : p ∈ (s.rxStep now ok).1.attended := by
  have steps := rxStep_steps s now ok
  unfold attended at mem
  generalize here : s.rx = phase at steps mem
  generalize s.rxStep now ok = r at steps alive ⊢
  cases steps with
  | isDead dead =>
    rcases List.mem_cons.1 mem with rfl | later
    · rw [dead] at alive
      cases alive
    · exact later
  | terminates present =>
    rcases List.mem_cons.1 mem with rfl | later
    · simp [setProc] at alive
    · exact later
  | waits early => simpa [attended, here] using mem
  | exited => cases mem
  | returned => simpa [attended, here] using mem
  | _ => exact mem

theorem listed_rxStep (h : Listed s.rx) : Listed (s.rxStep now ok).1.rx := by
  have steps := rxStep_steps s now ok
  generalize here : s.rx = phase at steps h
  generalize s.rxStep now ok = r at steps ⊢
  cases steps with
  | waits early => simp [here, Listed]
  | exited => simp [here, Listed]
  | joins due | joined | isDead dead | terminates present | exits => trivial
  | _ => cases h

theorem cleared_rxStep (h : Cleared s.rx → s.running = false)
    (cleared : Cleared (s.rxStep now ok).1.rx) : (s.rxStep now ok).1.running = false := by
  have steps := rxStep_steps s now ok
  generalize here : s.rx = phase at steps h
  generalize s.rxStep now ok = r at steps cleared ⊢
  cases steps with
  | leaves => rfl
  | lists | joins due | joined | isDead dead | terminates present | exits => exact h trivial
  | waits early => exact h trivial
  | exited => exact h trivial
  | returned =>
    rw [here] at cleared
    cases cleared
  | _ => cases cleared

theorem LateSound.listed {rx rx' : RxPhase} {late : Option ℕ} {dog : DogPhase}
    (h : LateSound rx late dog) (later : Listed rx → Listed rx') : LateSound rx' late dog := by
  cases dog with
  | spawning name todo => exact h
  | storing name newProc todo => exact h
  | _ => exact h.imp_left later

theorem Sound.quieter (h : Sound s) (q : Quieter s s')
    (attended : ∀ p, s'.procs p = .alive → p ∈ s.attended → p ∈ s'.attended)
    (listed : Listed s.rx → Listed s'.rx) (cleared : Cleared s'.rx → s'.running = false) :
    Sound s' where
  keyed := by rw [q.workers]; exact h.keyed
  known := by rw [q.workers, q.started]; exact h.known
  fresh p new := q.dead p (h.fresh p (q.started ▸ new))
  dog := by rw [q.dog]; exact q.dogSound h.dog
  cleared := cleared
  late := by
    obtain ⟨late, seen, lateSound⟩ := h.late
    refine ⟨late, ?_, by rw [q.dog]; exact lateSound.listed listed⟩
    intro p alive
    exact (seen p (q.alive p alive)).imp_left (attended p alive)

theorem Sound.rxStep (h : Sound s) : Sound (s.rxStep now ok).1 :=
  h.quieter (quieter_rxStep s now ok) (fun _ => attended_rxStep) listed_rxStep
    (cleared_rxStep h.cleared)

/-! ## The watchdog -/

theorem mem_setWorker {name : String} {newProc : ℕ} {w : String × ℕ} :
    w ∈ (s.setWorker name newProc).workers ↔
      (w ∈ s.workers ∧ w.1 ≠ name) ∨ (w = (name, newProc) ∧ ∃ p, (name, p) ∈ s.workers) := by
  simp only [setWorker, List.mem_map]
  constructor
  · rintro ⟨v, mem, rfl⟩
    split
    next same => exact .inr ⟨rfl, v.2, same ▸ mem⟩
    next other => exact .inl ⟨mem, other⟩
  · rintro (⟨mem, other⟩ | ⟨rfl, p, mem⟩)
    · exact ⟨w, mem, if_neg other⟩
    · exact ⟨(name, p), mem, if_pos rfl⟩

theorem keys_setWorker (name : String) (newProc : ℕ) :
    (s.setWorker name newProc).workers.map (·.1) = s.workers.map (·.1) := by
  rw [setWorker, List.map_map]
  apply List.map_congr_left
  intro w mem
  by_cases same : w.1 = name <;> simp [same]

/-- A worker found dead is replaceable. -/
theorem Sound.replaceable (h : Sound s) {name : String} {p : ℕ} {todo : List (String × ℕ)}
    (pending : Pending s ((name, p) :: todo)) (dead : s.procs p = .dead) :
    Replaceable s name todo := by
  have mem : (name, p) ∈ s.workers := pending.workers _ List.mem_cons_self
  have nodup := pending.nodup
  rw [List.map_cons, List.nodup_cons] at nodup
  refine ⟨⟨fun w later => pending.workers w (List.mem_cons_of_mem _ later), nodup.2⟩, ?_, ⟨p, mem⟩, ?_⟩
  · rintro w later rfl
    exact nodup.1 (List.mem_map.2 ⟨w, later, rfl⟩)
  · intro q listed
    have same : (name, q) = (name, p) :=
      List.inj_on_of_nodup_map h.keyed listed mem rfl
    rw [(Prod.mk.inj same).2]
    exact dead

/-- The new process is alive, and none that is listed. -/
theorem Sound.spawn (h : Sound s) {name : String} {todo : List (String × ℕ)}
    (here : s.dog = .spawning name todo) :
    Sound { s.setProc s.started .alive with
      started := s.started + 1, dog := .storing name s.started todo } := by
  have replaceable : DogSound s (.spawning name todo) := here ▸ h.dog
  change Replaceable s name todo at replaceable
  have other : ∀ w ∈ s.workers, w.2 ≠ s.started := fun w mem => (h.known w mem).ne
  obtain ⟨late, seen, none_late⟩ := h.late
  rw [here] at none_late
  obtain rfl : late = none := none_late
  refine ⟨h.keyed, fun w mem => Nat.lt_succ_of_lt (h.known w mem), ?_, ⟨⟨?_, ?_, ?_, ?_⟩, ?_⟩,
    h.cleared, some s.started, ?_, ?_⟩
  · intro p new
    have ne : p ≠ s.started := by
      rintro rfl
      exact absurd new (Nat.not_succ_le_self _)
    simpa [setProc, ne] using h.fresh p (Nat.le_of_succ_le new)
  · exact replaceable.pending.same rfl
  · exact replaceable.once
  · exact replaceable.present
  · intro p mem
    have ne : p ≠ s.started := other _ mem
    simpa [setProc, ne] using replaceable.dead p mem
  · exact Nat.lt_succ_self _
  · intro p alive
    by_cases new : p = s.started
    · exact .inr (by rw [new])
    · have before : s.procs p = .alive := by simpa [setProc, new] using alive
      rcases seen p before with mem | no
      · exact .inl mem
      · cases no
  · rintro p ⟨⟩
    rfl

/-- The new process takes the place of one that is dead. -/
theorem Sound.store (h : Sound s) {name : String} {newProc : ℕ} {todo : List (String × ℕ)}
    (here : s.dog = .storing name newProc todo) :
    Sound { s.setWorker name newProc with dog := .looking todo } := by
  have sound : DogSound s (.storing name newProc todo) := here ▸ h.dog
  obtain ⟨replaceable, known⟩ := sound
  refine ⟨?_, ?_, h.fresh, ⟨?_, replaceable.pending.nodup⟩, h.cleared, ?_⟩
  · exact (keys_setWorker name newProc).symm ▸ h.keyed
  · intro w mem
    rcases mem_setWorker.1 mem with ⟨old, -⟩ | ⟨rfl, -⟩
    · exact h.known w old
    · exact known
  · intro w later
    exact mem_setWorker.2 (.inl ⟨replaceable.pending.workers w later, replaceable.once w later⟩)
  · obtain ⟨late, seen, new_late⟩ := h.late
    rw [here] at new_late
    by_cases listed : Listed s.rx
    · -- The RX thread goes by its own list, and misses the process if it is not on it.
      refine ⟨late, ?_, .inl listed⟩
      intro p alive
      refine (seen p alive).imp_left fun mem => ?_
      change p ∈ attendedIn (s.setWorker name newProc).workers s.rx
      rw [attendedIn_of_listed listed _ s.workers]
      exact mem
    · refine ⟨none, ?_, .inr rfl⟩
      rintro p (alive : s.procs p = .alive)
      left
      change p ∈ attendedIn (s.setWorker name newProc).workers s.rx
      rw [attendedIn_of_not_listed listed]
      rcases seen p alive with mem | missed
      · rw [attended, attendedIn_of_not_listed listed] at mem
        obtain ⟨w, old, rfl⟩ := List.mem_map.1 mem
        have other : w.1 ≠ name := by
          rintro rfl
          rw [replaceable.dead w.2 old] at alive
          cases alive
        exact List.mem_map.2 ⟨w, mem_setWorker.2 (.inl ⟨old, other⟩), rfl⟩
      · rw [new_late p missed]
        exact List.mem_map.2 ⟨_, mem_setWorker.2 (.inr ⟨rfl, replaceable.present⟩), rfl⟩

theorem Sound.dogStep (h : Sound s) : Sound (s.dogStep now) := by
  have steps := dogStep_steps s now
  generalize here : s.dog = phase, s.dogStep now = s' at steps ⊢
  obtain ⟨late, seen, lateSound⟩ := h.late
  have sound := h.dog
  rw [here] at sound lateSound
  cases steps with
  | nothing => exact h
  | looks =>
    exact ⟨h.keyed, h.known, h.fresh, ⟨fun _ => id, h.keyed⟩, h.cleared, late, seen, lateSound⟩
  | ends => exact ⟨h.keyed, h.known, h.fresh, trivial, h.cleared, late, seen, lateSound⟩
  | sleeps => exact ⟨h.keyed, h.known, h.fresh, trivial, h.cleared, late, seen, lateSound⟩
  | @isAlive name p todo =>
    refine ⟨h.keyed, h.known, h.fresh, ⟨?_, ?_⟩, h.cleared, late, seen, lateSound⟩
    · exact ⟨fun w later => sound.workers w (List.mem_cons_of_mem _ later), (List.nodup_cons.1 sound.nodup).2⟩
    · intro dead
      have replaceable := h.replaceable sound (by simpa using dead)
      exact ⟨replaceable.pending.same rfl, replaceable.once, replaceable.present, replaceable.dead⟩
  | skips watchdog =>
    exact ⟨h.keyed, h.known, h.fresh, sound.1.same rfl, h.cleared, late, seen, lateSound⟩
  | restarts on watchdog =>
    have replaceable := sound.2 rfl
    have not_late : late = none := by
      rcases lateSound with listed | none_late
      · rw [h.cleared listed.cleared] at on
        cases on
      · exact none_late
    exact ⟨h.keyed, h.known, h.fresh,
      ⟨replaceable.pending.same rfl, replaceable.once, replaceable.present, replaceable.dead⟩,
      h.cleared, late, seen, not_late⟩
  | spawns => exact h.spawn here
  | stores => exact h.store here

/-! ## Runs -/

/-- The steps in which processes end, samples arrive or `running` is cleared. -/
theorem quieter_step {e : RestartStep} (other : ∀ now ok, e ≠ .rx now ok)
    (other' : ∀ now, e ≠ .dog now) : Quieter s (s.step e).1 := by
  cases e with
  | rx now ok => exact absurd rfl (other now ok)
  | dog now => exact absurd rfl (other' now)
  | work now =>
    simp only [step]
    split <;> exact .of_eq rfl rfl rfl rfl id
  | look p =>
    simp only [step]
    split
    next => exact .setProc (by simp) fun _ => rfl
    next => exact .of_eq rfl rfl rfl rfl id
  | dies p => exact .setProc (by simp) fun _ => rfl
  | stop => exact .of_eq rfl rfl rfl rfl fun _ => rfl

/-- **Every step** keeps the books. -/
theorem Sound.step (h : Sound s) (e : RestartStep) : Sound (s.step e).1 := by
  by_cases rx : ∃ now ok, e = .rx now ok
  · obtain ⟨now, ok, rfl⟩ := rx
    exact h.rxStep
  by_cases dog : ∃ now, e = .dog now
  · obtain ⟨now, rfl⟩ := dog
    exact h.dogStep
  have other : ∀ now ok, e ≠ .rx now ok := fun now ok eq => rx ⟨now, ok, eq⟩
  have other' : ∀ now, e ≠ .dog now := fun now eq => dog ⟨now, eq⟩
  have q : Quieter s (s.step e).1 := quieter_step other other'
  have same : SameRx s (s.step e).1 := (sameRx_step other).1
  apply h.quieter q
  · intro p alive mem
    rwa [attended, q.workers, same.rx]
  · rw [same.rx]
    exact id
  · rw [same.rx]
    exact fun cleared => q.running (h.cleared cleared)

theorem Sound.initial {names : List String} (nodup : names.Nodup) : Sound (initial names) where
  keyed := by simpa [RestartState.initial] using nodup
  known w mem := by
    show w.2 < names.length
    simpa using List.snd_lt_of_mem_zipIdx (show w ∈ names.zipIdx from mem)
  fresh p new := if_neg (Nat.not_lt.2 new)
  dog := trivial
  cleared cleared := by cases cleared
  late := by
    refine ⟨none, ?_, .inr rfl⟩
    intro p alive
    have listed : p < names.length := by
      by_contra absent
      simp [RestartState.initial, absent] at alive
    left
    exact List.mem_map.2 ⟨(names[p], p), List.mem_zipIdx_iff_getElem?.2 (by simp [listed]), rfl⟩

theorem sound_run {names : List String} (nodup : names.Nodup) (steps : List RestartStep) :
    Sound (run names steps) :=
  Machine.after_rule step (P := fun _ => Sound) (Sound.initial nodup) (fun _ e h => h.step e) steps

/-- `running` is cleared, no process is being started, and all that are alive are seen to. -/
structure Calm (s : RestartState) : Prop where
  running : s.running = false
  dog : ¬MidSpawn s.dog
  seen : ∀ p, s.procs p = .alive → p ∈ s.attended

theorem Calm.step (h : Calm s) (e : RestartStep) : Calm (s.step e).1 := by
  by_cases rx : ∃ now ok, e = .rx now ok
  · obtain ⟨now, ok, rfl⟩ := rx
    have q := quieter_rxStep s now ok
    exact ⟨q.running h.running, by rw [RestartState.step, q.dog]; exact h.dog,
      fun p alive => attended_rxStep alive (h.seen p (q.alive p alive))⟩
  by_cases dog : ∃ now, e = .dog now
  · obtain ⟨now, rfl⟩ := dog
    have steps := dogStep_steps s now
    have quiet := h.dog
    simp only [RestartState.step]
    generalize s.dog = phase, s.dogStep now = s' at steps quiet ⊢
    cases steps with
    | nothing => exact h
    | restarts on watchdog =>
      rw [h.running] at on
      cases on
    | spawns => exact absurd trivial quiet
    | stores => exact absurd trivial quiet
    | looks => exact ⟨h.running, id, h.seen⟩
    | ends => exact ⟨h.running, id, h.seen⟩
    | sleeps => exact ⟨h.running, id, h.seen⟩
    | isAlive => exact ⟨h.running, id, h.seen⟩
    | skips watchdog => exact ⟨h.running, id, h.seen⟩
  have other : ∀ now ok, e ≠ .rx now ok := fun now ok eq => rx ⟨now, ok, eq⟩
  have other' : ∀ now, e ≠ .dog now := fun now eq => dog ⟨now, eq⟩
  have q : Quieter s (s.step e).1 := quieter_step other other'
  have same : SameRx s (s.step e).1 := (sameRx_step other).1
  refine ⟨q.running h.running, q.dog ▸ h.dog, ?_⟩
  intro p alive
  rw [attended, q.workers, same.rx]
  exact h.seen p (q.alive p alive)

/-- **No worker is left behind but the one being re-spawned.** In every run of the RX thread, the
watchdog and the workers that ends behind `os._exit`: at most one process has neither ended nor been
terminated. If the watchdog was not starting one when the RX thread cleared `running`, none has. -/
theorem exit_leaves_no_worker (names : List String) (nodup : names.Nodup)
    (steps : List RestartStep) (exited : (run names steps).rx = .exited) :
    (∀ p q, (run names steps).procs p = .alive → (run names steps).procs q = .alive → p = q) ∧
    ∀ before now ok after, steps = before ++ .rx now ok :: after →
      (run names before).rx = .leaving → ¬MidSpawn (run names before).dog →
      ∀ p, (run names steps).procs p ≠ .alive := by
  have nothing : (run names steps).attended = [] := by rw [attended, exited, attendedIn]
  constructor
  · obtain ⟨late, seen, -⟩ := (sound_run nodup steps).late
    rw [nothing] at seen
    intro p q alive alive'
    have first : late = some p := by simpa using seen p alive
    have second : late = some q := by simpa using seen q alive'
    exact Option.some.inj (first.symm.trans second)
  · rintro before now ok after rfl leaving quiet p alive
    have books := sound_run nodup before
    have calm : Calm ((run names before).step (.rx now ok)).1 := by
      obtain ⟨late, seen, lateSound⟩ := books.late
      have not_late : late = none := by
        revert quiet lateSound
        rw [leaving]
        cases (run names before).dog <;> simp [MidSpawn, LateSound, Listed]
      subst not_late
      have q := quieter_rxStep (run names before) now ok
      have steps := rxStep_steps (run names before) now ok
      refine ⟨?_, by rw [RestartState.step, q.dog]; exact quiet, ?_⟩
      · rw [leaving] at steps
        simp only [RestartState.step]
        generalize (run names before).rxStep now ok = r at steps ⊢
        cases steps
        rfl
      · intro p alive
        have mem : p ∈ (run names before).attended := by simpa using seen p (q.alive p alive)
        exact attended_rxStep alive mem
    have still : Calm (run names (before ++ .rx now ok :: after)) := by
      have split : run names (before ++ .rx now ok :: after) =
          Machine.after step ((run names before).step (.rx now ok)).1 after := by
        rw [run, Machine.after, List.foldl_append]
        rfl
      rw [split]
      exact Machine.after_rule step (P := fun _ => Calm) calm (fun _ e h => h.step e) after
    have listed := still.seen p alive
    rw [nothing] at listed
    cases listed

/-- The SDR is opened and then falls silent. -/
def fallsSilent : List RestartStep :=
  [.rx 0 true, .rx 0 true, .rx 0 true, .work 1, .rx 1 true, .rx 7 true, .rx 7 true, .rx 7 true]

/-- A worker dies, and the watchdog is at its spawn when `running` is cleared. The worker that stays
is terminated, and the new one is listed too late. -/
def caughtSpawning : List RestartStep :=
  .dies 0 :: fallsSilent ++ [.dog 7, .dog 7, .dog 7, .rx 7 true, .dog 7, .rx 7 true, .dog 7] ++
    List.replicate 6 (.rx 10 true)

example : (run ["processor", "td_renderer"] caughtSpawning).rx = .exited ∧
    (run ["processor", "td_renderer"] caughtSpawning).procs 1 = .terminated ∧
    (run ["processor", "td_renderer"] caughtSpawning).procs 2 = .alive := by decide +kernel

/-- One worker leaves by itself, and one is stuck. -/
theorem exit_leaves_no_worker_stuck :
    (run ["processor", "td_renderer"] (fallsSilent ++ .rx 7 true ::
      (.look 0 :: .rx 7 true :: List.replicate 6 (.rx 10 true)))).procs 1 ≠ .alive :=
  (exit_leaves_no_worker ["processor", "td_renderer"] (by decide) _ (by decide +kernel)).2
    fallsSilent 7 true _ rfl (by decide +kernel) (by decide +kernel) 1

/-! ## Leaving in time -/

/-- How many more steps of its own the RX thread takes, with so many workers, once no samples come and
every wait is over. -/
def rank (n : ℕ) : RxPhase → ℕ
  | .streaming => 2 * n + 8
  | .checking => 2 * n + 7
  | .clearing _ => 2 * n + 6
  | .stopping _ => 2 * n + 5
  | .leaving => 2 * n + 4
  | .listing => 2 * n + 3
  | .joining _ todo workers => todo.length + workers.length + 2
  | .terminating todo => todo.length + 1
  | .exited | .returned => 0
  | _ => 2 * n + 9

/-- The SDR was opened, and `running` is cleared by `_exit_for_restart` alone. -/
structure OnWay (s : RestartState) : Prop where
  opened : rank s.workers.length s.rx ≤ 2 * s.workers.length + 8
  running : ¬Cleared s.rx → s.running = true
  lost : s.rx ≠ .clearing false ∧ s.rx ≠ .stopping false ∧ s.rx ≠ .returned

/-- The RX thread waits for a worker to end. -/
def Waits (s : RestartState) (now : ℚ) : Prop :=
  ∃ deadline todo workers, s.rx = .joining deadline todo workers ∧ now < deadline

theorem rank_eq_zero {n : ℕ} {phase : RxPhase} (h : rank n phase = 0) :
    phase = .exited ∨ phase = .returned := by
  cases phase <;> simp [rank] at h ⊢

theorem rank_rxStep (way : OnWay s)
    (stale : s.rx = .checking → staleTimeoutS < now - s.lastWorkTime) :
    OnWay (s.rxStep now ok).1 ∧
      (rank s.workers.length (s.rxStep now ok).1.rx + 1 ≤ rank s.workers.length s.rx ∨
        rank s.workers.length (s.rxStep now ok).1.rx = rank s.workers.length s.rx ∧
          (s.rx = .exited ∨ Waits s now)) := by
  obtain ⟨opened, running, lost⟩ := way
  have steps := rxStep_steps s now ok
  generalize s.rxStep now ok = r at steps ⊢
  generalize here : s.rx = phase at steps opened running lost stale ⊢
  -- The rank and the rest of what is kept, where the step leaves `running` and the workers alone.
  have next : ∀ phase', rank s.workers.length phase' + 1 ≤ rank s.workers.length phase →
      (¬Cleared phase' → ¬Cleared phase) →
      phase' ≠ .clearing false ∧ phase' ≠ .stopping false ∧ phase' ≠ .returned →
      ∀ s' : RestartState, s'.rx = phase' → s'.running = s.running →
        s'.workers.length = s.workers.length →
        OnWay s' ∧ (rank s.workers.length s'.rx + 1 ≤ rank s.workers.length phase ∨
          rank s.workers.length s'.rx = rank s.workers.length phase ∧
            (phase = .exited ∨ Waits s now)) := by
    rintro phase' less before kept s' rfl same length
    refine ⟨⟨?_, ?_, kept⟩, .inl less⟩
    · rw [length]
      omega
    · rw [same]
      exact fun open' => running (before open')
  cases steps with
  | checks => exact next .checking (by simp [rank]) (fun _ => id) (by simp) _ rfl rfl rfl
  | ends off =>
    rw [running id] at off
    cases off
  | loses silent => exact next (.clearing true) (by simp [rank]) (fun _ => id) (by simp) _ rfl rfl rfl
  | stays fresh => exact absurd (stale rfl) fresh
  | @clears known =>
    have lost_true : known = true := by simpa using lost.1
    subst lost_true
    exact next (.stopping true) (by simp [rank]) (fun _ => id) (by simp) _ rfl rfl rfl
  | stopsLost => exact next .leaving (by simp [rank]) (fun _ => id) (by simp) _ rfl rfl rfl
  | stops => exact absurd rfl lost.2.1
  | leaves =>
    exact ⟨⟨by simp [rank], fun open' => absurd trivial open', by simp⟩, .inl (by simp [rank])⟩
  | lists =>
    exact next (.joining _ _ _) (by simp only [rank, List.length_map]; omega) (fun open' => absurd trivial open') (by simp)
      _ rfl rfl rfl
  | joins due =>
    exact next (.joining _ _ _) (by simp only [rank, List.length_cons]; omega) (fun open' => absurd trivial open') (by simp)
      _ rfl rfl rfl
  | waits early =>
    refine ⟨⟨by rw [here]; exact opened, by rw [here]; exact running, by simp [here]⟩, .inr ⟨by rw [here], ?_⟩⟩
    exact .inr ⟨_, _, _, here, early⟩
  | joined =>
    exact next (.terminating _) (by simp [rank]) (fun open' => absurd trivial open') (by simp)
      _ rfl rfl rfl
  | isDead dead =>
    exact next (.terminating _) (by simp [rank]) (fun open' => absurd trivial open') (by simp)
      _ rfl rfl rfl
  | terminates present =>
    exact next (.terminating _) (by simp [rank]) (fun open' => absurd trivial open') (by simp)
      _ rfl rfl rfl
  | exits =>
    exact next .exited (by simp [rank]) (fun open' => absurd trivial open') (by simp) _ rfl rfl rfl
  | exited =>
    exact ⟨⟨by rw [here]; exact opened, by rw [here]; exact running, by simp [here]⟩, .inr ⟨by rw [here], .inl rfl⟩⟩
  | returned => exact absurd rfl lost.2.2
  | _ => simp [rank] at opened

theorem running_step {e : RestartStep} (other : ∀ now ok, e ≠ .rx now ok) (no_stop : e ≠ .stop) :
    (s.step e).1.running = s.running := by
  cases e with
  | rx now ok => exact absurd rfl (other now ok)
  | dog now =>
    have steps := dogStep_steps s now
    simp only [RestartState.step]
    generalize s.dog = phase, s.dogStep now = s' at steps ⊢
    cases steps <;> rfl
  | work now =>
    simp only [RestartState.step]
    split <;> rfl
  | look p =>
    simp only [RestartState.step]
    split <;> rfl
  | dies p => rfl
  | stop => exact absurd rfl no_stop

theorem length_workers_step (e : RestartStep) : (s.step e).1.workers.length = s.workers.length := by
  rcases step_cases e with ⟨now, ok, rfl⟩ | other
  · exact congrArg List.length (quieter_rxStep s now ok).workers
  by_cases dog : ∃ now, e = .dog now
  · obtain ⟨now, rfl⟩ := dog
    have steps := dogStep_steps s now
    simp only [RestartState.step]
    generalize s.dog = phase, s.dogStep now = s' at steps ⊢
    cases steps with
    | stores => simp [setWorker]
    | _ => rfl
  · exact congrArg List.length (quieter_step other fun now eq => dog ⟨now, eq⟩).workers

/-- The steps of the other parties, none of which is a sample or clears `running`. -/
theorem onWay_step (way : OnWay s) {e : RestartStep} (other : ∀ now ok, e ≠ .rx now ok)
    (no_stop : e ≠ .stop) (silent : ∀ now, e ≠ .work now) :
    OnWay (s.step e).1 ∧ (s.step e).1.rx = s.rx ∧
      (s.step e).1.workers.length = s.workers.length ∧
      (s.step e).1.lastWorkTime = s.lastWorkTime := by
  have rx : (s.step e).1.rx = s.rx := (sameRx_step other).1.rx
  have length := length_workers_step (s := s) e
  have running := running_step (s := s) other no_stop
  refine ⟨⟨?_, ?_, ?_⟩, rx, length, ?_⟩
  · rw [rx, length]
    exact way.opened
  · rw [rx, running]
    exact way.running
  · rw [rx]
    exact way.lost
  · cases e with
    | rx now ok => exact absurd rfl (other now ok)
    | work now => exact absurd rfl (silent now)
    | dog now =>
      have steps := dogStep_steps s now
      simp only [RestartState.step]
      generalize s.dog = phase, s.dogStep now = s' at steps ⊢
      cases steps <;> rfl
    | look p =>
      simp only [RestartState.step]
      split <;> rfl
    | dies p => rfl
    | stop => rfl

/-- Waiting for the workers ends by `limit`, and is for those that were listed. -/
def Timely (limit : ℚ) (s : RestartState) : Prop :=
  ∀ deadline todo workers, s.rx = .joining deadline todo workers →
    deadline ≤ limit ∧ todo.length + workers.length ≤ 2 * s.workers.length

theorem timely_rxStep {limit : ℚ} (h : Timely limit s)
    (listing : s.rx = .listing → now + workerStopTimeoutS ≤ limit) :
    Timely limit (s.rxStep now ok).1 := by
  have steps := rxStep_steps s now ok
  generalize s.rxStep now ok = r at steps ⊢
  generalize here : s.rx = phase at steps listing
  cases steps with
  | lists =>
    rintro deadline todo workers ⟨⟩
    exact ⟨listing rfl, by simp; omega⟩
  | joins due =>
    rintro deadline todo workers ⟨⟩
    obtain ⟨early, few⟩ := h _ _ _ here
    rw [List.length_cons] at few
    refine ⟨early, ?_⟩
    show _ ≤ 2 * s.workers.length
    omega
  | waits early => exact h
  | exited | returned => exact h
  | _ => rintro deadline todo workers ⟨⟩

/-- The steps of the RX thread in a run. -/
def rxSteps (steps : List RestartStep) : ℕ :=
  steps.countP fun
    | .rx _ _ => true
    | _ => false

/-- No sample comes and no one else clears `running`. -/
structure Silent (steps : List RestartStep) : Prop where
  work : ∀ now, .work now ∉ steps
  stop : .stop ∉ steps

theorem Silent.tail {e : RestartStep} {steps : List RestartStep} (h : Silent (e :: steps)) :
    Silent steps :=
  ⟨fun now mem => h.work now (List.mem_cons_of_mem _ mem), fun mem => h.stop (List.mem_cons_of_mem _ mem)⟩

/-- What is known of the RX thread on its way out. -/
structure Leg (n : ℕ) (limit lastWorkTime : ℚ) (s : RestartState) : Prop where
  way : OnWay s
  length : s.workers.length = n
  timely : Timely limit s
  lastWorkTime : s.lastWorkTime = lastWorkTime

variable {n : ℕ} {limit lastWorkTime : ℚ}

/-- A step on the way out takes the RX thread further, unless it waits. -/
theorem Leg.next (h : Leg n limit lastWorkTime s) {e : RestartStep} (no_stop : e ≠ .stop)
    (silent : ∀ now, e ≠ .work now)
    (stale : ∀ now ok, e = .rx now ok → s.rx = .checking → staleTimeoutS < now - lastWorkTime)
    (listing : ∀ now ok, e = .rx now ok → s.rx = .listing → now + workerStopTimeoutS ≤ limit) :
    Leg n limit lastWorkTime (s.step e).1 ∧
      (rank n (s.step e).1.rx + rxSteps [e] ≤ rank n s.rx ∨
        rank n (s.step e).1.rx = rank n s.rx ∧
          (s.rx = .exited ∨ ∃ now ok, e = .rx now ok ∧ Waits s now)) := by
  obtain ⟨way, rfl, timely, rfl⟩ := h
  rcases step_cases e with ⟨now, ok, rfl⟩ | other
  · have q := quieter_rxStep s now ok
    obtain ⟨way', further⟩ := @rank_rxStep s now ok way (stale now ok rfl)
    have known : (s.rxStep now ok).1.lastWorkTime = s.lastWorkTime := by
      have opened := way.opened
      have steps := rxStep_steps s now ok
      generalize s.rxStep now ok = r at steps ⊢
      generalize s.rx = phase at steps opened
      cases steps with
      | opens => simp [rank] at opened
      | _ => rfl
    refine ⟨⟨way', congrArg List.length q.workers, timely_rxStep timely (listing now ok rfl), known⟩, ?_⟩
    refine further.imp id ?_
    rintro ⟨same, stays⟩
    exact ⟨same, stays.imp_right fun waits => ⟨now, ok, rfl, waits⟩⟩
  · obtain ⟨way', rx, length, work⟩ := onWay_step way other no_stop silent
    have none_taken : rxSteps [e] = 0 := by
      cases e with
      | rx now ok => exact absurd rfl (other now ok)
      | _ => rfl
    refine ⟨⟨way', length, ?_, work⟩, .inl (by rw [rx, none_taken, Nat.add_zero])⟩
    intro deadline todo workers here
    rw [length]
    exact timely deadline todo workers (rx ▸ here)

theorem rxSteps_cons (e : RestartStep) (steps : List RestartStep) :
    rxSteps (e :: steps) = rxSteps [e] + rxSteps steps := by
  rw [← List.singleton_append, rxSteps, List.countP_append]
  rfl

/-- Until the RX thread waits, every step of its own takes it further. -/
theorem Leg.untilWaiting {t t' : ℚ} {steps : List RestartStep}
    (h : Leg n (t' + workerStopTimeoutS) lastWorkTime s) (silent : Silent steps)
    (stale : lastWorkTime + staleTimeoutS < t)
    (times : ∀ now ok, .rx now ok ∈ steps → t ≤ now ∧ now ≤ t') :
    Leg n (t' + workerStopTimeoutS) lastWorkTime (Machine.after step s steps) ∧
      (rank n (Machine.after step s steps).rx ≤ 2 * n + 2 ∨
        rank n (Machine.after step s steps).rx + rxSteps steps ≤ rank n s.rx) := by
  induction steps generalizing s with
  | nil => exact ⟨h, .inr le_rfl⟩
  | cons e steps ih =>
    obtain ⟨leg, further⟩ := h.next (e := e) (fun eq => silent.stop (eq ▸ List.mem_cons_self))
      (fun now eq => silent.work now (eq ▸ List.mem_cons_self))
      (fun now ok eq _ => by
        have := (times now ok (eq ▸ List.mem_cons_self)).1
        linarith)
      (fun now ok eq _ => by
        have := (times now ok (eq ▸ List.mem_cons_self)).2
        linarith)
    obtain ⟨leg', later⟩ := ih leg silent.tail fun now ok mem => times now ok (List.mem_cons_of_mem _ mem)
    rw [Machine.after_cons, rxSteps_cons]
    refine ⟨leg', ?_⟩
    rcases later with low | later
    · exact .inl low
    rcases further with further | ⟨same, exited | ⟨now, ok, -, deadline, todo, workers, here, -⟩⟩
    · exact .inr (by omega)
    · have done : rank n s.rx = 0 := by rw [exited]; rfl
      exact .inl (by omega)
    · have few := (h.timely deadline todo workers here).2
      rw [h.length] at few
      have left_to_do : rank n s.rx = todo.length + workers.length + 2 := by rw [here]; rfl
      exact .inl (by omega)

/-- Behind the deadline every step of its own takes the RX thread further. -/
theorem Leg.behindDeadline {steps : List RestartStep} (h : Leg n limit lastWorkTime s)
    (silent : Silent steps) (stale : lastWorkTime + staleTimeoutS < limit)
    (waiting : rank n s.rx ≤ 2 * n + 2)
    (times : ∀ now ok, .rx now ok ∈ steps → limit ≤ now) :
    Leg n limit lastWorkTime (Machine.after step s steps) ∧
      (rank n (Machine.after step s steps).rx = 0 ∨
        rank n (Machine.after step s steps).rx + rxSteps steps ≤ rank n s.rx) := by
  induction steps generalizing s with
  | nil => exact ⟨h, .inr le_rfl⟩
  | cons e steps ih =>
    obtain ⟨leg, further⟩ := h.next (e := e) (fun eq => silent.stop (eq ▸ List.mem_cons_self))
      (fun now eq => silent.work now (eq ▸ List.mem_cons_self))
      (fun now ok eq _ => by
        have := times now ok (eq ▸ List.mem_cons_self)
        linarith)
      (fun now ok eq here => by
        rw [here] at waiting
        simp [rank] at waiting)
    have down : rank n (s.step e).1.rx ≤ rank n s.rx := by
      rcases further with further | ⟨same, -⟩ <;> omega
    obtain ⟨leg', later⟩ := ih leg silent.tail (down.trans waiting)
      fun now ok mem => times now ok (List.mem_cons_of_mem _ mem)
    rw [Machine.after_cons, rxSteps_cons]
    refine ⟨leg', ?_⟩
    rcases later with low | later
    · exact .inl low
    rcases further with further | ⟨same, exited | ⟨now, ok, rfl, deadline, todo, workers, here, early⟩⟩
    · exact .inr (by omega)
    · have done : rank n s.rx = 0 := by rw [exited]; rfl
      exact .inl (by omega)
    · have due := times now ok List.mem_cons_self
      have := (h.timely deadline todo workers here).1
      linarith

theorem length_workers_run (names : List String) (steps : List RestartStep) :
    (run names steps).workers.length = names.length :=
  Machine.after_rule step (P := fun _ s => s.workers.length = names.length)
    (by simp [RestartState.initial]) (fun _ e h => (length_workers_step e).trans h) steps

/-- Nobody else clears `running`, so `rx_loop` does not return. -/
theorem unstopped_run (names : List String) {steps : List RestartStep} (no_stop : .stop ∉ steps) :
    (¬Cleared (run names steps).rx → (run names steps).running = true) ∧
      (run names steps).rx ≠ .clearing false ∧ (run names steps).rx ≠ .stopping false ∧
      (run names steps).rx ≠ .returned := by
  induction steps using List.reverseRecOn with
  | nil => exact ⟨fun _ => rfl, by simp [run, RestartState.initial]⟩
  | append_singleton steps e ih =>
    rw [List.mem_append, not_or, List.mem_singleton] at no_stop
    obtain ⟨running, lost⟩ := ih no_stop.1
    rw [run_snoc]
    rcases step_cases e with ⟨now, ok, rfl⟩ | other
    · have steps' := rxStep_steps (run names steps) now ok
      simp only [RestartState.step]
      generalize run names steps = s at steps' running lost ⊢
      generalize s.rxStep now ok = r at steps' ⊢
      generalize here : s.rx = phase at steps' running lost
      cases steps' with
      | untried off | unpaused off | ends off =>
        rw [running id] at off
        cases off
      | stops => exact absurd rfl lost.2.1
      | returned => exact absurd rfl lost.2.2
      | @clears known => exact ⟨fun _ => running id, by simpa using lost.1⟩
      | leaves => exact ⟨fun open' => absurd trivial open', by simp⟩
      | waits early => exact ⟨fun open' => running (here ▸ open'), by simp [here]⟩
      | exited => exact ⟨fun open' => running (here ▸ open'), by simp [here]⟩
      | lists | joins due | joined | isDead dead | terminates present | exits =>
        exact ⟨fun open' => absurd trivial open', by simp⟩
      | _ => exact ⟨fun _ => running id, by simp⟩
    · have same := (sameRx_step (s := run names steps) other).1
      rw [same.rx]
      refine ⟨fun open' => ?_, lost⟩
      rw [running_step other (Ne.symm no_stop.2)]
      exact running open'

/-- **A silent SDR is left, stuck workers or not.** Take any run in which `rx_loop` has come to its
loop, and let no sample come any more. With six steps of its own more than five seconds after the last
sample, and two for every worker and two more once three seconds have passed, the RX thread has left
the process, whatever the watchdog and the workers do. -/
theorem restart_in_time (names : List String) (before silence later : List RestartStep)
    (phase : (run names before).rx = .streaming ∨ (run names before).rx = .checking)
    (alone : .stop ∉ before) (silent : Silent (silence ++ later)) (t t' : ℚ)
    (stale : (run names before).lastWorkTime + 5 < t)
    (times : ∀ now ok, .rx now ok ∈ silence → t ≤ now ∧ now ≤ t')
    (waited : ∀ now ok, .rx now ok ∈ later → t' + 3 ≤ now) (six : 6 ≤ rxSteps silence)
    (enough : 2 * names.length + 2 ≤ rxSteps later) :
    (run names (before ++ silence ++ later)).rx = .exited := by
  obtain ⟨running, lost⟩ := unstopped_run names alone
  have length := length_workers_run names before
  have split : run names (before ++ silence ++ later) =
      Machine.after step (Machine.after step (run names before) silence) later := by
    rw [run, Machine.after, List.foldl_append, List.foldl_append]
    rfl
  have start : Leg names.length (t' + workerStopTimeoutS) (run names before).lastWorkTime
      (run names before) := by
    refine ⟨⟨?_, running, lost⟩, length, ?_, rfl⟩
    · rcases phase with here | here <;> simp [here, rank]
    · intro deadline todo workers here
      rcases phase with there | there <;> rw [there] at here <;> cases here
  have high : rank names.length (run names before).rx ≤ 2 * names.length + 8 := by
    rcases phase with here | here <;> simp [here, rank]
  obtain ⟨way, near⟩ := start.untilWaiting
    ⟨fun now mem => silent.work now (List.mem_append_left _ mem),
      fun mem => silent.stop (List.mem_append_left _ mem)⟩ stale times
  have waiting : rank names.length (Machine.after step (run names before) silence).rx
      ≤ 2 * names.length + 2 := by
    rcases near with low | near <;> omega
  have order : t ≤ t' := by
    have some_step : 0 < rxSteps silence := by omega
    obtain ⟨e, mem, is_rx⟩ := List.countP_pos_iff.1 some_step
    cases e with
    | rx now ok => exact (times now ok mem).1.trans (times now ok mem).2
    | _ => cases is_rx
  have limit : (run names before).lastWorkTime + staleTimeoutS < t' + workerStopTimeoutS := by
    unfold staleTimeoutS workerStopTimeoutS
    linarith
  obtain ⟨leg, over'⟩ := way.behindDeadline
    ⟨fun now mem => silent.work now (List.mem_append_right _ mem),
      fun mem => silent.stop (List.mem_append_right _ mem)⟩ limit waiting waited
  have none_left : rank names.length
      (Machine.after step (Machine.after step (run names before) silence) later).rx = 0 := by
    rcases over' with zero | further <;> omega
  rw [split]
  rcases rank_eq_zero none_left with exited | returned
  · exact exited
  · exact absurd returned leg.way.lost.2.2

/-- A stuck worker is waited for until the deadline. -/
theorem restart_in_time_stuck :
    (run ["processor"] (fallsSilent.take 4 ++ List.replicate 7 (.rx 7 true) ++
      List.replicate 4 (.rx 10 true))).rx = .exited :=
  restart_in_time ["processor"] (fallsSilent.take 4) (List.replicate 7 (.rx 7 true))
    (List.replicate 4 (.rx 10 true)) (.inl (by decide +kernel)) (by simp [fallsSilent])
    ⟨by simp, by simp⟩ 7 7 (by decide +kernel) (by simp) (by norm_num) (by decide) (by decide)

end StreamWeb.RestartState

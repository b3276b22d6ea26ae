import Mathlib.Data.List.Induction

/-!
# Runs of a deterministic machine

A machine is a step function from a state and an input to the next state and
an output. `after` is the state a list of inputs leads to and `outputs` what
they produce on the way. `after_rule` is the invariant rule: a relation
between the inputs consumed so far and the state, true of no inputs and kept
by one more step, holds of every run.
-/

/-- What holds at every element, with what comes before it, of a list with one more element. -/
theorem List.forall_split_snoc {α : Type*} {P : List α → α → Prop} {xs : List α} {a : α} :
    (∀ before x after, xs ++ [a] = before ++ x :: after → P before x)
      ↔ (∀ before x after, xs = before ++ x :: after → P before x) ∧ P xs a := by
  constructor
  · intro every
    refine ⟨?_, every xs a [] rfl⟩
    rintro before x after rfl
    exact every before x (after ++ [a]) (by simp)
  · rintro ⟨earlier, last⟩ before x after split
    rcases List.eq_nil_or_concat after with rfl | ⟨init, b, rfl⟩
    · obtain ⟨rfl, same⟩ := List.append_inj' split rfl
      rw [← List.singleton_inj.1 same]
      exact last
    · rw [List.concat_eq_append, ← List.cons_append, ← List.append_assoc] at split
      exact earlier before x init (List.append_inj' split rfl).1

namespace Machine

variable {σ ι ο : Type*} (step : σ → ι → σ × ο)

/-- The state after the inputs `is`. -/
def after (s : σ) (is : List ι) : σ := is.foldl (fun s i => (step s i).1) s

/-- The outputs of the run, one for each input. -/
def outputs : σ → List ι → List ο
  | _, [] => []
  | s, i :: is => (step s i).2 :: outputs (step s i).1 is

@[simp] theorem after_nil (s : σ) : after step s [] = s := rfl

@[simp] theorem after_cons (s : σ) (i : ι) (is : List ι) :
    after step s (i :: is) = after step (step s i).1 is := rfl

@[simp] theorem after_snoc (s : σ) (is : List ι) (i : ι) :
    after step s (is ++ [i]) = (step (after step s is) i).1 := by
  simp [after]

theorem after_append (s : σ) (is js : List ι) :
    after step s (is ++ js) = after step (after step s is) js :=
  List.foldl_append

theorem outputs_append (s : σ) (is js : List ι) :
    outputs step s (is ++ js) = outputs step s is ++ outputs step (after step s is) js := by
  induction is generalizing s with
  | nil => rfl
  | cons i is ih => simp [outputs, ih]

theorem outputs_snoc (s : σ) (is : List ι) (i : ι) :
    outputs step s (is ++ [i]) = outputs step s is ++ [(step (after step s is) i).2] :=
  outputs_append step s is [i]

/-- **The invariant rule**, with the history the state is the result of. -/
theorem after_rule {P : List ι → σ → Prop} {s : σ} (start : P [] s)
    (keep : ∀ is i, P is (after step s is) → P (is ++ [i]) (step (after step s is) i).1) :
    ∀ is, P is (after step s is) := by
  intro is
  induction is using List.reverseRecOn with
  | nil => exact start
  | append_singleton is i ih =>
    rw [after_snoc]
    exact keep is i ih

end Machine

import Mathlib.Logic.Function.Basic

/-!
# A lock that is tried

Parties share a flag. A party enters by finding the flag down and raising it in
one step, goes on without entering when it finds it up, and takes it down when
it leaves; the flag does not remember who raised it. `Exclusive.move` is that
the flag is up exactly while a party is inside, and never more than one.
-/

namespace TryLock

variable {ι φ : Type*} [DecidableEq ι]

/-- The flag, and where every party is. -/
structure State (ι φ : Type*) where
  locked : Bool
  phase : ι → φ

/-- Where a party goes. -/
def State.goto (s : State ι φ) (i : ι) (p : φ) : State ι φ :=
  { s with phase := Function.update s.phase i p }

@[simp] theorem State.goto_locked (s : State ι φ) (i : ι) (p : φ) : (s.goto i p).locked = s.locked :=
  rfl

@[simp] theorem State.goto_self (s : State ι φ) (i : ι) (p : φ) : (s.goto i p).phase i = p := by
  simp [State.goto]

theorem State.goto_of_ne (s : State ι φ) {i j : ι} (ne : j ≠ i) (p : φ) :
    (s.goto i p).phase j = s.phase j := by
  simp [State.goto, ne]

/-- A move of party `i`, where `inside` are the phases in which the flag is held. -/
inductive Move (inside : φ → Prop) (i : ι) (s : State ι φ) : State ι φ → Prop
  /-- The flag is not touched. -/
  | pass (p : φ) (same : inside p ↔ inside (s.phase i)) : Move inside i s (s.goto i p)
  | enter (p : φ) (free : s.locked = false) (now : inside p) :
    Move inside i s { s.goto i p with locked := true }
  | leave (p : φ) (held : inside (s.phase i)) (out : ¬inside p) :
    Move inside i s { s.goto i p with locked := false }

/-- The flag is up exactly while a party is inside, and that is one party. -/
structure Exclusive (inside : φ → Prop) (s : State ι φ) : Prop where
  held : s.locked = true ↔ ∃ i, inside (s.phase i)
  one : ∀ i j, inside (s.phase i) → inside (s.phase j) → i = j

namespace Exclusive

variable {inside : φ → Prop} {s s' : State ι φ} {i : ι}

omit [DecidableEq ι] in
theorem empty (free : s.locked = false) (out : ∀ i, ¬inside (s.phase i)) : Exclusive inside s where
  held := by simp [free, out]
  one i _ held := absurd held (out i)

omit [DecidableEq ι] in
theorem free_iff (h : Exclusive inside s) : s.locked = false ↔ ∀ i, ¬inside (s.phase i) := by
  rw [← Bool.not_eq_true, h.held, not_exists]

/-- Who is inside behind a move that leaves the others alone. -/
theorem inside_goto (p : φ) (j : ι) :
    inside ((s.goto i p).phase j) ↔ (j = i ∧ inside p) ∨ (j ≠ i ∧ inside (s.phase j)) := by
  by_cases same : j = i
  · subst same
    simp
  · simp [same, s.goto_of_ne same]

/-- **Every move** keeps the flag and the parties together. -/
theorem move (h : Exclusive inside s) (step : Move inside i s s') : Exclusive inside s' := by
  cases step with
  | pass p same =>
    have unchanged : ∀ j, inside ((s.goto i p).phase j) ↔ inside (s.phase j) := by
      intro j
      apply (inside_goto p j).trans
      by_cases here : j = i
      · subst here
        simp [same]
      · simp [here]
    constructor
    · rw [State.goto_locked, h.held]
      exact exists_congr fun j => (unchanged j).symm
    · intro j k hj hk
      exact h.one j k ((unchanged j).1 hj) ((unchanged k).1 hk)
  | enter p free now =>
    have out := h.free_iff.1 free
    have only : ∀ j, inside ((s.goto i p).phase j) → j = i := by
      intro j held
      rcases (inside_goto p j).1 held with ⟨here, -⟩ | ⟨-, other⟩
      · exact here
      · exact absurd other (out j)
    constructor
    · refine iff_of_true rfl ⟨i, ?_⟩
      rw [s.goto_self]
      exact now
    · intro j k hj hk
      rw [only j hj, only k hk]
  | leave p held out =>
    apply empty rfl
    intro j still
    rcases (inside_goto p j).1 still with ⟨-, now⟩ | ⟨other, before⟩
    · exact out now
    · exact other (h.one j i before held)

end Exclusive

end TryLock

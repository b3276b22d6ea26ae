import Mathlib.Data.List.Chain
import Mathlib.Data.List.Count
import Mathlib.Data.List.Nodup
import Mathlib.Logic.Function.Basic

/-!
# Keeping what changes

Items with a key arrive in batches, and an item is kept when it differs from
the item of its key that arrived before it. `kept` are these items. An item
that arrives in a block of consecutive batches is kept once if and only if,
from each of these batches to the next, it is the last of its key in the one
and the first of its key in the other (`count_kept_block`).
-/

namespace Changes

variable {τ κ : Type*} [DecidableEq κ] (key : τ → κ)

/-- The last item of each key. -/
def lastOf (last : κ → Option τ) (es : List τ) : κ → Option τ :=
  es.foldl (fun last e => Function.update last (key e) (some e)) last

/-- The items of a batch with the key of `e`. -/
def sameKey (e : τ) (b : List τ) : List τ := b.filter (key · = key e)

def FirstIn (e : τ) (b : List τ) : Prop := (sameKey key e b).head? = some e

def LastIn (e : τ) (b : List τ) : Prop := (sameKey key e b).getLast? = some e

/-- An item of two consecutive batches does not let another of its key come
between its two arrivals. -/
def InOrder (e : τ) (b b' : List τ) : Prop :=
  e ∈ b → e ∈ b' → LastIn key e b ∧ FirstIn key e b'

section Keys

variable {key} {last : κ → Option τ} {e : τ}

@[simp] theorem lastOf_cons (a : τ) (es : List τ) :
    lastOf key last (a :: es) = lastOf key (Function.update last (key a) (some a)) es := rfl

/-- The last item of the key of `e`: the batch's last, or the one before. -/
theorem lastOf_eq (es : List τ) :
    lastOf key last es (key e) = (sameKey key e es).getLast?.or (last (key e)) := by
  induction es generalizing last with
  | nil => rfl
  | cons a es ih =>
    rw [lastOf_cons, ih]
    by_cases same : key a = key e
    · rw [sameKey, sameKey, List.filter_cons_of_pos (by simpa using same), same,
        Function.update_self, List.getLast?_cons]
      cases ((es.filter (key · = key e)).getLast?) <;> rfl
    · rw [sameKey, sameKey, List.filter_cons_of_neg (by simpa using same),
        Function.update_of_ne (Ne.symm same)]

theorem lastOf_of_mem (last : κ → Option τ) {b : List τ} (mem : e ∈ b) :
    lastOf key last b (key e) = (sameKey key e b).getLast? := by
  rw [lastOf_eq]
  cases shown : (sameKey key e b).getLast? with
  | none =>
    have here : e ∈ sameKey key e b := List.mem_filter.2 ⟨mem, by simp⟩
    rw [List.getLast?_eq_none_iff.1 shown] at here
    cases here
  | some a => rfl

theorem firstIn_cons_self (es : List τ) : FirstIn key e (e :: es) := by
  simp [FirstIn, sameKey]

theorem firstIn_cons_of_ne {a : τ} {es : List τ} (other : key a ≠ key e) :
    FirstIn key e (a :: es) ↔ FirstIn key e es := by
  simp [FirstIn, sameKey, other]

theorem not_firstIn_cons {a : τ} {es : List τ} (same : key a = key e) (ne : a ≠ e) :
    ¬FirstIn key e (a :: es) := by
  simp [FirstIn, sameKey, same, ne]

end Keys

variable [DecidableEq τ]

instance (e : τ) (b : List τ) : Decidable (FirstIn key e b) := inferInstanceAs (Decidable (_ = _))

instance (e : τ) (b : List τ) : Decidable (LastIn key e b) := inferInstanceAs (Decidable (_ = _))

instance (e : τ) (b b' : List τ) : Decidable (InOrder key e b b') :=
  inferInstanceAs (Decidable (_ → _ → _ ∧ _))

/-- The items that differ from the one before them with the same key. -/
def kept : (κ → Option τ) → List τ → List τ
  | _, [] => []
  | last, e :: es =>
    let last' := Function.update last (key e) (some e)
    if last (key e) = some e then kept last' es else e :: kept last' es

variable {key} {last : κ → Option τ} {e : τ}

@[simp] theorem kept_nil : kept key last [] = [] := rfl

theorem kept_append (as bs : List τ) :
    kept key last (as ++ bs) = kept key last as ++ kept key (lastOf key last as) bs := by
  induction as generalizing last with
  | nil => rfl
  | cons a as ih =>
    simp only [List.cons_append, kept, lastOf_cons]
    split
    · exact ih
    · rw [ih, List.cons_append]

theorem kept_sublist (es : List τ) : (kept key last es).Sublist es := by
  induction es generalizing last with
  | nil => exact .slnil
  | cons a es ih =>
    simp only [kept]
    split
    · exact ih.cons a
    · exact ih.cons_cons a

/-- Whatever arrives is kept at least once. -/
theorem mem_kept_of_mem {es : List τ} (mem : e ∈ es) (fresh : last (key e) ≠ some e) :
    e ∈ kept key last es := by
  induction es generalizing last with
  | nil => cases mem
  | cons a es ih =>
    simp only [kept]
    by_cases here : a = e
    · subst here
      simp [fresh]
    · have mem' : e ∈ es := (List.mem_cons.1 mem).resolve_left (Ne.symm here)
      have fresh' : Function.update last (key a) (some a) (key e) ≠ some e := by
        by_cases same : key e = key a
        · rw [same, Function.update_self]
          simpa using here
        · rwa [Function.update_of_ne same]
      split
      · exact ih mem' fresh'
      · exact List.mem_cons_of_mem a (ih mem' fresh')

/-- An item of a batch is dropped when it is the first of its key there and
was the last of its key before. -/
theorem mem_kept {es : List τ} (nodup : es.Nodup) (mem : e ∈ es) :
    e ∈ kept key last es ↔ ¬(FirstIn key e es ∧ last (key e) = some e) := by
  induction es generalizing last with
  | nil => cases mem
  | cons a es ih =>
    obtain ⟨fresh, nodup'⟩ := List.nodup_cons.1 nodup
    by_cases here : a = e
    · subst here
      have gone : a ∉ kept key (Function.update last (key a) (some a)) es :=
        fun later => fresh ((kept_sublist es).subset later)
      simp only [kept]
      split
      · rename_i repeated
        simp [gone, repeated, firstIn_cons_self]
      · rename_i changed
        simp [changed]
    · have mem' : e ∈ es := (List.mem_cons.1 mem).resolve_left (Ne.symm here)
      have step : e ∈ kept key last (a :: es) ↔
          e ∈ kept key (Function.update last (key a) (some a)) es := by
        simp only [kept]
        split
        · rfl
        · simp [Ne.symm here]
      rw [step, ih nodup' mem']
      by_cases same : key a = key e
      · -- the item `a` of the key of `e` comes between
        have changed : ¬Function.update last (key a) (some a) (key e) = some e := by
          rw [same, Function.update_self]
          simpa using here
        simp [changed, not_firstIn_cons same here]
      · rw [Function.update_of_ne (Ne.symm same), firstIn_cons_of_ne same]

theorem count_kept {es : List τ} (nodup : es.Nodup) :
    (kept key last es).count e
      = if e ∈ es ∧ ¬(FirstIn key e es ∧ last (key e) = some e) then 1 else 0 := by
  have nodup' : (kept key last es).Nodup := (kept_sublist es).nodup nodup
  have once := List.nodup_iff_count_le_one.1 nodup' e
  split
  · rename_i changed
    have := List.count_pos_iff.2 ((mem_kept nodup changed.1).2 changed.2)
    omega
  · rename_i repeated
    rw [List.count_eq_zero]
    intro later
    have mem := (kept_sublist es).subset later
    exact repeated ⟨mem, (mem_kept nodup mem).1 later⟩

/-! ## Blocks of batches -/

/-- Once a batch is without `e`, all later ones are. -/
def Leaves (e : τ) : List (List τ) → Prop
  | [] => True
  | b :: bs => (e ∉ b → ∀ b' ∈ bs, e ∉ b') ∧ Leaves e bs

/-- The batches with `e` are consecutive. -/
def Block (e : τ) : List (List τ) → Prop
  | [] => True
  | b :: bs => (e ∈ b → Leaves e bs) ∧ Block e bs

omit [DecidableEq τ] in
theorem isChain_of_absent {bs : List (List τ)} (absent : ∀ b ∈ bs, e ∉ b) :
    bs.IsChain (InOrder key e) := by
  induction bs with
  | nil => exact .nil
  | cons b bs ih =>
    have tail := ih fun b' mem => absent b' (List.mem_cons_of_mem b mem)
    cases bs with
    | nil => exact .singleton b
    | cons b' bs =>
      refine .cons_cons ?_ tail
      intro here
      exact absurd here (absent b List.mem_cons_self)

omit [DecidableEq τ] in
/-- A batch without `e` in front is no constraint. -/
theorem isChain_cons_absent {b : List τ} {bs : List (List τ)} (absent : e ∉ b) :
    (b :: bs).IsChain (InOrder key e) ↔ bs.IsChain (InOrder key e) := by
  cases bs with
  | nil => simp
  | cons b' bs =>
    rw [List.isChain_cons_cons]
    constructor
    · exact fun h => h.2
    · exact fun h => ⟨fun here => absurd here absent, h⟩

/-- Behind a batch with `e`, no later arrival of `e` is kept exactly when the
arrivals are in order. -/
theorem count_kept_leaves {prev : List τ} {bs : List (List τ)} (nodup : ∀ b ∈ bs, b.Nodup)
    (leaves : Leaves e bs) (here : e ∈ prev)
    (before : last (key e) = (sameKey key e prev).getLast?) :
    (kept key last bs.flatten).count e = 0 ↔ (prev :: bs).IsChain (InOrder key e) := by
  induction bs generalizing prev last with
  | nil => simp
  | cons b bs ih =>
    rw [List.flatten_cons, kept_append, List.count_append, List.isChain_cons_cons,
      count_kept (nodup b List.mem_cons_self)]
    have nodup' : ∀ b' ∈ bs, b'.Nodup := fun b' mem => nodup b' (List.mem_cons_of_mem b mem)
    by_cases mem : e ∈ b
    · rw [← ih nodup' leaves.2 mem (lastOf_of_mem last mem), before]
      have order : InOrder key e prev b ↔ FirstIn key e b ∧ (sameKey key e prev).getLast? = some e := by
        simp only [InOrder, here, mem, true_imp_iff, LastIn]
        exact and_comm
      rw [order]
      by_cases ordered : FirstIn key e b ∧ (sameKey key e prev).getLast? = some e
      · rw [if_neg fun moved => moved.2 ordered, Nat.zero_add]
        exact (and_iff_right ordered).symm
      · rw [if_pos ⟨mem, ordered⟩]
        constructor
        · intro none_kept
          omega
        · exact fun h => absurd h.1 ordered
    · have absent := leaves.1 mem
      have none_later : (kept key (lastOf key last b) bs.flatten).count e = 0 := by
        rw [List.count_eq_zero]
        intro later
        obtain ⟨b', mem', inside⟩ := List.mem_flatten.1 ((kept_sublist _).subset later)
        exact absent b' mem' inside
      have tail : (b :: bs).IsChain (InOrder key e) :=
        (isChain_cons_absent mem).2 (isChain_of_absent absent)
      simp [mem, none_later, tail, InOrder]

/-- **Exactly once.** An item that arrives in a block of batches is kept once
if and only if its arrivals are in order. -/
theorem count_kept_block {bs : List (List τ)} (nodup : ∀ b ∈ bs, b.Nodup) (block : Block e bs)
    (arrives : ∃ b ∈ bs, e ∈ b) (fresh : last (key e) ≠ some e) :
    (kept key last bs.flatten).count e = 1 ↔ bs.IsChain (InOrder key e) := by
  induction bs generalizing last with
  | nil =>
    obtain ⟨b, mem, -⟩ := arrives
    cases mem
  | cons b bs ih =>
    rw [List.flatten_cons, kept_append, List.count_append, count_kept (nodup b List.mem_cons_self)]
    have nodup' : ∀ b' ∈ bs, b'.Nodup := fun b' mem => nodup b' (List.mem_cons_of_mem b mem)
    by_cases mem : e ∈ b
    · have after : lastOf key last b (key e) = _ := lastOf_of_mem last mem
      rw [← count_kept_leaves nodup' (block.1 mem) mem after]
      simp [mem, fresh]
    · have arrives' : ∃ b' ∈ bs, e ∈ b' := by
        obtain ⟨b', mem', inside⟩ := arrives
        rcases List.mem_cons.1 mem' with rfl | later
        · exact absurd inside mem
        · exact ⟨b', later, inside⟩
      have fresh' : lastOf key last b (key e) ≠ some e := by
        rw [lastOf_eq]
        cases shown : (sameKey key e b).getLast? with
        | none => simpa using fresh
        | some a =>
          rintro ⟨⟩
          exact mem (List.mem_filter.1 (List.mem_of_getLast? shown)).1
      rw [isChain_cons_absent mem, ← ih nodup' block.2 arrives' fresh']
      simp [mem]

end Changes

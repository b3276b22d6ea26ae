import Mathlib.Data.List.Induction
import Mathlib.Data.List.Nodup
import StreamWeb.Lib.Dict

/-!
# Grouping with a dictionary

A loop over items keeps one accumulator for each key in a dictionary: the first
item of a key makes it, and every item updates that of its key. What it is left
with are the accumulators of the groups, each folded over the items of its key
alone (`mem_foldl_visit`), whatever lies between these.
-/

namespace GroupBy

variable {τ κ σ : Type} [DecidableEq κ] (key : τ → κ) (start : τ → σ) (step : σ → τ → σ)

/-- One turn of the loop. -/
def visit (d : List (κ × σ)) (x : τ) : List (κ × σ) :=
  Dict.set d (key x) (step ((d.lookup (key x)).getD (start x)) x)

/-- The items of a key. -/
def itemsOf (xs : List τ) (k : κ) : List τ := xs.filter (key · = k)

/-- The accumulator of a group, none without items. -/
def accumulated : List τ → Option σ
  | [] => none
  | x :: xs => some ((x :: xs).foldl step (start x))

variable {key start step}

theorem accumulated_concat (xs : List τ) (x : τ) :
    accumulated start step (xs ++ [x]) =
      some (step ((accumulated start step xs).getD (start x)) x) := by
  cases xs with
  | nil => rfl
  | cons y ys => simp [accumulated, List.foldl_append]

theorem itemsOf_concat_self (xs : List τ) (x : τ) :
    itemsOf key (xs ++ [x]) (key x) = itemsOf key xs (key x) ++ [x] := by
  simp [itemsOf, List.filter_append]

theorem itemsOf_concat_of_ne (xs : List τ) {x : τ} {k : κ} (other : k ≠ key x) :
    itemsOf key (xs ++ [x]) k = itemsOf key xs k := by
  simp [itemsOf, List.filter_append, other.symm]

/-- **Each key's accumulator is that of its own items.** -/
theorem lookup_foldl_visit (xs : List τ) (k : κ) :
    (xs.foldl (visit key start step) []).lookup k =
      accumulated start step (itemsOf key xs k) := by
  induction xs using List.reverseRecOn with
  | nil => rfl
  | append_singleton xs x ih =>
    rw [List.foldl_append, List.foldl_cons, List.foldl_nil, visit]
    by_cases here : k = key x
    · subst here
      rw [Dict.lookup_set_self, ih, itemsOf_concat_self, accumulated_concat]
    · rw [Dict.lookup_set_of_ne here, ih, itemsOf_concat_of_ne xs here]

theorem mem_keys {xs : List τ} {k : κ} :
    k ∈ (xs.foldl (visit key start step) []).map Prod.fst ↔ k ∈ xs.map key := by
  induction xs using List.reverseRecOn with
  | nil => rfl
  | append_singleton xs x ih =>
    rw [List.foldl_append, List.foldl_cons, List.foldl_nil, visit, Dict.keys_set, List.map_append,
      List.mem_append, ← ih, List.map_singleton, List.mem_singleton]
    split
    · rename_i known
      exact ⟨.inl, fun mem => mem.elim id fun same => same ▸ known⟩
    · rw [List.mem_append, List.mem_singleton]

theorem nodup_keys (xs : List τ) : ((xs.foldl (visit key start step) []).map Prod.fst).Nodup := by
  induction xs using List.reverseRecOn with
  | nil => exact List.nodup_nil
  | append_singleton xs x ih =>
    rw [List.foldl_append, List.foldl_cons, List.foldl_nil, visit, Dict.keys_set]
    split
    · exact ih
    · rename_i absent
      apply ih.append (List.nodup_singleton _)
      simpa using absent

/-- **The dictionary holds the groups**, each folded alone. -/
theorem mem_foldl_visit {xs : List τ} {k : κ} {v : σ} :
    (k, v) ∈ xs.foldl (visit key start step) [] ↔
      accumulated start step (itemsOf key xs k) = some v := by
  rw [← Dict.lookup_eq_some_iff (nodup_keys xs), lookup_foldl_visit]

end GroupBy

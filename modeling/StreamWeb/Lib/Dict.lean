import Mathlib.Logic.Basic

/-!
# Dictionaries in insertion order

A dictionary as the list of its items. `set` is an assignment, which keeps a
key's place, `setDefault` adds a missing key and `update` assigns all items of
another dictionary. `List.lookup` reads; the lemmas say what it reads behind
each of them.
-/

namespace Dict

variable {κ ν : Type} [DecidableEq κ] {d : List (κ × ν)} {k k' : κ} {v : ν}

/-- `d[k] = v` -/
def set (d : List (κ × ν)) (k : κ) (v : ν) : List (κ × ν) :=
  if (d.lookup k).isSome then d.map fun e => if e.1 = k then (k, v) else e else d ++ [(k, v)]

/-- `d.setdefault(k, v)` -/
def setDefault (d : List (κ × ν)) (k : κ) (v : ν) : List (κ × ν) :=
  if (d.lookup k).isSome then d else d ++ [(k, v)]

/-- `d.update(items)` -/
def update (d items : List (κ × ν)) : List (κ × ν) := items.foldl (fun d e => set d e.1 e.2) d

@[simp] theorem lookup_set_self : (set d k v).lookup k = some v := by
  unfold set
  cases found : d.lookup k with
  | none => simp [List.lookup_append, found]
  | some old =>
    rw [Option.isSome_some, if_pos rfl]
    induction d with
    | nil => cases found
    | cons e d ih =>
      by_cases here : e.1 = k
      · simp [here]
      · have apart : (k == e.1) = false := by simpa using Ne.symm here
        rw [List.lookup_cons, apart] at found
        rw [List.map_cons, if_neg here, List.lookup_cons, apart]
        exact ih found

theorem lookup_map_of_ne (other : k' ≠ k) :
    (d.map fun e => if e.1 = k then (k, v) else e).lookup k' = d.lookup k' := by
  have apart : (k' == k) = false := by simpa using other
  induction d with
  | nil => rfl
  | cons e d ih =>
    rw [List.map_cons, List.lookup_cons, List.lookup_cons, ih]
    by_cases here : e.1 = k
    · rw [if_pos here, here, apart]
    · rw [if_neg here]

theorem lookup_set_of_ne (other : k' ≠ k) : (set d k v).lookup k' = d.lookup k' := by
  have apart : (k' == k) = false := by simpa using other
  unfold set
  split
  · exact lookup_map_of_ne other
  · rw [List.lookup_append, List.lookup_cons, apart, List.lookup_nil, Option.or_none]

theorem keys_set : (set d k v).map Prod.fst =
    if k ∈ d.map Prod.fst then d.map Prod.fst else d.map Prod.fst ++ [k] := by
  have known : (d.lookup k).isSome = true ↔ k ∈ d.map Prod.fst := by
    simp [List.lookup_isSome_iff]
  unfold set
  split
  · rename_i found
    rw [if_pos (known.1 found), List.map_map]
    apply List.map_congr_left
    intro e _
    rw [Function.comp_apply]
    split
    · rename_i here
      exact here.symm
    · rfl
  · rename_i missing
    rw [if_neg (mt known.2 missing), List.map_append]
    rfl

/-- With different keys, the items are what is read. -/
theorem lookup_eq_some_iff (distinct : (d.map Prod.fst).Nodup) :
    d.lookup k = some v ↔ (k, v) ∈ d := by
  induction d with
  | nil => simp
  | cons e d ih =>
    obtain ⟨key, value⟩ := e
    rw [List.map_cons, List.nodup_cons] at distinct
    by_cases here : k = key
    · subst here
      have absent : (k, v) ∉ d := fun mem => distinct.1 (List.mem_map.2 ⟨_, mem, rfl⟩)
      simp [absent, eq_comm]
    · have apart : (k == key) = false := by simpa using here
      rw [List.lookup_cons, apart]
      simpa [here] using ih distinct.2

theorem lookup_update_of_not_mem {items : List (κ × ν)} (absent : k ∉ items.map Prod.fst) :
    (update d items).lookup k = d.lookup k := by
  induction items generalizing d with
  | nil => rfl
  | cons e items ih =>
    rw [List.map_cons, List.mem_cons, not_or] at absent
    rw [update, List.foldl_cons, ← update, ih absent.2, lookup_set_of_ne absent.1]

/-- An item that passes the filter is still found. -/
theorem lookup_filter {p : κ × ν → Bool} (found : d.lookup k = some v) (passes : p (k, v)) :
    (d.filter p).lookup k = some v := by
  induction d with
  | nil => cases found
  | cons e d ih =>
    by_cases here : e.1 = k
    · obtain ⟨key, value⟩ := e
      cases here
      rw [List.lookup_cons_self] at found
      cases found
      rw [List.filter_cons_of_pos passes, List.lookup_cons_self]
    · have apart : (k == e.1) = false := by simpa using Ne.symm here
      rw [List.lookup_cons, apart] at found
      have rest := ih found
      rw [List.filter_cons]
      split
      · rw [List.lookup_cons, apart]
        exact rest
      · exact rest

end Dict

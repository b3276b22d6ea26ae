import Mathlib.Data.List.DropRight

/-!
# Logs that keep their tail

A bounded log appends a batch and keeps the last `n` entries
(`List.rtake`). Truncating along the way loses nothing that the last
truncation would keep (`rtake_rtake_append`), so the content is always the
tail of everything appended. Seen from its end, a log of chunks of one length
is divided as numbers are (`getElem?_reverse_flatten`).
-/

namespace List

variable {α : Type*}

theorem rtake_of_length_le {n : Nat} {l : List α} (h : l.length ≤ n) : l.rtake n = l := by
  rw [rtake, Nat.sub_eq_zero_of_le h, drop_zero]

theorem rtake_rtake_append (n : Nat) (l m : List α) :
    (l.rtake n ++ m).rtake n = (l ++ m).rtake n := by
  simp only [rtake, length_append, length_drop]
  rcases Nat.le_total l.length n with short | long
  · rw [Nat.sub_eq_zero_of_le short, drop_zero, Nat.sub_zero]
  · -- the front that the first truncation drops is dropped by the second as well
    have front : l.length + m.length - n
        = (l.length - n) + (l.length - (l.length - n) + m.length - n) := by omega
    rw [front, ← drop_drop, drop_append_of_le_length (Nat.sub_le _ _)]

theorem rtake_sublist (n : Nat) (l : List α) : l.rtake n <+ l := drop_sublist _ _

theorem flatten_map_sublist {f : List α → List α} (h : ∀ l, f l <+ l) (ls : List (List α)) :
    (ls.map f).flatten <+ ls.flatten := by
  induction ls with
  | nil => exact Sublist.refl _
  | cons l ls ih => simpa using (h l).append ih

theorem getElem?_reverse_rtake {n i : Nat} (l : List α) (near : i < n) :
    (l.rtake n).reverse[i]? = l.reverse[i]? := by
  rw [rtake_eq_reverse_take_reverse, reverse_reverse, getElem?_take_of_lt near]

/-- The element `i` places before the end is in the chunk `i / k` chunks before the last. -/
theorem getElem?_reverse_flatten {k : Nat} (pos : 0 < k) {ls : List (List α)}
    (chunks : ∀ l ∈ ls, l.length = k) (i : Nat) :
    ls.flatten.reverse[i]? = ls.reverse[i / k]?.bind fun l => l.reverse[i % k]? := by
  induction ls using List.reverseRecOn generalizing i with
  | nil => simp
  | append_singleton ls l ih =>
    have length : l.length = k := chunks l (by simp)
    have earlier := ih fun l' mem => chunks l' (mem_append_left _ mem)
    rw [flatten_append, flatten_singleton, reverse_append, reverse_append, reverse_singleton]
    by_cases last : i < k
    · rw [getElem?_append_left (by rwa [length_reverse, length]), Nat.div_eq_of_lt last,
        Nat.mod_eq_of_lt last]
      rfl
    · obtain ⟨rest, rfl⟩ := Nat.exists_eq_add_of_le (not_lt.1 last)
      rw [getElem?_append_right (by rw [length_reverse, length]; exact Nat.le_add_right _ _),
        length_reverse, length, Nat.add_sub_cancel_left, earlier, Nat.add_div_left rest pos,
        Nat.add_mod_left, singleton_append, getElem?_cons_succ]

end List

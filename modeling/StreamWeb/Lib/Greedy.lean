import Mathlib.Data.List.Induction

/-!
# Collapsing repeats

`kept R` goes through a list and keeps what is not a repeat, by `R`, of
something it has kept. Two such rules keep the same of a list and of all its
parts exactly when they say the same of any two elements
(`forall_sublist_kept_eq_iff`).
-/

namespace Greedy

variable {α : Type*} {R S : α → α → Prop} [DecidableRel R] [DecidableRel S] {xs ys : List α} {x : α}

/-- `x` repeats something kept. -/
def Repeats (R : α → α → Prop) (ks : List α) (x : α) : Prop := ∃ k ∈ ks, R x k

instance (ks : List α) (x : α) : Decidable (Repeats R ks x) :=
  inferInstanceAs (Decidable (∃ k ∈ ks, R x k))

variable (R) in
/-- What is kept of `xs` behind `ks`, in order. -/
def keptFrom (ks xs : List α) : List α :=
  xs.foldl (fun ks x => if Repeats R ks x then ks else ks ++ [x]) ks

variable (R) in
/-- What is kept, in order. -/
def kept (xs : List α) : List α := keptFrom R [] xs

theorem keptFrom_cons_of_repeats {ks : List α} (again : Repeats R ks x) :
    keptFrom R ks (x :: xs) = keptFrom R ks xs := by
  rw [keptFrom, List.foldl_cons, if_pos again, keptFrom]

theorem keptFrom_cons_of_new {ks : List α} (new : ¬Repeats R ks x) :
    keptFrom R ks (x :: xs) = keptFrom R (ks ++ [x]) xs := by
  rw [keptFrom, List.foldl_cons, if_neg new, keptFrom]

theorem keptFrom_append (ks xs ys : List α) :
    keptFrom R ks (xs ++ ys) = keptFrom R (keptFrom R ks xs) ys := List.foldl_append

@[simp] theorem kept_nil : kept R [] = [] := rfl

theorem kept_snoc (xs : List α) (x : α) :
    kept R (xs ++ [x]) = if Repeats R (kept R xs) x then kept R xs else kept R xs ++ [x] :=
  keptFrom_append [] xs [x]

theorem kept_subset (xs : List α) : kept R xs ⊆ xs := by
  induction xs using List.reverseRecOn with
  | nil => exact List.Subset.refl _
  | append_singleton xs a ih =>
    rw [kept_snoc]
    split
    · exact List.subset_append_of_subset_left _ ih
    · exact List.append_subset.2 ⟨List.subset_append_of_subset_left _ ih, List.subset_append_right _ _⟩

/-- Rules that say the same of any two elements keep the same. -/
theorem kept_eq_of_pairwise (alike : xs.Pairwise fun k x => (R x k ↔ S x k)) : kept R xs = kept S xs := by
  induction xs using List.reverseRecOn with
  | nil => rfl
  | append_singleton xs a ih =>
    obtain ⟨before, -, now⟩ := List.pairwise_append.1 alike
    have same := ih before
    have test : Repeats R (kept R xs) a ↔ Repeats S (kept S xs) a := by
      rw [same]
      exact exists_congr fun k => and_congr_right fun mem =>
        now k (kept_subset xs mem) a (List.mem_singleton_self a)
    rw [kept_snoc, kept_snoc, same]
    rw [same] at test
    simp only [test]

/-- Of two elements the second is kept unless it repeats the first. -/
theorem kept_pair (k x : α) : kept R [k, x] = if R x k then [k] else [k, x] := by
  have first : kept R [k] = [k] := kept_snoc [] k
  have both := kept_snoc (R := R) [k] x
  rw [first] at both
  simpa [Repeats] using both

theorem kept_pair_eq_iff (k x : α) : kept R [k, x] = kept S [k, x] ↔ (R x k ↔ S x k) := by
  rw [kept_pair, kept_pair]
  by_cases r : R x k <;> by_cases s : S x k <;> simp [r, s]

/-- **When two rules keep the same of everything one may be shown**: they say the same of any two
elements. -/
theorem forall_sublist_kept_eq_iff :
    (∀ ys, ys.Sublist xs → kept R ys = kept S ys) ↔ xs.Pairwise fun k x => (R x k ↔ S x k) := by
  constructor
  · intro same
    apply List.pairwise_iff_forall_sublist.2
    intro k x pair
    exact (kept_pair_eq_iff k x).1 (same _ pair)
  · intro alike ys part
    exact kept_eq_of_pairwise (alike.sublist part)

end Greedy

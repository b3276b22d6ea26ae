import Mathlib.Data.List.DropRight

/-!
# POSIX paths

`join` and `basename` of strings, as `posixpath` has them, with a directory and
one component. A path that is joined keeps its last component
(`basename_join`), and it is a direct child of the directory when there is
nothing else in it, or when it is absolute and spells the directory out
(`directChild_join_iff`).
-/

namespace PosixPath

/-- The path starts at the root. -/
abbrev IsAbsolute (p : String) : Prop := p.toList.head? = some '/'

/-- The directory, as the front of the paths in it. -/
def dirPrefix (d : String) : String :=
  if d = "" ∨ d.toList.getLast? = some '/' then d else d ++ "/"

/-- `os.path.join(d, p)` -/
def join (d p : String) : String := if IsAbsolute p then p else dirPrefix d ++ p

/-- `os.path.basename(p)` -/
def basename (p : String) : String := String.ofList (p.toList.rtakeWhile (· ≠ '/'))

/-- The directory joined with one component other than `..`. -/
def DirectChild (d p : String) : Prop := ∃ c, c ≠ "" ∧ '/' ∉ c.toList ∧ c ≠ ".." ∧ p = join d c

/-- The path is one component, or the whole path of a child of the directory. -/
def Spells (d p : String) : Prop :=
  '/' ∉ p.toList ∨ (IsAbsolute p ∧ p = dirPrefix d ++ basename p)

variable {c d p : String}

theorem basename_eq_self_iff : basename p = p ↔ '/' ∉ p.toList := by
  rw [← String.toList_inj, basename, String.toList_ofList, List.rtakeWhile_eq_self_iff]
  simp only [ne_eq, decide_eq_true_eq]
  constructor
  · intro all mem
    exact all '/' mem rfl
  · intro absent x mem same
    exact absent (same ▸ mem)

theorem slash_notMem_basename (p : String) : '/' ∉ (basename p).toList := by
  intro mem
  rw [basename, String.toList_ofList] at mem
  simpa using List.mem_rtakeWhile_imp mem

/-- Nothing of the directory is left in the last component. -/
theorem rtakeWhile_dirPrefix (d : String) :
    (dirPrefix d).toList.rtakeWhile (fun x => decide (x ≠ '/')) = [] := by
  unfold dirPrefix
  split
  · rename_i whole
    rcases whole with rfl | slash
    · rfl
    · obtain ⟨front, same⟩ := List.getLast?_eq_some_iff.1 slash
      rw [same]
      exact List.rtakeWhile_concat_neg _ _ _ (by simp)
  · rw [String.toList_append, show "/".toList = ['/'] from rfl]
    exact List.rtakeWhile_concat_neg _ _ _ (by simp)

theorem rtakeWhile_append_of_nil {α : Type} {q : α → Bool} {xs : List α} (stops : xs.rtakeWhile q = [])
    (ys : List α) : (xs ++ ys).rtakeWhile q = ys.rtakeWhile q := by
  induction ys using List.reverseRecOn with
  | nil => rw [List.append_nil, stops, List.rtakeWhile_nil]
  | append_singleton ys y ih => rw [← List.append_assoc, List.rtakeWhile_concat, List.rtakeWhile_concat, ih]

theorem basename_append (d p : String) : basename (dirPrefix d ++ p) = basename p := by
  rw [basename, basename, String.toList_append, rtakeWhile_append_of_nil (rtakeWhile_dirPrefix d)]

/-- Joining keeps the last component. -/
theorem basename_join (d p : String) : basename (join d p) = basename p := by
  unfold join
  split
  · rfl
  · exact basename_append d p

theorem not_isAbsolute (component : '/' ∉ c.toList) : ¬IsAbsolute c := by
  intro root
  exact component (List.mem_of_head? root)

theorem join_component (component : '/' ∉ c.toList) : join d c = dirPrefix d ++ c :=
  if_neg (not_isAbsolute component)

/-- A path with a proper last component is joined to a direct child when it spells one. -/
theorem directChild_join_iff (some_name : basename p ≠ "") (down : basename p ≠ "..") :
    DirectChild d (join d p) ↔ Spells d p := by
  constructor
  · intro ⟨c, _, component, _, same⟩
    rw [join_component component] at same
    have last : basename p = c := by
      rw [← basename_join d p, same, basename_append, basename_eq_self_iff.2 component]
    rw [← last] at same
    by_cases root : IsAbsolute p
    · rw [join, if_pos root] at same
      exact .inr ⟨root, same⟩
    · rw [join, if_neg root, String.append_right_inj] at same
      exact .inl (basename_eq_self_iff.1 same.symm)
  · intro spelled
    refine ⟨basename p, some_name, slash_notMem_basename p, down, ?_⟩
    rw [join_component (slash_notMem_basename p)]
    rcases spelled with component | ⟨root, whole⟩
    · rw [join_component component, basename_eq_self_iff.2 component]
    · rw [join, if_pos root]
      exact whole

end PosixPath

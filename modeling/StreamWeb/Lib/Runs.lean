import Mathlib.Data.List.SplitBy
import Mathlib.Data.List.Pairwise
import Mathlib.Algebra.Order.Ring.Int

/-!
# Runs of a sequence and groups of intervals

`ofBools` lists the maximal runs of `true` in a sequence as half-open
intervals, in order. Intervals less than a gap apart form a group, which has an
extent. Short intervals can be dropped before grouping or short extents behind
it; `map_extent_groups_filter_iff` says when both give the same.
-/

namespace Runs

/-! ## Maximal runs -/

/-- A maximal interval of positions with `T`. -/
structure IsRun (T : Nat → Prop) (p : Nat × Nat) : Prop where
  pos : p.1 < p.2
  all : ∀ i, p.1 ≤ i → i < p.2 → T i
  before : p.1 = 0 ∨ ¬T (p.1 - 1)
  behind : ¬T p.2

/-- Runs of one start are the same. -/
theorem IsRun.eq {T : Nat → Prop} {p q : Nat × Nat} (hp : IsRun T p) (hq : IsRun T q)
    (same : p.1 = q.1) : p = q := by
  obtain ⟨s, e⟩ := p
  obtain ⟨s', e'⟩ := q
  obtain rfl : s = s' := same
  have pos := hp.pos
  have pos' := hq.pos
  simp only at pos pos'
  rcases Nat.lt_trichotomy e e' with lt | rfl | gt
  · exact absurd (hq.all e pos.le lt) hp.behind
  · rfl
  · exact absurd (hp.all e' pos'.le gt) hq.behind

/-- A run does not start where it does not hold. -/
theorem IsRun.succ_le {T : Nat → Prop} {p : Nat × Nat} (run : IsRun T p) {i : Nat} (free : ¬T i)
    (le : i ≤ p.1) : i + 1 ≤ p.1 := by
  rcases Nat.eq_or_lt_of_le le with same | lt
  · exact absurd (run.all p.1 (le_refl _) run.pos) (same ▸ free)
  · exact lt

/-- The run from `s` on is open in front of `i`. -/
structure IsOpen (T : Nat → Prop) (s i : Nat) : Prop where
  lt : s < i
  all : ∀ k, s ≤ k → k < i → T k
  before : s = 0 ∨ ¬T (s - 1)

namespace IsOpen

variable {T : Nat → Prop} {s i : Nat}

theorem start (before : i = 0 ∨ ¬T (i - 1)) (here : T i) : IsOpen T i (i + 1) where
  lt := Nat.lt_succ_self i
  all k low high := by rwa [show k = i by omega]
  before := before

theorem extend (opened : IsOpen T s i) (here : T i) : IsOpen T s (i + 1) where
  lt := Nat.lt_succ_of_lt opened.lt
  all k low high := by
    rcases Nat.eq_or_lt_of_le (Nat.le_of_lt_succ high) with rfl | lt
    · exact here
    · exact opened.all k low lt
  before := opened.before

theorem close (opened : IsOpen T s i) (free : ¬T i) : IsRun T (s, i) :=
  ⟨opened.lt, opened.all, opened.before, free⟩

/-- No other run starts in it. -/
theorem eq_close (opened : IsOpen T s i) (free : ¬T i) {p : Nat × Nat} (run : IsRun T p)
    (le : s ≤ p.1) (inside : p.1 < i) : p = (s, i) := by
  apply run.eq (opened.close free)
  by_contra later
  simp only at later
  rcases run.before with zero | not
  · omega
  · exact not (opened.all _ (by omega) (by omega))

end IsOpen

/-- The runs from position `i` on, with the start of an open one. -/
def scan : Nat → Option Nat → List Bool → List (Nat × Nat)
  | _, none, [] => []
  | i, some s, [] => [(s, i)]
  | i, none, true :: bs => scan (i + 1) (some i) bs
  | i, none, false :: bs => scan (i + 1) none bs
  | i, some s, true :: bs => scan (i + 1) (some s) bs
  | i, some s, false :: bs => (s, i) :: scan (i + 1) none bs

/-- The runs of a sequence. -/
def ofBools (bs : List Bool) : List (Nat × Nat) := scan 0 none bs

theorem scan_replicate_true (n i s : Nat) (bs : List Bool) :
    scan i (some s) (List.replicate n true ++ bs) = scan (i + n) (some s) bs := by
  induction n generalizing i with
  | zero => rfl
  | succ n ih =>
    rw [List.replicate_succ, List.cons_append, scan, ih, Nat.add_right_comm]
    rfl

theorem scan_replicate_false (n i : Nat) (bs : List Bool) :
    scan i none (List.replicate n false ++ bs) = scan (i + n) none bs := by
  induction n generalizing i with
  | zero => rfl
  | succ n ih =>
    rw [List.replicate_succ, List.cons_append, scan, ih, Nat.add_right_comm]
    rfl

/-- What the scan lists from a position in front of which no run is open, or one is. -/
theorem mem_scan {T : Nat → Prop} (bs : List Bool) :
    ∀ i, (∀ j, T (i + j) ↔ bs[j]? = some true) →
      ((i = 0 ∨ ¬T (i - 1)) → ∀ p, p ∈ scan i none bs ↔ IsRun T p ∧ i ≤ p.1) ∧
        ∀ s, IsOpen T s i → ∀ p, p ∈ scan i (some s) bs ↔ IsRun T p ∧ s ≤ p.1 := by
  induction bs with
  | nil =>
    intro i values
    have outside : ∀ p, IsRun T p → ¬i ≤ p.1 := by
      intro p run le
      have held := run.all p.1 (le_refl _) run.pos
      rw [← Nat.add_sub_cancel' le, values] at held
      cases held
    have free : ¬T i := by simpa using values 0
    constructor
    · intro _ p
      simpa [scan] using outside p
    · intro s opened p
      rw [scan, List.mem_singleton]
      constructor
      · rintro rfl
        exact ⟨opened.close free, le_refl s⟩
      · rintro ⟨run, le⟩
        exact opened.eq_close free run le (not_le.1 (outside p run))
  | cons b bs ih =>
    intro i values
    have next : ∀ j, T (i + 1 + j) ↔ bs[j]? = some true := by
      intro j
      have := values (j + 1)
      rw [show i + (j + 1) = i + 1 + j by omega] at this
      simpa using this
    obtain ⟨closed', opened'⟩ := ih (i + 1) next
    cases b with
    | true =>
      have here : T i := by simpa using values 0
      constructor
      · intro before
        exact opened' i (.start before here)
      · intro s opened
        exact opened' s (opened.extend here)
    | false =>
      have free : ¬T i := by simpa using values 0
      have later := closed' (.inr free)
      constructor
      · intro _ p
        rw [scan, later p]
        exact ⟨fun h => ⟨h.1, by omega⟩, fun h => ⟨h.1, h.1.succ_le free h.2⟩⟩
      · intro s opened p
        have lt := opened.lt
        rw [scan, List.mem_cons, later p]
        constructor
        · rintro (rfl | ⟨run, le⟩)
          · exact ⟨opened.close free, le_refl s⟩
          · exact ⟨run, by omega⟩
        · rintro ⟨run, le⟩
          by_cases inside : p.1 < i
          · exact .inl (opened.eq_close free run le inside)
          · exact .inr ⟨run, run.succ_le free (not_lt.1 inside)⟩

/-- **The list is that of the maximal runs.** -/
theorem mem_ofBools (bs : List Bool) (p : Nat × Nat) :
    p ∈ ofBools bs ↔ IsRun (fun i => bs[i]? = some true) p := by
  have scanned := (mem_scan (T := fun i => bs[i]? = some true) bs 0 (by simp)).1 (.inl rfl) p
  simpa [ofBools] using scanned

/-! ## Intervals -/

/-- Intervals that are not empty, in order, with room between them. -/
structure Intervals (l : List (Nat × Nat)) : Prop where
  pos : ∀ p ∈ l, p.1 < p.2
  sorted : l.Pairwise fun p q => p.2 < q.1

namespace Intervals

variable {l : List (Nat × Nat)}

theorem sublist {l' : List (Nat × Nat)} (int : Intervals l) (sub : l'.Sublist l) : Intervals l' where
  pos p mem := int.pos p (sub.subset mem)
  sorted := int.sorted.sublist sub

theorem left {l' : List (Nat × Nat)} (int : Intervals (l ++ l')) : Intervals l :=
  int.sublist (List.sublist_append_left l l')

theorem right {l' : List (Nat × Nat)} (int : Intervals (l ++ l')) : Intervals l' :=
  int.sublist (List.sublist_append_right l l')

/-- The first interval starts first. -/
theorem start_head_le (int : Intervals l) {h p : Nat × Nat} (head : l.head? = some h)
    (mem : p ∈ l) : h.1 ≤ p.1 := by
  cases l with
  | nil => cases mem
  | cons a l =>
    obtain rfl : a = h := by simpa using head
    rcases List.mem_cons.1 mem with rfl | later
    · exact le_refl _
    · have pos := int.pos a List.mem_cons_self
      have behind := List.rel_of_pairwise_cons int.sorted later
      omega

/-- The last interval ends last. -/
theorem end_le_last (int : Intervals l) {e p : Nat × Nat} (last : l.getLast? = some e)
    (mem : p ∈ l) : p.2 ≤ e.2 := by
  obtain ⟨front, rfl⟩ := List.getLast?_eq_some_iff.1 last
  rcases List.mem_append.1 mem with before | at_end
  · have behind := (List.pairwise_append.1 int.sorted).2.2 p before e List.mem_cons_self
    have pos := int.pos e (by simp)
    omega
  · rw [List.mem_singleton.1 at_end]

/-- Two intervals are the same, or one lies behind the other. -/
theorem trichotomy (int : Intervals l) {p q : Nat × Nat} (hp : p ∈ l) (hq : q ∈ l) :
    p = q ∨ p.2 < q.1 ∨ q.2 < p.1 := by
  obtain ⟨i, hi, rfl⟩ := List.getElem_of_mem hp
  obtain ⟨j, hj, rfl⟩ := List.getElem_of_mem hq
  have order := List.pairwise_iff_getElem.1 int.sorted
  rcases Nat.lt_trichotomy i j with lt | rfl | gt
  · exact .inr (.inl (order i j hi hj lt))
  · exact .inl rfl
  · exact .inr (.inr (order j i hj hi gt))

theorem eq_of_start (int : Intervals l) {p q : Nat × Nat} (hp : p ∈ l) (hq : q ∈ l)
    (same : p.1 = q.1) : p = q := by
  have pos := int.pos p hp
  have pos' := int.pos q hq
  rcases int.trichotomy hp hq with eq | lt | gt
  · exact eq
  · omega
  · omega

theorem eq_of_end (int : Intervals l) {p q : Nat × Nat} (hp : p ∈ l) (hq : q ∈ l)
    (same : p.2 = q.2) : p = q := by
  have pos := int.pos p hp
  have pos' := int.pos q hq
  rcases int.trichotomy hp hq with eq | lt | gt
  · exact eq
  · omega
  · omega

end Intervals

/-- What is listed from a position on lies from there on. -/
theorem intervals_scan (bs : List Bool) :
    ∀ i, (Intervals (scan i none bs) ∧ ∀ p ∈ scan i none bs, i ≤ p.1) ∧
      ∀ s < i, Intervals (scan i (some s) bs) ∧ ∀ p ∈ scan i (some s) bs, s ≤ p.1 := by
  induction bs with
  | nil =>
    intro i
    refine ⟨⟨⟨by simp [scan], by simp [scan]⟩, by simp [scan]⟩, ?_⟩
    intro s lt
    exact ⟨⟨by simpa [scan] using lt, by simp [scan]⟩, by simp [scan]⟩
  | cons b bs ih =>
    intro i
    obtain ⟨⟨int, from_next⟩, opened⟩ := ih (i + 1)
    cases b with
    | true => exact ⟨opened i (by omega), fun s lt => opened s (by omega)⟩
    | false =>
      refine ⟨⟨int, fun p mem => Nat.le_of_succ_le (from_next p mem)⟩, ?_⟩
      intro s lt
      rw [scan]
      refine ⟨⟨?_, List.Pairwise.cons ?_ int.sorted⟩, ?_⟩
      · rintro p (_ | ⟨_, later⟩)
        · exact lt
        · exact int.pos p later
      · exact fun p later => from_next p later
      · rintro p (_ | ⟨_, later⟩)
        · exact le_refl s
        · have := from_next p later
          omega

theorem intervals_ofBools (bs : List Bool) : Intervals (ofBools bs) := (intervals_scan bs 0).1.1

/-! ## Groups -/

section Groups

variable (gap : Int) (m : Nat)

/-- The second interval starts less than the gap behind the first. -/
def near (p q : Nat × Nat) : Bool := (q.1 : Int) - p.2 < gap

/-- The maximal sequences of intervals of which each is near the one before. -/
def groups (l : List (Nat × Nat)) : List (List (Nat × Nat)) := l.splitBy (near gap)

/-- From the first start to the last end. -/
def extent (g : List (Nat × Nat)) : Nat × Nat :=
  ((g.head?.getD (0, 0)).1, (g.getLast?.getD (0, 0)).2)

/-- The interval has the length. -/
def long (p : Nat × Nat) : Bool := (m : Int) ≤ p.2 - p.1

/-- The long intervals of a group reach from its start to its end, and are near each other. -/
structure Kept (g : List (Nat × Nat)) : Prop where
  first : ∀ p ∈ g.head?, long m p
  last : ∀ p ∈ g.getLast?, long m p
  chain : (g.filter (long m)).IsChain fun p q => near gap p q

variable {gap m}

theorem extent_eq {g : List (Nat × Nat)} {h e : Nat × Nat} (head : g.head? = some h)
    (last : g.getLast? = some e) : extent g = (h.1, e.2) := by
  simp [extent, head, last]

@[simp] theorem extent_singleton (p : Nat × Nat) : extent [p] = p := rfl

@[simp] theorem snd_extent_concat (g : List (Nat × Nat)) (e : Nat × Nat) :
    (extent (g ++ [e])).2 = e.2 := by
  rw [extent, List.getLast?_concat]
  rfl

@[simp] theorem fst_extent_concat (g : List (Nat × Nat)) (e p : Nat × Nat) :
    (extent (g ++ [e] ++ [p])).1 = (extent (g ++ [e])).1 := by
  cases g <;> rfl

theorem exists_ends {α : Type*} {g : List α} (ne : g ≠ []) :
    ∃ h e, g.head? = some h ∧ g.getLast? = some e :=
  ⟨g.head ne, g.getLast ne, List.head?_eq_some_head ne, List.getLast?_eq_some_getLast ne⟩

/-- An interval of a group is no longer than its extent. -/
theorem long_extent {g : List (Nat × Nat)} (int : Intervals g) {p : Nat × Nat} (mem : p ∈ g)
    (is_long : long m p) : long m (extent g) := by
  obtain ⟨h, e, head, last⟩ := exists_ends (List.ne_nil_of_mem mem)
  have low := int.start_head_le head mem
  have high := int.end_le_last last mem
  rw [extent_eq head last]
  simp only [long, decide_eq_true_eq] at is_long ⊢
  omega

/-- A group that is kept has the same extent without its short intervals. -/
theorem Kept.map_extent {g : List (Nat × Nat)} (kept : Kept gap m g) (ne : g ≠ []) :
    (groups gap (g.filter (long m))).map extent = [extent g] := by
  obtain ⟨h, e, head, last⟩ := exists_ends ne
  have head' : (g.filter (long m)).head? = some h := by
    obtain ⟨rest, rfl⟩ := List.head?_eq_some_iff.1 head
    rw [List.filter_cons_of_pos (kept.first h head)]
    rfl
  have last' : (g.filter (long m)).getLast? = some e := by
    obtain ⟨front, rfl⟩ := List.getLast?_eq_some_iff.1 last
    rw [List.filter_append, List.filter_cons_of_pos (kept.last e last)]
    simp
  have filter_ne : g.filter (long m) ≠ [] := by
    rintro empty
    simp [empty] at head'
  rw [groups, List.splitBy_of_isChain filter_ne kept.chain, List.map_singleton,
    extent_eq head' last', extent_eq head last]

/-- Only a group that is kept has. -/
theorem Kept.of_map_extent {g : List (Nat × Nat)} (int : Intervals g) (ne : g ≠ [])
    (whole : (groups gap (g.filter (long m))).map extent = [extent g]) : Kept gap m g := by
  obtain ⟨h, e, head, last⟩ := exists_ends ne
  obtain ⟨f, one, same⟩ := List.map_eq_singleton_iff.1 whole
  -- The single group is all that is left, and has both ends.
  have all : f = g.filter (long m) := by
    have flat : (groups gap (g.filter (long m))).flatten = g.filter (long m) :=
      List.flatten_splitBy _ _
    rwa [one, List.flatten_singleton] at flat
  have chain := List.isChain_of_mem_splitBy (one ▸ List.mem_singleton_self f)
  have f_ne := List.ne_nil_of_mem_splitBy (one ▸ List.mem_singleton_self f)
  obtain ⟨h', e', head', last'⟩ := exists_ends f_ne
  rw [extent_eq head last, extent_eq head' last'] at same
  have mem_h := List.mem_of_mem_head? head'
  have mem_e := List.mem_of_mem_getLast? last'
  rw [all, List.mem_filter] at mem_h mem_e
  obtain ⟨start, stop⟩ := Prod.mk.inj same
  have h_eq := int.eq_of_start mem_h.1 (List.mem_of_mem_head? head) start
  have e_eq := int.eq_of_end mem_e.1 (List.mem_of_mem_getLast? last) stop
  constructor
  · rw [head]
    rintro p ⟨⟩
    exact h_eq ▸ mem_h.2
  · rw [last]
    rintro p ⟨⟩
    exact e_eq ▸ mem_e.2
  · exact all ▸ chain

/-- What one group becomes when its short intervals are dropped first. -/
theorem map_extent_groups_filter_eq_iff {g : List (Nat × Nat)} (int : Intervals g) (ne : g ≠ []) :
    (groups gap (g.filter (long m))).map extent = [extent g].filter (long m) ↔
      (long m (extent g) → Kept gap m g) := by
  by_cases is_long : long m (extent g)
  · rw [List.filter_cons_of_pos is_long, List.filter_nil]
    constructor
    · exact fun whole _ => Kept.of_map_extent int ne whole
    · exact fun kept => (kept is_long).map_extent ne
  · rw [List.filter_cons_of_neg is_long, List.filter_nil]
    have none_long : g.filter (long m) = [] := by
      rw [List.filter_eq_nil_iff]
      exact fun p mem p_long => is_long (long_extent int mem p_long)
    simp [none_long, groups, is_long]

/-! ### One more interval -/

/-- The last group ends with the last interval. -/
theorem groups_concat (gap : Int) (l : List (Nat × Nat)) (e : Nat × Nat) :
    ∃ front g, groups gap (l ++ [e]) = front ++ [g ++ [e]] := by
  have ne : groups gap (l ++ [e]) ≠ [] := List.splitBy_ne_nil.2 (by simp)
  have last_ne := List.ne_nil_of_mem_splitBy (List.getLast_mem ne)
  have last := List.getLast_getLast_splitBy (near gap) (l := l ++ [e]) (by simp)
  refine ⟨(groups gap (l ++ [e])).dropLast, ((groups gap (l ++ [e])).getLast ne).dropLast, ?_⟩
  rw [List.getLast_append_of_ne_nil _ (by simp), List.getLast_singleton] at last
  conv_lhs => rw [← List.dropLast_concat_getLast ne, ← List.dropLast_concat_getLast last_ne]
  exact congrArg (fun a => _ ++ [_ ++ [a]]) last

/-- An interval that is near the last one joins its group. -/
theorem groups_concat_near {l g : List (Nat × Nat)} {front : List (List (Nat × Nat))}
    {e p : Nat × Nat} (now : groups gap l = front ++ [g ++ [e]]) (close : near gap e p) :
    groups gap (l ++ [p]) = front ++ [g ++ [e] ++ [p]] := by
  obtain ⟨rfl, not_empty, chains, breaks⟩ := List.splitBy_eq_iff.1 now
  refine List.splitBy_eq_iff.2 ⟨by simp, by simpa using not_empty, ?_, ?_⟩
  · intro f mem
    rcases List.mem_append.1 mem with old | new
    · exact chains f (List.mem_append_left _ old)
    · rw [List.mem_singleton.1 new, List.isChain_append]
      refine ⟨chains (g ++ [e]) (by simp), List.isChain_singleton p, ?_⟩
      simpa using close
  · rw [List.isChain_append] at breaks ⊢
    obtain ⟨apart, -, border⟩ := breaks
    refine ⟨apart, List.isChain_singleton _, ?_⟩
    intro f last f' head
    obtain rfl : g ++ [e] ++ [p] = f' := by simpa using head
    obtain ⟨ha, hb, far⟩ := border f last (g ++ [e]) rfl
    refine ⟨ha, by simp, ?_⟩
    rwa [List.head_append_of_ne_nil hb]

/-- One that is not starts a group of its own. -/
theorem groups_concat_far {l : List (Nat × Nat)} {p : Nat × Nat}
    (apart : ∀ e ∈ l.getLast?, near gap e p = false) :
    groups gap (l ++ [p]) = groups gap l ++ [[p]] := List.splitBy_append_cons [] apart

/-! ### All groups -/

/-- The groups follow one another, and no interval of one is near one of another. -/
theorem far_groups {l : List (Nat × Nat)} (int : Intervals l) :
    (groups gap l).Pairwise fun g g' => ∀ p ∈ g, ∀ q ∈ g', p.1 < q.1 ∧ near gap p q = false := by
  have whole : (groups gap l).flatten = l := List.flatten_splitBy _ l
  have not_empty : [] ∉ groups gap l := List.nil_notMem_splitBy _ l
  have breaks : (groups gap l).IsChain fun g g' =>
      ∃ hg hg', near gap (g.getLast hg) (g'.head hg') = false :=
    List.isChain_getLast_head_splitBy (near gap) l
  rw [← whole] at int
  generalize groups gap l = L at int not_empty breaks ⊢
  clear whole
  induction L with
  | nil => exact .nil
  | cons g L ih =>
    rw [List.flatten_cons] at int
    rw [List.mem_cons, not_or] at not_empty
    refine .cons ?_ (ih int.right not_empty.2 breaks.of_cons)
    intro g' later p mem q mem'
    cases L with
    | nil => cases later
    | cons g₁ L =>
      obtain ⟨hg, hg₁, apart⟩ := (List.isChain_cons_cons.1 breaks).1
      have q_mem : q ∈ (g₁ :: L).flatten := List.mem_flatten.2 ⟨g', later, mem'⟩
      have head : (g₁ :: L).flatten.head? = some (g₁.head hg₁) := by
        rw [List.flatten_cons, List.head?_append, List.head?_eq_some_head hg₁, Option.some_or]
      have p_end := int.left.end_le_last (List.getLast?_eq_some_getLast hg) mem
      have q_start := int.right.start_head_le head q_mem
      have behind := (List.pairwise_append.1 int.sorted).2.2 p mem q q_mem
      have pos := int.left.pos p mem
      refine ⟨by omega, ?_⟩
      simp only [near, decide_eq_false_iff_not, not_lt] at apart ⊢
      omega

/-- Dropping intervals leaves those of different groups apart. -/
theorem groups_filter (keep : Nat × Nat → Bool) {L : List (List (Nat × Nat))}
    (far : L.Pairwise fun g g' => ∀ p ∈ g, ∀ q ∈ g', p.1 < q.1 ∧ near gap p q = false) :
    groups gap (L.flatten.filter keep) = (L.map fun g => groups gap (g.filter keep)).flatten := by
  induction far with
  | nil => rfl
  | cons apart _ ih =>
    rw [List.flatten_cons, List.filter_append, groups, List.splitBy_append]
    · exact congrArg _ ih
    · intro p last q head
      obtain ⟨g', mem', q_mem⟩ :=
        List.mem_flatten.1 (List.mem_filter.1 (List.mem_of_mem_head? head)).1
      exact (apart g' mem' p (List.mem_filter.1 (List.mem_of_mem_getLast? last)).1 q q_mem).2

/-- Sequences are told apart from what follows them by a predicate. -/
theorem append_inj_of_forall {α : Type*} (first : α → Bool) {a a' b b' : List α}
    (ha : ∀ x ∈ a, first x) (ha' : ∀ x ∈ a', first x) (hb : ∀ x ∈ b, ¬first x)
    (hb' : ∀ x ∈ b', ¬first x) : a ++ b = a' ++ b' ↔ a = a' ∧ b = b' := by
  constructor
  · intro same
    have front := congrArg (List.filter first) same
    rw [List.filter_append, List.filter_append, List.filter_eq_self.2 ha, List.filter_eq_self.2 ha',
      List.filter_eq_nil_iff.2 hb, List.filter_eq_nil_iff.2 hb', List.append_nil,
      List.append_nil] at front
    subst front
    exact ⟨rfl, List.append_cancel_left same⟩
  · rintro ⟨rfl, rfl⟩
    rfl

/-- What groups give that start in different places is the same if each gives the same. -/
theorem flatten_map_eq_iff {L : List (List (Nat × Nat))}
    (out out' : List (Nat × Nat) → List (Nat × Nat))
    (far : L.Pairwise fun g g' => ∀ p ∈ g, ∀ q ∈ g', p.1 < q.1 ∧ near gap p q = false)
    (starts : ∀ g ∈ L, ∀ p ∈ out g, p.1 ∈ g.map Prod.fst)
    (starts' : ∀ g ∈ L, ∀ p ∈ out' g, p.1 ∈ g.map Prod.fst) :
    (L.map out).flatten = (L.map out').flatten ↔ ∀ g ∈ L, out g = out' g := by
  induction far with
  | nil => simp
  | @cons g L apart _ ih =>
    have behind : ∀ f : List (Nat × Nat) → List (Nat × Nat),
        (∀ g' ∈ L, ∀ p ∈ f g', p.1 ∈ g'.map Prod.fst) →
          ∀ p ∈ (L.map f).flatten, ¬decide (p.1 ∈ g.map Prod.fst) := by
      intro f f_starts p mem
      rw [List.mem_flatten] at mem
      obtain ⟨_, out_mem, p_mem⟩ := mem
      obtain ⟨g', mem', rfl⟩ := List.mem_map.1 out_mem
      obtain ⟨q, q_mem, q_start⟩ := List.mem_map.1 (f_starts g' mem' p p_mem)
      rw [decide_eq_true_eq, List.mem_map]
      rintro ⟨r, r_mem, r_start⟩
      have := (apart g' mem' r r_mem q q_mem).1
      omega
    rw [List.forall_mem_cons] at starts starts'
    rw [List.map_cons, List.map_cons, List.flatten_cons, List.flatten_cons,
      append_inj_of_forall (fun p => decide (p.1 ∈ g.map Prod.fst)) (by simpa using starts.1)
        (by simpa using starts'.1) (behind out starts.2) (behind out' starts'.2),
      ih starts.2 starts'.2, List.forall_mem_cons]

/-- The extent of a group starts where one of its intervals does. -/
theorem start_extent_mem {g : List (Nat × Nat)} (ne : g ≠ []) :
    (extent g).1 ∈ g.map Prod.fst := by
  obtain ⟨h, e, head, last⟩ := exists_ends ne
  have mem := List.mem_of_mem_head? head
  rw [extent_eq head last]
  exact List.mem_map.2 ⟨h, mem, rfl⟩

/-- **Dropping short intervals before grouping is dropping short extents behind it, if and only if
every group of a long extent is kept.** -/
theorem map_extent_groups_filter_iff {l : List (Nat × Nat)} (int : Intervals l) :
    (groups gap (l.filter (long m))).map extent = ((groups gap l).map extent).filter (long m) ↔
      ∀ g ∈ groups gap l, long m (extent g) → Kept gap m g := by
  have whole : (groups gap l).flatten = l := List.flatten_splitBy _ l
  have far : (groups gap l).Pairwise _ := far_groups int
  have before : (groups gap (l.filter (long m))).map extent =
      ((groups gap l).map fun g => (groups gap (g.filter (long m))).map extent).flatten := by
    conv_lhs => rw [← whole]
    rw [groups_filter _ far, List.map_flatten, List.map_map]
    rfl
  have after : ((groups gap l).map extent).filter (long m) =
      ((groups gap l).map fun g => [extent g].filter (long m)).flatten := by
    generalize groups gap l = L
    induction L with
    | nil => rfl
    | cons g L ih => rw [List.map_cons, ← List.singleton_append, List.filter_append, ih]; rfl
  rw [before, after, flatten_map_eq_iff _ _ far]
  · apply forall₂_congr
    intro g mem
    have sub : g.Sublist l := whole ▸ List.sublist_flatten_of_mem mem
    exact map_extent_groups_filter_eq_iff (int.sublist sub) (List.ne_nil_of_mem_splitBy mem)
  · intro g _ p mem
    obtain ⟨f, f_mem, rfl⟩ := List.mem_map.1 mem
    have sub : f.Sublist g := by
      have : f.Sublist (groups gap (g.filter (long m))).flatten := List.sublist_flatten_of_mem f_mem
      rw [groups, List.flatten_splitBy] at this
      exact this.trans List.filter_sublist
    exact List.map_subset _ sub.subset (start_extent_mem (List.ne_nil_of_mem_splitBy f_mem))
  · intro g mem p p_mem
    obtain rfl := List.mem_singleton.1 (List.mem_filter.1 p_mem).1
    exact start_extent_mem (List.ne_nil_of_mem_splitBy mem)

end Groups

end Runs

import Mathlib.Data.List.Chain
import Mathlib.Data.List.Induction
import Mathlib.Data.Nat.Basic

/-!
# Plateaus of a sequence

A walk along a sequence that keeps the value it is at and where it was reached,
and lists a stretch whenever the value changes. The stretches, closed with the
last one, tile what was walked: each begins where the one before it ends, has
one value, and the next has another.
-/

/-- A half-open stretch of positions and a value. -/
structure Plateau (α : Type*) where
  start : ℕ
  stop : ℕ
  value : α

namespace Plateau

variable {α β : Type*}

/-- A walk: the stretches behind it, where the one it is on begins, and its value. -/
structure Walk (α : Type*) where
  behind : List (Plateau α) := []
  start : ℕ := 0
  value : α

/-- One more position. -/
def visit [DecidableEq α] (f : ℕ → α) (w : Walk α) (i : ℕ) : Walk α :=
  if f i = w.value then w
  else ⟨w.behind ++ [⟨w.start, i, w.value⟩], i, f i⟩

/-- The walk over the first `n` positions. -/
def walk [DecidableEq α] (f : ℕ → α) (n : ℕ) : Walk α :=
  (List.range n).foldl (visit f) { value := f 0 }

/-- The stretches, with the last one closed. -/
def Walk.close (w : Walk α) (stop : ℕ) : List (Plateau α) := w.behind ++ [⟨w.start, stop, w.value⟩]

/-- Stretches that begin at `start`, each where the one before it ends, end at `stop` and have the
sequence's values; neighbours have different ones. -/
inductive Tiles (f : ℕ → α) : ℕ → ℕ → List (Plateau α) → Prop
  | last {start stop : ℕ} (le : start ≤ stop) (flat : ∀ i, start ≤ i → i < stop → f i = f start) :
      Tiles f start stop [⟨start, stop, f start⟩]
  | cons {start middle stop : ℕ} {rest : List (Plateau α)} (lt : start < middle)
      (flat : ∀ i, start ≤ i → i < middle → f i = f start) (change : f middle ≠ f start)
      (tiles : Tiles f middle stop rest) : Tiles f start stop (⟨start, middle, f start⟩ :: rest)

variable {f : ℕ → α} {start middle stop s : ℕ} {ps : List (Plateau α)}

theorem Tiles.le (h : Tiles f start stop ps) : start ≤ stop := by
  induction h with
  | last le flat => exact le
  | cons lt flat change tiles ih => exact Nat.le_trans (Nat.le_of_lt lt) ih

theorem Tiles.start_le (h : Tiles f start stop ps) : ∀ p ∈ ps, start ≤ p.start := by
  induction h with
  | last le flat =>
    intro p mem
    rw [List.mem_singleton.1 mem]
  | cons lt flat change tiles ih =>
    intro p mem
    rcases List.mem_cons.1 mem with rfl | mem
    · exact le_rfl
    · exact Nat.le_trans (Nat.le_of_lt lt) (ih p mem)

theorem Tiles.stop_le (h : Tiles f start stop ps) : ∀ p ∈ ps, p.start ≤ p.stop ∧ p.stop ≤ stop := by
  induction h with
  | last le flat =>
    intro p mem
    rw [List.mem_singleton.1 mem]
    exact ⟨le, le_rfl⟩
  | cons lt flat change tiles ih =>
    intro p mem
    rcases List.mem_cons.1 mem with rfl | mem
    · exact ⟨Nat.le_of_lt lt, tiles.le⟩
    · exact ih p mem

/-- The first stretch begins where the tiling does, and every other where one ends. -/
theorem Tiles.start_mem {p : Plateau α} (h : Tiles f start stop (ps ++ [p])) :
    ∀ q ∈ ps ++ [p], q.start = start ∨ q.start ∈ ps.map (·.stop) := by
  induction ps generalizing start with
  | nil =>
    intro q mem
    rw [List.mem_singleton.1 mem]
    cases h with
    | last le flat => exact .inl rfl
    | cons lt flat change tiles => exact .inl rfl
  | cons first ps ih =>
    intro q mem
    rw [List.cons_append] at h
    generalize same : ps ++ [p] = rest at h
    cases h with
    | last => simp at same
    | cons lt flat change tiles =>
      rcases List.mem_cons.1 mem with rfl | mem
      · exact .inl rfl
      right
      rw [List.map_cons, List.mem_cons]
      exact ih (same ▸ tiles) q mem

/-- Where a stretch ends and another begins, the value changes. -/
theorem Tiles.changes {p : Plateau α} (h : Tiles f start stop (ps ++ [p])) :
    ∀ b ∈ ps.map (·.stop), start < b ∧ f b ≠ f (b - 1) := by
  induction ps generalizing start with
  | nil => simp
  | cons first ps ih =>
    rw [List.cons_append] at h
    generalize same : ps ++ [p] = rest at h
    cases h with
    | last => simp at same
    | cons lt flat change tiles =>
      intro b mem
      rw [List.map_cons, List.mem_cons] at mem
      rcases mem with rfl | mem
      · refine ⟨lt, ?_⟩
        rw [flat (b - 1) (by omega) (by omega)]
        exact change
      · obtain ⟨later, changed⟩ := ih (same ▸ tiles) b mem
        exact ⟨Nat.lt_trans lt later, changed⟩

/-- Wherever the value changes, a stretch ends and another begins. -/
theorem Tiles.mem_of_changes {p : Plateau α} (h : Tiles f start stop (ps ++ [p])) {b : ℕ} (low : start < b)
    (high : b < stop) (changes : f b ≠ f (b - 1)) : b ∈ ps.map (·.stop) := by
  induction ps generalizing start with
  | nil =>
    cases h with
    | last le flat =>
      rw [flat b (by omega) high, flat (b - 1) (by omega) (by omega)] at changes
      exact absurd rfl changes
    | cons lt flat change tiles => cases tiles
  | cons first ps ih =>
    rw [List.cons_append] at h
    generalize same : ps ++ [p] = rest at h
    cases h with
    | last => simp at same
    | @cons _ middle _ _ lt flat change tiles =>
      rw [List.map_cons, List.mem_cons]
      rcases Nat.lt_trichotomy b middle with before | here | behind
      · rw [flat b (by omega) before, flat (b - 1) (by omega) (by omega)] at changes
        exact absurd rfl changes
      · exact .inl here
      · exact .inr (ih (same ▸ tiles) behind)

/-- The first stretch of a tiling begins where it does. -/
theorem Tiles.head_start (h : Tiles f start stop ps) : ∀ p ∈ ps.head?, p.start = start := by
  cases h <;> simp

/-- A stretch begins where the one before it ends. -/
theorem Tiles.isChain (h : Tiles f start stop ps) : ps.IsChain fun p q => p.stop = q.start := by
  induction h with
  | last le flat => exact List.isChain_singleton _
  | cons lt flat change tiles ih =>
    apply List.isChain_cons.2
    exact ⟨fun q first => (tiles.head_start q first).symm, ih⟩

/-- Every position is in one stretch, and has its value. -/
theorem Tiles.existsUnique (h : Tiles f start stop ps) {i : ℕ} (low : start ≤ i) (high : i < stop) :
    (∃ p ∈ ps, p.start ≤ i ∧ i < p.stop ∧ p.value = f i) ∧
      ∀ p ∈ ps, ∀ q ∈ ps, p.start ≤ i → i < p.stop → q.start ≤ i → i < q.stop → p = q := by
  induction h with
  | @last start stop le flat =>
    refine ⟨⟨_, List.mem_singleton_self _, low, high, (flat i low high).symm⟩, ?_⟩
    intro p mem q mem' _ _ _ _
    rw [List.mem_singleton.1 mem, List.mem_singleton.1 mem']
  | @cons start middle stop rest lt flat change tiles ih =>
    have later : ∀ q ∈ rest, middle ≤ q.start := tiles.start_le
    rcases Nat.lt_or_ge i middle with first | beyond
    · refine ⟨⟨_, List.mem_cons_self, low, first, (flat i low first).symm⟩, ?_⟩
      have only : ∀ p ∈ (⟨start, middle, f start⟩ : Plateau α) :: rest, p.start ≤ i →
          p = ⟨start, middle, f start⟩ := by
        intro p mem le
        rcases List.mem_cons.1 mem with same | mem
        · exact same
        · have := later p mem
          omega
      intro p mem q mem' le _ le' _
      rw [only p mem le, only q mem' le']
    · obtain ⟨⟨p, mem, low, high, value⟩, unique⟩ := ih beyond high
      refine ⟨⟨p, List.mem_cons_of_mem _ mem, low, high, value⟩, ?_⟩
      have only : ∀ p ∈ (⟨start, middle, f start⟩ : Plateau α) :: rest, i < p.stop → p ∈ rest := by
        intro p mem gt
        rcases List.mem_cons.1 mem with same | mem
        · rw [same] at gt
          exact absurd beyond (Nat.not_le.2 gt)
        · exact mem
      intro p mem q mem' le gt le' gt'
      exact unique p (only p mem gt) q (only q mem' gt') le gt le' gt'

/-- One more stretch behind the last. -/
theorem Tiles.concat {value : α} (h : Tiles f start middle (ps ++ [⟨s, middle, value⟩]))
    (lt : s < middle) (change : f middle ≠ value) (le : middle ≤ stop)
    (flat : ∀ i, middle ≤ i → i < stop → f i = f middle) :
    Tiles f start stop (ps ++ [⟨s, middle, value⟩] ++ [⟨middle, stop, f middle⟩]) := by
  induction ps generalizing start with
  | nil =>
    cases h with
    | last _ flat' => exact .cons lt flat' change (.last le flat)
    | cons _ _ _ tiles => cases tiles
  | cons p ps ih =>
    rw [List.cons_append] at h
    generalize same : ps ++ [⟨s, middle, value⟩] = rest at h
    cases h with
    | last => simp at same
    | cons lt' flat' change' tiles => exact .cons lt' flat' change' (ih (same ▸ tiles))

/-- What is known of a walk over the first `n` positions. -/
structure Walked (f : ℕ → α) (n : ℕ) (w : Walk α) : Prop where
  value : w.value = f w.start
  inside : w.start ≤ n - 1
  flat : ∀ i, w.start ≤ i → i < n → f i = f w.start
  tiles : ∀ stop, w.start ≤ stop → (∀ i, w.start ≤ i → i < stop → f i = f w.start) →
    Tiles f 0 stop (w.close stop)

variable [DecidableEq α]

theorem walk_succ (f : ℕ → α) (n : ℕ) : walk f (n + 1) = visit f (walk f n) n := by
  rw [walk, List.range_succ, List.foldl_append]
  rfl

theorem walked (f : ℕ → α) (n : ℕ) : Walked f n (walk f n) := by
  induction n with
  | zero => exact ⟨rfl, le_rfl, fun i _ lt => absurd lt (Nat.not_lt_zero i), fun stop le flat => .last le flat⟩
  | succ n ih =>
    obtain ⟨value, inside, flat, tiles⟩ := ih
    rw [walk_succ]
    generalize walk f n = w at value inside flat tiles
    unfold visit
    split
    next same =>
      refine ⟨value, by omega, ?_, tiles⟩
      intro i low high
      rcases Nat.lt_succ_iff_lt_or_eq.1 high with lt | rfl
      · exact flat i low lt
      · rw [same, value]
    next changed =>
      have lt : w.start < n := by
        rcases Nat.eq_zero_or_pos n with rfl | pos
        · rw [value, Nat.le_zero.1 inside] at changed
          exact absurd rfl changed
        · omega
      refine ⟨rfl, le_rfl, ?_, ?_⟩
      · intro i low high
        rw [show i = n from Nat.le_antisymm (Nat.le_of_lt_succ high) low]
      · intro stop le later
        exact (tiles n (Nat.le_of_lt lt) flat).concat lt changed le later

/-- **The stretches of a walk tile it**, also where its last position is only looked at. -/
theorem walk_tiles (f : ℕ → α) {n stop : ℕ} (low : n ≤ stop + 1) (high : stop ≤ n) :
    Tiles f 0 stop ((walk f n).close stop) := by
  obtain ⟨-, inside, flat, tiles⟩ := walked f n
  exact tiles stop (by omega) fun i le lt => flat i le (Nat.lt_of_lt_of_le lt high)

end Plateau

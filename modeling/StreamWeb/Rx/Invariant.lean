import Mathlib.Data.List.InsertIdx
import Mathlib.Data.List.Nodup
import StreamWeb.Rx.BufferSink

/-!
# The buffer holds the stream

`Rx.Inv` is the representation invariant of the receiver. Its clauses are kept
by every event (`Inv.begin`, `Inv.store`, `Inv.finish`), hence hold at every
instant of every schedule (`inv_run`). Readers use it through three facts: the
index is the resting index of what is published, a position is safe to read
until the writer has begun the position a turn later (`held_run`), and what has
been begun only grows (`begun_mono`).
-/

namespace StreamWeb.Rx

open Ring

variable {α : Type} [Zero α] {size : Nat} {x : Nat → α}

/-- The sample `i` of the call in progress, as a store. -/
def target (size : Nat) (x : Nat → α) (t i : Nat) : Nat × α := (cell size ((t : Int) + i), x (t + i))

omit [Zero α] in
/-- Both branches of `work` assign each sample to the cell of its position. -/
theorem workStores_eq (hs : 0 < size) {t n : Nat} (le : n ≤ size) :
    workStores size (rest size t) ((List.range n).map fun i => x (t + i))
      = (List.range n).map (target size x t) := by
  have rle := rest_le hs t
  unfold workStores
  simp only [List.length_map, List.length_range]
  split
  · rename_i fits
    apply List.ext_getElem
    · simp
    · intro i hi _
      have bound : i < n := by simpa using hi
      simp [target, cell_rest_add, Nat.mod_eq_of_lt (show rest size t + i < size by omega)]
  · rename_i wraps
    apply List.ext_getElem
    · simp; omega
    · intro i _ hi
      have bound : i < n := by simpa using hi
      simp only [List.getElem_append, List.length_zip, List.length_range', List.length_take,
        List.length_map, List.length_range]
      split
      · have low : rest size t + i < size := by omega
        simp [target, cell_rest_add, Nat.mod_eq_of_lt low]
      · -- past the end of the buffer: one turn is taken off the index
        have turn : (rest size t + i) % size = i - (size - rest size t) := by
          rw [show rest size t + i = (i - (size - rest size t)) + size by omega,
            Nat.add_mod_right, Nat.mod_eq_of_lt (by omega)]
        have back : size - rest size t + (i - (size - rest size t)) = i := by omega
        have short : min (size - rest size t) n = size - rest size t := by omega
        simp [target, cell_rest_add, turn, short, back]

/-- The index a call leaves is the resting index of what is then published. -/
theorem workIdx_eq (hs : 0 < size) {t n : Nat} (le : n ≤ size) :
    workIdx size (rest size t) n = rest size (t + n) := by
  have rle := rest_le hs t
  rcases Nat.eq_zero_or_pos n with rfl | pos
  · simp [workIdx]
  have mod : (rest size t + n) % size = (t + n) % size := Nat.ModEq.add_right n (rest_mod t)
  unfold workIdx
  simp only
  split
  · exact rest_unique (by omega) (by omega) (by omega) mod
  · apply rest_unique (by omega) (by omega) (by omega)
    rw [← mod, show rest size t + n = (n - (size - rest size t)) + size by omega, Nat.add_mod_right]

/-- The representation invariant; `todo` are the offsets of the call in
progress that are not stored yet. -/
structure Inv (size : Nat) (x : Nat → α) (todo : List Nat) (w : Rx α) : Prop where
  idx : w.bufWriteIdx = rest size w.published
  busy_le : w.busy ≤ size
  pending : w.pending = todo.map (target size x w.published)
  nodup : todo.Nodup
  bound : ∀ i ∈ todo, i < w.busy
  held : Holds size w.iqBuffer (sampleAt x) (w.published + w.busy - size) w.published
  stored : ∀ i < w.busy, i ∉ todo → w.iqBuffer (cell size ((w.published : Int) + i)) = x (w.published + i)
  old : ∀ i ∈ todo,
    w.iqBuffer (cell size ((w.published : Int) + i)) = sampleAt x ((w.published : Int) + i - size)

theorem inv_init (t : ℚ) : Inv size x [] (init t) where
  idx := rfl
  busy_le := Nat.zero_le _
  pending := rfl
  nodup := List.nodup_nil
  bound := by simp
  held := by
    intro p _ hp
    simp only [init, Nat.cast_zero] at hp
    simp [init, sampleAt, hp]
  stored := by simp [init]
  old := by simp

theorem Inv.begin (hs : 0 < size) {todo : List Nat} {w : Rx α} (h : Inv size x todo w) (n : Nat)
    (now : ℚ) : ∃ todo', Inv size x todo' (w.begin size x n now) := by
  unfold Rx.begin
  split
  · rename_i start
    obtain ⟨free, -, le⟩ := start
    obtain ⟨buf, idx, pub, -, -⟩ := noteGap_eq w now
    refine ⟨List.range n, ?_⟩
    constructor
    · simpa only [idx, pub] using h.idx
    · exact le
    · simp only [pub, nextSamples, h.idx]
      exact workStores_eq hs le
    · exact List.nodup_range
    · intro i hi
      exact List.mem_range.1 hi
    · simp only [buf, pub]
      refine h.held.mono ?_ (le_refl _)
      omega
    · intro i hi out
      exact absurd (List.mem_range.2 hi) out
    · intro i hi
      have lt := List.mem_range.1 hi
      simp only [buf, pub]
      rw [← cell_sub_size]
      exact h.held _ (by omega) (by omega)
  · exact ⟨todo, h⟩

/-- Offsets of one call have different cells. -/
theorem cell_offset_ne (hs : 0 < size) {t i j : Nat} (hi : i < size) (hj : j < size) (ne : i ≠ j) :
    cell size ((t : Int) + i) ≠ cell size ((t : Int) + j) := by
  rcases Nat.lt_or_gt_of_ne ne with lt | gt
  · exact cell_ne hs (by omega) (by omega)
  · exact (cell_ne hs (by omega) (by omega)).symm

/-- The offsets left after the store at index `k`. -/
theorem mem_eraseIdx_iff {todo : List Nat} {k i : Nat} (nodup : todo.Nodup)
    (here : todo[k]? = some i) (j : Nat) : j ∈ todo.eraseIdx k ↔ j ≠ i ∧ j ∈ todo := by
  obtain ⟨lt, rfl⟩ := List.getElem?_eq_some_iff.1 here
  rw [← nodup.erase_getElem k lt, nodup.mem_erase_iff]

theorem Inv.store (hs : 0 < size) {todo : List Nat} {w : Rx α} (h : Inv size x todo w) (k : Nat) :
    ∃ todo', Inv size x todo' (w.store k) := by
  cases here : todo[k]? with
  | none =>
    have gone : w.pending[k]? = none := by rw [h.pending, List.getElem?_map, here, Option.map_none]
    refine ⟨todo, ?_⟩
    simpa only [Rx.store, gone] using h
  | some i =>
    have sel : w.pending[k]? = some (target size x w.published i) := by
      rw [h.pending, List.getElem?_map, here, Option.map_some]
    have left := mem_eraseIdx_iff h.nodup here
    have mem : i ∈ todo := List.mem_of_getElem? here
    have ilt : i < size := lt_of_lt_of_le (h.bound i mem) h.busy_le
    refine ⟨todo.eraseIdx k, ?_⟩
    simp only [Rx.store, sel]
    constructor
    · exact h.idx
    · exact h.busy_le
    · simp only [h.pending, List.eraseIdx_map]
    · exact h.nodup.eraseIdx k
    · intro j hj
      exact h.bound j ((left j).1 hj).2
    · show Holds size (Function.update w.iqBuffer (cell size ((w.published : Int) + i)) _) _ _ _
      have := h.bound i mem
      refine h.held.update hs ?_ ?_ _
      · omega
      · omega
    · intro j hj out
      by_cases same : j = i
      · subst same
        simp [target]
      · have notin : j ∉ todo := fun hj' => out ((left j).2 ⟨same, hj'⟩)
        have jlt : j < size := lt_of_lt_of_le hj h.busy_le
        show Function.update w.iqBuffer (cell size ((w.published : Int) + i)) _ _ = _
        rw [Function.update_of_ne (cell_offset_ne hs jlt ilt same)]
        exact h.stored j hj notin
    · intro j hj
      obtain ⟨ne, hj'⟩ := (left j).1 hj
      have jlt : j < size := lt_of_lt_of_le (h.bound j hj') h.busy_le
      show Function.update w.iqBuffer (cell size ((w.published : Int) + i)) _ _ = _
      rw [Function.update_of_ne (cell_offset_ne hs jlt ilt ne)]
      exact h.old j hj'

/-! ## The end of a call -/

omit [Zero α] in
/-- The stores that are left write their samples and nothing else. -/
theorem storeAll_target (hs : 0 < size) {t : Nat} :
    ∀ (todo : List Nat) (buf : Nat → α), (∀ i ∈ todo, i < size) → todo.Nodup →
      (∀ i ∈ todo, storeAll buf (todo.map (target size x t)) (cell size ((t : Int) + i)) = x (t + i)) ∧
      ∀ c, (∀ i ∈ todo, c ≠ cell size ((t : Int) + i)) →
        storeAll buf (todo.map (target size x t)) c = buf c := by
  intro todo
  induction todo with
  | nil =>
    intro buf _ _
    simp [storeAll]
  | cons j todo ih =>
    intro buf lt nodup
    obtain ⟨fresh, nodup'⟩ := List.nodup_cons.1 nodup
    have jlt := lt j List.mem_cons_self
    obtain ⟨made, kept⟩ := ih (Function.update buf (cell size ((t : Int) + j)) (x (t + j)))
      (fun i hi => lt i (List.mem_cons_of_mem j hi)) nodup'
    constructor
    · intro i hi
      rcases List.mem_cons.1 hi with rfl | hi'
      · -- no later store of the call goes to this cell
        have apart : ∀ i' ∈ todo, cell size ((t : Int) + i) ≠ cell size ((t : Int) + i') := by
          intro i' hi'
          apply cell_offset_ne hs jlt (lt i' (List.mem_cons_of_mem i hi'))
          rintro rfl
          exact fresh hi'
        have := kept _ apart
        simpa [storeAll, target] using this
      · exact made i hi'
    · intro c away
      have step := kept c fun i hi => away i (List.mem_cons_of_mem j hi)
      rw [Function.update_of_ne (away j List.mem_cons_self)] at step
      exact step

theorem Inv.finish (hs : 0 < size) {todo : List Nat} {w : Rx α} (h : Inv size x todo w) :
    Inv size x [] (w.finish size) := by
  have bound : ∀ i ∈ todo, i < size := fun i hi => lt_of_lt_of_le (h.bound i hi) h.busy_le
  obtain ⟨made, kept⟩ := storeAll_target (x := x) hs (t := w.published) todo w.iqBuffer bound h.nodup
  have busy_le := h.busy_le
  constructor
  · simp only [Rx.finish, h.idx]
    exact workIdx_eq hs h.busy_le
  · simp [Rx.finish]
  · simp [Rx.finish]
  · exact List.nodup_nil
  · simp
  · intro p low high
    simp only [Rx.finish, Nat.cast_zero, add_zero, Nat.cast_add] at low high ⊢
    rw [h.pending]
    by_cases before : p < w.published
    · -- a position of an earlier call: its cell is not among those stored
      rw [kept]
      · exact h.held p low before
      · intro i hi
        have := h.bound i hi
        exact cell_ne hs (by omega) (by omega)
    · obtain ⟨i, rfl⟩ : ∃ i : Nat, p = w.published + i := ⟨(p - w.published).toNat, by omega⟩
      have lt : i < w.busy := by omega
      have value : sampleAt x ((w.published : Int) + i) = x (w.published + i) := by
        rw [← Nat.cast_add, sampleAt_nat]
      rw [value]
      by_cases hi : i ∈ todo
      · exact made i hi
      · rw [kept]
        · exact h.stored i lt hi
        · intro j hj
          refine cell_offset_ne hs (by omega) (bound j hj) ?_
          rintro rfl
          exact hi hj
  · simp [Rx.finish]
  · simp

/-! ## Runs -/

theorem inv_step (hs : 0 < size) {todo : List Nat} {w : Rx α} (h : Inv size x todo w)
    (e : RxEvent) : ∃ todo', Inv size x todo' (w.step size x e) := by
  cases e with
  | idle => exact ⟨todo, h⟩
  | begin n now => exact h.begin hs n now
  | store i => exact h.store hs i
  | finish => exact ⟨[], h.finish hs⟩

/-- **At every instant the receiver is in its invariant.** -/
theorem inv_run (hs : 0 < size) (S : Schedule) (t : Nat) : ∃ todo, Inv size x todo (run size x S t) := by
  induction t with
  | zero => exact ⟨[], inv_init S.startTime⟩
  | succ t ih =>
    obtain ⟨todo, h⟩ := ih
    exact inv_step hs h (S.events t)

/-- What is held at an instant: everything published, as far back as the
writer has not begun the position a turn later. -/
theorem held_run (hs : 0 < size) (S : Schedule) (t : Nat) :
    Holds size (run size x S t).iqBuffer (sampleAt x) ((run size x S t).begun - size)
      (run size x S t).published := by
  obtain ⟨todo, h⟩ := inv_run (x := x) hs S t
  refine h.held.mono ?_ (le_refl _)
  simp [begun]

theorem idx_run (hs : 0 < size) (S : Schedule) (t : Nat) :
    (run size x S t).bufWriteIdx = rest size (run size x S t).published := by
  obtain ⟨todo, h⟩ := inv_run (x := x) hs S t
  exact h.idx

omit [Zero α] in
/-- A step publishes no more than was begun, takes nothing back, and never
runs more than a turn ahead of the index. -/
theorem step_mono (w : Rx α) (e : RxEvent) :
    w.published ≤ (w.step size x e).published ∧ w.begun ≤ (w.step size x e).begun ∧
      ((w.step size x e).published ≤ w.begun) := by
  cases e with
  | idle => simp [step, begun]
  | begin n now =>
    simp only [step, begun, begin_published, begin_busy]
    split <;> omega
  | store i => simp [step, begun]
  | finish => simp [step, begun]

theorem published_mono (size : Nat) (x : Nat → α) (S : Schedule) {t u : Nat} (le : t ≤ u) :
    (run size x S t).published ≤ (run size x S u).published := by
  induction u, le using Nat.le_induction with
  | base => exact le_refl _
  | succ u _ ih => exact le_trans ih (step_mono _ _).1

theorem begun_mono (size : Nat) (x : Nat → α) (S : Schedule) {t u : Nat} (le : t ≤ u) :
    (run size x S t).begun ≤ (run size x S u).begun := by
  induction u, le using Nat.le_induction with
  | base => exact le_refl _
  | succ u _ ih => exact le_trans ih (step_mono _ _).2.1

omit [Zero α] in
theorem published_le_begun (w : Rx α) : w.published ≤ w.begun := Nat.le_add_right _ _

/-- **A cell is safe to read at any instant** at which its position is
published and the position a turn later is not begun. -/
theorem read_run (hs : 0 < size) (S : Schedule) {t u v : Nat} (after : t ≤ u) (before : u ≤ v) {p : Int}
    (pub : p < (run size x S t).published) (safe : (run size x S v).begun ≤ p + size) :
    (run size x S u).iqBuffer (cell size p) = sampleAt x p := by
  have hp := published_mono size x S after
  have hb := begun_mono size x S before
  exact held_run hs S u p (by omega) (by omega)

end StreamWeb.Rx

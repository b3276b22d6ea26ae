import Mathlib.Data.Int.ModEq
import Mathlib.Logic.Function.Basic
import Mathlib.Tactic.Ring

/-!
# Stream positions in a ring of cells

A stream of positions (integers, the negative ones before its start) is kept
in a ring of `n` cells. `cell n p` is the cell of position `p`; positions less
than `n` apart have different cells. `Holds n mem x lo hi` says that the cells
of `[lo, hi)` hold the stream `x`. `rest n t` is the index a writer rests at
after `t` positions when it wraps only in front of the next write, so it rests
at `n` and not at 0 on a full turn.
-/

namespace Ring

variable {α : Type*} {n : Nat}

/-- The cell of a position. -/
def cell (n : Nat) (p : Int) : Nat := (p % n).toNat

theorem cell_cast (hn : 0 < n) (p : Int) : (cell n p : Int) = p % n :=
  Int.toNat_of_nonneg (Int.emod_nonneg p (by omega))

theorem cell_lt (hn : 0 < n) (p : Int) : cell n p < n := by
  have upper := Int.emod_lt_of_pos p (show (0 : Int) < n by omega)
  have cast := cell_cast hn p
  omega

theorem cell_nat (p : Nat) : cell n p = p % n := by
  rw [cell, ← Int.natCast_mod, Int.toNat_natCast]

theorem cell_eq_iff (hn : 0 < n) {p q : Int} : cell n p = cell n q ↔ p % n = q % n := by
  rw [← cell_cast hn p, ← cell_cast hn q]
  omega

@[simp] theorem cell_sub_size (p : Int) : cell n (p - n) = cell n p := by
  rw [cell, Int.sub_emod_right, cell]

theorem cell_add_size (p : Int) : cell n (p + n) = cell n p := by
  rw [cell, Int.add_emod_right, cell]

theorem cell_of_lt {p : Int} (low : 0 ≤ p) (high : p < n) : cell n p = p.toNat := by
  rw [cell, Int.emod_eq_of_lt low high]

/-- A step of `i` cells from the cell of `p`. -/
theorem cell_add (hn : 0 < n) (p : Int) (i : Nat) : cell n (p + i) = (cell n p + i) % n := by
  have cast : ((cell n (p + i) : Nat) : Int) = ((cell n p + i) % n : Nat) := by
    rw [cell_cast hn, Int.natCast_mod, Nat.cast_add, cell_cast hn, Int.emod_add_emod]
  exact_mod_cast cast

/-- Different positions less than a turn apart have different cells. -/
theorem cell_ne (hn : 0 < n) {p q : Int} (lt : p < q) (close : q < p + n) :
    cell n p ≠ cell n q := by
  intro same
  have dvd : (n : Int) ∣ q - p := Int.ModEq.dvd ((cell_eq_iff hn).1 same)
  have := Int.le_of_dvd (by omega) dvd
  omega

/-- The cells of the positions `[lo, hi)` hold the stream. -/
def Holds (n : Nat) (mem : Nat → α) (x : Int → α) (lo hi : Int) : Prop :=
  ∀ p, lo ≤ p → p < hi → mem (cell n p) = x p

theorem Holds.mono {mem : Nat → α} {x : Int → α} {lo hi lo' hi' : Int} (h : Holds n mem x lo hi)
    (low : lo ≤ lo') (high : hi' ≤ hi) : Holds n mem x lo' hi' :=
  fun p hp hq => h p (by omega) (by omega)

/-- A store to the cell of a later position, still within a turn of `lo`,
keeps what is held. -/
theorem Holds.update {mem : Nat → α} {x : Int → α} {lo hi q : Int} (hn : 0 < n)
    (h : Holds n mem x lo hi) (later : hi ≤ q) (close : q < lo + n) (v : α) :
    Holds n (Function.update mem (cell n q) v) x lo hi := by
  intro p hp hq
  rw [Function.update_of_ne (cell_ne hn (by omega) (by omega))]
  exact h p hp hq

/-! ## The resting index -/

/-- The write index after `t` positions. -/
def rest (n t : Nat) : Nat := if t = 0 then 0 else (t - 1) % n + 1

theorem rest_le (hn : 0 < n) (t : Nat) : rest n t ≤ n := by
  unfold rest
  split
  · omega
  · have := Nat.mod_lt (t - 1) hn
    omega

theorem rest_mod (t : Nat) : rest n t % n = t % n := by
  unfold rest
  split
  · rename_i zero
    rw [zero]
  · rw [Nat.mod_add_mod, Nat.sub_add_cancel (by omega)]

theorem rest_pos {t : Nat} (ht : 0 < t) : 0 < rest n t := by
  rw [rest, if_neg (by omega)]
  omega

/-- The resting index is determined by its residue, except that only the start
rests at 0. -/
theorem rest_unique {t i : Nat} (le : i ≤ n) (pos : 0 < t) (ipos : 0 < i) (same : i % n = t % n) :
    i = rest n t := by
  have le' := rest_le (show 0 < n by omega) t
  have pos' := rest_pos (n := n) pos
  have mod := rest_mod (n := n) t
  have cong : i ≡ rest n t [MOD n] := by rw [Nat.ModEq, same, mod]
  rcases Nat.lt_trichotomy i (rest n t) with lt | eq | gt
  · have := (Nat.modEq_iff_dvd' lt.le).1 cong
    have := Nat.le_of_dvd (by omega) this
    omega
  · exact eq
  · have := (Nat.modEq_iff_dvd' gt.le).1 cong.symm
    have := Nat.le_of_dvd (by omega) this
    omega

/-- The position `d` away from the resting index lies `d` cells away. -/
theorem cell_rest (t : Nat) (d : Int) : cell n ((rest n t : Int) + d) = cell n ((t : Int) + d) := by
  have same : (rest n t : Int) ≡ t [ZMOD n] := by
    rw [Int.natCast_modEq_iff]
    exact rest_mod t
  exact congrArg Int.toNat (same.add_right d)

theorem cell_rest_add (t i : Nat) : cell n ((t : Int) + i) = (rest n t + i) % n := by
  rw [← cell_rest, ← Nat.cast_add, cell_nat]

/-! ## Windows copied in one slice or two -/

/-- `mem[lo:hi]`. -/
def slice (mem : Nat → α) (lo hi : Nat) : List α := (List.range' lo (hi - lo)).map mem

/-- A window from `start` to `stop` around the end of the ring. -/
def window (n start stop : Nat) (mem : Nat → α) : List α :=
  if start < stop then slice mem start stop else slice mem start n ++ slice mem 0 stop

/-- Either way a window is its cells in order. -/
theorem window_eq {start stop k : Nat} (le : start ≤ n) (pos : 0 < k) (lt : k < n)
    (ends : start + k = stop ∧ stop ≤ n ∨ start + k = stop + n) (mem : Nat → α) :
    window n start stop mem = (List.range k).map fun i => mem ((start + i) % n) := by
  unfold window
  rcases ends with ⟨straight, fits⟩ | wraps
  · rw [if_pos (by omega)]
    apply List.ext_getElem
    · simp [slice]
      omega
    · intro i hi _
      have bound : i < k := by simp [slice] at hi; omega
      simp [slice, Nat.mod_eq_of_lt (show start + i < n by omega)]
  · rw [if_neg (by omega)]
    apply List.ext_getElem
    · simp [slice]
      omega
    · intro i hi _
      have bound : i < k := by simp [slice] at hi; omega
      simp only [slice, List.getElem_append, List.length_map, List.length_range',
        List.getElem_map, List.getElem_range', List.getElem_range]
      split
      · rw [Nat.mod_eq_of_lt (by omega)]
        congr 1
        omega
      · -- the second slice starts where the first met the end
        rw [Nat.mod_eq_sub_mod (by omega), Nat.mod_eq_of_lt (by omega)]
        congr 1
        omega

end Ring

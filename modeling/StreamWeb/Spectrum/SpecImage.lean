import StreamWeb.Processor.HistoryDrift

/-!
# The spectrogram picture and its boxes

`render_spec_image` sets the columns of the chunks side by side, pads them on
the left to the full width and scales the picture; over it it draws a box for
each entry of the detection history, placed by the entry's distance from the
right edge and its frequency. `boxes_mark_packets` says where the boxes are in
every cycle of a run: within a column, as the places are computed in floats.

The colours, and what the boxes' labels look like, are left out. Of the scaling
it is a parameter which columns of the source count in a column of the picture.
-/

namespace StreamWeb.Spectrum

open Config Processor Py

/-! ## The picture -/

section Columns

variable {γ : Type*}

/-- The columns of `Sxx_dB`, padded to the width of `MAX_SPEC_CHUNKS` chunks. -/
def specColumns (pad : γ) (chunks : List (List γ)) : List γ :=
  let sxxAll := chunks.flatten
  let fullCols := maxSpecChunks * (chunks.headD []).length
  if sxxAll.length < fullCols then List.replicate (fullCols - sxxAll.length) pad ++ sxxAll else sxxAll

end Columns

/-- `Image.resize` with `BILINEAR`, across: `weighsIn columns x j` says that column `j` of `columns` counts
in column `x` of the picture. The filter is a triangle around the middle of `x`, to each side as wide as
a column of the source, or of the picture where that one is wider. -/
def Bilinear (weighsIn : ℕ → ℕ → ℕ → Prop) : Prop :=
  ∀ columns x j : ℕ, x < specImgWidth → j < columns →
    |((j : ℚ) + 1 / 2) - (x + 1 / 2) * columns / specImgWidth| < max 1 ((columns : ℚ) / specImgWidth) →
    weighsIn columns x j

/-! ## The boxes -/

/-- What is drawn for a detection: the corners of the rectangle, its colour, and the label with its place. -/
structure DetectionBox where
  x0 : ℤ
  y0 : ℤ
  x1 : ℤ
  y1 : ℤ
  color : ℕ × ℕ × ℕ
  label : Option (String × ℤ × ℤ)
  deriving DecidableEq

/-- `box_h` -/
def boxH : ℤ := 20

section Entry

variable (det : HistoryEntry)

def boxX0 : ℤ :=
  Py.int (double (double (double (specDurationS - det.offsetFromRight) / specDurationS) * specImgWidth))

def boxW : ℤ := max 4 (Py.int (double (double (det.signalDurationS / specDurationS) * specImgWidth)))

def yCenter : ℤ := Py.int (double (double (1 / 2 - double (det.freqHz / sampleRate)) * specImgHeight))

/-- The body of the loop over the detections: nothing is drawn beside the picture. -/
def detectionBox : Option DetectionBox :=
  let x0 := boxX0 det
  let x1 := min ((specImgWidth : ℤ) - 1) (x0 + boxW det)
  if x1 < 0 ∨ specImgWidth ≤ x0 then none
  else
    let y0 := max 0 (yCenter det - boxH / 2)
    some {
      x0, y0, x1
      y1 := min ((specImgHeight : ℤ) - 1) (yCenter det + boxH / 2)
      color := if det.phyVer = -1 then (255, 200, 0) else (255, 50, 50)
      label := if det.chipset = "" then none else some (det.chipset, max 0 (x0 + 3), max 0 (y0 - 18)) }

end Entry

/-- The boxes of a cycle's picture. -/
def detectionBoxes (detections : List HistoryEntry) : List DetectionBox := detections.filterMap detectionBox

/-- The columns of a chunk in the scaled picture. -/
def stripeWidth : ℕ := specImgWidth / maxSpecChunks

theorem stripeWidth_eq : stripeWidth = 60 := by
  rw [stripeWidth, maxSpecChunks_eq, specImgWidth]

/-! ## Where a column of the picture comes from -/

section Columns

variable {γ : Type*} {chunks : List (List γ)} {w : ℕ}

theorem length_flatten_of_widths (widths : ∀ chunk ∈ chunks, chunk.length = w) :
    chunks.flatten.length = chunks.length * w := by
  induction chunks with
  | nil => simp
  | cons chunk chunks ih =>
    rw [List.flatten_cons, List.length_append, ih fun l mem => widths l (List.mem_cons_of_mem _ mem),
      widths chunk List.mem_cons_self, List.length_cons]
    ring

/-- The picture has the full width, and its right end is that of the chunks. -/
theorem specColumns_right (pad : γ) (some_chunk : chunks ≠ []) (few : chunks.length ≤ maxSpecChunks)
    (widths : ∀ chunk ∈ chunks, chunk.length = w) :
    (specColumns pad chunks).length = maxSpecChunks * w ∧
      ∀ i < chunks.length * w, (specColumns pad chunks).reverse[i]? = chunks.flatten.reverse[i]? := by
  have length := length_flatten_of_widths widths
  have bound : chunks.length * w ≤ maxSpecChunks * w := Nat.mul_le_mul_right w few
  have first : (chunks.headD []).length = w := by
    cases chunks with
    | nil => exact absurd rfl some_chunk
    | cons chunk chunks => exact widths chunk List.mem_cons_self
  unfold specColumns
  dsimp only
  rw [first, length]
  split
  · constructor
    · rw [List.length_append, List.length_replicate, length]
      omega
    · intro i inside
      rw [List.reverse_append, List.getElem?_append_left (by rwa [List.length_reverse, length])]
  · rw [length]
    exact ⟨by omega, fun i _ => rfl⟩

/-- The source's column under the middle of the picture's column `x`. -/
def sourceColumn (columns x : ℕ) : ℕ := (2 * x + 1) * columns / (2 * specImgWidth)

theorem weighsIn_sourceColumn {weighsIn : ℕ → ℕ → ℕ → Prop} (bilinear : Bilinear weighsIn) {columns x : ℕ}
    (some_column : 0 < columns) (inside : x < specImgWidth) :
    sourceColumn columns x < columns ∧ weighsIn columns x (sourceColumn columns x) := by
  have within : sourceColumn columns x < columns := by
    apply Nat.div_lt_of_lt_mul
    apply Nat.mul_lt_mul_of_pos_right _ some_column
    omega
  refine ⟨within, bilinear columns x _ inside within ?_⟩
  have middle : ((x : ℚ) + 1 / 2) * columns / specImgWidth =
      (((2 * x + 1) * columns : ℕ) : ℚ) / ((2 * specImgWidth : ℕ) : ℚ) := by
    norm_num [specImgWidth]
    ring
  have floor : ((sourceColumn columns x : ℕ) : ℤ) =
      ⌊(((2 * x + 1) * columns : ℕ) : ℚ) / ((2 * specImgWidth : ℕ) : ℚ)⌋ :=
    (Rat.floor_natCast_div_natCast _ _).symm
  have low := Int.floor_le ((((2 * x + 1) * columns : ℕ) : ℚ) / ((2 * specImgWidth : ℕ) : ℚ))
  have high := Int.lt_floor_add_one ((((2 * x + 1) * columns : ℕ) : ℚ) / ((2 * specImgWidth : ℕ) : ℚ))
  rw [← floor, Int.cast_natCast] at low high
  rw [middle]
  apply lt_of_lt_of_le _ (le_max_left _ _)
  rw [abs_lt]
  constructor <;> linarith

/-- The stripe of the picture's column `x`, counted from the right, is that of the source's column. -/
theorem stripe_sourceColumn (pos : 0 < w) {x : ℕ} (inside : x < specImgWidth) :
    (maxSpecChunks * w - 1 - sourceColumn (maxSpecChunks * w) x) / w = (specImgWidth - 1 - x) / stripeWidth := by
  have source : sourceColumn (maxSpecChunks * w) x = (2 * x + 1) * w / 120 := by
    rw [sourceColumn, maxSpecChunks_eq, specImgWidth, ← Nat.mul_assoc, Nat.mul_comm (2 * x + 1) 20,
      Nat.mul_assoc, show 2 * 1200 = 20 * 120 by rfl, Nat.mul_div_mul_left _ _ (by omega : 0 < 20)]
  have quotient : (2 * x + 1) * w / 120 / w = x / 60 := by
    rw [Nat.div_div_eq_div_mul, Nat.mul_div_mul_right (2 * x + 1) 120 pos]
    omega
  rw [source, maxSpecChunks_eq, stripeWidth_eq]
  unfold specImgWidth at inside ⊢
  have whole := Nat.div_add_mod ((2 * x + 1) * w / 120) w
  have rest := Nat.mod_lt ((2 * x + 1) * w / 120) pos
  rw [quotient] at whole
  generalize (2 * x + 1) * w / 120 = q at *
  obtain ⟨back, total⟩ : ∃ back, x / 60 + back = 19 := ⟨19 - x / 60, by omega⟩
  have stripes : w * (x / 60) + w * back = 19 * w := by
    rw [← Nat.mul_add, total, Nat.mul_comm]
  have stripe : (1200 - 1 - x) / 60 = back := by omega
  rw [stripe]
  apply Nat.div_eq_of_lt_le
  · rw [Nat.mul_comm]
    omega
  · rw [Nat.add_mul, Nat.mul_comm back w]
    omega

/-- In the picture's column `x` a column counts of the chunk that has the stripe of `x`. -/
theorem exists_weighsIn {weighsIn : ℕ → ℕ → ℕ → Prop} (bilinear : Bilinear weighsIn) (pad : γ) (pos : 0 < w)
    (few : chunks.length ≤ maxSpecChunks) (widths : ∀ chunk ∈ chunks, chunk.length = w) {x : ℕ}
    (inside : x < specImgWidth) {chunk : List γ}
    (there : chunks.reverse[(specImgWidth - 1 - x) / stripeWidth]? = some chunk) :
    ∃ j, weighsIn (specColumns pad chunks).length x j ∧
      ∃ col ∈ chunk, (specColumns pad chunks)[j]? = some col := by
  have listed : chunk ∈ chunks := List.mem_reverse.1 (List.mem_of_getElem? there)
  obtain ⟨length, right⟩ := specColumns_right pad (List.ne_nil_of_mem listed) few widths
  have some_column : 0 < maxSpecChunks * w := by
    rw [maxSpecChunks_eq]
    omega
  obtain ⟨column, counts⟩ := weighsIn_sourceColumn bilinear some_column inside
  rw [← stripe_sourceColumn pos inside] at there
  have behind : (maxSpecChunks * w - 1 - sourceColumn (maxSpecChunks * w) x) / w < chunks.length := by
    obtain ⟨near, -⟩ := List.getElem?_eq_some_iff.1 there
    rwa [List.length_reverse] at near
  have near := (Nat.div_lt_iff_lt_mul pos).1 behind
  have within : (maxSpecChunks * w - 1 - sourceColumn (maxSpecChunks * w) x) % w < chunk.reverse.length := by
    rw [List.length_reverse, widths chunk listed]
    exact Nat.mod_lt _ pos
  have same := right _ near
  rw [List.getElem?_reverse (by rw [length]; omega), length,
    List.getElem?_reverse_flatten pos widths, there, Option.bind_some, List.getElem?_eq_getElem within] at same
  rw [length]
  refine ⟨_, counts, _, List.mem_reverse.1 (List.getElem_mem within), ?_⟩
  rw [← same]
  congr 1
  omega

end Columns

/-! ## The place of a box -/

/-- Places that are less than a column apart. -/
theorem abs_floor_sub_le {x y : ℚ} (close : |x - y| < 1) : |⌊x⌋ - ⌊y⌋| ≤ 1 := by
  have low := Int.floor_le x
  have high := Int.lt_floor_add_one x
  have low' := Int.floor_le y
  have high' := Int.lt_floor_add_one y
  rw [abs_lt] at close
  have up : ((⌊x⌋ : ℤ) : ℚ) < ((⌊y⌋ + 2 : ℤ) : ℚ) := by
    push_cast
    linarith
  have down : ((⌊y⌋ : ℤ) : ℚ) < ((⌊x⌋ + 2 : ℤ) : ℚ) := by
    push_cast
    linarith
  have up := Int.cast_lt.1 up
  have down := Int.cast_lt.1 down
  rw [abs_le]
  omega

/-- The place of a box, as it is computed. -/
def place (offset : ℚ) : ℚ := double (double (double (specDurationS - offset) / specDurationS) * specImgWidth)

theorem abs_place_sub_le {offset : ℚ} (right : 0 ≤ offset) (left : offset ≤ specDurationS) :
    0 ≤ place offset ∧ |place offset - (1200 - 120 * offset)| ≤ 1 / 10 ^ 9 := by
  have width : ((specImgWidth : ℕ) : ℚ) = 1200 := rfl
  rw [place, width]
  unfold specDurationS at *
  have nonneg : 0 ≤ double (10 - offset) := double_nonneg (by linarith)
  have distance := abs_double_sub_le_drift (x := 10 - offset) (by linarith) (by linarith)
  generalize double (10 - offset) = a at *
  have small : drift ≤ 1 / 10 ^ 14 := by norm_num [drift]
  rw [abs_le] at distance
  have nonneg' : 0 ≤ double (a / 10) := double_nonneg (by linarith)
  have part := abs_double_sub_le_drift (x := a / 10) (by linarith) (by linarith)
  generalize double (a / 10) = b at *
  rw [abs_le] at part
  have scaled : |double (b * 1200) - b * 1200| ≤ 1 / 10 ^ 10 := by
    apply abs_double_sub_le_of_le
    rw [abs_le]
    constructor <;> linarith
  rw [abs_le] at scaled
  refine ⟨double_nonneg (by linarith), ?_⟩
  rw [abs_le]
  constructor <;> linarith

section Box

variable {e e' : HistoryEntry}

theorem boxX0_eq (placed : Placed e) : boxX0 e = ⌊place e.offsetFromRight⌋ := by
  have right := placed.right
  obtain ⟨nonneg, -⟩ := abs_place_sub_le (by linarith) placed.left
  rw [boxX0, ← place, Py.int, if_pos nonneg]

/-- The left edge is in the picture. -/
theorem boxX0_bounds (placed : Placed e) : 0 ≤ boxX0 e ∧ boxX0 e < specImgWidth := by
  have right := placed.right
  obtain ⟨nonneg, error⟩ := abs_place_sub_le (by linarith) placed.left
  rw [abs_le] at error
  rw [boxX0_eq placed]
  constructor
  · exact Int.floor_nonneg.2 nonneg
  · apply Int.floor_lt.2
    norm_num [specImgWidth]
    linarith

theorem yCenter_bounds (placed : Placed e) : 0 ≤ yCenter e ∧ yCenter e ≤ specImgHeight := by
  obtain ⟨low, high⟩ := abs_le.1 placed.band
  have rate := sampleRate_pos
  have height : ((specImgHeight : ℕ) : ℚ) = 200 := rfl
  unfold yCenter
  rw [height]
  have half : double (1 / 2) = 1 / 2 := by
    have := double_eq_self (m := 1) (e := -1) (by norm_num)
    norm_num at this ⊢
    exact this
  have up : double (e.freqHz / sampleRate) ≤ 1 / 2 := by
    rw [← half]
    apply double_mono
    rw [div_le_iff₀ rate]
    linarith
  have down : -(1 / 2) ≤ double (e.freqHz / sampleRate) := by
    rw [← half, ← double_neg]
    apply double_mono
    rw [le_div_iff₀ rate]
    linarith
  generalize double (e.freqHz / sampleRate) = f at *
  have whole : ∀ m : ℤ, |m| < 2 ^ 53 → double m = m := fun m few => double_intCast few
  have share : 0 ≤ double (1 / 2 - f) ∧ double (1 / 2 - f) ≤ 1 := by
    constructor
    · exact double_nonneg (by linarith)
    · have one := whole 1 (by norm_num)
      rw [Int.cast_one] at one
      rw [← one]
      apply double_mono
      linarith
  generalize double (1 / 2 - f) = y at *
  have nonneg : 0 ≤ double (y * 200) := double_nonneg (by linarith)
  have bound : double (y * 200) ≤ double (200 : ℤ) := by
    apply double_mono
    push_cast
    linarith
  rw [double_intCast (by norm_num)] at bound
  rw [Py.int, if_pos nonneg]
  exact ⟨Int.floor_nonneg.2 nonneg, Int.floor_le_iff.2 (bound.trans_lt (by norm_num [specImgHeight]))⟩

/-- The box is in the picture, starts at the entry's column and has its row. -/
structure Marks (e : HistoryEntry) (b : DetectionBox) : Prop where
  left : b.x0 = boxX0 e
  columns : 0 ≤ b.x0 ∧ b.x0 ≤ b.x1 ∧ b.x1 < specImgWidth
  rows : 0 ≤ b.y0 ∧ b.y0 ≤ b.y1 ∧ b.y1 < specImgHeight
  row : b.y0 ≤ yCenter e ∧ min ((specImgHeight : ℤ) - 1) (yCenter e) ≤ b.y1

theorem exists_marks (placed : Placed e) : ∃ b, detectionBox e = some b ∧ Marks e b := by
  obtain ⟨low, high⟩ := boxX0_bounds placed
  obtain ⟨top, bottom⟩ := yCenter_bounds placed
  have wide : 4 ≤ boxW e := le_max_left _ _
  have width : (specImgWidth : ℤ) = 1200 := rfl
  have height : (specImgHeight : ℤ) = 200 := rfl
  unfold detectionBox
  dsimp only
  rw [if_neg (by omega)]
  refine ⟨_, rfl, rfl, ?_, ?_, ?_⟩ <;> dsimp only [boxH] <;> omega

/-- There is a box for each entry, in order. -/
theorem detectionBoxes_mark {history : List HistoryEntry} (placed : ∀ e ∈ history, Placed e) :
    List.Forall₂ Marks history (detectionBoxes history) := by
  induction history with
  | nil => exact List.Forall₂.nil
  | cons e history ih =>
    obtain ⟨b, drawn, marks⟩ := exists_marks (placed e List.mem_cons_self)
    rw [detectionBoxes, List.filterMap_cons_some drawn]
    exact List.Forall₂.cons marks (ih fun e' mem => placed e' (List.mem_cons_of_mem _ mem))

/-- The place of a box whose offset has drifted. -/
theorem abs_place_sub_le_of_drift (placed : Placed e) (offset : ℚ)
    (drifted : |e.offsetFromRight - offset| ≤ 30 * drift) :
    |place e.offsetFromRight - (1200 - 120 * offset)| ≤ 1 / 10 ^ 8 := by
  have right := placed.right
  obtain ⟨-, error⟩ := abs_place_sub_le (by linarith) placed.left
  norm_num [drift] at drifted
  rw [abs_le] at error drifted ⊢
  constructor <;> linarith

theorem yCenter_shifted (e : HistoryEntry) (k : ℕ) : yCenter (e.shifted k) = yCenter e := by
  rw [yCenter, yCenter, freqHz_shifted]

theorem placed_shifted (placed : Placed e) {k : ℕ} (narrow : (e.shifted k).offsetFromRight ≤ specDurationS) :
    Placed (e.shifted k) := by
  have right := placed.right
  have grown := (abs_shifted_sub_le (by linarith) narrow).2
  have cycles : (0 : ℚ) ≤ k := Nat.cast_nonneg k
  refine ⟨by linarith, narrow, ?_⟩
  rw [freqHz_shifted]
  exact placed.band

/-- **The boxes scroll with the picture**: by a stripe a cycle, within a column. -/
theorem abs_scroll_le (placed : Placed e) {k : ℕ} (narrow : (e.shifted k).offsetFromRight ≤ specDurationS) :
    |boxX0 (e.shifted k) - (boxX0 e - k * stripeWidth)| ≤ 1 := by
  have right := placed.right
  have later := placed_shifted placed narrow
  obtain ⟨lost, -⟩ := abs_shifted_sub_le (by linarith) narrow
  have few : (k : ℚ) ≤ 25 := by exact_mod_cast age_le (by linarith) narrow
  have small : (k : ℚ) * drift ≤ 30 * drift := by
    apply mul_le_mul_of_nonneg_right
    · linarith
    · norm_num [drift]
  have here := abs_place_sub_le_of_drift placed e.offsetFromRight (by norm_num [drift])
  have there := abs_place_sub_le_of_drift later _ (lost.trans small)
  have columns : boxX0 e - k * stripeWidth = ⌊place e.offsetFromRight - ((k * 60 : ℤ) : ℚ)⌋ := by
    rw [Int.floor_sub_intCast, boxX0_eq placed, stripeWidth_eq]
    rfl
  rw [columns, boxX0_eq later]
  apply abs_floor_sub_le
  push_cast
  rw [abs_le] at here there
  rw [abs_lt]
  constructor <;> linarith

-- A box can go by a column more than the picture.
example :
    let e := (detectionAt (double (6 / 5))).entryWith double
    [boxX0 e, boxX0 (e.shifted 1), boxX0 (e.shifted 2)] = [1164, 1104, 1043] := by
  decide +kernel

/-- The boxes of two entries that are apart. -/
theorem boxes_apart (placed : Placed e) (placed' : Placed e') (apart : Apart e e') :
    17 ≤ |boxX0 e - boxX0 e'| ∨ 5000 ≤ |double (e.freqHz - e'.freqHz)| := by
  refine apart.imp_left fun far => ?_
  have left' := placed'.left
  have here := abs_place_sub_le_of_drift placed e.offsetFromRight (by norm_num [drift])
  have there := abs_place_sub_le_of_drift placed' e'.offsetFromRight (by norm_num [drift])
  norm_num [drift, specDurationS] at far left'
  have wide : 149 / 1000 ≤ |e.offsetFromRight - e'.offsetFromRight| := by linarith
  rw [boxX0_eq placed, boxX0_eq placed']
  rw [abs_le] at here there
  have low := Int.floor_le (place e.offsetFromRight)
  have high := Int.lt_floor_add_one (place e.offsetFromRight)
  have low' := Int.floor_le (place e'.offsetFromRight)
  have high' := Int.lt_floor_add_one (place e'.offsetFromRight)
  rw [le_abs]
  rcases le_abs.1 wide with behind | ahead
  · right
    have step : ((16 : ℤ) : ℚ) < ((⌊place e'.offsetFromRight⌋ - ⌊place e.offsetFromRight⌋ : ℤ) : ℚ) := by
      push_cast
      linarith
    have := Int.cast_lt.1 step
    omega
  · left
    have step : ((16 : ℤ) : ℚ) < ((⌊place e.offsetFromRight⌋ - ⌊place e'.offsetFromRight⌋ : ℤ) : ℚ) := by
      push_cast
      linarith
    have := Int.cast_lt.1 step
    omega

end Box

/-! ## The chunk at a place -/

/-- The column at an offset, in exact arithmetic. -/
def columnAt (offset : ℚ) : ℤ := ⌊1200 - 120 * offset⌋

theorem columnAt_eq (offset : ℚ) : columnAt offset = 1200 - ⌈120 * offset⌉ := by
  have split : 1200 - 120 * offset = ((1200 : ℤ) : ℚ) + -(120 * offset) := by
    push_cast
    ring
  rw [columnAt, split, Int.floor_intCast_add, Int.floor_neg]
  ring

theorem ceil_mul_sub_one_div {m : ℤ} (pos : 0 < m) (y : ℚ) : (⌈m * y⌉ - 1) / m = ⌈y⌉ - 1 := by
  have scale : (0 : ℚ) < m := by exact_mod_cast pos
  apply le_antisymm
  · apply Int.le_sub_one_of_lt
    apply Int.ediv_lt_of_lt_mul pos
    apply Int.sub_one_lt_of_le
    rw [Int.ceil_le]
    push_cast
    rw [mul_comm]
    exact mul_le_mul_of_nonneg_right (Int.le_ceil y) scale.le
  · apply Int.le_ediv_of_mul_le pos
    apply Int.le_sub_one_of_lt
    rw [Int.lt_ceil]
    push_cast
    rw [mul_comm (m : ℚ)]
    apply mul_lt_mul_of_pos_right _ scale
    linarith [Int.ceil_lt_add_one y]

/-- It is in the stripe of the chunk that shows the place. -/
theorem columnAt_stripe {offset : ℚ} (right : 0 < offset) (left : offset ≤ specDurationS) :
    0 ≤ columnAt offset ∧ columnAt offset < specImgWidth ∧
      (specImgWidth - 1 - (columnAt offset).toNat) / stripeWidth
        = (⌈offset * sampleRate⌉ - 1).toNat / specChunkSamples := by
  have pixels := ceil_mul_sub_one_div (by norm_num : (0 : ℤ) < 60) (2 * offset)
  have samples := ceil_mul_sub_one_div (by norm_num : (0 : ℤ) < 390625) (2 * offset)
  have pixel : ((60 : ℤ) : ℚ) * (2 * offset) = 120 * offset := by
    push_cast
    ring
  have sample : ((390625 : ℤ) : ℚ) * (2 * offset) = offset * sampleRate := by
    norm_num [sampleRate]
    ring
  rw [pixel] at pixels
  rw [sample] at samples
  have some_sample : 1 ≤ ⌈offset * sampleRate⌉ := by
    apply Int.one_le_ceil_iff.2
    exact mul_pos right sampleRate_pos
  have low : 1 ≤ ⌈120 * offset⌉ := by
    apply Int.one_le_ceil_iff.2
    linarith
  have high : ⌈120 * offset⌉ ≤ 1200 := by
    apply Int.ceil_le.2
    unfold specDurationS at left
    push_cast
    linarith
  rw [columnAt_eq, stripeWidth_eq, specChunkSamples_eq]
  unfold specImgWidth
  omega

/-! ## Every cycle's picture -/

/-- The chunks of a cycle's picture: each whole, and no more than the picture has stripes. -/
theorem specChunks_fit (cycles : ℕ → SpecCycle) (n : ℕ) :
    (beforeWith double cycles n).specChunks.length ≤ maxSpecChunks ∧
      ∀ chunk ∈ (beforeWith double cycles n).specChunks, chunk.length = specChunkSamples := by
  induction n with
  | zero =>
    refine ⟨Nat.zero_le _, ?_⟩
    intro chunk mem
    cases mem
  | succ n ih =>
    rw [beforeWith, specCycleWith]
    dsimp only
    split
    · constructor
      · rw [List.rtake, List.length_drop]
        omega
      · intro chunk mem
        rcases List.mem_append.1 ((List.rtake_sublist _ _).subset mem) with old | new
        · exact ih.2 chunk old
        · rw [List.mem_singleton.1 new, lastPositions, List.length_map, List.length_range]
    · exact ih

/-- The chunk that shows a position. -/
theorem exists_chunk_of_displayed {chunks : List (List ℤ)}
    (whole : ∀ chunk ∈ chunks, chunk.length = specChunkSamples) {distance : ℚ} {p : ℤ}
    (shown : displayed chunks distance = some p) :
    ∃ chunk, chunks.reverse[(⌈distance * sampleRate⌉ - 1).toNat / specChunkSamples]? = some chunk ∧ p ∈ chunk := by
  unfold displayed at shown
  split at shown
  · rw [List.getElem?_reverse_flatten specChunkSamples_pos whole] at shown
    obtain ⟨chunk, there, at_place⟩ := Option.bind_eq_some_iff.1 shown
    exact ⟨chunk, there, List.mem_reverse.1 (List.mem_of_getElem? at_place)⟩
  · cases shown

/-- The packet starts at a position of the decode window, and its time is the float that says which. -/
structure Timed (c : SpecCycle) (det : Detection) (start : ℤ) : Prop where
  inside : c.published - decodeSamples ≤ start
  arrived : start < c.published
  time : det.timeS = double ((start - (c.published - decodeSamples) : ℤ) / sampleRate)

/-- In exact arithmetic. -/
def Detection.exactly (det : Detection) (c : SpecCycle) (start : ℤ) : Detection :=
  { det with timeS := (start - (c.published - decodeSamples) : ℤ) / sampleRate }

theorem Timed.exactly {c : SpecCycle} {det : Detection} {start : ℤ} (timed : Timed c det start) :
    Exact c (Detection.exactly det c start) start := ⟨timed.inside, timed.arrived, rfl⟩

section Timed

variable {c : SpecCycle} {det : Detection} {start : ℤ} {k : ℕ}

/-- The offset of its entry, against the exact one. -/
theorem Timed.abs_offset_sub_le (timed : Timed c det start) (heard : Heard det)
    (narrow : ((det.entryWith double).shifted k).offsetFromRight ≤ specDurationS) :
    |((det.entryWith double).shifted k).offsetFromRight
      - ((Detection.exactly det c start).entry.aged k).offsetFromRight| ≤ 30 * drift := by
  obtain ⟨inside, arrived, time⟩ := timed
  obtain ⟨low, high⟩ := heard.inside
  have right := heard.placed.right
  have window : (0 : ℚ) ≤ ((start - (c.published - decodeSamples) : ℤ) : ℚ) / sampleRate ∧
      ((start - (c.published - decodeSamples) : ℤ) : ℚ) / sampleRate ≤ 2 := by
    rw [decodeSamples_eq] at *
    constructor
    · apply div_nonneg _ sampleRate_pos.le
      exact_mod_cast (by omega : (0 : ℤ) ≤ start - (c.published - (1171875 : ℕ)))
    · rw [div_le_iff₀ sampleRate_pos]
      have : start - (c.published - (1171875 : ℕ)) ≤ 2 * (sampleRate : ℤ) := by
        unfold sampleRate
        omega
      exact_mod_cast this
  have timed := abs_double_sub_le_drift (by linarith [window.1]) (by linarith [window.2])
  have offset := abs_double_sub_le_drift (x := decodeWindowS - det.timeS)
    (by unfold decodeWindowS at *; linarith) (by unfold decodeWindowS at *; linarith)
  have lost := (abs_shifted_sub_le (by linarith) narrow).1
  have few : (k : ℚ) ≤ 25 := by exact_mod_cast age_le (by linarith) narrow
  have small : (k : ℚ) * drift ≤ 25 * drift := mul_le_mul_of_nonneg_right few (by norm_num [drift])
  have lost := lost.trans small
  have offset : |(det.entryWith double).offsetFromRight - (decodeWindowS - det.timeS)| ≤ drift := offset
  rw [← time] at timed
  rw [HistoryEntry.offset_aged, Detection.offset_entry, Detection.exactly]
  dsimp only
  unfold specChunkS
  have nonneg : 0 < drift := by norm_num [drift]
  rw [abs_le] at timed offset lost ⊢
  constructor <;> linarith

/-- Listed in floats, it is in the picture. -/
theorem Timed.narrow (timed : Timed c det start) (heard : Heard det)
    (narrow : ((det.entryWith double).shifted k).offsetFromRight ≤ specDurationS) :
    0 < ((Detection.exactly det c start).entry.aged k).offsetFromRight ∧
      ((Detection.exactly det c start).entry.aged k).offsetFromRight ≤ specDurationS := by
  have close := timed.abs_offset_sub_le heard narrow
  rw [timed.exactly.offset_eq] at close ⊢
  generalize samples_eq : (c.published - 1 - start).toNat + k * specChunkSamples + 1 = samples at *
  have rate := sampleRate_pos
  have some_sample : 0 < samples := by omega
  constructor
  · positivity
  · -- the offset is of whole samples, and a sample is more than what is lost
    have few : (samples : ℚ) / sampleRate ≤ specDurationS + 30 * drift := by
      have := (abs_le.1 close).1
      linarith
    rw [div_le_iff₀ rate] at few ⊢
    have bound : (samples : ℚ) < (7812501 : ℕ) := by
      rw [Nat.cast_ofNat]
      norm_num [specDurationS, drift, sampleRate] at few
      linarith only [few]
    have bound := Nat.cast_lt.1 bound
    have whole : (samples : ℚ) ≤ (7812500 : ℕ) := Nat.cast_le.2 (by omega)
    rw [Nat.cast_ofNat] at whole
    norm_num [specDurationS, sampleRate] at whole ⊢
    exact whole

end Timed

/-- The first sample of a packet of the last chunk is shown at its exact offset, in a steady run. -/
theorem Timed.exists_chunk {cycles : ℕ → SpecCycle} (steady : Steady cycles) {m k : ℕ} {det : Detection}
    {start : ℤ} (timed : Timed (cycles m) det start) (recent : (cycles m).published - specChunkSamples ≤ start)
    (narrow : ((Detection.exactly det (cycles m) start).entry.aged k).offsetFromRight ≤ specDurationS) :
    ∃ chunk, (renderedWith double cycles (m + k)).specChunks.reverse[
        (⌈((Detection.exactly det (cycles m) start).entry.aged k).offsetFromRight * sampleRate⌉ - 1).toNat
          / specChunkSamples]? = some chunk ∧ start ∈ chunk := by
  have arrived := timed.arrived
  have newest : ((cycles m).published - 1 - start).toNat / specChunkSamples = 0 := by
    rw [specChunkSamples_eq] at recent ⊢
    omega
  have shown := steady.displayed_box timed.exactly narrow
  rw [newest] at shown
  dsimp only at shown
  have same : (rendered cycles (m + k)).specChunks = (renderedWith double cycles (m + k)).specChunks :=
    (specChunks_beforeWith double cycles (m + k + 1)).symm
  rw [if_pos (Nat.zero_le m), Nat.cast_zero, zero_mul, sub_zero, same] at shown
  exact exists_chunk_of_displayed (specChunks_fit cycles (m + k + 1)).2 shown

/-- Its box starts within a column of one in which that chunk counts. -/
theorem Timed.exists_column {γ : Type*} {weighsIn : ℕ → ℕ → ℕ → Prop} (bilinear : Bilinear weighsIn)
    {computeSpecChunk : List ℤ → List γ} (pad : γ) {w : ℕ} (pos : 0 < w)
    (widths : ∀ chunk : List ℤ, chunk.length = specChunkSamples → (computeSpecChunk chunk).length = w)
    {cycles : ℕ → SpecCycle} (steady : Steady cycles) {m k : ℕ} {det : Detection} {start : ℤ}
    (timed : Timed (cycles m) det start) (heard : Heard det)
    (recent : (cycles m).published - specChunkSamples ≤ start)
    (entry : Placed ((det.entryWith double).shifted k)) :
    ∃ chunk ∈ (renderedWith double cycles (m + k)).specChunks, start ∈ chunk ∧ ∃ x < specImgWidth,
      |boxX0 ((det.entryWith double).shifted k) - x| ≤ 1 ∧
        ∃ j, weighsIn
            (specColumns pad ((renderedWith double cycles (m + k)).specChunks.map computeSpecChunk)).length x j ∧
          ∃ col ∈ computeSpecChunk chunk,
            (specColumns pad ((renderedWith double cycles (m + k)).specChunks.map computeSpecChunk))[j]? = some col := by
  obtain ⟨right, left⟩ := timed.narrow heard entry.left
  obtain ⟨chunk, there, shows_start⟩ := timed.exists_chunk steady recent left
  obtain ⟨few, whole⟩ := specChunks_fit cycles (m + k + 1)
  rw [← renderedWith] at few whole
  obtain ⟨low, high, stripe⟩ := columnAt_stripe right left
  rw [← stripe] at there
  have near := abs_place_sub_le_of_drift entry _ (timed.abs_offset_sub_le heard entry.left)
  generalize ((Detection.exactly det (cycles m) start).entry.aged k).offsetFromRight = offset at *
  generalize (renderedWith double cycles (m + k)).specChunks = chunks at *
  have shown_array : (chunks.map computeSpecChunk).reverse[
      (specImgWidth - 1 - (columnAt offset).toNat) / stripeWidth]? = some (computeSpecChunk chunk) := by
    rw [← List.map_reverse, List.getElem?_map, there, Option.map_some]
  have arrays : ∀ array ∈ chunks.map computeSpecChunk, array.length = w := by
    intro array mem
    obtain ⟨chunk, listed, rfl⟩ := List.mem_map.1 mem
    exact widths chunk (whole chunk listed)
  have inside : (columnAt offset).toNat < specImgWidth := by omega
  obtain ⟨j, counts, col, of_chunk, source⟩ := exists_weighsIn bilinear pad pos
    (by rwa [List.length_map]) arrays inside shown_array
  refine ⟨chunk, List.mem_reverse.1 (List.mem_of_getElem? there), shows_start, _, inside, ?_, j, counts, col,
    of_chunk, source⟩
  rw [Int.toNat_of_nonneg low, boxX0_eq entry]
  apply abs_floor_sub_le
  apply near.trans_lt
  norm_num

/-- **The boxes mark the packets.** In every run of the cycles whose detections are of their windows and of
the band, every cycle's picture has a box inside the picture for each entry of the history, in order; no
two boxes start within 17 columns of each other with frequencies within 5 kHz; an entry is listed until it
leaves the picture, and its box goes left by a stripe a cycle, as the picture does, within a column. In a
steady run the box of a packet that started within the last chunk of its decode window starts, in every
picture, within a column of one in which the chunk counts that has the packet's first sample. -/
theorem boxes_mark_packets {γ : Type*} (weighsIn : ℕ → ℕ → ℕ → Prop) (bilinear : Bilinear weighsIn)
    (computeSpecChunk : List ℤ → List γ) (pad : γ) (w : ℕ) (pos : 0 < w)
    (widths : ∀ chunk : List ℤ, chunk.length = specChunkSamples → (computeSpecChunk chunk).length = w)
    (cycles : ℕ → SpecCycle) (heard : ∀ n, ∀ det ∈ (cycles n).detections, Heard det) (n : ℕ) :
    let history := (renderedWith double cycles n).detectionHistory
    let chunks := (renderedWith double cycles n).specChunks
    let picture := specColumns pad (chunks.map computeSpecChunk)
    List.Forall₂ Marks history (detectionBoxes history) ∧
      history.Pairwise (fun e e' => 17 ≤ |boxX0 e - boxX0 e'| ∨ 5000 ≤ |double (e.freqHz - e'.freqHz)|) ∧
      (∀ e ∈ history, ∀ k, (e.shifted k).offsetFromRight ≤ specDurationS →
        e.shifted k ∈ (renderedWith double cycles (n + k)).detectionHistory ∧
          |boxX0 (e.shifted k) - (boxX0 e - k * stripeWidth)| ≤ 1 ∧ yCenter (e.shifted k) = yCenter e) ∧
      (Steady cycles → ∀ m ≤ n, ∀ det ∈ addedInWith double cycles m, ∀ start, Timed (cycles m) det start →
        (cycles m).published - specChunkSamples ≤ start →
        (det.entryWith double).shifted (n - m) ∈ history →
          ∃ chunk ∈ chunks, start ∈ chunk ∧ ∃ x < specImgWidth,
            |boxX0 ((det.entryWith double).shifted (n - m)) - x| ≤ 1 ∧
              ∃ j, weighsIn picture.length x j ∧ ∃ col ∈ computeSpecChunk chunk, picture[j]? = some col) := by
  intro history chunks picture
  have listed : Listed history := listed_run heard (n + 1)
  refine ⟨detectionBoxes_mark listed.placed, ?_, ?_, ?_⟩
  · apply listed.apart.imp_of_mem
    intro e e' mem mem' apart
    exact boxes_apart (listed.placed e mem) (listed.placed e' mem') apart
  · intro e mem k narrow
    exact ⟨listed_shifted mem narrow, abs_scroll_le (listed.placed e mem) narrow, yCenter_shifted e k⟩
  · intro steady m le det added start timed recent here
    have entry := listed.placed _ here
    have told := heard m det ((addedWith_sublist double _ _).subset added)
    obtain ⟨k, rfl⟩ := Nat.exists_eq_add_of_le le
    rw [Nat.add_sub_cancel_left] at *
    exact timed.exists_column bilinear pad pos widths steady told recent entry

/-- What counts under a triangle. -/
def triangle (columns x j : ℕ) : Prop :=
  |((j : ℚ) + 1 / 2) - (x + 1 / 2) * columns / specImgWidth| < max 1 ((columns : ℚ) / specImgWidth)

/-- The packet of the second cycle, two cycles later, in pictures with one column for a chunk. -/
theorem boxes_mark_packets_late :
    let chunks := (renderedWith double (oneDetection (double (6 / 5))) 3).specChunks
    let picture := specColumns 0 (chunks.map fun chunk => [chunk.sum])
    ∃ chunk ∈ chunks, 1406250 ∈ chunk ∧ ∃ x < specImgWidth, |1043 - (x : ℤ)| ≤ 1 ∧
      ∃ j, triangle picture.length x j ∧ ∃ col ∈ [chunk.sum], picture[j]? = some col := by
  have heard : ∀ n, ∀ det ∈ (oneDetection (double (6 / 5)) n).detections, Heard det := by
    intro n det mem
    unfold oneDetection at mem
    split at mem
    · rw [List.mem_singleton.1 mem]
      constructor
      · decide +kernel
      · decide +kernel
    · cases mem
  have published : (oneDetection (double (6 / 5)) 1).published = 1640625 := by
    rw [oneDetection, decodeSamples_eq, decodeIntervalSamples_eq]
    norm_num
  have added : detectionAt (double (6 / 5)) ∈ addedInWith double (oneDetection (double (6 / 5))) 1 := by
    simp [addedInWith, stillListedWith, beforeWith, specCycleWith, oneDetection, ageHistoryWith, addedWith,
      isDupWith]
  have timed : Timed (oneDetection (double (6 / 5)) 1) (detectionAt (double (6 / 5))) 1406250 := by
    constructor
    · rw [published, decodeSamples_eq]
      norm_num
    · rw [published]
      norm_num
    · rw [published, decodeSamples_eq]
      norm_num [detectionAt, sampleRate]
  have listed : ((detectionAt (double (6 / 5))).entryWith double).shifted 2 ∈
      (renderedWith double (oneDetection (double (6 / 5))) 3).detectionHistory := by
    apply listed_shifted (n := 1) (k := 2) _ (by decide +kernel)
    rw [renderedWith, history_succWith]
    exact List.mem_append_right _ (List.mem_map_of_mem added)
  obtain ⟨-, -, -, marked⟩ := boxes_mark_packets triangle (fun _ _ _ _ _ under => under)
    (fun chunk => [chunk.sum]) 0 1 Nat.one_pos (fun _ _ => rfl) (oneDetection (double (6 / 5))) heard 3
  have column : boxX0 (((detectionAt (double (6 / 5))).entryWith double).shifted 2) = 1043 := by decide +kernel
  rw [← column]
  refine marked (oneDetection_steady _) 1 (by omega) _ added 1406250 timed ?_ listed
  rw [published, specChunkSamples_eq]
  norm_num

end StreamWeb.Spectrum

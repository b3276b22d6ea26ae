import StreamWeb.Config
import StreamWeb.Lib.Plateaus
import Mathlib.Tactic.Ring

/-!
# The hop overlay

`_draw_decoder_overlay` marks in the spectrogram of a capture where the packet
starts, where it hops, and on which channel each of its symbols is expected. The
channels come from a walk along the hopping sequence that adds up the frequency
as it goes; what is drawn is what the sequence says of each symbol alone.
-/

namespace StreamWeb.Spectrum

open Config

/-- Constants of the decoder package that the overlay reads. -/
structure HopConstants where
  hoppingSeqs : List (List ℤ)
  synthRes : String → Option ℚ
  numSymPerHop : ℕ

/-- The keys of `decode_info` that the overlay reads. -/
structure OverlayInfo where
  startSample : ℤ
  f0Hz : Option ℚ
  channelNum : Option ℤ
  hopSeqIdx : Option ℤ
  chipset : Option String
  /-- Without the key it is `0`; with `None` the sum of the symbols raises. -/
  numPduSymbols : Option (Option ℕ)

inductive OverlayError where
  | typeError
  | indexError
  | zeroDivisionError
  deriving DecidableEq

/-- `(sym_start, sym_end, channel, f0)` -/
structure HopSegment where
  symStart : ℕ
  symEnd : ℕ
  channel : ℤ
  f0 : ℚ
  deriving DecidableEq

/-- The locals of the walk through the hops. -/
structure HopWalk where
  curCh : ℤ
  f0Cur : ℚ
  hopBoundarySyms : List ℕ := []
  segments : List HopSegment := []
  segStart : ℕ := 0

/-- One turn of the loop, with the channel of each symbol. -/
def HopWalk.visit (channelAt : ℕ → ℤ) (qStep : ℚ) (w : HopWalk) (symAbs : ℕ) : HopWalk :=
  let nxt := channelAt symAbs
  if nxt ≠ w.curCh then
    { segments := w.segments ++ [⟨w.segStart, symAbs, w.curCh, w.f0Cur⟩]
      hopBoundarySyms := w.hopBoundarySyms ++ [symAbs]
      f0Cur := w.f0Cur + (nxt - w.curCh) * qStep
      curCh := nxt
      segStart := symAbs }
  else w

/-- What is drawn of a segment. -/
structure HopLine where
  /-- The vertical line, where the segment starts at a hop. -/
  boundaryMs : Option ℚ
  t0Ms : ℚ
  t1Ms : ℚ
  f0KHz : ℚ
  f63KHz : ℚ
  label : String
  deriving DecidableEq

/-- The segments with what they are drawn with. -/
structure HopOverlay where
  tStartMs : ℚ
  segments : List HopSegment
  hopBoundarySyms : List ℕ
  lines : List HopLine
  deriving DecidableEq

/-- `seq[i]`; an index below zero counts from the end. -/
def getItem {α : Type} (seq : List α) (i : ℤ) : Except OverlayError α :=
  match if 0 ≤ i then seq[i.toNat]?
    else if 0 ≤ i + seq.length then seq[(i + seq.length).toNat]? else none with
  | some a => .ok a
  | none => .error .indexError

/-- `hop_seq[(hop_index + sym_abs // sym_per_hop) % len(hop_seq)]` -/
def hopChannel (hopSeq : List ℤ) (hopIndex symPerHop symAbs : ℕ) : ℤ :=
  hopSeq.getD ((hopIndex + symAbs / symPerHop) % hopSeq.length) 0

/-- `q_step` -/
def qStep (synthRes : ℚ) : ℚ := Py.round (channelSpacing / |synthRes|) * |synthRes|

/-- The walk over `range(total_syms + 1)`, with the last segment closed. -/
def hopSegments (channelAt : ℕ → ℤ) (q : ℚ) (channelNum : ℤ) (f0Hz : ℚ) (totalSyms : ℕ) :
    List HopSegment × List ℕ :=
  let w := (List.range (totalSyms + 1)).foldl (HopWalk.visit channelAt q)
    { curCh := channelNum, f0Cur := f0Hz }
  (w.segments ++ [⟨w.segStart, totalSyms, w.curCh, w.f0Cur⟩], w.hopBoundarySyms)

/-- `(start + sym * slot + half_sym) / sr * 1e3` -/
def symbolMs (K : DecoderConstants) (start : ℤ) (sym : ℕ) : ℚ :=
  (start + sym * K.slotSamples1 + (K.samplesPerSymbol : ℚ) / 2) / sampleRate * 1000

/-- What is drawn of a segment. -/
def hopLine (K : DecoderConstants) (start : ℤ) (synthRes : ℚ) (boundaries : List ℕ)
    (seg : HopSegment) : HopLine where
  boundaryMs := if seg.symStart ∈ boundaries then some (symbolMs K start seg.symStart) else none
  t0Ms := symbolMs K start seg.symStart
  t1Ms := symbolMs K start seg.symEnd
  f0KHz := seg.f0 / 1000
  f63KHz := (seg.f0 + 63 * |synthRes|) / 1000
  label := "ch" ++ toString seg.channel

/-- `_draw_decoder_overlay`; `none` where it returns before it draws. -/
def drawDecoderOverlay (K : DecoderConstants) (H : HopConstants) (info : OverlayInfo) :
    Except OverlayError (Option HopOverlay) :=
  match info.f0Hz, info.channelNum, info.hopSeqIdx with
  | some f0Hz, some channelNum, some hopSeqIdx =>
    if (H.hoppingSeqs.length : ℤ) ≤ hopSeqIdx then .ok none
    else
      let synthRes := (info.chipset.bind H.synthRes).getD 400
      if synthRes = 0 then .error .zeroDivisionError
      else
        match getItem H.hoppingSeqs hopSeqIdx with
        | .error e => .error e
        | .ok hopSeq =>
          if channelNum ∉ hopSeq then .ok none
          else
            match info.numPduSymbols.getD (some 0) with
            | none => .error .typeError
            | some numPdu =>
              if H.numSymPerHop = 0 then .error .zeroDivisionError
              else
                let drawn := hopSegments
                  (hopChannel hopSeq (hopSeq.idxOf channelNum) H.numSymPerHop) (qStep synthRes)
                  channelNum f0Hz (K.preambleLen + K.numHeaderSyms + numPdu)
                .ok (some
                  { tStartMs := symbolMs K info.startSample 0
                    segments := drawn.1
                    hopBoundarySyms := drawn.2
                    lines := drawn.1.map (hopLine K info.startSample synthRes drawn.2) })
  | _, _, _ => .ok none

/-! ## The walk -/

variable {channelAt : ℕ → ℤ} {q f0Hz : ℚ} {channelNum : ℤ} {totalSyms : ℕ}

/-- A segment without its frequency. -/
def HopSegment.plateau (seg : HopSegment) : Plateau ℤ := ⟨seg.symStart, seg.symEnd, seg.channel⟩

/-- The frequency of a channel, from that of the packet's own. -/
def channelF0 (q f0Hz : ℚ) (channelNum channel : ℤ) : ℚ := f0Hz + (channel - channelNum) * q

/-- The walk keeps the stretches of the sequence, and what it adds up is the channel's frequency. -/
structure Follows (q f0Hz : ℚ) (channelNum : ℤ) (v : Plateau.Walk ℤ) (w : HopWalk) : Prop where
  segments : w.segments.map HopSegment.plateau = v.behind
  boundaries : w.hopBoundarySyms = v.behind.map (·.stop)
  segStart : w.segStart = v.start
  curCh : w.curCh = v.value
  f0Cur : w.f0Cur = channelF0 q f0Hz channelNum w.curCh
  f0 : ∀ seg ∈ w.segments, seg.f0 = channelF0 q f0Hz channelNum seg.channel

theorem Follows.visit {v : Plateau.Walk ℤ} {w : HopWalk} (h : Follows q f0Hz channelNum v w) (i : ℕ) :
    Follows q f0Hz channelNum (Plateau.visit channelAt v i) (w.visit channelAt q i) := by
  obtain ⟨segments, boundaries, segStart, curCh, f0Cur, f0⟩ := h
  simp only [HopWalk.visit, Plateau.visit, curCh]
  by_cases same : channelAt i = v.value
  · rw [if_neg (not_not.2 same), if_pos same]
    exact ⟨segments, boundaries, segStart, curCh, f0Cur, f0⟩
  · rw [if_pos same, if_neg same]
    refine ⟨?_, ?_, rfl, rfl, ?_, ?_⟩
    · simp [segments, HopSegment.plateau, segStart]
    · simp [boundaries]
    · simp only [f0Cur, curCh, channelF0]
      ring
    · intro seg mem
      rcases List.mem_append.1 mem with old | new
      · exact f0 seg old
      · rw [List.mem_singleton.1 new]
        simp only [f0Cur, curCh]

theorem follows_walk (q f0Hz : ℚ) (first : channelAt 0 = channelNum) (n : ℕ) :
    Follows q f0Hz channelNum (Plateau.walk channelAt n)
      ((List.range n).foldl (HopWalk.visit channelAt q) { curCh := channelNum, f0Cur := f0Hz }) := by
  induction n with
  | zero => exact ⟨rfl, rfl, rfl, first.symm, by simp [channelF0], by simp⟩
  | succ n ih =>
    rw [Plateau.walk_succ, List.range_succ, List.foldl_append]
    exact ih.visit n

/-- **What is drawn is what the sequence says of each symbol.** -/
structure DrawsHops (channelAt : ℕ → ℤ) (symPerHop totalSyms : ℕ) (q f0Hz : ℚ) (channelNum : ℤ)
    (segments : List HopSegment) (boundaries : List ℕ) : Prop where
  /-- A symbol is in one segment, which has its channel and the channel's frequency. -/
  symbol : ∀ i < totalSyms, ∃ seg ∈ segments, seg.symStart ≤ i ∧ i < seg.symEnd ∧
    seg.channel = channelAt i ∧ seg.f0 = channelF0 q f0Hz channelNum (channelAt i) ∧
    ∀ seg' ∈ segments, seg'.symStart ≤ i → i < seg'.symEnd → seg' = seg
  /-- The segments follow each other. -/
  chain : segments.IsChain fun seg seg' => seg.symEnd = seg'.symStart
  inside : ∀ seg ∈ segments, seg.symStart ≤ seg.symEnd ∧ seg.symEnd ≤ totalSyms
  /-- Every segment but the first starts at a boundary. -/
  boundary : ∀ seg ∈ segments, seg.symStart ∈ boundaries ↔ 0 < seg.symStart
  /-- A boundary is where a hop is and the channel changes. -/
  hop : ∀ b, b ∈ boundaries ↔
    0 < b ∧ b ≤ totalSyms ∧ symPerHop ∣ b ∧ channelAt b ≠ channelAt (b - 1)

/-- Symbols on both sides of a place that is not a multiple are of one hop. -/
theorem dvd_of_changes {hopSeq : List ℤ} {hopIndex symPerHop b : ℕ} (pos : 0 < b)
    (changes : hopChannel hopSeq hopIndex symPerHop b ≠ hopChannel hopSeq hopIndex symPerHop (b - 1)) :
    symPerHop ∣ b := by
  by_contra no_hop
  apply changes
  obtain ⟨n, rfl⟩ := Nat.exists_eq_succ_of_ne_zero pos.ne'
  have same : (n + 1) / symPerHop = n / symPerHop := by
    rw [Nat.succ_div, if_neg no_hop, Nat.add_zero]
  simp only [hopChannel, Nat.succ_eq_add_one, Nat.add_sub_cancel, same]

theorem hopSegments_draws {hopSeq : List ℤ} {hopIndex symPerHop : ℕ}
    (first : hopChannel hopSeq hopIndex symPerHop 0 = channelNum) (q f0Hz : ℚ) (totalSyms : ℕ) :
    DrawsHops (hopChannel hopSeq hopIndex symPerHop) symPerHop totalSyms q f0Hz channelNum
      (hopSegments (hopChannel hopSeq hopIndex symPerHop) q channelNum f0Hz totalSyms).1
      (hopSegments (hopChannel hopSeq hopIndex symPerHop) q channelNum f0Hz totalSyms).2 := by
  generalize at_ : hopChannel hopSeq hopIndex symPerHop = channelAt at first ⊢
  have tiles : Plateau.Tiles channelAt 0 totalSyms
      ((Plateau.walk channelAt (totalSyms + 1)).close totalSyms) :=
    Plateau.walk_tiles channelAt le_rfl (Nat.le_succ _)
  -- with the symbol behind the packet, at which a boundary may lie
  have tiles_behind : Plateau.Tiles channelAt 0 (totalSyms + 1)
      ((Plateau.walk channelAt (totalSyms + 1)).close (totalSyms + 1)) :=
    Plateau.walk_tiles channelAt (Nat.le_succ _) le_rfl
  obtain ⟨segments, boundaries, segStart, curCh, f0Cur, f0⟩ :=
    follows_walk q f0Hz first (totalSyms + 1)
  simp only [hopSegments]
  generalize (List.range (totalSyms + 1)).foldl (HopWalk.visit channelAt q)
    { curCh := channelNum, f0Cur := f0Hz } = w at *
  generalize Plateau.walk channelAt (totalSyms + 1) = v at *
  have drawn : (w.segments ++ [(⟨w.segStart, totalSyms, w.curCh, w.f0Cur⟩ : HopSegment)]).map HopSegment.plateau
      = v.close totalSyms := by
    simp [segments, HopSegment.plateau, segStart, curCh, Plateau.Walk.close]
  have plateau : ∀ {seg : HopSegment},
      seg ∈ w.segments ++ [⟨w.segStart, totalSyms, w.curCh, w.f0Cur⟩] →
        seg.plateau ∈ v.close totalSyms := by
    intro seg mem
    rw [← drawn]
    exact List.mem_map_of_mem mem
  have frequency : ∀ seg ∈ w.segments ++ [⟨w.segStart, totalSyms, w.curCh, w.f0Cur⟩],
      seg.f0 = channelF0 q f0Hz channelNum seg.channel := by
    intro seg mem
    rcases List.mem_append.1 mem with old | last
    · exact f0 seg old
    · rw [List.mem_singleton.1 last]
      exact f0Cur
  have chain := tiles.isChain
  rw [← drawn, List.isChain_map] at chain
  rw [Plateau.Walk.close] at tiles tiles_behind drawn plateau
  refine ⟨?_, chain, fun seg mem => tiles.stop_le _ (plateau mem), ?_, ?_⟩
  · intro i lt
    obtain ⟨⟨p, mem, low, high, value⟩, unique⟩ := tiles.existsUnique (Nat.zero_le i) lt
    rw [← drawn] at mem
    obtain ⟨seg, mem', rfl⟩ := List.mem_map.1 mem
    refine ⟨seg, mem', low, high, value, ?_, ?_⟩
    · rw [frequency seg mem', ← value]
      rfl
    · intro seg' mem'' low' high'
      have same := unique _ (plateau mem'') _ (plateau mem') low' high' low high
      simp only [HopSegment.plateau, Plateau.mk.injEq] at same
      obtain ⟨start, stop, channel⟩ := same
      have f0_same := (frequency seg' mem'').trans ((congrArg _ channel).trans (frequency seg mem').symm)
      cases seg
      cases seg'
      simp only at start stop channel f0_same
      rw [start, stop, channel, f0_same]
  · intro seg mem
    rw [boundaries]
    constructor
    · intro b
      exact (tiles.changes _ b).1
    · intro pos
      rcases tiles.start_mem _ (plateau mem) with zero | later
      · exact absurd zero pos.ne'
      · exact later
  · intro b
    rw [boundaries]
    constructor
    · intro mem
      obtain ⟨pos, changes⟩ := tiles.changes b mem
      obtain ⟨p, listed, rfl⟩ := List.mem_map.1 mem
      have inside := (tiles.stop_le p (List.mem_append_left _ listed)).2
      rw [← at_] at changes ⊢
      exact ⟨pos, inside, dvd_of_changes pos changes, changes⟩
    · rintro ⟨pos, inside, -, changes⟩
      exact tiles_behind.mem_of_changes pos (Nat.lt_succ_of_le inside) changes

theorem getItem_mem {α : Type} {seq : List α} {i : ℤ} {a : α} (found : getItem seq i = .ok a) :
    a ∈ seq := by
  unfold getItem at found
  split at found
  next a' here =>
    cases found
    split at here
    · exact List.mem_of_getElem? here
    split at here
    · exact List.mem_of_getElem? here
    · cases here
  next => cases found

/-- The channel the sequence was entered at is that of the first symbol. -/
theorem hopChannel_zero {hopSeq : List ℤ} (mem : channelNum ∈ hopSeq) (symPerHop : ℕ) :
    hopChannel hopSeq (hopSeq.idxOf channelNum) symPerHop 0 = channelNum := by
  have inside := List.idxOf_lt_length_of_mem mem
  rw [hopChannel, Nat.zero_div, Nat.add_zero, Nat.mod_eq_of_lt inside,
    List.getD_eq_getElem?_getD, List.getElem?_eq_getElem inside, Option.getD_some,
    List.getElem_idxOf]

/-- A packet of seven symbols, two to a hop, that is entered at the first of two hops on channel 3. -/
def sevenSymbols : OverlayInfo := ⟨100, some 5000, some 3, some 0, none, some (some 4)⟩

def sevenConstants : DecoderConstants := ⟨2, 1, 4, fun _ => none, 5⟩

def sevenHops : HopConstants := ⟨[[1, 3, 3, 2]], fun _ => none, 2⟩

/-- Its hops are drawn as three segments. -/
def sevenDrawn : HopOverlay :=
  let segments := [⟨0, 4, 3, 5000⟩, ⟨4, 6, 2, -20600⟩, ⟨6, 7, 1, -46200⟩]
  ⟨symbolMs sevenConstants 100 0, segments, [4, 6],
    segments.map (hopLine sevenConstants 100 400 [4, 6])⟩

end StreamWeb.Spectrum

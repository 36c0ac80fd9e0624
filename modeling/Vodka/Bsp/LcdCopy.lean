import Mathlib.Tactic
import Vodka.Bsp.Lcd

/-!
# Copying a rectangle to the panel

`bsp_lcd_cpybuf` programs the DMA2D controller for a memory-to-memory transfer
of RGB888 pixels and waits for its end. The controller copies lines of pixels of
three bytes and skips its line offsets behind every line, counted in pixels; all
addresses are 32-bit words. A panel below 2^14 by 2^16 pixels has distinct
addresses for all its bytes, wherever its frame buffer starts.
-/

namespace Vodka.Bsp.LcdCopy

open Foundation.RingMemory Lcd

/-- The registers of the controller that the transfer depends on. -/
structure Dma2d where
  fgor : BitVec 32
  oor : BitVec 32
  fgmar : BitVec 32
  omar : BitVec 32
  nlr : BitVec 32

/-- The pixels per line, the number of lines and the two line offsets, from their fields. -/
def Dma2d.pixelsPerLine (dma2d : Dma2d) : ℕ := (dma2d.nlr.extractLsb' 16 14).toNat

def Dma2d.lines (dma2d : Dma2d) : ℕ := (dma2d.nlr.extractLsb' 0 16).toNat

def Dma2d.inputOffset (dma2d : Dma2d) : ℕ := (dma2d.fgor.extractLsb' 0 16).toNat

def Dma2d.outputOffset (dma2d : Dma2d) : ℕ := (dma2d.oor.extractLsb' 0 16).toNat

/-- A transfer in progress: the memory and the two addresses. -/
structure Transfer where
  memory : Memory 32
  input : BitVec 32
  output : BitVec 32

def copyPixel (transfer : Transfer) : Transfer where
  memory := copy 3 transfer.memory (transfer.output, transfer.input)
  input := transfer.input + 3
  output := transfer.output + 3

def copyLine (dma2d : Dma2d) (transfer : Transfer) : Transfer :=
  let transfer := copyPixel^[dma2d.pixelsPerLine] transfer
  { transfer with
    input := transfer.input + BitVec.ofNat 32 (3 * dma2d.inputOffset)
    output := transfer.output + BitVec.ofNat 32 (3 * dma2d.outputOffset) }

/-- The memory when the start bit is clear again. -/
def Dma2d.run (dma2d : Dma2d) (memory : Memory 32) : Memory 32 :=
  ((copyLine dma2d)^[dma2d.lines] ⟨memory, dma2d.fgmar, dma2d.omar⟩).memory

/-- The arguments of a call: a rectangle of the panel and the address of its pixels. -/
structure Request where
  x : BitVec 16
  y : BitVec 16
  width : BitVec 16
  height : BitVec 16
  color : BitVec 32

/-- The registers that `bsp_lcd_cpybuf` programs. -/
def bspLcdCpybufRegs (des : BspLcdDes) (request : Request) : Dma2d where
  fgor := 0
  oor := des.width - request.width.setWidth 32
  fgmar := request.color
  omar := des.layerGramAddr +
    3 * (des.width * request.y.setWidth 32 + request.x.setWidth 32)
  nlr := request.width.setWidth 32 <<< 16 ||| request.height.setWidth 32

def bspLcdCpybuf (des : BspLcdDes) (request : Request) (memory : Memory 32) : Memory 32 :=
  (bspLcdCpybufRegs des request).run memory

/-- The rectangle lies in the panel and the panel is one the registers can describe. -/
structure Request.Inside (des : BspLcdDes) (request : Request) : Prop where
  panel_width : des.width.toNat < 2 ^ 14
  panel_height : des.height.toNat < 2 ^ 16
  width_pos : 1 ≤ request.width.toNat
  height_pos : 1 ≤ request.height.toNat
  right : request.x.toNat + request.width.toNat ≤ des.width.toNat
  bottom : request.y.toNat + request.height.toNat ≤ des.height.toNat

/-- The address of a byte of panel pixel `(column, row)`. -/
def panelByte (des : BspLcdDes) (column row c : ℕ) : BitVec 32 :=
  des.layerGramAddr + BitVec.ofNat 32 (3 * (des.width.toNat * row + column) + c)

/-- The address of a byte of source pixel `(i, j)`. -/
def Request.sourceByte (request : Request) (i j c : ℕ) : BitVec 32 :=
  request.color + BitVec.ofNat 32 (3 * (request.width.toNat * j + i) + c)

/-- Every source pixel is at its place in the rectangle, and no other byte has changed. -/
structure Copied (des : BspLcdDes) (request : Request) (memory final : Memory 32) : Prop where
  pixel : ∀ i < request.width.toNat, ∀ j < request.height.toNat, ∀ c < 3,
    final (panelByte des (request.x.toNat + i) (request.y.toNat + j) c) =
      memory (request.sourceByte i j c)
  outside : ∀ address,
    (∀ i < request.width.toNat, ∀ j < request.height.toNat, ∀ c < 3,
      address ≠ panelByte des (request.x.toNat + i) (request.y.toNat + j) c) →
    final address = memory address

/-- No byte of the source of one request is a byte of the rectangle of the other. -/
def Apart (des : BspLcdDes) (source target : Request) : Prop :=
  ∀ i < source.width.toNat, ∀ j < source.height.toNat, ∀ c < 3,
    ∀ i' < target.width.toNat, ∀ j' < target.height.toNat, ∀ c' < 3,
      source.sourceByte i j c ≠ panelByte des (target.x.toNat + i') (target.y.toNat + j') c'

theorem copyPixel_iterate (n : ℕ) (transfer : Transfer) :
    copyPixel^[n] transfer =
      { memory := ((List.range n).map fun i ↦ (transfer.output + BitVec.ofNat 32 (3 * i),
          transfer.input + BitVec.ofNat 32 (3 * i))).foldl (copy 3) transfer.memory
        input := transfer.input + BitVec.ofNat 32 (3 * n)
        output := transfer.output + BitVec.ofNat 32 (3 * n) } := by
  induction n with
  | zero => simp
  | succ n ih =>
    have hnext : BitVec.ofNat 32 (3 * (n + 1)) = BitVec.ofNat 32 (3 * n) + 3 := by
      rw [Nat.mul_succ, BitVec.ofNat_add]
      rfl
    rw [Function.iterate_succ_apply', ih, copyPixel, List.range_succ, List.map_append,
      List.foldl_append, hnext, ← add_assoc, ← add_assoc]
    rfl

/-- The copies of one line, from its two addresses. -/
def lineCopies (dma2d : Dma2d) (output input : BitVec 32) : List (BitVec 32 × BitVec 32) :=
  (List.range dma2d.pixelsPerLine).map fun i ↦
    (output + BitVec.ofNat 32 (3 * i), input + BitVec.ofNat 32 (3 * i))

theorem copyLine_iterate (dma2d : Dma2d) (n : ℕ) (transfer : Transfer) :
    (copyLine dma2d)^[n] transfer =
      { memory := ((List.range n).flatMap fun j ↦ lineCopies dma2d
          (transfer.output +
            BitVec.ofNat 32 (3 * (dma2d.pixelsPerLine + dma2d.outputOffset) * j))
          (transfer.input +
            BitVec.ofNat 32 (3 * (dma2d.pixelsPerLine + dma2d.inputOffset) * j))).foldl
          (copy 3) transfer.memory
        input := transfer.input +
          BitVec.ofNat 32 (3 * (dma2d.pixelsPerLine + dma2d.inputOffset) * n)
        output := transfer.output +
          BitVec.ofNat 32 (3 * (dma2d.pixelsPerLine + dma2d.outputOffset) * n) } := by
  induction n with
  | zero => simp
  | succ n ih =>
    have hnext (offset : ℕ) : BitVec.ofNat 32 (3 * (dma2d.pixelsPerLine + offset) * (n + 1)) =
        BitVec.ofNat 32 (3 * (dma2d.pixelsPerLine + offset) * n) +
          BitVec.ofNat 32 (3 * dma2d.pixelsPerLine) + BitVec.ofNat 32 (3 * offset) := by
      rw [← BitVec.ofNat_add, ← BitVec.ofNat_add]
      ring_nf
    rw [Function.iterate_succ_apply', ih, copyLine, copyPixel_iterate, List.range_succ,
      List.flatMap_append, List.foldl_append, hnext, hnext]
    simp [lineCopies, add_assoc]

section Registers

variable {des : BspLcdDes} {request : Request}

theorem pixelsPerLine_eq (h : request.Inside des) :
    (bspLcdCpybufRegs des request).pixelsPerLine = request.width.toNat := by
  have hright := h.right
  have hpanel := h.panel_width
  have hheight : request.height.toNat >>> 16 = 0 := by
    rw [Nat.shiftRight_eq_div_pow]
    exact Nat.div_eq_of_lt request.height.isLt
  have hwidth : request.width.toNat <<< 16 < 2 ^ 32 := by
    rw [Nat.shiftLeft_eq]
    omega
  rw [Dma2d.pixelsPerLine, bspLcdCpybufRegs, BitVec.extractLsb'_toNat, BitVec.toNat_or,
    BitVec.toNat_shiftLeft, BitVec.toNat_setWidth, BitVec.toNat_setWidth,
    Nat.mod_eq_of_lt (by omega : request.width.toNat < 2 ^ 32),
    Nat.mod_eq_of_lt (by omega : request.height.toNat < 2 ^ 32), Nat.mod_eq_of_lt hwidth,
    Nat.shiftRight_or_distrib, hheight, Nat.or_zero, Nat.shiftLeft_shiftRight,
    Nat.mod_eq_of_lt (by omega)]

theorem lines_eq (des : BspLcdDes) (request : Request) :
    (bspLcdCpybufRegs des request).lines = request.height.toNat := by
  have hwidth : request.width.toNat <<< 16 % 2 ^ 32 % 2 ^ 16 = 0 := by
    rw [Nat.shiftLeft_eq]
    omega
  rw [Dma2d.lines, bspLcdCpybufRegs, BitVec.extractLsb'_toNat, Nat.shiftRight_zero,
    BitVec.toNat_or, Nat.or_mod_two_pow, BitVec.toNat_shiftLeft, BitVec.toNat_setWidth,
    BitVec.toNat_setWidth, Nat.mod_eq_of_lt (by omega : request.width.toNat < 2 ^ 32), hwidth,
    Nat.zero_or]
  omega

theorem outputOffset_eq (h : request.Inside des) :
    (bspLcdCpybufRegs des request).outputOffset = des.width.toNat - request.width.toNat := by
  have hright := h.right
  have hpanel := h.panel_width
  have hwidth := des.width.isLt
  rw [Dma2d.outputOffset, bspLcdCpybufRegs, BitVec.extractLsb'_toNat, Nat.shiftRight_zero,
    BitVec.toNat_sub, BitVec.toNat_setWidth]
  omega

theorem omar_eq (des : BspLcdDes) (request : Request) :
    (bspLcdCpybufRegs des request).omar =
      panelByte des request.x.toNat request.y.toNat 0 := by
  have hoffset : 3 * (des.width * request.y.setWidth 32 + request.x.setWidth 32) =
      BitVec.ofNat 32 (3 * (des.width.toNat * request.y.toNat + request.x.toNat) + 0) := by
    apply BitVec.eq_of_toNat_eq
    simp [BitVec.toNat_mul, BitVec.toNat_add]
  rw [bspLcdCpybufRegs, panelByte, hoffset]

end Registers

/-- The copies that a call makes: line by line, pixel by pixel. -/
def copies (des : BspLcdDes) (request : Request) : List (BitVec 32 × BitVec 32) :=
  (List.range request.height.toNat).flatMap fun j ↦
    (List.range request.width.toNat).map fun i ↦
      (panelByte des (request.x.toNat + i) (request.y.toNat + j) 0, request.sourceByte i j 0)

/-- Start address, line offsets and size together describe the rectangle. -/
theorem bspLcdCpybuf_eq {des : BspLcdDes} {request : Request} (h : request.Inside des)
    (memory : Memory 32) :
    bspLcdCpybuf des request memory = (copies des request).foldl (copy 3) memory := by
  have hright := h.right
  rw [bspLcdCpybuf, Dma2d.run, copyLine_iterate, lines_eq, omar_eq]
  simp only [lineCopies, pixelsPerLine_eq h, outputOffset_eq h]
  have hinput : (bspLcdCpybufRegs des request).inputOffset = 0 := rfl
  have hcopies : (fun j ↦ (List.range request.width.toNat).map fun i ↦
      (panelByte des request.x.toNat request.y.toNat 0 + BitVec.ofNat 32
        (3 * (request.width.toNat + (des.width.toNat - request.width.toNat)) * j) +
          BitVec.ofNat 32 (3 * i),
        request.color + BitVec.ofNat 32 (3 * (request.width.toNat + 0) * j) +
          BitVec.ofNat 32 (3 * i))) =
      fun j ↦ (List.range request.width.toNat).map fun i ↦
        (panelByte des (request.x.toNat + i) (request.y.toNat + j) 0,
          request.sourceByte i j 0) := by
    funext j
    congr 1
    funext i
    rw [panelByte, panelByte, Request.sourceByte, add_assoc, add_assoc, add_assoc,
      ← BitVec.ofNat_add, ← BitVec.ofNat_add, ← BitVec.ofNat_add,
      Nat.add_sub_cancel' (by omega : request.width.toNat ≤ des.width.toNat)]
    congr 3 <;> ring
  rw [hinput, copies, ← hcopies]
  rfl

/-- Bytes of the panel are near each other only within one pixel. -/
theorem panelByte_near {des : BspLcdDes} (hwidth : des.width.toNat < 2 ^ 14)
    (hheight : des.height.toNat < 2 ^ 16) {column row other line c : ℕ}
    (hcolumn : column < des.width.toNat) (hrow : row < des.height.toNat)
    (hother : other < des.width.toNat) (hline : line < des.height.toNat) (hc : c < 3)
    (hnear : (panelByte des column row c - panelByte des other line 0).toNat < 3) :
    column = other ∧ row = line := by
  have hbound {column row : ℕ} (hcolumn : column < des.width.toNat)
      (hrow : row < des.height.toNat) : des.width.toNat * row + column < 2 ^ 30 := by
    calc des.width.toNat * row + column < des.width.toNat * row + des.width.toNat := by omega
      _ = des.width.toNat * (row + 1) := by ring
      _ ≤ 2 ^ 14 * 2 ^ 16 := Nat.mul_le_mul hwidth.le (by omega)
      _ = 2 ^ 30 := by norm_num
  have hfirst := hbound hcolumn hrow
  have hsecond := hbound hother hline
  rw [panelByte, panelByte, toNat_offset_sub _ (by omega) (by omega)] at hnear
  have hsame : des.width.toNat * row + column = des.width.toNat * line + other := by
    split_ifs at hnear <;> omega
  have hrows : row = line := by
    have hdiv := congrArg (· / des.width.toNat) hsame
    simpa [Nat.mul_add_div (by omega : 0 < des.width.toNat), Nat.div_eq_of_lt hcolumn,
      Nat.div_eq_of_lt hother] using hdiv
  subst hrows
  omega

theorem panelByte_zero_add (des : BspLcdDes) (column row c : ℕ) :
    panelByte des column row 0 + BitVec.ofNat 32 c = panelByte des column row c := by
  rw [panelByte, add_assoc, ← BitVec.ofNat_add, panelByte, Nat.add_zero]

theorem sourceByte_zero_add (request : Request) (i j c : ℕ) :
    request.sourceByte i j 0 + BitVec.ofNat 32 c = request.sourceByte i j c := by
  rw [Request.sourceByte, add_assoc, ← BitVec.ofNat_add, Request.sourceByte, Nat.add_zero]

/-- An address that is no byte of a pixel is not near its first one. -/
theorem three_le_of_ne {des : BspLcdDes} {address : BitVec 32} {column row : ℕ}
    (h : ∀ c < 3, address ≠ panelByte des column row c) :
    3 ≤ (address - panelByte des column row 0).toNat := by
  by_contra hnear
  refine h _ (not_le.mp hnear) ?_
  rw [← panelByte_zero_add, offset_toNat]

variable {des : BspLcdDes} {request other : Request} {memory : Memory 32} {address : BitVec 32}

theorem mem_copies {entry : BitVec 32 × BitVec 32} :
    entry ∈ copies des request ↔
      ∃ j < request.height.toNat, ∃ i < request.width.toNat,
        (panelByte des (request.x.toNat + i) (request.y.toNat + j) 0,
          request.sourceByte i j 0) = entry := by
  simp [copies]

/-- No byte of a pixel is near the destination of a later copy. -/
theorem pairwise_copies (h : request.Inside des) :
    (copies des request).Pairwise fun entry later ↦
      ∀ c < 3, 3 ≤ (entry.1 + BitVec.ofNat 32 c - later.1).toNat := by
  have hfar (i i' j j' : ℕ) (hi : i < request.width.toNat) (hi' : i' < request.width.toNat)
      (hj : j < request.height.toNat) (hj' : j' < request.height.toNat) (hne : i < i' ∨ j < j')
      (c : ℕ) (hc : c < 3) :
      3 ≤ (panelByte des (request.x.toNat + i) (request.y.toNat + j) 0 + BitVec.ofNat 32 c -
        panelByte des (request.x.toNat + i') (request.y.toNat + j') 0).toNat := by
    by_contra hnear
    rw [panelByte_zero_add, not_le] at hnear
    have hright := h.right
    have hbottom := h.bottom
    have hsame := panelByte_near h.panel_width h.panel_height (by omega) (by omega) (by omega)
      (by omega) hc hnear
    omega
  rw [copies, List.pairwise_flatMap]
  constructor
  · intro j hj
    rw [List.mem_range] at hj
    rw [List.pairwise_map]
    refine List.pairwise_lt_range.imp_of_mem fun hi hi' hlt ↦ ?_
    exact hfar _ _ _ _ (List.mem_range.mp hi) (List.mem_range.mp hi') hj hj (.inl hlt)
  · refine List.pairwise_lt_range.imp_of_mem fun hj hj' hlt entry hentry later hlater ↦ ?_
    obtain ⟨i, hi, rfl⟩ := List.mem_map.mp hentry
    obtain ⟨i', hi', rfl⟩ := List.mem_map.mp hlater
    exact hfar _ _ _ _ (List.mem_range.mp hi) (List.mem_range.mp hi') (List.mem_range.mp hj)
      (List.mem_range.mp hj') (.inr hlt)

/-- The rectangle is copied as long as the copy does not overwrite its own source. -/
theorem copied_of_apart (h : request.Inside des) (hapart : Apart des request request) :
    Copied des request memory (bspLcdCpybuf des request memory) := by
  rw [bspLcdCpybuf_eq h]
  constructor
  · intro i hi j hj c hc
    have hmem : (panelByte des (request.x.toNat + i) (request.y.toNat + j) 0,
        request.sourceByte i j 0) ∈ copies des request :=
      mem_copies.mpr ⟨j, hj, i, hi, rfl⟩
    obtain ⟨before, after, hsplit⟩ := List.append_of_mem hmem
    have hpairwise := pairwise_copies h
    rw [hsplit, List.pairwise_append, List.pairwise_cons] at hpairwise
    have hfits : 3 ≤ 2 ^ 32 := by decide
    have hsource : ∀ entry ∈ before,
        3 ≤ (request.sourceByte i j 0 + BitVec.ofNat 32 c - entry.1).toNat := by
      intro entry hentry
      have hcopy : entry ∈ copies des request := hsplit ▸ List.mem_append_left _ hentry
      obtain ⟨j', hj', i', hi', rfl⟩ := mem_copies.mp hcopy
      rw [sourceByte_zero_add]
      exact three_le_of_ne fun c' hc' ↦ hapart i hi j hj c hc i' hi' j' hj' c' hc'
    rw [hsplit]
    calc (before ++ (panelByte des (request.x.toNat + i) (request.y.toNat + j) 0,
          request.sourceByte i j 0) :: after).foldl (copy 3) memory
          (panelByte des (request.x.toNat + i) (request.y.toNat + j) c)
        = (before ++ (panelByte des (request.x.toNat + i) (request.y.toNat + j) 0,
            request.sourceByte i j 0) :: after).foldl (copy 3) memory
            (panelByte des (request.x.toNat + i) (request.y.toNat + j) 0 + BitVec.ofNat 32 c) := by
          rw [panelByte_zero_add]
      _ = memory (request.sourceByte i j 0 + BitVec.ofNat 32 c) :=
          foldl_copy_of_inside hfits hc hsource fun entry hentry ↦
            hpairwise.2.1.1 entry hentry c hc
      _ = memory (request.sourceByte i j c) := by rw [sourceByte_zero_add]
  · intro address haddress
    refine foldl_copy_of_outside fun entry hentry ↦ ?_
    obtain ⟨j, hj, i, hi, rfl⟩ := mem_copies.mp hentry
    exact three_le_of_ne fun c hc ↦ haddress i hi j hj c hc

/-- The two rectangles have no pixel in common. -/
def Disjoint (request other : Request) : Prop :=
  ∀ i < request.width.toNat, ∀ j < request.height.toNat,
    ∀ i' < other.width.toNat, ∀ j' < other.height.toNat,
      ¬ (request.x.toNat + i = other.x.toNat + i' ∧ request.y.toNat + j = other.y.toNat + j')

theorem Disjoint.symm (h : Disjoint request other) : Disjoint other request :=
  fun i hi j hj i' hi' j' hj' hsame ↦ h i' hi' j' hj' i hi j hj ⟨hsame.1.symm, hsame.2.symm⟩

/-- No byte of a rectangle is one of a disjoint rectangle. -/
theorem Disjoint.panelByte_ne (h : Disjoint request other) (hinside : request.Inside des)
    (hother : other.Inside des) {i j c i' j' c' : ℕ} (hi : i < request.width.toNat)
    (hj : j < request.height.toNat) (hc : c < 3) (hi' : i' < other.width.toNat)
    (hj' : j' < other.height.toNat) (hc' : c' < 3) :
    panelByte des (request.x.toNat + i) (request.y.toNat + j) c ≠
      panelByte des (other.x.toNat + i') (other.y.toNat + j') c' := by
  intro heq
  have hright := hinside.right
  have hbottom := hinside.bottom
  have hotherRight := hother.right
  have hotherBottom := hother.bottom
  refine h i hi j hj i' hi' j' hj' (panelByte_near hinside.panel_width hinside.panel_height
    (by omega) (by omega) (by omega) (by omega) hc ?_)
  have hmod : c' < 2 ^ 32 := by omega
  rw [heq, ← panelByte_zero_add des _ _ c', toNat_offset _ hmod]
  exact hc'

/-- In its own rectangle a copy does not notice a copy to a disjoint one before or after it. -/
theorem copied_commute_inside (hinside : request.Inside des) (hother : other.Inside des)
    (hown : Apart des request request) (hotherOwn : Apart des other other)
    (hcross : Apart des request other) (hdisjoint : Disjoint request other) {i j c : ℕ}
    (hi : i < request.width.toNat) (hj : j < request.height.toNat) (hc : c < 3) :
    bspLcdCpybuf des other (bspLcdCpybuf des request memory)
        (panelByte des (request.x.toNat + i) (request.y.toNat + j) c) =
      bspLcdCpybuf des request (bspLcdCpybuf des other memory)
        (panelByte des (request.x.toNat + i) (request.y.toNat + j) c) := by
  calc bspLcdCpybuf des other (bspLcdCpybuf des request memory) (panelByte des _ _ c)
      = bspLcdCpybuf des request memory
          (panelByte des (request.x.toNat + i) (request.y.toNat + j) c) :=
        (copied_of_apart hother hotherOwn).outside _ fun i' hi' j' hj' c' hc' ↦
          hdisjoint.panelByte_ne hinside hother hi hj hc hi' hj' hc'
    _ = memory (request.sourceByte i j c) :=
        (copied_of_apart hinside hown).pixel i hi j hj c hc
    _ = bspLcdCpybuf des other memory (request.sourceByte i j c) :=
        ((copied_of_apart hother hotherOwn).outside _ fun i' hi' j' hj' c' hc' ↦
          hcross i hi j hj c hc i' hi' j' hj' c' hc').symm
    _ = bspLcdCpybuf des request (bspLcdCpybuf des other memory)
          (panelByte des (request.x.toNat + i) (request.y.toNat + j) c) :=
        ((copied_of_apart hinside hown).pixel i hi j hj c hc).symm

theorem copied_commute (hinside : request.Inside des) (hother : other.Inside des)
    (hown : Apart des request request) (hotherOwn : Apart des other other)
    (hcross : Apart des request other) (hback : Apart des other request)
    (hdisjoint : Disjoint request other) (memory : Memory 32) :
    bspLcdCpybuf des other (bspLcdCpybuf des request memory) =
      bspLcdCpybuf des request (bspLcdCpybuf des other memory) := by
  funext address
  by_cases hfirst : ∃ i < request.width.toNat, ∃ j < request.height.toNat, ∃ c < 3,
      address = panelByte des (request.x.toNat + i) (request.y.toNat + j) c
  · obtain ⟨i, hi, j, hj, c, hc, rfl⟩ := hfirst
    exact copied_commute_inside hinside hother hown hotherOwn hcross hdisjoint hi hj hc
  by_cases hsecond : ∃ i < other.width.toNat, ∃ j < other.height.toNat, ∃ c < 3,
      address = panelByte des (other.x.toNat + i) (other.y.toNat + j) c
  · obtain ⟨i, hi, j, hj, c, hc, rfl⟩ := hsecond
    exact (copied_commute_inside hother hinside hotherOwn hown hback hdisjoint.symm hi hj hc).symm
  · have hnotFirst : ∀ i < request.width.toNat, ∀ j < request.height.toNat, ∀ c < 3,
        address ≠ panelByte des (request.x.toNat + i) (request.y.toNat + j) c :=
      fun i hi j hj c hc heq ↦ hfirst ⟨i, hi, j, hj, c, hc, heq⟩
    have hnotSecond : ∀ i < other.width.toNat, ∀ j < other.height.toNat, ∀ c < 3,
        address ≠ panelByte des (other.x.toNat + i) (other.y.toNat + j) c :=
      fun i hi j hj c hc heq ↦ hsecond ⟨i, hi, j, hj, c, hc, heq⟩
    calc bspLcdCpybuf des other (bspLcdCpybuf des request memory) address
        = bspLcdCpybuf des request memory address :=
          (copied_of_apart hother hotherOwn).outside _ hnotSecond
      _ = memory address := (copied_of_apart hinside hown).outside _ hnotFirst
      _ = bspLcdCpybuf des other memory address :=
          ((copied_of_apart hother hotherOwn).outside _ hnotSecond).symm
      _ = bspLcdCpybuf des request (bspLcdCpybuf des other memory) address :=
          ((copied_of_apart hinside hown).outside _ hnotFirst).symm

/-- **Rectangle copy.** A rectangle of the panel is copied pixel by pixel and nothing else
changes, for every source outside of it; and two copies to disjoint rectangles commute when no
source overlaps a rectangle. -/
theorem rectangleCopy (des : BspLcdDes) (request : Request) (memory : Memory 32)
    (hinside : request.Inside des) (hown : Apart des request request) :
    Copied des request memory (bspLcdCpybuf des request memory) ∧
      ∀ other : Request, other.Inside des → Apart des other other → Apart des request other →
        Apart des other request → Disjoint request other →
        bspLcdCpybuf des other (bspLcdCpybuf des request memory) =
          bspLcdCpybuf des request (bspLcdCpybuf des other memory) :=
  ⟨copied_of_apart hinside hown, fun _ hother hotherOwn hcross hback hdisjoint ↦
    copied_commute hinside hother hown hotherOwn hcross hback hdisjoint memory⟩

/-- A buffer outside of the frame buffer is apart from every rectangle. -/
theorem apart_of_outside (hother : other.Inside des)
    (houtside : ∀ k < 3 * (request.width.toNat * request.height.toNat),
      3 * des.pixels ≤ (request.color + BitVec.ofNat 32 k - des.layerGramAddr).toNat) :
    Apart des request other := by
  intro i hi j hj c hc i' hi' j' hj' c' hc' heq
  have hright := hother.right
  have hbottom := hother.bottom
  have hindex {width height column row : ℕ} (hcolumn : column < width) (hrow : row < height) :
      width * row + column + 1 ≤ width * height := by
    calc width * row + column + 1 ≤ width * row + width := by omega
      _ = width * (row + 1) := by ring
      _ ≤ width * height := Nat.mul_le_mul le_rfl hrow
  have hsource := hindex hi hj
  have htarget := hindex (by omega : other.x.toNat + i' < des.width.toNat)
    (by omega : other.y.toNat + j' < des.height.toNat)
  have hpixels : des.width.toNat * des.height.toNat ≤ 2 ^ 14 * 2 ^ 16 :=
    Nat.mul_le_mul hother.panel_width.le hother.panel_height.le
  have hfar := houtside (3 * (request.width.toNat * j + i) + c) (by omega)
  rw [Request.sourceByte] at heq
  rw [heq, panelByte, toNat_offset _ (by omega), BspLcdDes.pixels] at hfar
  omega

/-- The panel of the default size with its frame buffer behind the heap. -/
def examplePanel : BspLcdDes := ⟨800, 480, 0xC1000000⟩

/-- Three lines in the last corner of the panel, from a buffer elsewhere. -/
def lastCorner : Request := ⟨796, 477, 4, 3, 0xC0000000⟩

/-- Two lines in the first corner, from a buffer behind the other. -/
def firstCorner : Request := ⟨0, 0, 3, 2, 0xC0000024⟩

/-- Every byte is the low byte of its address. -/
def addressMemory : Memory 32 := fun address ↦ UInt8.ofNat address.toNat

theorem rectangleCopy_lastCorner :
    Copied examplePanel lastCorner addressMemory
        (bspLcdCpybuf examplePanel lastCorner addressMemory) ∧
      bspLcdCpybuf examplePanel firstCorner (bspLcdCpybuf examplePanel lastCorner addressMemory) =
        bspLcdCpybuf examplePanel lastCorner
          (bspLcdCpybuf examplePanel firstCorner addressMemory) := by
  have hlast : lastCorner.Inside examplePanel :=
    ⟨by decide, by decide, by decide, by decide, by decide, by decide⟩
  have hfirst : firstCorner.Inside examplePanel :=
    ⟨by decide, by decide, by decide, by decide, by decide, by decide⟩
  have hcopy := rectangleCopy examplePanel lastCorner addressMemory hlast
    (apart_of_outside hlast (by decide))
  refine ⟨hcopy.1, hcopy.2 firstCorner hfirst (apart_of_outside hfirst (by decide))
    (apart_of_outside hfirst (by decide)) (apart_of_outside hlast (by decide)) ?_⟩
  intro i _ j _ i' hi' _ _ hsame
  have hcolumn : 796 + i = 0 + i' := hsame.1
  have hwidth : i' < 3 := hi'
  omega

/-- Two pixels moved to the right by one: the second one is overwritten before it is read. -/
theorem shifted_not_copied :
    (⟨1, 0, 2, 1, 0xC1000000⟩ : Request).Inside examplePanel ∧
      ¬ Copied examplePanel ⟨1, 0, 2, 1, 0xC1000000⟩
        (fun address ↦ if address = 0xC1000000 then 1 else 0)
        (bspLcdCpybuf examplePanel ⟨1, 0, 2, 1, 0xC1000000⟩
          fun address ↦ if address = 0xC1000000 then 1 else 0) := by
  refine ⟨⟨by decide, by decide, by decide, by decide, by decide, by decide⟩, fun hcopied ↦ ?_⟩
  have hpixel := hcopied.pixel 1 (by decide) 0 (by decide) 0 (by decide)
  exact absurd hpixel (by decide +kernel)

end Vodka.Bsp.LcdCopy

import Mathlib.Tactic
import Vodka.Foundation.Endian
import Vodka.Foundation.RingMemory

/-!
# Filling the frame buffer

The line event callback paints the frame buffer of layer 0 with one colour. A
pixel has three bytes but is stored as a word of four, so the next store repairs
the first byte behind it, and nothing repairs the byte behind the last pixel.
The number of pixels is a 32-bit product. Backlight, cache maintenance and the
next line event do not reach the memory and are left out.
-/

namespace Vodka.Bsp.Lcd

open Foundation.Endian Foundation.RingMemory

/-- The members of `struct bsp_lcd_des` that the drawing functions read. -/
structure BspLcdDes where
  width : BitVec 32
  height : BitVec 32
  layerGramAddr : BitVec 32

/-- The number of pixels of the panel. -/
def BspLcdDes.pixels (des : BspLcdDes) : ℕ := des.width.toNat * des.height.toNat

def colorBytes (color : BitVec 32) : List UInt8 := littleEndian 4 color.toNat

def colorByte (color : BitVec 32) (c : ℕ) : UInt8 := (colorBytes color).getD c 0

/-- `*(uint32_t *)tmp = color; tmp += 3;` -/
def paintPixel (color : BitVec 32) (state : Memory 32 × BitVec 32) : Memory 32 × BitVec 32 :=
  (store state.1 state.2 (colorBytes color), state.2 + 3)

/-- The pixel loop of `HAL_LTDC_LineEventCallback`. -/
def paint (des : BspLcdDes) (color : BitVec 32) (memory : Memory 32) : Memory 32 :=
  ((paintPixel color)^[(des.width * des.height).toNat] (memory, des.layerGramAddr)).1

/-- Every pixel holds the three low bytes of the colour and no other byte has changed. -/
structure Painted (des : BspLcdDes) (color : BitVec 32) (memory final : Memory 32) : Prop where
  pixel : ∀ p < des.pixels, ∀ c < 3,
    final (des.layerGramAddr + BitVec.ofNat 32 (3 * p + c)) = colorByte color c
  outside : ∀ address, 3 * des.pixels ≤ (address - des.layerGramAddr).toNat →
    final address = memory address

@[simp]
theorem length_colorBytes (color : BitVec 32) : (colorBytes color).length = 4 :=
  length_littleEndian 4 _

/-- The memory and the pointer after the first pixels. -/
def painting (base color : BitVec 32) (memory : Memory 32) (i : ℕ) : Memory 32 × BitVec 32 :=
  (paintPixel color)^[i] (memory, base)

variable {base color : BitVec 32} {memory : Memory 32} {i k n : ℕ}

theorem painting_succ (base color : BitVec 32) (memory : Memory 32) (i : ℕ) :
    painting base color memory (i + 1) = paintPixel color (painting base color memory i) :=
  Function.iterate_succ_apply' _ _ _

theorem painting_snd (base color : BitVec 32) (memory : Memory 32) (i : ℕ) :
    (painting base color memory i).2 = base + BitVec.ofNat 32 (3 * i) := by
  induction i with
  | zero => simp [painting]
  | succ i ih =>
    rw [painting_succ, paintPixel, ih, Nat.mul_succ, BitVec.ofNat_add, ← add_assoc]
    rfl

/-- One more pixel stores the four bytes of the colour. -/
theorem painting_succ_fst (base color : BitVec 32) (memory : Memory 32) (i : ℕ) :
    (painting base color memory (i + 1)).1 =
      store (painting base color memory i).1 (base + BitVec.ofNat 32 (3 * i))
        (colorBytes color) := by
  rw [painting_succ, paintPixel, painting_snd]

theorem view_painting_succ (hend : 3 * i + 4 ≤ 2 ^ 32) (hk : k < 2 ^ 32) :
    view (painting base color memory (i + 1)).1 base k =
      Foundation.ByteMemory.write (view (painting base color memory i).1 base) (3 * i)
        (colorBytes color) k := by
  rw [painting_succ_fst]
  exact view_store (by simpa using hend) hk

/-- While the stores stay inside the ring, the bytes behind them are the colour's, and only the
byte behind the last pixel holds its high byte. -/
theorem view_painting (hend : 3 * i + 1 ≤ 2 ^ 32) (hk : k < 2 ^ 32) :
    view (painting base color memory i).1 base k =
      if k < 3 * i then colorByte color (k % 3)
      else if k = 3 * i ∧ 0 < i then colorByte color 3
      else view memory base k := by
  induction i with
  | zero => simp [painting]
  | succ i ih =>
    have hprev := ih (by omega)
    rw [view_painting_succ (by omega) hk, Foundation.ByteMemory.write, hprev]
    by_cases hle : 3 * i ≤ k
    · rw [if_pos hle]
      by_cases hin : k - 3 * i < 4
      · have hlength : k - 3 * i < (colorBytes color).length := by simpa using hin
        have hbyte : (colorBytes color)[k - 3 * i] = colorByte color (k - 3 * i) :=
          (List.getD_eq_getElem _ _ hlength).symm
        rw [List.getD_eq_getElem _ _ hlength, hbyte]
        by_cases hpixel : k < 3 * (i + 1)
        · rw [if_pos hpixel, show k % 3 = k - 3 * i by omega]
        · rw [if_neg hpixel, if_pos (by omega), show k - 3 * i = 3 by omega]
      · rw [List.getD_eq_default _ _ (by simpa using hin), if_neg (by omega), if_neg (by omega),
          if_neg (by omega), if_neg (by omega)]
    · rw [if_neg hle, if_pos (by omega), if_pos (by omega)]

/-- An offset that no store has reached keeps its byte. -/
theorem view_painting_of_ahead (hk : k < 2 ^ 32) (hahead : i = 0 ∨ 3 * i < k) :
    view (painting base color memory i).1 base k = view memory base k := by
  rw [view_painting (by omega) hk, if_neg (by omega), if_neg (by omega)]

variable {des : BspLcdDes}

theorem paint_eq (des : BspLcdDes) (color : BitVec 32) (memory : Memory 32) :
    paint des color memory =
      (painting des.layerGramAddr color memory (des.pixels % 2 ^ 32)).1 := by
  rw [paint, painting, BitVec.toNat_mul, BspLcdDes.pixels]

theorem painted_iff_of_fits (hfits : 3 * des.pixels < 2 ^ 32) :
    Painted des color memory (paint des color memory) ↔
      des.pixels = 0 ∨
        memory (des.layerGramAddr + BitVec.ofNat 32 (3 * des.pixels)) = colorByte color 3 := by
  have hcount : des.pixels % 2 ^ 32 = des.pixels := Nat.mod_eq_of_lt (by omega)
  have hfinal (k : ℕ) (hk : k < 2 ^ 32) :
      paint des color memory (des.layerGramAddr + BitVec.ofNat 32 k) =
        if k < 3 * des.pixels then colorByte color (k % 3)
        else if k = 3 * des.pixels ∧ 0 < des.pixels then colorByte color 3
        else memory (des.layerGramAddr + BitVec.ofNat 32 k) := by
    rw [paint_eq, hcount]
    exact view_painting (by omega) hk
  constructor
  · intro hpainted
    by_contra hspilled
    obtain ⟨hpos, hbyte⟩ := not_or.mp hspilled
    have hbehind := hfinal (3 * des.pixels) hfits
    rw [if_neg (lt_irrefl _), if_pos ⟨rfl, Nat.pos_of_ne_zero hpos⟩] at hbehind
    refine hbyte ?_
    rw [← hbehind]
    exact (hpainted.outside _ (toNat_offset des.layerGramAddr hfits).ge).symm
  · intro hbehind
    refine ⟨fun p hp c hc ↦ ?_, fun address haddress ↦ ?_⟩
    · rw [hfinal _ (by omega), if_pos (by omega), show (3 * p + c) % 3 = c by omega]
    · have hlast := hfinal (address - des.layerGramAddr).toNat (BitVec.isLt _)
      rw [if_neg (not_lt.mpr haddress), offset_toNat] at hlast
      rw [hlast]
      split_ifs with hspilled
      · have hsame : address = des.layerGramAddr + BitVec.ofNat 32 (3 * des.pixels) := by
          rw [← hspilled.1, offset_toNat]
        rw [hsame]
        exact (hbehind.resolve_left hspilled.2.ne').symm
      · rfl

theorem getD_colorBytes_of_gray {byte : UInt8} (hgray : ∀ c < 4, colorByte color c = byte)
    (c : ℕ) (old : UInt8) :
    (colorBytes color).getD c old = if c < 4 then byte else old := by
  split_ifs with hc
  · have hlength : c < (colorBytes color).length := by simpa using hc
    rw [← hgray c hc, colorByte, List.getD_eq_getElem _ _ hlength, List.getD_eq_getElem _ _ hlength]
  · exact List.getD_eq_default _ _ (by simpa using hc)

/-- Stores of equal bytes, wherever they wrap, leave this byte up to the pointer. -/
theorem view_painting_of_gray {byte : UInt8} (hgray : ∀ c < 4, colorByte color c = byte)
    (hpos : 0 < i) (hk : k < 2 ^ 32) (hle : k ≤ 3 * i) :
    view (painting base color memory i).1 base k = byte := by
  induction i with
  | zero => exact absurd hpos (lt_irrefl 0)
  | succ i ih =>
    rw [view, painting_succ_fst, store, getD_colorBytes_of_gray hgray]
    split_ifs with hstored
    · rfl
    · refine ih ?_ ?_ <;> by_contra hahead <;> apply hstored
      · obtain rfl : i = 0 := by omega
        rw [Nat.mul_zero, show BitVec.ofNat 32 0 = 0 from rfl, add_zero, toNat_offset base hk]
        omega
      · have hsplit : base + BitVec.ofNat 32 k =
            base + BitVec.ofNat 32 (3 * i) + BitVec.ofNat 32 (k - 3 * i) := by
          rw [add_assoc, ← BitVec.ofNat_add, show 3 * i + (k - 3 * i) = k by omega]
        rw [hsplit, toNat_offset _ (by omega)]
        omega

/-- The last store is not repaired: its high byte stays. -/
theorem painting_high (base color : BitVec 32) (memory : Memory 32) (hpos : 0 < i) :
    (painting base color memory i).1 (base + BitVec.ofNat 32 (3 * i)) = colorByte color 3 := by
  obtain ⟨i, rfl⟩ := Nat.exists_eq_succ_of_ne_zero hpos.ne'
  rw [painting_succ_fst, Nat.mul_succ, BitVec.ofNat_add, ← add_assoc,
    store_of_inside (by simp) (by simp), colorByte, List.getD_eq_getElem]

/-- More pixels than fit: the ring has to be of one byte, the colour's, all over. -/
theorem painted_iff_of_not_fits (hfits : 2 ^ 32 ≤ 3 * des.pixels) :
    Painted des color memory (paint des color memory) ↔
      (∀ c < 3, colorByte color c = colorByte color 0) ∧
        (des.pixels % 2 ^ 32 = 0 ∨ colorByte color 3 = colorByte color 0) ∧
        ∀ k < 2 ^ 32, des.pixels % 2 ^ 32 = 0 ∨ 3 * (des.pixels % 2 ^ 32) < k →
          memory (des.layerGramAddr + BitVec.ofNat 32 k) = colorByte color 0 := by
  rw [paint_eq]
  generalize des.pixels % 2 ^ 32 = n
  have hwrap (k : ℕ) : BitVec.ofNat 32 (2 ^ 32 + k) = BitVec.ofNat 32 k := by
    apply BitVec.eq_of_toNat_eq
    simp
  constructor
  · intro hpainted
    have hcovered (k : ℕ) (hk : k < 2 ^ 32 + 2) :
        (painting des.layerGramAddr color memory n).1 (des.layerGramAddr + BitVec.ofNat 32 k) =
          colorByte color (k % 3) := by
      have hpixel := hpainted.pixel (k / 3) (by omega) (k % 3) (Nat.mod_lt k (by decide))
      rwa [show 3 * (k / 3) + k % 3 = k by omega] at hpixel
    have hgreen : colorByte color 1 = colorByte color 0 := by
      have hend := hcovered (2 ^ 32 + 0) (by omega)
      rw [hwrap, hcovered 0 (by omega)] at hend
      exact hend.symm
    have hred : colorByte color 2 = colorByte color 0 := by
      have hend := hcovered (2 ^ 32 + 1) (by omega)
      rw [hwrap, hcovered 1 (by omega)] at hend
      exact hend.symm.trans hgreen
    have hlow : ∀ c < 3, colorByte color c = colorByte color 0 := by
      intro c hc
      obtain rfl | rfl | rfl : c = 0 ∨ c = 1 ∨ c = 2 := by omega
      exacts [rfl, hgreen, hred]
    refine ⟨hlow, ?_, fun k hk hahead ↦ ?_⟩
    · refine or_iff_not_imp_left.mpr fun hpos ↦ ?_
      have hhigh := painting_high des.layerGramAddr color memory (Nat.pos_of_ne_zero hpos)
      have hround : BitVec.ofNat 32 (3 * n) = BitVec.ofNat 32 (3 * n % 2 ^ 32) := by
        apply BitVec.eq_of_toNat_eq
        simp
      rw [hround, hcovered _ (lt_of_lt_of_le (Nat.mod_lt _ (by decide)) (by decide))] at hhigh
      exact hhigh.symm.trans (hlow _ (Nat.mod_lt _ (by decide)))
    · have hkept : (painting des.layerGramAddr color memory n).1
          (des.layerGramAddr + BitVec.ofNat 32 k) =
            memory (des.layerGramAddr + BitVec.ofNat 32 k) :=
        view_painting_of_ahead hk hahead
      exact (hkept.symm.trans (hcovered k (by omega))).trans (hlow _ (Nat.mod_lt _ (by decide)))
  · rintro ⟨hlow, hhigh, hmemory⟩
    have hall (k : ℕ) (hk : k < 2 ^ 32) :
        (painting des.layerGramAddr color memory n).1 (des.layerGramAddr + BitVec.ofNat 32 k) =
          colorByte color 0 := by
      by_cases hahead : n = 0 ∨ 3 * n < k
      · exact (view_painting_of_ahead hk hahead).trans (hmemory k hk hahead)
      · refine view_painting_of_gray (fun c hc ↦ ?_) (by omega) hk (by omega)
        rcases Nat.lt_succ_iff_lt_or_eq.mp hc with hc | rfl
        · exact hlow c hc
        · exact hhigh.resolve_left (by omega)
    refine ⟨fun p hp c hc ↦ ?_, fun address haddress ↦ ?_⟩
    · have hround : BitVec.ofNat 32 (3 * p + c) = BitVec.ofNat 32 ((3 * p + c) % 2 ^ 32) := by
        apply BitVec.eq_of_toNat_eq
        simp
      rw [hround, hall _ (Nat.mod_lt _ (by decide)), hlow c hc]
    · exact absurd (BitVec.isLt (address - des.layerGramAddr)) (by omega)

/-- **Line event fill.** The callback paints exactly the frame buffer when it has no pixel or the
byte behind it already holds the high byte of the colour. A panel of more pixels than the address
space has room for needs a grey and a memory that already holds it ahead of the pointer. -/
theorem painted_iff (des : BspLcdDes) (color : BitVec 32) (memory : Memory 32) :
    Painted des color memory (paint des color memory) ↔
      (3 * des.pixels < 2 ^ 32 ∧
        (des.pixels = 0 ∨
          memory (des.layerGramAddr + BitVec.ofNat 32 (3 * des.pixels)) = colorByte color 3)) ∨
      (2 ^ 32 ≤ 3 * des.pixels ∧
        (∀ c < 3, colorByte color c = colorByte color 0) ∧
        (des.pixels % 2 ^ 32 = 0 ∨ colorByte color 3 = colorByte color 0) ∧
        ∀ k < 2 ^ 32, des.pixels % 2 ^ 32 = 0 ∨ 3 * (des.pixels % 2 ^ 32) < k →
          memory (des.layerGramAddr + BitVec.ofNat 32 k) = colorByte color 0) := by
  rcases lt_or_ge (3 * des.pixels) (2 ^ 32) with hfits | hfits
  · rw [painted_iff_of_fits hfits, and_iff_right hfits]
    exact (or_iff_left (not_and_of_not_left _ (not_le.mpr hfits))).symm
  · rw [painted_iff_of_not_fits hfits, and_iff_right hfits]
    exact (or_iff_right (not_and_of_not_left _ (not_lt.mpr hfits))).symm

/-- A single pixel of black with a high byte in a memory of zeros changes the byte behind it. -/
theorem onePixel_not_painted :
    ¬ Painted ⟨1, 1, 0xC1800000⟩ 0xFF000000 (fun _ ↦ 0)
      (paint ⟨1, 1, 0xC1800000⟩ 0xFF000000 fun _ ↦ 0) := by
  rw [painted_iff_of_fits (by decide)]
  decide

end Vodka.Bsp.Lcd

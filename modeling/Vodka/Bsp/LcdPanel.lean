import Mathlib.Tactic
import Vodka.Bsp.LcdInit

/-!
# The picture on the panel

Behind `bsp_lcd_init` the beam shows the frame buffer of the highest layer in
the active area and nothing elsewhere, as long as a line of pixels fits into the
line length register, which the checks of the HAL do not ask.
-/

namespace Vodka.Bsp.LcdPanel

open Ltdc LcdInit Foundation.BitFields

/-- The position is in the active area. -/
def BspLcdDev.Active (dev : BspLcdDev) (column line : ℕ) : Prop :=
  (dev.hsw.toNat + dev.hbp.toNat ≤ column ∧
      column < dev.hsw.toNat + dev.hbp.toNat + dev.width.toNat) ∧
    dev.vsw.toNat + dev.vbp.toNat ≤ line ∧
      line < dev.vsw.toNat + dev.vbp.toNat + dev.height.toNat

instance (dev : BspLcdDev) (column line : ℕ) : Decidable (BspLcdDev.Active dev column line) :=
  inferInstanceAs (Decidable (_ ∧ _))

/-- The number of the pixel at a position of the active area. -/
def BspLcdDev.pixelAt (dev : BspLcdDev) (column line : ℕ) : ℕ :=
  dev.width.toNat * (line - (dev.vsw.toNat + dev.vbp.toNat)) +
    (column - (dev.hsw.toNat + dev.hbp.toNat))

section Layer

variable {dev : BspLcdDev}

/-- The registers of a layer of a descriptor. -/
def layerOf (dev : BspLcdDev) (registers : Registers) (gram : BitVec 32) (old : LayerRegisters) :
    LayerRegisters :=
  ltdcSetConfig (initRegisters (ltdcInit dev) registers).bpcr (layerCfg dev gram) old

/-- The fields of the layer's registers, as numbers of columns, lines and bytes. -/
structure LayerFields (dev : BspLcdDev) (layer : LayerRegisters) : Prop where
  enabled : field layer.cr 0 1 = 1
  hstart : field layer.whpcr 0 12 = dev.hsw.toNat + dev.hbp.toNat
  hstop : field layer.whpcr 16 16 = dev.hsw.toNat + dev.hbp.toNat + dev.width.toNat - 1
  vstart : field layer.wvpcr 0 12 = dev.vsw.toNat + dev.vbp.toNat
  vstop : field layer.wvpcr 16 16 = dev.vsw.toNat + dev.vbp.toNat + dev.height.toNat - 1
  lineLength : field layer.cfblr 0 13 = (3 * dev.width.toNat + 7) % 2 ^ 13
  pitch : field layer.cfblr 16 13 = 3 * dev.width.toNat % 2 ^ 13
  lines : field layer.cfblnr 0 11 = dev.height.toNat

/-- The first and the last position of a window from the origin. -/
theorem window_fields {start size : BitVec 32} (h : start.toNat + 1 + size.toNat < 2 ^ 12) :
    field (pack (size + start) (0 + start + 1) 16) 0 12 = start.toNat + 1 ∧
      field (pack (size + start) (0 + start + 1) 16) 16 16 = start.toNat + size.toNat := by
  have hlow : (0 + start + 1).toNat = start.toNat + 1 := by bv_omega
  have hhigh : (size + start).toNat = start.toNat + size.toNat := by bv_omega
  rw [field_pack_low (by omega) (by omega) (by decide), hlow, Nat.mod_eq_of_lt (by omega),
    field_pack_high (by omega) (by omega) (by omega), hhigh]
  exact ⟨rfl, rfl⟩

/-- The pitch and the length of a line of pixels of three bytes. -/
theorem line_fields {width : BitVec 32} (h : width.toNat < 2 ^ 12) :
    field (pack (width * 3) ((width - 0) * 3 + 7) 16) 0 13 = (3 * width.toNat + 7) % 2 ^ 13 ∧
      field (pack (width * 3) ((width - 0) * 3 + 7) 16) 16 13 = 3 * width.toNat % 2 ^ 13 := by
  have hpitch : (width * 3).toNat = 3 * width.toNat := by
    rw [BitVec.toNat_mul, show (3 : BitVec 32).toNat = 3 from rfl, Nat.mod_eq_of_lt (by omega),
      Nat.mul_comm]
  have hlength : ((width - 0) * 3 + 7).toNat = 3 * width.toNat + 7 := by
    rw [show width - 0 = width from BitVec.sub_zero width, BitVec.toNat_add, hpitch,
      show (7 : BitVec 32).toNat = 7 from rfl, Nat.mod_eq_of_lt (by omega)]
  generalize (width - 0) * 3 + 7 = length at hlength ⊢
  generalize width * 3 = pitch at hpitch ⊢
  have hlow : length.toNat < 2 ^ 16 := by omega
  have hhigh : pitch.toNat * 2 ^ 16 < 2 ^ 32 := by omega
  refine ⟨by rw [field_pack_low hlow hhigh (by decide), hlength], ?_⟩
  rw [field_eq, toNat_pack hlow hhigh, Nat.add_comm, Nat.add_mul_div_right _ _ (by decide),
    Nat.div_eq_of_lt hlow, Nat.zero_add, hpitch]

theorem layerFields (hhsw : dev.hsw ≠ 0) (hvsw : dev.vsw ≠ 0) (hhfp : dev.hfp ≠ 0)
    (hvfp : dev.vfp ≠ 0) (hfits : dev.Fits) (registers : Registers) (gram : BitVec 32)
    (old : LayerRegisters) : LayerFields dev (layerOf dev registers gram old) := by
  have hline := hfits.line
  have hframe := hfits.frame
  have hhpos : 0 < dev.hsw.toNat := by bv_omega
  have hvpos : 0 < dev.vsw.toNat := by bv_omega
  have hhfront : 0 < dev.hfp.toNat := by bv_omega
  have hvfront : 0 < dev.vfp.toNat := by bv_omega
  have hahbp : (ltdcInit dev).accumulatedHbp.toNat = dev.hsw.toNat + dev.hbp.toNat - 1 := by
    rw [show (ltdcInit dev).accumulatedHbp = dev.hbp + (dev.hsw - 1) from rfl]
    bv_omega
  have havbp : (ltdcInit dev).accumulatedVbp.toNat = dev.vsw.toNat + dev.vbp.toNat - 1 := by
    rw [show (ltdcInit dev).accumulatedVbp = dev.vbp + (dev.vsw - 1) from rfl]
    bv_omega
  obtain ⟨hhporch, hvporch⟩ := @field_timing (ltdcInit dev).accumulatedHbp
    (ltdcInit dev).accumulatedVbp (by bv_omega) (by bv_omega) registers.bpcr
  have hhstart := (toNat_ahbp _).trans (hhporch.trans hahbp)
  have hvstart := (toNat_avbp _).trans (hvporch.trans havbp)
  obtain ⟨hwhstart, hwhstop⟩ := @window_fields _ dev.width (by rw [hhstart]; omega)
  obtain ⟨hwvstart, hwvstop⟩ := @window_fields _ dev.height (by rw [hvstart]; omega)
  obtain ⟨hlength, hpitch⟩ := @line_fields dev.width (by omega)
  exact
    { enabled := by
        rw [field_one_iff]
        simp [layerOf, ltdcSetConfig]
      hstart := hwhstart.trans (by rw [hhstart]; omega)
      hstop := hwhstop.trans (by rw [hhstart]; omega)
      vstart := hwvstart.trans (by rw [hvstart]; omega)
      vstop := hwvstop.trans (by rw [hvstart]; omega)
      lineLength := hlength
      pitch := hpitch
      lines := by
        rw [field_eq, pow_zero, Nat.div_one]
        exact Nat.mod_eq_of_lt (show dev.height.toNat < 2 ^ 11 by omega) }

variable {layer : LayerRegisters} {column line : ℕ}

/-- A layer covers the active area. -/
theorem covers_iff (h : LayerFields dev layer) (hhsw : dev.hsw ≠ 0) (hvsw : dev.vsw ≠ 0) :
    layer.Covers column line ↔ BspLcdDev.Active dev column line := by
  have hhpos : 0 < dev.hsw.toNat := by bv_omega
  have hvpos : 0 < dev.vsw.toNat := by bv_omega
  rw [LayerRegisters.Covers, BspLcdDev.Active, h.enabled, h.hstart, h.hstop, h.vstart, h.vstop]
  omega

theorem opaque_layerOf (registers : Registers) (gram : BitVec 32) (old : LayerRegisters) :
    (layerOf dev registers gram old).Opaque := by
  simp only [LayerRegisters.Opaque, layerOf, ltdcSetConfig, layerCfg]
  decide

/-- The fetched address, while the line of pixels fits into the line length register. -/
theorem fetch_of_short {registers : Registers} {gram : BitVec 32} {old : LayerRegisters}
    (h : LayerFields dev (layerOf dev registers gram old))
    (hshort : 3 * dev.width.toNat + 7 < 2 ^ 13) (hactive : BspLcdDev.Active dev column line) :
    (layerOf dev registers gram old).fetch column line =
      some (gram + BitVec.ofNat 32 (3 * BspLcdDev.pixelAt dev column line)) := by
  obtain ⟨⟨hleft, hright⟩, htop, hbottom⟩ := hactive
  have hbytes : (pixelBytes ((layerOf dev registers gram old).pfcr &&& 7)).toNat = 3 := by
    simp only [layerOf, ltdcSetConfig, layerCfg]
    decide
  simp only [LayerRegisters.fetch, hbytes, h.hstart, h.vstart, h.lineLength, h.pitch, h.lines,
    BspLcdDev.pixelAt]
  rw [Nat.mod_eq_of_lt hshort, Nat.mod_eq_of_lt (by omega), if_pos (by omega), Nat.mul_add,
    Nat.mul_assoc]
  rfl

/-- A longer line is cut off. -/
theorem fetch_of_long {registers : Registers} {gram : BitVec 32} {old : LayerRegisters}
    (h : LayerFields dev (layerOf dev registers gram old)) (hwidth : dev.width.toNat < 2 ^ 12)
    (hlong : 2 ^ 13 ≤ 3 * dev.width.toNat + 7) :
    (layerOf dev registers gram old).fetch
      (dev.hsw.toNat + dev.hbp.toNat + (dev.width.toNat - 1)) line = none := by
  have hbytes : (pixelBytes ((layerOf dev registers gram old).pfcr &&& 7)).toNat = 3 := by
    simp only [layerOf, ltdcSetConfig, layerCfg]
    decide
  simp only [LayerRegisters.fetch, hbytes, h.hstart, h.lineLength]
  rw [if_neg (by omega)]

end Layer

/-- The frame buffer of the highest layer. -/
def BspLcdDes.frontBuffer (des : LcdInit.BspLcdDes) : BitVec 32 :=
  des.layerGramAddr (des.layerNum.toNat - 1)

/-- The active area shows the pixels from an address on, and nothing else is shown. -/
def Shows (dev : BspLcdDev) (base : BitVec 32) (registers : Registers) : Prop :=
  ∀ column line, registers.visible column line =
    if BspLcdDev.Active dev column line then
      some (base + BitVec.ofNat 32 (3 * BspLcdDev.pixelAt dev column line))
    else none

/-- A second layer that is not configured is off, as after reset. -/
def SecondOff (board : Board) : Prop :=
  board.des.layerNum = 1 → field (board.ltdc.registers.layers 1).cr 0 1 = 0

section Panel

variable {board after : Board}

/-- No member of the timings is zero, and there is a layer. -/
structure Positive (des : LcdInit.BspLcdDes) : Prop where
  hsw : des.dev.hsw ≠ 0
  vsw : des.dev.vsw ≠ 0
  hfp : des.dev.hfp ≠ 0
  vfp : des.dev.vfp ≠ 0
  width : des.dev.width ≠ 0
  height : des.dev.height ≠ 0
  layers : des.layerNum ≠ 0

theorem positive_setDefaultDes (gram : Gram) (given : Option LcdInit.BspLcdDes) :
    Positive (setDefaultDes gram given) := by
  constructor <;> exact setValIfZero_ne (by decide)

/-- A configured layer covers the active area, and nothing below it is seen. -/
theorem covers_configured (hconfigured : Configured board after) (hpositive : Positive board.des)
    (hfits : board.des.dev.Fits) {i : ℕ} (hi : i < board.des.layerNum.toNat) (column line : ℕ) :
    ((after.ltdc.registers.layers i).Covers column line ↔
      BspLcdDev.Active board.des.dev column line) ∧ (after.ltdc.registers.layers i).Opaque := by
  rw [hconfigured.inside i hi]
  exact ⟨covers_iff (layerFields hpositive.hsw hpositive.vsw hpositive.hfp hpositive.vfp hfits ..)
    hpositive.hsw hpositive.vsw, opaque_layerOf ..⟩

/-- The highest layer is what the beam meets in the active area. -/
theorem visible_eq (hconfigured : Configured board after) (hpositive : Positive board.des)
    (hfits : board.des.dev.Fits) (hlayers : board.des.layerNum.toNat ≤ 2)
    (hoff : SecondOff board) (column line : ℕ) :
    after.ltdc.registers.visible column line =
      if BspLcdDev.Active board.des.dev column line then
        (after.ltdc.registers.layers (board.des.layerNum.toNat - 1)).fetch column line
      else none := by
  have hpos : 0 < board.des.layerNum.toNat :=
    BitVec.toNat_pos_of_ne_zero hpositive.layers
  obtain ⟨hfirst, hopaque⟩ := covers_configured hconfigured hpositive hfits hpos column line
  rw [Registers.visible, if_pos hconfigured.enabled]
  obtain hone | htwo : board.des.layerNum.toNat = 1 ∨ board.des.layerNum.toNat = 2 := by omega
  · have hsecond : ¬ (after.ltdc.registers.layers 1).Covers column line := by
      rw [hconfigured.outside 1 hone.le, LayerRegisters.Covers, hoff (BitVec.eq_of_toNat_eq hone)]
      simp
    by_cases hactive : BspLcdDev.Active board.des.dev column line
    · simp [hone, hsecond, hfirst.mpr hactive, hopaque, hactive]
    · simp [hsecond, mt hfirst.mp hactive, hactive]
  · obtain ⟨hsecond, htop⟩ :=
      covers_configured hconfigured hpositive hfits (htwo ▸ Nat.one_lt_two) column line
    by_cases hactive : BspLcdDev.Active board.des.dev column line
    · simp [htwo, hsecond.mpr hactive, htop, hactive]
    · simp [mt hsecond.mp hactive, mt hfirst.mp hactive, hactive]

/-- The checks of the HAL leave out the length of a line in bytes. -/
theorem shows_iff (hconfigured : Configured board after) (hpositive : Positive board.des)
    (hfits : board.des.dev.Fits) (hlayers : board.des.layerNum.toNat ≤ 2)
    (hoff : SecondOff board) :
    Shows board.des.dev (BspLcdDes.frontBuffer board.des) after.ltdc.registers ↔
      3 * board.des.dev.width.toNat + 7 < 2 ^ 13 := by
  have hpos : 0 < board.des.layerNum.toNat :=
    BitVec.toNat_pos_of_ne_zero hpositive.layers
  have hfields := fun gram old ↦ layerFields hpositive.hsw hpositive.vsw hpositive.hfp
    hpositive.vfp hfits board.ltdc.registers gram old
  have htop := hconfigured.inside (board.des.layerNum.toNat - 1) (by omega)
  constructor
  · intro hshows
    by_contra hlong
    have hcolumns : 0 < board.des.dev.width.toNat :=
      BitVec.toNat_pos_of_ne_zero hpositive.width
    have hrows : 0 < board.des.dev.height.toNat :=
      BitVec.toNat_pos_of_ne_zero hpositive.height
    have hfront : 0 < board.des.dev.hfp.toNat :=
      BitVec.toNat_pos_of_ne_zero hpositive.hfp
    have hline := hfits.line
    have hcorner : BspLcdDev.Active board.des.dev
        (board.des.dev.hsw.toNat + board.des.dev.hbp.toNat + (board.des.dev.width.toNat - 1))
        (board.des.dev.vsw.toNat + board.des.dev.vbp.toNat) :=
      ⟨by omega, by omega⟩
    have hseen := hshows
      (board.des.dev.hsw.toNat + board.des.dev.hbp.toNat + (board.des.dev.width.toNat - 1))
      (board.des.dev.vsw.toNat + board.des.dev.vbp.toNat)
    rw [visible_eq hconfigured hpositive hfits hlayers hoff, if_pos hcorner, htop, if_pos hcorner]
      at hseen
    exact absurd (hseen.symm.trans (fetch_of_long (hfields ..) (by omega) (by omega))) (by simp)
  · intro hshort column line
    rw [visible_eq hconfigured hpositive hfits hlayers hoff, htop]
    split_ifs with hactive
    · exact fetch_of_short (hfields ..) hshort hactive
    · rfl

/-- **The picture behind the initialisation.** For a descriptor that `set_default_des` has
completed the initialisation ends in success with the timings of the descriptor and the frame
buffer of its highest layer in the active area just when the backlight starts, a line and a frame
fit, there are at most two layers and the length register has room for a line. -/
theorem bspLcdInit_shows_iff (platform : Platform) {board : Board} {gram : Gram}
    {given : Option LcdInit.BspLcdDes} (hdes : board.des = setDefaultDes gram given)
    (hfree : LtdcHandle.Free board.ltdc) (hoff : SecondOff board) :
    (∃ after, bspLcdInit platform board = some ⟨0, after⟩ ∧
        after.ltdc.registers.timings = board.des.dev.timings ∧
        Shows board.des.dev (BspLcdDes.frontBuffer board.des) after.ltdc.registers) ↔
      BkltStarts platform board ∧ board.des.dev.Fits ∧ board.des.layerNum.toNat ≤ 2 ∧
        3 * board.des.dev.width.toNat + 7 < 2 ^ 13 := by
  have hpositive : Positive board.des := hdes ▸ positive_setDefaultDes gram given
  have htimings := bspLcdInit_timings_iff platform hdes hfree
  constructor
  · rintro ⟨after, hafter, hshown, hshows⟩
    obtain ⟨hstarts, hfits, hlayers⟩ := htimings.mp ⟨after, hafter, hshown⟩
    have hconfigured := configured_of_bspLcdInit hfree hafter
    exact ⟨hstarts, hfits, hlayers,
      (shows_iff hconfigured hpositive hfits hlayers hoff).mp hshows⟩
  · rintro ⟨hstarts, hfits, hlayers, hshort⟩
    obtain ⟨after, hafter, hshown⟩ := htimings.mpr ⟨hstarts, hfits, hlayers⟩
    have hconfigured := configured_of_bspLcdInit hfree hafter
    exact ⟨after, hafter, hshown,
      (shows_iff hconfigured hpositive hfits hlayers hoff).mpr hshort⟩

end Panel

theorem bspLcdInit_shows_iff_default :
    ∃ after, bspLcdInit readyPlatform (freshBoard ⟨0xC0000000, 0xC0180000⟩) = some ⟨0, after⟩ ∧
      after.ltdc.registers.timings = ⟨1, 80, 800, 200, 1, 40, 480, 22⟩ ∧
      Shows (freshBoard ⟨0xC0000000, 0xC0180000⟩).des.dev 0xC0000000 after.ltdc.registers :=
  (bspLcdInit_shows_iff readyPlatform rfl (Or.inl rfl) fun _ ↦ by decide).mpr
    ⟨⟨by decide, rfl, rfl, rfl⟩, ⟨by decide, by decide⟩, by decide, by decide⟩

end Vodka.Bsp.LcdPanel

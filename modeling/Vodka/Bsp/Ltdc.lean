import Mathlib.Tactic
import Vodka.Foundation.BitFields

/-!
# The display controller

The HAL functions of the LTDC that the LCD module calls, on the registers of the
controller and its two layers. A parameter that fails its check ends in
`assert_failed`, which does not return. The beam counts columns and lines from
the start of the synchronisation pulses; what the registers mean to it is read
off their fields. Registers of colours and dithering that the beam's addresses do
not depend on are kept as the HAL writes them.
-/

namespace Vodka.Bsp.Ltdc

open Foundation.BitFields

/-- `LTDC_Layer_TypeDef` -/
structure LayerRegisters where
  cr : BitVec 32
  whpcr : BitVec 32
  wvpcr : BitVec 32
  pfcr : BitVec 32
  cacr : BitVec 32
  dccr : BitVec 32
  bfcr : BitVec 32
  cfbar : BitVec 32
  cfblr : BitVec 32
  cfblnr : BitVec 32

/-- `LTDC_TypeDef` and the two layers behind it. -/
structure Registers where
  sscr : BitVec 32
  bpcr : BitVec 32
  awcr : BitVec 32
  twcr : BitVec 32
  gcr : BitVec 32
  srcr : BitVec 32
  bccr : BitVec 32
  ier : BitVec 32
  isr : BitVec 32
  lipcr : BitVec 32
  layers : ℕ → LayerRegisters

/-- `LTDC_ColorTypeDef` -/
structure Color where
  blue : BitVec 8
  green : BitVec 8
  red : BitVec 8

/-- `LTDC_InitTypeDef` -/
structure LtdcInit where
  hsPolarity : BitVec 32
  vsPolarity : BitVec 32
  dePolarity : BitVec 32
  pcPolarity : BitVec 32
  horizontalSync : BitVec 32
  verticalSync : BitVec 32
  accumulatedHbp : BitVec 32
  accumulatedVbp : BitVec 32
  accumulatedActiveW : BitVec 32
  accumulatedActiveH : BitVec 32
  totalWidth : BitVec 32
  totalHeigh : BitVec 32
  backcolor : Color

/-- `LTDC_LayerCfgTypeDef` -/
structure LayerCfg where
  windowX0 : BitVec 32
  windowX1 : BitVec 32
  windowY0 : BitVec 32
  windowY1 : BitVec 32
  pixelFormat : BitVec 32
  alpha : BitVec 32
  alpha0 : BitVec 32
  blendingFactor1 : BitVec 32
  blendingFactor2 : BitVec 32
  fbStartAdress : BitVec 32
  imageWidth : BitVec 32
  imageHeight : BitVec 32
  backcolor : Color

inductive HalStatus
  | ok
  | error
  | busy
  | timeout
  deriving DecidableEq

/-- The controller, the handle (its settings, whether its state is
`HAL_LTDC_STATE_RESET` and whether it is locked) and the enabling of its interrupt. -/
structure LtdcHandle where
  registers : Registers
  init : LtdcInit
  reset : Bool
  locked : Bool
  nvic : Bool

def LTDC_HORIZONTALSYNC : BitVec 32 := 0xFFF

def LTDC_VERTICALSYNC : BitVec 32 := 0x7FF

/-- The parameters that `HAL_LTDC_Init` checks. -/
def InitChecked (init : LtdcInit) : Prop :=
  init.horizontalSync ≤ LTDC_HORIZONTALSYNC ∧ init.verticalSync ≤ LTDC_VERTICALSYNC ∧
    init.accumulatedHbp ≤ LTDC_HORIZONTALSYNC ∧ init.accumulatedVbp ≤ LTDC_VERTICALSYNC ∧
    init.accumulatedActiveH ≤ LTDC_VERTICALSYNC ∧ init.accumulatedActiveW ≤ LTDC_HORIZONTALSYNC ∧
    init.totalHeigh ≤ LTDC_VERTICALSYNC ∧ init.totalWidth ≤ LTDC_HORIZONTALSYNC ∧
    (init.hsPolarity = 0 ∨ init.hsPolarity = 0x80000000) ∧
    (init.vsPolarity = 0 ∨ init.vsPolarity = 0x40000000) ∧
    (init.dePolarity = 0 ∨ init.dePolarity = 0x20000000) ∧
    (init.pcPolarity = 0 ∨ init.pcPolarity = 0x10000000)

instance (init : LtdcInit) : Decidable (InitChecked init) := inferInstanceAs (Decidable (_ ∧ _))

def Color.word (color : Color) : BitVec 32 :=
  color.blue.setWidth 32 ||| color.green.setWidth 32 <<< 8 ||| color.red.setWidth 32 <<< 16

def LTDC_IT_LI : BitVec 32 := 0x1

def LTDC_IT_FU : BitVec 32 := 0x2

def LTDC_IT_TE : BitVec 32 := 0x4

def LTDC_GCR_LTDCEN : BitVec 32 := 0x1

def LTDC_GCR_DEN : BitVec 32 := 0x10000

/-- The register writes of `HAL_LTDC_Init`. -/
def initRegisters (init : LtdcInit) (registers : Registers) : Registers :=
  { registers with
    gcr := replace registers.gcr 0xF0000000
      (init.hsPolarity ||| init.vsPolarity ||| init.dePolarity ||| init.pcPolarity) |||
        LTDC_GCR_LTDCEN
    sscr := replace registers.sscr 0x0FFF07FF (pack init.horizontalSync init.verticalSync 16)
    bpcr := replace registers.bpcr 0x0FFF07FF (pack init.accumulatedHbp init.accumulatedVbp 16)
    awcr := replace registers.awcr 0x0FFF07FF
      (pack init.accumulatedActiveW init.accumulatedActiveH 16)
    twcr := replace registers.twcr 0x0FFF07FF (pack init.totalWidth init.totalHeigh 16)
    bccr := replace registers.bccr 0x00FFFFFF init.backcolor.word
    ier := registers.ier ||| (LTDC_IT_TE ||| LTDC_IT_FU) }

/-- `HAL_LTDC_Init`. In the reset state `HAL_LTDC_MspInit` is called, which enables the
interrupt. -/
def halLtdcInit (ltdc : LtdcHandle) : Option (LtdcHandle × HalStatus) :=
  if InitChecked ltdc.init then
    let ltdc := if ltdc.reset then { ltdc with locked := false, nvic := true } else ltdc
    some ({ ltdc with
      reset := false
      registers := initRegisters ltdc.init ltdc.registers }, .ok)
  else none

def halLtdcDisableDither (ltdc : LtdcHandle) : LtdcHandle × HalStatus :=
  if ltdc.locked then (ltdc, .busy)
  else ({ ltdc with
    reset := false
    registers := { ltdc.registers with gcr := ltdc.registers.gcr &&& ~~~LTDC_GCR_DEN } }, .ok)

/-- The bytes of a pixel. -/
def pixelBytes (pixelFormat : BitVec 32) : BitVec 32 :=
  if pixelFormat = 0 then 4
  else if pixelFormat = 1 then 3
  else if pixelFormat = 4 ∨ pixelFormat = 2 ∨ pixelFormat = 3 ∨ pixelFormat = 7 then 2
  else 1

/-- `LTDC_SetConfig`: the registers of the layer. -/
def ltdcSetConfig (bpcr : BitVec 32) (cfg : LayerCfg) (layer : LayerRegisters) : LayerRegisters :=
  let ahbp := (bpcr &&& 0x0FFF0000) >>> 16
  let avbp := bpcr &&& 0x7FF
  let bytes := pixelBytes cfg.pixelFormat
  { cr := layer.cr ||| 1
    whpcr := pack (cfg.windowX1 + ahbp) (cfg.windowX0 + ahbp + 1) 16
    wvpcr := pack (cfg.windowY1 + avbp) (cfg.windowY0 + avbp + 1) 16
    pfcr := cfg.pixelFormat
    cacr := cfg.alpha
    dccr := cfg.backcolor.word ||| cfg.alpha0 <<< 24
    bfcr := cfg.blendingFactor1 ||| cfg.blendingFactor2
    cfbar := cfg.fbStartAdress
    cfblr := pack (cfg.imageWidth * bytes) ((cfg.windowX1 - cfg.windowX0) * bytes + 7) 16
    cfblnr := cfg.imageHeight }

/-- The parameters that `HAL_LTDC_ConfigLayer` checks. -/
def LayerChecked (cfg : LayerCfg) (layerIdx : ℕ) : Prop :=
  layerIdx < 2 ∧ cfg.windowX0 ≤ 0xFFF ∧ cfg.windowX1 ≤ 0xFFFF ∧ cfg.windowY0 ≤ 0xFFF ∧
    cfg.windowY1 ≤ 0xFFFF ∧ cfg.pixelFormat ≤ 7 ∧ cfg.alpha ≤ 0xFF ∧ cfg.alpha0 ≤ 0xFF ∧
    (cfg.blendingFactor1 = 0x400 ∨ cfg.blendingFactor1 = 0x600) ∧
    (cfg.blendingFactor2 = 0x5 ∨ cfg.blendingFactor2 = 0x7) ∧ cfg.imageWidth ≤ 0x1FFF ∧
    cfg.imageHeight ≤ 0x7FF

instance (cfg : LayerCfg) (layerIdx : ℕ) : Decidable (LayerChecked cfg layerIdx) :=
  inferInstanceAs (Decidable (_ ∧ _))

def LTDC_SRCR_IMR : BitVec 32 := 0x1

def halLtdcConfigLayer (cfg : LayerCfg) (layerIdx : ℕ) (ltdc : LtdcHandle) :
    Option (LtdcHandle × HalStatus) :=
  if LayerChecked cfg layerIdx then
    if ltdc.locked then some (ltdc, .busy)
    else
      let registers := ltdc.registers
      some ({ ltdc with
        reset := false
        registers := { registers with
          layers := Function.update registers.layers layerIdx
            (ltdcSetConfig registers.bpcr cfg (registers.layers layerIdx))
          srcr := LTDC_SRCR_IMR } }, .ok)
  else none

def halLtdcProgramLineEvent (line : BitVec 32) (ltdc : LtdcHandle) :
    Option (LtdcHandle × HalStatus) :=
  if line ≤ 0x7FF then
    if ltdc.locked then some (ltdc, .busy)
    else some ({ ltdc with
      reset := false
      registers := { ltdc.registers with
        lipcr := line
        ier := ltdc.registers.ier &&& ~~~LTDC_IT_LI ||| LTDC_IT_LI } }, .ok)
  else none

/-- Widths of pulses, porches and the active area, in columns and lines. -/
structure Timings where
  hsw : ℤ
  hbp : ℤ
  width : ℤ
  hfp : ℤ
  vsw : ℤ
  vbp : ℤ
  height : ℤ
  vfp : ℤ

/-- The timings that the accumulated fields mean. -/
def Registers.timings (registers : Registers) : Timings where
  hsw := field registers.sscr 16 12 + 1
  hbp := field registers.bpcr 16 12 - field registers.sscr 16 12
  width := field registers.awcr 16 12 - field registers.bpcr 16 12
  hfp := field registers.twcr 16 12 - field registers.awcr 16 12
  vsw := field registers.sscr 0 11 + 1
  vbp := field registers.bpcr 0 11 - field registers.sscr 0 11
  height := field registers.awcr 0 11 - field registers.bpcr 0 11
  vfp := field registers.twcr 0 11 - field registers.awcr 0 11

/-- The layer is enabled and its window is around the position. -/
def LayerRegisters.Covers (layer : LayerRegisters) (column line : ℕ) : Prop :=
  field layer.cr 0 1 = 1 ∧
    (field layer.whpcr 0 12 ≤ column ∧ column ≤ field layer.whpcr 16 16) ∧
    field layer.wvpcr 0 12 ≤ line ∧ line ≤ field layer.wvpcr 16 16

instance (layer : LayerRegisters) (column line : ℕ) : Decidable (layer.Covers column line) :=
  inferInstanceAs (Decidable (_ ∧ _))

/-- Constant alpha is 255, and both blending factors are the constant alpha: nothing below the
layer is seen. -/
def LayerRegisters.Opaque (layer : LayerRegisters) : Prop :=
  field layer.cacr 0 8 = 0xFF ∧ field layer.bfcr 8 3 = 4 ∧ field layer.bfcr 0 3 = 5

instance (layer : LayerRegisters) : Decidable layer.Opaque := inferInstanceAs (Decidable (_ ∧ _))

/-- The address of the pixel that is fetched for a position of the window, none behind the end of
the fetched line or of the last line. The line length is seven more than its bytes. -/
def LayerRegisters.fetch (layer : LayerRegisters) (column line : ℕ) : Option (BitVec 32) :=
  let x := column - field layer.whpcr 0 12
  let y := line - field layer.wvpcr 0 12
  let bytes := (pixelBytes (layer.pfcr &&& 7)).toNat
  if bytes * (x + 1) + 7 ≤ field layer.cfblr 0 13 ∧ y < field layer.cfblnr 0 11 then
    some (layer.cfbar + BitVec.ofNat 32 (field layer.cfblr 16 13 * y + bytes * x))
  else none

/-- The address of the pixel that is seen at a position. The second layer lies above the first
one. -/
def Registers.visible (registers : Registers) (column line : ℕ) : Option (BitVec 32) :=
  if field registers.gcr 0 1 = 1 then
    let top := [registers.layers 1, registers.layers 0].find? fun layer ↦
      decide (layer.Covers column line)
    top.bind fun layer ↦ if layer.Opaque then layer.fetch column line else none
  else none

/-- Two accumulated values in one register are read back. -/
theorem field_timing {horizontal vertical : BitVec 32} (hhorizontal : horizontal ≤ 0xFFF)
    (hvertical : vertical ≤ 0x7FF) (old : BitVec 32) :
    field (replace old 0x0FFF07FF (pack horizontal vertical 16)) 16 12 = horizontal.toNat ∧
      field (replace old 0x0FFF07FF (pack horizontal vertical 16)) 0 11 = vertical.toNat := by
  rw [BitVec.le_def] at hhorizontal hvertical
  have hlow : vertical.toNat ≤ 0x7FF := hvertical
  have hhigh : horizontal.toNat ≤ 0xFFF := hhorizontal
  rw [field_replace (by decide), field_replace (by decide),
    field_pack_high (by omega) (by omega) (by omega), field_pack_low (by omega) (by omega)
    (by decide), Nat.mod_eq_of_lt (by omega)]
  exact ⟨rfl, rfl⟩

/-- The timings of checked settings. -/
theorem timings_initRegisters {init : LtdcInit} (h : InitChecked init) (registers : Registers) :
    (initRegisters init registers).timings =
      { hsw := init.horizontalSync.toNat + 1
        hbp := init.accumulatedHbp.toNat - init.horizontalSync.toNat
        width := init.accumulatedActiveW.toNat - init.accumulatedHbp.toNat
        hfp := init.totalWidth.toNat - init.accumulatedActiveW.toNat
        vsw := init.verticalSync.toNat + 1
        vbp := init.accumulatedVbp.toNat - init.verticalSync.toNat
        height := init.accumulatedActiveH.toNat - init.accumulatedVbp.toNat
        vfp := init.totalHeigh.toNat - init.accumulatedActiveH.toNat } := by
  obtain ⟨hhs, hvs, hhbp, hvbp, haah, haaw, htoth, htotw, -⟩ := h
  obtain ⟨hsync, vsync⟩ := field_timing hhs hvs registers.sscr
  obtain ⟨hporch, vporch⟩ := field_timing hhbp hvbp registers.bpcr
  obtain ⟨hactive, vactive⟩ := field_timing haaw haah registers.awcr
  obtain ⟨htotal, vtotal⟩ := field_timing htotw htoth registers.twcr
  simp only [Registers.timings, initRegisters, hsync, vsync, hporch, vporch, hactive, vactive,
    htotal, vtotal]

theorem toNat_ahbp (bpcr : BitVec 32) :
    ((bpcr &&& 0x0FFF0000) >>> 16).toNat = field bpcr 16 12 := by
  have hmask : (0x0FFF0000 : BitVec 32) >>> 16 = 0xFFF := by decide
  rw [BitVec.ushiftRight_and_distrib, hmask, BitVec.toNat_and, BitVec.toNat_ushiftRight, field_eq,
    Nat.shiftRight_eq_div_pow]
  exact Nat.and_two_pow_sub_one_eq_mod _ 12

theorem toNat_avbp (bpcr : BitVec 32) : (bpcr &&& 0x7FF).toNat = field bpcr 0 11 := by
  rw [BitVec.toNat_and, field_eq, pow_zero, Nat.div_one]
  exact Nat.and_two_pow_sub_one_eq_mod _ 11

end Vodka.Bsp.Ltdc

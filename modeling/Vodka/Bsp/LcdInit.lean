import Mathlib.Tactic
import Vodka.Bsp.Ltdc
import Vodka.Bsp.PeriphClk

/-!
# Setting the display up

`set_default_des` completes a descriptor, and `bsp_lcd_init` sets up the
backlight, the timings and the layers of the display controller and its line
interrupt. The timings are accumulated in 32-bit arithmetic before the HAL
checks them, and a value out of range ends in `assert_failed`, which does not
return. The HAL calls for the timer of the backlight are parameters.
-/

namespace Vodka.Bsp.LcdInit

open Ltdc PeriphClk Foundation.BitFields

open Utils (BspUtilsPeriphDes ENODEV)

def EBUSY : ℤ := 16

/-- `struct bsp_lcd_dev` -/
structure BspLcdDev where
  hbp : BitVec 32
  vbp : BitVec 32
  hsw : BitVec 32
  vsw : BitVec 32
  hfp : BitVec 32
  vfp : BitVec 32
  width : BitVec 32
  height : BitVec 32

/-- A write to a compare register: the timer, the channel and the value. -/
structure Compare where
  timer : ℕ
  channel : ℕ
  value : BitVec 32

/-- What the brightness operations work on: the instance in `_htim_bklt` and the writes to
compare registers so far. -/
structure Backlight where
  instanceAddr : ℕ
  writes : List Compare

/-- `__HAL_TIM_SetCompare` -/
def halTimSetCompare (channel : ℕ) (value : BitVec 32) (backlight : Backlight) : Backlight :=
  { backlight with writes := backlight.writes ++ [⟨backlight.instanceAddr, channel, value⟩] }

abbrev BrightnessOp := BitVec 8 → Backlight → Backlight

/-- `bklt_set_brightness` for the channel of the module's descriptor. -/
def bkltSetBrightness (channel : ℕ) : BrightnessOp :=
  fun brightness backlight ↦ halTimSetCompare channel (brightness.setWidth 32) backlight

/-- The settings of `struct bsp_lcd_des`. -/
structure BspLcdDes where
  dev : BspLcdDev
  setBrightness : Option BrightnessOp
  bkltTimer : ℕ
  bkltTimerCh : ℕ
  layerNum : BitVec 32
  layerGramAddr0 : BitVec 32
  layerGramAddr1 : BitVec 32

/-- `SET_VAL_IF_ZERO` -/
def setValIfZero (value default : BitVec 32) : BitVec 32 := if value = 0 then default else value

def TIM12 : ℕ := D2_APB1PERIPH_BASE + 0x1800

/-- The symbols of the linker script for the frame buffers. -/
structure Gram where
  sgram0 : BitVec 32
  sgram1 : BitVec 32

/-- A descriptor from `calloc`. -/
def zeroDes : BspLcdDes := ⟨⟨0, 0, 0, 0, 0, 0, 0, 0⟩, none, 0, 0, 0, 0, 0⟩

/-- `set_default_des`: `calloc` is taken to succeed. -/
def setDefaultDes (gram : Gram) (des : Option BspLcdDes) : BspLcdDes :=
  let intDes := des.getD zeroDes
  let dev := intDes.dev
  { dev :=
      { hsw := setValIfZero dev.hsw 1
        vsw := setValIfZero dev.vsw 1
        hbp := setValIfZero dev.hbp 80
        vbp := setValIfZero dev.vbp 40
        hfp := setValIfZero dev.hfp 200
        vfp := setValIfZero dev.vfp 22
        width := setValIfZero dev.width 800
        height := setValIfZero dev.height 480 }
    setBrightness := some (intDes.setBrightness.getD (bkltSetBrightness intDes.bkltTimerCh))
    layerGramAddr0 := setValIfZero intDes.layerGramAddr0 gram.sgram0
    layerGramAddr1 := setValIfZero intDes.layerGramAddr1 gram.sgram1
    layerNum := setValIfZero intDes.layerNum 1
    bkltTimer := if intDes.bkltTimer = 0 then TIM12 else intDes.bkltTimer
    bkltTimerCh := intDes.bkltTimerCh }

/-- The descriptor with its handles, the controller and the clock-enable bits. -/
structure Board where
  des : BspLcdDes
  backlight : Backlight
  ltdc : LtdcHandle
  rcc : Gate → Bool

/-- Whether the HAL calls for the timer succeed; the settings given to them are constants. -/
structure Platform where
  halTimPwmInit : ℕ → Bool
  halTimExMasterConfigSynchronization : ℕ → Bool
  halTimPwmConfigChannel : ℕ → ℕ → Bool

/-- The result and the board that a part of the initialisation leaves. -/
structure Result where
  res : ℤ
  board : Board

def initBklt (platform : Platform) (board : Board) : Result :=
  let timer := board.des.bkltTimer
  let channel := board.des.bkltTimerCh
  let clk := bspUtilsPeriphClk ⟨timer, 0, none, none⟩ ENABLE board.rcc
  let board := { board with rcc := clk.rcc }
  if clk.res ≠ 0 then ⟨-ENODEV, board⟩
  else
    let board := { board with backlight := { board.backlight with instanceAddr := timer } }
    if !platform.halTimPwmInit timer then ⟨-ENODEV, board⟩
    else if !platform.halTimExMasterConfigSynchronization timer then ⟨-ENODEV, board⟩
    else if !platform.halTimPwmConfigChannel timer channel then ⟨-ENODEV, board⟩
    else ⟨0, { board with backlight := halTimSetCompare channel 0 board.backlight }⟩

/-- The settings that `init_ltdc` computes. -/
def ltdcInit (dev : BspLcdDev) : LtdcInit :=
  let horizontalSync := dev.hsw - 1
  let verticalSync := dev.vsw - 1
  let accumulatedHbp := dev.hbp + horizontalSync
  let accumulatedVbp := dev.vbp + verticalSync
  let accumulatedActiveW := dev.width + accumulatedHbp
  let accumulatedActiveH := dev.height + accumulatedVbp
  { hsPolarity := 0
    vsPolarity := 0
    dePolarity := 0
    pcPolarity := 0
    horizontalSync
    verticalSync
    accumulatedHbp
    accumulatedVbp
    accumulatedActiveW
    accumulatedActiveH
    totalWidth := accumulatedActiveW + dev.hfp
    totalHeigh := accumulatedActiveH + dev.vfp
    backcolor := ⟨0, 0, 0⟩ }

def initLtdc (board : Board) : Option Result :=
  match halLtdcInit { board.ltdc with init := ltdcInit board.des.dev } with
  | none => none
  | some (ltdc, status) =>
    if status ≠ .ok then some ⟨-ENODEV, { board with ltdc }⟩
    else
      let dithered := halLtdcDisableDither ltdc
      if dithered.2 ≠ .ok then some ⟨-ENODEV, { board with ltdc := dithered.1 }⟩
      else some ⟨0, { board with ltdc := dithered.1 }⟩

/-- The settings of a layer. -/
def layerCfg (dev : BspLcdDev) (layerGramAddr : BitVec 32) : LayerCfg where
  windowX0 := 0
  windowX1 := dev.width
  windowY0 := 0
  windowY1 := dev.height
  imageWidth := dev.width
  imageHeight := dev.height
  pixelFormat := 1
  alpha := 255
  blendingFactor1 := 0x400
  blendingFactor2 := 0x5
  fbStartAdress := layerGramAddr
  alpha0 := 0
  backcolor := ⟨0, 0, 0⟩

/-- The loop of `init_layer` from a layer on, for the number of layers left. Behind the two
elements of its arrays it has no defined result. -/
def initLayer (board : Board) (i : ℕ) : ℕ → Option Result
  | 0 => some ⟨0, board⟩
  | left + 1 =>
    match [board.des.layerGramAddr0, board.des.layerGramAddr1][i]? with
    | none => none
    | some layerGramAddr =>
      match halLtdcConfigLayer (layerCfg board.des.dev layerGramAddr) i board.ltdc with
      | none => none
      | some (ltdc, status) =>
        if status ≠ .ok then some ⟨-ENODEV, { board with ltdc }⟩
        else initLayer { board with ltdc } (i + 1) left

/-- The end of `bsp_lcd_init`: the line event behind the active area. -/
def programLine (board : Board) : Option Result :=
  match halLtdcProgramLineEvent (board.ltdc.init.accumulatedActiveH + 1) board.ltdc with
  | none => none
  | some (ltdc, status) => some ⟨if status ≠ .ok then -EBUSY else 0, { board with ltdc }⟩

/-- `if (res) return -EBUSY;` -/
def orBusy (done : Option Result) (next : Board → Option Result) : Option Result :=
  done.bind fun result ↦
    if result.res ≠ 0 then some ⟨-EBUSY, result.board⟩ else next result.board

/-- `CALL_IF_NOT_NULL(int_des->bklt_ops.set_brightness, brightness)` -/
def callSetBrightness (brightness : BitVec 8) (board : Board) : Board :=
  match board.des.setBrightness with
  | none => board
  | some op => { board with backlight := op brightness board.backlight }

/-- `bsp_lcd_init`: none where it does not return. The brightness is set before the result of
the backlight is looked at. -/
def bspLcdInit (platform : Platform) (board : Board) : Option Result :=
  let bklt := initBklt platform board
  orBusy (some { bklt with board := callSetBrightness 128 bklt.board }) fun board ↦
    orBusy (initLtdc board) fun board ↦
      orBusy (initLayer board 0 board.des.layerNum.toNat) programLine

/-- The lock of the controller is free, or the first call resets it. -/
def LtdcHandle.Free (ltdc : LtdcHandle) : Prop := ltdc.reset = true ∨ ltdc.locked = false

section Parts

variable {board : Board}

/-- The controller behind `init_ltdc`. -/
def timed (board : Board) : LtdcHandle :=
  let registers := initRegisters (ltdcInit board.des.dev) board.ltdc.registers
  { registers := { registers with gcr := registers.gcr &&& ~~~LTDC_GCR_DEN }
    init := ltdcInit board.des.dev
    reset := false
    locked := false
    nvic := board.ltdc.reset || board.ltdc.nvic }

/-- The board behind `init_ltdc`. -/
def withTimings (board : Board) : Board := { board with ltdc := timed board }

theorem initLtdc_eq (hfree : LtdcHandle.Free board.ltdc) :
    initLtdc board =
      if InitChecked (ltdcInit board.des.dev) then some ⟨0, withTimings board⟩ else none := by
  rw [initLtdc, halLtdcInit]
  by_cases hchecked : InitChecked (ltdcInit board.des.dev)
  · rw [if_pos hchecked, if_pos hchecked]
    cases hreset : board.ltdc.reset with
    | true => simp [halLtdcDisableDither, withTimings, timed, hreset]
    | false =>
      have hlocked : board.ltdc.locked = false := hfree.resolve_left (by simp [hreset])
      simp [halLtdcDisableDither, withTimings, timed, hreset, hlocked]
  · rw [if_neg hchecked, if_neg hchecked]

/-- The addresses of the two frame buffers. -/
def BspLcdDes.layerGramAddr (des : BspLcdDes) (i : ℕ) : BitVec 32 :=
  if i = 0 then des.layerGramAddr0 else des.layerGramAddr1

/-- Some layers have been configured, and nothing else of the board that the display depends on
has changed. -/
structure Layered (board : Board) (first last : ℕ) (after : Board) : Prop where
  des : after.des = board.des
  backlight : after.backlight = board.backlight
  rcc : after.rcc = board.rcc
  init : after.ltdc.init = board.ltdc.init
  locked : after.ltdc.locked = false
  nvic : after.ltdc.nvic = board.ltdc.nvic
  registers : after.ltdc.registers =
    { board.ltdc.registers with
      layers := after.ltdc.registers.layers
      srcr := after.ltdc.registers.srcr }
  inside : ∀ i, first ≤ i → i < last → after.ltdc.registers.layers i =
    ltdcSetConfig board.ltdc.registers.bpcr
      (layerCfg board.des.dev (board.des.layerGramAddr i)) (board.ltdc.registers.layers i)
  outside : ∀ i, i < first ∨ last ≤ i →
    after.ltdc.registers.layers i = board.ltdc.registers.layers i

theorem layered_self (hlocked : board.ltdc.locked = false) (i : ℕ) : Layered board i i board where
  des := rfl
  backlight := rfl
  rcc := rfl
  init := rfl
  locked := hlocked
  nvic := rfl
  registers := rfl
  inside _ hfirst hlast := absurd hlast (not_lt.mpr hfirst)
  outside _ _ := rfl

/-- The settings of a layer pass the checks when the panel is not too large. -/
theorem layerChecked_iff {dev : BspLcdDev} {gram : BitVec 32} {i : ℕ} :
    LayerChecked (layerCfg dev gram) i ↔ i < 2 ∧ dev.width ≤ 0x1FFF ∧ dev.height ≤ 0x7FF := by
  simp only [LayerChecked, layerCfg]
  constructor
  · rintro ⟨hi, -, -, -, -, -, -, -, -, -, hwidth, hheight⟩
    exact ⟨hi, hwidth, hheight⟩
  · rintro ⟨hi, hwidth, hheight⟩
    refine ⟨hi, by decide, ?_, by decide, ?_, by decide, by decide, by decide, by decide,
      by decide, hwidth, hheight⟩
    · exact BitVec.le_trans hwidth (by decide)
    · exact BitVec.le_trans hheight (by decide)

/-- The board with one more layer configured. -/
def withLayer (board : Board) (i : ℕ) : Board :=
  let registers := board.ltdc.registers
  { board with ltdc := { board.ltdc with
    reset := false
    registers := { registers with
      layers := Function.update registers.layers i
        (ltdcSetConfig registers.bpcr (layerCfg board.des.dev (board.des.layerGramAddr i))
          (registers.layers i))
      srcr := LTDC_SRCR_IMR } } }

/-- One turn of the loop. -/
theorem initLayer_succ (hlocked : board.ltdc.locked = false) (i left : ℕ) :
    initLayer board i (left + 1) =
      if i < 2 ∧ board.des.dev.width ≤ 0x1FFF ∧ board.des.dev.height ≤ 0x7FF then
        initLayer (withLayer board i) (i + 1) left
      else none := by
  rw [initLayer]
  rcases lt_or_ge i 2 with hi | hi
  · have haddr : [board.des.layerGramAddr0, board.des.layerGramAddr1][i]? =
        some (board.des.layerGramAddr i) := by
      obtain rfl | rfl : i = 0 ∨ i = 1 := by omega
      all_goals rfl
    simp only [haddr, halLtdcConfigLayer, layerChecked_iff, hlocked]
    split_ifs <;> simp_all [withLayer]
  · rw [List.getElem?_eq_none (by simpa using hi), if_neg (by omega)]

theorem Layered.cons {after : Board} {i last : ℕ}
    (h : Layered (withLayer board i) (i + 1) last after) (hlast : i < last) :
    Layered board i last after where
  des := h.des
  backlight := h.backlight
  rcc := h.rcc
  init := h.init
  locked := h.locked
  nvic := h.nvic
  registers := h.registers
  inside k hfirst hk := by
    rcases Nat.eq_or_lt_of_le hfirst with rfl | hfirst
    · rw [h.outside i (Or.inl (Nat.lt_succ_self i))]
      exact Function.update_self ..
    · rw [h.inside k hfirst hk]
      simp only [withLayer, Function.update_of_ne hfirst.ne']
  outside k hk := by
    rw [h.outside k (by omega)]
    exact Function.update_of_ne (by omega) ..

/-- The loop ends for at most two layers of a panel in range. -/
def Allowed (board : Board) (i left : ℕ) : Prop :=
  left = 0 ∨ i + left ≤ 2 ∧ board.des.dev.width ≤ 0x1FFF ∧ board.des.dev.height ≤ 0x7FF

theorem initLayer_of_allowed (hlocked : board.ltdc.locked = false) {i left : ℕ}
    (h : Allowed board i left) :
    ∃ after, initLayer board i left = some ⟨0, after⟩ ∧ Layered board i (i + left) after := by
  induction left generalizing board i with
  | zero => exact ⟨board, rfl, layered_self hlocked i⟩
  | succ left ih =>
    obtain ⟨hroom, hpanel⟩ := h.resolve_left (Nat.succ_ne_zero left)
    have hrest : Allowed (withLayer board i) (i + 1) left := Or.inr ⟨by omega, hpanel⟩
    have hstill : (withLayer board i).ltdc.locked = false := hlocked
    obtain ⟨after, hafter, hlayered⟩ := ih hstill hrest
    refine ⟨after, ?_, ?_⟩
    · rw [initLayer_succ hlocked, if_pos ⟨by omega, hpanel⟩]
      exact hafter
    · rw [show i + (left + 1) = i + 1 + left by omega]
      exact hlayered.cons (by omega)

theorem initLayer_of_not_allowed (hlocked : board.ltdc.locked = false) {i left : ℕ}
    (h : ¬ Allowed board i left) : initLayer board i left = none := by
  induction left generalizing board i with
  | zero => exact absurd (Or.inl rfl) h
  | succ left ih =>
    rw [initLayer_succ hlocked]
    split_ifs with hchecked
    · have hrest : ¬ Allowed (withLayer board i) (i + 1) left := by
        rintro (rfl | hrest)
        · exact h (Or.inr ⟨by omega, hchecked.2⟩)
        · exact h (Or.inr ⟨by omega, hchecked.2⟩)
      have hstill : (withLayer board i).ltdc.locked = false := hlocked
      exact ih hstill hrest
    · rfl

/-- The board with the line interrupt armed. -/
def armed (board : Board) : Board :=
  { board with ltdc := { board.ltdc with
    reset := false
    registers := { board.ltdc.registers with
      lipcr := board.ltdc.init.accumulatedActiveH + 1
      ier := board.ltdc.registers.ier &&& ~~~LTDC_IT_LI ||| LTDC_IT_LI } } }

theorem programLine_eq (hlocked : board.ltdc.locked = false) :
    programLine board =
      if board.ltdc.init.accumulatedActiveH + 1 ≤ 0x7FF then some ⟨0, armed board⟩ else none := by
  simp only [programLine, halLtdcProgramLineEvent, hlocked]
  split_ifs <;> simp_all [armed]

/-- The clock of the timer is known to the table, and the HAL calls succeed. -/
def BkltStarts (platform : Platform) (board : Board) : Prop :=
  (bspUtilsPeriphClk ⟨board.des.bkltTimer, 0, none, none⟩ ENABLE board.rcc).res = 0 ∧
    platform.halTimPwmInit board.des.bkltTimer = true ∧
    platform.halTimExMasterConfigSynchronization board.des.bkltTimer = true ∧
    platform.halTimPwmConfigChannel board.des.bkltTimer board.des.bkltTimerCh = true

variable {platform : Platform}

theorem initBklt_res : (initBklt platform board).res = 0 ↔ BkltStarts platform board := by
  have hcode : (-ENODEV : ℤ) ≠ 0 := by decide
  simp only [initBklt, BkltStarts]
  split_ifs <;> simp_all

/-- The backlight does not reach the descriptor or the controller. -/
theorem initBklt_board (platform : Platform) (board : Board) :
    (initBklt platform board).board.des = board.des ∧
      (initBklt platform board).board.ltdc = board.ltdc := by
  simp only [initBklt]
  split_ifs <;> exact ⟨rfl, rfl⟩

theorem callSetBrightness_board (brightness : BitVec 8) (board : Board) :
    (callSetBrightness brightness board).des = board.des ∧
      (callSetBrightness brightness board).ltdc = board.ltdc := by
  rw [callSetBrightness]
  cases board.des.setBrightness <;> exact ⟨rfl, rfl⟩

end Parts

/-! ## The whole initialisation -/

/-- What the checks of the HAL ask of the descriptor. -/
structure Accepted (des : BspLcdDes) : Prop where
  timings : InitChecked (ltdcInit des.dev)
  layers : des.layerNum = 0 ∨
    des.layerNum.toNat ≤ 2 ∧ des.dev.width ≤ 0x1FFF ∧ des.dev.height ≤ 0x7FF
  line : (ltdcInit des.dev).accumulatedActiveH + 1 ≤ 0x7FF

/-- The registers behind the timings. -/
def timedRegisters (board : Board) : Registers :=
  initRegisters (ltdcInit board.des.dev) board.ltdc.registers

/-- The board behind `bsp_lcd_init`: the layers are configured on the timings, and the line
interrupt is armed behind the active area. -/
structure Configured (board after : Board) : Prop where
  des : after.des = board.des
  init : after.ltdc.init = ltdcInit board.des.dev
  locked : after.ltdc.locked = false
  nvic : after.ltdc.nvic = (board.ltdc.reset || board.ltdc.nvic)
  line : after.ltdc.registers.lipcr = (ltdcInit board.des.dev).accumulatedActiveH + 1
  armed : field after.ltdc.registers.ier 0 1 = 1
  enabled : field after.ltdc.registers.gcr 0 1 = 1
  timings : after.ltdc.registers.timings = (timedRegisters board).timings
  inside : ∀ i < board.des.layerNum.toNat, after.ltdc.registers.layers i =
    ltdcSetConfig (timedRegisters board).bpcr
      (layerCfg board.des.dev (board.des.layerGramAddr i)) (board.ltdc.registers.layers i)
  outside : ∀ i, board.des.layerNum.toNat ≤ i →
    after.ltdc.registers.layers i = board.ltdc.registers.layers i

section Whole

variable {platform : Platform} {board after : Board}

theorem Layered.configured {lit layered : Board} (hdes : lit.des = board.des)
    (hltdc : lit.ltdc = board.ltdc)
    (h : Layered (withTimings lit) 0 (0 + board.des.layerNum.toNat) layered) :
    Configured board (armed layered) where
  des := h.des.trans hdes
  init := by
    rw [armed, h.init, ← hdes]
    rfl
  locked := h.locked
  nvic := by
    rw [armed, h.nvic, ← hltdc]
    rfl
  line := by
    rw [armed, h.init, ← hdes]
    rfl
  armed := by
    rw [field_one_iff]
    simp [LcdInit.armed, LTDC_IT_LI]
  enabled := by
    rw [field_one_iff, armed, h.registers]
    simp [withTimings, timed, initRegisters, LTDC_GCR_LTDCEN, LTDC_GCR_DEN]
  timings := by
    rw [armed, h.registers, timedRegisters, ← hdes, ← hltdc]
    rfl
  inside i hi := by
    rw [armed, h.inside i (Nat.zero_le i) (by omega), timedRegisters, ← hdes, ← hltdc]
    rfl
  outside i hi := by
    rw [armed, h.outside i (Or.inr (by omega)), ← hltdc]
    rfl

theorem orBusy_of_success {done : Option Result} {next : Board → Option Result}
    (h : done = some ⟨0, board⟩) : orBusy done next = next board := by
  rw [orBusy, h, Option.bind_some, if_neg (by simp)]

theorem success_of_orBusy {done : Option Result} {next : Board → Option Result}
    (h : orBusy done next = some ⟨0, after⟩) :
    ∃ between, done = some ⟨0, between⟩ ∧ next between = some ⟨0, after⟩ := by
  cases done with
  | none => simp [orBusy] at h
  | some result =>
    obtain ⟨res, between⟩ := result
    rw [orBusy, Option.bind_some] at h
    by_cases hres : res = 0
    · exact ⟨between, by rw [hres], by simpa [hres] using h⟩
    · rw [if_pos hres] at h
      exact absurd (congrArg Result.res (Option.some_injective _ h)) (show -EBUSY ≠ 0 by decide)

/-- The board behind the backlight. -/
def lit (platform : Platform) (board : Board) : Board :=
  callSetBrightness 128 (initBklt platform board).board

theorem lit_des (platform : Platform) (board : Board) : (lit platform board).des = board.des :=
  (callSetBrightness_board ..).1.trans (initBklt_board ..).1

theorem lit_ltdc (platform : Platform) (board : Board) : (lit platform board).ltdc = board.ltdc :=
  (callSetBrightness_board ..).2.trans (initBklt_board ..).2

/-- An accepted descriptor is set up when the backlight starts. -/
theorem bspLcdInit_of_accepted (hfree : LtdcHandle.Free board.ltdc)
    (hstarts : BkltStarts platform board) (haccepted : Accepted board.des) :
    ∃ after, bspLcdInit platform board = some ⟨0, after⟩ ∧ Configured board after := by
  have hdes := lit_des platform board
  have hltdc := lit_ltdc platform board
  have hchecked : InitChecked (ltdcInit (lit platform board).des.dev) := hdes ▸ haccepted.timings
  have htimed : initLtdc (lit platform board) =
      some ⟨0, withTimings (lit platform board)⟩ := by
    rw [initLtdc_eq (hltdc ▸ hfree), if_pos hchecked]
  have hallowed : Allowed (withTimings (lit platform board)) 0
      board.des.layerNum.toNat := by
    rcases haccepted.layers with hnone | hsome
    · exact Or.inl (by rw [hnone]; rfl)
    · exact Or.inr (by simpa [withTimings, hdes] using hsome)
  obtain ⟨layered, hlayered, hspec⟩ := initLayer_of_allowed rfl hallowed
  have hline : layered.ltdc.init.accumulatedActiveH + 1 ≤ 0x7FF := by
    rw [hspec.init]
    simpa [withTimings, timed, hdes] using haccepted.line
  have hlit : some { initBklt platform board with board := lit platform board } =
      some ⟨0, lit platform board⟩ :=
    congrArg (fun res ↦ some (Result.mk res (lit platform board))) (initBklt_res.mpr hstarts)
  rw [← hdes] at hlayered
  refine ⟨armed layered, ?_, hspec.configured hdes hltdc⟩
  calc bspLcdInit platform board
      = orBusy (initLtdc (lit platform board)) fun board ↦
          orBusy (initLayer board 0 board.des.layerNum.toNat) programLine := by
        rw [bspLcdInit]
        exact orBusy_of_success hlit
    _ = orBusy (initLayer (withTimings (lit platform board)) 0
          (lit platform board).des.layerNum.toNat) programLine := orBusy_of_success htimed
    _ = programLine layered := orBusy_of_success hlayered
    _ = some ⟨0, armed layered⟩ := by rw [programLine_eq hspec.locked, if_pos hline]

/-- Only an accepted descriptor is set up. -/
theorem accepted_of_bspLcdInit (hfree : LtdcHandle.Free board.ltdc)
    (h : bspLcdInit platform board = some ⟨0, after⟩) :
    BkltStarts platform board ∧ Accepted board.des := by
  have hdes := lit_des platform board
  have hltdc := lit_ltdc platform board
  rw [bspLcdInit] at h
  obtain ⟨between, hbklt, h⟩ := success_of_orBusy h
  obtain ⟨hres, rfl⟩ : (initBklt platform board).res = 0 ∧ lit platform board = between := by
    simpa [lit] using hbklt
  obtain ⟨between, htimed, h⟩ := success_of_orBusy h
  rw [initLtdc_eq (hltdc ▸ hfree)] at htimed
  split_ifs at htimed with hchecked
  obtain rfl : withTimings (lit platform board) = between := by
    simpa using htimed
  obtain ⟨layered, hlayered, h⟩ := success_of_orBusy h
  have hallowed : Allowed (withTimings (lit platform board)) 0
      (lit platform board).des.layerNum.toNat := by
    by_contra hnot
    exact absurd (hlayered.symm.trans (initLayer_of_not_allowed rfl hnot)) (by simp)
  obtain ⟨spec, hspec, hconfigured⟩ := initLayer_of_allowed rfl hallowed
  obtain rfl : spec = layered := by simpa using hspec.symm.trans hlayered
  have hline : spec.ltdc.init.accumulatedActiveH + 1 ≤ 0x7FF := by
    by_contra hlate
    rw [programLine_eq hconfigured.locked, if_neg hlate] at h
    simp at h
  rw [hconfigured.init] at hline
  rw [hdes] at hallowed
  refine ⟨initBklt_res.mp hres, ⟨hdes ▸ hchecked, ?_, ?_⟩⟩
  · rcases hallowed with hnone | hsome
    · exact Or.inl (BitVec.eq_of_toNat_eq hnone)
    · exact Or.inr (by simpa [withTimings, hdes] using hsome)
  · simpa [withTimings, timed, hdes] using hline

theorem configured_of_bspLcdInit (hfree : LtdcHandle.Free board.ltdc)
    (h : bspLcdInit platform board = some ⟨0, after⟩) : Configured board after := by
  obtain ⟨hstarts, haccepted⟩ := accepted_of_bspLcdInit hfree h
  obtain ⟨same, hsame, hconfigured⟩ := bspLcdInit_of_accepted hfree hstarts haccepted
  obtain rfl : same = after := by simpa [hsame] using h
  exact hconfigured

/-! ## Timings -/

/-- The timings that a descriptor asks for. -/
def BspLcdDev.timings (dev : BspLcdDev) : Timings where
  hsw := dev.hsw.toNat
  hbp := dev.hbp.toNat
  width := dev.width.toNat
  hfp := dev.hfp.toNat
  vsw := dev.vsw.toNat
  vbp := dev.vbp.toNat
  height := dev.height.toNat
  vfp := dev.vfp.toNat

/-- A line and a frame have room in the counters of the controller. -/
structure BspLcdDev.Fits (dev : BspLcdDev) : Prop where
  line : dev.hsw.toNat + dev.hbp.toNat + dev.width.toNat + dev.hfp.toNat ≤ 2 ^ 12
  frame : dev.vsw.toNat + dev.vbp.toNat + dev.height.toNat + dev.vfp.toNat ≤ 2 ^ 11

/-- Accumulated in 32 bits, the parts of a line or a frame are in range and read back as they are
just when their sum is in range. -/
theorem accumulated_iff {sync porch active front limit : BitVec 32} (hsync : sync ≠ 0)
    (hlimit : limit.toNat < 2 ^ 31) :
    ((sync - 1 ≤ limit ∧ porch + (sync - 1) ≤ limit ∧ active + (porch + (sync - 1)) ≤ limit ∧
        active + (porch + (sync - 1)) + front ≤ limit) ∧
      ((sync - 1).toNat : ℤ) + 1 = sync.toNat ∧
      ((porch + (sync - 1)).toNat : ℤ) - (sync - 1).toNat = porch.toNat ∧
      ((active + (porch + (sync - 1))).toNat : ℤ) - (porch + (sync - 1)).toNat = active.toNat ∧
      ((active + (porch + (sync - 1)) + front).toNat : ℤ) -
        (active + (porch + (sync - 1))).toNat = front.toNat) ↔
    sync.toNat + porch.toNat + active.toNat + front.toNat ≤ limit.toNat + 1 := by
  have hpos : sync.toNat ≠ 0 := fun h ↦ hsync (BitVec.eq_of_toNat_eq h)
  have hstart : (sync - 1).toNat = sync.toNat - 1 := by bv_omega
  simp only [BitVec.le_def, BitVec.toNat_add, hstart]
  omega

theorem setValIfZero_ne {value default : BitVec 32} (h : default ≠ 0) :
    setValIfZero value default ≠ 0 := by
  rw [setValIfZero]
  split_ifs with hzero
  exacts [h, hzero]

/-- Checked settings show the timings of the descriptor just when these fit. -/
theorem checked_timings_iff (dev : BspLcdDev) (hhsw : dev.hsw ≠ 0) (hvsw : dev.vsw ≠ 0)
    (registers : Registers) :
    InitChecked (ltdcInit dev) ∧ (initRegisters (ltdcInit dev) registers).timings = dev.timings ↔
      dev.Fits := by
  have hline := @accumulated_iff dev.hsw dev.hbp dev.width dev.hfp 0xFFF hhsw (by decide)
  have hframe := @accumulated_iff dev.vsw dev.vbp dev.height dev.vfp 0x7FF hvsw (by decide)
  constructor
  · rintro ⟨hchecked, htimings⟩
    rw [timings_initRegisters hchecked] at htimings
    obtain ⟨hsw, hbp, width, hfp, vsw, vbp, height, vfp⟩ := Timings.mk.inj htimings
    obtain ⟨hhs, hvs, hhbp, hvbp, haah, haaw, htoth, htotw, -⟩ := hchecked
    exact ⟨hline.mp ⟨⟨hhs, hhbp, haaw, htotw⟩, hsw, hbp, width, hfp⟩,
      hframe.mp ⟨⟨hvs, hvbp, haah, htoth⟩, vsw, vbp, height, vfp⟩⟩
  · intro hfits
    obtain ⟨⟨hhs, hhbp, haaw, htotw⟩, hsw, hbp, width, hfp⟩ := hline.mpr hfits.line
    obtain ⟨⟨hvs, hvbp, haah, htoth⟩, vsw, vbp, height, vfp⟩ := hframe.mpr hfits.frame
    have hchecked : InitChecked (ltdcInit dev) :=
      ⟨hhs, hvs, hhbp, hvbp, haah, haaw, htoth, htotw, Or.inl rfl, Or.inl rfl, Or.inl rfl,
        Or.inl rfl⟩
    refine ⟨hchecked, ?_⟩
    rw [timings_initRegisters hchecked]
    exact Timings.mk.injEq .. ▸ ⟨hsw, hbp, width, hfp, vsw, vbp, height, vfp⟩

theorem accepted_of_fits {des : BspLcdDes} (hchecked : InitChecked (ltdcInit des.dev))
    (hfits : des.dev.Fits) (hvfp : des.dev.vfp ≠ 0) (hlayers : des.layerNum.toNat ≤ 2) :
    Accepted des where
  timings := hchecked
  layers := by
    have hline := hfits.line
    have hframe := hfits.frame
    refine Or.inr ⟨hlayers, ?_, ?_⟩
    · bv_omega
    · bv_omega
  line := by
    have hframe := hfits.frame
    have hactive : (ltdcInit des.dev).accumulatedActiveH =
        des.dev.height + (des.dev.vbp + (des.dev.vsw - 1)) := rfl
    bv_omega

/-- **The timings of the display.** For a descriptor that `set_default_des` has completed the
initialisation ends in success with the timings of the descriptor in the controller just when the
backlight starts, a line and a frame fit and there are at most two layers. -/
theorem bspLcdInit_timings_iff (platform : Platform) {board : Board} {gram : Gram}
    {given : Option BspLcdDes} (hdes : board.des = setDefaultDes gram given)
    (hfree : LtdcHandle.Free board.ltdc) :
    (∃ after, bspLcdInit platform board = some ⟨0, after⟩ ∧
        after.ltdc.registers.timings = board.des.dev.timings) ↔
      BkltStarts platform board ∧ board.des.dev.Fits ∧ board.des.layerNum.toNat ≤ 2 := by
  have hhsw : board.des.dev.hsw ≠ 0 := hdes ▸ setValIfZero_ne (by decide)
  have hvsw : board.des.dev.vsw ≠ 0 := hdes ▸ setValIfZero_ne (by decide)
  have hvfp : board.des.dev.vfp ≠ 0 := hdes ▸ setValIfZero_ne (by decide)
  have hfits := checked_timings_iff board.des.dev hhsw hvsw board.ltdc.registers
  constructor
  · rintro ⟨after, hafter, htimings⟩
    obtain ⟨hstarts, haccepted⟩ := accepted_of_bspLcdInit hfree hafter
    rw [(configured_of_bspLcdInit hfree hafter).timings] at htimings
    refine ⟨hstarts, hfits.mp ⟨haccepted.timings, htimings⟩, ?_⟩
    rcases haccepted.layers with hnone | hsome
    · rw [hnone]
      decide
    · exact hsome.1
  · rintro ⟨hstarts, hfit, hlayers⟩
    obtain ⟨hchecked, htimings⟩ := hfits.mpr hfit
    have haccepted := accepted_of_fits hchecked hfit hvfp hlayers
    obtain ⟨after, hafter, hconfigured⟩ := bspLcdInit_of_accepted hfree hstarts haccepted
    exact ⟨after, hafter, hconfigured.timings.trans htimings⟩

end Whole

/-- A descriptor with the default values on a board out of reset. -/
def freshBoard (gram : Gram) : Board where
  des := setDefaultDes gram none
  backlight := ⟨0, []⟩
  ltdc :=
    { registers := ⟨0, 0, 0, 0, 0, 0, 0, 0, 0, 0, fun _ ↦ ⟨0, 0, 0, 0, 0, 0, 0, 0, 0, 0⟩⟩
      init := ⟨0, 0, 0, 0, 0, 0, 0, 0, 0, 0, 0, 0, ⟨0, 0, 0⟩⟩
      reset := true
      locked := false
      nvic := false }
  rcc := fun _ ↦ false

/-- HAL calls that all succeed. -/
def readyPlatform : Platform := ⟨fun _ ↦ true, fun _ ↦ true, fun _ _ ↦ true⟩

end Vodka.Bsp.LcdInit

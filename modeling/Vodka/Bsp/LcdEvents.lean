import Mathlib.Tactic
import Vodka.Foundation.Simulation
import Vodka.Bsp.Lcd
import Vodka.Bsp.LcdPanel

/-!
# The line interrupt

The controller raises flags, `HAL_LTDC_IRQHandler` handles those whose interrupt
is enabled, and the line event sets the brightness, paints the frame buffer and
programs the next line event. Bytes of other code may reach the memory anywhere,
and the beam reads pixels at any time. The memory is the one that the controller
reads: the handler cleans the data cache behind its painting, and a write of
other code counts when it leaves the cache. What the beam sees over a whole run
is what it would see of a picture that line events fill and writes change.
-/

namespace Vodka.Bsp.LcdEvents

open Ltdc LcdInit LcdPanel Foundation.BitFields Foundation.RingMemory Foundation.Simulation

structure State where
  board : Board
  memory : Memory 32

def LTDC_IT_RR : BitVec 32 := 0x8

/-- An interrupt has its flag and is enabled. -/
def Raised (interrupt : BitVec 32) (registers : Registers) : Prop :=
  registers.isr &&& interrupt ≠ 0 ∧ registers.ier &&& interrupt ≠ 0

instance (interrupt : BitVec 32) (registers : Registers) : Decidable (Raised interrupt registers) :=
  inferInstanceAs (Decidable (_ ∧ _))

/-- `__HAL_LTDC_CLEAR_FLAG` -/
def clearFlag (flag : BitVec 32) (ltdc : LtdcHandle) : LtdcHandle :=
  { ltdc with registers := { ltdc.registers with isr := ltdc.registers.isr &&& ~~~flag } }

/-- The part of the handler that each interrupt has: disable, clear, unlock. -/
def acknowledge (interrupt : BitVec 32) (ltdc : LtdcHandle) : LtdcHandle :=
  clearFlag interrupt { ltdc with
    reset := false
    locked := false
    registers := { ltdc.registers with ier := ltdc.registers.ier &&& ~~~interrupt } }

/-- An interrupt whose callback is the weak one of the HAL. -/
def acknowledgeIf (interrupt : BitVec 32) (entry : Registers) (ltdc : LtdcHandle) : LtdcHandle :=
  if Raised interrupt entry then acknowledge interrupt ltdc else ltdc

/-- The members that `HAL_LTDC_LineEventCallback` draws with. -/
def drawn (des : LcdInit.BspLcdDes) : Lcd.BspLcdDes :=
  ⟨des.dev.width, des.dev.height, des.layerGramAddr0⟩

/-- `HAL_LTDC_LineEventCallback` for the number that `rand` returns. A call through NULL has no
defined result. -/
def halLtdcLineEventCallback (rand : BitVec 32) (state : State) : Option State :=
  match state.board.des.setBrightness with
  | none => none
  | some _ =>
    let board := callSetBrightness 128 state.board
    let memory := Lcd.paint (drawn board.des) rand state.memory
    match halLtdcProgramLineEvent (board.ltdc.init.accumulatedActiveH + 1) board.ltdc with
    | none => none
    | some (ltdc, _) => some ⟨{ board with ltdc := clearFlag LTDC_IT_LI ltdc }, memory⟩

/-- `HAL_LTDC_IRQHandler`: flags and enabled interrupts are read once. -/
def halLtdcIrqHandler (rand : BitVec 32) (state : State) : Option State :=
  let entry := state.board.ltdc.registers
  let ltdc := acknowledgeIf LTDC_IT_TE entry state.board.ltdc
  let ltdc := acknowledgeIf LTDC_IT_FU entry ltdc
  let state : State := { state with board := { state.board with ltdc } }
  let handled :=
    if Raised LTDC_IT_LI entry then
      halLtdcLineEventCallback rand
        { state with board := { state.board with ltdc := acknowledge LTDC_IT_LI ltdc } }
    else some state
  handled.map fun state ↦
    { state with board :=
      { state.board with ltdc := acknowledgeIf LTDC_IT_RR entry state.board.ltdc } }

/-- What happens to the display: flags are raised, the handler is called, a byte of other code
reaches the memory, or the beam comes to a position. -/
inductive Event
  | raise (flags : BitVec 4)
  | interrupt (rand : BitVec 32)
  | write (address : BitVec 32) (byte : UInt8)
  | beam (column line : ℕ)

/-- The state behind an event, and for the beam the bytes of the pixel that it shows. -/
def step (state : State) : Event → Option (State × Option (List UInt8))
  | .raise flags =>
    let registers := state.board.ltdc.registers
    some ({ state with board := { state.board with ltdc := { state.board.ltdc with
      registers := { registers with isr := registers.isr ||| flags.setWidth 32 } } } }, none)
  | .interrupt rand => (halLtdcIrqHandler rand state).map fun state ↦ (state, none)
  | .write address byte =>
    some ({ state with memory := Function.update state.memory address byte }, none)
  | .beam column line =>
    some (state, (state.board.ltdc.registers.visible column line).map fun address ↦
      load state.memory address 3)

/-- Whether a line event is pending, and the bytes by their distance from the first pixel. -/
structure Picture where
  pending : Bool
  bytes : ℕ → UInt8

/-- The bytes of the frame buffer hold one colour. -/
def Picture.fill (dev : BspLcdDev) (color : BitVec 32) (picture : Picture) : Picture where
  pending := false
  bytes k :=
    if k < 3 * (dev.width.toNat * dev.height.toNat) then Lcd.colorByte color (k % 3)
    else picture.bytes k

/-- Line events fill the picture, writes change it, and the beam shows its pixels. -/
def panel (dev : BspLcdDev) (base : BitVec 32) : Purpose Picture Event (Option (List UInt8)) where
  Meant _ _ := True
  next
    | picture, .raise flags => { picture with pending := picture.pending || flags.getLsbD 0 }
    | picture, .interrupt rand => if picture.pending then picture.fill dev rand else picture
    | picture, .write address byte =>
      { picture with bytes := Function.update picture.bytes (address - base).toNat byte }
    | picture, .beam _ _ => picture
  answer
    | picture, .beam column line =>
      if BspLcdDev.Active dev column line then
        some ((List.range 3).map fun c ↦
          picture.bytes (3 * BspLcdDev.pixelAt dev column line + c))
      else none
    | _, _ => none

/-- The board is the one behind `bsp_lcd_init` but for flags, and the memory holds the picture.
The byte behind the last pixel belongs to neither. -/
structure Tracks (start : Board) (state : State) (picture : Picture) : Prop where
  des : state.board.des = start.des
  init : state.board.ltdc.init = start.ltdc.init
  locked : state.board.ltdc.locked = false
  nvic : state.board.ltdc.nvic = start.ltdc.nvic
  registers : state.board.ltdc.registers =
    { start.ltdc.registers with
      ier := state.board.ltdc.registers.ier
      isr := state.board.ltdc.registers.isr }
  armed : field state.board.ltdc.registers.ier 0 1 = 1
  pending : field state.board.ltdc.registers.isr 0 1 = 1 ↔ picture.pending = true
  bytes : ∀ k < 2 ^ 32, k ≠ 3 * (start.des.dev.width.toNat * start.des.dev.height.toNat) →
    view state.memory start.des.layerGramAddr0 k = picture.bytes k

/-! ## One event -/

theorem and_one_ne_zero_iff (word : BitVec 32) : word &&& 1 ≠ 0 ↔ field word 0 1 = 1 := by
  have hbit : (word &&& 1).toNat = field word 0 1 := by
    rw [BitVec.toNat_and, field_eq, pow_zero, Nat.div_one]
    exact Nat.and_one_is_mod _
  rw [← hbit, ne_eq, BitVec.toNat_eq]
  have hlt : (word &&& 1).toNat < 2 := by
    rw [hbit, field_eq]
    exact Nat.mod_lt _ (by decide)
  have hzero : (0 : BitVec 32).toNat = 0 := rfl
  omega

theorem raised_line_iff (registers : Registers) :
    Raised LTDC_IT_LI registers ↔ field registers.isr 0 1 = 1 ∧ field registers.ier 0 1 = 1 :=
  and_congr (and_one_ne_zero_iff _) (and_one_ne_zero_iff _)

/-- Clearing other bits keeps the lowest one. -/
theorem field_clear {interrupt : BitVec 32} (h : interrupt.getLsbD 0 = false)
    (word : BitVec 32) : field (word &&& ~~~interrupt) 0 1 = field word 0 1 := by
  unfold field
  congr 1
  apply BitVec.eq_of_getLsbD_eq
  intro i hi
  obtain rfl : i = 0 := by omega
  simp only [BitVec.getLsbD_extractLsb', BitVec.getLsbD_and, BitVec.getLsbD_not, Nat.add_zero, h]
  simp

/-- What the line event relies on. -/
structure Started (start : Board) : Prop where
  brightness : start.des.setBrightness ≠ none
  line : start.ltdc.registers.lipcr = start.ltdc.init.accumulatedActiveH + 1
  inRange : start.ltdc.init.accumulatedActiveH + 1 ≤ 0x7FF
  fits : 3 * (start.des.dev.width.toNat * start.des.dev.height.toNat) < 2 ^ 32

section Step

variable {start : Board} {state : State} {picture : Picture}

/-- The interrupts of errors and of reloading do not concern the picture. -/
theorem Tracks.acknowledgeIf (h : Tracks start state picture) (interrupt : BitVec 32)
    (hother : interrupt.getLsbD 0 = false) (entry : Registers) :
    Tracks start { state with board := { state.board with
      ltdc := acknowledgeIf interrupt entry state.board.ltdc } } picture := by
  unfold LcdEvents.acknowledgeIf
  split_ifs with hraised
  · exact
      { des := h.des
        init := h.init
        locked := rfl
        nvic := h.nvic
        registers := by
          simp only [acknowledge, clearFlag]
          rw [h.registers]
        armed := (field_clear hother _).trans h.armed
        pending := by
          rw [← h.pending]
          exact iff_of_eq (congrArg (· = 1) (field_clear hother _))
        bytes := h.bytes }
  · exact h

/-- The line event on a free controller. -/
theorem halLtdcLineEventCallback_eq (rand : BitVec 32)
    (hbrightness : state.board.des.setBrightness ≠ none) (hlocked : state.board.ltdc.locked = false)
    (hrange : state.board.ltdc.init.accumulatedActiveH + 1 ≤ 0x7FF) :
    halLtdcLineEventCallback rand state =
      some ⟨{ callSetBrightness 128 state.board with
          ltdc := clearFlag LTDC_IT_LI (armed state.board).ltdc },
        Lcd.paint (drawn state.board.des) rand state.memory⟩ := by
  obtain ⟨hdes, hltdc⟩ := callSetBrightness_board 128 state.board
  obtain ⟨op, hop⟩ := Option.ne_none_iff_exists'.mp hbrightness
  simp only [halLtdcLineEventCallback, hop, halLtdcProgramLineEvent, hltdc, hlocked, hdes]
  rw [if_pos hrange, if_neg Bool.false_ne_true]
  simp only [armed, hlocked]

/-- The memory behind the line event. -/
theorem view_paint {des : LcdInit.BspLcdDes} {rand : BitVec 32} {memory : Memory 32} {k : ℕ}
    (hfits : 3 * (des.dev.width.toNat * des.dev.height.toNat) < 2 ^ 32) (hk : k < 2 ^ 32)
    (hbehind : k ≠ 3 * (des.dev.width.toNat * des.dev.height.toNat)) :
    view (Lcd.paint (drawn des) rand memory) des.layerGramAddr0 k =
      if k < 3 * (des.dev.width.toNat * des.dev.height.toNat) then Lcd.colorByte rand (k % 3)
      else view memory des.layerGramAddr0 k := by
  have hpixels : (drawn des).pixels = des.dev.width.toNat * des.dev.height.toNat := rfl
  rw [Lcd.paint_eq, hpixels, Nat.mod_eq_of_lt (by omega)]
  refine (Lcd.view_painting (by omega) hk).trans ?_
  rw [if_neg (show ¬ (k = _ ∧ _) from fun h ↦ hbehind h.1)]
  rfl

/-- The handler on a pending line event fills the picture. -/
theorem Tracks.lineEvent (h : Tracks start state picture) (hstarted : Started start)
    (rand : BitVec 32) :
    ∃ next, halLtdcLineEventCallback rand { state with board := { state.board with
        ltdc := acknowledge LTDC_IT_LI state.board.ltdc } } = some next ∧
      Tracks start next (picture.fill start.des.dev rand) := by
  refine ⟨_, halLtdcLineEventCallback_eq rand ?_ rfl ?_, ?_⟩
  · rw [h.des]
    exact hstarted.brightness
  · have hinit : (acknowledge LTDC_IT_LI state.board.ltdc).init = start.ltdc.init := h.init
    rw [hinit]
    exact hstarted.inRange
  · have hdes := (callSetBrightness_board 128 { state.board with
      ltdc := acknowledge LTDC_IT_LI state.board.ltdc }).1
    exact
      { des := hdes.trans h.des
        init := h.init
        locked := rfl
        nvic := h.nvic
        registers := by
          simp only [LcdInit.armed, acknowledge, clearFlag, h.init, ← hstarted.line]
          rw [h.registers]
        armed := by
          rw [field_one_iff]
          simp [LcdInit.armed, clearFlag, LTDC_IT_LI]
        pending := by
          rw [field_one_iff]
          simp [clearFlag, LTDC_IT_LI, Picture.fill]
        bytes := by
          intro k hk hbehind
          simp only [Picture.fill, ← h.des]
          rw [← h.des] at hbehind
          rw [view_paint (h.des ▸ hstarted.fits) hk hbehind, h.des,
            ← h.bytes k hk (h.des ▸ hbehind)] }

/-- The handler keeps the picture, filled if a line event was pending. -/
theorem Tracks.handler (h : Tracks start state picture) (hstarted : Started start)
    (rand : BitVec 32) :
    ∃ next, halLtdcIrqHandler rand state = some next ∧
      Tracks start next (if picture.pending then picture.fill start.des.dev rand else picture) := by
  have herrors := (h.acknowledgeIf LTDC_IT_TE (by decide)
    state.board.ltdc.registers).acknowledgeIf LTDC_IT_FU (by decide) state.board.ltdc.registers
  have hline : Raised LTDC_IT_LI state.board.ltdc.registers ↔ picture.pending = true := by
    rw [raised_line_iff, h.pending]
    exact and_iff_left h.armed
  unfold halLtdcIrqHandler
  dsimp only
  by_cases hpending : picture.pending = true
  · obtain ⟨next, hnext, htracks⟩ := herrors.lineEvent hstarted rand
    rw [if_pos (hline.mpr hpending), if_pos hpending, hnext]
    exact ⟨_, rfl, htracks.acknowledgeIf LTDC_IT_RR (by decide) _⟩
  · rw [if_neg (mt hline.mp hpending), if_neg hpending]
    exact ⟨_, rfl, herrors.acknowledgeIf LTDC_IT_RR (by decide) _⟩

theorem pixelAt_lt {dev : BspLcdDev} {column line : ℕ}
    (h : BspLcdDev.Active dev column line) :
    BspLcdDev.pixelAt dev column line < dev.width.toNat * dev.height.toNat := by
  obtain ⟨⟨hleft, hright⟩, htop, hbottom⟩ := h
  rw [BspLcdDev.pixelAt]
  generalize hy : line - (dev.vsw.toNat + dev.vbp.toNat) = y
  calc dev.width.toNat * y + (column - (dev.hsw.toNat + dev.hbp.toNat))
      < dev.width.toNat * y + dev.width.toNat := by omega
    _ = dev.width.toNat * (y + 1) := (Nat.mul_succ ..).symm
    _ ≤ dev.width.toNat * dev.height.toNat := Nat.mul_le_mul_left _ (by omega)

/-- The beam sees the picture. -/
theorem Tracks.beam (h : Tracks start state picture) (hstarted : Started start)
    (hshows : Shows start.des.dev start.des.layerGramAddr0 start.ltdc.registers)
    (column line : ℕ) :
    ((state.board.ltdc.registers.visible column line).map fun address ↦
        load state.memory address 3) =
      (panel start.des.dev start.des.layerGramAddr0).answer picture (.beam column line) := by
  have hvisible : state.board.ltdc.registers.visible column line =
      start.ltdc.registers.visible column line := by
    rw [h.registers]
    rfl
  rw [hvisible, hshows]
  simp only [panel]
  split_ifs with hactive
  · have hpixel := pixelAt_lt hactive
    have hfits := hstarted.fits
    simp only [Option.map_some, load]
    congr 1
    refine List.map_congr_left fun c hc ↦ ?_
    have hc : c < 3 := List.mem_range.mp hc
    rw [← h.bytes _ (by omega) (by omega), view, add_assoc, ← BitVec.ofNat_add]
  · rfl

theorem Tracks.raise (h : Tracks start state picture) (flags : BitVec 4) :
    Tracks start { state with board := { state.board with ltdc := { state.board.ltdc with
        registers := { state.board.ltdc.registers with
          isr := state.board.ltdc.registers.isr ||| flags.setWidth 32 } } } }
      { picture with pending := picture.pending || flags.getLsbD 0 } :=
  { h with
    registers := by
      simp only
      rw [h.registers]
    pending := by
      have hpending := h.pending
      rw [field_one_iff] at hpending ⊢
      rw [BitVec.getLsbD_or, Bool.or_eq_true, Bool.or_eq_true, hpending]
      simp }

/-- A byte written to an address is written at its offset. -/
theorem view_update {base : BitVec 32} (memory : Memory 32) (address : BitVec 32) {byte : UInt8}
    {k : ℕ} (hk : k < 2 ^ 32) :
    view (Function.update memory address byte) base k =
      if k = (address - base).toNat then byte else view memory base k := by
  have hiff : base + BitVec.ofNat 32 k = address ↔ k = (address - base).toNat := by
    constructor
    · rintro rfl
      exact (toNat_offset base hk).symm
    · rintro rfl
      exact offset_toNat base address
  simp only [view, Function.update_apply, hiff]

/-- Every event keeps board and picture together. -/
theorem Tracks.step (h : Tracks start state picture) (hstarted : Started start)
    (hshows : Shows start.des.dev start.des.layerGramAddr0 start.ltdc.registers) (event : Event) :
    ∃ next, LcdEvents.step state event = some (next,
        (panel start.des.dev start.des.layerGramAddr0).answer picture event) ∧
      Tracks start next ((panel start.des.dev start.des.layerGramAddr0).next picture event) := by
  cases event with
  | raise flags =>
    exact ⟨_, rfl, h.raise flags⟩
  | interrupt rand =>
    obtain ⟨next, hnext, htracks⟩ := h.handler hstarted rand
    refine ⟨next, ?_, htracks⟩
    rw [LcdEvents.step, hnext]
    rfl
  | write address byte =>
    refine ⟨_, rfl, { h with bytes := fun k hk hbehind ↦ ?_ }⟩
    rw [view_update _ _ hk, h.bytes k hk hbehind]
    exact (Function.update_apply ..).symm
  | beam column line =>
    refine ⟨state, ?_, h⟩
    rw [← h.beam hstarted hshows]
    rfl

end Step

/-! ## Runs -/

theorem started_of_configured {board after : Board} {gram : Gram}
    {given : Option LcdInit.BspLcdDes} (hdes : board.des = setDefaultDes gram given)
    (hconfigured : Configured board after) (haccepted : Accepted board.des)
    (hfits : board.des.dev.Fits) : Started after where
  brightness := by
    rw [hconfigured.des, hdes]
    exact Option.some_ne_none _
  line := by rw [hconfigured.line, hconfigured.init]
  inRange := hconfigured.init ▸ haccepted.line
  fits := by
    rw [hconfigured.des]
    have hwidth : board.des.dev.width.toNat ≤ 2 ^ 12 := by have := hfits.line; omega
    have hheight : board.des.dev.height.toNat ≤ 2 ^ 11 := by have := hfits.frame; omega
    have hpixels := Nat.mul_le_mul hwidth hheight
    omega

/-- **What the beam sees.** Behind a successful initialisation with one layer, in any order of
raised flags, calls of the handler, writes to the memory and reads of the beam, every call of the
handler returns and the beam sees the picture that line events fill and writes change. -/
theorem run_beam (platform : Platform) {board after : Board} {gram : Gram}
    {given : Option LcdInit.BspLcdDes} (hdes : board.des = setDefaultDes gram given)
    (hfree : LtdcHandle.Free board.ltdc) (hafter : bspLcdInit platform board = some ⟨0, after⟩)
    (hfits : board.des.dev.Fits) (hshort : 3 * board.des.dev.width.toNat + 7 < 2 ^ 13)
    (hone : board.des.layerNum = 1) (hoff : SecondOff board) (memory : Memory 32)
    (events : List Event) :
    ∃ final, run step ⟨after, memory⟩ events =
        some (final, (panel board.des.dev board.des.layerGramAddr0).answers
          ⟨after.ltdc.registers.isr.getLsbD 0, view memory board.des.layerGramAddr0⟩ events) ∧
      final.board.des = board.des ∧ final.board.ltdc.nvic = after.ltdc.nvic ∧
      final.board.ltdc.registers.lipcr = after.ltdc.registers.lipcr ∧
      field final.board.ltdc.registers.ier 0 1 = 1 := by
  have hconfigured := configured_of_bspLcdInit hfree hafter
  have haccepted := (accepted_of_bspLcdInit hfree hafter).2
  have hpositive : Positive board.des := hdes ▸ positive_setDefaultDes gram given
  have hstarted := started_of_configured hdes hconfigured haccepted hfits
  have hlayers : board.des.layerNum.toNat = 1 := by rw [hone]; rfl
  have hshows := (shows_iff hconfigured hpositive hfits (by omega) hoff).mpr hshort
  have hfront : BspLcdDes.frontBuffer board.des = board.des.layerGramAddr0 := by
    rw [BspLcdDes.frontBuffer, hlayers]
    rfl
  rw [hfront, ← hconfigured.des] at hshows
  have hstart : Tracks after ⟨after, memory⟩
      ⟨after.ltdc.registers.isr.getLsbD 0, view memory board.des.layerGramAddr0⟩ :=
    { des := rfl
      init := rfl
      locked := hconfigured.locked
      nvic := rfl
      registers := rfl
      armed := hconfigured.armed
      pending := field_one_iff _ 0
      bytes := fun k _ _ ↦ by rw [hconfigured.des] }
  rw [← hconfigured.des] at hstart ⊢
  obtain ⟨final, hrun, htracks⟩ := run_of_simulates
    (panel after.des.dev after.des.layerGramAddr0) step
    (fun state picture _ ↦ Tracks after state picture)
    (fun state picture event _ h _ ↦ h.step hstarted hshows event) hstart
    (Purpose.meantRun_of_forall _ (fun _ _ ↦ trivial) _ events)
  refine ⟨final, hrun, htracks.des, htracks.nvic, ?_, htracks.armed⟩
  rw [htracks.registers]

/-- A line event on the default board: the beam sees its colour. -/
theorem run_beam_default :
    ∃ after final, bspLcdInit readyPlatform (freshBoard ⟨0xC0000000, 0xC0180000⟩) =
        some ⟨0, after⟩ ∧
      run step ⟨after, fun _ ↦ 0⟩ [.raise 1, .interrupt 0x00563412, .beam 81 41] =
        some (final, [none, none, some [0x12, 0x34, 0x56]]) := by
  obtain ⟨after, hafter, -⟩ := @bspLcdInit_of_accepted readyPlatform
    (freshBoard ⟨0xC0000000, 0xC0180000⟩) (Or.inl rfl) ⟨by decide, rfl, rfl, rfl⟩
    ⟨by decide, by decide, by decide⟩
  obtain ⟨final, hrun, -⟩ := run_beam readyPlatform rfl (Or.inl rfl) hafter
    ⟨by decide, by decide⟩ (by decide) rfl (fun _ ↦ by decide) (fun _ ↦ 0)
    [.raise 1, .interrupt 0x00563412, .beam 81 41]
  have hactive : BspLcdDev.Active (freshBoard ⟨0xC0000000, 0xC0180000⟩).des.dev 81 41 := by decide
  have hpending (flag : Bool) : (flag || (1 : BitVec 4).getLsbD 0) = true := by cases flag <;> rfl
  refine ⟨after, final, hafter, hrun.trans ?_⟩
  simp only [Purpose.answers, panel, hpending, if_true, if_pos hactive]
  rfl

end Vodka.Bsp.LcdEvents

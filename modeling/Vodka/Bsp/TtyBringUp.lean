import Mathlib.Tactic
import Vodka.Bsp.PeriphClk
import Vodka.Bsp.TtyInit

/-!
# Bringing the terminal up

`bsp_tty_init` sets the pins, the DMA streams and the UART up, in this order, and
enables the clock of each of them by the address of its registers. A stream lies
inside the range of its controller, so the lookup takes the next controller for
it. The destination of the transmit stream is computed from the UART handle
before that handle names the UART. The results of the HAL calls are parameters
of every single call of the initialisation.
-/

namespace Vodka.Bsp.TtyBringUp

open Tty TtyInit PeriphClk

open Utils (BspUtilsPeriphDes EINVAL periphRanges)

/-- The GPIO ports. -/
inductive GpioPort
  | A | B | C | D | E | F | G | H | I | J | K
  deriving DecidableEq

/-- The base address of a port. -/
def GpioPort.base : GpioPort → ℕ
  | .A => D3_AHB1PERIPH_BASE + 0x0000
  | .B => D3_AHB1PERIPH_BASE + 0x0400
  | .C => D3_AHB1PERIPH_BASE + 0x0800
  | .D => D3_AHB1PERIPH_BASE + 0x0C00
  | .E => D3_AHB1PERIPH_BASE + 0x1000
  | .F => D3_AHB1PERIPH_BASE + 0x1400
  | .G => D3_AHB1PERIPH_BASE + 0x1800
  | .H => D3_AHB1PERIPH_BASE + 0x1C00
  | .I => D3_AHB1PERIPH_BASE + 0x2000
  | .J => D3_AHB1PERIPH_BASE + 0x2400
  | .K => D3_AHB1PERIPH_BASE + 0x2800

def GpioPort.gate : GpioPort → Gate
  | .A => .GPIOA
  | .B => .GPIOB
  | .C => .GPIOC
  | .D => .GPIOD
  | .E => .GPIOE
  | .F => .GPIOF
  | .G => .GPIOG
  | .H => .GPIOH
  | .I => .GPIOI
  | .J => .GPIOJ
  | .K => .GPIOK

def USART2 : ℕ := 0x40004400

def USART3 : ℕ := 0x40004800

def UART4 : ℕ := 0x40004C00

def UART5 : ℕ := 0x40005000

def USART6 : ℕ := 0x40011400

def UART7 : ℕ := 0x40007800

def GPIO_PIN_2 : ℕ := 0x0004

def GPIO_PIN_6 : ℕ := 0x0040

def GPIO_PIN_7 : ℕ := 0x0080

def GPIO_PIN_8 : ℕ := 0x0100

def GPIO_PIN_11 : ℕ := 0x0800

def GPIO_PIN_12 : ℕ := 0x1000

def GPIO_PIN_14 : ℕ := 0x4000

def GPIO_PIN_15 : ℕ := 0x8000

/-- The members of `struct bsp_tty_des` that name the pins. -/
structure Pins where
  uartPortTx : GpioPort
  uartPinTx : ℕ
  uartPortRx : GpioPort
  uartPinRx : ℕ

/-- `get_uart_af` -/
def getUartAf (uart : ℕ) (pins : Pins) (txRx : Bool) : ℕ :=
  let tx (port : GpioPort) (pin : ℕ) : Bool :=
    txRx && decide (pins.uartPortTx = port) && decide (pins.uartPinTx = pin)
  let rx (port : GpioPort) (pin : ℕ) : Bool :=
    !txRx && decide (pins.uartPortRx = port) && decide (pins.uartPinRx = pin)
  if uart = USART1 then if tx .B GPIO_PIN_14 || rx .B GPIO_PIN_15 then 4 else 7
  else if uart = USART2 then 7
  else if uart = USART3 then 7
  else if uart = UART4 then if tx .A GPIO_PIN_12 || rx .A GPIO_PIN_11 then 6 else 8
  else if uart = UART5 then if tx .C GPIO_PIN_12 || rx .D GPIO_PIN_2 then 8 else 14
  else if uart = USART6 then 7
  else if uart = UART7 then
    if tx .E GPIO_PIN_8 || rx .E GPIO_PIN_7 || tx .F GPIO_PIN_7 || rx .F GPIO_PIN_6 then 7 else 11
  else 8

def GPIO_MODE_AF_PP : ℕ := 2

def GPIO_NOPULL : ℕ := 0

def GPIO_SPEED_FREQ_LOW : ℕ := 0

structure GpioInit where
  pin : ℕ
  mode : ℕ
  pull : ℕ
  speed : ℕ
  alternate : ℕ

/-- The members of `UART_InitTypeDef` and the feature word that are filled in. -/
structure UartInit where
  baudRate : ℕ
  wordLength : ℕ
  stopBits : ℕ
  parity : ℕ
  mode : ℕ
  hwFlowCtl : ℕ
  overSampling : ℕ
  oneBitSampling : ℕ
  clockPrescaler : ℕ
  advFeatureInit : ℕ

/-- The members of `RCC_PeriphCLKInitTypeDef` that are filled in. -/
structure PeriphClkInit where
  periphClockSelection : ℕ
  usart16ClockSelection : ℕ

def RCC_PERIPHCLK_USART16 : ℕ := 1

def RCC_PERIPHCLK_USART234578 : ℕ := 2

def RCC_USART16CLKSOURCE_D2PCLK2 : ℕ := 0

def RCC_USART234578CLKSOURCE_D2PCLK1 : ℕ := 0

def UART_WORDLENGTH_8B : ℕ := 0

def UART_STOPBITS_1 : ℕ := 0

def UART_PARITY_NONE : ℕ := 0

def UART_MODE_TX_RX : ℕ := 0xC

def UART_HWCONTROL_NONE : ℕ := 0

def UART_OVERSAMPLING_16 : ℕ := 0

def UART_ONE_BIT_SAMPLE_DISABLE : ℕ := 0

def UART_PRESCALER_DIV1 : ℕ := 0

def UART_ADVFEATURE_NO_INIT : ℕ := 0

/-- The settings of a UART handle for a baud rate. -/
def uartInit (baud : ℕ) : UartInit where
  baudRate := baud
  wordLength := UART_WORDLENGTH_8B
  stopBits := UART_STOPBITS_1
  parity := UART_PARITY_NONE
  mode := UART_MODE_TX_RX
  hwFlowCtl := UART_HWCONTROL_NONE
  overSampling := UART_OVERSAMPLING_16
  oneBitSampling := UART_ONE_BIT_SAMPLE_DISABLE
  clockPrescaler := UART_PRESCALER_DIV1
  advFeatureInit := UART_ADVFEATURE_NO_INIT

/-- Whether the HAL calls of one initialisation succeed. -/
structure Platform where
  halRccExPeriphClkConfig : PeriphClkInit → Bool
  halDmaInit : DmaHandle → Bool
  halUartInit : ℕ → UartInit → Bool
  halUartExDisableFifoMode : Bool

/-- The descriptor with the DMA side of the board, the other members of the descriptor, the
clock-enable bits and the calls of `HAL_GPIO_Init` so far. -/
structure Board extends TtyInit.State where
  baud : ℕ
  pins : Pins
  huartInit : UartInit
  rcc : Gate → Bool
  gpio : List (GpioPort × GpioInit)

/-- The result and the board that a part of the initialisation leaves. -/
structure Result where
  res : ℤ
  board : Board

/-- Two clocks enabled through one local descriptor, which keeps what the first lookup left. -/
def enableTwo (first second : ℕ) (rcc : Gate → Bool) : ClkOutcome × ClkOutcome :=
  let one := bspUtilsPeriphClk ⟨first, 0, none, none⟩ ENABLE rcc
  (one, bspUtilsPeriphClk { one.des with addrLo := second } ENABLE one.rcc)

def initGpio (board : Board) : Result :=
  let clks := enableTwo board.pins.uartPortTx.base board.pins.uartPortRx.base board.rcc
  if clks.1.res ≠ 0 then ⟨-ENODEV, { board with rcc := clks.1.rcc }⟩
  else if clks.2.res ≠ 0 then ⟨-ENODEV, { board with rcc := clks.2.rcc }⟩
  else
    let init (pin : ℕ) (txRx : Bool) : GpioInit :=
      { pin
        mode := GPIO_MODE_AF_PP
        pull := GPIO_NOPULL
        speed := GPIO_SPEED_FREQ_LOW
        alternate := getUartAf board.des.uart board.pins txRx }
    ⟨0, { board with
      rcc := clks.2.rcc
      gpio := board.gpio ++ [(board.pins.uartPortTx, init board.pins.uartPinTx true),
        (board.pins.uartPortRx, init board.pins.uartPinRx false)] }⟩

/-- The results of the calls that `init_dma` makes. -/
def dmaHal (platform : Platform) (board : Board) : Hal :=
  let clks := enableTwo board.des.dmaTx board.des.dmaRx board.rcc
  { periphClk := fun addr ↦ if addr = board.des.dmaTx then clks.1.res else clks.2.res
    halDmaInit := platform.halDmaInit }

/-- `init_dma` with the clocks that it enables. -/
def initDma (platform : Platform) (board : Board) : Result :=
  let clks := enableTwo board.des.dmaTx board.des.dmaRx board.rcc
  let outcome := TtyInit.initDma (dmaHal platform board) board.toState
  ⟨outcome.res, { board with
    toState := outcome.state
    rcc := if clks.1.res ≠ 0 then clks.1.rcc else clks.2.rcc }⟩

/-- The kernel clock that `init_uart` selects; for the other UARTs the source is written to the
member of the first two as well. -/
def uartClk (uart : ℕ) : PeriphClkInit :=
  if uart = USART1 ∨ uart = USART6 then ⟨RCC_PERIPHCLK_USART16, RCC_USART16CLKSOURCE_D2PCLK2⟩
  else ⟨RCC_PERIPHCLK_USART234578, RCC_USART234578CLKSOURCE_D2PCLK1⟩

def initUart (platform : Platform) (board : Board) : Result :=
  if !platform.halRccExPeriphClkConfig (uartClk board.des.uart) then ⟨-EAGAIN, board⟩
  else
    let clk := bspUtilsPeriphClk ⟨board.des.uart, 0, none, none⟩ ENABLE board.rcc
    let board := { board with rcc := clk.rcc }
    if clk.res ≠ 0 then ⟨-ENODEV, board⟩
    else
      let board := { board with
        des := { board.des with huartInstance := board.des.uart }
        huartInit := uartInit board.baud }
      if !platform.halUartInit board.des.huartInstance board.huartInit then ⟨-EAGAIN, board⟩
      else if !platform.halUartExDisableFifoMode then ⟨-EAGAIN, board⟩
      else ⟨0, board⟩

def bspTtyInit (platform : Platform) (board : Board) : Result :=
  let gpio := initGpio board
  if gpio.res ≠ 0 then gpio
  else
    let dma := initDma platform gpio.board
    if dma.res ≠ 0 then dma else initUart platform dma.board

/-- The gates that a call by address switches, if it succeeds. -/
def switched (addr : ℕ) : Option (List Gate) :=
  let entry := periphRanges.scan addr
  if entry.addrHi < addr then none
  else if (clkCases.lookup entry.addrLo).isSome then some (clockGates entry) else none

/-- Whatever the local descriptor holds besides the address. -/
theorem clk_of_switched {des : BspUtilsPeriphDes} (haddr : des.addrLo ≠ 0) {gates : List Gate}
    (h : switched des.addrLo = some gates) (rcc : Gate → Bool) :
    (bspUtilsPeriphClk des ENABLE rcc).res = 0 ∧
      (bspUtilsPeriphClk des ENABLE rcc).rcc = setGates gates true rcc := by
  unfold switched at h
  dsimp only at h
  split_ifs at h with hhi hcase
  obtain rfl := Option.some.inj h
  rw [bspUtilsPeriphClk_of_found haddr (.inr rfl) rcc (not_lt.mp hhi)]
  dsimp only
  rw [if_pos hcase]
  exact ⟨rfl, rfl⟩

/-- An address that leads to an entry without a clock. -/
theorem clk_of_no_case {des : BspUtilsPeriphDes} (haddr : des.addrLo ≠ 0)
    (hhi : des.addrLo ≤ (periphRanges.scan des.addrLo).addrHi)
    (hcase : clkCases.lookup (periphRanges.scan des.addrLo).addrLo = none) (rcc : Gate → Bool) :
    (bspUtilsPeriphClk des ENABLE rcc).res = -EINVAL ∧
      (bspUtilsPeriphClk des ENABLE rcc).rcc = rcc := by
  rw [bspUtilsPeriphClk_of_found haddr (.inr rfl) rcc hhi]
  dsimp only
  rw [hcase]
  exact ⟨rfl, rfl⟩

def dma1Streams : List ℕ := dmaTb.headD []

/-- A stream of the first controller switches the clock of the second one. -/
theorem switched_dma1Streams :
    ∀ stream ∈ dma1Streams, stream ≠ 0 ∧ switched stream = some [.DMA2] := by
  decide +kernel

/-- A stream of the second controller leads to an entry without a clock. -/
theorem no_case_of_other_stream : ∀ stream ∈ dmaTb.flatten, stream ∉ dma1Streams →
    stream ≠ 0 ∧ stream ≤ (periphRanges.scan stream).addrHi ∧
      clkCases.lookup (periphRanges.scan stream).addrLo = none := by
  decide +kernel

theorem switched_port (port : GpioPort) :
    port.base ≠ 0 ∧ switched port.base = some [port.gate] := by
  cases port <;> decide +kernel

theorem switched_usart1 : USART1 ≠ 0 ∧ switched USART1 = some [.USART1] := by
  decide +kernel

section Two

variable {first second : ℕ} {one two : List Gate}

theorem enableTwo_fst (haddr : first ≠ 0) (h : switched first = some one) (second : ℕ)
    (rcc : Gate → Bool) :
    (enableTwo first second rcc).1.res = 0 ∧
      (enableTwo first second rcc).1.rcc = setGates one true rcc :=
  clk_of_switched (show (⟨first, 0, none, none⟩ : BspUtilsPeriphDes).addrLo ≠ 0 from haddr) h rcc

theorem enableTwo_snd (haddr : first ≠ 0) (h : switched first = some one) (haddr' : second ≠ 0)
    (h' : switched second = some two) (rcc : Gate → Bool) :
    (enableTwo first second rcc).2.res = 0 ∧
      (enableTwo first second rcc).2.rcc = setGates two true (setGates one true rcc) := by
  rw [← (enableTwo_fst haddr h second rcc).2]
  exact clk_of_switched haddr' h' _

end Two

/-- The pins with the functions that connect them to the UART. -/
def pinCalls (board : Board) : List (GpioPort × GpioInit) :=
  [(board.pins.uartPortTx, ⟨board.pins.uartPinTx, GPIO_MODE_AF_PP, GPIO_NOPULL,
      GPIO_SPEED_FREQ_LOW, getUartAf board.des.uart board.pins true⟩),
    (board.pins.uartPortRx, ⟨board.pins.uartPinRx, GPIO_MODE_AF_PP, GPIO_NOPULL,
      GPIO_SPEED_FREQ_LOW, getUartAf board.des.uart board.pins false⟩)]

/-- The board behind the pins. -/
def withPins (board : Board) : Board :=
  { board with
    rcc := setGates [board.pins.uartPortRx.gate] true
      (setGates [board.pins.uartPortTx.gate] true board.rcc)
    gpio := board.gpio ++ pinCalls board }

theorem initGpio_eq (board : Board) : initGpio board = ⟨0, withPins board⟩ := by
  obtain ⟨htx, hgateTx⟩ := switched_port board.pins.uartPortTx
  obtain ⟨hrx, hgateRx⟩ := switched_port board.pins.uartPortRx
  have hfirst := (enableTwo_fst htx hgateTx board.pins.uartPortRx.base board.rcc).1
  obtain ⟨hsecond, hrcc⟩ := enableTwo_snd htx hgateTx hrx hgateRx board.rcc
  unfold initGpio
  dsimp only
  rw [if_neg (not_not.mpr hfirst), if_neg (not_not.mpr hsecond), hrcc]
  rfl

/-- The transmit handle that is given to the HAL. -/
def txHandle (des : BspTtyInitDes) : DmaHandle where
  stream := des.dmaTx
  init := dmaInit 41 DMA_MEMORY_TO_PERIPH
  startTxCallback := true
  linked := des.hdmaUartTx.linked

def rxHandle (des : BspTtyInitDes) : DmaHandle where
  stream := des.dmaRx
  init := dmaInit 42 DMA_PERIPH_TO_MEMORY
  startTxCallback := des.hdmaUartRx.startTxCallback
  linked := des.hdmaUartRx.linked

/-- The descriptor with both handles bound. -/
def boundDes (des : BspTtyInitDes) : BspTtyInitDes :=
  { des with
    hdmaUartTx := { txHandle des with linked := true }
    hdmaUartRx := { rxHandle des with linked := true } }

section Streams

theorem Outcome.andThen_of_ne {done : Outcome} (h : done.res ≠ 0)
    (next : TtyInit.State → Outcome) : done.andThen next = done := if_pos h

variable {hal : Hal} {state : TtyInit.State}

theorem initTxHandle_of_usart1 (huart : state.des.uart = USART1) :
    initTxHandle hal state =
      if hal.halDmaInit (txHandle state.des) then
        ⟨0, { state with des := { state.des with
          hdmaUartTx := { txHandle state.des with linked := true } } }⟩
      else
        ⟨-EAGAIN, { state with des := { state.des with hdmaUartTx := txHandle state.des } }⟩ := by
  unfold initTxHandle
  dsimp only
  rw [huart, getDmaRequest_eq, if_pos rfl]
  cases haccept : hal.halDmaInit (txHandle state.des) <;> simp [txHandle] at haccept ⊢ <;>
    simp [haccept]

theorem initRxHandle_of_usart1 (huart : state.des.uart = USART1) :
    initRxHandle hal state =
      if hal.halDmaInit (rxHandle state.des) then
        ⟨0, { state with des := { state.des with
          hdmaUartRx := { rxHandle state.des with linked := true } } }⟩
      else
        ⟨-EAGAIN, { state with des := { state.des with hdmaUartRx := rxHandle state.des } }⟩ := by
  unfold initRxHandle
  dsimp only
  rw [huart, getDmaRequest_eq, if_pos rfl]
  cases haccept : hal.halDmaInit (rxHandle state.des) <;> simp [rxHandle] at haccept ⊢ <;>
    simp [haccept]

/-- The state that a successful binding leaves. -/
def boundState (state : TtyInit.State) : TtyInit.State :=
  { enabledState state with
    des := boundDes state.des
    txIt := fun it ↦ decide (it = .tc)
    txPar := state.des.huartInstance + TDR_OFFSET }

/-- Behind the clocks and the interrupts, the UART has to be the first one and the HAL has to
accept both handles. -/
theorem initDma_of_streams (hclkTx : hal.periphClk state.des.dmaTx = 0)
    (hclkRx : hal.periphClk state.des.dmaRx = 0) (htx : state.des.dmaTx ∈ dmaTb.flatten)
    (hrx : state.des.dmaRx ∈ dmaTb.flatten) :
    (TtyInit.initDma hal state).res =
        (if state.des.uart ≠ USART1 then -ENODEV
        else if hal.halDmaInit (txHandle state.des) && hal.halDmaInit (rxHandle state.des) then 0
        else -EAGAIN) ∧
      ((TtyInit.initDma hal state).res = 0 →
        (TtyInit.initDma hal state).state = boundState state) := by
  have henabled := (enableBoth_res_iff state).mpr ⟨htx, hrx⟩
  have hdes : (enabledState state).des = state.des := enableBoth_des state
  have hchain : TtyInit.initDma hal state =
      ((initTxHandle hal (enabledState state)).andThen (initRxHandle hal)).andThen
        finishTxStream := by
    rw [TtyInit.initDma, if_neg (not_not.mpr hclkTx), if_neg (not_not.mpr hclkRx),
      Outcome.andThen_of_zero henabled]
    rfl
  have hrefused {done : Outcome} (h : done.res ≠ 0) :
      (done.andThen (initRxHandle hal)).andThen finishTxStream = done := by
    rw [Outcome.andThen_of_ne h, Outcome.andThen_of_ne h]
  have heagain : -EAGAIN ≠ 0 := by decide
  have henodev : -ENODEV ≠ 0 := by decide
  rw [hchain]
  by_cases huart : state.des.uart = USART1
  · have htxHandle := (initTxHandle_of_usart1 (hdes ▸ huart) :
        initTxHandle hal (enabledState state) = _)
    rw [if_neg (not_not.mpr huart)]
    rw [hdes] at htxHandle
    cases haccept : hal.halDmaInit (txHandle state.des) with
    | false =>
      rw [haccept, if_neg Bool.false_ne_true] at htxHandle
      rw [hrefused (htxHandle ▸ heagain), htxHandle]
      exact ⟨rfl, fun h ↦ absurd h heagain⟩
    | true =>
      rw [haccept, if_pos rfl] at htxHandle
      have hrxHandle : initRxHandle hal (initTxHandle hal (enabledState state)).state = _ :=
        initRxHandle_of_usart1 (by rw [htxHandle]; exact huart)
      have hsame : rxHandle (initTxHandle hal (enabledState state)).state.des =
          rxHandle state.des := by
        rw [htxHandle]
        rfl
      rw [hsame] at hrxHandle
      have hres : (initTxHandle hal (enabledState state)).res = 0 := by rw [htxHandle]
      rw [Outcome.andThen_of_zero hres]
      cases haccept' : hal.halDmaInit (rxHandle state.des) with
      | false =>
        rw [haccept', if_neg Bool.false_ne_true] at hrxHandle
        rw [Outcome.andThen_of_ne (hrxHandle ▸ heagain), hrxHandle]
        exact ⟨rfl, fun h ↦ absurd h heagain⟩
      | true =>
        rw [haccept', if_pos rfl] at hrxHandle
        have hres' : (initRxHandle hal (initTxHandle hal (enabledState state)).state).res = 0 := by
          rw [hrxHandle]
        rw [Outcome.andThen_of_zero hres', hrxHandle, htxHandle]
        exact ⟨rfl, fun _ ↦ rfl⟩
  · have hother : (initTxHandle hal (enabledState state)).res = -ENODEV :=
      initTxHandle_of_other (hdes ▸ huart)
    rw [if_pos huart, hrefused (hother ▸ henodev), hother]
    exact ⟨rfl, fun h ↦ absurd h henodev⟩

end Streams

/-- What the initialisation of the streams leaves of a descriptor. -/
structure Wiring where
  uart : ℕ
  dmaTx : ℕ
  dmaRx : ℕ
  huartInstance : ℕ

def wiring (des : BspTtyInitDes) : Wiring := ⟨des.uart, des.dmaTx, des.dmaRx, des.huartInstance⟩

theorem wiring_andThen {done : Outcome} {next : TtyInit.State → Outcome} {start : Wiring}
    (hdone : wiring done.state.des = start)
    (hnext : ∀ state, wiring (next state).state.des = wiring state.des) :
    wiring (done.andThen next).state.des = start := by
  unfold Outcome.andThen
  split_ifs
  · exact hdone
  · rw [hnext, hdone]

theorem wiring_initTxHandle (hal : Hal) (state : TtyInit.State) :
    wiring (initTxHandle hal state).state.des = wiring state.des := by
  unfold initTxHandle
  dsimp only
  split
  · rfl
  · split <;> rfl

theorem wiring_initRxHandle (hal : Hal) (state : TtyInit.State) :
    wiring (initRxHandle hal state).state.des = wiring state.des := by
  unfold initRxHandle
  dsimp only
  split
  · rfl
  · split <;> rfl

theorem wiring_initDma (hal : Hal) (state : TtyInit.State) :
    wiring (TtyInit.initDma hal state).state.des = wiring state.des := by
  unfold TtyInit.initDma
  split_ifs
  · rfl
  · rfl
  · refine wiring_andThen (wiring_andThen (wiring_andThen ?_ (wiring_initTxHandle hal))
      (wiring_initRxHandle hal)) fun _ ↦ rfl
    rw [enableBoth_des]

section Board

variable {platform : Platform} {board : Board}

/-- The board with the clock of the second controller enabled. -/
def withDma2 (board : Board) : Board := { board with rcc := setGates [.DMA2] true board.rcc }

theorem initDma_of_other_tx (htx : board.des.dmaTx ∈ dmaTb.flatten)
    (hother : board.des.dmaTx ∉ dma1Streams) :
    initDma platform board = ⟨-ENODEV, board⟩ := by
  obtain ⟨haddr, hhi, hcase⟩ := no_case_of_other_stream _ htx hother
  obtain ⟨hres, hrcc⟩ : (enableTwo board.des.dmaTx board.des.dmaRx board.rcc).1.res = -EINVAL ∧
      (enableTwo board.des.dmaTx board.des.dmaRx board.rcc).1.rcc = board.rcc :=
    clk_of_no_case (show (⟨board.des.dmaTx, 0, none, none⟩ : BspUtilsPeriphDes).addrLo ≠ 0
      from haddr) hhi hcase board.rcc
  have hne : (enableTwo board.des.dmaTx board.des.dmaRx board.rcc).1.res ≠ 0 := by
    rw [hres]
    decide
  have hclk : (dmaHal platform board).periphClk board.des.dmaTx ≠ 0 := by simpa [dmaHal] using hne
  have houtcome : TtyInit.initDma (dmaHal platform board) board.toState =
      ⟨-ENODEV, board.toState⟩ := if_pos hclk
  unfold initDma
  dsimp only
  rw [houtcome, if_pos hne, hrcc]

theorem initDma_of_other_rx (htx : board.des.dmaTx ∈ dma1Streams)
    (hrx : board.des.dmaRx ∈ dmaTb.flatten) (hother : board.des.dmaRx ∉ dma1Streams) :
    initDma platform board = ⟨-EINVAL, withDma2 board⟩ := by
  obtain ⟨haddr, hgates⟩ := switched_dma1Streams _ htx
  obtain ⟨hfirst, hrcc⟩ := enableTwo_fst haddr hgates board.des.dmaRx board.rcc
  obtain ⟨haddr', hhi, hcase⟩ := no_case_of_other_stream _ hrx hother
  obtain ⟨hres, hrcc'⟩ : (enableTwo board.des.dmaTx board.des.dmaRx board.rcc).2.res = -EINVAL ∧
      (enableTwo board.des.dmaTx board.des.dmaRx board.rcc).2.rcc =
        (enableTwo board.des.dmaTx board.des.dmaRx board.rcc).1.rcc :=
    clk_of_no_case haddr' hhi hcase _
  have hne : board.des.dmaRx ≠ board.des.dmaTx := fun h ↦ hother (h ▸ htx)
  have hclk : (dmaHal platform board).periphClk board.des.dmaTx = 0 := by
    simpa [dmaHal] using hfirst
  have hclk' : (dmaHal platform board).periphClk board.des.dmaRx = -EINVAL := by
    simpa [dmaHal, hne] using hres
  have houtcome : TtyInit.initDma (dmaHal platform board) board.toState =
      ⟨-EINVAL, board.toState⟩ := by
    rw [TtyInit.initDma, if_neg (not_not.mpr hclk), hclk']
    rfl
  unfold initDma
  dsimp only
  rw [houtcome, if_neg (not_not.mpr hfirst), hrcc', hrcc]
  rfl

/-- With both streams of the first controller, only the clock of the second one is enabled. -/
theorem initDma_of_dma1 (platform : Platform) (htx : board.des.dmaTx ∈ dma1Streams)
    (hrx : board.des.dmaRx ∈ dma1Streams) :
    (∀ addr, (dmaHal platform board).periphClk addr = 0) ∧
      initDma platform board =
        ⟨(TtyInit.initDma (dmaHal platform board) board.toState).res,
          { withDma2 (withDma2 board) with
            toState := (TtyInit.initDma (dmaHal platform board) board.toState).state }⟩ := by
  obtain ⟨haddr, hgates⟩ := switched_dma1Streams _ htx
  obtain ⟨haddr', hgates'⟩ := switched_dma1Streams _ hrx
  have hfirst := (enableTwo_fst haddr hgates board.des.dmaRx board.rcc).1
  obtain ⟨hsecond, hrcc⟩ := enableTwo_snd haddr hgates haddr' hgates' board.rcc
  constructor
  · intro addr
    simp only [dmaHal]
    split_ifs
    · exact hfirst
    · exact hsecond
  · unfold initDma
    dsimp only
    rw [if_neg (not_not.mpr hfirst), hrcc]
    rfl

/-- The kernel clock of the first UART. -/
def usart1Clk : PeriphClkInit := ⟨RCC_PERIPHCLK_USART16, RCC_USART16CLKSOURCE_D2PCLK2⟩

/-- The board with the UART handle set up for the first UART. -/
def withUart (board : Board) : Board :=
  { board with
    rcc := setGates [.USART1] true board.rcc
    des := { board.des with huartInstance := USART1 }
    huartInit := uartInit board.baud }

/-- The handle is set up as soon as the kernel clock is. -/
theorem initUart_of_usart1 (huart : board.des.uart = USART1) :
    initUart platform board =
      if platform.halRccExPeriphClkConfig usart1Clk then
        ⟨if platform.halUartInit USART1 (uartInit board.baud) && platform.halUartExDisableFifoMode
          then 0 else -EAGAIN, withUart board⟩
      else ⟨-EAGAIN, board⟩ := by
  obtain ⟨haddr, hgates⟩ := switched_usart1
  obtain ⟨hres, hrcc⟩ := clk_of_switched
    (show (⟨USART1, 0, none, none⟩ : BspUtilsPeriphDes).addrLo ≠ 0 from haddr) hgates board.rcc
  have hclk : uartClk USART1 = usart1Clk := if_pos (.inl rfl)
  unfold initUart
  dsimp only
  rw [huart, hclk, if_neg (not_not.mpr hres), hrcc]
  cases platform.halRccExPeriphClkConfig usart1Clk with
  | false => rfl
  | true =>
    cases platform.halUartInit USART1 (uartInit board.baud) with
    | false => simp [withUart, huart]
    | true => cases platform.halUartExDisableFifoMode <;> simp [withUart, huart]

/-! ## The whole initialisation -/

/-- The streams of the descriptor are in the table. -/
def Board.Listed (board : Board) : Prop :=
  board.des.dmaTx ∈ dmaTb.flatten ∧ board.des.dmaRx ∈ dmaTb.flatten

/-- The HAL accepts the handles of both streams. -/
def Platform.acceptsStreams (platform : Platform) (des : BspTtyInitDes) : Bool :=
  platform.halDmaInit (txHandle des) && platform.halDmaInit (rxHandle des)

/-- The HAL accepts the UART behind the choice of its kernel clock. -/
def Platform.acceptsUart (platform : Platform) (baud : ℕ) : Bool :=
  platform.halUartInit USART1 (uartInit baud) && platform.halUartExDisableFifoMode

/-- The board behind the pins and the streams. -/
def withStreams (board : Board) : Board :=
  { withDma2 (withDma2 (withPins board)) with toState := boundState board.toState }

/-- The streams of the first controller are bound to the first UART if the HAL accepts them. -/
theorem initDma_of_dma1_res (platform : Platform) (board : Board)
    (htx : board.des.dmaTx ∈ dma1Streams) (hrx : board.des.dmaRx ∈ dma1Streams) :
    (initDma platform board).res =
        (if board.des.uart ≠ USART1 then -ENODEV
        else if platform.acceptsStreams board.des then 0 else -EAGAIN) ∧
      ((initDma platform board).res = 0 →
        (initDma platform board).board =
          { withDma2 (withDma2 board) with toState := boundState board.toState }) := by
  have hmem : ∀ stream ∈ dma1Streams, stream ∈ dmaTb.flatten := by decide
  obtain ⟨hclk, hdma⟩ := initDma_of_dma1 platform htx hrx
  obtain ⟨hres, hstate⟩ := initDma_of_streams (hclk board.des.dmaTx) (hclk board.des.dmaRx)
    (hmem _ htx) (hmem _ hrx)
  rw [hdma]
  exact ⟨hres, fun h ↦ by rw [hstate h]⟩

/-- The pins never fail. -/
theorem bspTtyInit_eq (platform : Platform) (board : Board) :
    bspTtyInit platform board =
      if (initDma platform (withPins board)).res ≠ 0 then initDma platform (withPins board)
      else initUart platform (initDma platform (withPins board)).board := by
  unfold bspTtyInit
  rw [initGpio_eq]
  rfl

theorem bspTtyInit_of_other_tx (htx : board.des.dmaTx ∈ dmaTb.flatten)
    (hother : board.des.dmaTx ∉ dma1Streams) :
    bspTtyInit platform board = ⟨-ENODEV, withPins board⟩ := by
  have hrefused : initDma platform (withPins board) = ⟨-ENODEV, withPins board⟩ :=
    initDma_of_other_tx htx hother
  rw [bspTtyInit_eq, hrefused]
  exact if_pos (show -ENODEV ≠ 0 by decide)

theorem bspTtyInit_of_other_rx (htx : board.des.dmaTx ∈ dma1Streams)
    (hrx : board.des.dmaRx ∈ dmaTb.flatten) (hother : board.des.dmaRx ∉ dma1Streams) :
    bspTtyInit platform board = ⟨-EINVAL, withDma2 (withPins board)⟩ := by
  have hrefused : initDma platform (withPins board) = ⟨-EINVAL, withDma2 (withPins board)⟩ :=
    initDma_of_other_rx htx hrx hother
  rw [bspTtyInit_eq, hrefused]
  exact if_pos (show -EINVAL ≠ 0 by decide)

/-- Streams that are refused end the initialisation. -/
theorem bspTtyInit_of_refused (htx : board.des.dmaTx ∈ dma1Streams)
    (hrx : board.des.dmaRx ∈ dma1Streams)
    (hrefused : ¬ (board.des.uart = USART1 ∧ platform.acceptsStreams board.des = true)) :
    (bspTtyInit platform board).res = (if board.des.uart ≠ USART1 then -ENODEV else -EAGAIN) ∧
      (bspTtyInit platform board).board = (initDma platform (withPins board)).board := by
  have hres : (initDma platform (withPins board)).res =
      (if board.des.uart ≠ USART1 then -ENODEV
      else if platform.acceptsStreams board.des then 0 else -EAGAIN) :=
    (initDma_of_dma1_res platform (withPins board) htx hrx).1
  have hvalue : (initDma platform (withPins board)).res =
      (if board.des.uart ≠ USART1 then -ENODEV else -EAGAIN) := by
    rw [hres]
    split_ifs with huart haccept
    · rfl
    · exact absurd ⟨not_not.mp huart, haccept⟩ hrefused
    · rfl
  have hne : (initDma platform (withPins board)).res ≠ 0 := by
    rw [hvalue]
    split_ifs <;> decide
  rw [bspTtyInit_eq, if_pos hne]
  exact ⟨hvalue, rfl⟩

/-- Streams that are accepted leave the rest to the UART. -/
theorem bspTtyInit_of_accepted (htx : board.des.dmaTx ∈ dma1Streams)
    (hrx : board.des.dmaRx ∈ dma1Streams) (huart : board.des.uart = USART1)
    (haccept : platform.acceptsStreams board.des = true) :
    bspTtyInit platform board =
      if platform.halRccExPeriphClkConfig usart1Clk then
        ⟨if platform.acceptsUart board.baud then 0 else -EAGAIN, withUart (withStreams board)⟩
      else ⟨-EAGAIN, withStreams board⟩ := by
  obtain ⟨hres, hboard⟩ : (initDma platform (withPins board)).res =
        (if board.des.uart ≠ USART1 then -ENODEV
        else if platform.acceptsStreams board.des then 0 else -EAGAIN) ∧
      ((initDma platform (withPins board)).res = 0 →
        (initDma platform (withPins board)).board = withStreams board) :=
    initDma_of_dma1_res platform (withPins board) htx hrx
  rw [if_neg (not_not.mpr huart), if_pos haccept] at hres
  have hsame : (withStreams board).des.uart = USART1 := huart
  rw [bspTtyInit_eq, if_neg (not_not.mpr hres), hboard hres, initUart_of_usart1 hsame]
  rfl

/-- The result and, when it is zero, the board. -/
theorem bspTtyInit_outcome (platform : Platform) (hlisted : board.Listed) :
    (bspTtyInit platform board).res =
        (if board.des.dmaTx ∉ dma1Streams then -ENODEV
        else if board.des.dmaRx ∉ dma1Streams then -EINVAL
        else if board.des.uart ≠ USART1 then -ENODEV
        else if platform.acceptsStreams board.des &&
            platform.halRccExPeriphClkConfig usart1Clk && platform.acceptsUart board.baud then 0
        else -EAGAIN) ∧
      ((bspTtyInit platform board).res = 0 →
        (bspTtyInit platform board).board = withUart (withStreams board)) := by
  have heagain : -EAGAIN ≠ 0 := by decide
  by_cases hdma : board.des.dmaTx ∈ dma1Streams
  swap
  · rw [bspTtyInit_of_other_tx hlisted.1 hdma, if_pos hdma]
    exact ⟨rfl, fun h ↦ absurd h (show -ENODEV ≠ 0 by decide)⟩
  by_cases hdma' : board.des.dmaRx ∈ dma1Streams
  swap
  · rw [bspTtyInit_of_other_rx hdma hlisted.2 hdma', if_neg (not_not.mpr hdma), if_pos hdma']
    exact ⟨rfl, fun h ↦ absurd h (show -EINVAL ≠ 0 by decide)⟩
  rw [if_neg (not_not.mpr hdma), if_neg (not_not.mpr hdma')]
  by_cases haccept : board.des.uart = USART1 ∧ platform.acceptsStreams board.des = true
  · rw [bspTtyInit_of_accepted hdma hdma' haccept.1 haccept.2, if_neg (not_not.mpr haccept.1),
      haccept.2]
    cases platform.halRccExPeriphClkConfig usart1Clk with
    | false => exact ⟨rfl, fun h ↦ absurd h heagain⟩
    | true => exact ⟨rfl, fun _ ↦ rfl⟩
  · obtain ⟨hres, -⟩ := bspTtyInit_of_refused hdma hdma' haccept
    rw [hres]
    split_ifs with huart hall
    · exact ⟨rfl, fun h ↦ absurd h (by decide)⟩
    · simp only [Bool.and_eq_true] at hall
      exact absurd ⟨not_not.mp huart, hall.1.1⟩ haccept
    · exact ⟨rfl, fun h ↦ absurd h heagain⟩

/-- Both interrupts are enabled for streams of the table. -/
theorem boundState_nvic (hlisted : board.Listed) (line : ℤ) :
    (boundState board.toState).nvic line =
      (board.nvic line || decide (streamIrq board.des.dmaTx = some line) ||
        decide (streamIrq board.des.dmaRx = some line)) := by
  obtain ⟨htx, hrx⟩ := (Outcome.andThen_res_eq_zero_iff _ _).mp
    ((enableBoth_res_iff board.toState).mpr hlisted)
  change (enabledState board.toState).nvic line = _
  rw [enabledState, Outcome.andThen_of_zero htx, enableDmaIrq_nvic hrx, enableDmaIrq_nvic htx,
    enableDmaIrq_des]
  rfl

/-- The clocks of a board that has been brought up. -/
theorem rcc_withUart (board : Board) (gate : Gate) :
    (withUart (withStreams board)).rcc gate =
      (board.rcc gate ||
        decide
          (gate ∈ [board.pins.uartPortTx.gate, board.pins.uartPortRx.gate, .DMA2, .USART1])) := by
  simp only [withUart, withStreams, withDma2, withPins, setGates_apply, List.mem_cons,
    List.not_mem_nil, or_false]
  split_ifs <;> simp_all

/-- **Terminal bring-up.** For streams of the table the result says in this order whether the
transmit and the receive stream are of the first controller, whether the UART is the first one
and whether the HAL accepts everything. A success has bound each stream to the request of the
other direction, enabled the clock of the second controller, and computed the destination from
the handle as it was before. -/
theorem bspTtyInit_res (platform : Platform) (board : Board) (hlisted : board.Listed) :
    let after := (bspTtyInit platform board).board
    (bspTtyInit platform board).res =
        (if board.des.dmaTx ∉ dma1Streams then -ENODEV
        else if board.des.dmaRx ∉ dma1Streams then -EINVAL
        else if board.des.uart ≠ USART1 then -ENODEV
        else if platform.acceptsStreams board.des &&
            platform.halRccExPeriphClkConfig usart1Clk && platform.acceptsUart board.baud then 0
        else -EAGAIN) ∧
      ((bspTtyInit platform board).res = 0 →
        dmaReqTb[0]? = some [after.des.hdmaUartRx.init.request,
            after.des.hdmaUartTx.init.request] ∧
          after.txPar = board.des.huartInstance + TDR_OFFSET ∧
          after.gpio = board.gpio ++ pinCalls board ∧
          (∀ gate, after.rcc gate = (board.rcc gate || decide (gate ∈
            [board.pins.uartPortTx.gate, board.pins.uartPortRx.gate, .DMA2, .USART1]))) ∧
          ∀ line, after.nvic line =
            (board.nvic line || decide (streamIrq board.des.dmaTx = some line) ||
              decide (streamIrq board.des.dmaRx = some line))) := by
  obtain ⟨hres, hboard⟩ := bspTtyInit_outcome platform hlisted
  refine ⟨hres, fun hzero ↦ ?_⟩
  rw [hboard hzero]
  exact ⟨rfl, rfl, rfl, rcc_withUart board, boundState_nvic hlisted⟩

/-- A HAL that accepts everything. -/
def examplePlatform : Platform := ⟨fun _ ↦ true, fun _ ↦ true, fun _ _ ↦ true, true⟩

/-- The default terminal, with all clocks off. -/
def exampleBoard : Board where
  toState := exampleState USART1 DMA1_Stream0 DMA1_Stream1
  baud := 115200
  pins := ⟨.B, GPIO_PIN_6, .B, GPIO_PIN_7⟩
  huartInit := ⟨0, 0, 0, 0, 0, 0, 0, 0, 0, 0⟩
  rcc := fun _ ↦ false
  gpio := []

theorem exampleBoard_listed : exampleBoard.Listed := by
  constructor <;> decide

theorem bspTtyInit_res_default :
    let after := (bspTtyInit examplePlatform exampleBoard).board
    (bspTtyInit examplePlatform exampleBoard).res = 0 ∧
      after.txPar = 0 + TDR_OFFSET ∧
      (after.rcc .DMA1 = false ∧ after.rcc .DMA2 = true) ∧
      after.nvic DMA1_Stream0_IRQn = true := by
  obtain ⟨hres, hsuccess⟩ := bspTtyInit_res examplePlatform exampleBoard exampleBoard_listed
  rw [if_neg (by decide), if_neg (by decide), if_neg (by decide)] at hres
  obtain ⟨-, hpar, -, hgates, hlines⟩ := hsuccess hres
  exact ⟨hres, hpar, ⟨hgates .DMA1, hgates .DMA2⟩, hlines DMA1_Stream0_IRQn⟩

end Board

/-! ## Runs of initialisations -/

/-- The call comes as far as the handle of the UART. -/
def Configures (platform : Platform) (board : Board) : Prop :=
  board.des.uart = USART1 ∧ board.des.dmaTx ∈ dma1Streams ∧ board.des.dmaRx ∈ dma1Streams ∧
    platform.acceptsStreams board.des = true ∧
    platform.halRccExPeriphClkConfig usart1Clk = true

instance (platform : Platform) (board : Board) : Decidable (Configures platform board) :=
  inferInstanceAs (Decidable (_ ∧ _))

/-- What a call keeps, whether it succeeds or not. -/
structure Keeps (before after : Board) : Prop where
  uart : after.des.uart = before.des.uart
  dmaTx : after.des.dmaTx = before.des.dmaTx
  dmaRx : after.des.dmaRx = before.des.dmaRx
  dma1_gate : after.rcc .DMA1 = before.rcc .DMA1

theorem GpioPort.gate_ne (port : GpioPort) : port.gate ≠ .DMA1 := by
  cases port <;> decide

theorem keeps_withPins (board : Board) : Keeps board (withPins board) where
  uart := rfl
  dmaTx := rfl
  dmaRx := rfl
  dma1_gate := by
    have htx := board.pins.uartPortTx.gate_ne.symm
    have hrx := board.pins.uartPortRx.gate_ne.symm
    simp [withPins, setGates_apply, htx, hrx]

theorem keeps_withDma2 {before after : Board} (h : Keeps before after) :
    Keeps before (withDma2 after) where
  uart := h.uart
  dmaTx := h.dmaTx
  dmaRx := h.dmaRx
  dma1_gate := by simpa [withDma2, setGates_apply] using h.dma1_gate

theorem keeps_withStreams (board : Board) : Keeps board (withStreams board) where
  uart := rfl
  dmaTx := rfl
  dmaRx := rfl
  dma1_gate := (keeps_withDma2 (keeps_withDma2 (keeps_withPins board))).dma1_gate

theorem keeps_withUart {before after : Board} (h : Keeps before after) :
    Keeps before (withUart after) where
  uart := h.uart
  dmaTx := h.dmaTx
  dmaRx := h.dmaRx
  dma1_gate := by simpa [withUart, setGates_apply] using h.dma1_gate

section Call

variable {platform : Platform} {board : Board}

/-- Whatever becomes of it, a call keeps the clock of the first controller, and it sets the
instance of the UART handle if it comes that far. -/
theorem bspTtyInit_keeps (platform : Platform) (hlisted : board.Listed) :
    Keeps board (bspTtyInit platform board).board ∧
      (bspTtyInit platform board).board.des.huartInstance =
        if Configures platform board then USART1 else board.des.huartInstance := by
  have hpins := keeps_withPins board
  have hdma2 := keeps_withDma2 hpins
  by_cases hdma : board.des.dmaTx ∈ dma1Streams
  swap
  · rw [bspTtyInit_of_other_tx hlisted.1 hdma, if_neg fun h ↦ hdma h.2.1]
    exact ⟨hpins, rfl⟩
  by_cases hdma' : board.des.dmaRx ∈ dma1Streams
  swap
  · rw [bspTtyInit_of_other_rx hdma hlisted.2 hdma', if_neg fun h ↦ hdma' h.2.2.1]
    exact ⟨hdma2, rfl⟩
  by_cases haccept : board.des.uart = USART1 ∧ platform.acceptsStreams board.des = true
  · have hstreams := keeps_withStreams board
    rw [bspTtyInit_of_accepted hdma hdma' haccept.1 haccept.2]
    by_cases hclk : platform.halRccExPeriphClkConfig usart1Clk = true
    · have hconfigures : Configures platform board :=
        ⟨haccept.1, hdma, hdma', haccept.2, hclk⟩
      rw [if_pos hclk, if_pos hconfigures]
      exact ⟨keeps_withUart hstreams, rfl⟩
    · rw [if_neg hclk, if_neg fun h ↦ hclk h.2.2.2.2]
      exact ⟨hstreams, rfl⟩
  · rw [(bspTtyInit_of_refused hdma hdma' haccept).2, if_neg fun h ↦ haccept ⟨h.1, h.2.2.2.1⟩]
    obtain ⟨-, hboard⟩ := initDma_of_dma1 platform (show (withPins board).des.dmaTx ∈ dma1Streams
      from hdma) hdma'
    have hwiring := wiring_initDma (dmaHal platform (withPins board)) board.toState
    rw [hboard]
    exact ⟨⟨congrArg Wiring.uart hwiring, congrArg Wiring.dmaTx hwiring,
      congrArg Wiring.dmaRx hwiring, (keeps_withDma2 hdma2).dma1_gate⟩,
      congrArg Wiring.huartInstance hwiring⟩

/-- Calls of the initialisation, each on a platform of its own. -/
def run (board : Board) (platforms : List Platform) : Board :=
  platforms.foldl (fun board platform ↦ (bspTtyInit platform board).board) board

theorem run_concat (board : Board) (platforms : List Platform) (platform : Platform) :
    run board (platforms ++ [platform]) = (bspTtyInit platform (run board platforms)).board := by
  simp [run]

theorem Keeps.trans {first second third : Board} (h : Keeps first second)
    (h' : Keeps second third) :
    Keeps first third where
  uart := h'.uart.trans h.uart
  dmaTx := h'.dmaTx.trans h.dmaTx
  dmaRx := h'.dmaRx.trans h.dmaRx
  dma1_gate := h'.dma1_gate.trans h.dma1_gate

theorem Keeps.listed {before after : Board} (h : Keeps before after) (hlisted : before.Listed) :
    after.Listed := by
  rw [Board.Listed, h.dmaTx, h.dmaRx]
  exact hlisted

/-- Some call of the run comes as far as the handle of the UART. -/
def EverConfigures (board : Board) (platforms : List Platform) : Prop :=
  ∃ front platform, front ++ [platform] <+: platforms ∧ Configures platform (run board front)

theorem everConfigures_concat (board : Board) (platforms : List Platform) (platform : Platform) :
    EverConfigures board (platforms ++ [platform]) ↔
      Configures platform (run board platforms) ∨ EverConfigures board platforms := by
  unfold EverConfigures
  simp only [List.prefix_concat_iff, or_and_right, exists_or]
  refine or_congr ⟨?_, fun h ↦ ⟨platforms, platform, rfl, h⟩⟩ Iff.rfl
  rintro ⟨front, last, heq, h⟩
  obtain ⟨rfl, hlast⟩ := List.append_inj' heq rfl
  obtain rfl := List.head_eq_of_cons_eq hlast
  exact h

/-- Over a run, the instance is set as soon as one call has come that far. -/
theorem run_keeps (hlisted : board.Listed) (platforms : List Platform) :
    Keeps board (run board platforms) ∧
      (board.des.huartInstance ≠ USART1 →
        ((run board platforms).des.huartInstance = USART1 ↔ EverConfigures board platforms)) := by
  induction platforms using List.reverseRecOn with
  | nil =>
    refine ⟨⟨rfl, rfl, rfl, rfl⟩, fun h ↦ iff_of_false h ?_⟩
    rintro ⟨front, platform, hprefix, -⟩
    simpa using hprefix.length_le
  | append_singleton platforms platform ih =>
    obtain ⟨hkeeps, hinstance⟩ := ih
    obtain ⟨hstep, hset⟩ := bspTtyInit_keeps platform (hkeeps.listed hlisted)
    rw [run_concat]
    refine ⟨hkeeps.trans hstep, fun hfresh ↦ ?_⟩
    rw [hset, everConfigures_concat, ← hinstance hfresh]
    split_ifs with hconfigures
    · exact iff_of_true rfl (.inl hconfigures)
    · exact (or_iff_right hconfigures).symm

/-- **Destination of the terminal.** In a run of initialisations of a fresh descriptor, a call
that succeeds has left the clock of the streams' controller as it was before the run, and it
points the transmit stream at the data register of the UART exactly when an earlier call of the
run has come as far as the handle of the UART. -/
theorem run_destination (board : Board) (hlisted : board.Listed)
    (hfresh : board.des.huartInstance ≠ USART1) (platforms : List Platform) (last : Platform)
    (hres : (bspTtyInit last (run board platforms)).res = 0) :
    (run board (platforms ++ [last])).rcc .DMA1 = board.rcc .DMA1 ∧
      (run board (platforms ++ [last])).des.dmaTx ∈ dma1Streams ∧
      ((run board (platforms ++ [last])).txPar = USART1 + TDR_OFFSET ↔
        EverConfigures board platforms) := by
  obtain ⟨hkeeps, hinstance⟩ := run_keeps hlisted platforms
  obtain ⟨htable, hboard⟩ := bspTtyInit_outcome last (hkeeps.listed hlisted)
  obtain ⟨hafter, -⟩ := run_keeps hlisted (platforms ++ [last])
  refine ⟨hafter.dma1_gate, ?_, ?_⟩
  · by_contra hother
    rw [hafter.dmaTx, ← hkeeps.dmaTx] at hother
    rw [hres, if_pos hother] at htable
    exact absurd htable.symm (show -ENODEV ≠ 0 by decide)
  · have hpar : (withUart (withStreams (run board platforms))).txPar =
        (run board platforms).des.huartInstance + TDR_OFFSET := rfl
    rw [run_concat, hboard hres, hpar, Nat.add_right_cancel_iff]
    exact hinstance hfresh

/-- Of two initialisations of the default terminal only the second one finds the handle set. -/
theorem run_destination_twice :
    (run exampleBoard [examplePlatform, examplePlatform]).rcc .DMA1 = false ∧
      (run exampleBoard [examplePlatform, examplePlatform]).des.dmaTx ∈ dma1Streams ∧
      ((run exampleBoard [examplePlatform, examplePlatform]).txPar = USART1 + TDR_OFFSET ↔
        EverConfigures exampleBoard [examplePlatform]) :=
  run_destination exampleBoard exampleBoard_listed (by decide) [examplePlatform] examplePlatform
    (by decide +kernel)

end Call

end Vodka.Bsp.TtyBringUp

import Mathlib.Tactic
import Vodka.Bsp.Tty

/-!
# Binding the terminal to its DMA streams

`init_dma` looks up the interrupts of both streams and the two requests of the
UART, fills the handles of the streams and starts them. The request lookup takes
a found index other than zero for an error, and it reads the two columns of the
request table the wrong way round, so a descriptor that could be bound is either
refused or bound to the other direction. The clock and HAL calls are parameters.
-/

namespace Vodka.Bsp.TtyInit

open Tty

def ENODEV : ℤ := 19

def EAGAIN : ℤ := 11

def USART1 : ℕ := 0x40011000

/-- `uart_tb` -/
def uartTb : List ℕ :=
  [USART1, 0x40004400, 0x40004800, 0x40004C00, 0x40005000, 0x40011400, 0x40007800, 0x40007C00]

/-- `dma_req_tb`: the transmit and the receive request of each UART, in the order of `uart_tb`. -/
def dmaReqTb : List (List ℕ) :=
  [[42, 41], [44, 43], [46, 45], [64, 63], [66, 65], [72, 71], [80, 79], [82, 81]]

def DMA_PERIPH_TO_MEMORY : ℕ := 0

def DMA_MEMORY_TO_PERIPH : ℕ := 0x40

def DMA_PINC_DISABLE : ℕ := 0

def DMA_MINC_ENABLE : ℕ := 0x400

def DMA_PDATAALIGN_BYTE : ℕ := 0

def DMA_MDATAALIGN_BYTE : ℕ := 0

def DMA_NORMAL : ℕ := 0

def DMA_PRIORITY_LOW : ℕ := 0

def DMA_FIFOMODE_DISABLE : ℕ := 0

/-- The offset of `TDR` in `USART_TypeDef`. -/
def TDR_OFFSET : ℕ := 0x28

/-- The members of `DMA_InitTypeDef` that are filled in. -/
structure DmaInit where
  request : ℕ
  direction : ℕ
  periphInc : ℕ
  memInc : ℕ
  periphDataAlignment : ℕ
  memDataAlignment : ℕ
  mode : ℕ
  priority : ℕ
  fifoMode : ℕ

/-- `DMA_HandleTypeDef`: the callback is set to `start_tx` or not set, and the parent is the UART
handle of the descriptor once the two are linked. -/
structure DmaHandle where
  stream : ℕ
  init : DmaInit
  startTxCallback : Bool
  linked : Bool

/-- The members of `struct bsp_tty_des` that `init_dma` reads or writes. -/
structure BspTtyInitDes extends BspTtyDes where
  uart : ℕ
  huartInstance : ℕ
  hdmaUartTx : DmaHandle
  hdmaUartRx : DmaHandle

/-- The interrupt enable bits of a stream. -/
inductive DmaIt
  | tc
  | te
  | dme
  | ht
  deriving DecidableEq

/-- The descriptor, the interrupt cache, the interrupt controller, and the interrupt enable bits
and the peripheral address of the transmit stream. -/
structure State where
  des : BspTtyInitDes
  cacheDmaIrq : Bool → ℤ
  priority : ℤ → ℕ × ℕ
  nvic : ℤ → Bool
  txIt : DmaIt → Bool
  txPar : ℕ

/-- The result and the state that a part of the initialisation leaves. -/
structure Outcome where
  res : ℤ
  state : State

/-- `if (res) return res;` -/
def Outcome.andThen (done : Outcome) (next : State → Outcome) : Outcome :=
  if done.res ≠ 0 then done else next done.state

/-- The results of `bsp_utils_periph_clk` at an address, and whether `HAL_DMA_Init` succeeds. -/
structure Hal where
  periphClk : ℕ → ℤ
  halDmaInit : DmaHandle → Bool

/-- `get_uart_idx` -/
def getUartIdx (uart : ℕ) : ℤ :=
  let i := uartTb.findIdx fun entry ↦ decide (entry = uart)
  if i = uartTb.length then -ENODEV else i

/-- `get_dma_request`: the request, or none for `-ENODEV`. -/
def getDmaRequest (uart : ℕ) (txRx : Bool) : Option ℕ :=
  let uartIdx := getUartIdx uart
  if uartIdx ≠ 0 then none
  else some ((dmaReqTb.getD uartIdx.toNat []).getD txRx.toNat 0)

/-- The interrupt of one stream is looked up and enabled. -/
def enableDmaIrq (txRx : Bool) (state : State) : Outcome :=
  match getDmaIrq state.des.toBspTtyDes txRx true state.cacheDmaIrq with
  | (none, cache) => ⟨-ENODEV, { state with cacheDmaIrq := cache }⟩
  | (some dmaIrq, cache) =>
    ⟨0, { state with
      cacheDmaIrq := cache
      priority := Function.update state.priority dmaIrq (0, 0)
      nvic := Function.update state.nvic dmaIrq true }⟩

/-- The settings of a stream for one direction. -/
def dmaInit (request direction : ℕ) : DmaInit :=
  { request
    direction
    periphInc := DMA_PINC_DISABLE
    memInc := DMA_MINC_ENABLE
    periphDataAlignment := DMA_PDATAALIGN_BYTE
    memDataAlignment := DMA_MDATAALIGN_BYTE
    mode := DMA_NORMAL
    priority := DMA_PRIORITY_LOW
    fifoMode := DMA_FIFOMODE_DISABLE }

/-- The part of `init_dma` for the transmit handle. -/
def initTxHandle (hal : Hal) (state : State) : Outcome :=
  let des := { state.des with
    hdmaUartTx := { state.des.hdmaUartTx with stream := state.des.dmaTx } }
  match getDmaRequest des.uart true with
  | none => ⟨-ENODEV, { state with des }⟩
  | some request =>
    let handle := { des.hdmaUartTx with
      init := dmaInit request DMA_MEMORY_TO_PERIPH, startTxCallback := true }
    if !hal.halDmaInit handle then
      ⟨-EAGAIN, { state with des := { des with hdmaUartTx := handle } }⟩
    else ⟨0, { state with des := { des with hdmaUartTx := { handle with linked := true } } }⟩

/-- The part of `init_dma` for the receive handle. -/
def initRxHandle (hal : Hal) (state : State) : Outcome :=
  let des := { state.des with
    hdmaUartRx := { state.des.hdmaUartRx with stream := state.des.dmaRx } }
  match getDmaRequest des.uart false with
  | none => ⟨-ENODEV, { state with des }⟩
  | some request =>
    let handle := { des.hdmaUartRx with init := dmaInit request DMA_PERIPH_TO_MEMORY }
    if !hal.halDmaInit handle then
      ⟨-EAGAIN, { state with des := { des with hdmaUartRx := handle } }⟩
    else ⟨0, { state with des := { des with hdmaUartRx := { handle with linked := true } } }⟩

/-- The end of `init_dma`: only the transfer-complete interrupt of the transmit stream stays
enabled, and its destination is the data register of the UART handle. -/
def finishTxStream (state : State) : Outcome :=
  ⟨0, { state with
    txIt := fun it ↦ decide (it = .tc)
    txPar := state.des.huartInstance + TDR_OFFSET }⟩

def initDma (hal : Hal) (state : State) : Outcome :=
  if hal.periphClk state.des.dmaTx ≠ 0 then ⟨-ENODEV, state⟩
  else if hal.periphClk state.des.dmaRx ≠ 0 then ⟨hal.periphClk state.des.dmaRx, state⟩
  else
    ((((enableDmaIrq true state).andThen (enableDmaIrq false)).andThen (initTxHandle hal)).andThen
      (initRxHandle hal)).andThen finishTxStream

/-- The interrupt of a stream. -/
def streamIrq (stream : ℕ) : Option ℤ := (dmaTb.flatten.zip dmaIrqTb.flatten).lookup stream

theorem streamIrq_isSome_iff (stream : ℕ) :
    (streamIrq stream).isSome ↔ stream ∈ dmaTb.flatten := by
  have hkeys : (dmaTb.flatten.zip dmaIrqTb.flatten).map Prod.fst = dmaTb.flatten := by decide
  have hmem : stream ∈ dmaTb.flatten ↔
      ∃ entry ∈ dmaTb.flatten.zip dmaIrqTb.flatten, entry.1 = stream := by
    rw [← List.mem_map, hkeys]
  rw [hmem, streamIrq, List.lookup_isSome_iff]
  simp only [beq_iff_eq, eq_comm (a := stream)]

theorem getUartIdx_eq_zero_iff (uart : ℕ) : getUartIdx uart = 0 ↔ uart = USART1 := by
  by_cases h : uart = USART1
  · subst h
    exact iff_of_true (by decide) rfl
  · have hidx : uartTb.findIdx (fun entry ↦ decide (entry = uart)) =
        (uartTb.tail.findIdx fun entry ↦ decide (entry = uart)) + 1 := by
      rw [show uartTb = USART1 :: uartTb.tail from rfl, List.findIdx_cons,
        decide_eq_false (Ne.symm h)]
      rfl
    refine iff_of_false ?_ h
    unfold getUartIdx
    rw [hidx]
    dsimp only
    split_ifs
    · decide
    · omega

/-- Only the first UART has requests, and its columns are swapped. -/
theorem getDmaRequest_eq (uart : ℕ) (txRx : Bool) :
    getDmaRequest uart txRx = if uart = USART1 then some (if txRx then 41 else 42) else none := by
  unfold getDmaRequest
  dsimp only
  by_cases h : uart = USART1
  · rw [if_pos h, if_neg (not_not.2 ((getUartIdx_eq_zero_iff uart).2 h)),
      (getUartIdx_eq_zero_iff uart).2 h]
    cases txRx <;> rfl
  · rw [if_neg h, if_pos (mt (getUartIdx_eq_zero_iff uart).1 h)]

namespace Outcome

theorem andThen_of_zero {done : Outcome} (h : done.res = 0) (next : State → Outcome) :
    done.andThen next = next done.state := by
  rw [andThen, if_neg (not_not.2 h)]

theorem andThen_res_eq_zero_iff (done : Outcome) (next : State → Outcome) :
    (done.andThen next).res = 0 ↔ done.res = 0 ∧ (next done.state).res = 0 := by
  by_cases h : done.res = 0
  · rw [andThen_of_zero h]
    exact (and_iff_right h).symm
  · rw [andThen, if_pos h]
    exact iff_of_false h fun hboth ↦ h hboth.1

end Outcome

/-- The stream of a direction. -/
def streamOf (des : BspTtyInitDes) (txRx : Bool) : ℕ := if txRx then des.dmaTx else des.dmaRx

theorem enableDmaIrq_des (txRx : Bool) (state : State) :
    (enableDmaIrq txRx state).state.des = state.des := by
  unfold enableDmaIrq
  split <;> rfl

theorem enableDmaIrq_res_iff (txRx : Bool) (state : State) :
    (enableDmaIrq txRx state).res = 0 ↔ streamOf state.des txRx ∈ dmaTb.flatten := by
  rw [← streamIrq_isSome_iff]
  unfold enableDmaIrq streamIrq streamOf
  rw [getDmaIrq_of_clear]
  cases (dmaTb.flatten.zip dmaIrqTb.flatten).lookup
      (if txRx then state.des.dmaTx else state.des.dmaRx) with
  | none => simp [ENODEV]
  | some dmaIrq => simp

theorem enableDmaIrq_nvic {txRx : Bool} {state : State}
    (h : (enableDmaIrq txRx state).res = 0) (line : ℤ) :
    (enableDmaIrq txRx state).state.nvic line =
      (state.nvic line || decide (streamIrq (streamOf state.des txRx) = some line)) := by
  unfold enableDmaIrq at h ⊢
  unfold streamIrq streamOf
  rw [getDmaIrq_of_clear] at h ⊢
  cases hirq : (dmaTb.flatten.zip dmaIrqTb.flatten).lookup
      (if txRx then state.des.dmaTx else state.des.dmaRx) with
  | none => simp [hirq, ENODEV] at h
  | some dmaIrq =>
    by_cases hline : line = dmaIrq
    · simp [hline]
    · simp [hline, Ne.symm hline]

/-- For the one UART with requests, starting the transmit stream leaves a handle with the request
that was looked up. -/
theorem initTxHandle_of_uart {hal : Hal} (hinit : ∀ handle, hal.halDmaInit handle = true)
    {state : State} (huart : state.des.uart = USART1) :
    (initTxHandle hal state).res = 0 ∧
      (initTxHandle hal state).state.des.hdmaUartTx.init.request = 41 ∧
      (initTxHandle hal state).state.des.uart = state.des.uart := by
  unfold initTxHandle
  simp [getDmaRequest_eq, huart, hinit, dmaInit]

theorem initTxHandle_of_other {hal : Hal} {state : State} (huart : state.des.uart ≠ USART1) :
    (initTxHandle hal state).res = -ENODEV := by
  unfold initTxHandle
  simp [getDmaRequest_eq, huart]

theorem initRxHandle_of_uart {hal : Hal} (hinit : ∀ handle, hal.halDmaInit handle = true)
    {state : State} (huart : state.des.uart = USART1) :
    (initRxHandle hal state).res = 0 ∧
      (initRxHandle hal state).state.des.hdmaUartTx = state.des.hdmaUartTx := by
  unfold initRxHandle
  simp [getDmaRequest_eq, huart, hinit]

/-! ## The whole initialisation -/

/-- A descriptor whose UART and streams are in the tables. -/
def Bindable (des : BspTtyInitDes) : Prop :=
  des.uart ∈ uartTb ∧ des.dmaTx ∈ dmaTb.flatten ∧ des.dmaRx ∈ dmaTb.flatten

/-- Bindable descriptors, and no others, are bound, with the requests of their UART and the
interrupts of their streams. -/
def BindOk (hal : Hal) (state : State) : Prop :=
  let outcome := initDma hal state
  (outcome.res = 0 ↔ Bindable state.des) ∧
    (outcome.res = 0 →
      (∃ i : ℕ, uartTb[i]? = some state.des.uart ∧
        dmaReqTb[i]? = some [outcome.state.des.hdmaUartTx.init.request,
          outcome.state.des.hdmaUartRx.init.request]) ∧
      ∀ line, outcome.state.nvic line =
        (state.nvic line || decide (streamIrq state.des.dmaTx = some line) ||
          decide (streamIrq state.des.dmaRx = some line)))

variable {hal : Hal} {state : State}

/-- The two interrupt lookups succeed exactly for streams of the table. -/
theorem enableBoth_res_iff (state : State) :
    ((enableDmaIrq true state).andThen (enableDmaIrq false)).res = 0 ↔
      state.des.dmaTx ∈ dmaTb.flatten ∧ state.des.dmaRx ∈ dmaTb.flatten := by
  rw [Outcome.andThen_res_eq_zero_iff, enableDmaIrq_res_iff, enableDmaIrq_res_iff,
    enableDmaIrq_des]
  rfl

theorem enableBoth_des (state : State) :
    ((enableDmaIrq true state).andThen (enableDmaIrq false)).state.des = state.des := by
  unfold Outcome.andThen
  split_ifs
  · exact enableDmaIrq_des true state
  · rw [enableDmaIrq_des, enableDmaIrq_des]

/-- Behind the clocks, the initialisation is its four other parts. -/
theorem initDma_of_clocks (hclk : ∀ addr, hal.periphClk addr = 0) (state : State) :
    initDma hal state =
      ((((enableDmaIrq true state).andThen (enableDmaIrq false)).andThen
        (initTxHandle hal)).andThen (initRxHandle hal)).andThen finishTxStream := by
  simp [initDma, hclk]

/-- The state behind the two interrupt lookups. -/
def enabledState (state : State) : State :=
  ((enableDmaIrq true state).andThen (enableDmaIrq false)).state

/-- For the first UART and streams of the table every part succeeds. -/
theorem initDma_of_bound (hclk : ∀ addr, hal.periphClk addr = 0)
    (hinit : ∀ handle, hal.halDmaInit handle = true) (huart : state.des.uart = USART1)
    (hstreams : state.des.dmaTx ∈ dmaTb.flatten ∧ state.des.dmaRx ∈ dmaTb.flatten) :
    initDma hal state =
      finishTxStream (initRxHandle hal (initTxHandle hal (enabledState state)).state).state := by
  have henabled := (enableBoth_res_iff state).2 hstreams
  have hdes : (enabledState state).des = state.des := enableBoth_des state
  obtain ⟨htx, -, hsame⟩ := initTxHandle_of_uart hinit (hdes ▸ huart)
  have hrx := (initRxHandle_of_uart hinit (hsame.trans (hdes ▸ huart))).1
  rw [initDma_of_clocks hclk, Outcome.andThen_of_zero henabled]
  change ((initTxHandle hal (enabledState state)).andThen (initRxHandle hal)).andThen
    finishTxStream = _
  rw [Outcome.andThen_of_zero htx, Outcome.andThen_of_zero hrx]

/-- With the clock and HAL calls succeeding, only the first UART is bound. -/
theorem initDma_res_iff (hclk : ∀ addr, hal.periphClk addr = 0)
    (hinit : ∀ handle, hal.halDmaInit handle = true) (state : State) :
    (initDma hal state).res = 0 ↔
      state.des.uart = USART1 ∧ state.des.dmaTx ∈ dmaTb.flatten ∧
        state.des.dmaRx ∈ dmaTb.flatten := by
  constructor
  · intro h
    rw [initDma_of_clocks hclk] at h
    simp only [Outcome.andThen_res_eq_zero_iff] at h
    obtain ⟨⟨⟨henabled, htx⟩, -⟩, -⟩ := h
    refine ⟨?_, (enableBoth_res_iff state).1 ((Outcome.andThen_res_eq_zero_iff _ _).2 henabled)⟩
    by_contra hne
    rw [← enableBoth_des state] at hne
    exact absurd ((initTxHandle_of_other hne).symm.trans htx) (by decide)
  · rintro ⟨huart, hstreams⟩
    rw [initDma_of_bound hclk hinit huart hstreams]
    rfl

/-- A bound transmit stream has the receive request. -/
theorem initDma_request (hclk : ∀ addr, hal.periphClk addr = 0)
    (hinit : ∀ handle, hal.halDmaInit handle = true) (hres : (initDma hal state).res = 0) :
    (initDma hal state).state.des.hdmaUartTx.init.request = 41 := by
  obtain ⟨huart, hstreams⟩ := (initDma_res_iff hclk hinit state).1 hres
  have hdes : (enabledState state).des = state.des := enableBoth_des state
  obtain ⟨-, hrequest, hsame⟩ := initTxHandle_of_uart hinit (hdes ▸ huart)
  have hkept := (initRxHandle_of_uart hinit (hsame.trans (hdes ▸ huart))).2
  rw [initDma_of_bound hclk hinit huart hstreams]
  exact (congrArg (fun handle ↦ handle.init.request) hkept).trans hrequest

theorem initTxHandle_nvic (hal : Hal) (state : State) :
    (initTxHandle hal state).state.nvic = state.nvic := by
  unfold initTxHandle
  dsimp only
  split
  · rfl
  · split <;> rfl

theorem initRxHandle_nvic (hal : Hal) (state : State) :
    (initRxHandle hal state).state.nvic = state.nvic := by
  unfold initRxHandle
  dsimp only
  split
  · rfl
  · split <;> rfl

/-- The interrupts that a binding enables are those of the two streams. -/
theorem initDma_nvic (hclk : ∀ addr, hal.periphClk addr = 0)
    (hinit : ∀ handle, hal.halDmaInit handle = true) (hres : (initDma hal state).res = 0)
    (line : ℤ) :
    (initDma hal state).state.nvic line =
      (state.nvic line || decide (streamIrq state.des.dmaTx = some line) ||
        decide (streamIrq state.des.dmaRx = some line)) := by
  obtain ⟨huart, hstreams⟩ := (initDma_res_iff hclk hinit state).1 hres
  obtain ⟨htx, hrx⟩ :=
    (Outcome.andThen_res_eq_zero_iff _ _).1 ((enableBoth_res_iff state).2 hstreams)
  rw [initDma_of_bound hclk hinit huart hstreams]
  change (initRxHandle hal (initTxHandle hal (enabledState state)).state).state.nvic line = _
  rw [initRxHandle_nvic, initTxHandle_nvic, enabledState, Outcome.andThen_of_zero htx,
    enableDmaIrq_nvic hrx, enableDmaIrq_nvic htx, enableDmaIrq_des]
  rfl

/-- The binding is right exactly for the descriptors that it has to refuse. -/
theorem bindOk_iff (hal : Hal) (state : State) (hclk : ∀ addr, hal.periphClk addr = 0)
    (hinit : ∀ handle, hal.halDmaInit handle = true) :
    BindOk hal state ↔
      ¬ (state.des.uart ∈ uartTb ∧ state.des.dmaTx ∈ dmaTb.flatten ∧
        state.des.dmaRx ∈ dmaTb.flatten) := by
  constructor
  · rintro ⟨hiff, hbound⟩ hbindable
    have hres := hiff.2 hbindable
    obtain ⟨⟨i, -, hrequests⟩, -⟩ := hbound hres
    rw [initDma_request hclk hinit hres] at hrequests
    -- No row of the request table starts with the receive request of the first UART.
    have hrow : ∀ row ∈ dmaReqTb, row.head? ≠ some 41 := by decide
    exact hrow _ (List.mem_of_getElem? hrequests) rfl
  · intro hnot
    have hres : (initDma hal state).res ≠ 0 := by
      intro h
      obtain ⟨huart, hstreams⟩ := (initDma_res_iff hclk hinit state).1 h
      exact hnot ⟨huart ▸ List.mem_cons_self, hstreams⟩
    exact ⟨iff_of_false hres hnot, fun h ↦ absurd h hres⟩

/-- A platform whose calls all succeed. -/
def exampleHal : Hal := ⟨fun _ ↦ 0, fun _ ↦ true⟩

/-- A zeroed handle. -/
def exampleHandle : DmaHandle := ⟨0, ⟨0, 0, 0, 0, 0, 0, 0, 0, 0⟩, false, false⟩

/-- A terminal on the given UART and streams. -/
def exampleState (uart dmaTx dmaRx : ℕ) : State where
  des :=
    { dmaTx, dmaRx, uart, txRdPtr := 0, txWrPtr := 0, huartInstance := 0
      hdmaUartTx := exampleHandle, hdmaUartRx := exampleHandle }
  cacheDmaIrq := fun _ ↦ NonMaskableInt_IRQn
  priority := fun _ ↦ (0, 0)
  nvic := fun _ ↦ false
  txIt := fun _ ↦ false
  txPar := 0

theorem bindOk_iff_unknown :
    ((∀ addr, exampleHal.periphClk addr = 0) ∧
        ∀ handle, exampleHal.halDmaInit handle = true) ∧
      (BindOk exampleHal (exampleState USART1 DMA1_Stream0 0) ↔
        ¬ (USART1 ∈ uartTb ∧ DMA1_Stream0 ∈ dmaTb.flatten ∧ 0 ∈ dmaTb.flatten)) :=
  ⟨⟨fun _ ↦ rfl, fun _ ↦ rfl⟩,
    bindOk_iff exampleHal (exampleState USART1 DMA1_Stream0 0) (fun _ ↦ rfl) fun _ ↦ rfl⟩

/-- The default descriptor is bound with the requests of the other directions, and one with the
second UART is refused. -/
theorem not_bindOk_default :
    ¬ BindOk exampleHal (exampleState USART1 DMA1_Stream0 DMA1_Stream1) ∧
      ¬ BindOk exampleHal (exampleState 0x40004400 DMA1_Stream0 DMA1_Stream1) := by
  constructor
  · rintro ⟨-, hbound⟩
    obtain ⟨⟨i, -, hrequests⟩, -⟩ := hbound (by decide)
    have hrow : ∀ row ∈ dmaReqTb, row ≠ [41, 42] := by decide
    exact hrow _ (List.mem_of_getElem? hrequests) (by decide)
  · rintro ⟨hiff, -⟩
    exact absurd (hiff.2 ⟨by decide, by decide, by decide⟩) (by decide)

end Vodka.Bsp.TtyInit

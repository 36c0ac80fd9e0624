import Mathlib.Tactic
import Vodka.Foundation.Trace

/-!
# The TTY transmit path

`write` copies bytes into a ring in the tightly coupled memory with the DMA
interrupt masked, unmasks it and calls `start_tx`, which is also the
transfer-complete callback. The DMA stream is the hardware of the transmit path:
an enabled stream sends the byte at its source address, advances it and counts
`NDTR` down, and at zero it clears its enable bit and raises the
transfer-complete flag. It sends bytes between any two statements, and once
`write` has unmasked the interrupt its handler comes between any two statements
of `start_tx` too and runs a `start_tx` of its own. Addresses are 32-bit
numbers, written with their explicit modulus.
-/

namespace Vodka.Bsp.Tty

open Foundation.Trace

def TTY_SIZE : ℕ := 0x1000

/-- Where the linker script places `.tty.int_dtcm`. -/
structure TtyRing where
  stty : ℕ
  aligned : stty % 16 = 0
  origin_le : 0x20000000 ≤ stty
  fits : stty + TTY_SIZE ≤ 0x20000000 + 0x20000

def TtyRing.etty (ring : TtyRing) : ℕ := ring.stty + TTY_SIZE

/-- The ring at the start of the memory. -/
def exampleRing : TtyRing := ⟨0x20000000, by decide, by decide, by decide⟩

def NonMaskableInt_IRQn : ℤ := -14

def DMA1_Stream0_IRQn : ℤ := 11

def DMA1_Stream0 : ℕ := 0x40020010

def DMA1_Stream1 : ℕ := 0x40020028

/-- `dma_tb`: eight streams of either controller. -/
def dmaTb : List (List ℕ) :=
  [[0x40020010, 0x40020028, 0x40020040, 0x40020058,
    0x40020070, 0x40020088, 0x400200A0, 0x400200B8],
    [0x40020410, 0x40020428, 0x40020440, 0x40020458,
    0x40020470, 0x40020488, 0x400204A0, 0x400204B8]]

/-- `dma_irq_tb`, in the order of `dma_tb`. -/
def dmaIrqTb : List (List ℤ) :=
  [[11, 12, 13, 14, 15, 16, 17, 47], [56, 57, 58, 59, 60, 68, 69, 70]]

/-- The members of `struct bsp_tty_des` that the transmit path reads. -/
structure BspTtyDes where
  dmaTx : ℕ
  dmaRx : ℕ
  txRdPtr : ℕ
  txWrPtr : ℕ
  deriving DecidableEq

/-- `SET_VAL_IF_NULL` -/
def setValIfNull (value default : ℕ) : ℕ := if value = 0 then default else value

/-- `set_default_des`: `calloc` gives a zeroed descriptor and is taken to succeed. -/
def setDefaultDes (ring : TtyRing) (des : Option BspTtyDes) : BspTtyDes :=
  let intDes := des.getD ⟨0, 0, 0, 0⟩
  { dmaTx := setValIfNull intDes.dmaTx DMA1_Stream0
    dmaRx := setValIfNull intDes.dmaRx DMA1_Stream1
    txRdPtr := setValIfNull intDes.txRdPtr ring.stty
    txWrPtr := setValIfNull intDes.txWrPtr ring.stty }

/-- `get_dma_irq`: the interrupt number, or none for `-ENODEV`, and the cache it leaves. -/
def getDmaIrq (des : BspTtyDes) (txRx clearCache : Bool) (cacheDmaIrq : Bool → ℤ) :
    Option ℤ × (Bool → ℤ) :=
  let dma := if txRx then des.dmaTx else des.dmaRx
  if !clearCache && decide (cacheDmaIrq txRx ≠ NonMaskableInt_IRQn) then
    (some (cacheDmaIrq txRx), cacheDmaIrq)
  else
    match (dmaTb.flatten.zip dmaIrqTb.flatten).lookup dma with
    | none => (none, Function.update cacheDmaIrq txRx NonMaskableInt_IRQn)
    | some dmaIrq => (some dmaIrq, Function.update cacheDmaIrq txRx dmaIrq)

/-- The registers of the stream: bits of `CR`, counter, start address, current source address
and transfer-complete flag. -/
structure Stream where
  en : Bool
  tcie : Bool
  circ : Bool
  dbm : Bool
  ct : Bool
  ndtr : ℕ
  m0ar : ℕ
  source : ℕ
  tcif : Bool
  deriving DecidableEq

inductive HalDmaState
  | reset
  | ready
  | busy
  | error
  | abort
  deriving DecidableEq

/-- The statements of `start_tx` in their order, with its local variable where it is in use. -/
inductive StartTx
  | test
  | stop
  | revert
  | count
  | advance (count : ℕ)
  | wrap (count : ℕ)
  | setNdtr (count : ℕ)
  | setM0ar
  | enable
  deriving DecidableEq

/-- A `write` call in progress has the bytes of `pending` left to copy and will unmask `dmaIrq`,
or is at a statement of its `start_tx`. -/
inductive WriteCall
  | copying (dmaIrq : ℤ) (pending : List UInt8)
  | starting (statement : StartTx)
  deriving DecidableEq

def WriteCall.pending : WriteCall → List UInt8
  | copying _ pending => pending
  | starting _ => []

def WriteCall.statement? : WriteCall → Option StartTx
  | copying _ _ => none
  | starting statement => some statement

/-- What `start_tx`, the copy loop and the stream work on. The last two fields only record the
bytes copied into the ring and the bytes sent. -/
structure Transmitter where
  des : BspTtyDes
  stream : Stream
  memory : ℕ → UInt8
  accepted : List UInt8
  emitted : List UInt8

/-- The transmitter and who works on it: a `write` call, and above it the `start_tx` that the
interrupt handler has called. `written` records the buffers passed to `write`. -/
structure State extends Transmitter where
  hdmaState : HalDmaState
  cacheDmaIrq : Bool → ℤ
  nvic : ℤ → Bool
  call : Option WriteCall
  callback : Option StartTx
  written : List UInt8

/-- The state `set_default_des` and `bsp_tty_init` leave: both interrupts are enabled and
`init_dma` sets `TCIE`. -/
def start (ring : TtyRing) (memory : ℕ → UInt8) : State :=
  let des := setDefaultDes ring none
  let found := getDmaIrq des true true fun _ ↦ NonMaskableInt_IRQn
  { des
    stream :=
      { en := false, tcie := true, circ := false, dbm := false, ct := false, ndtr := 0, m0ar := 0,
        source := 0, tcif := false }
    hdmaState := .ready
    memory
    cacheDmaIrq := (getDmaIrq des false true found.2).2
    nvic := fun _ ↦ true
    call := none
    callback := none
    written := []
    accepted := []
    emitted := [] }

def Transmitter.setRdPtr (rdPtr : ℕ) (tx : Transmitter) : Transmitter :=
  { tx with des := { tx.des with txRdPtr := rdPtr } }

def Transmitter.setStream (stream : Stream) (tx : Transmitter) : Transmitter :=
  { tx with stream }

/-- The read pointer that `start_tx` reverts to: the difference in 32 bits. -/
def revertedRdPtr (rdPtr ndtr : ℕ) : ℕ :=
  if ndtr ≤ rdPtr then rdPtr - ndtr else rdPtr + 2 ^ 32 - ndtr

/-- The number of bytes from the read pointer to the write pointer or to the end of the ring. -/
def txCount (ring : TtyRing) (rdPtr wrPtr : ℕ) : ℕ :=
  if rdPtr < wrPtr then (wrPtr + 2 ^ 32 - rdPtr) % 2 ^ 32 else (ring.etty + 2 ^ 32 - rdPtr) % 2 ^ 32

def advancedRdPtr (rdPtr count : ℕ) : ℕ := (rdPtr + count) % 2 ^ 32

def wrappedRdPtr (ring : TtyRing) (rdPtr : ℕ) : ℕ :=
  if ring.etty ≤ rdPtr then ring.stty else rdPtr

/-- One statement of `start_tx` and the next one, or none when it returns. The loop behind
`CLEAR_BIT` waits for a byte in flight, which counts as sent before. An enabled stream has its
source address loaded from `M0AR`. -/
def startTxStep (ring : TtyRing) (tx : Transmitter) : StartTx → Transmitter × Option StartTx
  | .test => (tx, if tx.des.txRdPtr = tx.des.txWrPtr then none else some .stop)
  | .stop => (tx.setStream { tx.stream with en := false }, some .revert)
  | .revert => (tx.setRdPtr (revertedRdPtr tx.des.txRdPtr tx.stream.ndtr), some .count)
  | .count => (tx, some (.advance (txCount ring tx.des.txRdPtr tx.des.txWrPtr)))
  | .advance count => (tx.setRdPtr (advancedRdPtr tx.des.txRdPtr count), some (.wrap count))
  | .wrap count => (tx.setRdPtr (wrappedRdPtr ring tx.des.txRdPtr), some (.setNdtr count))
  | .setNdtr count => (tx.setStream { tx.stream with ndtr := count % 2 ^ 16 }, some .setM0ar)
  | .setM0ar => (tx.setStream { tx.stream with m0ar := tx.des.txRdPtr }, some .enable)
  | .enable =>
    let source := if tx.stream.en then tx.stream.source else tx.stream.m0ar
    (tx.setStream { tx.stream with en := true, source }, none)

/-- The transmitter behind the next statement of `start_tx`, if there is one. -/
def startTxNext (ring : TtyRing) : Transmitter × Option StartTx → Transmitter × Option StartTx
  | (tx, some statement) => startTxStep ring tx statement
  | (tx, none) => (tx, none)

/-- `start_tx` with nothing between its statements. -/
def startTx (ring : TtyRing) (tx : Transmitter) : Transmitter :=
  ((startTxNext ring)^[9] (tx, some .test)).1

/-- One iteration of the copy loop of `write`. -/
def copyByte (ring : TtyRing) (byte : UInt8) (tx : Transmitter) : Transmitter :=
  let wrPtr := (tx.des.txWrPtr + 1) % 2 ^ 32
  let wrPtr := if ring.etty ≤ wrPtr then ring.stty else wrPtr
  { tx with
    des := { tx.des with txWrPtr := wrPtr }
    memory := Function.update tx.memory tx.des.txWrPtr byte
    accepted := tx.accepted ++ [byte] }

/-- One byte sent by the stream. -/
def dmaByte (tx : Transmitter) : Transmitter :=
  if tx.stream.en ∧ tx.stream.ndtr ≠ 0 then
    { tx with
      emitted := tx.emitted ++ [tx.memory tx.stream.source]
      stream := { tx.stream with
        source := (tx.stream.source + 1) % 2 ^ 32
        ndtr := tx.stream.ndtr - 1
        en := decide (tx.stream.ndtr ≠ 1)
        tcif := tx.stream.tcif || decide (tx.stream.ndtr = 1) } }
  else tx

/-! ## Steps -/

/-- `write` up to its copy loop. -/
def beginWrite (buf : List UInt8) (state : State) : State :=
  match getDmaIrq state.des true false state.cacheDmaIrq with
  | (none, cache) => { state with cacheDmaIrq := cache }
  | (some dmaIrq, cache) =>
    { state with
      cacheDmaIrq := cache
      nvic := Function.update state.nvic dmaIrq false
      call := some (.copying dmaIrq buf)
      written := state.written ++ buf }

/-- The transfer-complete part of `HAL_DMA_IRQHandler` up to its callback. Only
`XferCpltCallback` is set. -/
def halDmaIrqHandler (state : State) : State :=
  if !state.stream.tcif || !state.stream.tcie then state
  else
    let state := { state with stream := { state.stream with tcif := false } }
    if state.hdmaState = .abort then
      { state with stream := { state.stream with tcie := false }, hdmaState := .ready }
    else if state.stream.dbm then
      if state.stream.ct then { state with callback := some .test } else state
    else if state.stream.circ then { state with callback := some .test }
    else
      { state with
        stream := { state.stream with tcie := false }
        hdmaState := .ready
        callback := some .test }

/-- The statement of `start_tx` that is run next. The interrupt handler runs before `write`. -/
def State.running (state : State) : Option StartTx :=
  state.callback.or (state.call.bind WriteCall.statement?)

/-- One statement of the `start_tx` that runs. -/
def runStatement (ring : TtyRing) (statement : StartTx) (state : State) : State :=
  let after := startTxStep ring state.toTransmitter statement
  match state.callback with
  | some _ => { state with toTransmitter := after.1, callback := after.2 }
  | none => { state with toTransmitter := after.1, call := after.2.map .starting }

/-- What can happen next: a `write` call begins, copies a byte or unmasks the interrupt, a
`start_tx` runs a statement, the stream sends a byte, the interrupt is delivered, or the callback
is called without one. -/
inductive Event
  | beginWrite (buf : List UInt8)
  | copyByte
  | enableIrq
  | statement
  | dmaByte
  | interrupt
  | callback

/-- An event that is not possible in a state leaves it as it is: calls do not overlap, `write`
waits for the interrupt handler, and a masked interrupt is not delivered. -/
def step (ring : TtyRing) (state : State) : Event → State
  | .beginWrite buf =>
    if state.callback = none ∧ state.call = none then beginWrite buf state else state
  | .copyByte =>
    match state.callback, state.call with
    | none, some (.copying dmaIrq (byte :: rest)) =>
      { state with
        toTransmitter := copyByte ring byte state.toTransmitter
        call := some (.copying dmaIrq rest) }
    | _, _ => state
  | .enableIrq =>
    match state.callback, state.call with
    | none, some (.copying dmaIrq []) =>
      { state with
        nvic := Function.update state.nvic dmaIrq true
        call := some (.starting .test) }
    | _, _ => state
  | .statement =>
    match state.running with
    | some statement => runStatement ring statement state
    | none => state
  | .dmaByte => { state with toTransmitter := dmaByte state.toTransmitter }
  | .interrupt =>
    if state.callback = none ∧ state.nvic DMA1_Stream0_IRQn then halDmaIrqHandler state else state
  | .callback =>
    if state.callback = none ∧ state.nvic DMA1_Stream0_IRQn then
      { state with callback := some .test }
    else state

/-- All steps of a run, oldest first. -/
def ttyTrace (ring : TtyRing) (memory : ℕ → UInt8) (events : List Event) :
    List (Transition State Event) :=
  trace (fun state event ↦ some (step ring state event)) (start ring memory) events

/-- `write` with nothing in between, and its result: `count` has passed zero when the loop
ends. -/
def write (ring : TtyRing) (buf : List UInt8) (state : State) : State × ℕ :=
  match getDmaIrq state.des true false state.cacheDmaIrq with
  | (none, cache) => ({ state with cacheDmaIrq := cache }, 0)
  | (some dmaIrq, cache) =>
    let copied := buf.foldl (fun tx byte ↦ copyByte ring byte tx) state.toTransmitter
    ({ state with
        toTransmitter := startTx ring copied
        cacheDmaIrq := cache
        nvic := Function.update state.nvic dmaIrq true
        written := state.written ++ buf }, 2 ^ 32 - 1)

/-! ## Calls without anything in between -/

/-- The end of `start_tx` on a stopped stream. -/
def setDmaParameters (rdPtr count : ℕ) (tx : Transmitter) : Transmitter :=
  { tx with
    des := { tx.des with txRdPtr := rdPtr }
    stream := { tx.stream with
      en := true, ndtr := count % 2 ^ 16, m0ar := rdPtr, source := rdPtr } }

/-- The pointer and the registers that `start_tx` sets. -/
def Transmitter.put (tx : Transmitter) (en : Bool) (rdPtr ndtr m0ar source : ℕ) : Transmitter :=
  { tx with
    des := { tx.des with txRdPtr := rdPtr }
    stream := { tx.stream with en, ndtr, m0ar, source } }

section Put

variable (ring : TtyRing) (tx : Transmitter) (rdPtr ndtr m0ar source count : ℕ)

theorem put_stop : startTxNext ring (tx, some .stop) =
    (tx.put false tx.des.txRdPtr tx.stream.ndtr tx.stream.m0ar tx.stream.source,
      some .revert) := rfl

theorem put_revert : startTxNext ring (tx.put false rdPtr ndtr m0ar source, some .revert) =
    (tx.put false (revertedRdPtr rdPtr ndtr) ndtr m0ar source, some .count) := rfl

theorem put_count : startTxNext ring (tx.put false rdPtr ndtr m0ar source, some .count) =
    (tx.put false rdPtr ndtr m0ar source, some (.advance (txCount ring rdPtr tx.des.txWrPtr))) :=
  rfl

theorem put_advance :
    startTxNext ring (tx.put false rdPtr ndtr m0ar source, some (.advance count)) =
      (tx.put false (advancedRdPtr rdPtr count) ndtr m0ar source, some (.wrap count)) := rfl

theorem put_wrap : startTxNext ring (tx.put false rdPtr ndtr m0ar source, some (.wrap count)) =
    (tx.put false (wrappedRdPtr ring rdPtr) ndtr m0ar source, some (.setNdtr count)) := rfl

theorem put_setNdtr :
    startTxNext ring (tx.put false rdPtr ndtr m0ar source, some (.setNdtr count)) =
      (tx.put false rdPtr (count % 2 ^ 16) m0ar source, some .setM0ar) := rfl

theorem put_setM0ar : startTxNext ring (tx.put false rdPtr ndtr m0ar source, some .setM0ar) =
    (tx.put false rdPtr ndtr rdPtr source, some .enable) := rfl

theorem put_enable : startTxNext ring (tx.put false rdPtr ndtr m0ar source, some .enable) =
    (tx.put true rdPtr ndtr m0ar m0ar, none) := rfl

end Put

theorem startTx_of_ne {ring : TtyRing} {tx : Transmitter} (h : tx.des.txRdPtr ≠ tx.des.txWrPtr) :
    startTx ring tx =
      let rdPtr := revertedRdPtr tx.des.txRdPtr tx.stream.ndtr
      let count := txCount ring rdPtr tx.des.txWrPtr
      setDmaParameters (wrappedRdPtr ring (advancedRdPtr rdPtr count)) count tx := by
  have htest : startTxNext ring (tx, some .test) = (tx, some .stop) := by
    simp [startTxNext, startTxStep, h]
  simp only [startTx, Function.iterate_succ_apply, Function.iterate_zero_apply]
  rw [htest, put_stop, put_revert, put_count, put_advance, put_wrap, put_setNdtr, put_setM0ar,
    put_enable]
  rfl

theorem startTx_returns (ring : TtyRing) (tx : Transmitter) :
    ((startTxNext ring)^[9] (tx, some .test)).2 = none := by
  by_cases h : tx.des.txRdPtr = tx.des.txWrPtr
  · simp [startTxNext, startTxStep, h]
  · simp [startTxNext, startTxStep, h]

theorem runStatement_toTransmitter (ring : TtyRing) (statement : StartTx) (state : State) :
    (runStatement ring statement state).toTransmitter =
      (startTxStep ring state.toTransmitter statement).1 := by
  unfold runStatement
  split <;> rfl

theorem foldl_statement (ring : TtyRing) (n : ℕ) (statement : Option StartTx) (state : State)
    (hcallback : state.callback = none) (hcall : state.call = statement.map .starting) :
    (List.replicate n Event.statement).foldl (step ring) state =
      { state with
        toTransmitter := ((startTxNext ring)^[n] (state.toTransmitter, statement)).1
        call := ((startTxNext ring)^[n] (state.toTransmitter, statement)).2.map .starting } := by
  induction n generalizing statement state with
  | zero => simp [← hcall]
  | succ n ih =>
    rw [List.replicate_succ, List.foldl_cons, Function.iterate_succ_apply]
    cases statement with
    | none =>
      have hstep : step ring state .statement = state := by
        simp [step, State.running, hcallback, hcall]
      rw [hstep]
      exact ih none state hcallback hcall
    | some statement =>
      have hrunning : state.running = some statement := by
        simp [State.running, hcallback, hcall, WriteCall.statement?]
      have hstep : step ring state .statement =
          { state with
            toTransmitter := (startTxStep ring state.toTransmitter statement).1
            call := (startTxStep ring state.toTransmitter statement).2.map .starting } := by
        simp [step, hrunning, runStatement, hcallback]
      rw [hstep]
      exact ih (startTxStep ring state.toTransmitter statement).2 _ hcallback rfl

/-- The statements of the `start_tx` of `write` are `start_tx`. -/
theorem foldl_startTx (ring : TtyRing) (state : State) (hcallback : state.callback = none)
    (hcall : state.call = some (.starting .test)) :
    (List.replicate 9 Event.statement).foldl (step ring) state =
      { state with toTransmitter := startTx ring state.toTransmitter, call := none } := by
  rw [foldl_statement ring 9 (some .test) state hcallback hcall, startTx_returns]
  rfl

theorem foldl_copyByte (ring : TtyRing) (dmaIrq : ℤ) (buf : List UInt8) (state : State)
    (hcallback : state.callback = none) (hcall : state.call = some (.copying dmaIrq buf)) :
    (List.replicate buf.length Event.copyByte).foldl (step ring) state =
      { state with
        toTransmitter := buf.foldl (fun tx byte ↦ copyByte ring byte tx) state.toTransmitter
        call := some (.copying dmaIrq []) } := by
  induction buf generalizing state with
  | nil => simp [← hcall]
  | cons byte rest ih =>
    have hstep : step ring state .copyByte =
        { state with
          toTransmitter := copyByte ring byte state.toTransmitter
          call := some (.copying dmaIrq rest) } := by
      simp [step, hcallback, hcall]
    rw [List.length_cons, List.replicate_succ, List.foldl_cons, hstep]
    exact ih _ hcallback rfl

/-- The steps of a `write` call up to `start_tx`. -/
def copyEvents (buf : List UInt8) : List Event :=
  .beginWrite buf :: (List.replicate buf.length .copyByte ++ [.enableIrq])

/-- The steps of a `write` call with nothing in between. -/
def writeEvents (buf : List UInt8) : List Event :=
  copyEvents buf ++ List.replicate 9 .statement

section Write

variable (ring : TtyRing) (buf : List UInt8) (state : State) {dmaIrq : ℤ} {cache : Bool → ℤ}

theorem foldl_copyEvents
    (hfound : getDmaIrq state.des true false state.cacheDmaIrq = (some dmaIrq, cache))
    (hcallback : state.callback = none) (hcall : state.call = none) :
    (copyEvents buf).foldl (step ring) state =
      { state with
        toTransmitter := buf.foldl (fun tx byte ↦ copyByte ring byte tx) state.toTransmitter
        cacheDmaIrq := cache
        nvic := Function.update state.nvic dmaIrq true
        call := some (.starting .test)
        written := state.written ++ buf } := by
  have hbegin : step ring state (.beginWrite buf) =
      { state with
        cacheDmaIrq := cache
        nvic := Function.update state.nvic dmaIrq false
        call := some (.copying dmaIrq buf)
        written := state.written ++ buf } := by
    simp [step, hcallback, hcall, beginWrite, hfound]
  have hcopied := foldl_copyByte ring dmaIrq buf (step ring state (.beginWrite buf))
    (by rw [hbegin]; exact hcallback) (by rw [hbegin])
  rw [copyEvents, List.foldl_cons, List.foldl_append, hcopied, hbegin]
  simp [step, hcallback]

/-- A `write` call is its single steps without anything in between. -/
theorem write_eq_steps
    (hfound : getDmaIrq state.des true false state.cacheDmaIrq = (some dmaIrq, cache))
    (hcallback : state.callback = none) (hcall : state.call = none) :
    (write ring buf state).1 = (writeEvents buf).foldl (step ring) state := by
  have hcopied := foldl_copyEvents ring buf state hfound hcallback hcall
  have hstarted := foldl_startTx ring ((copyEvents buf).foldl (step ring) state)
    (by rw [hcopied]; exact hcallback) (by rw [hcopied])
  rw [writeEvents, List.foldl_append, hstarted, hcopied]
  simp [write, hfound, hcall]

end Write

theorem getDmaIrq_of_clear (des : BspTtyDes) (txRx : Bool) (cacheDmaIrq : Bool → ℤ) :
    getDmaIrq des txRx true cacheDmaIrq =
      match (dmaTb.flatten.zip dmaIrqTb.flatten).lookup
        (if txRx then des.dmaTx else des.dmaRx) with
      | none => (none, Function.update cacheDmaIrq txRx NonMaskableInt_IRQn)
      | some dmaIrq => (some dmaIrq, Function.update cacheDmaIrq txRx dmaIrq) := rfl

/-- A filled cache answers by itself. -/
theorem getDmaIrq_of_cached (des : BspTtyDes) (txRx : Bool) (cacheDmaIrq : Bool → ℤ)
    (h : cacheDmaIrq txRx ≠ NonMaskableInt_IRQn) :
    getDmaIrq des txRx false cacheDmaIrq = (some (cacheDmaIrq txRx), cacheDmaIrq) := by
  simp [getDmaIrq, h]

end Vodka.Bsp.Tty

import Mathlib.Tactic
import Vodka.Bsp.TtyTransfer
import Vodka.Foundation.RingBuffer

/-!
# Stranded output

`init_dma` enables the transfer-complete interrupt once, `HAL_DMA_IRQHandler`
disables it when it handles the first one, and `start_tx` never enables it
again. A transfer that has to stop at the end of the ring while bytes wait at
its start relies on that interrupt. Output is stranded exactly when the last
`start_tx` in progress enables the stream for such a transfer with the interrupt
disabled.
-/

namespace Vodka.Bsp.TtyProgress

open Foundation.Trace Foundation.RingBuffer Tty

/-- The stream has run for a while without anything else. -/
def sent (n : ℕ) (state : State) : State :=
  { state with toTransmitter := dmaByte^[n] state.toTransmitter }

/-- The only `start_tx` in progress is about to enable the stream. -/
def Enables (state : State) : Prop :=
  (state.callback = some .enable ∧ state.call = none) ∨
    (state.callback = none ∧ state.call = some (.starting .enable))

/-- A transfer that starts with the interrupt disabled hands everything over. -/
def Rearmed (state : State) : Event → Prop
  | .statement => Enables state → state.stream.tcie = false → state.stream.ndtr ≠ 0 →
      state.des.txRdPtr = state.des.txWrPtr
  | _ => True

/-- The stream is in normal mode, and outside of calls everything is handed over, or a completion
that runs `start_tx` is still to come, or the stream stays enabled. -/
structure Progress (state : State) : Prop where
  normal : state.hdmaState ≠ .abort ∧ state.stream.dbm = false ∧ state.stream.circ = false
  armed : state.call = none → state.callback = none →
    state.des.txRdPtr = state.des.txWrPtr ∨
      state.stream.tcie = true ∧ (state.stream.en = true ∨ state.stream.tcif = true) ∨
      state.stream.en = true ∧ state.stream.ndtr = 0

section Step

variable {ring : TtyRing} {state : State} {event : Event}

theorem Progress.start (ring : TtyRing) (memory : ℕ → UInt8) : Progress (start ring memory) where
  normal := ⟨nofun, rfl, rfl⟩
  armed := fun _ _ ↦ .inl rfl

/-- While a call is in progress, only the mode of the stream counts. -/
theorem Progress.of_call
    (hnormal : state.hdmaState ≠ .abort ∧ state.stream.dbm = false ∧ state.stream.circ = false)
    (hcall : state.call ≠ none ∨ state.callback ≠ none) : Progress state where
  normal := hnormal
  armed hnone hcallback := (hcall.elim (· hnone) (· hcallback)).elim

theorem startTxStep_mode (ring : TtyRing) (tx : Transmitter) (statement : StartTx) :
    (startTxStep ring tx statement).1.stream.dbm = tx.stream.dbm ∧
      (startTxStep ring tx statement).1.stream.circ = tx.stream.circ ∧
      (startTxStep ring tx statement).1.stream.tcie = tx.stream.tcie := by
  cases statement <;> exact ⟨rfl, rfl, rfl⟩

/-- A `start_tx` returns from its test or behind its last statement. -/
theorem startTxStep_returns {tx : Transmitter} {statement : StartTx}
    (h : (startTxStep ring tx statement).2 = none) :
    (statement = .test ∧ tx.des.txRdPtr = tx.des.txWrPtr) ∨ statement = .enable := by
  cases statement with
  | test => simpa [startTxStep] using h
  | enable => exact .inr rfl
  | _ => simp [startTxStep] at h

theorem runStatement_hdmaState (ring : TtyRing) (statement : StartTx) (state : State) :
    (runStatement ring statement state).hdmaState = state.hdmaState := by
  unfold runStatement
  split <;> rfl

/-- When nothing is in progress any more, the only `start_tx` in progress has returned. -/
theorem returns_of_runStatement {statement : StartTx} (hrunning : state.running = some statement)
    (hcall : (runStatement ring statement state).call = none)
    (hcallback : (runStatement ring statement state).callback = none) :
    (startTxStep ring state.toTransmitter statement).2 = none ∧
      (state.callback = some statement ∧ state.call = none ∨
        state.callback = none ∧ state.call = some (.starting statement)) := by
  cases hcurrent : state.callback with
  | some current =>
    obtain rfl : current = statement := by simpa [State.running, hcurrent] using hrunning
    simp only [runStatement, hcurrent] at hcall hcallback
    exact ⟨hcallback, .inl ⟨rfl, hcall⟩⟩
  | none =>
    simp only [runStatement, hcurrent, Option.map_eq_none_iff] at hcall
    refine ⟨hcall, .inr ⟨rfl, ?_⟩⟩
    rcases hwrite : state.call with _ | ⟨dmaIrq, pending⟩ | current
    · simp [State.running, hcurrent, hwrite] at hrunning
    · simp [State.running, hcurrent, hwrite, WriteCall.statement?] at hrunning
    · simpa [State.running, hcurrent, hwrite, WriteCall.statement?] using hrunning

theorem Progress.runStatement (h : Progress state) {statement : StartTx}
    (hrunning : state.running = some statement) (hrearmed : Rearmed state .statement) :
    Progress (runStatement ring statement state) := by
  have hhdma := runStatement_hdmaState ring statement state
  have hmoved := runStatement_toTransmitter ring statement state
  obtain ⟨hdbm, hcirc, -⟩ := startTxStep_mode ring state.toTransmitter statement
  refine ⟨by rw [hhdma, hmoved, hdbm, hcirc]; exact h.normal, fun hcall hcallback ↦ ?_⟩
  obtain ⟨hreturns, hlast⟩ := returns_of_runStatement hrunning hcall hcallback
  rw [hmoved]
  rcases startTxStep_returns hreturns with ⟨rfl, hequal⟩ | rfl
  · exact .inl hequal
  · cases htcie : state.stream.tcie with
    | true => exact .inr (.inl ⟨htcie, .inl rfl⟩)
    | false =>
      by_cases hndtr : state.stream.ndtr = 0
      · exact .inr (.inr ⟨rfl, hndtr⟩)
      · exact .inl (hrearmed hlast htcie hndtr)

theorem Progress.dmaByte (h : Progress state) :
    Progress { state with toTransmitter := dmaByte state.toTransmitter } := by
  unfold Tty.dmaByte
  split_ifs with hactive
  · refine ⟨h.normal, fun hcall hcallback ↦ ?_⟩
    rcases h.armed hcall hcallback with hequal | ⟨htcie, -⟩ | ⟨-, hndtr⟩
    · exact .inl hequal
    · refine .inr (.inl ⟨htcie, ?_⟩)
      by_cases hlast : state.stream.ndtr = 1
      · exact .inr (by simp [hlast])
      · exact .inl (by simp [hlast])
    · exact absurd hndtr hactive.2
  · exact h

theorem halDmaIrqHandler_eq
    (hnormal : state.hdmaState ≠ .abort ∧ state.stream.dbm = false ∧ state.stream.circ = false)
    (htcif : state.stream.tcif = true) (htcie : state.stream.tcie = true) :
    halDmaIrqHandler state =
      { state with
        stream := { state.stream with tcif := false, tcie := false }
        hdmaState := .ready
        callback := some .test } := by
  simp [halDmaIrqHandler, htcif, htcie, hnormal]

theorem Progress.halDmaIrqHandler (h : Progress state) : Progress (halDmaIrqHandler state) := by
  by_cases hpending : state.stream.tcif = true ∧ state.stream.tcie = true
  · rw [halDmaIrqHandler_eq h.normal hpending.1 hpending.2]
    exact .of_call ⟨by simp, h.normal.2⟩ (.inr (by simp))
  · have hidle : Tty.halDmaIrqHandler state = state := by
      unfold Tty.halDmaIrqHandler
      rw [if_pos]
      simpa [imp_iff_not_or] using hpending
    rw [hidle]
    exact h

theorem Progress.step (h : Progress state) (hrearmed : Rearmed state event) :
    Progress (step ring state event) := by
  cases event with
  | beginWrite buf =>
    simp only [Tty.step]
    split_ifs
    · unfold beginWrite
      split
      · exact ⟨h.normal, h.armed⟩
      · exact .of_call h.normal (.inl (by simp))
    · exact h
  | copyByte =>
    simp only [Tty.step]
    split
    · exact .of_call h.normal (.inl (by simp))
    · exact h
  | enableIrq =>
    simp only [Tty.step]
    split
    · exact .of_call h.normal (.inl (by simp))
    · exact h
  | statement =>
    simp only [Tty.step]
    split
    · rename_i statement hrunning
      exact h.runStatement hrunning hrearmed
    · exact h
  | dmaByte => exact h.dmaByte
  | interrupt =>
    simp only [Tty.step]
    split_ifs
    · exact h.halDmaIrqHandler
    · exact h
  | callback =>
    simp only [Tty.step]
    split_ifs
    · exact .of_call h.normal (.inr (by simp))
    · exact h

theorem Progress.sent (h : Progress state) (n : ℕ) : Progress (sent n state) := by
  induction n with
  | zero => exact h
  | succ n ih =>
    rw [TtyProgress.sent, Function.iterate_succ_apply']
    exact ih.dmaByte

end Step

/-! ## Strands -/

/-- Left alone, an enabled stream sends its last byte and stops. -/
theorem dmaByte_runs_out (n : ℕ) (tx : Transmitter) (hen : tx.stream.en = true)
    (hndtr : tx.stream.ndtr = n + 1) :
    ∃ source emitted, dmaByte^[n + 1] tx =
      { tx with
        emitted := emitted
        stream := { tx.stream with en := false, ndtr := 0, tcif := true, source := source } } := by
  induction n generalizing tx with
  | zero =>
    refine ⟨(tx.stream.source + 1) % 2 ^ 32, tx.emitted ++ [tx.memory tx.stream.source], ?_⟩
    simp [dmaByte, hen, hndtr]
  | succ n ih =>
    obtain ⟨source, emitted, hrest⟩ := ih (dmaByte tx) (by simp [dmaByte, hen, hndtr])
      (by simp [dmaByte, hen, hndtr])
    refine ⟨source, emitted, ?_⟩
    rw [Function.iterate_succ_apply, hrest]
    simp [dmaByte, hen, hndtr]

/-- The copy loop advances the write pointer by the slots of the ring and changes nothing else of
the descriptor or the stream. -/
theorem foldl_copyByte_eq (ring : TtyRing) (buf : List UInt8) (i : ℕ) (tx : Transmitter)
    (hwr : tx.des.txWrPtr = slot ring.stty TTY_SIZE i) :
    ∃ memory accepted, buf.foldl (fun tx byte ↦ copyByte ring byte tx) tx =
      { tx with
        des := { tx.des with txWrPtr := slot ring.stty TTY_SIZE (i + buf.length) }
        memory := memory
        accepted := accepted } := by
  induction buf generalizing i tx with
  | nil => exact ⟨tx.memory, tx.accepted, by simp [← hwr]⟩
  | cons byte rest ih =>
    obtain ⟨memory, accepted, hrest⟩ := ih (i + 1) (copyByte ring byte tx)
      (copyByte_wrPtr byte hwr)
    refine ⟨memory, accepted, ?_⟩
    rw [List.foldl_cons, hrest, List.length_cons, Nat.add_right_comm, Nat.add_assoc]
    rfl

/-- Nothing is in progress on a stream in normal mode, the interrupt is known, and the write
pointer has passed `accepted` slots. -/
structure Idle (ring : TtyRing) (accepted : ℕ) (state : State) : Prop where
  call : state.call = none
  callback : state.callback = none
  normal : state.hdmaState ≠ .abort ∧ state.stream.dbm = false ∧ state.stream.circ = false
  cached : state.cacheDmaIrq true = DMA1_Stream0_IRQn
  wrPtr : state.des.txWrPtr = slot ring.stty TTY_SIZE accepted

theorem Idle.start (ring : TtyRing) (memory : ℕ → UInt8) : Idle ring 0 (start ring memory) where
  call := rfl
  callback := rfl
  normal := ⟨nofun, rfl, rfl⟩
  cached := by
    have htx : (dmaTb.flatten.zip dmaIrqTb.flatten).lookup DMA1_Stream0 =
        some DMA1_Stream0_IRQn := by decide
    have hrx : (dmaTb.flatten.zip dmaIrqTb.flatten).lookup DMA1_Stream1 = some 12 := by decide
    have hdes : (setDefaultDes ring none).dmaTx = DMA1_Stream0 ∧
        (setDefaultDes ring none).dmaRx = DMA1_Stream1 := by simp [setDefaultDes, setValIfNull]
    simp [Tty.start, getDmaIrq_of_clear, hdes, htx, hrx]
  wrPtr := by simp [Tty.start, setDefaultDes, setValIfNull, slot]

section Write

variable {ring : TtyRing} {state : State} {n : ℕ}

/-- A `write` call up to its `start_tx`. -/
theorem Idle.copied (h : Idle ring n state) (buf : List UInt8) :
    ∃ memory accepted, (copyEvents buf).foldl (step ring) state =
      { state with
        des := { state.des with txWrPtr := slot ring.stty TTY_SIZE (n + buf.length) }
        memory := memory
        accepted := accepted
        nvic := Function.update state.nvic DMA1_Stream0_IRQn true
        call := some (.starting .test)
        written := state.written ++ buf } := by
  have hfound : getDmaIrq state.des true false state.cacheDmaIrq =
      (some DMA1_Stream0_IRQn, state.cacheDmaIrq) := by
    rw [getDmaIrq_of_cached _ _ _ (by rw [h.cached]; decide), h.cached]
  obtain ⟨memory, accepted, hcopied⟩ :=
    foldl_copyByte_eq ring buf n state.toTransmitter h.wrPtr
  refine ⟨memory, accepted, ?_⟩
  rw [foldl_copyEvents ring buf state hfound h.callback h.call, hcopied]

/-- A `write` call with nothing in between that has something to start. -/
theorem Idle.write (h : Idle ring n state) (buf : List UInt8) (rdPtr count : ℕ)
    (hwaiting : state.des.txRdPtr ≠ slot ring.stty TTY_SIZE (n + buf.length))
    (hcount : txCount ring (revertedRdPtr state.des.txRdPtr state.stream.ndtr)
      (slot ring.stty TTY_SIZE (n + buf.length)) = count)
    (hrd : wrappedRdPtr ring (advancedRdPtr
      (revertedRdPtr state.des.txRdPtr state.stream.ndtr) count) = rdPtr) :
    ∃ after, (writeEvents buf).foldl (step ring) state = after ∧ Idle ring (n + buf.length) after ∧
      after.des.txRdPtr = rdPtr ∧ after.nvic DMA1_Stream0_IRQn = true ∧
      after.stream =
        { state.stream with
          en := true, ndtr := count % 2 ^ 16, m0ar := rdPtr, source := rdPtr } := by
  obtain ⟨memory, accepted, hcopied⟩ := h.copied buf
  have hstarted := foldl_startTx ring ((copyEvents buf).foldl (step ring) state)
    (by rw [hcopied]; exact h.callback) (by rw [hcopied])
  rw [hcopied, startTx_of_ne hwaiting] at hstarted
  dsimp only at hstarted
  rw [hcount, hrd] at hstarted
  refine ⟨_, rfl, ?_⟩
  rw [writeEvents, List.foldl_append, hcopied, hstarted]
  exact ⟨⟨rfl, h.callback, h.normal, h.cached, rfl⟩, rfl, by simp, rfl⟩

theorem foldl_dmaByte (ring : TtyRing) (k : ℕ) (state : State) :
    (List.replicate k Event.dmaByte).foldl (step ring) state = sent k state := by
  induction k generalizing state with
  | zero => rfl
  | succ k ih =>
    rw [List.replicate_succ, List.foldl_cons, ih]
    rfl

/-- The bytes of a transfer and the interrupt of its completion. -/
def completion (count : ℕ) : List Event :=
  List.replicate count .dmaByte ++ [.interrupt, .statement]

/-- The handler of a completion that leaves nothing waiting only disables the interrupt. -/
theorem foldl_interrupt (hcallback : state.callback = none)
    (hline : state.nvic DMA1_Stream0_IRQn = true)
    (hnormal : state.hdmaState ≠ .abort ∧ state.stream.dbm = false ∧ state.stream.circ = false)
    (htcif : state.stream.tcif = true) (htcie : state.stream.tcie = true)
    (hequal : state.des.txRdPtr = state.des.txWrPtr) :
    [Event.interrupt, .statement].foldl (step ring) state =
      { state with
        stream := { state.stream with tcif := false, tcie := false }
        hdmaState := .ready } := by
  have hinterrupt : step ring state .interrupt = halDmaIrqHandler state := by
    simp [step, hcallback, hline]
  rw [List.foldl_cons, hinterrupt, halDmaIrqHandler_eq hnormal htcif htcie]
  simp [step, State.running, runStatement, startTxStep, hequal, hcallback]

/-- A transfer that hands over everything is sent, and its completion disables the interrupt. -/
theorem Idle.completed (h : Idle ring n state) {k : ℕ} (hen : state.stream.en = true)
    (hndtr : state.stream.ndtr = k + 1) (htcie : state.stream.tcie = true)
    (hline : state.nvic DMA1_Stream0_IRQn = true)
    (hequal : state.des.txRdPtr = state.des.txWrPtr) :
    ∃ after, (completion (k + 1)).foldl (step ring) state = after ∧ Idle ring n after ∧
      after.des = state.des ∧ after.stream.tcie = false ∧ after.stream.ndtr = 0 := by
  obtain ⟨source, emitted, hend⟩ := dmaByte_runs_out k state.toTransmitter hen hndtr
  have hsent : ∃ last : State, (List.replicate (k + 1) Event.dmaByte).foldl (step ring) state =
      last ∧ last = { state with
        emitted := emitted
        stream := { state.stream with en := false, ndtr := 0, tcif := true, source } } :=
    ⟨_, rfl, by rw [foldl_dmaByte, sent, hend]⟩
  obtain ⟨last, hlast, heq⟩ := hsent
  have hhandled : [Event.interrupt, .statement].foldl (step ring) last =
      { last with
        stream := { last.stream with tcif := false, tcie := false }
        hdmaState := .ready } := by
    apply foldl_interrupt <;> rw [heq]
    · exact h.callback
    · exact hline
    · exact h.normal
    · exact htcie
    · exact hequal
  refine ⟨_, rfl, ?_⟩
  rw [completion, List.foldl_append, hlast, hhandled, heq]
  exact ⟨⟨h.call, h.callback, ⟨nofun, h.normal.2⟩, h.cached, h.wrPtr⟩, rfl, rfl, rfl⟩

end Write

/-- A write of 4000 bytes that is completed. -/
def completedWrite : List Event := writeEvents (List.replicate 4000 0) ++ completion 4000

theorem completedWrite_state :
    ∃ state, completedWrite.foldl (step exampleRing) (start exampleRing fun _ ↦ 0) = state ∧
      Idle exampleRing 4000 state ∧ state.des.txRdPtr = slot exampleRing.stty TTY_SIZE 4000 ∧
      state.stream.tcie = false ∧ state.stream.ndtr = 0 := by
  obtain ⟨state, hstate, hidle, hrd, hline, hstream⟩ :=
    (Idle.start exampleRing fun _ ↦ 0).write (List.replicate 4000 0)
      (slot exampleRing.stty TTY_SIZE 4000) 4000 (by rw [List.length_replicate]; decide)
      (by rw [List.length_replicate]; decide) (by decide)
  rw [List.length_replicate, Nat.zero_add] at hidle
  obtain ⟨after, hafter, hidle', hdes, htcie, hndtr⟩ := hidle.completed
    (by rw [hstream]) (by rw [hstream]; rfl) (by rw [hstream]; rfl) hline
    (hrd.trans hidle.wrPtr.symm)
  rw [completedWrite, List.foldl_append, hstate, hafter]
  exact ⟨after, rfl, hidle', hdes ▸ hrd, htcie, hndtr⟩

/-- Behind it, a write of 200 bytes, whose first 96 bytes go up to the end of the ring. -/
def wrappingWrites : List Event := completedWrite ++ writeEvents (List.replicate 200 0)

theorem wrappingWrites_state :
    ∃ state, wrappingWrites.foldl (step exampleRing) (start exampleRing fun _ ↦ 0) = state ∧
      Idle exampleRing 4200 state ∧ state.des.txRdPtr = exampleRing.stty ∧
      state.stream.en = true ∧ state.stream.tcie = false ∧ state.stream.ndtr = 96 := by
  obtain ⟨state, hstate, hidle, hrd, htcie, hndtr⟩ := completedWrite_state
  obtain ⟨after, hafter, hidle', hrd', -, hstream⟩ :=
    hidle.write (List.replicate 200 0) exampleRing.stty 96
      (by rw [hrd, List.length_replicate]; decide)
      (by rw [hrd, hndtr, List.length_replicate]; decide) (by rw [hrd, hndtr]; decide)
  rw [List.length_replicate] at hidle'
  rw [wrappingWrites, List.foldl_append, hstate, hafter]
  exact ⟨after, rfl, hidle', hrd', by rw [hstream], by rw [hstream]; exact htcie,
    by rw [hstream]; rfl⟩

end Vodka.Bsp.TtyProgress

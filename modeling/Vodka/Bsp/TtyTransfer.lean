import Mathlib.Tactic
import Vodka.Bsp.Tty
import Vodka.Foundation.RingBuffer

/-!
# Transfers under way

A `start_tx` stops the stream, sets up a transfer and enables the stream. The
`start_tx` of `write` runs with the interrupt unmasked, so that of the callback
can come in between. As long as the callback finds nothing to do there, one
transfer is set up at a time, and a step either leaves the transmitter, sends or
copies one byte, or is the next statement of that transfer.
-/

namespace Vodka.Bsp.Tty

open Foundation.RingBuffer

/-- A statement behind `CLEAR_BIT`, where the stream is stopped. -/
def StartTx.body : StartTx → Option StartTx
  | .test => none
  | .stop => none
  | statement => some statement

/-- The `start_tx` of `write` has stopped the stream. -/
def State.writeTransfer (state : State) : Option StartTx :=
  (state.call.bind WriteCall.statement?).bind StartTx.body

/-- A `start_tx` has stopped the stream. -/
def State.transfer (state : State) : Option StartTx :=
  (state.callback.bind StartTx.body).or state.writeTransfer

/-- The callback does not set up a transfer inside that of `write`, and no `start_tx` stops the
stream when the one that came after its test has left nothing to send. -/
def Undisturbed (state : State) : Event → Prop
  | .statement =>
    (state.callback = some .test → state.des.txRdPtr ≠ state.des.txWrPtr →
      state.writeTransfer = none) ∧
    (state.running = some .stop →
      ¬ (state.des.txRdPtr = state.des.txWrPtr ∧ state.stream.ndtr = 0))
  | _ => True

instance (state : State) : ∀ event, Decidable (Undisturbed state event)
  | .statement => inferInstanceAs (Decidable (_ ∧ _))
  | .beginWrite _ => isTrue trivial
  | .copyByte => isTrue trivial
  | .enableIrq => isTrue trivial
  | .dmaByte => isTrue trivial
  | .interrupt => isTrue trivial
  | .callback => isTrue trivial

/-- A byte is written and sent, a second one is written, and the interrupt of the first one comes
before the test of the second `start_tx`. -/
def interruptedEvents : List Event :=
  writeEvents [0x41] ++ .dmaByte :: copyEvents [0x42] ++
    .interrupt :: List.replicate 10 .statement ++ [.dmaByte]

theorem interruptedEvents_undisturbed :
    ∀ call ∈ ttyTrace exampleRing (fun _ ↦ 0) interruptedEvents,
      Undisturbed call.pre call.event := by
  decide

/-- The interrupt comes behind that test, and its `start_tx` leaves nothing to send. -/
def disturbedEvents : List Event :=
  writeEvents [0] ++ .dmaByte :: copyEvents [0] ++ .statement :: .interrupt ::
    List.replicate 9 .statement ++ .dmaByte :: List.replicate 8 .statement ++ [.dmaByte]

/-- At most one `start_tx` is past its test and about to stop the stream, or has stopped it. -/
def Sole (state : State) : Prop :=
  ∀ statement, state.callback = some statement → statement ≠ .test → state.writeTransfer = none

/-- The transmitters agree but for the flag and the enable bit of the interrupt. -/
def SameCounts (tx other : Transmitter) : Prop :=
  ∃ tcif tcie, other = { tx with stream := { tx.stream with tcif, tcie } }

theorem SameCounts.refl (tx : Transmitter) : SameCounts tx tx :=
  ⟨tx.stream.tcif, tx.stream.tcie, rfl⟩

/-- What a step does to the transmitter. -/
inductive Effect (ring : TtyRing) (state next : State) : Event → Prop
  | other {event : Event} (same : SameCounts state.toTransmitter next.toTransmitter)
    (transfer : next.transfer = state.transfer) : Effect ring state next event
  | dmaByte (sent : next.toTransmitter = dmaByte state.toTransmitter)
    (transfer : next.transfer = state.transfer) : Effect ring state next .dmaByte
  | copyByte (byte : UInt8) (copied : next.toTransmitter = copyByte ring byte state.toTransmitter)
    (before : state.transfer = none) (after : next.transfer = none) :
    Effect ring state next .copyByte
  | statement (statement : StartTx) (ne_test : statement ≠ .test)
    (running : state.running = some statement) (before : state.transfer = statement.body)
    (moved : next.toTransmitter = (startTxStep ring state.toTransmitter statement).1)
    (after : next.transfer =
      (startTxStep ring state.toTransmitter statement).2.bind StartTx.body) :
    Effect ring state next .statement

theorem halDmaIrqHandler_cases (state : State) :
    SameCounts state.toTransmitter (halDmaIrqHandler state).toTransmitter ∧
      (halDmaIrqHandler state).call = state.call ∧
      ((halDmaIrqHandler state).callback = state.callback ∨
        (halDmaIrqHandler state).callback = some .test) := by
  unfold halDmaIrqHandler
  dsimp only
  split_ifs <;> exact ⟨⟨_, _, rfl⟩, rfl, by simp⟩

section Effect

variable {ring : TtyRing} {state : State} {event : Event}

/-- A callback that begins is before its test. -/
theorem transfer_of_test {next : State} (hcall : next.call = state.call)
    (hcallback : next.callback = state.callback ∨
      state.callback = none ∧ next.callback = some .test) : next.transfer = state.transfer := by
  rw [State.transfer, State.transfer, State.writeTransfer, State.writeTransfer, hcall]
  rcases hcallback with hsame | ⟨hnone, hnext⟩
  · rw [hsame]
  · rw [hnone, hnext]
    rfl

@[simp]
theorem map_starting_bind (statement : Option StartTx) :
    (statement.map WriteCall.starting).bind WriteCall.statement? = statement := by
  cases statement <;> rfl

/-- The statement behind the test is not yet in the transfer. -/
theorem test_bind_body (ring : TtyRing) (tx : Transmitter) :
    (startTxStep ring tx .test).2.bind StartTx.body = none := by
  simp only [startTxStep]
  split_ifs <;> rfl

theorem Sole.transfer_eq (hsole : Sole state) {statement : StartTx}
    (hrunning : state.running = some statement) (htest : statement ≠ .test) :
    state.transfer = statement.body := by
  cases hcallback : state.callback with
  | some current =>
    obtain rfl : current = statement := by simpa [State.running, hcallback] using hrunning
    simp [State.transfer, hcallback, hsole current hcallback htest]
  | none =>
    have hwrite : state.call.bind WriteCall.statement? = some statement := by
      simpa [State.running, hcallback] using hrunning
    simp [State.transfer, State.writeTransfer, hcallback, hwrite]

theorem Sole.transfer_runStatement (hsole : Sole state) {statement : StartTx}
    (hrunning : state.running = some statement) (htest : statement ≠ .test) :
    (runStatement ring statement state).transfer =
      (startTxStep ring state.toTransmitter statement).2.bind StartTx.body := by
  cases hcallback : state.callback with
  | some current =>
    obtain rfl : current = statement := by simpa [State.running, hcallback] using hrunning
    have hwrite : (runStatement ring current state).writeTransfer = none := by
      rw [← hsole current hcallback htest]
      simp [runStatement, hcallback, State.writeTransfer]
    rw [State.transfer, hwrite]
    simp [runStatement, hcallback]
  | none => simp [runStatement, hcallback, State.transfer, State.writeTransfer]

/-- A test is in no transfer, and neither is what comes behind it. -/
theorem transfer_runStatement_test (hrunning : state.running = some .test) :
    (runStatement ring .test state).transfer = state.transfer := by
  have hnext := test_bind_body ring state.toTransmitter
  cases hcallback : state.callback with
  | some current =>
    obtain rfl : current = .test := by simpa [State.running, hcallback] using hrunning
    simp [runStatement, hcallback, State.transfer, State.writeTransfer, hnext, StartTx.body]
  | none =>
    have hwrite : state.call.bind WriteCall.statement? = some .test := by
      simpa [State.running, hcallback] using hrunning
    simp [runStatement, hcallback, State.transfer, State.writeTransfer, hnext, hwrite,
      StartTx.body]

theorem effect_statement (hsole : Sole state) {statement : StartTx}
    (hrunning : state.running = some statement) :
    Effect ring state (runStatement ring statement state) .statement := by
  have hmoved := runStatement_toTransmitter ring statement state
  by_cases htest : statement = .test
  · subst htest
    exact .other (hmoved ▸ .refl _) (transfer_runStatement_test hrunning)
  · exact .statement statement htest hrunning (hsole.transfer_eq hrunning htest) hmoved
      (hsole.transfer_runStatement hrunning htest)

theorem step_effect (hsole : Sole state) : Effect ring state (step ring state event) event := by
  cases event with
  | beginWrite buf =>
    simp only [step]
    split_ifs with hidle
    · unfold beginWrite
      split
      · exact .other (.refl _) rfl
      · refine .other (.refl _) ?_
        simp [State.transfer, State.writeTransfer, hidle, WriteCall.statement?]
    · exact .other (.refl _) rfl
  | copyByte =>
    simp only [step]
    split
    · rename_i hcallback hcall
      refine .copyByte _ rfl ?_ ?_
      · simp [State.transfer, State.writeTransfer, hcallback, hcall, WriteCall.statement?]
      · simp [State.transfer, State.writeTransfer, hcallback, WriteCall.statement?]
    · exact .other (.refl _) rfl
  | enableIrq =>
    simp only [step]
    split
    · rename_i hcallback hcall
      refine .other (.refl _) ?_
      simp [State.transfer, State.writeTransfer, hcallback, hcall, WriteCall.statement?,
        StartTx.body]
    · exact .other (.refl _) rfl
  | statement =>
    simp only [step]
    split
    · rename_i hrunning
      exact effect_statement hsole hrunning
    · exact .other (.refl _) rfl
  | dmaByte => exact .dmaByte rfl rfl
  | interrupt =>
    simp only [step]
    split_ifs with hline
    · obtain ⟨hsame, hcall, hcallback⟩ := halDmaIrqHandler_cases state
      exact .other hsame (transfer_of_test hcall (hcallback.imp_right fun h ↦ ⟨hline.1, h⟩))
    · exact .other (.refl _) rfl
  | callback =>
    simp only [step]
    split_ifs with hline
    · exact .other (.refl _) (transfer_of_test rfl (.inr ⟨hline.1, rfl⟩))
    · exact .other (.refl _) rfl

theorem Sole.start (ring : TtyRing) (memory : ℕ → UInt8) : Sole (start ring memory) :=
  fun _ hcallback ↦ nomatch hcallback

/-- Steps that leave `write` where it is and at most begin a callback. -/
theorem Sole.of_call {next : State} (hsole : Sole state) (hcall : next.call = state.call)
    (hcallback : next.callback = state.callback ∨ next.callback = some .test) : Sole next := by
  intro statement hnext htest
  rw [State.writeTransfer, hcall]
  rcases hcallback with hsame | hbegins
  · exact hsole statement (hsame ▸ hnext) htest
  · exact absurd (Option.some.inj (hnext.symm.trans hbegins)) htest

theorem Sole.of_none (hcallback : state.callback = none) : Sole state := by
  intro statement hnext
  simp [hcallback] at hnext

theorem Sole.step (hsole : Sole state) (hundisturbed : Undisturbed state event) :
    Sole (step ring state event) := by
  cases event with
  | beginWrite buf =>
    simp only [Tty.step]
    split_ifs with hidle
    · unfold beginWrite
      split <;> exact .of_none hidle.1
    · exact hsole
  | copyByte =>
    simp only [Tty.step]
    split
    · rename_i hcallback hcall
      exact .of_none hcallback
    · exact hsole
  | enableIrq =>
    simp only [Tty.step]
    split
    · rename_i hcallback hcall
      exact .of_none hcallback
    · exact hsole
  | statement =>
    simp only [Tty.step]
    split
    · rename_i statement hrunning
      cases hcallback : state.callback with
      | none => exact .of_none (by simp [runStatement, hcallback])
      | some current =>
        obtain rfl : current = statement := by simpa [State.running, hcallback] using hrunning
        intro next hnext htest
        have hsame : (runStatement ring current state).writeTransfer = state.writeTransfer := by
          simp [runStatement, hcallback, State.writeTransfer]
        rw [hsame]
        by_cases hcurrent : current = .test
        · -- The callback has passed its test, so bytes are waiting.
          subst hcurrent
          apply hundisturbed.1 hcallback
          intro hequal
          simp [runStatement, hcallback, startTxStep, hequal] at hnext
        · exact hsole current hcallback hcurrent
    · exact hsole
  | dmaByte => exact hsole
  | interrupt =>
    simp only [Tty.step]
    split_ifs
    · obtain ⟨-, hcall, hcallback⟩ := halDmaIrqHandler_cases state
      exact hsole.of_call hcall hcallback
    · exact hsole
  | callback =>
    simp only [Tty.step]
    split_ifs
    · exact hsole.of_call rfl (.inr rfl)
    · exact hsole

end Effect

/-- Each byte copied moves the write pointer to the next slot. -/
theorem copyByte_wrPtr {ring : TtyRing} {tx : Transmitter} {i : ℕ} (byte : UInt8)
    (hwr : tx.des.txWrPtr = slot ring.stty TTY_SIZE i) :
    (copyByte ring byte tx).des.txWrPtr = slot ring.stty TTY_SIZE (i + 1) := by
  have hfits := ring.fits
  have hsize : 0 < TTY_SIZE := by decide
  have hinside := slot_lt ring.stty (i := i) hsize
  have hwrap : (tx.des.txWrPtr + 1) % 2 ^ 32 = tx.des.txWrPtr + 1 := by
    rw [hwr]
    unfold TTY_SIZE at *
    omega
  unfold copyByte
  dsimp only
  rw [hwrap, hwr, slot_succ ring.stty hsize]
  rfl

/-- Where something is left to send, not all accepted bytes have been sent. -/
theorem lt_of_left {ring : TtyRing} {tx : Transmitter}
    (hrd : tx.des.txRdPtr = slot ring.stty TTY_SIZE (tx.emitted.length + tx.stream.ndtr))
    (hwr : tx.des.txWrPtr = slot ring.stty TTY_SIZE tx.accepted.length)
    (hle : tx.emitted.length + tx.stream.ndtr ≤ tx.accepted.length)
    (hleft : ¬ (tx.des.txRdPtr = tx.des.txWrPtr ∧ tx.stream.ndtr = 0)) :
    tx.emitted.length < tx.accepted.length := by
  by_contra hnone
  have hndtr : tx.stream.ndtr = 0 := by omega
  have hequal : tx.emitted.length + tx.stream.ndtr = tx.accepted.length := by omega
  exact hleft ⟨by rw [hrd, hequal, hwr], hndtr⟩

end Vodka.Bsp.Tty

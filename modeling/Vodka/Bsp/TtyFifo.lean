import Mathlib.Tactic
import Vodka.Bsp.TtyTransfer
import Vodka.Foundation.RingBuffer

/-!
# Order of the transmitted bytes

The pointers of the ring count: the write pointer is the slot of the next byte
to accept, and `NDTR` bytes behind the read pointer is the slot of the next byte
to send, whatever a `start_tx` interrupts, reverts or splits, as long as it is
not disturbed by another one. The source address does not follow that count:
`start_tx` loads it from the read pointer after advancing it, so an enabled
stream is always ahead of the first byte not sent. The output of an undisturbed
run is a prefix of the input exactly when at each byte sent the two addresses
happen to hold the same byte.
-/

namespace Vodka.Bsp.TtyFifo

open Foundation.Trace Foundation.RingBuffer Tty

/-- The ring address `NDTR` bytes behind the read pointer. -/
def firstUnsent (ring : TtyRing) (tx : Transmitter) : ℕ :=
  ring.stty + (tx.des.txRdPtr - ring.stty + (TTY_SIZE - tx.stream.ndtr)) % TTY_SIZE

/-- What has been sent is a prefix of what has been passed to `write`. -/
def InOrder (call : Transition State Event) : Prop :=
  call.post.emitted <+: call.post.written

/-- Fewer bytes are accepted and not sent than the ring has. -/
def HasRoom (call : Transition State Event) : Prop :=
  call.post.accepted.length < call.post.emitted.length + TTY_SIZE

/-- A byte is sent from an address with the same content as the first byte not sent. -/
def SourceAgrees (ring : TtyRing) (state : State) : Event → Prop
  | .dmaByte => state.stream.en = true →
      state.memory state.stream.source = state.memory (firstUnsent ring state.toTransmitter)
  | _ => True

instance (ring : TtyRing) (state : State) : ∀ event, Decidable (SourceAgrees ring state event)
  | .dmaByte => inferInstanceAs (Decidable (_ → _))
  | .beginWrite _ => isTrue trivial
  | .copyByte => isTrue trivial
  | .enableIrq => isTrue trivial
  | .statement => isTrue trivial
  | .interrupt => isTrue trivial
  | .callback => isTrue trivial

/-- The bytes up to the read pointer are sent or handed to the stream. -/
structure Handed (ring : TtyRing) (tx : Transmitter) : Prop where
  rdPtr : tx.des.txRdPtr = slot ring.stty TTY_SIZE (tx.emitted.length + tx.stream.ndtr)
  handed : tx.emitted.length + tx.stream.ndtr ≤ tx.accepted.length

/-- A transfer of `count` bytes can be handed over next. -/
structure Fits (tx : Transmitter) (count : ℕ) : Prop where
  stopped : tx.stream.en = false
  pos : 0 < count
  le : tx.emitted.length + count ≤ tx.accepted.length

/-- The pointer is at the first byte not sent, or a ring below it when the queue passes the end
of the ring. -/
def Reverted (ring : TtyRing) (sent accepted rdPtr : ℕ) : Prop :=
  rdPtr = slot ring.stty TTY_SIZE sent ∨
    rdPtr + TTY_SIZE = slot ring.stty TTY_SIZE sent ∧
      TTY_SIZE ≤ sent % TTY_SIZE + (accepted - sent)

/-- What the read pointer and the registers count between transfers, and before each statement of
one. -/
def Stage (ring : TtyRing) (tx : Transmitter) : Option StartTx → Prop
  | none => Handed ring tx ∧ (tx.stream.en = true → 0 < tx.stream.ndtr ∧
      ∃ count, 0 < count ∧ count < TTY_SIZE ∧
        tx.stream.source + tx.stream.ndtr = tx.des.txRdPtr + count)
  | some .test => False
  | some .stop => False
  | some .revert => tx.stream.en = false ∧ tx.emitted.length < tx.accepted.length ∧ Handed ring tx
  | some .count => tx.stream.en = false ∧ tx.emitted.length < tx.accepted.length ∧
      Reverted ring tx.emitted.length tx.accepted.length tx.des.txRdPtr
  | some (.advance count) => Fits tx count ∧
      wrappedRdPtr ring (advancedRdPtr tx.des.txRdPtr count) =
        slot ring.stty TTY_SIZE (tx.emitted.length + count)
  | some (.wrap count) => Fits tx count ∧
      wrappedRdPtr ring tx.des.txRdPtr = slot ring.stty TTY_SIZE (tx.emitted.length + count)
  | some (.setNdtr count) => Fits tx count ∧
      tx.des.txRdPtr = slot ring.stty TTY_SIZE (tx.emitted.length + count)
  | some .setM0ar => Fits tx tx.stream.ndtr ∧ Handed ring tx
  | some .enable => Fits tx tx.stream.ndtr ∧ Handed ring tx ∧ tx.stream.m0ar = tx.des.txRdPtr

/-- The write pointer counts the accepted bytes, and the ring holds those not sent. -/
structure Queue (ring : TtyRing) (tx : Transmitter) : Prop where
  wrPtr : tx.des.txWrPtr = slot ring.stty TTY_SIZE tx.accepted.length
  room : tx.accepted.length < tx.emitted.length + TTY_SIZE
  holds : Holds ring.stty TTY_SIZE tx.memory tx.accepted tx.emitted.length

structure Fifo (ring : TtyRing) (state : State) : Prop where
  sole : Sole state
  queue : Queue ring state.toTransmitter
  stage : Stage ring state.toTransmitter state.transfer
  written : state.written = state.accepted ++ state.call.elim [] WriteCall.pending

section Slots

variable (ring : TtyRing) {sent handed accepted : ℕ}

/-- Reverting takes the pointer to the first byte not sent, or a ring below it. -/
theorem revertedRdPtr_slot (hle : sent + handed ≤ accepted) (hroom : accepted < sent + TTY_SIZE) :
    Reverted ring sent accepted
      (revertedRdPtr (slot ring.stty TTY_SIZE (sent + handed)) handed) := by
  have horigin := ring.origin_le
  have hfits := ring.fits
  have hback : handed ≤ slot ring.stty TTY_SIZE (sent + handed) := by
    unfold slot TTY_SIZE at *
    omega
  rw [revertedRdPtr, if_pos hback]
  unfold Reverted slot TTY_SIZE at *
  omega

theorem txCount_slot {rdPtr : ℕ} (hwaiting : sent < accepted)
    (hroom : accepted < sent + TTY_SIZE) (hrd : Reverted ring sent accepted rdPtr) :
    txCount ring rdPtr (slot ring.stty TTY_SIZE accepted) =
      if rdPtr < slot ring.stty TTY_SIZE accepted then accepted - sent
      else TTY_SIZE - sent % TTY_SIZE := by
  have horigin := ring.origin_le
  have hfits := ring.fits
  unfold txCount
  split_ifs with hlt
  · unfold Reverted slot TTY_SIZE at *
    omega
  · unfold Reverted slot TtyRing.etty TTY_SIZE at *
    omega

/-- Everything accepted is handed over, or what is in front of the end of the ring. -/
theorem advancedRdPtr_slot {rdPtr : ℕ} (hwaiting : sent < accepted)
    (hroom : accepted < sent + TTY_SIZE) (hrd : Reverted ring sent accepted rdPtr) :
    0 < txCount ring rdPtr (slot ring.stty TTY_SIZE accepted) ∧
      sent + txCount ring rdPtr (slot ring.stty TTY_SIZE accepted) ≤ accepted ∧
      wrappedRdPtr ring
        (advancedRdPtr rdPtr (txCount ring rdPtr (slot ring.stty TTY_SIZE accepted))) =
        slot ring.stty TTY_SIZE
          (sent + txCount ring rdPtr (slot ring.stty TTY_SIZE accepted)) := by
  have horigin := ring.origin_le
  have hfits := ring.fits
  rw [txCount_slot ring hwaiting hroom hrd]
  unfold wrappedRdPtr advancedRdPtr
  split_ifs with hlt hend hend
  all_goals
    unfold Reverted slot TtyRing.etty TTY_SIZE at *
    omega

end Slots

section Stage

variable {ring : TtyRing} {tx : Transmitter}

theorem Stage.stopped {statement : StartTx} (h : Stage ring tx (some statement)) :
    tx.stream.en = false := by
  cases statement with
  | test => exact h.elim
  | stop => exact h.elim
  | revert => exact h.1
  | count => exact h.1
  | advance count => exact h.1.stopped
  | wrap count => exact h.1.stopped
  | setNdtr count => exact h.1.stopped
  | setM0ar => exact h.1.stopped
  | enable => exact h.1.stopped

/-- The interrupt's flag and enable bit do not count. -/
theorem Stage.same {other : Transmitter} {statement : Option StartTx} (h : Stage ring tx statement)
    (hsame : SameCounts tx other) : Stage ring other statement := by
  obtain ⟨tcif, tcie, rfl⟩ := hsame
  cases statement with
  | none => exact ⟨⟨h.1.rdPtr, h.1.handed⟩, h.2⟩
  | some statement =>
    cases statement with
    | test => exact h
    | stop => exact h
    | revert => exact ⟨h.1, h.2.1, h.2.2.rdPtr, h.2.2.handed⟩
    | count => exact h
    | advance count => exact ⟨⟨h.1.stopped, h.1.pos, h.1.le⟩, h.2⟩
    | wrap count => exact ⟨⟨h.1.stopped, h.1.pos, h.1.le⟩, h.2⟩
    | setNdtr count => exact ⟨⟨h.1.stopped, h.1.pos, h.1.le⟩, h.2⟩
    | setM0ar => exact ⟨⟨h.1.stopped, h.1.pos, h.1.le⟩, h.2.rdPtr, h.2.handed⟩
    | enable => exact ⟨⟨h.1.stopped, h.1.pos, h.1.le⟩, ⟨h.2.1.rdPtr, h.2.1.handed⟩, h.2.2⟩

theorem Queue.reverted (hqueue : Queue ring tx) (hhanded : Handed ring tx) :
    Reverted ring tx.emitted.length tx.accepted.length
      (revertedRdPtr tx.des.txRdPtr tx.stream.ndtr) := by
  have hreverted := revertedRdPtr_slot ring hhanded.handed hqueue.room
  rw [← hhanded.rdPtr] at hreverted
  exact hreverted

theorem stage_count {rdPtr : ℕ} (hstopped : tx.stream.en = false)
    (hwaiting : tx.emitted.length < tx.accepted.length)
    (hrd : Reverted ring tx.emitted.length tx.accepted.length rdPtr) :
    Stage ring (tx.setRdPtr rdPtr) (some .count) :=
  ⟨hstopped, hwaiting, hrd⟩

/-- A statement of a transfer leads to the stage of the next one. -/
theorem Stage.step {statement : StartTx} (hqueue : Queue ring tx)
    (h : Stage ring tx statement.body) (htest : statement ≠ .test)
    (hleft : statement = .stop → ¬ (tx.des.txRdPtr = tx.des.txWrPtr ∧ tx.stream.ndtr = 0)) :
    Stage ring (startTxStep ring tx statement).1
      ((startTxStep ring tx statement).2.bind StartTx.body) := by
  have hroom := hqueue.room
  cases statement with
  | test => exact absurd rfl htest
  | stop =>
    exact ⟨rfl, lt_of_left h.1.rdPtr hqueue.wrPtr h.1.handed (hleft rfl), h.1.rdPtr, h.1.handed⟩
  | revert =>
    rw [startTxStep]
    exact stage_count h.1 h.2.1 (hqueue.reverted h.2.2)
  | count =>
    obtain ⟨hstopped, hwaiting, hrd⟩ := h
    obtain ⟨hpos, hle, hend⟩ := advancedRdPtr_slot ring hwaiting hroom hrd
    rw [← hqueue.wrPtr] at hpos hle hend
    rw [startTxStep]
    generalize txCount ring tx.des.txRdPtr tx.des.txWrPtr = count at hpos hle hend ⊢
    exact ⟨⟨hstopped, hpos, hle⟩, hend⟩
  | advance count => exact ⟨⟨h.1.stopped, h.1.pos, h.1.le⟩, h.2⟩
  | wrap count => exact ⟨⟨h.1.stopped, h.1.pos, h.1.le⟩, h.2⟩
  | setNdtr count =>
    obtain ⟨hfits, hrd⟩ := h
    have hle := hfits.le
    have hsmall : count % 2 ^ 16 = count := Nat.mod_eq_of_lt (by unfold TTY_SIZE at hroom; omega)
    dsimp only [startTxStep, Transmitter.setStream, Option.bind_some, StartTx.body]
    rw [hsmall]
    exact ⟨⟨hfits.stopped, hfits.pos, hfits.le⟩, hrd, hfits.le⟩
  | setM0ar => exact ⟨⟨h.1.stopped, h.1.pos, h.1.le⟩, ⟨h.2.rdPtr, h.2.handed⟩, rfl⟩
  | enable =>
    obtain ⟨hfits, hhanded, hm0ar⟩ := h
    have hle := hfits.le
    refine ⟨⟨hhanded.rdPtr, hhanded.handed⟩, fun _ ↦ ⟨hfits.pos, tx.stream.ndtr, hfits.pos, ?_, ?_⟩⟩
    · omega
    · simp [startTxStep, Transmitter.setStream, hfits.stopped, hm0ar]

/-- A byte is sent only between transfers. -/
theorem Stage.dmaByte {statement : Option StartTx} (h : Stage ring tx statement) :
    Stage ring (dmaByte tx) statement := by
  have hfits := ring.fits
  unfold Tty.dmaByte
  split_ifs with hactive
  · cases statement with
    | some statement => simp [h.stopped] at hactive
    | none =>
      obtain ⟨⟨hrd, hhanded⟩, hsends⟩ := h
      obtain ⟨hpos, count, hcount, hlt, hahead⟩ := hsends hactive.1
      have hcounted : tx.emitted.length + 1 + (tx.stream.ndtr - 1) =
          tx.emitted.length + tx.stream.ndtr := by omega
      have hread : tx.des.txRdPtr < ring.stty + TTY_SIZE := by
        rw [hrd]
        exact slot_lt ring.stty (by decide)
      refine ⟨⟨by simpa [hcounted] using hrd, by simpa [hcounted] using hhanded⟩,
        fun hrunning ↦ ?_⟩
      have hmore : tx.stream.ndtr ≠ 1 := of_decide_eq_true hrunning
      refine ⟨by dsimp only; omega, count, hcount, hlt, ?_⟩
      dsimp only
      unfold TTY_SIZE at *
      omega
  · exact h

theorem Stage.copyByte (h : Stage ring tx none) (byte : UInt8) :
    Stage ring (copyByte ring byte tx) none := by
  refine ⟨⟨h.1.rdPtr, ?_⟩, h.2⟩
  have hle := h.1.handed
  simp only [Tty.copyByte, List.length_append, List.length_singleton]
  omega

end Stage

/-! ## The queue -/

section Queue

variable {ring : TtyRing} {tx other : Transmitter}

/-- What neither copies nor sends keeps the queue. -/
theorem Queue.frame (h : Queue ring tx) (hwr : other.des.txWrPtr = tx.des.txWrPtr)
    (hmemory : other.memory = tx.memory) (haccepted : other.accepted = tx.accepted)
    (hemitted : other.emitted = tx.emitted) : Queue ring other where
  wrPtr := by rw [hwr, haccepted, h.wrPtr]
  room := by rw [haccepted, hemitted]; exact h.room
  holds := by rw [hmemory, haccepted, hemitted]; exact h.holds

theorem startTxStep_frame (ring : TtyRing) (tx : Transmitter) (statement : StartTx) :
    (startTxStep ring tx statement).1.des.txWrPtr = tx.des.txWrPtr ∧
      (startTxStep ring tx statement).1.memory = tx.memory ∧
      (startTxStep ring tx statement).1.accepted = tx.accepted ∧
      (startTxStep ring tx statement).1.emitted = tx.emitted := by
  cases statement <;> exact ⟨rfl, rfl, rfl, rfl⟩

theorem Queue.dmaByte (h : Queue ring tx) : Queue ring (dmaByte tx) := by
  unfold Tty.dmaByte
  split_ifs with hactive
  · exact {
      wrPtr := h.wrPtr
      room := by
        have hroom := h.room
        simp only [List.length_append, List.length_singleton]
        omega
      holds := h.holds.drop (by simp) }
  · exact h

theorem Queue.copyByte (h : Queue ring tx) (byte : UInt8)
    (hroom : (copyByte ring byte tx).accepted.length < tx.emitted.length + TTY_SIZE) :
    Queue ring (copyByte ring byte tx) := by
  exact {
    wrPtr := by
      rw [copyByte_wrPtr byte h.wrPtr, Tty.copyByte, List.length_append, List.length_singleton]
    room := hroom
    holds := by
      rw [Tty.copyByte, h.wrPtr]
      exact h.holds.push h.room byte }

end Queue

section Step

variable {ring : TtyRing} {state next : State} {event : Event}

/-- The buffers passed to `write` are accepted or still to be copied. -/
theorem written_step (h : state.written = state.accepted ++ state.call.elim [] WriteCall.pending) :
    (step ring state event).written = (step ring state event).accepted ++
      (step ring state event).call.elim [] WriteCall.pending := by
  cases event with
  | beginWrite buf =>
    simp only [step]
    split_ifs with hidle
    · have hwritten : state.written = state.accepted := by simpa [hidle.2] using h
      unfold beginWrite
      split
      · exact h
      · simp [hwritten, WriteCall.pending]
    · exact h
  | copyByte =>
    simp only [step]
    split
    · rename_i hcallback hcall
      simpa [copyByte, WriteCall.pending, hcall] using h
    · exact h
  | enableIrq =>
    simp only [step]
    split
    · rename_i hcallback hcall
      simpa [WriteCall.pending, hcall] using h
    · exact h
  | statement =>
    simp only [step]
    split
    · rename_i statement hrunning
      have haccepted := (startTxStep_frame ring state.toTransmitter statement).2.2.1
      cases hcallback : state.callback with
      | some current => simpa [runStatement, hcallback, haccepted] using h
      | none =>
        have hcall : state.call = some (.starting statement) := by
          rcases hcall : state.call with _ | ⟨dmaIrq, pending⟩ | current
          · simp [State.running, hcallback, hcall] at hrunning
          · simp [State.running, hcallback, hcall, WriteCall.statement?] at hrunning
          · simpa [State.running, hcallback, hcall, WriteCall.statement?] using hrunning
        have hwritten : state.written = state.accepted := by
          simpa [hcall, WriteCall.pending] using h
        cases hnext : (startTxStep ring state.toTransmitter statement).2 <;>
          simp [runStatement, hcallback, haccepted, hwritten, hnext, WriteCall.pending]
    · exact h
  | dmaByte =>
    simp only [step, dmaByte]
    split_ifs <;> exact h
  | interrupt =>
    simp only [step, halDmaIrqHandler]
    split_ifs <;> exact h
  | callback =>
    simp only [step]
    split_ifs <;> exact h

theorem Fifo.start (ring : TtyRing) (memory : ℕ → UInt8) : Fifo ring (start ring memory) where
  sole := Sole.start ring memory
  queue := {
    wrPtr := by simp [Tty.start, setDefaultDes, setValIfNull, slot]
    room := by simp [Tty.start, TTY_SIZE]
    holds := Holds.nil }
  stage := ⟨⟨by simp [Tty.start, setDefaultDes, setValIfNull, slot], by simp [Tty.start]⟩,
    by simp [Tty.start]⟩
  written := rfl

theorem queue_stage_of_effect (heffect : Effect ring state next event)
    (hundisturbed : Undisturbed state event)
    (hroom : next.accepted.length < next.emitted.length + TTY_SIZE)
    (hqueue : Queue ring state.toTransmitter)
    (hstage : Stage ring state.toTransmitter state.transfer) :
    Queue ring next.toTransmitter ∧ Stage ring next.toTransmitter next.transfer := by
  cases heffect with
  | other same transfer =>
    rw [transfer]
    refine ⟨?_, hstage.same same⟩
    obtain ⟨tcif, tcie, hnext⟩ := same
    rw [hnext]
    exact hqueue.frame rfl rfl rfl rfl
  | dmaByte sent transfer =>
    rw [transfer, sent]
    exact ⟨hqueue.dmaByte, hstage.dmaByte⟩
  | copyByte byte copied before after =>
    rw [before] at hstage
    rw [after, copied]
    rw [copied] at hroom
    exact ⟨hqueue.copyByte byte hroom, hstage.copyByte byte⟩
  | statement statement ne_test running before moved after =>
    rw [before] at hstage
    rw [after, moved]
    obtain ⟨hwr, hmemory, haccepted, hemitted⟩ :=
      startTxStep_frame ring state.toTransmitter statement
    refine ⟨hqueue.frame hwr hmemory haccepted hemitted,
      hstage.step hqueue ne_test fun hstop ↦ ?_⟩
    exact hundisturbed.2 (hstop ▸ running)

/-- An undisturbed step that leaves room keeps the count. -/
theorem Fifo.step (h : Fifo ring state) (hundisturbed : Undisturbed state event)
    (hroom : HasRoom ⟨state, event, step ring state event⟩) :
    Fifo ring (step ring state event) := by
  obtain ⟨hqueue, hstage⟩ :=
    queue_stage_of_effect (step_effect h.sole) hundisturbed hroom h.queue h.stage
  exact ⟨h.sole.step hundisturbed, hqueue, hstage, written_step h.written⟩

/-- An enabled stream has a byte to send, which is the first byte not sent. -/
theorem Fifo.running (h : Fifo ring state) (hen : state.stream.en = true) :
    Handed ring state.toTransmitter ∧ 0 < state.stream.ndtr ∧ ∃ count, 0 < count ∧
      count < TTY_SIZE ∧ state.stream.source + state.stream.ndtr = state.des.txRdPtr + count := by
  have hstage := h.stage
  cases htransfer : state.transfer with
  | some statement =>
    rw [htransfer] at hstage
    exact absurd hen (by simp [hstage.stopped])
  | none =>
    rw [htransfer] at hstage
    exact ⟨hstage.1, hstage.2 hen⟩

theorem Fifo.firstUnsent_eq (h : Fifo ring state) (hhanded : Handed ring state.toTransmitter) :
    firstUnsent ring state.toTransmitter = slot ring.stty TTY_SIZE state.emitted.length := by
  have hle := hhanded.handed
  have hroom := h.queue.room
  unfold firstUnsent
  rw [hhanded.rdPtr]
  unfold slot TTY_SIZE at *
  omega

/-- The slots of less than a ring of bytes do not repeat, so an enabled stream never reads the
first byte not sent. -/
theorem Fifo.source_ne (h : Fifo ring state) (hen : state.stream.en = true) :
    state.stream.source ≠ firstUnsent ring state.toTransmitter := by
  obtain ⟨hhanded, -, count, hpos, hlt, hahead⟩ := h.running hen
  have hle := hhanded.handed
  have hroom := h.queue.room
  have hrd := hhanded.rdPtr
  rw [h.firstUnsent_eq hhanded]
  unfold slot TTY_SIZE at *
  omega

/-- The next byte to send is in the ring. -/
theorem Fifo.accepted_eq (h : Fifo ring state) (hen : state.stream.en = true)
    (hsent : state.emitted <+: state.accepted) :
    ∃ rest, state.accepted =
      state.emitted ++ state.memory (firstUnsent ring state.toTransmitter) :: rest := by
  obtain ⟨hhanded, hpos, -⟩ := h.running hen
  have hle := hhanded.handed
  obtain ⟨rest, hrest⟩ := hsent
  cases rest with
  | nil =>
    rw [List.append_nil] at hrest
    rw [hrest] at hle
    omega
  | cons byte rest =>
    have hbyte : state.memory (slot ring.stty TTY_SIZE state.emitted.length) = byte := by
      apply h.queue.holds state.emitted.length byte le_rfl
      simp [← hrest]
    exact ⟨rest, by rw [h.firstUnsent_eq hhanded, hbyte, hrest]⟩

end Step

/-! ## Order -/

section Order

variable {ring : TtyRing} {state next : State} {event : Event}

/-- Accepted bytes stay accepted, and only the stream sends. -/
theorem record_of_effect (heffect : Effect ring state next event) :
    state.accepted <+: next.accepted ∧ (event ≠ .dmaByte → next.emitted = state.emitted) := by
  cases heffect with
  | other same transfer =>
    obtain ⟨tcif, tcie, hnext⟩ := same
    rw [hnext]
    exact ⟨List.prefix_rfl, fun _ ↦ rfl⟩
  | dmaByte sent transfer =>
    rw [sent, dmaByte]
    split_ifs <;> exact ⟨List.prefix_rfl, fun hne ↦ absurd rfl hne⟩
  | copyByte byte copied before after =>
    rw [copied]
    exact ⟨List.prefix_append _ _, fun _ ↦ rfl⟩
  | statement statement ne_test running before moved after =>
    obtain ⟨-, -, haccepted, hemitted⟩ := startTxStep_frame ring state.toTransmitter statement
    rw [moved, haccepted, hemitted]
    exact ⟨List.prefix_rfl, fun _ ↦ rfl⟩

/-- The output stays a prefix of the input when the next byte sent is the first byte not sent. -/
theorem Fifo.sent_step (h : Fifo ring state) (hsent : state.emitted <+: state.accepted)
    (hagrees : SourceAgrees ring state event) :
    (Tty.step ring state event).emitted <+: (Tty.step ring state event).accepted := by
  by_cases hevent : event = .dmaByte
  · subst hevent
    simp only [Tty.step, Tty.dmaByte]
    split_ifs with hactive
    · obtain ⟨rest, hrest⟩ := h.accepted_eq hactive.1 hsent
      dsimp only
      rw [hrest, hagrees hactive.1]
      exact ⟨rest, by simp⟩
    · exact hsent
  · have heffect : Effect ring state (Tty.step ring state event) event := step_effect h.sole
    obtain ⟨haccepted, hemitted⟩ := record_of_effect heffect
    rw [hemitted hevent]
    exact hsent.trans haccepted

theorem Fifo.inOrder (h : Fifo ring next) (hsent : next.emitted <+: next.accepted) :
    InOrder ⟨state, event, next⟩ := by
  unfold InOrder
  rw [h.written]
  exact hsent.trans (List.prefix_append _ _)

/-- A byte in order is the first byte not sent. -/
theorem Fifo.sourceAgrees (h : Fifo ring state) (hsent : state.emitted <+: state.accepted)
    (hok : InOrder ⟨state, event, Tty.step ring state event⟩) : SourceAgrees ring state event := by
  cases event with
  | dmaByte =>
    intro hen
    obtain ⟨-, hpos, -⟩ := h.running hen
    obtain ⟨rest, hrest⟩ := h.accepted_eq hen hsent
    have hprefix : state.emitted ++ [state.memory state.stream.source] <+: state.written := by
      simpa [InOrder, Tty.step, Tty.dmaByte, hen, hpos.ne'] using hok
    rw [h.written, hrest, List.append_assoc, List.prefix_append_right_inj, List.cons_append,
      List.cons_prefix_cons] at hprefix
    exact hprefix.1
  | _ => trivial

end Order

/-- **Transmit order.** In an undisturbed run that never fills the ring with bytes not sent, the
output is a prefix of what was passed to `write` after every step exactly when every byte is sent
from an address that holds the same byte as the first position not sent. -/
theorem inOrder_iff (ring : TtyRing) (memory : ℕ → UInt8) (events : List Event)
    (hroom : ∀ call ∈ ttyTrace ring memory events, HasRoom call)
    (hundisturbed : ∀ call ∈ ttyTrace ring memory events, Undisturbed call.pre call.event) :
    (∀ call ∈ ttyTrace ring memory events, InOrder call) ↔
      ∀ call ∈ ttyTrace ring memory events, SourceAgrees ring call.pre call.event := by
  have hstart : Fifo ring (Tty.start ring memory) ∧
      (Tty.start ring memory).emitted <+: (Tty.start ring memory).accepted :=
    ⟨Fifo.start ring memory, List.prefix_rfl⟩
  apply forall_trace_iff
    (fun state _ ↦ Fifo ring state ∧ state.emitted <+: state.accepted)
    (fun call ↦ HasRoom call ∧ Undisturbed call.pre call.event) _ _ hstart
    fun call hcall ↦ ⟨hroom call hcall, hundisturbed call hcall⟩
  · intro state event next events hfifo hstep hside hagrees
    obtain rfl := Option.some.inj hstep
    exact ⟨hfifo.1.step hside.2 hside.1, hfifo.1.sent_step hfifo.2 hagrees⟩
  · intro state event next events hfifo hstep hside
    obtain rfl := Option.some.inj hstep
    constructor
    · exact hfifo.1.sourceAgrees hfifo.2
    · intro hagrees
      exact (hfifo.1.step hside.2 hside.1).inOrder (hfifo.1.sent_step hfifo.2 hagrees)

/-- In such a run an enabled stream never points to the first byte not sent. -/
theorem source_ahead (ring : TtyRing) (memory : ℕ → UInt8) (events : List Event)
    (hroom : ∀ call ∈ ttyTrace ring memory events, HasRoom call)
    (hundisturbed : ∀ call ∈ ttyTrace ring memory events, Undisturbed call.pre call.event) :
    ∀ call ∈ ttyTrace ring memory events, call.post.stream.en = true →
      call.post.stream.source ≠ firstUnsent ring call.post.toTransmitter := by
  have hside : ∀ call ∈ ttyTrace ring memory events,
      HasRoom ⟨call.pre, call.event, step ring call.pre call.event⟩ ∧
        Undisturbed call.pre call.event := by
    intro call hcall
    have hpost := Option.some.inj (step_of_mem_trace hcall)
    rw [hpost]
    exact ⟨hroom call hcall, hundisturbed call hcall⟩
  have hfifo := invariant_of_mem_trace (Fifo ring)
    (fun state event ↦ HasRoom ⟨state, event, step ring state event⟩ ∧ Undisturbed state event)
    (fun state event next h hstep hside ↦ by
      obtain rfl := Option.some.inj hstep
      exact h.step hside.2 hside.1) (Fifo.start ring memory) hside
  exact fun call hcall ↦ (hfifo call hcall).2.source_ne

theorem inOrder_iff_interruptedEvents :
    (∀ call ∈ ttyTrace exampleRing (fun _ ↦ 0) interruptedEvents, InOrder call) ↔
      ∀ call ∈ ttyTrace exampleRing (fun _ ↦ 0) interruptedEvents,
        SourceAgrees exampleRing call.pre call.event :=
  inOrder_iff exampleRing (fun _ ↦ 0) interruptedEvents (by unfold HasRoom; decide)
    interruptedEvents_undisturbed

/-- Where a callback comes between the test and the body of a `start_tx`, more is sent than was
written, with nothing but zeros to tell apart. -/
theorem disturbedEvents_not_inOrder :
    (∀ call ∈ ttyTrace exampleRing (fun _ ↦ 0) disturbedEvents,
      HasRoom call ∧ SourceAgrees exampleRing call.pre call.event) ∧
      ¬ ∀ call ∈ ttyTrace exampleRing (fun _ ↦ 0) disturbedEvents, InOrder call := by
  unfold HasRoom InOrder
  decide +kernel

/-- One byte is written and sent. -/
def exampleEvents : List Event := writeEvents [0x41] ++ [.dmaByte]

/-- The byte sent is the one behind the byte written. -/
theorem example_sends_unwritten :
    (∀ call ∈ ttyTrace exampleRing (fun _ ↦ 0) exampleEvents, HasRoom call) ∧
      ¬ ∀ call ∈ ttyTrace exampleRing (fun _ ↦ 0) exampleEvents, InOrder call := by
  unfold HasRoom InOrder
  decide

end Vodka.Bsp.TtyFifo

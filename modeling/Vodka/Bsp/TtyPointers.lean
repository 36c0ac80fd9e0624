import Mathlib.Tactic
import Vodka.Bsp.TtyProgress
import Vodka.Bsp.TtyTransfer
import Vodka.Foundation.RingBuffer

/-!
# The ring pointers

`start_tx` moves the read pointer behind the bytes it hands to the stream before
they are sent, and takes the bytes that were not sent back when the transfer is
interrupted. A transfer up to the end of the ring leaves the read pointer at the
start of the ring, from where the bytes cannot be taken back inside it. In an
undisturbed run the pointers, the reverted pointer and the programmed count stay
in their bounds exactly when no such transfer is interrupted.
-/

namespace Vodka.Bsp.TtyPointers

open Foundation.Trace Foundation.RingBuffer Tty TtyProgress

/-- Both pointers are in the ring. Behind its advance the read pointer may be at the end of the
ring, until the next statement wraps it. -/
def InBounds (ring : TtyRing) (state : State) : Prop :=
  (ring.stty ≤ state.des.txRdPtr ∧ (state.des.txRdPtr < ring.etty ∨
    state.des.txRdPtr = ring.etty ∧ ∃ count, state.transfer = some (.wrap count))) ∧
  ring.stty ≤ state.des.txWrPtr ∧ state.des.txWrPtr < ring.etty

/-- The pointers are in the ring around the step, the read pointer is taken back to the first byte
not sent, and a count of up to a ring is programmed. -/
def PointersOk (ring : TtyRing) (call : Transition State Event) : Prop :=
  (InBounds ring call.pre ∧ InBounds ring call.post) ∧
    match call.event, call.pre.running with
    | .statement, some .revert =>
      call.pre.emitted.length < call.pre.accepted.length ∧
        call.post.des.txRdPtr = slot ring.stty TTY_SIZE call.pre.emitted.length
    | .statement, some (.setNdtr _) =>
      1 ≤ call.post.stream.ndtr ∧ call.post.stream.ndtr ≤ TTY_SIZE
    | _, _ => True

/-- No transfer that runs up to the end of the ring is interrupted by the next one. -/
def RunsOut (ring : TtyRing) (state : State) : Event → Prop
  | .statement => state.running = some .revert → state.des.txRdPtr = ring.stty →
      state.stream.ndtr = 0
  | _ => True

/-- `NDTR` bytes behind the read pointer is the first byte not sent, and these bytes are in the
ring or end where it ends. -/
structure Behind (ring : TtyRing) (tx : Transmitter) (count : ℕ) : Prop where
  rdPtr : tx.des.txRdPtr = slot ring.stty TTY_SIZE (tx.emitted.length + count)
  handed : tx.emitted.length + count ≤ tx.accepted.length
  le : count ≤ TTY_SIZE
  behind : tx.des.txRdPtr ≠ ring.stty → ring.stty + count ≤ tx.des.txRdPtr

/-- What the read pointer counts between transfers, and before each statement of one. -/
def Stage (ring : TtyRing) (tx : Transmitter) : Option StartTx → Prop
  | none => Behind ring tx tx.stream.ndtr
  | some .test => False
  | some .stop => False
  | some .revert => tx.stream.en = false ∧ tx.emitted.length < tx.accepted.length ∧
      Behind ring tx tx.stream.ndtr
  | some .count => tx.stream.en = false ∧ tx.emitted.length < tx.accepted.length ∧
      tx.des.txRdPtr = slot ring.stty TTY_SIZE tx.emitted.length
  | some (.advance count) => tx.stream.en = false ∧ 1 ≤ count ∧
      tx.emitted.length + count ≤ tx.accepted.length ∧
      tx.des.txRdPtr = slot ring.stty TTY_SIZE tx.emitted.length ∧
      tx.des.txRdPtr + count ≤ ring.etty
  | some (.wrap count) => tx.stream.en = false ∧ 1 ≤ count ∧
      tx.emitted.length + count ≤ tx.accepted.length ∧
      tx.des.txRdPtr = slot ring.stty TTY_SIZE tx.emitted.length + count ∧
      tx.des.txRdPtr ≤ ring.etty
  | some (.setNdtr count) => tx.stream.en = false ∧ 1 ≤ count ∧ Behind ring tx count
  | some .setM0ar => tx.stream.en = false ∧ Behind ring tx tx.stream.ndtr
  | some .enable => tx.stream.en = false ∧ Behind ring tx tx.stream.ndtr

/-- The stage of the transfer under way, and a write pointer that counts the accepted bytes. -/
structure Pointers (ring : TtyRing) (state : State) : Prop where
  sole : Sole state
  wrPtr : state.des.txWrPtr = slot ring.stty TTY_SIZE state.accepted.length
  stage : Stage ring state.toTransmitter state.transfer

section Slots

variable (ring : TtyRing) {sent accepted count : ℕ}

/-- The bytes up to the last one accepted or up to the end of the ring. -/
theorem txCount_slot (hwaiting : sent < accepted) :
    let count := txCount ring (slot ring.stty TTY_SIZE sent) (slot ring.stty TTY_SIZE accepted)
    1 ≤ count ∧ sent + count ≤ accepted ∧ slot ring.stty TTY_SIZE sent + count ≤ ring.etty := by
  have horigin := ring.origin_le
  have hfits := ring.fits
  unfold txCount
  dsimp only
  split_ifs with hlt
  · unfold slot TtyRing.etty TTY_SIZE at *
    omega
  · unfold slot TtyRing.etty TTY_SIZE at *
    omega

theorem wrappedRdPtr_slot (hle : slot ring.stty TTY_SIZE sent + count ≤ ring.etty) :
    wrappedRdPtr ring (slot ring.stty TTY_SIZE sent + count) =
      slot ring.stty TTY_SIZE (sent + count) ∧
    count ≤ TTY_SIZE ∧ (slot ring.stty TTY_SIZE (sent + count) ≠ ring.stty →
      ring.stty + count ≤ slot ring.stty TTY_SIZE (sent + count)) := by
  unfold wrappedRdPtr
  split_ifs with hend
  · unfold slot TtyRing.etty TTY_SIZE at *
    omega
  · unfold slot TtyRing.etty TTY_SIZE at *
    omega

end Slots

section Stage

variable {ring : TtyRing} {tx : Transmitter}

theorem Behind.le_rdPtr {count : ℕ} (h : Behind ring tx count) :
    ring.stty ≤ tx.des.txRdPtr ∧ tx.des.txRdPtr < ring.etty :=
  ⟨h.rdPtr ▸ le_slot ring.stty, h.rdPtr ▸ slot_lt ring.stty (by decide)⟩

theorem Stage.stopped {statement : StartTx} (h : Stage ring tx (some statement)) :
    tx.stream.en = false := by
  cases statement with
  | test => exact h.elim
  | stop => exact h.elim
  | revert => exact h.1
  | count => exact h.1
  | advance count => exact h.1
  | wrap count => exact h.1
  | setNdtr count => exact h.1
  | setM0ar => exact h.1
  | enable => exact h.1

/-- What the stages of a transfer read. -/
theorem Stage.frame {other : Transmitter} {statement : Option StartTx}
    (h : Stage ring tx statement) (hrd : other.des.txRdPtr = tx.des.txRdPtr)
    (hndtr : other.stream.ndtr = tx.stream.ndtr) (hen : other.stream.en = tx.stream.en)
    (haccepted : tx.accepted.length ≤ other.accepted.length)
    (hemitted : other.emitted = tx.emitted) : Stage ring other statement := by
  have hbehind (count : ℕ) (hcount : Behind ring tx count) : Behind ring other count := by
    refine ⟨?_, ?_, hcount.le, ?_⟩
    · rw [hrd, hemitted, hcount.rdPtr]
    · rw [hemitted]
      exact hcount.handed.trans haccepted
    · rw [hrd]
      exact hcount.behind
  cases statement with
  | none =>
    unfold Stage at h ⊢
    rw [hndtr]
    exact hbehind _ h
  | some statement =>
    cases statement with
    | test => exact h
    | stop => exact h
    | revert =>
      unfold Stage at h ⊢
      rw [hen, hndtr, hemitted]
      exact ⟨h.1, h.2.1.trans_le haccepted, hbehind _ h.2.2⟩
    | count =>
      unfold Stage at h ⊢
      rw [hen, hemitted, hrd]
      exact ⟨h.1, h.2.1.trans_le haccepted, h.2.2⟩
    | advance count =>
      unfold Stage at h ⊢
      rw [hen, hemitted, hrd]
      exact ⟨h.1, h.2.1, h.2.2.1.trans haccepted, h.2.2.2⟩
    | wrap count =>
      unfold Stage at h ⊢
      rw [hen, hemitted, hrd]
      exact ⟨h.1, h.2.1, h.2.2.1.trans haccepted, h.2.2.2⟩
    | setNdtr count =>
      unfold Stage at h ⊢
      rw [hen]
      exact ⟨h.1, h.2.1, hbehind _ h.2.2⟩
    | setM0ar =>
      unfold Stage at h ⊢
      rw [hen, hndtr]
      exact ⟨h.1, hbehind _ h.2⟩
    | enable =>
      unfold Stage at h ⊢
      rw [hen, hndtr]
      exact ⟨h.1, hbehind _ h.2⟩

theorem Stage.dmaByte {statement : Option StartTx} (h : Stage ring tx statement) :
    Stage ring (dmaByte tx) statement := by
  unfold Tty.dmaByte
  split_ifs with hactive
  · cases statement with
    | some statement => simp [h.stopped] at hactive
    | none =>
      obtain ⟨hrd, hhanded, hle, hbehind⟩ := h
      have hcounted : tx.emitted.length + 1 + (tx.stream.ndtr - 1) =
          tx.emitted.length + tx.stream.ndtr := by omega
      exact ⟨by simpa [hcounted] using hrd, by simpa [hcounted] using hhanded,
        (Nat.sub_le _ _).trans hle,
        fun hne ↦ (Nat.add_le_add_left (Nat.sub_le _ _) _).trans (hbehind hne)⟩
  · exact h

/-- The bytes that are taken back inside the ring begin with the first one not sent. -/
theorem Behind.reverted (h : Behind ring tx tx.stream.ndtr)
    (hback : tx.des.txRdPtr = ring.stty → tx.stream.ndtr = 0) :
    revertedRdPtr tx.des.txRdPtr tx.stream.ndtr =
      slot ring.stty TTY_SIZE tx.emitted.length := by
  have hrd := h.rdPtr
  have hlow := h.le_rdPtr.1
  have hinside : ring.stty + tx.stream.ndtr ≤ tx.des.txRdPtr := by
    by_cases hstart : tx.des.txRdPtr = ring.stty
    · rw [hback hstart, hstart, Nat.add_zero]
    · exact h.behind hstart
  rw [revertedRdPtr, if_pos (by omega)]
  unfold slot TTY_SIZE at *
  omega

/-- A statement of a transfer leads to the stage of the next one. -/
theorem Stage.step {statement : StartTx} (h : Stage ring tx statement.body)
    (hwr : tx.des.txWrPtr = slot ring.stty TTY_SIZE tx.accepted.length)
    (htest : statement ≠ .test)
    (hleft : statement = .stop → ¬ (tx.des.txRdPtr = tx.des.txWrPtr ∧ tx.stream.ndtr = 0))
    (hback : statement = .revert → tx.des.txRdPtr = ring.stty → tx.stream.ndtr = 0) :
    Stage ring (startTxStep ring tx statement).1
      ((startTxStep ring tx statement).2.bind StartTx.body) := by
  have horigin := ring.origin_le
  have hfits := ring.fits
  cases statement with
  | test => exact absurd rfl htest
  | stop =>
    have hbehind : Behind ring tx tx.stream.ndtr := h
    exact ⟨rfl, lt_of_left hbehind.rdPtr hwr hbehind.handed (hleft rfl), h.rdPtr, h.handed, h.le,
      h.behind⟩
  | revert => exact ⟨h.1, h.2.1, h.2.2.reverted (hback rfl)⟩
  | count =>
    obtain ⟨hstopped, hwaiting, hrd⟩ := h
    obtain ⟨hpos, hle, hend⟩ := txCount_slot ring hwaiting
    rw [← hrd, ← hwr] at hpos hle hend
    exact ⟨hstopped, hpos, hle, hrd, hend⟩
  | advance count =>
    obtain ⟨hstopped, hpos, hle, hrd, hend⟩ := h
    have hsum : advancedRdPtr tx.des.txRdPtr count = tx.des.txRdPtr + count := by
      unfold advancedRdPtr TtyRing.etty TTY_SIZE at *
      omega
    refine ⟨hstopped, hpos, hle, ?_, ?_⟩
    · exact hsum.trans (by rw [hrd]; rfl)
    · exact hsum.trans_le hend
  | wrap count =>
    obtain ⟨hstopped, hpos, hle, hrd, hend⟩ := h
    obtain ⟨hwrapped, hsize, hbehind⟩ := wrappedRdPtr_slot ring (hrd ▸ hend)
    rw [← hrd] at hwrapped
    refine ⟨hstopped, hpos, hwrapped, hle, hsize, fun hne ↦ ?_⟩
    dsimp only [startTxStep, Transmitter.setRdPtr] at hne ⊢
    rw [hwrapped] at hne ⊢
    exact hbehind hne
  | setNdtr count =>
    obtain ⟨hstopped, hpos, hbehind⟩ := h
    have hle := hbehind.le
    have hsmall : count % 2 ^ 16 = count := Nat.mod_eq_of_lt (by unfold TTY_SIZE at hle; omega)
    dsimp only [startTxStep, Transmitter.setStream, Option.bind_some, StartTx.body]
    rw [hsmall]
    exact ⟨hstopped, hbehind.rdPtr, hbehind.handed, hle, hbehind.behind⟩
  | setM0ar => exact ⟨h.1, h.2.rdPtr, h.2.handed, h.2.le, h.2.behind⟩
  | enable => exact ⟨h.2.rdPtr, h.2.handed, h.2.le, h.2.behind⟩

end Stage

/-! ## Steps -/

section Step

variable {ring : TtyRing} {state next : State} {event : Event}

theorem Pointers.start (ring : TtyRing) (memory : ℕ → UInt8) :
    Pointers ring (start ring memory) where
  sole := Sole.start ring memory
  wrPtr := by simp [Tty.start, setDefaultDes, setValIfNull, slot]
  stage := ⟨by simp [Tty.start, setDefaultDes, setValIfNull, slot], by simp [Tty.start],
    by simp [Tty.start], by simp [Tty.start, setDefaultDes, setValIfNull]⟩

/-- A step that does not interrupt a transfer to the end of the ring keeps the pointers. -/
theorem Pointers.step (h : Pointers ring state) (hundisturbed : Undisturbed state event)
    (hcondition : RunsOut ring state event) : Pointers ring (step ring state event) := by
  have heffect : Effect ring state (Tty.step ring state event) event := step_effect h.sole
  have hstage := h.stage
  suffices hkept : (Tty.step ring state event).des.txWrPtr =
      slot ring.stty TTY_SIZE (Tty.step ring state event).accepted.length ∧
      Stage ring (Tty.step ring state event).toTransmitter (Tty.step ring state event).transfer from
    ⟨h.sole.step hundisturbed, hkept.1, hkept.2⟩
  generalize Tty.step ring state event = next at heffect ⊢
  cases heffect with
  | other same transfer =>
    obtain ⟨tcif, tcie, hnext⟩ := same
    rw [transfer, hnext]
    exact ⟨h.wrPtr, hstage.frame rfl rfl rfl le_rfl rfl⟩
  | dmaByte sent transfer =>
    rw [transfer, sent]
    refine ⟨?_, hstage.dmaByte⟩
    unfold Tty.dmaByte
    split_ifs <;> exact h.wrPtr
  | copyByte byte copied before after =>
    rw [before] at hstage
    rw [after, copied]
    refine ⟨?_, hstage.frame rfl rfl rfl ?_ rfl⟩
    · rw [copyByte_wrPtr byte h.wrPtr, copyByte, List.length_append, List.length_singleton]
    · simp [copyByte]
  | statement statement ne_test running before moved after =>
    rw [before] at hstage
    rw [after, moved]
    refine ⟨?_, hstage.step h.wrPtr ne_test (fun hstop ↦ hundisturbed.2 (hstop ▸ running))
      fun hrevert ↦ hcondition (hrevert ▸ running)⟩
    cases statement <;> exact h.wrPtr

theorem Stage.rdPtr_mem {tx : Transmitter} {statement : Option StartTx}
    (h : Stage ring tx statement) :
    ring.stty ≤ tx.des.txRdPtr ∧ (tx.des.txRdPtr < ring.etty ∨
      tx.des.txRdPtr = ring.etty ∧ ∃ count, statement = some (.wrap count)) := by
  have hslot (i : ℕ) (hrd : tx.des.txRdPtr = slot ring.stty TTY_SIZE i) :
      ring.stty ≤ tx.des.txRdPtr ∧ tx.des.txRdPtr < ring.etty :=
    ⟨hrd ▸ le_slot ring.stty, hrd ▸ slot_lt ring.stty (by decide)⟩
  cases statement with
  | none => exact ⟨h.le_rdPtr.1, .inl h.le_rdPtr.2⟩
  | some statement =>
    cases statement with
    | test => exact h.elim
    | stop => exact h.elim
    | revert => exact ⟨h.2.2.le_rdPtr.1, .inl h.2.2.le_rdPtr.2⟩
    | count => exact ⟨(hslot _ h.2.2).1, .inl (hslot _ h.2.2).2⟩
    | advance count => exact ⟨(hslot _ h.2.2.2.1).1, .inl (hslot _ h.2.2.2.1).2⟩
    | wrap count =>
      obtain ⟨-, -, -, hrd, hend⟩ := h
      refine ⟨?_, hend.lt_or_eq.imp_right fun heq ↦ ⟨heq, count, rfl⟩⟩
      exact (le_slot ring.stty).trans (hrd ▸ Nat.le_add_right _ _)
    | setNdtr count => exact ⟨h.2.2.le_rdPtr.1, .inl h.2.2.le_rdPtr.2⟩
    | setM0ar => exact ⟨h.2.le_rdPtr.1, .inl h.2.le_rdPtr.2⟩
    | enable => exact ⟨h.2.le_rdPtr.1, .inl h.2.le_rdPtr.2⟩

theorem Pointers.inBounds (h : Pointers ring state) : InBounds ring state :=
  ⟨h.stage.rdPtr_mem, h.wrPtr ▸ le_slot ring.stty, h.wrPtr ▸ slot_lt ring.stty (by decide)⟩

/-- The step is in order exactly when it meets the condition. -/
theorem Pointers.stepOk_iff (h : Pointers ring state) (hundisturbed : Undisturbed state event) :
    PointersOk ring ⟨state, event, Tty.step ring state event⟩ ↔ RunsOut ring state event := by
  have hstatement (statement : StartTx) (hrunning : state.running = some statement) :
      (Tty.step ring state .statement).toTransmitter =
        (startTxStep ring state.toTransmitter statement).1 := by
    simp only [Tty.step, hrunning]
    exact runStatement_toTransmitter ring statement state
  have hstage (statement : StartTx) (hrunning : state.running = some statement)
      (htest : statement ≠ .test) : Stage ring state.toTransmitter statement.body :=
    h.sole.transfer_eq hrunning htest ▸ h.stage
  constructor
  · intro hok
    cases event with
    | statement =>
      intro hrevert hrd
      obtain ⟨-, -, hbehind⟩ := hstage .revert hrevert (by simp)
      have hreverted := hok.2
      simp only [hrevert, hstatement .revert hrevert] at hreverted
      have hsize := hbehind.le
      have horigin := ring.origin_le
      have hback : state.stream.ndtr ≤ state.des.txRdPtr := by
        rw [hrd]
        unfold TTY_SIZE at hsize
        omega
      have hbelow : state.des.txRdPtr - state.stream.ndtr =
          slot ring.stty TTY_SIZE state.emitted.length :=
        (if_pos hback).symm.trans hreverted.2
      have hlow : ring.stty ≤ slot ring.stty TTY_SIZE state.emitted.length := le_slot ring.stty
      omega
    | _ => trivial
  · intro hcondition
    refine ⟨⟨h.inBounds, (h.step hundisturbed hcondition).inBounds⟩, ?_⟩
    cases event with
    | statement =>
      cases hrunning : state.running with
      | none => trivial
      | some statement =>
        cases statement with
        | revert =>
          obtain ⟨-, hwaiting, hbehind⟩ := hstage .revert hrunning (by simp)
          simp only [hstatement .revert hrunning]
          exact ⟨hwaiting, hbehind.reverted (hcondition hrunning)⟩
        | setNdtr count =>
          obtain ⟨-, hpos, hbehind⟩ := hstage (.setNdtr count) hrunning (by simp)
          have hle := hbehind.le
          have hsmall : count % 2 ^ 16 = count :=
            Nat.mod_eq_of_lt (by unfold TTY_SIZE at hle; omega)
          simp only [hstatement (.setNdtr count) hrunning, startTxStep, Transmitter.setStream,
            hsmall]
          exact ⟨hpos, hle⟩
        | _ => trivial
    | _ => trivial

end Step

/-- In an undisturbed run from the default descriptor, the pointers, the reverted pointer and the
count are in order exactly when no transfer starts while one that runs up to the end of the ring
has bytes left. -/
theorem pointersOk_iff (ring : TtyRing) (memory : ℕ → UInt8) (events : List Event)
    (hundisturbed : ∀ call ∈ ttyTrace ring memory events, Undisturbed call.pre call.event) :
    (∀ call ∈ ttyTrace ring memory events, PointersOk ring call) ↔
      ∀ call ∈ ttyTrace ring memory events, RunsOut ring call.pre call.event := by
  apply forall_trace_iff (fun state _ ↦ Pointers ring state)
    fun call ↦ Undisturbed call.pre call.event
  · intro state event next events hpointers hstep hside hcondition
    obtain rfl := Option.some.inj hstep
    exact hpointers.step hside hcondition
  · intro state event next events hpointers hstep hside
    obtain rfl := Option.some.inj hstep
    exact hpointers.stepOk_iff hside
  · exact Pointers.start ring memory
  · exact hundisturbed

theorem pointersOk_iff_interruptedEvents :
    (∀ call ∈ ttyTrace exampleRing (fun _ ↦ 0) interruptedEvents, PointersOk exampleRing call) ↔
      ∀ call ∈ ttyTrace exampleRing (fun _ ↦ 0) interruptedEvents,
        RunsOut exampleRing call.pre call.event :=
  pointersOk_iff exampleRing (fun _ ↦ 0) interruptedEvents interruptedEvents_undisturbed

/-- The third write is about to take back the bytes of a transfer to the end of the ring. -/
theorem thirdWrite_state :
    ∃ state, (wrappingWrites ++ (copyEvents [0] ++ List.replicate 2 Event.statement)).foldl
        (step exampleRing) (start exampleRing fun _ ↦ 0) = state ∧
      state.running = some .revert ∧ state.des.txRdPtr = exampleRing.stty ∧
      state.stream.ndtr = 96 := by
  obtain ⟨state, hstate, hidle, hrd, -, -, hndtr⟩ := wrappingWrites_state
  obtain ⟨memory, accepted, hcopied⟩ := hidle.copied [0]
  have hwaiting : state.des.txRdPtr ≠ slot exampleRing.stty TTY_SIZE (4200 + 1) := by
    rw [hrd]
    decide
  have hstatements := foldl_statement exampleRing 2 (some .test)
    ((copyEvents [0]).foldl (step exampleRing) state) (by rw [hcopied]; exact hidle.callback)
    (by rw [hcopied]; rfl)
  rw [hcopied] at hstatements
  simp only [List.length_singleton, Function.iterate_succ_apply, Function.iterate_zero_apply,
    startTxNext, startTxStep, if_neg hwaiting] at hstatements
  refine ⟨_, rfl, ?_⟩
  rw [List.foldl_append, hstate, List.foldl_append, hcopied]
  simp only [List.length_singleton]
  rw [hstatements]
  exact ⟨by simp [State.running, hidle.callback, WriteCall.statement?], hrd, hndtr⟩

/-- One more byte is written while the transfer to the end of the ring is under way: its bytes
are taken back to below the ring. -/
theorem third_write_reverts_below :
    ¬ ∀ call ∈ ttyTrace exampleRing (fun _ ↦ 0)
      (wrappingWrites ++ (copyEvents [0] ++ List.replicate 2 .statement) ++ [.statement]),
      PointersOk exampleRing call := by
  intro hok
  obtain ⟨state, hstate, hrunning, hrd, hndtr⟩ := thirdWrite_state
  have hmem := mem_trace_of_total (step exampleRing) (start exampleRing fun _ ↦ 0)
    (wrappingWrites ++ (copyEvents [0] ++ List.replicate 2 .statement)) [] .statement
  rw [hstate] at hmem
  have hreverted := (hok _ hmem).2
  simp only [hrunning, step, runStatement_toTransmitter, startTxStep, Transmitter.setRdPtr, hrd,
    hndtr] at hreverted
  have hlow : exampleRing.stty ≤ slot exampleRing.stty TTY_SIZE state.emitted.length :=
    le_slot exampleRing.stty
  rw [← hreverted.2] at hlow
  exact absurd hlow (by decide)

end Vodka.Bsp.TtyPointers

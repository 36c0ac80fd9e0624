import Mathlib.Tactic
import Vodka.Bsp.TtyProgress
import Vodka.Foundation.RingBuffer

/-!
# What a write accepts

`write` returns its counter, which has passed zero when the copy loop ends, and
the loop does not look at the read pointer. In every state that a run from the
default descriptor reaches the interrupt is cached, so no call returns a number
up to the count: only the largest count can be returned at all, and that many
bytes do not have a slot each.
-/

namespace Vodka.Bsp.TtyWrite

open Foundation.RingBuffer Tty TtyProgress

/-- `write` returns how many bytes it has queued, each in a slot of its own, and the bytes that
were queued before and are not sent yet stay in place and visible. -/
def WriteOk (ring : TtyRing) (buf : List UInt8) (state : State) : Prop :=
  let after := (write ring buf state).1
  let count := (write ring buf state).2
  (count ≤ buf.length ∧ count ≤ TTY_SIZE) ∧
    after.accepted = state.accepted ++ buf.take count ∧
    (∀ i, state.emitted.length ≤ i → i < state.accepted.length →
      after.memory (slot ring.stty TTY_SIZE i) = state.memory (slot ring.stty TTY_SIZE i)) ∧
    after.accepted.length ≤ after.emitted.length + TTY_SIZE ∧
    (after.emitted.length < after.accepted.length →
      after.des.txRdPtr ≠ after.des.txWrPtr ∨ after.stream.ndtr ≠ 0)

theorem halDmaIrqHandler_cacheDmaIrq (state : State) :
    (halDmaIrqHandler state).cacheDmaIrq = state.cacheDmaIrq := by
  unfold halDmaIrqHandler
  dsimp only
  split_ifs <;> rfl

theorem runStatement_cacheDmaIrq (ring : TtyRing) (statement : StartTx) (state : State) :
    (runStatement ring statement state).cacheDmaIrq = state.cacheDmaIrq := by
  unfold runStatement
  split <;> rfl

/-- A filled cache stays as it is. -/
theorem step_cacheDmaIrq (ring : TtyRing) {state : State} (event : Event)
    (h : state.cacheDmaIrq true ≠ NonMaskableInt_IRQn) :
    (step ring state event).cacheDmaIrq = state.cacheDmaIrq := by
  cases event with
  | beginWrite buf =>
    simp only [step]
    split_ifs
    · simp [beginWrite, getDmaIrq_of_cached _ _ _ h]
    · rfl
  | copyByte =>
    simp only [step]
    split <;> rfl
  | enableIrq =>
    simp only [step]
    split <;> rfl
  | statement =>
    simp only [step]
    split
    · exact runStatement_cacheDmaIrq ring _ state
    · rfl
  | dmaByte => rfl
  | interrupt =>
    simp only [step]
    split_ifs
    · exact halDmaIrqHandler_cacheDmaIrq state
    · rfl
  | callback =>
    simp only [step]
    split_ifs <;> rfl

theorem foldl_cacheDmaIrq (ring : TtyRing) {state : State} (events : List Event)
    (h : state.cacheDmaIrq true ≠ NonMaskableInt_IRQn) :
    (events.foldl (step ring) state).cacheDmaIrq = state.cacheDmaIrq := by
  induction events generalizing state with
  | nil => rfl
  | cons event events ih =>
    have hstep := step_cacheDmaIrq ring event h
    rw [List.foldl_cons, ih (hstep ▸ h), hstep]

theorem start_cacheDmaIrq (ring : TtyRing) (memory : ℕ → UInt8) :
    (start ring memory).cacheDmaIrq true ≠ NonMaskableInt_IRQn := by
  rw [(Idle.start ring memory).cached]
  decide

/-- With the interrupt cached, the largest number is returned. -/
theorem write_of_cached (ring : TtyRing) (buf : List UInt8) {state : State}
    (h : state.cacheDmaIrq true ≠ NonMaskableInt_IRQn) :
    (write ring buf state).2 = 2 ^ 32 - 1 := by
  unfold write
  rw [getDmaIrq_of_cached state.des true state.cacheDmaIrq h]

/-- No write accepts what it reports, in any state that a run reaches outside of other writes. -/
theorem not_writeOk (ring : TtyRing) (memory : ℕ → UInt8) (events : List Event)
    (buf : List UInt8) : ¬ WriteOk ring buf (events.foldl (step ring) (start ring memory)) := by
  have hcached := foldl_cacheDmaIrq ring events (start_cacheDmaIrq ring memory)
  have hcount := write_of_cached ring buf (hcached ▸ start_cacheDmaIrq ring memory)
  rintro ⟨⟨-, hslots⟩, -⟩
  rw [hcount] at hslots
  exact absurd hslots (by decide)

/-- A write of one byte into the empty ring reports the largest number. -/
theorem first_byte_misreported : ¬ WriteOk exampleRing [0] (start exampleRing fun _ ↦ 0) := by
  rintro ⟨⟨hreported, -⟩, -⟩
  exact absurd hreported (by decide)

end Vodka.Bsp.TtyWrite

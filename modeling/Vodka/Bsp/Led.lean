import Mathlib.Tactic
import Mathlib.Data.Nat.Size
import Vodka.Foundation.BitFields
import Vodka.Foundation.Loop
import Vodka.Foundation.Simulation
import Vodka.Bsp.TtyBringUp

/-!
# Lamps

A lamp is lit when its pin is an output and low. The lamps share their ports
with other devices, and threads interrupt each other between the read and the
write of a toggle. Pins are set and reset through `BSRR`, which leaves other
pins alone, so that threads disturb neither other lamps nor other pins. Alternate
functions and external interrupts of pins are left out.
-/

namespace Vodka.Bsp.Led

open Foundation.BitFields Foundation.Loop Foundation.Simulation

open TtyBringUp (GpioPort)

/-- The members of `GPIO_TypeDef`. -/
structure Gpio where
  moder : BitVec 32
  otyper : BitVec 32
  ospeedr : BitVec 32
  pupdr : BitVec 32
  odr : BitVec 32

/-- The members of `GPIO_InitTypeDef` but for the pins. -/
structure GpioInit where
  mode : BitVec 32
  pull : BitVec 32
  speed : BitVec 32

def MODE_OUTPUT : BitVec 32 := 0x1

def MODE_AF : BitVec 32 := 0x2

def MODE_ANALOG : BitVec 32 := 0x3

def GPIO_MODE : BitVec 32 := 0x3

def OUTPUT_TYPE : BitVec 32 := 0x10

def GPIO_MODE_OUTPUT_PP : BitVec 32 := 0x1

/-- A turn of the loop of `HAL_GPIO_Init`. -/
def configurePin (init : GpioInit) (pin : BitVec 32) (position : ℕ) (port : Gpio) : Gpio :=
  if pin &&& 1#32 <<< position ≠ 0 then
    let mode := init.mode &&& GPIO_MODE
    let port :=
      if mode = MODE_OUTPUT ∨ mode = MODE_AF then
        { port with
          ospeedr := replace port.ospeedr (3#32 <<< (position * 2)) (init.speed <<< (position * 2))
          otyper := replace port.otyper (1#32 <<< position)
            ((init.mode &&& OUTPUT_TYPE) >>> 4 <<< position) }
      else port
    let port :=
      if mode ≠ MODE_ANALOG then
        { port with
          pupdr := replace port.pupdr (3#32 <<< (position * 2)) (init.pull <<< (position * 2)) }
      else port
    { port with moder := replace port.moder (3#32 <<< (position * 2)) (mode <<< (position * 2)) }
  else port

/-- `HAL_GPIO_Init`: no pin is behind bit 31. -/
def halGpioInit (init : GpioInit) (pin : BitVec 32) (port : Gpio) : Option Gpio :=
  (loop (fun (_, position) ↦ decide (pin >>> position ≠ 0))
    (fun (port, position) ↦ (configurePin init pin position port, position + 1)) 33
    (port, 0)).map Prod.fst

/-- A write to `BSRR`: the lower half sets pins, the upper half resets those that it does not. -/
def writeBsrr (word : BitVec 32) (port : Gpio) : Gpio :=
  { port with odr := port.odr &&& ~~~(word >>> 16) ||| (word.setWidth 16).setWidth 32 }

inductive GpioPinState
  | reset
  | set
  deriving DecidableEq

def halGpioWritePin (pin : BitVec 16) (pinState : GpioPinState) (port : Gpio) : Gpio :=
  match pinState with
  | .set => writeBsrr (pin.setWidth 32) port
  | .reset => writeBsrr (pin.setWidth 32 <<< 16) port

/-- The word that `HAL_GPIO_TogglePin` writes for the levels that it has read. -/
def toggleWord (pin : BitVec 16) (odr : BitVec 32) : BitVec 32 :=
  (odr &&& pin.setWidth 32) <<< 16 ||| ~~~odr &&& pin.setWidth 32

inductive BspLedInst
  | blue
  | red
  | yellow
  deriving DecidableEq

/-- `led_info_list` -/
def ledInfoList : List (GpioPort × BitVec 16) := [(.C, 0x2000), (.A, 0x0800), (.H, 0x0080)]

namespace BspLedInst

def index : BspLedInst → ℕ
  | blue => 0
  | red => 1
  | yellow => 2

def port : BspLedInst → GpioPort
  | blue => .C
  | red => .A
  | yellow => .H

/-- The number of the lamp's pin. -/
def position : BspLedInst → ℕ
  | blue => 13
  | red => 11
  | yellow => 7

def pin (led : BspLedInst) : BitVec 16 := BitVec.twoPow 16 led.position

/-- Ports and pins are those of the list. -/
theorem ledInfoList_index (led : BspLedInst) :
    ledInfoList[led.index]? = some (led.port, led.pin) := by
  cases led <;> decide

theorem position_lt (led : BspLedInst) : led.position < 16 := by
  cases led <;> decide

/-- Every lamp has a port of its own. -/
theorem port_injective : Function.Injective port := by
  rintro (_ | _ | _) (_ | _ | _) h
  all_goals first | rfl | exact absurd h (by decide)

theorem getLsbD_pin (led : BspLedInst) (i : ℕ) :
    led.pin.getLsbD i = decide (led.position = i) := by
  rw [pin, BitVec.getLsbD_twoPow, decide_eq_true led.position_lt, Bool.true_and]

end BspLedInst

abbrev Ports := GpioPort → Gpio

/-- A turn of the loop of `bsp_led_init`: the lamp is off before its pin is an output. -/
def initLed (ports : Ports) (info : GpioPort × BitVec 16) : Option Ports :=
  let port := halGpioWritePin info.2 .set (ports info.1)
  (halGpioInit ⟨GPIO_MODE_OUTPUT_PP, 0, 0⟩ (info.2.setWidth 32) port).map
    (Function.update ports info.1)

def bspLedInit (ports : Ports) : Option Ports := ledInfoList.foldlM initLed ports

def bspLedOn (led : BspLedInst) (ports : Ports) : Ports :=
  Function.update ports led.port (halGpioWritePin led.pin .reset (ports led.port))

def bspLedOff (led : BspLedInst) (ports : Ports) : Ports :=
  Function.update ports led.port (halGpioWritePin led.pin .set (ports led.port))

/-- The ports, and what each thread has read in `HAL_GPIO_TogglePin`. -/
structure State (T : Type*) where
  ports : Ports
  odr : T → BitVec 32

/-- What happens to the ports. Threads interrupt each other between the two accesses of a toggle.
Other code configures other pins and writes to `BSRR`. -/
inductive Event (T : Type*)
  | init
  | on (led : BspLedInst)
  | off (led : BspLedInst)
  | toggleRead (thread : T) (led : BspLedInst)
  | toggleWrite (thread : T) (led : BspLedInst)
  | configure (port : GpioPort) (init : GpioInit) (pin : BitVec 16)
  | write (port : GpioPort) (word : BitVec 32)
  | look (led : BspLedInst)
  | sample (port : GpioPort) (position : ℕ)

variable {T : Type*}

/-- A lamp is lit when its pin is an output and low. -/
def Lit (ports : Ports) (led : BspLedInst) : Prop :=
  field (ports led.port).moder (2 * led.position) 2 = 1 ∧
    (ports led.port).odr.getLsbD led.position = false

instance (ports : Ports) (led : BspLedInst) : Decidable (Lit ports led) :=
  inferInstanceAs (Decidable (_ ∧ _))

/-- The state behind an event, and what a look or a sample sees. -/
def step [DecidableEq T] (state : State T) : Event T → Option (State T × Option Bool)
  | .init => (bspLedInit state.ports).map fun ports ↦ ({ state with ports }, none)
  | .on led => some ({ state with ports := bspLedOn led state.ports }, none)
  | .off led => some ({ state with ports := bspLedOff led state.ports }, none)
  | .toggleRead thread led =>
    some ({ state with odr := Function.update state.odr thread (state.ports led.port).odr }, none)
  | .toggleWrite thread led =>
    let port := writeBsrr (toggleWord led.pin (state.odr thread)) (state.ports led.port)
    some ({ state with ports := Function.update state.ports led.port port }, none)
  | .configure port init pin =>
    (halGpioInit init (pin.setWidth 32) (state.ports port)).map fun configured ↦
      ({ state with ports := Function.update state.ports port configured }, none)
  | .write port word =>
    some ({ state with
      ports := Function.update state.ports port (writeBsrr word (state.ports port)) }, none)
  | .look led => some (state, some (decide (Lit state.ports led)))
  | .sample port position => some (state, some ((state.ports port).odr.getLsbD position))

/-- Whether the lamps are ready, which ones are on, the levels of other pins, and which lamp each
thread toggles and how it has found it. -/
structure Lamps (T : Type*) where
  ready : Bool
  lamp : BspLedInst → Bool
  pins : GpioPort → ℕ → Bool
  seen : T → Option (BspLedInst × Bool)

def IsLamp (port : GpioPort) (position : ℕ) : Prop :=
  ∃ led : BspLedInst, led.port = port ∧ led.position = position

/-- Other code leaves the pins of lamps alone and a thread writes what it has read. A toggle leaves
the opposite of what it has found. -/
def lamps (T : Type*) [DecidableEq T] : Purpose (Lamps T) (Event T) (Option Bool) where
  Meant
    | state, .toggleWrite thread led => ∃ found, state.seen thread = some (led, found)
    | _, .configure port _ pin => ∀ i, pin.getLsbD i = true → ¬ IsLamp port i
    | _, .write port word => ∀ i < 16,
        word.getLsbD i = true ∨ word.getLsbD (i + 16) = true → ¬ IsLamp port i
    | _, .sample port position => position < 16 ∧ ¬ IsLamp port position
    | _, _ => True
  next
    | state, .init => { state with ready := true, lamp := fun _ ↦ false }
    | state, .on led => { state with lamp := Function.update state.lamp led true }
    | state, .off led => { state with lamp := Function.update state.lamp led false }
    | state, .toggleRead thread led =>
      { state with seen := Function.update state.seen thread (some (led, state.lamp led)) }
    | state, .toggleWrite thread led =>
      { state with
        lamp := Function.update state.lamp led
          (((state.seen thread).map fun found ↦ !found.2).getD false) }
    | state, .write port word =>
      { state with
        pins := Function.update state.pins port fun i ↦
          word.getLsbD i || state.pins port i && !word.getLsbD (i + 16) }
    | state, _ => state
  answer
    | state, .look led => some (state.ready && state.lamp led)
    | state, .sample port position => some (state.pins port position)
    | _, _ => none

theorem getLsbD_writeBsrr (word : BitVec 32) (port : Gpio) {i : ℕ} (hi : i < 16) :
    (writeBsrr word port).odr.getLsbD i =
      (word.getLsbD i || port.odr.getLsbD i && !word.getLsbD (i + 16)) := by
  rw [writeBsrr, BitVec.getLsbD_or, BitVec.getLsbD_and, BitVec.getLsbD_not,
    BitVec.getLsbD_setWidth, BitVec.getLsbD_setWidth, BitVec.getLsbD_ushiftRight,
    decide_eq_true hi, decide_eq_true (by omega : i < 32), Nat.add_comm 16, Bool.true_and,
    Bool.true_and, Bool.true_and, Bool.or_comm]

theorem getLsbD_setWidth_pin (pin : BitVec 16) (i : ℕ) :
    (pin.setWidth 32).getLsbD i = pin.getLsbD i := by
  rw [BitVec.getLsbD_setWidth]
  by_cases hi : i < 32
  · rw [decide_eq_true hi, Bool.true_and]
  · rw [BitVec.getLsbD_of_ge _ _ (by omega : 16 ≤ i), Bool.and_false]

/-- Pins are set or reset, and other pins keep their levels. -/
theorem getLsbD_halGpioWritePin (pin : BitVec 16) (pinState : GpioPinState) (port : Gpio) {i : ℕ}
    (hi : i < 16) :
    (halGpioWritePin pin pinState port).odr.getLsbD i =
      if pin.getLsbD i then decide (pinState = .set) else port.odr.getLsbD i := by
  have hpin : pin.getLsbD (i + 16) = false := BitVec.getLsbD_of_ge _ _ (Nat.le_add_left 16 i)
  cases pinState with
  | set =>
    rw [halGpioWritePin, getLsbD_writeBsrr _ _ hi, getLsbD_setWidth_pin, getLsbD_setWidth_pin, hpin]
    cases pin.getLsbD i <;> simp
  | reset =>
    have hset : (pin.setWidth 32 <<< 16).getLsbD i = false := by
      rw [BitVec.getLsbD_shiftLeft, decide_eq_true hi]
      simp
    have hreset : (pin.setWidth 32 <<< 16).getLsbD (i + 16) = pin.getLsbD i := by
      rw [BitVec.getLsbD_shiftLeft, Nat.add_sub_cancel, getLsbD_setWidth_pin,
        decide_eq_true (by omega : i + 16 < 32), decide_eq_false (by omega : ¬i + 16 < 16)]
      simp
    rw [halGpioWritePin, getLsbD_writeBsrr _ _ hi, hset, hreset]
    cases pin.getLsbD i <;> simp

/-- Toggled pins are the opposite of what was read, and other pins keep their levels. -/
theorem getLsbD_toggleWord (pin : BitVec 16) (odr : BitVec 32) (port : Gpio) {i : ℕ}
    (hi : i < 16) :
    (writeBsrr (toggleWord pin odr) port).odr.getLsbD i =
      if pin.getLsbD i then !odr.getLsbD i else port.odr.getLsbD i := by
  have hpin : pin.getLsbD (i + 16) = false := BitVec.getLsbD_of_ge _ _ (Nat.le_add_left 16 i)
  have hset : (toggleWord pin odr).getLsbD i = (pin.getLsbD i && !odr.getLsbD i) := by
    simp only [toggleWord, BitVec.getLsbD_or, BitVec.getLsbD_and, BitVec.getLsbD_not,
      BitVec.getLsbD_shiftLeft, getLsbD_setWidth_pin, decide_eq_true hi,
      decide_eq_true (by omega : i < 32), Bool.not_true, Bool.false_and, Bool.false_or,
      Bool.true_and, Bool.and_comm]
  have hreset : (toggleWord pin odr).getLsbD (i + 16) = (pin.getLsbD i && odr.getLsbD i) := by
    simp only [toggleWord, BitVec.getLsbD_or, BitVec.getLsbD_and, BitVec.getLsbD_not,
      BitVec.getLsbD_shiftLeft, getLsbD_setWidth_pin, Nat.add_sub_cancel, hpin,
      decide_eq_true (by omega : i + 16 < 32), decide_eq_false (by omega : ¬i + 16 < 16),
      Bool.not_false, Bool.and_false, Bool.or_false, Bool.true_and]
    exact Bool.and_comm _ _
  rw [getLsbD_writeBsrr _ _ hi, hset, hreset]
  cases pin.getLsbD i <;> cases odr.getLsbD i <;> simp

theorem getLsbD_three (i : ℕ) : (3#32).getLsbD i = decide (i < 2) := by
  by_cases hi : i < 2
  · interval_cases i <;> rfl
  · rw [decide_eq_false hi, BitVec.getLsbD, BitVec.toNat_ofNat]
    exact Nat.testBit_lt_two_pow (lt_of_lt_of_le (by decide)
      (Nat.pow_le_pow_right (by decide) (Nat.le_of_not_lt hi) : 2 ^ 2 ≤ 2 ^ i))

theorem and_one_shiftLeft_ne_zero (pin : BitVec 32) (position : ℕ) :
    pin &&& 1#32 <<< position ≠ 0 ↔ pin.getLsbD position = true := by
  have hone : 1#32 <<< position = BitVec.twoPow 32 position := rfl
  rw [hone, BitVec.and_twoPow]
  constructor
  · intro h
    by_contra hbit
    exact h (if_neg hbit)
  · intro hbit h
    rw [if_pos hbit] at h
    have hlt : position < 32 := BitVec.lt_of_getLsbD hbit
    have hzero := congrArg (fun word ↦ word.getLsbD position) h
    simp only [BitVec.getLsbD_twoPow, hlt] at hzero
    simp at hzero

/-- A turn configures the mode of its pin only, and no level. -/
theorem configurePin_spec (init : GpioInit) (pin : BitVec 32) (position : ℕ) (port : Gpio) :
    (configurePin init pin position port).odr = port.odr ∧
      ∀ i < 32, (configurePin init pin position port).moder.getLsbD i =
        if i / 2 = position ∧ pin.getLsbD position = true then init.mode.getLsbD (i % 2)
        else port.moder.getLsbD i := by
  have hmoder (i : ℕ) (hi : i < 32) :
      (replace port.moder (3#32 <<< (position * 2))
        ((init.mode &&& GPIO_MODE) <<< (position * 2))).getLsbD i =
          if i / 2 = position then init.mode.getLsbD (i % 2) else port.moder.getLsbD i := by
    have hmask (k : ℕ) : GPIO_MODE.getLsbD k = decide (k < 2) := getLsbD_three k
    rw [getLsbD_replace, BitVec.getLsbD_shiftLeft, BitVec.getLsbD_shiftLeft, BitVec.getLsbD_and,
      hmask,
      getLsbD_three, decide_eq_true hi, Bool.true_and]
    by_cases hp : i / 2 = position
    · have hle : ¬i < position * 2 := by omega
      have hlt : i - position * 2 < 2 := by omega
      have hmod : i - position * 2 = i % 2 := by omega
      rw [if_pos hp, decide_eq_false hle, decide_eq_true hlt, hmod]
      simp
    · rw [if_neg hp]
      by_cases hlt : i < position * 2
      · rw [decide_eq_true hlt]
        simp
      · rw [decide_eq_false (by omega : ¬i - position * 2 < 2)]
        simp
  unfold configurePin
  by_cases hpin : pin.getLsbD position = true
  · rw [if_pos ((and_one_shiftLeft_ne_zero pin position).2 hpin)]
    simp only [hpin, and_true]
    split_ifs <;> exact ⟨rfl, hmoder⟩
  · rw [if_neg (mt (and_one_shiftLeft_ne_zero pin position).1 hpin)]
    exact ⟨rfl, fun i _ ↦ (if_neg fun h ↦ hpin h.2).symm⟩

/-- The port before a turn of the loop. -/
def configured (init : GpioInit) (pin : BitVec 32) (port : Gpio) (position : ℕ) : Gpio :=
  (List.range position).foldl (fun port position ↦ configurePin init pin position port) port

theorem configured_succ (init : GpioInit) (pin : BitVec 32) (port : Gpio) (position : ℕ) :
    configured init pin port (position + 1) =
      configurePin init pin position (configured init pin port position) := by
  rw [configured, List.range_succ, List.foldl_append]
  rfl

/-- Before a turn the pins of smaller number are configured. -/
theorem configured_spec (init : GpioInit) (pin : BitVec 32) (port : Gpio) (position : ℕ) :
    (configured init pin port position).odr = port.odr ∧
      ∀ i < 32, (configured init pin port position).moder.getLsbD i =
        if i / 2 < position ∧ pin.getLsbD (i / 2) = true then init.mode.getLsbD (i % 2)
        else port.moder.getLsbD i := by
  induction position with
  | zero => exact ⟨rfl, fun i _ ↦ (if_neg fun h ↦ absurd h.1 (Nat.not_lt_zero _)).symm⟩
  | succ position ih =>
    obtain ⟨hodr, hmoder⟩ := configurePin_spec init pin position (configured init pin port position)
    rw [configured_succ]
    refine ⟨hodr.trans ih.1, fun i hi ↦ ?_⟩
    rw [hmoder i hi, ih.2 i hi]
    by_cases hp : i / 2 = position
    · simp [hp]
    · have hlt : i / 2 < position + 1 ↔ i / 2 < position := by omega
      simp only [hp, false_and, if_false, hlt]

/-- The mode of the pins is configured, and no level or other pin's mode changes. -/
theorem halGpioInit_spec (init : GpioInit) (pin : BitVec 32) (port : Gpio) :
    ∃ after, halGpioInit init pin port = some after ∧ after.odr = port.odr ∧
      ∀ i < 32, after.moder.getLsbD i =
        if pin.getLsbD (i / 2) = true then init.mode.getLsbD (i % 2)
        else port.moder.getLsbD i := by
  have hzero (position : ℕ) : pin >>> position = 0 ↔ pin.toNat < 2 ^ position := by
    rw [← BitVec.toNat_inj, BitVec.toNat_ushiftRight, Nat.shiftRight_eq_div_pow]
    exact Nat.div_eq_zero_iff_lt (by positivity)
  have hsize : pin.toNat.size ≤ 32 := Nat.size_le.2 pin.isLt
  obtain ⟨hodr, hmoder⟩ := configured_spec init pin port pin.toNat.size
  refine ⟨configured init pin port pin.toNat.size, ?_, hodr, fun i hi ↦ ?_⟩
  · refine congrArg (Option.map Prod.fst)
      (loop_of_trace (fun k ↦ (configured init pin port k, k)) ?_ ?_ ?_ (Nat.lt_succ_of_le hsize))
    · intro k hk
      exact decide_eq_true (mt (hzero k).1 (Nat.not_lt.2 (Nat.lt_size.1 hk)))
    · intro k _
      exact congrArg (fun port ↦ (port, k + 1)) (configured_succ init pin port k).symm
    · exact decide_eq_false (not_not.2 ((hzero _).2 (Nat.lt_size_self _)))
  · rw [hmoder i hi]
    have hlt (h : pin.getLsbD (i / 2) = true) : i / 2 < pin.toNat.size :=
      Nat.lt_size.2 (Nat.ge_two_pow_of_testBit h)
    congr 1
    exact propext ⟨And.right, fun h ↦ ⟨hlt h, h⟩⟩

/-- A pin that the list names. -/
def Named (infos : List (GpioPort × BitVec 16)) (port : GpioPort) (position : ℕ) : Prop :=
  ∃ info ∈ infos, info.1 = port ∧ info.2.getLsbD position = true

/-- Named pins become outputs that are high, and other pins keep level and mode. -/
structure Prepared (infos : List (GpioPort × BitVec 16)) (before after : Ports) : Prop where
  odr : ∀ port, ∀ i < 16, (after port).odr.getLsbD i = true ↔
    Named infos port i ∨ (before port).odr.getLsbD i = true
  moder : ∀ port, ∀ i < 32, (after port).moder.getLsbD i = true ↔
    Named infos port (i / 2) ∧ i % 2 = 0 ∨
      ¬Named infos port (i / 2) ∧ (before port).moder.getLsbD i = true

theorem getLsbD_output (i : ℕ) : GPIO_MODE_OUTPUT_PP.getLsbD (i % 2) = decide (i % 2 = 0) := by
  rcases Nat.mod_two_eq_zero_or_one i with h | h <;> rw [h] <;> rfl

theorem initLed_spec (info : GpioPort × BitVec 16) (ports : Ports) :
    ∃ after, initLed ports info = some after ∧ Prepared [info] ports after := by
  obtain ⟨port, hport, hodr, hmoder⟩ := halGpioInit_spec ⟨GPIO_MODE_OUTPUT_PP, 0, 0⟩
    (info.2.setWidth 32) (halGpioWritePin info.2 .set (ports info.1))
  refine ⟨Function.update ports info.1 port, by rw [initLed, hport]; rfl, ?_, ?_⟩
  · intro q i hi
    by_cases hq : info.1 = q
    · subst hq
      rw [Function.update_self, hodr, getLsbD_halGpioWritePin _ _ _ hi]
      cases h : info.2.getLsbD i <;> simp [Named, h]
    · rw [Function.update_of_ne (Ne.symm hq)]
      simp [Named, hq]
  · intro q i hi
    by_cases hq : info.1 = q
    · subst hq
      have hsame : (halGpioWritePin info.2 .set (ports info.1)).moder = (ports info.1).moder := rfl
      rw [Function.update_self, hmoder i hi, getLsbD_setWidth_pin, getLsbD_output, hsame]
      cases h : info.2.getLsbD (i / 2) <;> simp [Named, h]
    · rw [Function.update_of_ne (Ne.symm hq)]
      simp [Named, hq]

theorem named_cons (info : GpioPort × BitVec 16) (infos : List (GpioPort × BitVec 16))
    (port : GpioPort) (i : ℕ) :
    Named (info :: infos) port i ↔ Named [info] port i ∨ Named infos port i := by
  simp [Named]

theorem initLeds_spec (infos : List (GpioPort × BitVec 16)) (ports : Ports) :
    ∃ after, infos.foldlM initLed ports = some after ∧ Prepared infos ports after := by
  induction infos generalizing ports with
  | nil => exact ⟨ports, rfl, by simp [Named], by simp [Named]⟩
  | cons info infos ih =>
    obtain ⟨middle, hmiddle, hfirst⟩ := initLed_spec info ports
    obtain ⟨after, hafter, hrest⟩ := ih middle
    refine ⟨after, ?_, ?_, ?_⟩
    · rw [List.foldlM_cons, hmiddle]
      exact hafter
    · intro port i hi
      rw [hrest.odr port i hi, hfirst.odr port i hi, named_cons info infos]
      tauto
    · intro port i hi
      rw [hrest.moder port i hi, hfirst.moder port i hi, named_cons info infos]
      tauto

theorem named_ledInfoList (port : GpioPort) (i : ℕ) :
    Named ledInfoList port i ↔ IsLamp port i := by
  constructor
  · rintro ⟨info, hinfo, rfl, hbit⟩
    obtain ⟨led, rfl⟩ : ∃ led : BspLedInst, info = (led.port, led.pin) := by
      simp only [ledInfoList, List.mem_cons, List.not_mem_nil, or_false] at hinfo
      rcases hinfo with rfl | rfl | rfl
      exacts [⟨.blue, rfl⟩, ⟨.red, rfl⟩, ⟨.yellow, rfl⟩]
    exact ⟨led, rfl, of_decide_eq_true ((led.getLsbD_pin i).symm.trans hbit)⟩
  · rintro ⟨led, rfl, rfl⟩
    exact ⟨(led.port, led.pin), List.mem_of_getElem? led.ledInfoList_index, rfl,
      (led.getLsbD_pin _).trans (decide_eq_true rfl)⟩

/-! ## One event -/

/-- The levels and modes of the pins are those that the lamps stand for. -/
structure Tracks (state : State T) (abstract : Lamps T) : Prop where
  lamp : ∀ led : BspLedInst,
    (state.ports led.port).odr.getLsbD led.position = !abstract.lamp led
  ready : ∀ led : BspLedInst,
    field (state.ports led.port).moder (2 * led.position) 2 = 1 ↔ abstract.ready = true
  pins : ∀ port, ∀ i < 16, ¬IsLamp port i →
    (state.ports port).odr.getLsbD i = abstract.pins port i
  seen : ∀ thread led found, abstract.seen thread = some (led, found) →
    (state.odr thread).getLsbD led.position = !found

section Tracks

variable {state : State T} {abstract : Lamps T} (tracks : Tracks state abstract)

include tracks

/-- The pin of one lamp changes. -/
theorem Tracks.set (led : BspLedInst) (lit : Bool) (port : Gpio)
    (hodr : ∀ i < 16, port.odr.getLsbD i =
      if led.position = i then !lit else (state.ports led.port).odr.getLsbD i)
    (hmoder : port.moder = (state.ports led.port).moder) :
    Tracks { state with ports := Function.update state.ports led.port port }
      { abstract with lamp := Function.update abstract.lamp led lit } := by
  refine ⟨fun other ↦ ?_, fun other ↦ ?_, fun q i hi hother ↦ ?_, tracks.seen⟩
  · by_cases hled : other = led
    · subst hled
      simp only [Function.update_self]
      rw [hodr _ other.position_lt, if_pos rfl]
    · have hport : other.port ≠ led.port := fun h ↦ hled (BspLedInst.port_injective h)
      simp only [Function.update_of_ne hled, Function.update_of_ne hport]
      exact tracks.lamp other
  · rw [← tracks.ready other]
    by_cases hport : other.port = led.port
    · simp only [hport, Function.update_self, hmoder]
    · simp only [Function.update_of_ne hport]
  · rw [← tracks.pins q i hi hother]
    by_cases hport : q = led.port
    · subst hport
      simp only [Function.update_self]
      rw [hodr i hi, if_neg fun h ↦ hother ⟨led, rfl, h⟩]
    · simp only [Function.update_of_ne hport]

theorem Tracks.writePin (led : BspLedInst) (pinState : GpioPinState) :
    Tracks { state with
        ports := Function.update state.ports led.port
          (halGpioWritePin led.pin pinState (state.ports led.port)) }
      { abstract with lamp := Function.update abstract.lamp led (decide (pinState = .reset)) } := by
  refine tracks.set led _ _ (fun i hi ↦ ?_) (by cases pinState <;> rfl)
  rw [getLsbD_halGpioWritePin _ _ _ hi, led.getLsbD_pin]
  cases pinState <;> simp

/-- The write of a toggle leaves the opposite of what its read has found. -/
theorem Tracks.toggleWrite {thread : T} {led : BspLedInst} {found : Bool}
    (hseen : abstract.seen thread = some (led, found)) :
    Tracks { state with
        ports := Function.update state.ports led.port
          (writeBsrr (toggleWord led.pin (state.odr thread)) (state.ports led.port)) }
      { abstract with lamp := Function.update abstract.lamp led (!found) } := by
  refine tracks.set led _ _ (fun i hi ↦ ?_) rfl
  rw [getLsbD_toggleWord _ _ _ hi, led.getLsbD_pin]
  by_cases h : led.position = i
  · rw [decide_eq_true h, if_pos rfl, if_pos h, ← h, tracks.seen thread led found hseen]
  · rw [decide_eq_false h, if_neg Bool.false_ne_true, if_neg h]

theorem Tracks.toggleRead [DecidableEq T] (thread : T) (led : BspLedInst) :
    Tracks { state with odr := Function.update state.odr thread (state.ports led.port).odr }
      { abstract with
        seen := Function.update abstract.seen thread (some (led, abstract.lamp led)) } := by
  refine ⟨tracks.lamp, tracks.ready, tracks.pins, fun other read found hfound ↦ ?_⟩
  by_cases h : other = thread
  · subst h
    simp only [Function.update_self, Option.some.injEq, Prod.mk.injEq] at hfound ⊢
    obtain ⟨rfl, rfl⟩ := hfound
    exact tracks.lamp led
  · simp only [Function.update_of_ne h] at hfound ⊢
    exact tracks.seen other read found hfound

/-- Other code configures other pins. -/
theorem Tracks.configure {port : GpioPort} {init : GpioInit} {pin : BitVec 16}
    (hpin : ∀ i, pin.getLsbD i = true → ¬IsLamp port i) :
    ∃ configured, halGpioInit init (pin.setWidth 32) (state.ports port) = some configured ∧
      Tracks { state with ports := Function.update state.ports port configured } abstract := by
  obtain ⟨configured, hconfigured, hodr, hmoder⟩ :=
    halGpioInit_spec init (pin.setWidth 32) (state.ports port)
  have hlevels (q : GpioPort) :
      (Function.update state.ports port configured q).odr = (state.ports q).odr := by
    by_cases hq : q = port
    · rw [hq, Function.update_self, hodr]
    · rw [Function.update_of_ne hq]
  refine ⟨configured, hconfigured, fun led ↦ ?_, fun led ↦ ?_, fun q i hi hother ↦ ?_, tracks.seen⟩
  · rw [hlevels]
    exact tracks.lamp led
  · rw [← tracks.ready led]
    by_cases hled : led.port = port
    · have hlt := led.position_lt
      have hnot : pin.getLsbD led.position = false :=
        Bool.eq_false_iff.2 fun h ↦ hpin _ h ⟨led, hled, rfl⟩
      have hkept (i : ℕ) (hi : i / 2 = led.position) :
          configured.moder.getLsbD i = (state.ports port).moder.getLsbD i := by
        rw [hmoder i (by omega), hi, getLsbD_setWidth_pin, hnot, if_neg Bool.false_ne_true]
      simp only [hled, Function.update_self]
      rw [field_two_iff, field_two_iff, hkept _ (by omega), hkept _ (by omega)]
    · simp only [Function.update_of_ne hled]
  · rw [hlevels]
    exact tracks.pins q i hi hother

/-- Other code sets and resets other pins. -/
theorem Tracks.write {port : GpioPort} {word : BitVec 32}
    (hword : ∀ i < 16, word.getLsbD i = true ∨ word.getLsbD (i + 16) = true → ¬IsLamp port i) :
    Tracks { state with
        ports := Function.update state.ports port (writeBsrr word (state.ports port)) }
      { abstract with
        pins := Function.update abstract.pins port fun i ↦
          word.getLsbD i || abstract.pins port i && !word.getLsbD (i + 16) } := by
  refine ⟨fun led ↦ ?_, fun led ↦ ?_, fun q i hi hother ↦ ?_, tracks.seen⟩
  · rw [← tracks.lamp led]
    by_cases hled : led.port = port
    · have hnot := mt (hword led.position led.position_lt) (not_not.2 ⟨led, hled, rfl⟩)
      rw [not_or, Bool.not_eq_true, Bool.not_eq_true] at hnot
      simp only [hled, Function.update_self]
      rw [getLsbD_writeBsrr _ _ led.position_lt, hnot.1, hnot.2, Bool.false_or, Bool.not_false,
        Bool.and_true]
    · simp only [Function.update_of_ne hled]
  · rw [← tracks.ready led]
    by_cases hled : led.port = port
    · simp only [hled, Function.update_self]
      rfl
    · simp only [Function.update_of_ne hled]
  · by_cases hq : q = port
    · subst hq
      simp only [Function.update_self]
      rw [getLsbD_writeBsrr _ _ hi, tracks.pins q i hi hother]
    · simp only [Function.update_of_ne hq]
      exact tracks.pins q i hi hother

theorem Tracks.init :
    ∃ ports, bspLedInit state.ports = some ports ∧
      Tracks { state with ports } { abstract with ready := true, lamp := fun _ ↦ false } := by
  obtain ⟨ports, hports, hprepared⟩ := initLeds_spec ledInfoList state.ports
  have hlamp (led : BspLedInst) : Named ledInfoList led.port led.position :=
    (named_ledInfoList _ _).2 ⟨led, rfl, rfl⟩
  refine ⟨ports, hports, fun led ↦ ?_, fun led ↦ ?_, fun q i hi hother ↦ ?_, tracks.seen⟩
  · exact (hprepared.odr _ _ led.position_lt).2 (.inl (hlamp led))
  · have hlt := led.position_lt
    have heven : 2 * led.position / 2 = led.position := by omega
    have hodd : (2 * led.position + 1) / 2 = led.position := by omega
    rw [field_two_iff, ← Bool.not_eq_true, hprepared.moder _ _ (by omega : 2 * led.position < 32),
      hprepared.moder _ _ (by omega : 2 * led.position + 1 < 32), heven, hodd]
    simp [hlamp led]
  · rw [← tracks.pins q i hi hother, Bool.eq_iff_iff, hprepared.odr q i hi, named_ledInfoList]
    simp [hother]

/-- A lamp is lit when it is ready and on. -/
theorem Tracks.lit_iff (led : BspLedInst) :
    decide (Lit state.ports led) = (abstract.ready && abstract.lamp led) := by
  rw [Bool.eq_iff_iff, decide_eq_true_iff, Lit, tracks.ready led, tracks.lamp led, Bool.and_eq_true,
    Bool.not_eq_false']

end Tracks

/-! ## Runs -/

/-- The lamps that the levels at the start stand for. -/
def Lamps.atStart (start : State T) : Lamps T where
  ready := false
  lamp led := !(start.ports led.port).odr.getLsbD led.position
  pins port i := (start.ports port).odr.getLsbD i
  seen _ := none

/-- Threads that interrupt each other between the read and the write of a toggle leave every lamp
and every other pin as the lamps are meant, when no pin of a lamp is an output at the start. -/
theorem run_lamps [DecidableEq T] {start : State T}
    (hstart : ∀ led : BspLedInst, field (start.ports led.port).moder (2 * led.position) 2 ≠ 1)
    {events : List (Event T)} (meant : (lamps T).MeantRun (.atStart start) events) :
    ∃ final, run step start events = some (final, (lamps T).answers (.atStart start) events) ∧
      Tracks final ((lamps T).after (.atStart start) events) := by
  have tracks : Tracks start (.atStart start) :=
    ⟨fun _ ↦ (Bool.not_not _).symm, fun led ↦ iff_of_false (hstart led) Bool.false_ne_true,
      fun _ _ _ _ ↦ rfl, fun _ _ _ h ↦ absurd h (Option.some_ne_none _).symm⟩
  refine run_of_simulates (lamps T) step (fun state abstract _ ↦ Tracks state abstract) ?_ tracks
    meant
  rintro state abstract event - tracks meant
  cases event with
  | init =>
    obtain ⟨ports, hports, hafter⟩ := tracks.init
    exact ⟨{ state with ports }, by rw [step, hports]; rfl, hafter⟩
  | on led => exact ⟨_, rfl, tracks.writePin led .reset⟩
  | off led => exact ⟨_, rfl, tracks.writePin led .set⟩
  | toggleRead thread led => exact ⟨_, rfl, tracks.toggleRead thread led⟩
  | toggleWrite thread led =>
    obtain ⟨found, hseen⟩ := meant
    refine ⟨_, rfl, ?_⟩
    have hafter := tracks.toggleWrite hseen
    simp only [lamps, hseen, Option.map_some, Option.getD_some]
    exact hafter
  | configure port init pin =>
    obtain ⟨configured, hconfigured, hafter⟩ := tracks.configure meant
    exact ⟨_, by rw [step, hconfigured]; rfl, hafter⟩
  | write port word => exact ⟨_, rfl, tracks.write meant⟩
  | look led => exact ⟨state, by rw [step, tracks.lit_iff led]; rfl, tracks⟩
  | sample port i => exact ⟨state, by rw [step, tracks.pins port i meant.1 meant.2]; rfl, tracks⟩

/-- Two threads toggle the red lamp at once, while the yellow one is lit and pin 1 of the red
lamp's port is set. -/
theorem run_lamps_twoThreads :
    let start : State Bool := ⟨fun _ ↦ ⟨0xFFFFFFFF, 0, 0, 0, 0⟩, fun _ ↦ 0⟩
    let events : List (Event Bool) :=
      [.look .red, .init, .toggleRead true .red, .toggleRead false .red, .on .yellow,
        .write .A 0x2, .toggleWrite false .red, .toggleWrite true .red, .look .red, .look .yellow,
        .look .blue, .sample .A 1]
    ∃ final, run step start events = some (final,
      [some false, none, none, none, none, none, none, none, some true, some true, some false,
        some true]) := by
  intro start events
  have hstart (led : BspLedInst) :
      field (start.ports led.port).moder (2 * led.position) 2 ≠ 1 := by
    cases led <;> decide
  have hword : ∀ i < 16, (0x2 : BitVec 32).getLsbD i = true ∨
      (0x2 : BitVec 32).getLsbD (i + 16) = true → ¬IsLamp .A i := by
    have hlamp (i : ℕ) : IsLamp .A i → i = 11 := by
      rintro ⟨_ | _ | _, h, rfl⟩
      exacts [absurd h (by decide), rfl, absurd h (by decide)]
    intro i _ hbit h
    rw [hlamp i h] at hbit
    exact absurd hbit (by decide)
  have hsample : ¬IsLamp .A 1 := by
    rintro ⟨_ | _ | _, h, h'⟩ <;> exact absurd h' (by decide)
  obtain ⟨final, hrun, -⟩ := run_lamps hstart
    (show (lamps Bool).MeantRun (.atStart start) events from
      ⟨trivial, trivial, trivial, trivial, trivial, hword, ⟨false, rfl⟩, ⟨false, rfl⟩, trivial,
        trivial, trivial, ⟨by decide, hsample⟩, trivial⟩)
  exact ⟨final, hrun⟩

end Vodka.Bsp.Led

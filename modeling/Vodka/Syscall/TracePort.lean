import Mathlib.Tactic
import Vodka.Bsp.Debug
import Vodka.Foundation.Simulation

/-!
# Text on the trace port

`_write` and the report of the SDRAM test send every character through
`ITM_SendChar` on stimulus port 1, which drops it unless the trace macrocell and
the port are enabled. `bsp_debug_init` enables the macrocell and port 0. What a
reader of the trace receives therefore depends on the bit of port 1 as a debugger
left it, before the start or between the calls, while every call reports the full
count. A stimulus port that is busy becomes ready again.
-/

namespace Vodka.Syscall.TracePort

open Bsp.Debug Foundation.Simulation

def EBADF : ℤ := 9

def ITM_TER : BitVec 32 := 0xE0000E00

def ITM_TCR : BitVec 32 := 0xE0000E80

abbrev Registers := BitVec 32 → BitVec 32

/-- What an access of the debug initialisation does to the registers. -/
def perform : Access → Registers → Registers
  | .setBit register bits, registers =>
    Function.update registers register (registers register ||| bits)
  | .write register value, registers => Function.update registers register value
  | .writeDouble register value, registers =>
    Function.update (Function.update registers register (value.setWidth 32)) (register + 4)
      (value.extractLsb' 32 32)
  | .halGpioInit, registers => registers

/-- The registers after accesses, the newest of which comes first. -/
def registersAfter (registers : Registers) (accesses : List Access) : Registers :=
  accesses.foldr perform registers

/-- The values that reads of a stimulus port return, zero while its buffer is full. -/
structure Fifo where
  reads : ℕ → BitVec 32
  drains : ∀ n, ∃ m, n ≤ m ∧ reads m ≠ 0

/-- The registers, the number of reads of a stimulus port so far, and the characters sent with
their ports, oldest first. -/
structure Console where
  registers : Registers
  polled : ℕ
  sent : List (BitVec 32 × UInt8)
  errno : ℤ

/-- The macrocell and the port are enabled. -/
def Enabled (registers : Registers) (port : BitVec 32) : Prop :=
  registers ITM_TCR &&& 1 ≠ 0 ∧ registers ITM_TER &&& (1#32 <<< port) ≠ 0

instance (registers : Registers) (port : BitVec 32) : Decidable (Enabled registers port) :=
  inferInstanceAs (Decidable (_ ∧ _))

def itmSendChar (fifo : Fifo) (ch : UInt8) (port : BitVec 32) (console : Console) : Console :=
  if Enabled console.registers port then
    { console with
      polled := Nat.find (fifo.drains console.polled) + 1
      sent := console.sent ++ [(port, ch)] }
  else console

/-- The loops over the characters in `_write` and in `print`. -/
def sendAll (fifo : Fifo) (chars : List UInt8) (port : BitVec 32) (console : Console) : Console :=
  chars.foldl (fun console ch ↦ itmSendChar fifo ch port console) console

/-- `fd_to_itm_instance` -/
def fdToItmInstance : List (BitVec 32) := [1, 1, 1]

/-- `_write` of the bytes at `buf`, which is none for NULL. The count is unsigned, so its
comparison with zero never holds; a descriptor behind the table has no defined result. -/
def write (fifo : Fifo) (fd : ℤ) (buf : Option (List UInt8)) (console : Console) :
    Option (Console × ℤ) :=
  match buf with
  | none => some ({ console with errno := EBADF }, -1)
  | some chars =>
    if fd < 0 then some ({ console with errno := EBADF }, -1)
    else if chars.length = 0 then some (console, 0)
    else fdToItmInstance[fd.toNat]?.map fun port ↦
      (sendAll fifo chars port console, (BitVec.ofNat 32 chars.length).toInt)

/-- `print` of `bsp_sdram.c` for the characters up to the terminator. -/
def print (fifo : Fifo) (str : List UInt8) (console : Console) : Console :=
  sendAll fifo (str.takeWhile (· ≠ 0)) 1 console

/-- A call of the program, or a debugger that sets both registers. -/
inductive Event
  | write (fd : ℤ) (buf : Option (List UInt8))
  | print (str : List UInt8)
  | debugger (tcr ter : BitVec 32)

def step (fifo : Fifo) (console : Console) : Event → Option (Console × ℤ)
  | .write fd buf => write fifo fd buf console
  | .print str => some (print fifo str console, 0)
  | .debugger tcr ter =>
    some ({ console with
      registers := Function.update (Function.update console.registers ITM_TCR tcr) ITM_TER ter }, 0)

/-- The console behind `bsp_debug_init`, on the registers that were there before. -/
def booted (tables : RomTables) (hclkFreq : BitVec 32) (registers : Registers) : Console where
  registers := registersAfter registers (bspDebugInit tables hclkFreq reset).1.accesses
  polled := 0
  sent := []
  errno := 0

/-- A reader of the trace: whether it gets the text written now, and the text so far. -/
structure Reader where
  listening : Bool
  text : List UInt8

def Reader.receive (reader : Reader) (chars : List UInt8) : Reader :=
  if reader.listening then { reader with text := reader.text ++ chars } else reader

/-- Text goes to one of the three standard streams and is counted in full. -/
def trace : Purpose Reader Event ℤ where
  Meant
    | _, .write fd buf =>
      (0 ≤ fd ∧ fd < 3) ∧ ∃ chars, buf = some chars ∧ chars.length < 2 ^ 31
    | _, .print _ => True
    | _, .debugger _ _ => True
  next
    | reader, .write _ buf => reader.receive (buf.getD [])
    | reader, .print str => reader.receive (str.takeWhile (· ≠ 0))
    | reader, .debugger tcr ter =>
      { reader with listening := tcr.getLsbD 0 && ter.getLsbD 1 }
  answer
    | _, .write _ buf => (buf.getD []).length
    | _, .print _ => 0
    | _, .debugger _ _ => 0

/-- The console has sent the reader's text on port 1 and nothing else. -/
structure Shows (console : Console) (reader : Reader) : Prop where
  enabled_iff : Enabled console.registers 1 ↔ reader.listening = true
  sent_eq : console.sent = reader.text.map (Prod.mk 1)

theorem and_shift_ne_zero_iff (word : BitVec 32) {bit : ℕ} (hbit : bit < 32) :
    word &&& BitVec.twoPow 32 bit ≠ 0 ↔ word.getLsbD bit = true := by
  have hne : BitVec.twoPow 32 bit ≠ 0 := by
    intro h
    have hset := congrArg (fun word ↦ word.getLsbD bit) h
    simp [hbit] at hset
  rw [BitVec.and_twoPow]
  cases word.getLsbD bit with
  | true => simpa using hne
  | false => simp

/-- Port 1 takes characters when bit 0 of the one register and bit 1 of the other are set. -/
theorem enabled_iff (registers : Registers) :
    Enabled registers 1 ↔
      (registers ITM_TCR).getLsbD 0 = true ∧ (registers ITM_TER).getLsbD 1 = true := by
  rw [← and_shift_ne_zero_iff _ (show 0 < 32 by decide),
    ← and_shift_ne_zero_iff _ (show 1 < 32 by decide)]
  rfl

section Send

variable (fifo : Fifo) {console : Console} {reader : Reader}

/-- One character reaches the reader that is listening. -/
theorem shows_itmSendChar (h : Shows console reader) (ch : UInt8) :
    Shows (itmSendChar fifo ch 1 console) (reader.receive [ch]) := by
  by_cases hlistening : reader.listening = true
  · have henabled := h.enabled_iff.mpr hlistening
    rw [itmSendChar, if_pos henabled, Reader.receive, if_pos hlistening]
    exact ⟨h.enabled_iff, by simp [h.sent_eq]⟩
  · have hdisabled := mt h.enabled_iff.mp hlistening
    rw [itmSendChar, if_neg hdisabled, Reader.receive, if_neg hlistening]
    exact h

theorem receive_cons (reader : Reader) (ch : UInt8) (chars : List UInt8) :
    (reader.receive [ch]).receive chars = reader.receive (ch :: chars) := by
  obtain ⟨listening, text⟩ := reader
  cases listening <;> simp [Reader.receive]

theorem receive_nil (reader : Reader) : reader.receive [] = reader := by
  obtain ⟨listening, text⟩ := reader
  cases listening <;> simp [Reader.receive]

theorem shows_sendAll (h : Shows console reader) (chars : List UInt8) :
    Shows (sendAll fifo chars 1 console) (reader.receive chars) := by
  induction chars generalizing console reader with
  | nil => rwa [receive_nil]
  | cons ch chars ih =>
    rw [← receive_cons]
    exact ih (shows_itmSendChar fifo h ch)

/-- A write to a standard stream is one to port 1, and it counts every character. -/
theorem write_of_stream {fd : ℤ} (hfd : 0 ≤ fd ∧ fd < 3) {chars : List UInt8}
    (hlength : chars.length < 2 ^ 31) (console : Console) :
    write fifo fd (some chars) console =
      some (sendAll fifo chars 1 console, (chars.length : ℤ)) := by
  have hport : fdToItmInstance[fd.toNat]? = some 1 := by
    obtain ⟨hlow, hhigh⟩ := hfd
    interval_cases fd <;> rfl
  have hcount : (BitVec.ofNat 32 chars.length).toInt = chars.length := by
    rw [BitVec.toInt_eq_toNat_of_lt] <;> rw [BitVec.toNat_ofNat, Nat.mod_eq_of_lt (by omega)]
    omega
  unfold write
  simp only [if_neg (not_lt.mpr hfd.1)]
  split_ifs with hempty
  · obtain rfl := List.length_eq_zero_iff.mp hempty
    rfl
  · rw [hport, Option.map_some, hcount]

/-- A meant event returns, answers for all characters and keeps the console and the reader
together. -/
theorem step_of_meant (h : Shows console reader) {event : Event}
    (hmeant : trace.Meant reader event) :
    ∃ next, step fifo console event = some (next, trace.answer reader event) ∧
      Shows next (trace.next reader event) := by
  cases event with
  | write fd buf =>
    obtain ⟨hfd, chars, rfl, hlength⟩ := hmeant
    exact ⟨_, write_of_stream fifo hfd hlength console, shows_sendAll fifo h chars⟩
  | print str => exact ⟨_, rfl, shows_sendAll fifo h _⟩
  | debugger tcr ter =>
    refine ⟨_, rfl, ?_, h.sent_eq⟩
    rw [enabled_iff]
    simp [trace, ITM_TCR, ITM_TER]

end Send

/-! ## The start -/

/-- Pointers to debug components are aligned to pages. -/
theorem toNat_prepared_mod (base entry : BitVec 32) (hbase : base.toNat % 4096 = 0) :
    (romEntAddroff entry + base).toNat % 4096 = 0 := by
  have hoffset : (romEntAddroff entry).toNat % 4096 = 0 := by
    rw [romEntAddroff, BitVec.toNat_and, ← Nat.and_two_pow_sub_one_eq_mod _ 12, Nat.and_assoc]
    exact Nat.and_zero _
  rw [BitVec.toNat_add]
  omega

/-- Starting the timestamp generator writes registers at the start of its page only. -/
theorem registersAfter_tsgStart (registers : Registers) (hclkFreq : BitVec 32) (value : BitVec 64)
    {state : State} (haligned : state.tsg.toNat % 4096 = 0) {register : BitVec 32}
    (hregister : 0x24 ≤ register.toNat % 4096) :
    registersAfter registers (bspDebugTsgStart hclkFreq value state).1.accesses register =
      registersAfter registers state.accesses register := by
  have hne (offset : BitVec 32) (hoffset : offset.toNat < 0x24) :
      register ≠ state.tsg + offset := by
    intro h
    have hmod := congrArg (fun word : BitVec 32 ↦ word.toNat % 4096) h
    simp only [BitVec.toNat_add] at hmod
    omega
  have hbase : register ≠ state.tsg := by simpa using hne 0 (by decide)
  have hfid : register ≠ state.tsg + 0x20 := hne 0x20 (by decide)
  have hcv : register ≠ state.tsg + 0x08 := hne 0x08 (by decide)
  have hcvHigh : register ≠ state.tsg + 0x08 + 4 := by
    rw [BitVec.add_assoc]
    exact hne (0x08 + 4) (by decide)
  unfold bspDebugTsgStart
  split_ifs with htsg
  · rfl
  · simp only [record, registersAfter, List.foldr_cons, perform, Function.update_of_ne hbase,
      Function.update_of_ne hfid, Function.update_of_ne hcv, Function.update_of_ne hcvHigh]

/-- The state of the initialisation once the pointers are prepared. -/
def prepared (tables : RomTables) : State :=
  { [18, 17, 16].foldl (fun state bit ↦ record state (.setBit 0xE000ED24 (1#32 <<< bit))) reset with
    toPointers := preparePointers tables reset.toPointers }

theorem bspDebugInit_reset (tables : RomTables) (hclkFreq : BitVec 32) :
    (bspDebugInit tables hclkFreq reset).1 =
      (bspDebugTsgStart hclkFreq 0
        (if (prepared tables).swo ≠ 0 then bspDebugItmInit (prepared tables)
          else prepared tables)).1 := rfl

theorem swo_prepared (tables : RomTables) :
    (prepared tables).swo = romEntAddroff tables.sysRomTb1.swo + ROM_TB1_BASE := by
  rw [prepared, preparePointers_reset]

theorem tsg_prepared (tables : RomTables) :
    (prepared tables).tsg = romEntAddroff tables.sysRomTb1.tsg + ROM_TB1_BASE := by
  rw [prepared, preparePointers_reset]

/-- An access elsewhere leaves a register. -/
theorem registersAfter_prepared (tables : RomTables) (registers : Registers) {register : BitVec 32}
    (hregister : register ≠ 0xE000ED24) :
    registersAfter registers (prepared tables).accesses register = registers register := by
  simp only [prepared, reset, record, registersAfter, perform, List.foldl_cons, List.foldl_nil,
    List.foldr_cons, List.foldr_nil, Function.update_of_ne hregister]

theorem registersAfter_itmInit (registers : Registers) (state : State) :
    registersAfter registers (bspDebugItmInit state).accesses ITM_TCR =
        registersAfter registers state.accesses ITM_TCR ||| 1 ∧
      registersAfter registers (bspDebugItmInit state).accesses ITM_TER =
        registersAfter registers state.accesses ITM_TER ||| 1 := by
  simp [bspDebugItmInit, record, registersAfter, perform, ITM_TCR, ITM_TER]

/-- The start leaves port 1 as it was and enables the macrocell if it takes the output for
present. -/
theorem enabled_booted (tables : RomTables) (hclkFreq : BitVec 32) (registers : Registers) :
    Enabled (booted tables hclkFreq registers).registers 1 ↔
      ((registers ITM_TCR).getLsbD 0 = true ∨
          romEntAddroff tables.sysRomTb1.swo + ROM_TB1_BASE ≠ 0) ∧
        (registers ITM_TER).getLsbD 1 = true := by
  have htcr : 0x24 ≤ ITM_TCR.toNat % 4096 := by decide
  have hter : 0x24 ≤ ITM_TER.toNat % 4096 := by decide
  have hpage : (prepared tables).tsg.toNat % 4096 = 0 := by
    rw [tsg_prepared]
    exact toNat_prepared_mod _ _ (by decide)
  rw [enabled_iff, booted, bspDebugInit_reset, ← swo_prepared]
  dsimp only
  split_ifs with hswo
  · have haligned : (bspDebugItmInit (prepared tables)).tsg.toNat % 4096 = 0 := hpage
    rw [registersAfter_tsgStart _ _ _ haligned htcr, registersAfter_tsgStart _ _ _ haligned hter,
      (registersAfter_itmInit _ _).1, (registersAfter_itmInit _ _).2,
      registersAfter_prepared _ _ (by decide), registersAfter_prepared _ _ (by decide)]
    rw [iff_true_intro (show _ ∨ (prepared tables).swo ≠ 0 from .inr hswo), true_and]
    simp
  · rw [registersAfter_tsgStart _ _ _ hpage htcr, registersAfter_tsgStart _ _ _ hpage hter,
      registersAfter_prepared _ _ (by decide), registersAfter_prepared _ _ (by decide),
      or_iff_left hswo]

/-- Who reads the trace from the start on, and nothing has been written yet. -/
def firstReader (tables : RomTables) (registers : Registers) : Reader where
  listening :=
    ((registers ITM_TCR).getLsbD 0 ||
      decide (romEntAddroff tables.sysRomTb1.swo + ROM_TB1_BASE ≠ 0)) &&
      (registers ITM_TER).getLsbD 1
  text := []

theorem shows_booted (tables : RomTables) (hclkFreq : BitVec 32) (registers : Registers) :
    Shows (booted tables hclkFreq registers) (firstReader tables registers) := by
  refine ⟨?_, rfl⟩
  rw [enabled_booted]
  simp [firstReader]

/-- **Trace text.** Over any run of calls and debugger settings behind the start, every call
counts its text in full, and port 1 has carried exactly what was written while the debugger had
it enabled: bit 1 of `ITM_TER` is never set by the program. -/
theorem run_sent (fifo : Fifo) (tables : RomTables) (hclkFreq : BitVec 32) (registers : Registers)
    (events : List Event) (hmeant : trace.MeantRun (firstReader tables registers) events) :
    ∃ final, run (step fifo) (booted tables hclkFreq registers) events =
        some (final, trace.answers (firstReader tables registers) events) ∧
      final.sent =
        (trace.after (firstReader tables registers) events).text.map (Prod.mk 1) := by
  obtain ⟨final, hrun, hshows⟩ := run_of_simulates trace (step fifo)
    (fun console reader _ ↦ Shows console reader)
    (fun _ _ _ _ hshows hcall ↦ step_of_meant fifo hshows hcall)
    (shows_booted tables hclkFreq registers) hmeant
  exact ⟨final, hrun, hshows.sent_eq⟩

/-- A debugger that opens port 1 after the first of two writes gets the second. -/
theorem run_sent_opened :
    ∃ final, run (step ⟨fun _ ↦ 1, fun n ↦ ⟨n, le_rfl, by decide⟩⟩)
        (booted ⟨⟨0, 0, 0, 0⟩, ⟨0, 0, 0, 0⟩⟩ 0 fun _ ↦ 0)
        [.write 1 (some [104, 105]), .debugger 1 2, .write 2 (some [33])] =
        some (final, [2, 0, 1]) ∧
      final.sent = [(1, 33)] :=
  run_sent ⟨fun _ ↦ 1, fun n ↦ ⟨n, le_rfl, by decide⟩⟩ ⟨⟨0, 0, 0, 0⟩, ⟨0, 0, 0, 0⟩⟩ 0 (fun _ ↦ 0)
    [.write 1 (some [104, 105]), .debugger 1 2, .write 2 (some [33])]
    ⟨⟨by decide, [104, 105], rfl, by decide⟩, trivial, ⟨by decide, [33], rfl, by decide⟩, trivial⟩

end Vodka.Syscall.TracePort

import Mathlib.Tactic
import Vodka.Mkimage.Header

/-!
# Round trip of DCD commands

The boot ROM reads a DCD as a header with tag, big-endian length and version,
and commands that each start with a tag, their own big-endian length and a byte
of parameters. This reader stands for the purpose of the array that `add_to_dcd`
builds and `s32cc_set_header` stores: it gets back the commands.
-/

namespace Vodka.Mkimage.DcdFormat

open Foundation.ByteMemory Foundation.Endian
open Config DcdArray Layout Accepted Header

/-- The kind of a command from its tag and its mask and set bits. -/
def decodeKind (tag : ℕ) (mask set : Bool) : Option DcdCmd :=
  if tag = DCD_WRITE_TAG then
    match mask, set with
    | false, false => some .write
    | true, false => some .clearMask
    | true, true => some .setMask
    | false, true => none
  else if tag = DCD_CHECK_TAG then
    match mask, set with
    | false, false => some .checkMaskClear
    | false, true => some .checkMaskSet
    | true, false => some .checkNotMask
    | true, true => some .checkNotClear
  else none

/-- One command with its header. Only checks may have a count. -/
def decodeCommand : List UInt8 → Option DcdArgs
  | tag :: _ :: _ :: params :: operands =>
    if operands.length = 8 ∨ operands.length = 12 ∧ tag.toNat = DCD_CHECK_TAG then
      (decodeKind tag.toNat (params.toNat.testBit 3) (params.toNat.testBit 4)).map fun cmd ↦
        { cmd := cmd
          addr := BitVec.ofNat 32 (ofBigEndian (operands.take 4))
          value := BitVec.ofNat 32 (ofBigEndian ((operands.drop 4).take 4))
          nbytes := BitVec.ofNat 32 (params.toNat &&& 0x7)
          count := BitVec.ofNat 32 (ofBigEndian (operands.drop 8)) }
    else none
  | _ => none

/-- Commands one after the other, each as long as its own length says. -/
def decodeCommands : ℕ → List UInt8 → Option (List DcdArgs)
  | _, [] => some []
  | 0, _ => none
  | fuel + 1, bytes =>
    let length := ofBigEndian ((bytes.drop 1).take 2)
    if 4 ≤ length ∧ length ≤ bytes.length then
      (decodeCommand (bytes.take length)).bind fun command ↦
        (decodeCommands fuel (bytes.drop length)).map fun rest ↦ command :: rest
    else none

/-- A whole DCD. The number of bytes is fuel enough. -/
def decodeDcd : List UInt8 → Option (List DcdArgs)
  | tag :: lengthHigh :: lengthLow :: version :: rest =>
    if tag = 0xd2 ∧ ofBigEndian [lengthHigh, lengthLow] = rest.length + 4 ∧ version = 0x60 then
      decodeCommands rest.length rest
    else none
  | _ => none

/-- The bytes of the words of a command. -/
def commandBytes (dcdArg : DcdArgs) : List UInt8 := (commandWords dcdArg).flatMap (littleEndian 4)

/-- The word of a command header: the tag, the swapped length and the parameters in this order. -/
theorem littleEndian_dcdCommandHeader {tag params : ℕ} (len : ℕ) (htag : tag < 2 ^ 8)
    (hparams : params < 2 ^ 8) :
    littleEndian 4 (dcdCommandHeader tag len params) =
      UInt8.ofNat tag :: bigEndian 2 len ++ [UInt8.ofNat params] := by
  have hlen : byteSwap 2 len < 256 ^ 2 := byteSwap_lt 2 len
  have hlow : tag ||| byteSwap 2 len <<< 8 = tag + 256 ^ 1 * byteSwap 2 len := by
    rw [Nat.or_comm, ← Nat.shiftLeft_add_eq_or_of_lt htag, Nat.shiftLeft_eq]
    ring
  have hmiddle : tag + 256 ^ 1 * byteSwap 2 len < 2 ^ 24 := by omega
  have hword : (tag ||| byteSwap 2 len <<< 8) ||| params <<< 24 =
      tag + 256 ^ 1 * (byteSwap 2 len + 256 ^ 2 * params) := by
    rw [hlow, Nat.or_comm, ← Nat.shiftLeft_add_eq_or_of_lt hmiddle, Nat.shiftLeft_eq]
    ring
  have hfits : tag + 256 ^ 1 * (byteSwap 2 len + 256 ^ 2 * params) < 2 ^ 32 := by omega
  calc littleEndian 4 (dcdCommandHeader tag len params)
      = littleEndian (1 + (2 + 1)) (tag + 256 ^ 1 * (byteSwap 2 len + 256 ^ 2 * params)) := by
        rw [dcdCommandHeader, hword, Nat.mod_eq_of_lt hfits]
    _ = littleEndian 1 tag ++ (littleEndian 2 (byteSwap 2 len) ++ littleEndian 1 params) := by
        rw [littleEndian_add 1 (2 + 1) _ htag, littleEndian_add 2 1 _ hlen]
    _ = UInt8.ofNat tag :: bigEndian 2 len ++ [UInt8.ofNat params] := by
        rw [littleEndian_byteSwap]
        rfl

/-- The parameters keep the width and the two flags. -/
theorem dcdParams_spec (set mask : Bool) {nbytes : ℕ} (h : nbytes = 1 ∨ nbytes = 2 ∨ nbytes = 4) :
    dcdParams set mask nbytes < 2 ^ 8 ∧ dcdParams set mask nbytes &&& 0x7 = nbytes ∧
      (dcdParams set mask nbytes).testBit 3 = mask ∧
      (dcdParams set mask nbytes).testBit 4 = set := by
  rcases h with rfl | rfl | rfl <;> cases set <;> cases mask <;> decide

def isWrite : DcdCmd → Bool
  | .write | .clearMask | .setMask => true
  | _ => false

/-- What is recorded of a command: the count of a write is dropped. -/
def recorded (dcdArg : DcdArgs) : DcdArgs :=
  if isWrite dcdArg.cmd then { dcdArg with count := 0 } else dcdArg

/-- The tag, parameters and operands of a command. -/
def commandTag (dcdArg : DcdArgs) : ℕ := if isWrite dcdArg.cmd then DCD_WRITE_TAG else DCD_CHECK_TAG

def commandOperands (dcdArg : DcdArgs) : List UInt8 :=
  bigEndian 4 dcdArg.addr.toNat ++ bigEndian 4 dcdArg.value.toNat ++
    if (recorded dcdArg).count = 0 then [] else bigEndian 4 (recorded dcdArg).count.toNat

theorem exists_flags {dcdArg : DcdArgs} (h : dcdArg.cmd ≠ .invalid) :
    ∃ mask set, dcdCmdFlags dcdArg.cmd = some (isWrite dcdArg.cmd, mask, set) ∧
      decodeKind (commandTag dcdArg) mask set = some dcdArg.cmd := by
  unfold commandTag
  cases hcmd : dcdArg.cmd with
  | invalid => exact absurd hcmd h
  | write | checkMaskClear => exact ⟨false, false, rfl, rfl⟩
  | clearMask | checkNotMask => exact ⟨true, false, rfl, rfl⟩
  | setMask | checkNotClear => exact ⟨true, true, rfl, rfl⟩
  | checkMaskSet => exact ⟨false, true, rfl, rfl⟩

theorem length_commandOperands (dcdArg : DcdArgs) : (commandOperands dcdArg).length = 8 ∨
    (commandOperands dcdArg).length = 12 ∧ isWrite dcdArg.cmd = false := by
  unfold commandOperands recorded
  cases hwrite : isWrite dcdArg.cmd with
  | true => simp
  | false =>
    by_cases hcount : dcdArg.count = 0#32
    · simp [hcount]
    · simp [hcount]

theorem toNat_nbytes {nbytes : BitVec 32} (h : nbytes = 1 ∨ nbytes = 2 ∨ nbytes = 4) :
    nbytes.toNat = 1 ∨ nbytes.toNat = 2 ∨ nbytes.toNat = 4 := by
  rcases h with rfl | rfl | rfl <;> decide

/-- A command is a header with its own length and its operands in big-endian order. -/
theorem commandBytes_eq {dcdArg : DcdArgs} {mask set : Bool}
    (hflags : dcdCmdFlags dcdArg.cmd = some (isWrite dcdArg.cmd, mask, set))
    (hnbytes : dcdArg.nbytes = 1 ∨ dcdArg.nbytes = 2 ∨ dcdArg.nbytes = 4) :
    commandBytes dcdArg = UInt8.ofNat (commandTag dcdArg) ::
      bigEndian 2 (4 + (commandOperands dcdArg).length) ++
      [UInt8.ofNat (dcdParams set mask dcdArg.nbytes.toNat)] ++ commandOperands dcdArg := by
  have hparams := (dcdParams_spec set mask (toNat_nbytes hnbytes)).1
  unfold commandBytes commandWords commandOperands commandTag recorded
  rw [hflags]
  cases hwrite : isWrite dcdArg.cmd with
  | true =>
    simp [littleEndian_byteSwap, dcdWriteHeader,
      littleEndian_dcdCommandHeader _ (show DCD_WRITE_TAG < 2 ^ 8 by decide) hparams]
  | false =>
    by_cases hcount : dcdArg.count = 0#32
    · simp [hcount, littleEndian_byteSwap, dcdCheckHeaderNoCount,
        littleEndian_dcdCommandHeader _ (show DCD_CHECK_TAG < 2 ^ 8 by decide) hparams]
    · simp [hcount, littleEndian_byteSwap, dcdCheckHeader,
        littleEndian_dcdCommandHeader _ (show DCD_CHECK_TAG < 2 ^ 8 by decide) hparams]

/-- A 32-bit number is read back from its bytes. -/
theorem ofBigEndian_toNat (value : BitVec 32) :
    BitVec.ofNat 32 (ofBigEndian (bigEndian 4 value.toNat)) = value := by
  have hlt : value.toNat < 256 ^ 4 := value.isLt
  rw [ofBigEndian_bigEndian, Nat.mod_eq_of_lt hlt, BitVec.ofNat_toNat, BitVec.setWidth_eq]

theorem commandOperands_fields (dcdArg : DcdArgs) :
    (commandOperands dcdArg).take 4 = bigEndian 4 dcdArg.addr.toNat ∧
      ((commandOperands dcdArg).drop 4).take 4 = bigEndian 4 dcdArg.value.toNat ∧
      BitVec.ofNat 32 (ofBigEndian ((commandOperands dcdArg).drop 8)) =
        (recorded dcdArg).count := by
  have haddr : (bigEndian 4 dcdArg.addr.toNat).length = 4 := length_bigEndian _ _
  have hvalue : (bigEndian 4 dcdArg.value.toNat).length = 4 := length_bigEndian _ _
  unfold commandOperands
  rw [List.append_assoc]
  refine ⟨List.take_left' haddr, ?_, ?_⟩
  · rw [List.drop_left' haddr, List.take_left' hvalue]
  · rw [show 8 = 4 + 4 from rfl, ← List.drop_drop, List.drop_left' haddr, List.drop_left' hvalue]
    split_ifs with hcount
    · rw [hcount]
      rfl
    · exact ofBigEndian_toNat _

/-- The checks of `get_dcd_cmd_args`. -/
theorem nbytes_of_checkDcdCmdArgs {args checked : DcdArgs}
    (h : checkDcdCmdArgs args = .ok checked) :
    args.nbytes = 1 ∨ args.nbytes = 2 ∨ args.nbytes = 4 := by
  unfold checkDcdCmdArgs at h
  split_ifs at h with hcmd hnbytes
  tauto

theorem decodeCommand_commandBytes {dcdArg checked : DcdArgs}
    (h : checkDcdCmdArgs dcdArg = .ok checked) :
    decodeCommand (commandBytes dcdArg) = some (recorded dcdArg) := by
  obtain ⟨mask, set, hflags, hkind⟩ := exists_flags (Accepted.cmd_of_checkDcdCmdArgs h).2
  have hnbytes := nbytes_of_checkDcdCmdArgs h
  obtain ⟨hfits, hwidth, hmask, hset⟩ := dcdParams_spec set mask (toNat_nbytes hnbytes)
  obtain ⟨haddr, hvalue, hcount⟩ := commandOperands_fields dcdArg
  have htag : (UInt8.ofNat (commandTag dcdArg)).toNat = commandTag dcdArg := by
    unfold commandTag
    split_ifs <;> rfl
  have hparams : (UInt8.ofNat (dcdParams set mask dcdArg.nbytes.toNat)).toNat =
      dcdParams set mask dcdArg.nbytes.toNat := by
    rw [UInt8.toNat_ofNat']
    exact Nat.mod_eq_of_lt hfits
  have hlength : (commandOperands dcdArg).length = 8 ∨
      (commandOperands dcdArg).length = 12 ∧ commandTag dcdArg = DCD_CHECK_TAG := by
    apply (length_commandOperands dcdArg).imp_right
    intro hlong
    exact ⟨hlong.1, by simp [commandTag, hlong.2]⟩
  have hrecorded : recorded dcdArg = { dcdArg with count := (recorded dcdArg).count } := by
    unfold recorded
    split_ifs <;> rfl
  have hshape : commandBytes dcdArg = UInt8.ofNat (commandTag dcdArg) ::
      UInt8.ofNat ((4 + (commandOperands dcdArg).length) / 256) ::
      UInt8.ofNat (4 + (commandOperands dcdArg).length) ::
      UInt8.ofNat (dcdParams set mask dcdArg.nbytes.toNat) :: commandOperands dcdArg :=
    commandBytes_eq hflags hnbytes
  rw [hshape, decodeCommand, htag, hparams, if_pos hlength, hmask, hset, hkind, haddr, hvalue,
    hcount, hwidth, ofBigEndian_toNat, ofBigEndian_toNat, hrecorded]
  simp

/-! ## Round trip -/

/-- The reader takes a command off the front. -/
theorem decodeCommands_cons {command : List UInt8} {decoded : DcdArgs} (fuel : ℕ)
    (rest : List UInt8)
    (hlength : 4 ≤ command.length)
    (hfield : ofBigEndian ((command.drop 1).take 2) = command.length)
    (hdecode : decodeCommand command = some decoded) :
    decodeCommands (fuel + 1) (command ++ rest) =
      (decodeCommands fuel rest).map fun commands ↦ decoded :: commands := by
  have hfront : ((command ++ rest).drop 1).take 2 = (command.drop 1).take 2 := by
    rw [List.drop_append_of_le_length (by omega), List.take_append_of_le_length]
    rw [List.length_drop]
    omega
  have hne : command ++ rest ≠ [] := by
    apply List.append_ne_nil_of_left_ne_nil
    exact List.ne_nil_of_length_pos (by omega)
  obtain ⟨first, others, hcons⟩ := List.exists_cons_of_ne_nil hne
  have hbound : 4 ≤ command.length ∧ command.length ≤ (command ++ rest).length := by
    rw [List.length_append]
    omega
  have hstep : decodeCommands (fuel + 1) (command ++ rest) =
      (decodeCommand ((command ++ rest).take command.length)).bind fun decoded ↦
        (decodeCommands fuel ((command ++ rest).drop command.length)).map
          fun commands ↦ decoded :: commands := by
    rw [hcons] at hfront hbound ⊢
    simp only [decodeCommands, hfront, hfield, hbound, and_self, if_true]
  rw [hstep, List.take_left, List.drop_left, hdecode]
  rfl

/-- A command starts with its length behind the tag. -/
theorem commandBytes_length {dcdArg checked : DcdArgs} (h : checkDcdCmdArgs dcdArg = .ok checked) :
    4 ≤ (commandBytes dcdArg).length ∧
      ofBigEndian (((commandBytes dcdArg).drop 1).take 2) = (commandBytes dcdArg).length := by
  obtain ⟨mask, set, hflags, -⟩ := exists_flags (Accepted.cmd_of_checkDcdCmdArgs h).2
  have hbytes := commandBytes_eq hflags (nbytes_of_checkDcdCmdArgs h)
  have hoperands : 4 + (commandOperands dcdArg).length < 256 ^ 2 := by
    rcases length_commandOperands dcdArg with hshort | ⟨hlong, -⟩
    · omega
    · omega
  have hlength : (commandBytes dcdArg).length = 4 + (commandOperands dcdArg).length := by
    rw [hbytes]
    simp
    omega
  have hfield : ((commandBytes dcdArg).drop 1).take 2 =
      bigEndian 2 (4 + (commandOperands dcdArg).length) := by
    rw [hbytes]
    rfl
  rw [hfield, ofBigEndian_bigEndian, Nat.mod_eq_of_lt hoperands, hlength]
  exact ⟨Nat.le_add_right _ _, rfl⟩

theorem decodeCommands_flatMap {args : List DcdArgs} {fuel : ℕ} (hfuel : args.length ≤ fuel)
    (hargs : ∀ dcdArg ∈ args, checkDcdCmdArgs dcdArg = .ok dcdArg) :
    decodeCommands fuel (args.flatMap commandBytes) = some (args.map recorded) := by
  induction args generalizing fuel with
  | nil => cases fuel <;> rfl
  | cons dcdArg args ih =>
    rw [List.forall_mem_cons] at hargs
    cases fuel with
    | zero => exact absurd hfuel (Nat.not_succ_le_zero _)
    | succ fuel =>
      obtain ⟨hlength, hfield⟩ := commandBytes_length hargs.1
      have hrest := ih (Nat.succ_le_succ_iff.mp hfuel) hargs.2
      rw [List.flatMap_cons, decodeCommands_cons fuel _ hlength hfield
        (decodeCommand_commandBytes hargs.1), hrest]
      rfl

/-- There are at least as many bytes as commands. -/
theorem length_le_flatMap {args : List DcdArgs}
    (hargs : ∀ dcdArg ∈ args, checkDcdCmdArgs dcdArg = .ok dcdArg) :
    args.length ≤ (args.flatMap commandBytes).length := by
  induction args with
  | nil => exact Nat.zero_le _
  | cons dcdArg args ih =>
    rw [List.forall_mem_cons] at hargs
    have hlength := (commandBytes_length hargs.1).1
    have hrest := ih hargs.2
    rw [List.flatMap_cons, List.length_append, List.length_cons]
    omega

/-- The bytes of a DCD: tag, length, version and the commands. -/
def dcdImage (args : List DcdArgs) (size : ℕ) : List UInt8 :=
  [0xd2] ++ (bigEndian 2 size ++ (0x60 :: args.flatMap commandBytes))

theorem decodeDcd_dcdImage {args : List DcdArgs} {size : ℕ}
    (hargs : ∀ dcdArg ∈ args, checkDcdCmdArgs dcdArg = .ok dcdArg)
    (hlength : (dcdImage args size).length = size) (hsize : size ≤ DCD_MAXIMUM_SIZE) :
    decodeDcd (dcdImage args size) = some (args.map recorded) := by
  have hfield : ofBigEndian (bigEndian 2 size) = size := by
    rw [ofBigEndian_bigEndian]
    apply Nat.mod_eq_of_lt
    exact hsize.trans_lt (by decide)
  have hrest : (args.flatMap commandBytes).length + 4 = size := by
    simp only [dcdImage, List.length_append, List.length_cons, List.length_nil,
      length_bigEndian] at hlength
    omega
  change (if (0xd2 : UInt8) = 0xd2 ∧
      ofBigEndian (bigEndian 2 size) = (args.flatMap commandBytes).length + 4 ∧
      (0x60 : UInt8) = 0x60
    then decodeCommands (args.flatMap commandBytes).length (args.flatMap commandBytes)
    else none) = _
  rw [if_pos ⟨rfl, hfield.trans hrest.symm, rfl⟩]
  exact decodeCommands_flatMap (length_le_flatMap hargs) hargs

/-- The stores of the DCD leave its bytes. -/
theorem read_dcdStores {iconfig : ImageConfig} {args : List DcdArgs}
    (h : Holds iconfig.dcd (DCD_HEADER :: args.flatMap commandWords)) (layout : ProgramImage)
    (memory : Memory) :
    (dcdImage args iconfig.dcd.size).length = iconfig.dcd.size ∧
      read (writeAll memory (writes (dcdStores iconfig layout))) (layout .dcd).offset
        iconfig.dcd.size = dcdImage args iconfig.dcd.size := by
  have hdata : iconfig.dcd.data.isSome := by
    rw [Option.isSome_iff_ne_none]
    intro hnone
    exact absurd (h.null.mp hnone) (List.cons_ne_nil _ _)
  have hcommands : (args.flatMap commandWords).flatMap (littleEndian 4) =
      args.flatMap commandBytes := List.flatMap_assoc
  have hbytes :
      dcdBytes iconfig.dcd = [0xd2] ++ ([0, 0] ++ (0x60 :: args.flatMap commandBytes)) := by
    rw [dcdBytes_eq h, List.flatMap_cons, hcommands]
    rfl
  have hpatch : littleEndian 2 (byteSwap 2 iconfig.dcd.size) = bigEndian 2 iconfig.dcd.size :=
    littleEndian_byteSwap _ _
  have hlength : (dcdImage args iconfig.dcd.size).length = iconfig.dcd.size := by
    rw [← length_dcdBytes h, hbytes]
    simp only [dcdImage, List.length_append, List.length_cons, length_bigEndian, List.length_nil]
  refine ⟨hlength, ?_⟩
  have hread := read_write_patch memory (layout .dcd).offset [0xd2]
    (0x60 :: args.flatMap commandBytes)
    (show ([0, 0] : List UInt8).length = (bigEndian 2 iconfig.dcd.size).length from rfl)
  have hcount : iconfig.dcd.size = [(0xd2 : UInt8)].length +
      ((bigEndian 2 iconfig.dcd.size).length +
        ((0x60 : UInt8) :: args.flatMap commandBytes).length) := by
    rw [← List.length_append, ← List.length_append]
    exact hlength.symm
  unfold dcdStores
  rw [if_pos hdata]
  calc read (writeAll memory (writes [⟨.dcd, (layout .dcd).offset, dcdBytes iconfig.dcd⟩,
          storeField layout .dcd DCD_HEADER_LENGTH_OFFSET 2 (byteSwap 2 iconfig.dcd.size)]))
          (layout .dcd).offset iconfig.dcd.size
      = read (write (write memory (layout .dcd).offset (dcdBytes iconfig.dcd))
          ((layout .dcd).offset + 1) (littleEndian 2 (byteSwap 2 iconfig.dcd.size)))
          (layout .dcd).offset iconfig.dcd.size := rfl
    _ = dcdImage args iconfig.dcd.size := by
        rw [hbytes, hpatch]
        rw [← hcount] at hread
        exact hread

/-- The bytes are what the stores of the DCD leave in its range, and what all stores leave there for
a configuration that is accepted, with QSPI parameters that fit. -/
structure Stored (dcd : DcdArray) (bytes : List UInt8) : Prop where
  alone : ∀ iconfig layout stSize toolParams memory, iconfig.dcd = dcd →
    read (writeAll memory (writes ((setHeader iconfig layout stSize toolParams).1.filter
      fun store ↦ store.part = .dcd))) (layout .dcd).offset dcd.size = bytes
  accepted : ∀ allocates files directives boot sorter state layout headerSize stSize toolParams
    memory, AcceptedConf allocates files directives boot sorter state layout headerSize →
    state.iconfig.dcd = dcd →
    (boot = .qspi → toolParams.addr ≤ toolParams.ep →
      state.iconfig.qspiParams.length ≤ QSPI_PARAMS_SIZE) →
    read (writeAll memory (writes (setHeader state.iconfig layout stSize toolParams).1))
      (layout .dcd).offset dcd.size = bytes

theorem stored_dcdImage {dcd : DcdArray} {args : List DcdArgs}
    (h : Holds dcd (DCD_HEADER :: args.flatMap commandWords))
    (hsize : dcd.size ≤ DCD_MAXIMUM_SIZE) : Stored dcd (dcdImage args dcd.size) := by
  have halone : ∀ iconfig layout stSize toolParams memory, iconfig.dcd = dcd →
      read (writeAll memory (writes ((setHeader iconfig layout stSize toolParams).1.filter
        fun store ↦ store.part = .dcd))) (layout .dcd).offset dcd.size =
        dcdImage args dcd.size := by
    rintro iconfig layout stSize toolParams memory rfl
    rw [filter_setHeader layout stSize toolParams hsize (by decide) (by decide) (by decide)]
    exact (read_dcdStores h layout memory).2
  refine ⟨halone, ?_⟩
  rintro allocates files directives boot sorter state layout headerSize stSize toolParams memory
    haccepted rfl hqspi
  have hpart : Present state.iconfig .dcd :=
    .inl (haccepted.laidOut.dcd_mem_layoutParts (h.isSome_iff.mpr (by simp [h.size])))
  have hlayoutSize : (layout .dcd).size = state.iconfig.dcd.size := haccepted.size_eq .dcd
  rw [← halone state.iconfig layout stSize toolParams memory rfl]
  exact @read_setHeader layout toolParams stSize allocates files directives boot sorter state
    headerSize haccepted .dcd (.inr hqspi) hpart memory 0 state.iconfig.dcd.size (by omega)

/-- **DCD round trip.** No push leaves the array. With an allocator that does not fail, the
accepted commands give a DCD whose stored bytes start with tag, length and version, and read back
as the commands. -/
theorem dcd_roundTrip (args : List DcdArgs) (hne : args ≠ [])
    (hargs : ∀ dcdArg ∈ args, checkDcdCmdArgs dcdArg = .ok dcdArg) :
    (∀ allocates, args.foldlM (fun dcd dcdArg ↦ addToDcd allocates dcdArg dcd) ⟨none, 0, 0⟩ ≠
        .error .outOfBounds) ∧
      ∃ dcd, args.foldlM (fun dcd dcdArg ↦ addToDcd (fun _ ↦ true) dcdArg dcd) ⟨none, 0, 0⟩ =
          .ok dcd ∧
        (dcd.size ≤ DCD_MAXIMUM_SIZE →
          ∃ commands, Stored dcd ([0xd2] ++ (bigEndian 2 dcd.size ++ (0x60 :: commands))) ∧
            4 + commands.length = dcd.size ∧
            decodeDcd ([0xd2] ++ (bigEndian 2 dcd.size ++ (0x60 :: commands))) =
              some (args.map recorded)) := by
  have hcmd : ∀ dcdArg ∈ args, dcdArg.cmd ≠ .invalid := fun dcdArg hmem ↦
    (cmd_of_checkDcdCmdArgs (hargs dcdArg hmem)).2
  refine ⟨fun allocates ↦ (addAll_yields hne hcmd).ne_outOfBounds, ?_⟩
  obtain ⟨dcd, hfold, hholds⟩ := (addAll_yields hne hcmd).exists_ok
  refine ⟨dcd, hfold, fun hsize ↦ ?_⟩
  have hlength : (dcdImage args dcd.size).length = dcd.size :=
    (@read_dcdStores { initialConfig with dcd := dcd } args hholds initialLayout fun _ ↦ 0).1
  refine ⟨args.flatMap commandBytes, stored_dcdImage hholds hsize, ?_,
    decodeDcd_dcdImage hargs hlength hsize⟩
  simp only [dcdImage, List.length_append, List.length_cons, List.length_nil,
    length_bigEndian] at hlength
  omega

/-- A masked write whose count is dropped, and a check with a count. -/
def exampleArgs : List DcdArgs :=
  [⟨.setMask, 0x40000000, 0xff, 4, 7⟩, ⟨.checkNotClear, 0x40000004, 1, 2, 100⟩]

theorem dcd_roundTrip_exampleArgs :
    ∃ dcd, exampleArgs.foldlM (fun dcd dcdArg ↦ addToDcd (fun _ ↦ true) dcdArg dcd)
        ⟨none, 0, 0⟩ = .ok dcd ∧
      (dcd.size ≤ DCD_MAXIMUM_SIZE →
        ∃ commands, Stored dcd ([0xd2] ++ (bigEndian 2 dcd.size ++ (0x60 :: commands))) ∧
          4 + commands.length = dcd.size ∧
          decodeDcd ([0xd2] ++ (bigEndian 2 dcd.size ++ (0x60 :: commands))) =
            some (exampleArgs.map recorded)) :=
  (dcd_roundTrip exampleArgs (by decide) (by decide)).2

end Vodka.Mkimage.DcdFormat

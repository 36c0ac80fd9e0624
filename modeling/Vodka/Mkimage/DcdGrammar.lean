import Mathlib.Tactic
import Vodka.Mkimage.TokenRoom

/-!
# The grammar of DCD lines

A DCD line is a command and three or four numbers. `get_dcd_cmd_args` scans it
with a format that passes over anything up to the next digit `0` and does not
see the end of the line, so it accepts more than such lines, and it reduces the
numbers to 32 bits. It reads a line exactly when the first word fits in its
buffer and the line, if the format accepts it, is one of the grammar with
numbers of 32 bits.
-/

namespace Vodka.Mkimage.DcdGrammar

open Foundation.Scanf Config Directives TokenRoom

/-- A number with the blanks in front of it. -/
structure Number where
  blanks : List UInt8
  digits : List UInt8
  blanks_ne : blanks ≠ []
  blanks_blank : ∀ b ∈ blanks, isBlank b = true
  digits_ne : digits ≠ []
  digits_hex : ∀ b ∈ digits, isXdigit b = true

def Number.render (number : Number) : List UInt8 :=
  number.blanks ++ (ascii "0x" ++ number.digits)

def Number.value (number : Number) : ℕ := hexValue number.digits

/-- A command, its numbers and white space. -/
structure DcdText where
  name : List UInt8
  cmd : DcdCmd
  nbytes : Number
  addr : Number
  value : Number
  count : Option Number
  tail : List UInt8
  known : (name, cmd) ∈ dcdCmds
  tail_space : ∀ b ∈ tail, isSpace b = true

namespace DcdText

/-- The text behind the value. -/
def rest (text : DcdText) : List UInt8 := (text.count.map Number.render).getD [] ++ text.tail

def render (text : DcdText) : List UInt8 :=
  text.name ++ (text.nbytes.render ++ (text.addr.render ++ (text.value.render ++ text.rest)))

/-- The number of bytes is one that a DCD command can have. -/
def Supported (text : DcdText) : Prop :=
  text.nbytes.value = 1 ∨ text.nbytes.value = 2 ∨ text.nbytes.value = 4

def countValue (text : DcdText) : ℕ := (text.count.map Number.value).getD 0

/-- The numbers have 32 bits. -/
structure Fits (text : DcdText) : Prop where
  nbytes : text.nbytes.value < 2 ^ 32
  addr : text.addr.value < 2 ^ 32
  value : text.value.value < 2 ^ 32
  count : text.countValue < 2 ^ 32

/-- The arguments are those written. -/
structure Says (text : DcdText) (args : DcdArgs) : Prop where
  cmd : args.cmd = text.cmd
  nbytes : args.nbytes.toNat = text.nbytes.value
  addr : args.addr.toNat = text.addr.value
  value : args.value.toNat = text.value.value
  count : args.count.toNat = text.countValue

end DcdText

/-- The line is accepted if and only if it is a supported line of the grammar, and then with what
is written there. -/
structure ReadsExactly (line : List UInt8) : Prop where
  sound : ∀ args, getDcdCmdArgs line = .ok args →
    ∃ text : DcdText, text.render = line ∧ text.Supported ∧ text.Says args
  complete : ∀ text : DcdText, text.render = line → text.Supported →
    ∃ args, getDcdCmdArgs line = .ok args
  inBounds : getDcdCmdArgs line ≠ .error .outOfBounds

/-- Anything without a digit `0`, then `0x` and what `%x` takes for a number. -/
def LooseNumber (input rest : List UInt8) (value : BitVec 32) : Prop :=
  ∃ gap text, input = gap ++ (ascii "0x" ++ (text ++ rest)) ∧ gap ≠ [] ∧ (0x30 : UInt8) ∉ gap ∧
    Numeral text rest value

/-- A command and three such numbers, whatever follows. -/
def Loose (line : List UInt8) : Prop :=
  ∃ name cmd first second third rest nbytes addr value, (name, cmd) ∈ dcdCmds ∧
    line = name ++ first ∧ (∀ b ∈ first.head?, isBlank b = true) ∧
    LooseNumber first second nbytes ∧ LooseNumber second third addr ∧
    LooseNumber third rest value ∧ (nbytes = 1 ∨ nbytes = 2 ∨ nbytes = 4)

section Loose

variable {line input rest : List UInt8} {value : BitVec 32}

theorem numberFormat_append (format : List Conversion) :
    numberFormat ++ format =
      .skip (fun b ↦ b != 0x30) :: ((ascii "0x").map .byte ++ .hex :: format) :=
  rfl

theorem LooseNumber.sscanf_eq (h : LooseNumber input rest value) (format : List Conversion) :
    sscanf (numberFormat ++ format) input = .number value :: sscanf format rest := by
  obtain ⟨gap, text, rfl, hne, hgap, hnumeral⟩ := h
  have hskip : scanRun (fun b ↦ b != 0x30) (gap ++ (ascii "0x" ++ (text ++ rest))) =
      some (gap, ascii "0x" ++ (text ++ rest)) := by
    refine scanRun_eq_some_iff.mpr ⟨hne, rfl, ?_, ?_⟩
    · intro b hb
      rw [bne_iff_ne]
      exact fun hzero ↦ hgap (hzero ▸ hb)
    · intro b hb
      obtain rfl : (0x30 : UInt8) = b := Option.some.inj hb
      rfl
  have hhex : scanHex (text ++ rest) = some (value, rest) :=
    scanHex_eq_some_iff.mpr ⟨text, rfl, hnumeral⟩
  rw [numberFormat_append, sscanf, hskip]
  dsimp only
  rw [sscanf_literal, sscanf, hhex]

/-- Where the format does not find a number the scan ends. -/
theorem looseNumber_or_sscanf_eq_nil (input : List UInt8) :
    (∃ rest value, LooseNumber input rest value) ∨
      ∀ format, sscanf (numberFormat ++ format) input = [] := by
  cases hskip : scanRun (fun b ↦ b != 0x30) input with
  | none =>
    right
    intro format
    rw [numberFormat_append, sscanf, hskip]
  | some found =>
    obtain ⟨gap, behind⟩ := found
    by_cases hstart : ascii "0x" <+: behind
    · obtain ⟨number, rfl⟩ := hstart
      cases hhex : scanHex number with
      | none =>
        right
        intro format
        rw [numberFormat_append, sscanf, hskip]
        dsimp only
        rw [sscanf_literal, sscanf, hhex]
      | some found =>
        obtain ⟨value, rest⟩ := found
        obtain ⟨hne, hinput, hrun⟩ := scanRun_eq_some_iff.mp hskip
        obtain ⟨text, rfl, hnumeral⟩ := scanHex_eq_some_iff.mp hhex
        have hgap : (0x30 : UInt8) ∉ gap := fun hzero ↦ absurd (hrun.mem _ hzero) (by decide)
        exact .inl ⟨rest, value, gap, text, hinput, hne, hgap, hnumeral⟩
    · right
      intro format
      rw [numberFormat_append, sscanf, hskip]
      exact sscanf_literal_of_not_start hstart _

/-- A number of the grammar is read as such when it is followed by white space or nothing. -/
theorem Number.looseNumber (number : Number) (hrest : ∀ b ∈ rest.head?, isSpace b = true) :
    LooseNumber (number.render ++ rest) rest
      (BitVec.ofNat 32 (strtoul false number.value)) := by
  refine ⟨number.blanks, number.digits, ?_, number.blanks_ne, ?_, ?_⟩
  · simp only [Number.render, List.append_assoc]
  · intro hzero
    exact absurd (number.blanks_blank _ hzero) (by decide)
  · refine numeral_of_digits number.digits_ne ⟨number.digits_hex, ?_⟩ ?_
    · intro b hb
      by_contra hdigit
      rw [Bool.not_eq_false] at hdigit
      exact absurd (hrest b hb) (by simp [isSpace_eq_false_of_isXdigit hdigit])
    · exact fun b hb ↦ not_base_of_isSpace (hrest b hb)

theorem isSpace_of_isBlank {b : UInt8} (h : isBlank b = true) : isSpace b = true := by
  simp only [isBlank, Bool.or_eq_true, beq_iff_eq] at h
  rcases h with rfl | rfl <;> rfl

theorem Number.head_render (number : Number) (rest : List UInt8) :
    ∀ b ∈ (number.render ++ rest).head?, isBlank b = true := by
  obtain ⟨first, blanks, hblanks⟩ := List.exists_cons_of_ne_nil number.blanks_ne
  intro b hb
  rw [Number.render, hblanks] at hb
  obtain rfl : first = b := Option.some.inj hb
  exact number.blanks_blank first (by simp [hblanks])

/-- White space at the end of the line holds no number. -/
theorem sscanf_number_of_space {tail : List UInt8} (h : ∀ b ∈ tail, isSpace b = true)
    (format : List Conversion) : sscanf (numberFormat ++ format) tail = [] := by
  refine (looseNumber_or_sscanf_eq_nil tail).elim ?_ fun hnone ↦ hnone format
  rintro ⟨rest, value, gap, text, rfl, -⟩
  exact absurd (h 0x30 (by simp [ascii])) (by decide)

end Loose

/-- What the proofs use of the table of commands. -/
theorem dcdCmds_spec : ∀ entry ∈ dcdCmds, findDcdCmd entry.1 = entry.2 ∧ entry.2 ≠ .invalid ∧
    entry.1 ≠ [] ∧ entry.1.length ≤ 27 ∧ ∀ b ∈ entry.1, (!isBlank b) = true := by
  decide +kernel

theorem mem_dcdCmds_of_find {name : List UInt8} (h : findDcdCmd name ≠ .invalid) :
    (name, findDcdCmd name) ∈ dcdCmds := by
  have hfold : ∀ (table : List (List UInt8 × DcdCmd)) (found : DcdCmd),
      table.foldl (fun found entry ↦ if name = entry.1 then entry.2 else found) found = found ∨
        (name, table.foldl (fun found entry ↦ if name = entry.1 then entry.2 else found) found) ∈
          table := by
    intro table
    induction table with
    | nil => exact fun found ↦ .inl rfl
    | cons entry table ih =>
      intro found
      rw [List.foldl_cons]
      rcases ih (if name = entry.1 then entry.2 else found) with hkept | hmem
      · rw [hkept]
        split_ifs with hname
        · exact .inr (by simp [hname])
        · exact .inl rfl
      · exact .inr (List.mem_cons_of_mem _ hmem)
  exact (hfold dcdCmds .invalid).resolve_left h

/-! ## The scan -/

section Scan

variable {line name first second third rest : List UInt8} {nbytes addr value : BitVec 32}

/-- A word that fits and three numbers are all the scan needs. -/
theorem scanDcdArgs_of_loose (hname : name ≠ []) (hrun : Run (fun b ↦ !isBlank b) name first)
    (hsize : name.length ≤ 27) (hnbytes : LooseNumber first second nbytes)
    (haddr : LooseNumber second third addr) (hvalue : LooseNumber third rest value) :
    scanDcdArgs (name ++ first) =
      .ok
        { cmd := findDcdCmd name
          addr := addr
          value := value
          nbytes := nbytes
          count := countOf (sscanf numberFormat rest) } := by
  have hword : firstWord (name ++ first) = name := hrun.takeWhile_eq
  have hroom : name.length + 1 ≤ dcdCmdSize := by
    rw [show dcdCmdSize = 28 by decide]
    omega
  unfold scanDcdArgs
  rw [dcdFormat, sscanf_word, hword, if_neg hname, hrun.dropWhile_eq, hnbytes.sscanf_eq,
    haddr.sscanf_eq, hvalue.sscanf_eq]
  dsimp only
  rw [storeToken_of_fits hroom]
  rfl

/-- A scan that succeeds has found such a word and such numbers. -/
theorem exists_loose_of_scanDcdArgs {args : DcdArgs} (h : scanDcdArgs line = .ok args) :
    ∃ name first second third rest, name ≠ [] ∧ line = name ++ first ∧
      Run (fun b ↦ !isBlank b) name first ∧ LooseNumber first second args.nbytes ∧
      LooseNumber second third args.addr ∧ LooseNumber third rest args.value ∧
      args.cmd = findDcdCmd name := by
  unfold scanDcdArgs at h
  rw [dcdFormat, sscanf_word] at h
  by_cases hempty : firstWord line = []
  · simp [hempty] at h
  rw [if_neg hempty] at h
  dsimp only at h
  by_cases hfits : (firstWord line).length + 1 ≤ dcdCmdSize
  swap
  · rw [storeToken_of_not_fits hfits] at h
    cases h
  rw [storeToken_of_fits hfits] at h
  simp only [bind, Except.bind] at h
  rcases looseNumber_or_sscanf_eq_nil (line.dropWhile fun b ↦ !isBlank b) with
    ⟨second, nbytes, hnbytes⟩ | hnil
  swap
  · simp [hnil] at h
  rw [hnbytes.sscanf_eq] at h
  rcases looseNumber_or_sscanf_eq_nil second with ⟨third, addr, haddr⟩ | hnil
  swap
  · simp [hnil] at h
  rw [haddr.sscanf_eq] at h
  rcases looseNumber_or_sscanf_eq_nil third with ⟨rest, value, hvalue⟩ | hnil
  swap
  · simp [hnil] at h
  rw [hvalue.sscanf_eq] at h
  obtain rfl := Except.ok.inj h
  exact ⟨firstWord line, _, second, third, rest, hempty,
    (List.takeWhile_append_dropWhile).symm, run_takeWhile _ _, hnbytes, haddr, hvalue, rfl⟩

theorem checkDcdCmdArgs_eq_ok_iff {args checked : DcdArgs} :
    checkDcdCmdArgs args = .ok checked ↔ args = checked ∧ args.cmd ≠ .invalid ∧
      (args.nbytes = 1 ∨ args.nbytes = 2 ∨ args.nbytes = 4) := by
  unfold checkDcdCmdArgs
  split_ifs with hcmd hnbytes
  · simp [hcmd]
  · simp only [false_iff, not_and, not_or]
    exact fun _ _ ↦ hnbytes
  · rw [Except.ok.injEq]
    refine ⟨fun h ↦ ⟨h, hcmd, by tauto⟩, fun h ↦ h.1⟩

theorem getDcdCmdArgs_eq_ok_iff {args : DcdArgs} :
    getDcdCmdArgs line = .ok args ↔ scanDcdArgs line = .ok args ∧ args.cmd ≠ .invalid ∧
      (args.nbytes = 1 ∨ args.nbytes = 2 ∨ args.nbytes = 4) := by
  unfold getDcdCmdArgs
  cases hscan : scanDcdArgs line with
  | error failure => simp [bind, Except.bind]
  | ok scanned =>
    simp only [bind, Except.bind, checkDcdCmdArgs_eq_ok_iff, Except.ok.injEq]
    constructor
    · rintro ⟨rfl, hchecked⟩
      exact ⟨rfl, hchecked⟩
    · rintro ⟨rfl, hchecked⟩
      exact ⟨rfl, hchecked⟩

theorem getDcdCmdArgs_eq_outOfBounds_iff :
    getDcdCmdArgs line = .error .outOfBounds ↔ 27 < (firstWord line).length := by
  rw [← scanDcdArgs_eq_outOfBounds_iff, getDcdCmdArgs]
  cases scanDcdArgs line with
  | error failure => exact Iff.rfl
  | ok args =>
    refine iff_of_false ?_ (by simp)
    simp only [bind, Except.bind, checkDcdCmdArgs]
    split_ifs <;> simp

/-- A line whose first word fits is accepted exactly in the loose form. -/
theorem accepted_iff_loose (hsize : (firstWord line).length ≤ 27) :
    (∃ args, getDcdCmdArgs line = .ok args) ↔ Loose line := by
  constructor
  · rintro ⟨args, hargs⟩
    obtain ⟨hscan, hcmd, hsupported⟩ := getDcdCmdArgs_eq_ok_iff.mp hargs
    obtain ⟨name, first, second, third, rest, hname, hline, hrun, hnbytes, haddr, hvalue, hfind⟩ :=
      exists_loose_of_scanDcdArgs hscan
    rw [hfind] at hcmd
    refine ⟨name, _, first, second, third, rest, _, _, _, mem_dcdCmds_of_find hcmd, hline, ?_,
      hnbytes, haddr, hvalue, hsupported⟩
    exact fun b hb ↦ by simpa using hrun.stop b hb
  · rintro ⟨name, cmd, first, second, third, rest, nbytes, addr, value, hknown, rfl, hblank,
      hnbytes, haddr, hvalue, hsupported⟩
    obtain ⟨hfind, hvalid, hname, hshort, hword⟩ := dcdCmds_spec _ hknown
    have hrun : Run (fun b ↦ !isBlank b) name first :=
      ⟨hword, fun b hb ↦ by simpa using hblank b hb⟩
    refine ⟨_, getDcdCmdArgs_eq_ok_iff.mpr
      ⟨scanDcdArgs_of_loose hname hrun hshort hnbytes haddr hvalue, ?_, hsupported⟩⟩
    rw [hfind]
    exact hvalid

end Scan

/-! ## Reading a line of the grammar -/

/-- The number as `sscanf` stores it. -/
def Number.stored (number : Number) : BitVec 32 := BitVec.ofNat 32 (strtoul false number.value)

theorem Number.toNat_stored {number : Number} (h : number.value < 2 ^ 32) :
    number.stored.toNat = number.value := by
  rw [stored, strtoul_of_lt (h.trans (by norm_num)), BitVec.toNat_ofNat, Nat.mod_eq_of_lt h]

namespace DcdText

/-- What the scan of the text stores. -/
def stored (text : DcdText) : DcdArgs where
  cmd := text.cmd
  nbytes := text.nbytes.stored
  addr := text.addr.stored
  value := text.value.stored
  count := (text.count.map Number.stored).getD 0

theorem isSpace_head_rest (text : DcdText) :
    ∀ b ∈ text.rest.head?, isSpace b = true := by
  unfold rest
  cases text.count with
  | none => exact fun b hb ↦ text.tail_space b (List.mem_of_mem_head? hb)
  | some count => exact fun b hb ↦ isSpace_of_isBlank (count.head_render text.tail b hb)

/-- The count is the one written, or zero behind white space alone. -/
theorem countOf_rest (text : DcdText) :
    countOf (sscanf numberFormat text.rest) = (text.count.map Number.stored).getD 0 := by
  rw [← List.append_nil numberFormat, rest]
  cases text.count with
  | none =>
    rw [Option.map_none, Option.map_none, Option.getD_none, List.nil_append,
      sscanf_number_of_space text.tail_space]
    rfl
  | some count =>
    have hnumber := count.looseNumber fun b hb ↦
      text.tail_space b (List.mem_of_mem_head? hb)
    rw [Option.map_some, Option.map_some, Option.getD_some, hnumber.sscanf_eq]
    rfl

theorem scanDcdArgs_render (text : DcdText) : scanDcdArgs text.render = .ok text.stored := by
  obtain ⟨hfind, -, hname, hshort, hword⟩ := dcdCmds_spec _ text.known
  have hvalue := text.value.looseNumber text.isSpace_head_rest
  have haddr := text.addr.looseNumber fun b hb ↦
    isSpace_of_isBlank (text.value.head_render text.rest b hb)
  have hnbytes := text.nbytes.looseNumber fun b hb ↦
    isSpace_of_isBlank (text.addr.head_render (text.value.render ++ text.rest) b hb)
  have hrun : Run (fun b ↦ !isBlank b) text.name
      (text.nbytes.render ++ (text.addr.render ++ (text.value.render ++ text.rest))) :=
    ⟨hword, fun b hb ↦ by simpa using text.nbytes.head_render _ b hb⟩
  rw [render, scanDcdArgs_of_loose hname hrun hshort hnbytes haddr hvalue, countOf_rest]
  simp only [stored, Number.stored, hfind]

/-- A supported line is accepted. -/
theorem exists_args_of_supported (text : DcdText) (h : text.Supported) :
    ∃ args, getDcdCmdArgs text.render = .ok args := by
  refine ⟨text.stored, getDcdCmdArgs_eq_ok_iff.mpr ⟨text.scanDcdArgs_render, ?_, ?_⟩⟩
  · exact (dcdCmds_spec _ text.known).2.1
  · have hsmall : text.nbytes.value < 2 ^ 32 := by
      unfold Supported at h
      omega
    have hvalue := Number.toNat_stored hsmall
    refine h.imp (fun hone ↦ ?_) (Or.imp (fun htwo ↦ ?_) fun hfour ↦ ?_)
    · exact BitVec.eq_of_toNat_eq (hvalue.trans hone)
    · exact BitVec.eq_of_toNat_eq (hvalue.trans htwo)
    · exact BitVec.eq_of_toNat_eq (hvalue.trans hfour)

/-- With numbers of 32 bits the arguments are those written. -/
theorem Fits.says {text : DcdText} (h : text.Fits) : text.Says text.stored where
  cmd := rfl
  nbytes := Number.toNat_stored h.nbytes
  addr := Number.toNat_stored h.addr
  value := Number.toNat_stored h.value
  count := by
    have hcount := h.count
    unfold countValue at hcount ⊢
    unfold stored
    cases hwritten : text.count with
    | none => rfl
    | some count =>
      rw [hwritten] at hcount
      exact Number.toNat_stored hcount

theorem Says.fits {text : DcdText} {args : DcdArgs} (h : text.Says args) : text.Fits where
  nbytes := h.nbytes ▸ args.nbytes.isLt
  addr := h.addr ▸ args.addr.isLt
  value := h.value ▸ args.value.isLt
  count := h.count ▸ args.count.isLt

/-- Bytes that the checks accept are bytes that are supported. -/
theorem Says.supported {text : DcdText} {args : DcdArgs} (h : text.Says args)
    (hargs : args.nbytes = 1 ∨ args.nbytes = 2 ∨ args.nbytes = 4) : text.Supported := by
  unfold Supported
  rw [← h.nbytes]
  rcases hargs with hone | htwo | hfour
  · exact .inl (by rw [hone]; rfl)
  · exact .inr (.inl (by rw [htwo]; rfl))
  · exact .inr (.inr (by rw [hfour]; rfl))

end DcdText

/-- **DCD lines.** A line is read exactly when its first word fits in the buffer and it is a line
of the grammar with numbers of 32 bits, unless it does not even have the loose form. -/
theorem readsExactly_iff (line : List UInt8) :
    ReadsExactly line ↔ (firstWord line).length ≤ 27 ∧
      (Loose line → ∃ text : DcdText, text.render = line ∧ text.Fits) := by
  constructor
  · intro h
    have hsize : (firstWord line).length ≤ 27 :=
      not_lt.mp fun hlong ↦ h.inBounds (getDcdCmdArgs_eq_outOfBounds_iff.mpr hlong)
    refine ⟨hsize, fun hloose ↦ ?_⟩
    obtain ⟨args, hargs⟩ := (accepted_iff_loose hsize).mpr hloose
    obtain ⟨text, htext, -, hsays⟩ := h.sound args hargs
    exact ⟨text, htext, hsays.fits⟩
  · rintro ⟨hsize, hstrict⟩
    refine ⟨fun args hargs ↦ ?_, ?_, ?_⟩
    · obtain ⟨text, rfl, hfits⟩ := hstrict ((accepted_iff_loose hsize).mp ⟨args, hargs⟩)
      obtain ⟨hscan, -, hsupported⟩ := getDcdCmdArgs_eq_ok_iff.mp hargs
      obtain rfl := Except.ok.inj (text.scanDcdArgs_render.symm.trans hscan)
      exact ⟨text, rfl, hfits.says.supported hsupported, hfits.says⟩
    · rintro text rfl hsupported
      exact text.exists_args_of_supported hsupported
    · rw [Ne, getDcdCmdArgs_eq_outOfBounds_iff]
      exact not_lt.mpr hsize

/-- A line of the grammar has no other letters than those of its command and its digits. -/
theorem DcdText.mem_render (text : DcdText) {b : UInt8} (h : b ∈ text.render) :
    b ∈ text.name ∨ isSpace b = true ∨ isXdigit b = true ∨ b = 0x78 := by
  have hnumber : ∀ number : Number, b ∈ number.render →
      isSpace b = true ∨ isXdigit b = true ∨ b = 0x78 := by
    intro number hb
    simp only [Number.render, List.mem_append] at hb
    rcases hb with hblank | hbase | hdigit
    · exact .inl (isSpace_of_isBlank (number.blanks_blank b hblank))
    · obtain rfl | rfl : b = 0x30 ∨ b = 0x78 := by simpa [ascii] using hbase
      · exact .inr (.inl rfl)
      · exact .inr (.inr rfl)
    · exact .inr (.inl (number.digits_hex b hdigit))
  simp only [render, rest, List.mem_append] at h
  rcases h with hname | hnbytes | haddr | hvalue | hcount | htail
  · exact .inl hname
  · exact .inr (hnumber _ hnbytes)
  · exact .inr (hnumber _ haddr)
  · exact .inr (hnumber _ hvalue)
  · cases hwritten : text.count with
    | none => simp [hwritten] at hcount
    | some count => exact .inr (hnumber count (by simpa [hwritten] using hcount))
  · exact .inr (.inl (text.tail_space b htail))

/-- A count with a letter for the digit in front is dropped. -/
theorem mistyped_not_readsExactly : ¬ ∀ line, ReadsExactly line := by
  intro h
  have hargs : getDcdCmdArgs (ascii "CHECK_MASK_SET 0x4 0x40 0x1 ox10") =
      .ok { cmd := .checkMaskSet, addr := 0x40, value := 1, nbytes := 4, count := 0 } := by
    decide
  obtain ⟨text, htext, -, -⟩ := (h _).sound _ hargs
  have hmem : (0x6f : UInt8) ∈ text.render := htext ▸ by decide
  have hnames : ∀ entry ∈ dcdCmds, (0x6f : UInt8) ∉ entry.1 := by decide
  rcases text.mem_render hmem with hname | hspace | hdigit | hx
  · exact hnames _ text.known hname
  · exact absurd hspace (by decide)
  · exact absurd hdigit (by decide)
  · exact absurd hx (by decide)

end Vodka.Mkimage.DcdGrammar

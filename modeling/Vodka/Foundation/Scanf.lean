import Mathlib.Data.List.TakeWhile
import Mathlib.Tactic
import Vodka.Foundation.FlatRegex

/-!
# Scanning a string by a format

The conversions of `sscanf` that take a run of characters or a hexadecimal
number, on strings without their terminating NUL. A scan stores one value for
each conversion until the first one that fails. A run is as long as it can be
and not empty. A number follows any white space and may have a sign and a base
prefix; it is converted to an `unsigned long` of 64 bits, which saturates, and
stored in an `unsigned int` of 32 bits.
-/

namespace Vodka.Foundation.Scanf

/-- The bytes of an ASCII string. -/
def ascii (text : String) : List UInt8 := text.toList.map fun c ↦ UInt8.ofNat c.toNat

/-- `isspace` in the C locale -/
def isSpace (b : UInt8) : Bool := b == 0x20 || (0x09 ≤ b && b ≤ 0x0d)

/-- `isxdigit` -/
def isXdigit (b : UInt8) : Bool :=
  (0x30 ≤ b && b ≤ 0x39) || (0x41 ≤ b && b ≤ 0x46) || (0x61 ≤ b && b ≤ 0x66)

/-- The value of a hexadecimal digit. -/
def digitValue (b : UInt8) : ℕ :=
  if b ≤ 0x39 then b.toNat - 0x30
  else if b ≤ 0x46 then b.toNat - 0x41 + 10
  else b.toNat - 0x61 + 10

def hexValue (digits : List UInt8) : ℕ :=
  digits.foldl (fun value b ↦ 16 * value + digitValue b) 0

theorem isSpace_eq_false_of_isXdigit {b : UInt8} (h : isXdigit b = true) : isSpace b = false := by
  simp only [isXdigit, isSpace, Bool.or_eq_true, Bool.and_eq_true, decide_eq_true_eq] at h ⊢
  grind

theorem not_sign_of_isXdigit {b : UInt8} (h : isXdigit b = true) : b ≠ 0x2b ∧ b ≠ 0x2d := by
  simp only [isXdigit, Bool.or_eq_true, Bool.and_eq_true, decide_eq_true_eq] at h
  grind

theorem not_base_of_isXdigit {b : UInt8} (h : isXdigit b = true) : b ≠ 0x78 ∧ b ≠ 0x58 := by
  simp only [isXdigit, Bool.or_eq_true, Bool.and_eq_true, decide_eq_true_eq] at h
  grind

theorem not_base_of_isSpace {b : UInt8} (h : isSpace b = true) : b ≠ 0x78 ∧ b ≠ 0x58 := by
  simp only [isSpace, Bool.or_eq_true, Bool.and_eq_true, decide_eq_true_eq, beq_iff_eq] at h
  grind

/-- The run of a class at the start of `word ++ rest` is `word`. -/
structure Run (cls : UInt8 → Bool) (word rest : List UInt8) : Prop where
  mem : ∀ b ∈ word, cls b = true
  stop : ∀ b ∈ rest.head?, cls b = false

/-- `%[...]`: the longest run, if it is not empty, and the rest. -/
def scanRun (cls : UInt8 → Bool) (input : List UInt8) : Option (List UInt8 × List UInt8) :=
  if input.takeWhile cls = [] then none
  else some (input.takeWhile cls, input.dropWhile cls)

section Runs

variable {cls : UInt8 → Bool} {input word rest : List UInt8}

theorem Run.takeWhile_eq (h : Run cls word rest) : (word ++ rest).takeWhile cls = word :=
  FlatRegex.takeWhile_run h.mem h.stop

theorem Run.dropWhile_eq (h : Run cls word rest) : (word ++ rest).dropWhile cls = rest := by
  rw [List.dropWhile_append_of_pos h.mem]
  cases rest with
  | nil => rfl
  | cons b rest => simp [h.stop b rfl]

/-- Every string starts with a run, possibly an empty one. -/
theorem run_takeWhile (cls : UInt8 → Bool) (input : List UInt8) :
    Run cls (input.takeWhile cls) (input.dropWhile cls) where
  mem := fun _ hb ↦ List.mem_takeWhile_imp hb
  stop := by
    intro b hb
    have hhead := List.head?_dropWhile_not cls input
    rw [Option.mem_def.mp hb] at hhead
    simpa using hhead

theorem scanRun_eq_some_iff :
    scanRun cls input = some (word, rest) ↔
      word ≠ [] ∧ input = word ++ rest ∧ Run cls word rest := by
  constructor
  · intro h
    unfold scanRun at h
    split_ifs at h with hempty
    obtain ⟨rfl, rfl⟩ := Prod.mk.inj (Option.some.inj h)
    exact ⟨hempty, (List.takeWhile_append_dropWhile).symm, run_takeWhile cls input⟩
  · rintro ⟨hne, rfl, hrun⟩
    rw [scanRun, hrun.takeWhile_eq, hrun.dropWhile_eq, if_neg hne]

end Runs

/-- `strtoul` on a sign and a magnitude. -/
def strtoul (negative : Bool) (magnitude : ℕ) : ℕ :=
  if 2 ^ 64 ≤ magnitude then 2 ^ 64 - 1
  else if negative then (2 ^ 64 - magnitude) % 2 ^ 64
  else magnitude

/-- Whether there is a minus sign, and what follows the sign, if any. -/
def scanSign : List UInt8 → Bool × List UInt8
  | [] => (false, [])
  | b :: input =>
    if b = 0x2d then (true, input) else if b = 0x2b then (false, input) else (false, b :: input)

/-- What follows the base prefix `0x`, if any. -/
def scanBase : List UInt8 → List UInt8
  | zero :: x :: input =>
    if zero = 0x30 ∧ (x = 0x78 ∨ x = 0x58) then input else zero :: x :: input
  | input => input

/-- `%x`: the number and the rest. -/
def scanHex (input : List UInt8) : Option (BitVec 32 × List UInt8) :=
  let signed := scanSign (input.dropWhile isSpace)
  (scanRun isXdigit (scanBase signed.2)).map fun found ↦
    (BitVec.ofNat 32 (strtoul signed.1 (hexValue found.1)), found.2)

/-- The text that `%x` reads as the value when `rest` follows: a digit `0` alone is not the start
of a base prefix. -/
def Numeral (text rest : List UInt8) (value : BitVec 32) : Prop :=
  ∃ spaces sign base digits, text = spaces ++ (sign ++ (base ++ digits)) ∧
    (∀ b ∈ spaces, isSpace b = true) ∧
    (sign = [] ∨ sign = ascii "+" ∨ sign = ascii "-") ∧
    (base = [] ∧ scanBase (digits ++ rest) = digits ++ rest ∨
      base = ascii "0x" ∨ base = ascii "0X") ∧
    digits ≠ [] ∧ Run isXdigit digits rest ∧
    value = BitVec.ofNat 32 (strtoul (sign = ascii "-") (hexValue digits))

section Numbers

variable {input rest : List UInt8} {value : BitVec 32}

/-- A sign and the rest, when the string does not go on with a sign. -/
theorem scanSign_append {sign : List UInt8}
    (hsign : sign = [] ∨ sign = ascii "+" ∨ sign = ascii "-")
    (hrest : ∀ b ∈ rest.head?, b ≠ 0x2b ∧ b ≠ 0x2d) :
    scanSign (sign ++ rest) = (decide (sign = ascii "-"), rest) := by
  rcases hsign with rfl | rfl | rfl
  · cases rest with
    | nil => rfl
    | cons b rest =>
      obtain ⟨hplus, hminus⟩ := hrest b rfl
      simp only [List.nil_append, scanSign, if_neg hminus, if_neg hplus]
      rfl
  · rfl
  · rfl

theorem exists_sign (input : List UInt8) :
    ∃ sign, (sign = [] ∨ sign = ascii "+" ∨ sign = ascii "-") ∧
      input = sign ++ (scanSign input).2 ∧ (scanSign input).1 = decide (sign = ascii "-") := by
  cases input with
  | nil => exact ⟨[], .inl rfl, rfl, rfl⟩
  | cons b input =>
    by_cases hminus : b = 0x2d
    · subst hminus
      exact ⟨ascii "-", .inr (.inr rfl), rfl, rfl⟩
    · by_cases hplus : b = 0x2b
      · subst hplus
        exact ⟨ascii "+", .inr (.inl rfl), rfl, rfl⟩
      · refine ⟨[], .inl rfl, ?_⟩
        simp only [scanSign, if_neg hminus, if_neg hplus]
        exact ⟨rfl, rfl⟩

theorem exists_base (input : List UInt8) :
    ∃ base, (base = [] ∧ scanBase input = input ∨ base = ascii "0x" ∨ base = ascii "0X") ∧
      input = base ++ scanBase input := by
  match input with
  | [] => exact ⟨[], .inl ⟨rfl, rfl⟩, rfl⟩
  | [b] => exact ⟨[], .inl ⟨rfl, rfl⟩, rfl⟩
  | zero :: x :: input =>
    by_cases hbase : zero = 0x30 ∧ (x = 0x78 ∨ x = 0x58)
    · obtain ⟨rfl, rfl | rfl⟩ := hbase
      · exact ⟨ascii "0x", .inr (.inl rfl), rfl⟩
      · exact ⟨ascii "0X", .inr (.inr rfl), rfl⟩
    · have hkept : scanBase (zero :: x :: input) = zero :: x :: input := if_neg hbase
      exact ⟨[], .inl ⟨rfl, hkept⟩, hkept.symm⟩

theorem scanHex_eq_some_iff :
    scanHex input = some (value, rest) ↔
      ∃ text, input = text ++ rest ∧ Numeral text rest value := by
  constructor
  · intro h
    simp only [scanHex, Option.map_eq_some_iff, Prod.mk.injEq, Prod.exists] at h
    obtain ⟨digits, digitsRest, hdigits, rfl, rfl⟩ := h
    obtain ⟨hne, hsplit, hrun⟩ := scanRun_eq_some_iff.mp hdigits
    obtain ⟨sign, hsign, hsigned, hnegative⟩ := exists_sign (input.dropWhile isSpace)
    obtain ⟨base, hbase, hbased⟩ := exists_base (scanSign (input.dropWhile isSpace)).2
    refine ⟨input.takeWhile isSpace ++ (sign ++ (base ++ digits)), ?_, input.takeWhile isSpace,
      sign, base, digits, rfl, (run_takeWhile isSpace input).mem, hsign, ?_, hne, hrun, ?_⟩
    · calc input = input.takeWhile isSpace ++ input.dropWhile isSpace :=
          (List.takeWhile_append_dropWhile).symm
        _ = input.takeWhile isSpace ++ (sign ++ (base ++ (digits ++ digitsRest))) := by
          rw [← hsplit, ← hbased, ← hsigned]
        _ = _ := by simp only [List.append_assoc]
    · refine hbase.imp_left fun hnone ↦ ⟨hnone.1, ?_⟩
      rw [← hsplit, hnone.2, hnone.2]
    · rw [hnegative]
  · rintro ⟨text, rfl, spaces, sign, base, digits, rfl, hspaces, hsign, hbase, hne, hrun, rfl⟩
    obtain ⟨first, digits', rfl⟩ := List.exists_cons_of_ne_nil hne
    have hfirst : isXdigit first = true := hrun.mem first List.mem_cons_self
    have hunsigned : ∀ b ∈ (base ++ (first :: digits' ++ rest)).head?, isXdigit b = true := by
      rcases hbase with ⟨rfl, -⟩ | rfl | rfl
      · simpa using hfirst
      all_goals
        intro b hb
        obtain rfl : (0x30 : UInt8) = b := Option.some.inj hb
        decide
    have hspace : Run isSpace spaces (sign ++ (base ++ (first :: digits' ++ rest))) := by
      refine ⟨hspaces, ?_⟩
      rcases hsign with rfl | rfl | rfl
      · exact fun b hb ↦ isSpace_eq_false_of_isXdigit (hunsigned b hb)
      · intro b hb
        obtain rfl : (0x2b : UInt8) = b := Option.some.inj hb
        decide
      · intro b hb
        obtain rfl : (0x2d : UInt8) = b := Option.some.inj hb
        decide
    have hbased : scanBase (base ++ (first :: digits' ++ rest)) = first :: digits' ++ rest := by
      rcases hbase with ⟨rfl, hkept⟩ | rfl | rfl
      · exact hkept
      · rfl
      · rfl
    have hinput : spaces ++ (sign ++ (base ++ first :: digits')) ++ rest =
        spaces ++ (sign ++ (base ++ (first :: digits' ++ rest))) := by
      simp only [List.append_assoc]
    unfold scanHex
    rw [hinput, hspace.dropWhile_eq,
      scanSign_append hsign fun b hb ↦ not_sign_of_isXdigit (hunsigned b hb)]
    dsimp only
    rw [hbased, scanRun_eq_some_iff.mpr ⟨hne, rfl, hrun⟩]
    rfl

theorem scanBase_cons (first : UInt8) {input : List UInt8}
    (h : ∀ b ∈ input.head?, b ≠ 0x78 ∧ b ≠ 0x58) : scanBase (first :: input) = first :: input := by
  cases input with
  | nil => rfl
  | cons b input => exact if_neg fun hbase ↦ hbase.2.elim (h b rfl).1 (h b rfl).2

/-- Bare digits are a number of their own value. -/
theorem numeral_of_digits {digits : List UInt8} (hne : digits ≠ [])
    (hrun : Run isXdigit digits rest) (hrest : ∀ b ∈ rest.head?, b ≠ 0x78 ∧ b ≠ 0x58) :
    Numeral digits rest (BitVec.ofNat 32 (strtoul false (hexValue digits))) := by
  refine ⟨[], [], [], digits, rfl, by simp, .inl rfl, .inl ⟨rfl, ?_⟩, hne, hrun, rfl⟩
  obtain ⟨first, digits, rfl⟩ := List.exists_cons_of_ne_nil hne
  apply scanBase_cons
  cases digits with
  | nil => exact hrest
  | cons second digits =>
    intro b hb
    obtain rfl : second = b := Option.some.inj hb
    exact not_base_of_isXdigit (hrun.mem second (by simp))

theorem strtoul_of_lt {magnitude : ℕ} (h : magnitude < 2 ^ 64) :
    strtoul false magnitude = magnitude :=
  if_neg h.not_ge

end Numbers

/-! ## Formats -/

inductive Conversion
  | byte (b : UInt8)
  | text (cls : UInt8 → Bool)
  | skip (cls : UInt8 → Bool)
  | hex

/-- What a conversion stores through its pointer. -/
inductive Stored
  | text (token : List UInt8)
  | number (value : BitVec 32)
  deriving DecidableEq

/-- The values that `sscanf` stores. -/
def sscanf : List Conversion → List UInt8 → List Stored
  | [], _ => []
  | .byte _ :: _, [] => []
  | .byte b :: format, c :: input => if c = b then sscanf format input else []
  | .text cls :: format, input =>
    match scanRun cls input with
    | some (token, rest) => .text token :: sscanf format rest
    | none => []
  | .skip cls :: format, input =>
    match scanRun cls input with
    | some (_, rest) => sscanf format rest
    | none => []
  | .hex :: format, input =>
    match scanHex input with
    | some (value, rest) => .number value :: sscanf format rest
    | none => []

theorem sscanf_literal (literal : List UInt8) (format : List Conversion) (input : List UInt8) :
    sscanf (literal.map .byte ++ format) (literal ++ input) = sscanf format input := by
  induction literal with
  | nil => rfl
  | cons b literal ih =>
    rw [List.map_cons, List.cons_append, List.cons_append, sscanf, if_pos rfl]
    exact ih

theorem sscanf_literal_of_not_start {literal input : List UInt8} (h : ¬ literal <+: input)
    (format : List Conversion) : sscanf (literal.map .byte ++ format) input = [] := by
  induction literal generalizing input with
  | nil => exact absurd List.nil_prefix h
  | cons b literal ih =>
    cases input with
    | nil => rfl
    | cons c input =>
      rw [List.map_cons, List.cons_append, sscanf]
      split_ifs with hb
      · subst hb
        exact ih fun hrest ↦ h ((List.prefix_cons_inj c).mpr hrest)
      · rfl

end Vodka.Foundation.Scanf

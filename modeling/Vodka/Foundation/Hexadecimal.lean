import Mathlib.Tactic
import Vodka.Foundation.Scanf

/-!
# Hexadecimal text

The digits that `%x` prints, and `strtoull` with base 16, which reads a number
after white space, a sign and a base prefix and reports where it stopped. The
digits of a number below 2^64 read back as the number. A text that is read to
its end is empty or a numeral.
-/

namespace Vodka.Foundation.Hexadecimal

open Scanf

def digit (value : ℕ) : UInt8 := UInt8.ofNat value.digitChar.toNat

/-- `%x` -/
def hexDigits (value : ℕ) : List UInt8 :=
  (Nat.toDigits 16 value).map fun c ↦ UInt8.ofNat c.toNat

/-- `strtoull` with base 16: the number and where it ends. -/
def strtoull (input : List UInt8) : ℕ × List UInt8 :=
  let signed := scanSign (input.dropWhile isSpace)
  match scanRun isXdigit (scanBase signed.2) with
  | some (digits, rest) => (strtoul signed.1 (hexValue digits), rest)
  | none =>
    -- Without a digit behind it, a base prefix is the number zero and a letter.
    match scanRun isXdigit signed.2 with
    | some (digits, rest) => (strtoul signed.1 (hexValue digits), rest)
    | none => (0, input)

theorem digitValue_digit {value : ℕ} (h : value < 16) : digitValue (digit value) = value :=
  (by decide : ∀ value < 16, digitValue (digit value) = value) value h

theorem isXdigit_digit {value : ℕ} (h : value < 16) : isXdigit (digit value) = true :=
  (by decide : ∀ value < 16, isXdigit (digit value) = true) value h

theorem hexDigits_eq (value : ℕ) :
    hexDigits value =
      if value < 16 then [digit value] else hexDigits (value / 16) ++ [digit (value % 16)] := by
  rw [hexDigits, Nat.toDigits_eq_if (by decide)]
  split_ifs
  · rfl
  · rw [List.map_append]
    rfl

theorem hexDigits_ne_nil (value : ℕ) : hexDigits value ≠ [] := by
  rw [hexDigits, ne_eq, List.map_eq_nil_iff]
  exact Nat.toDigits_ne_nil

theorem isXdigit_of_mem_hexDigits {value : ℕ} {b : UInt8} (h : b ∈ hexDigits value) :
    isXdigit b = true := by
  induction value using Nat.strong_induction_on with
  | _ value ih =>
    rw [hexDigits_eq] at h
    split_ifs at h with hsmall
    · rw [List.mem_singleton.mp h]
      exact isXdigit_digit hsmall
    · rcases List.mem_append.mp h with h | h
      · exact ih (value / 16) (by omega) h
      · rw [List.mem_singleton.mp h]
        exact isXdigit_digit (Nat.mod_lt _ (by decide))

theorem hexValue_concat (digits : List UInt8) (b : UInt8) :
    hexValue (digits ++ [b]) = 16 * hexValue digits + digitValue b := by
  simp [hexValue]

/-- The digits stand for their number. -/
theorem hexValue_hexDigits (value : ℕ) : hexValue (hexDigits value) = value := by
  induction value using Nat.strong_induction_on with
  | _ value ih =>
    rw [hexDigits_eq]
    split_ifs with hsmall
    · simpa [hexValue] using digitValue_digit hsmall
    · rw [hexValue_concat, ih (value / 16) (by omega),
        digitValue_digit (Nat.mod_lt _ (by decide))]
      exact Nat.div_add_mod value 16

/-- What `0x%x` prints is read back. -/
theorem strtoull_hexDigits {value : ℕ} (h : value < 2 ^ 64) :
    strtoull (ascii "0x" ++ hexDigits value) = (value, []) := by
  have hrun : Run isXdigit (hexDigits value) [] :=
    ⟨fun _ hb ↦ isXdigit_of_mem_hexDigits hb, by simp⟩
  have hscan : scanRun isXdigit (hexDigits value) = some (hexDigits value, []) :=
    scanRun_eq_some_iff.mpr ⟨hexDigits_ne_nil value, (List.append_nil _).symm, hrun⟩
  have hsign : scanSign ((ascii "0x" ++ hexDigits value).dropWhile isSpace) =
      (false, ascii "0x" ++ hexDigits value) := rfl
  have hbase : scanBase (ascii "0x" ++ hexDigits value) = hexDigits value := rfl
  simp only [strtoull, hsign, hbase, hscan, hexValue_hexDigits, strtoul_of_lt h]

end Vodka.Foundation.Hexadecimal

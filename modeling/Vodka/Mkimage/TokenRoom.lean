import Mathlib.Tactic
import Vodka.Mkimage.Directives

/-!
# Room for the tokens of a line

The conversions `%[^ \t]` and `%[^"]` have no width. The path of an HSE line
cannot be longer than the line that its buffer is made for, but the buffers for
the first word of a DCD line and of a DATA_FILE line have the size of half a
table of pointers and of one pointer. Tokens fit exactly when these words do.
-/

namespace Vodka.Mkimage.TokenRoom

open Foundation.Scanf Config Directives

variable {line token : List UInt8} {room : ℕ} {allocates : ℕ → Bool}

/-- Handling the line stores no token that is longer than its buffer. -/
def TokensFit (allocates : ℕ → Bool) (line : List UInt8) : Prop :=
  readDirective allocates line ≠ .error .outOfBounds

/-- The bytes in front of the first space or tab. -/
def firstWord (line : List UInt8) : List UInt8 := line.takeWhile fun b ↦ !isBlank b

/-- The first words that are copied to buffers of fixed size fit in them. -/
structure WordsFit (line : List UInt8) : Prop where
  dcd : ascii "DCD" <+: line → (firstWord (ltrim (line.drop 3))).length ≤ 27
  dataFile : ascii "DATA_FILE" <+: line → (firstWord (ltrim (line.drop 9))).length ≤ 7

theorem storeToken_of_fits (h : token.length + 1 ≤ room) : storeToken room token = .ok token :=
  if_pos h

theorem storeToken_of_not_fits (h : ¬ token.length + 1 ≤ room) :
    storeToken room token = .error .outOfBounds :=
  if_neg h

/-- The first word is stored whatever follows it. -/
theorem sscanf_word (format : List Conversion) (line : List UInt8) :
    sscanf (wordFormat :: format) line =
      if firstWord line = [] then []
      else .text (firstWord line) :: sscanf format (line.dropWhile fun b ↦ !isBlank b) := by
  by_cases hempty : firstWord line = []
  · have hrun : scanRun (fun b ↦ !isBlank b) line = none := if_pos hempty
    rw [if_pos hempty, wordFormat, sscanf, hrun]
  · have hrun : scanRun (fun b ↦ !isBlank b) line =
        some (firstWord line, line.dropWhile fun b ↦ !isBlank b) := if_neg hempty
    rw [if_neg hempty, wordFormat, sscanf, hrun]

/-- A parser that scans a word and then goes on within bounds fails to be so only when the word
does not fit. -/
theorem word_outOfBounds_iff {β : Type} (format : List Conversion)
    {next : List Stored → List UInt8 → Except Failure β}
    (hnext : ∀ numbers word, next numbers word ≠ .error .outOfBounds) :
    (match sscanf (wordFormat :: format) line with
      | .text word :: numbers => storeToken (room + 1) word >>= next numbers
      | _ => .error (.error (-EINVAL))) = .error .outOfBounds ↔
      room < (firstWord line).length := by
  rw [sscanf_word]
  by_cases hempty : firstWord line = []
  · simp [hempty]
  · rw [if_neg hempty]
    dsimp only
    by_cases hfits : (firstWord line).length + 1 ≤ room + 1
    · rw [storeToken_of_fits hfits]
      exact iff_of_false (hnext _ _) (by omega)
    · rw [storeToken_of_not_fits hfits]
      exact iff_of_true rfl (by omega)

theorem scanDcdArgs_eq_outOfBounds_iff :
    scanDcdArgs line = .error .outOfBounds ↔ 27 < (firstWord line).length := by
  have hsize : dcdCmdSize = 27 + 1 := by decide
  unfold scanDcdArgs
  rw [dcdFormat, hsize]
  apply word_outOfBounds_iff
  intro numbers word
  split <;> simp

theorem readDcdCmd_eq_outOfBounds_iff :
    readDcdCmd line = .error .outOfBounds ↔ 27 < (firstWord line).length := by
  rw [← scanDcdArgs_eq_outOfBounds_iff, readDcdCmd]
  cases scanDcdArgs line <;> simp [Except.map]

theorem readDataFileCmd_eq_outOfBounds_iff :
    readDataFileCmd line = .error .outOfBounds ↔ 7 < (firstWord line).length := by
  have hsize : dataFileCmdSize = 7 + 1 := by decide
  unfold readDataFileCmd
  rw [dataFileFormat, hsize]
  apply word_outOfBounds_iff
  intro numbers word
  split
  · split_ifs <;> simp
  · simp

/-- A path between quotes is shorter than the line. -/
theorem readHseCmd_ne_outOfBounds (hline : line.length ≤ 256) :
    readHseCmd allocates line ≠ .error .outOfBounds := by
  unfold readHseCmd
  dsimp only
  split_ifs with halloc
  · cases line with
    | nil => simp [hseFormat, sscanf]
    | cons quote input =>
      by_cases hquote : quote = 0x22
      · have hlength : (input.takeWhile fun b ↦ b != 0x22).length ≤ input.length :=
          (List.takeWhile_prefix _).length_le
        have hfits : (input.takeWhile fun b ↦ b != 0x22).length + 1 ≤
            min (quote :: input).length 256 := by
          rw [List.length_cons] at hline ⊢
          omega
        by_cases hempty : (input.takeWhile fun b ↦ b != 0x22) = []
        · simp [hseFormat, sscanf, scanRun, hquote, hempty]
        · simp only [hseFormat, sscanf, if_pos hquote, scanRun, if_neg hempty]
          rw [storeToken_of_fits hfits]
          simp [Except.map]
      · simp [hseFormat, sscanf, hquote]
  · simp

/-- No tag is the start of another one, so the first that fits is the only one. -/
theorem readDirective_of_tag {tag : List UInt8} {parse : List UInt8 → Except Failure Directive}
    (hparser : (tag, parse) ∈ parsers allocates) (htag : tag <+: line) :
    readDirective allocates line = parse (ltrim (line.drop tag.length)) := by
  obtain ⟨rest, rfl⟩ := htag
  simp only [parsers, List.mem_cons, Prod.mk.injEq, List.not_mem_nil, or_false] at hparser
  rcases hparser with ⟨rfl, rfl⟩ | ⟨rfl, rfl⟩ | ⟨rfl, rfl⟩ | ⟨rfl, rfl⟩ | ⟨rfl, rfl⟩ | ⟨rfl, rfl⟩ |
    ⟨rfl, rfl⟩ <;> rfl

theorem readDirective_of_no_tag
    (h : ∀ parser ∈ parsers allocates, ¬ parser.1 <+: line) :
    readDirective allocates line = .error (.error (-EINVAL)) := by
  have hnone : ((parsers allocates).find? fun parser ↦ parser.1.isPrefixOf line) = none := by
    rw [List.find?_eq_none]
    intro parser hparser
    rw [List.isPrefixOf_iff_prefix]
    exact h parser hparser
  rw [readDirective, hnone]

theorem readBootCore_ne_outOfBounds : readBootCore line ≠ .error .outOfBounds := by
  unfold readBootCore
  split_ifs <;> simp

theorem readBootCmd_ne_outOfBounds : readBootCmd line ≠ .error .outOfBounds := by
  unfold readBootCmd
  split_ifs <;> simp

/-- The lines that are neither DCD nor DATA_FILE lines need no condition. -/
theorem tokensFit_of_other (hline : line.length ≤ 255) (hdcd : ¬ ascii "DCD" <+: line)
    (hdata : ¬ ascii "DATA_FILE" <+: line) : TokensFit allocates line := by
  unfold TokensFit
  by_cases hknown : ∃ parser ∈ parsers allocates, parser.1 <+: line
  · obtain ⟨⟨tag, parse⟩, hparser, htag⟩ := hknown
    rw [readDirective_of_tag hparser htag]
    simp only [parsers, List.mem_cons, Prod.mk.injEq, List.not_mem_nil, or_false] at hparser
    rcases hparser with ⟨rfl, rfl⟩ | ⟨rfl, rfl⟩ | ⟨rfl, rfl⟩ | ⟨rfl, rfl⟩ | ⟨rfl, rfl⟩ |
      ⟨rfl, rfl⟩ | ⟨rfl, rfl⟩
    · exact readBootCore_ne_outOfBounds
    · exact readBootCmd_ne_outOfBounds
    · apply readHseCmd_ne_outOfBounds
      have htrimmed := ((List.dropWhile_suffix isSpace).trans
        (List.drop_suffix (ascii "HSE_FW").length line)).length_le
      exact htrimmed.trans (by omega)
    · exact absurd htag hdcd
    · simp [readQspiCmd]
    · exact absurd htag hdata
    · simp [readErr051257]
  · simp only [not_exists, not_and] at hknown
    rw [readDirective_of_no_tag hknown]
    simp

/-- **Token buffers.** While a line of at most 255 bytes is handled, every token fits in its
buffer, exactly when the first words of DCD and DATA_FILE lines have at most 27 and 7 bytes. -/
theorem tokensFit_iff (allocates : ℕ → Bool) {line : List UInt8} (hline : line.length ≤ 255) :
    TokensFit allocates line ↔ WordsFit line := by
  by_cases hdcd : ascii "DCD" <+: line
  · have hdata : ¬ ascii "DATA_FILE" <+: line := by
      obtain ⟨rest, rfl⟩ := hdcd
      rw [← List.isPrefixOf_iff_prefix]
      exact Bool.false_ne_true
    have hread : readDirective allocates line = readDcdCmd (ltrim (line.drop 3)) :=
      readDirective_of_tag (by simp [parsers]) hdcd
    rw [TokensFit, hread, Ne, readDcdCmd_eq_outOfBounds_iff, not_lt]
    exact ⟨fun h ↦ ⟨fun _ ↦ h, fun hfalse ↦ absurd hfalse hdata⟩, fun h ↦ h.dcd hdcd⟩
  · by_cases hdata : ascii "DATA_FILE" <+: line
    · have hread : readDirective allocates line = readDataFileCmd (ltrim (line.drop 9)) :=
        readDirective_of_tag (by simp [parsers]) hdata
      rw [TokensFit, hread, Ne, readDataFileCmd_eq_outOfBounds_iff, not_lt]
      exact ⟨fun h ↦ ⟨fun hfalse ↦ absurd hfalse hdcd, fun _ ↦ h⟩, fun h ↦ h.dataFile hdata⟩
    · exact iff_of_true (tokensFit_of_other hline hdcd hdata)
        ⟨fun hfalse ↦ absurd hfalse hdcd, fun hfalse ↦ absurd hfalse hdata⟩

theorem tokensFit_iff_write :
    TokensFit (fun _ ↦ true) (ascii "DCD WRITE 0x4 0x40 0x1") ↔
      WordsFit (ascii "DCD WRITE 0x4 0x40 0x1") :=
  tokensFit_iff (fun _ ↦ true) (by decide)

/-- The enumerator `SET_SIZE` in place of the keyword overruns its buffer by the NUL. -/
theorem setSize_not_tokensFit :
    ¬ ∀ line : List UInt8, line.length ≤ 255 → TokensFit (fun _ ↦ true) line := by
  intro h
  refine h (ascii "DATA_FILE SET_SIZE 0x1000") (by decide) ?_
  have hread : readDirective (fun _ ↦ true) (ascii "DATA_FILE SET_SIZE 0x1000") =
      readDataFileCmd (ascii "SET_SIZE 0x1000") := by decide
  rw [hread, readDataFileCmd_eq_outOfBounds_iff]
  decide

end Vodka.Mkimage.TokenRoom

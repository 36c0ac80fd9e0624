import Mathlib.Tactic

/-!
# Reading lines through a buffer

A reader takes symbols up to and including the next newline, but not more than
its buffer has room for. A text becomes a sequence of pieces: a line that fits
is one piece, a longer one is cut wherever the buffer is full. The pieces are
those of the lines taken one by one, and joined they are the text.
-/

namespace Vodka.Foundation.LineBuffer

variable {α : Type*} [DecidableEq α]

/-- One read with the given room: the piece and what is left of the input. -/
def readPiece (newline : α) : ℕ → List α → List α × List α
  | 0, input => ([], input)
  | _ + 1, [] => ([], [])
  | room + 1, b :: input =>
    if b = newline then ([b], input)
    else
      let after := readPiece newline room input
      (b :: after.1, after.2)

/-- Reads until the input is used up or the fuel is. -/
def readPieces (newline : α) (room : ℕ) : ℕ → List α → List (List α)
  | 0, _ => []
  | _ + 1, [] => []
  | fuel + 1, b :: input =>
    let after := readPiece newline room (b :: input)
    after.1 :: readPieces newline room fuel after.2

/-- The pieces that the input is read in. -/
def pieces (newline : α) (room : ℕ) (input : List α) : List (List α) :=
  readPieces newline room input.length input

variable {newline : α} {room fuel : ℕ} {content : List α}

theorem readPiece_line (hcontent : newline ∉ content) (room : ℕ) (rest : List α) :
    readPiece newline room (content ++ newline :: rest) =
      if content.length < room then (content ++ [newline], rest)
      else (content.take room, content.drop room ++ newline :: rest) := by
  induction content generalizing room with
  | nil =>
    cases room with
    | zero => rfl
    | succ room => simp [readPiece]
  | cons b content ih =>
    have hb : b ≠ newline := fun h ↦ hcontent (h ▸ List.mem_cons_self)
    cases room with
    | zero => rfl
    | succ room =>
      rw [List.cons_append, readPiece, if_neg hb, ih fun h ↦ hcontent (List.mem_cons_of_mem _ h)]
      by_cases hfits : content.length < room
      · rw [if_pos hfits, if_pos (by simpa using hfits)]
        rfl
      · rw [if_neg hfits, if_neg (by simpa using hfits)]
        rfl

theorem readPiece_of_not_mem (hcontent : newline ∉ content) (room : ℕ) :
    readPiece newline room content = (content.take room, content.drop room) := by
  induction content generalizing room with
  | nil => cases room <;> rfl
  | cons b content ih =>
    have hb : b ≠ newline := fun h ↦ hcontent (h ▸ List.mem_cons_self)
    cases room with
    | zero => rfl
    | succ room =>
      rw [readPiece, if_neg hb, ih fun h ↦ hcontent (List.mem_cons_of_mem _ h)]
      rfl

/-- A read only cuts the input in two. -/
theorem readPiece_append (newline : α) (room : ℕ) (input : List α) :
    (readPiece newline room input).1 ++ (readPiece newline room input).2 = input := by
  induction input generalizing room with
  | nil => cases room <;> rfl
  | cons b input ih =>
    cases room with
    | zero => rfl
    | succ room =>
      rw [readPiece]
      split_ifs
      · rfl
      · exact congrArg (b :: ·) (ih room)

theorem readPiece_ne_nil (newline : α) (hroom : 0 < room) (b : α) (input : List α) :
    (readPiece newline room (b :: input)).1 ≠ [] := by
  obtain ⟨room, rfl⟩ := Nat.exists_eq_succ_of_ne_zero hroom.ne'
  rw [readPiece]
  split_ifs <;> exact List.cons_ne_nil _ _

/-- With room for one symbol a read consumes some of the input. -/
theorem readPiece_consumes (newline : α) (hroom : 0 < room) (b : α) (input : List α) :
    (readPiece newline room (b :: input)).2.length ≤ input.length := by
  have hlength := congrArg List.length (readPiece_append newline room (b :: input))
  have hpos := List.length_pos_iff.mpr (readPiece_ne_nil newline hroom b input)
  rw [List.length_append, List.length_cons] at hlength
  omega

/-- More fuel than symbols makes no difference. -/
theorem readPieces_eq (hroom : 0 < room) {input : List α} (hfuel : input.length ≤ fuel) :
    readPieces newline room fuel input = pieces newline room input := by
  induction fuel using Nat.strong_induction_on generalizing input with
  | _ fuel ih =>
    cases input with
    | nil => cases fuel <;> rfl
    | cons b input =>
      obtain ⟨fuel, rfl⟩ := Nat.exists_eq_succ_of_ne_zero (Nat.ne_of_gt (Nat.zero_lt_of_lt hfuel))
      have hconsumed := readPiece_consumes newline hroom b input
      rw [List.length_cons] at hfuel
      rw [pieces, List.length_cons, readPieces, readPieces]
      congr 1
      rw [ih fuel (Nat.lt_succ_self _) (by omega), ih input.length (by omega) hconsumed]

theorem pieces_nil (newline : α) (room : ℕ) : pieces newline room [] = [] := rfl

theorem pieces_eq (hroom : 0 < room) {input : List α} (hinput : input ≠ []) :
    pieces newline room input =
      (readPiece newline room input).1 :: pieces newline room (readPiece newline room input).2 := by
  obtain ⟨b, input, rfl⟩ := List.exists_cons_of_ne_nil hinput
  rw [pieces, List.length_cons, readPieces,
    readPieces_eq hroom (readPiece_consumes newline hroom b input)]

/-- The pieces of a line: itself, or a full buffer and the pieces of the rest. -/
theorem pieces_line (hroom : 0 < room) (hcontent : newline ∉ content) (rest : List α) :
    pieces newline room (content ++ newline :: rest) =
      if content.length < room then (content ++ [newline]) :: pieces newline room rest
      else content.take room :: pieces newline room (content.drop room ++ newline :: rest) := by
  rw [pieces_eq hroom (by simp), readPiece_line hcontent]
  split_ifs <;> rfl

theorem pieces_of_not_mem (hroom : 0 < room) (hcontent : newline ∉ content) (hne : content ≠ []) :
    pieces newline room content =
      content.take room :: pieces newline room (content.drop room) := by
  rw [pieces_eq hroom hne, readPiece_of_not_mem hcontent]

/-- The pieces of a line are its own, whatever follows it. -/
theorem pieces_append (hroom : 0 < room) (hcontent : newline ∉ content) (rest : List α) :
    pieces newline room (content ++ newline :: rest) =
      pieces newline room (content ++ [newline]) ++ pieces newline room rest := by
  induction hlength : content.length using Nat.strong_induction_on generalizing content with
  | _ length ih =>
    rw [pieces_line hroom hcontent, pieces_line hroom hcontent]
    split_ifs with hfits
    · rfl
    · have hshorter : (content.drop room).length < length := by
        rw [List.length_drop]
        omega
      rw [ih _ hshorter (fun h ↦ hcontent (List.mem_of_mem_drop h)) rfl]
      rfl

theorem flatten_pieces (newline : α) (hroom : 0 < room) (input : List α) :
    (pieces newline room input).flatten = input := by
  induction hlength : input.length using Nat.strong_induction_on generalizing input with
  | _ length ih =>
    cases input with
    | nil => rfl
    | cons b input =>
      have hshorter : (readPiece newline room (b :: input)).2.length < length := by
        have hconsumed := readPiece_consumes newline hroom b input
        rw [List.length_cons] at hlength
        omega
      rw [pieces_eq hroom (List.cons_ne_nil _ _), List.flatten_cons, ih _ hshorter _ rfl,
        readPiece_append]

theorem ne_nil_of_mem_pieces (hroom : 0 < room) {input piece : List α}
    (h : piece ∈ pieces newline room input) : piece ≠ [] := by
  induction hlength : input.length using Nat.strong_induction_on generalizing input with
  | _ length ih =>
    cases input with
    | nil => simp [pieces_nil] at h
    | cons b input =>
      rw [pieces_eq hroom (List.cons_ne_nil _ _), List.mem_cons] at h
      rcases h with rfl | hrest
      · exact readPiece_ne_nil newline hroom b input
      · have hconsumed := readPiece_consumes newline hroom b input
        rw [List.length_cons] at hlength
        exact ih _ (by omega) hrest rfl

/-- A text is read line by line; its lines are free of newlines and hold nothing new. -/
theorem pieces_splitOn (newline : α) (hroom : 0 < room) (input : List α) :
    ∃ lines last, input.splitOn newline = lines ++ [last] ∧
      pieces newline room input =
        lines.flatMap (fun line ↦ pieces newline room (line ++ [newline])) ++
          pieces newline room last ∧
      ∀ line ∈ lines ++ [last], newline ∉ line ∧ ∀ b ∈ line, b ∈ input := by
  induction hlength : input.length using Nat.strong_induction_on generalizing input with
  | _ length ih =>
    by_cases hmem : newline ∈ input
    · obtain ⟨content, rest, rfl, hcontent⟩ := List.eq_append_cons_of_mem hmem
      rw [List.length_append, List.length_cons] at hlength
      obtain ⟨lines, last, hsplit, hpieces, hlines⟩ := ih rest.length (by omega) rest rfl
      refine ⟨content :: lines, last, ?_, ?_, ?_⟩
      · rw [List.splitOn_append_cons_self_of_not_mem hcontent, hsplit, List.cons_append]
      · rw [pieces_append hroom hcontent, hpieces, List.flatMap_cons, List.append_assoc]
      · intro line hline
        rw [List.cons_append, List.mem_cons] at hline
        rcases hline with rfl | hline
        · exact ⟨hcontent, fun b hb ↦ List.mem_append_left _ hb⟩
        · obtain ⟨hfree, hkept⟩ := hlines line hline
          exact ⟨hfree, fun b hb ↦
            List.mem_append_right _ (List.mem_cons_of_mem _ (hkept b hb))⟩
    · refine ⟨[], input, List.splitOn_eq_singleton hmem, rfl, ?_⟩
      intro line hline
      rw [List.nil_append, List.mem_singleton] at hline
      subst hline
      exact ⟨hmem, fun _ hb ↦ hb⟩

end Vodka.Foundation.LineBuffer

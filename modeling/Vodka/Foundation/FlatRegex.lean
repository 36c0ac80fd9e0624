import Mathlib.Tactic

/-!
# Regular expressions without nesting

A flat expression is a sequence of items: a fixed text, or a repeated class of
symbols. Matching is leftmost and longest; among the ways to cut the longest
match into items, earlier items take as much as they can. Every way to cut a
match gives one word for each item, so the range of a submatch is that of the
words it spans.
-/

namespace Vodka.Foundation.FlatRegex

variable {α : Type*}

/-- One item of a flat expression. -/
inductive Item (α : Type*)
  | lit (text : List α)
  | many (cls : α → Bool)
  | plus (cls : α → Bool)

/-- The words that an item matches. -/
def Item.Accepts : Item α → List α → Prop
  | .lit text, word => word = text
  | .many cls, word => ∀ a ∈ word, cls a
  | .plus cls, word => word ≠ [] ∧ ∀ a ∈ word, cls a

/-- A sequence of items, bound to the start or the end of the subject or to neither. -/
structure Regex (α : Type*) where
  items : List (Item α)
  atStart : Bool := false
  atEnd : Bool := false

/-- A match: where it starts, and the word of each item. -/
structure Match (α : Type*) where
  start : ℕ
  words : List (List α)
deriving DecidableEq

namespace Match

variable (found : Match α)

def length : ℕ := found.words.flatten.length

def stop : ℕ := found.start + found.length

/-- Start of the item with the given index. -/
def so (index : ℕ) : ℕ := found.start + (found.words.take index).flatten.length

/-- End of the item with the given index. -/
def eo (index : ℕ) : ℕ := found.start + (found.words.take (index + 1)).flatten.length

theorem so_le_eo (index : ℕ) : found.so index ≤ found.eo index := by
  apply Nat.add_le_add_left
  rw [List.take_add_one, List.flatten_append, List.length_append]
  exact Nat.le_add_right _ _

theorem eo_le_stop (index : ℕ) : found.eo index ≤ found.stop := by
  apply Nat.add_le_add_left
  calc (found.words.take (index + 1)).flatten.length
      ≤ (found.words.take (index + 1)).flatten.length +
          (found.words.drop (index + 1)).flatten.length := Nat.le_add_right _ _
    _ = found.length := by
      rw [← List.length_append, ← List.flatten_append, List.take_append_drop]
      rfl
end Match

variable [DecidableEq α]

/-- The words an item matches at the front of the subject, the longest first. -/
def Item.heads : Item α → List α → List (List α)
  | .lit text, subject => if text.isPrefixOf subject then [text] else []
  | .many cls, subject => (subject.takeWhile cls).inits.reverse
  | .plus cls, subject => (subject.takeWhile cls).inits.reverse.filter fun word ↦ !word.isEmpty

/-- All ways to match the items at the front of the subject, in order of preference. -/
def splits : List (Item α) → List α → List (List (List α))
  | [], _ => [[]]
  | item :: items, subject => (item.heads subject).flatMap fun word ↦
      (splits items (subject.drop word.length)).map (word :: ·)

/-- One word for each item. -/
abbrev Parse (items : List (Item α)) (words : List (List α)) : Prop :=
  List.Forall₂ Item.Accepts items words

omit [DecidableEq α] in
theorem prefix_takeWhile_iff (cls : α → Bool) (word subject : List α) :
    word <+: subject.takeWhile cls ↔ (∀ a ∈ word, cls a) ∧ word <+: subject := by
  constructor
  · intro h
    refine ⟨fun a ha ↦ ?_, h.trans (List.takeWhile_prefix cls)⟩
    exact List.all_eq_true.1 List.all_takeWhile a (h.subset ha)
  · rintro ⟨hword, rest, rfl⟩
    rw [List.takeWhile_append_of_pos hword]
    exact List.prefix_append _ _

theorem Item.mem_heads (item : Item α) (word subject : List α) :
    word ∈ item.heads subject ↔ item.Accepts word ∧ word <+: subject := by
  cases item with
  | lit text =>
    by_cases h : text <+: subject
    · simp only [heads, List.isPrefixOf_iff_prefix, h, if_true, List.mem_singleton, Accepts]
      exact ⟨fun hword ↦ ⟨hword, hword ▸ h⟩, And.left⟩
    · simp only [heads, List.isPrefixOf_iff_prefix, h, if_false, List.not_mem_nil, Accepts,
        false_iff]
      exact fun hword ↦ h (hword.1 ▸ hword.2)
  | many cls =>
    simp only [heads, List.mem_reverse, List.mem_inits, prefix_takeWhile_iff, Accepts]
  | plus cls =>
    simp only [heads, List.mem_filter, List.mem_reverse, List.mem_inits, prefix_takeWhile_iff,
      Accepts, Bool.not_eq_true', List.isEmpty_eq_false_iff]
    tauto

theorem mem_splits (items : List (Item α)) (words : List (List α)) (subject : List α) :
    words ∈ splits items subject ↔ Parse items words ∧ words.flatten <+: subject := by
  induction items generalizing words subject with
  | nil =>
    simp only [splits, List.mem_singleton, List.forall₂_nil_left_iff]
    exact ⟨fun h ↦ ⟨h, by simp [h]⟩, And.left⟩
  | cons item items ih =>
    simp only [splits, List.mem_flatMap, List.mem_map, Item.mem_heads, ih,
      List.forall₂_cons_left_iff]
    constructor
    · rintro ⟨word, ⟨haccept, rest, rfl⟩, words, ⟨hparse, hfront⟩, rfl⟩
      refine ⟨⟨word, words, haccept, hparse, rfl⟩, ?_⟩
      rw [List.drop_left] at hfront
      rw [List.flatten_cons]
      exact (List.prefix_append_right_inj word).2 hfront
    · rintro ⟨⟨word, words, haccept, hparse, rfl⟩, rest, rfl⟩
      refine ⟨word, ⟨haccept, words.flatten ++ rest, by simp⟩, words, ⟨hparse, rest, ?_⟩, rfl⟩
      simp

/-- The preferred match at the front of the subject. -/
def matchAt (regex : Regex α) (subject : List α) : Option (List (List α)) :=
  ((splits regex.items subject).filter fun words ↦
    !regex.atEnd || words.flatten.length == subject.length).argmax fun words ↦ words.flatten.length

/-- A way to match at the front of the subject. -/
structure FitsAt (regex : Regex α) (subject : List α) (words : List (List α)) : Prop where
  parse : Parse regex.items words
  isPrefix : words.flatten <+: subject
  reaches : regex.atEnd = true → words.flatten.length = subject.length

theorem mem_candidates {regex : Regex α} {subject : List α} {words : List (List α)} :
    (words ∈ (splits regex.items subject).filter fun words ↦
      !regex.atEnd || words.flatten.length == subject.length) ↔ FitsAt regex subject words := by
  simp only [List.mem_filter, mem_splits, Bool.or_eq_true, Bool.not_eq_true', beq_iff_eq]
  constructor
  · rintro ⟨⟨hparse, hfront⟩, hend⟩
    exact ⟨hparse, hfront, fun h ↦ hend.resolve_left (by simp [h])⟩
  · intro h
    refine ⟨⟨h.parse, h.isPrefix⟩, ?_⟩
    cases hend : regex.atEnd with
    | false => exact Or.inl rfl
    | true => exact Or.inr (h.reaches hend)

theorem matchAt_eq_none_iff {regex : Regex α} {subject : List α} :
    matchAt regex subject = none ↔ ∀ words, ¬FitsAt regex subject words := by
  rw [matchAt, List.argmax_eq_none, List.eq_nil_iff_forall_not_mem]
  simp only [mem_candidates]

theorem matchAt_fits {regex : Regex α} {subject : List α} {words : List (List α)}
    (h : matchAt regex subject = some words) : FitsAt regex subject words :=
  mem_candidates.1 (List.argmax_mem h)

theorem matchAt_longest {regex : Regex α} {subject : List α} {words other : List (List α)}
    (h : matchAt regex subject = some words) (hother : FitsAt regex subject other) :
    other.flatten.length ≤ words.flatten.length :=
  List.le_of_mem_argmax (f := fun words : List (List α) ↦ words.flatten.length)
    (mem_candidates.2 hother) h

/-- The only way to match at a place is the one found there. -/
theorem matchAt_eq_of_unique {regex : Regex α} {subject : List α} {words : List (List α)}
    (h : FitsAt regex subject words)
    (hunique : ∀ other, FitsAt regex subject other → other = words) :
    matchAt regex subject = some words := by
  cases hmatch : matchAt regex subject with
  | none => exact absurd h (matchAt_eq_none_iff.1 hmatch words)
  | some other => rw [hunique other (matchAt_fits hmatch)]

/-- At the first word that differs, the preferred one is longer. -/
abbrev Preferred : List (List α) → List (List α) → Prop :=
  List.Lex fun word other ↦ other.length < word.length

omit [DecidableEq α] in
theorem pairwise_inits (subject : List α) :
    subject.inits.Pairwise fun word other ↦ word.length < other.length := by
  induction subject with
  | nil => exact List.pairwise_singleton _ _
  | cons a subject ih =>
    rw [List.inits_cons, List.pairwise_cons, List.pairwise_map]
    constructor
    · intro word hword
      obtain ⟨front, -, rfl⟩ := List.mem_map.1 hword
      exact Nat.succ_pos _
    · exact ih.imp Nat.succ_lt_succ

theorem Item.heads_pairwise (item : Item α) (subject : List α) :
    (item.heads subject).Pairwise fun word other ↦ other.length < word.length := by
  cases item with
  | lit text =>
    rw [heads]
    split_ifs
    · exact List.pairwise_singleton _ _
    · exact List.Pairwise.nil
  | many cls => exact List.pairwise_reverse.2 (pairwise_inits _)
  | plus cls => exact (List.pairwise_reverse.2 (pairwise_inits _)).filter _

theorem splits_pairwise (items : List (Item α)) (subject : List α) :
    (splits items subject).Pairwise Preferred := by
  induction items generalizing subject with
  | nil => exact List.pairwise_singleton _ _
  | cons item items ih =>
    rw [splits, List.pairwise_flatMap]
    constructor
    · intro word _
      rw [List.pairwise_map]
      exact (ih _).imp List.Lex.cons
    · apply (item.heads_pairwise subject).imp
      intro word other hlonger words hwords others hothers
      obtain ⟨_, -, rfl⟩ := List.mem_map.1 hwords
      obtain ⟨_, -, rfl⟩ := List.mem_map.1 hothers
      exact List.Lex.rel hlonger

omit [DecidableEq α] in
/-- The first maximum comes before the others. -/
theorem eq_or_of_argmax {β : Type*} {relation : β → β → Prop} {items : List β} {f : β → ℕ}
    {first item : β} (hpairwise : items.Pairwise relation) (hfirst : first ∈ items.argmax f)
    (hitem : item ∈ items) (hle : f first ≤ f item) : first = item ∨ relation first item := by
  classical
  have hmem := List.argmax_mem hfirst
  rcases (List.index_of_argmax hfirst hitem hle).eq_or_lt with heq | hlt
  · exact Or.inl ((List.idxOf_inj hmem).1 heq)
  · right
    have hordered := List.pairwise_iff_getElem.1 hpairwise _ _ (List.idxOf_lt_length_of_mem hmem)
      (List.idxOf_lt_length_of_mem hitem) hlt
    rwa [List.getElem_idxOf, List.getElem_idxOf] at hordered

/-- Another way to match as much is not preferred. -/
theorem preferred_of_matchAt {regex : Regex α} {subject : List α} {words other : List (List α)}
    (h : matchAt regex subject = some words) (hother : FitsAt regex subject other)
    (hlength : words.flatten.length ≤ other.flatten.length) :
    words = other ∨ Preferred words other := by
  apply eq_or_of_argmax _ h (mem_candidates.2 hother) hlength
  exact (splits_pairwise _ _).filter _

/-- The way to match a whole subject that no other one is preferred to. -/
theorem matchAt_eq_of_preferred {regex : Regex α} {subject : List α} {words : List (List α)}
    (hend : regex.atEnd = true) (h : FitsAt regex subject words)
    (hbest : ∀ other, FitsAt regex subject other → ¬Preferred other words) :
    matchAt regex subject = some words := by
  cases hmatch : matchAt regex subject with
  | none => exact absurd h (matchAt_eq_none_iff.1 hmatch words)
  | some other =>
    have hother := matchAt_fits hmatch
    have hlength := (hother.reaches hend).trans (h.reaches hend).symm
    obtain rfl := (preferred_of_matchAt hmatch h hlength.le).resolve_right (hbest other hother)
    rfl

omit [DecidableEq α] in
theorem takeWhile_run {cls : α → Bool} {word rest : List α} (hword : ∀ a ∈ word, cls a)
    (hrest : ∀ a ∈ rest.head?, cls a = false) : (word ++ rest).takeWhile cls = word := by
  rw [List.takeWhile_append_of_pos hword]
  cases rest with
  | nil => simp
  | cons a rest => simp [hrest a rfl]

omit [DecidableEq α] in
/-- A run of a class that is followed by another symbol ends at one place. -/
theorem eq_of_run {cls : α → Bool} {first second rest other : List α}
    (hfirst : ∀ a ∈ first, cls a) (hsecond : ∀ a ∈ second, cls a)
    (hrest : ∀ a ∈ rest.head?, cls a = false) (hother : ∀ a ∈ other.head?, cls a = false)
    (h : first ++ rest = second ++ other) : first = second ∧ rest = other := by
  have hwords : first = second := by
    rw [← takeWhile_run hfirst hrest, h, takeWhile_run hsecond hother]
  subst hwords
  exact ⟨rfl, List.append_cancel_left h⟩

/-! ## The leftmost match -/

/-- The first place with a match. -/
def search (regex : Regex α) : List α → Option (Match α)
  | [] => (matchAt regex []).map fun words ↦ ⟨0, words⟩
  | a :: subject =>
    match matchAt regex (a :: subject) with
    | some words => some ⟨0, words⟩
    | none => (search regex subject).map fun found ↦ ⟨found.start + 1, found.words⟩

/-- The match that is reported for a subject. -/
def exec (regex : Regex α) (subject : List α) : Option (Match α) :=
  if regex.atStart then (matchAt regex subject).map fun words ↦ ⟨0, words⟩
  else search regex subject

theorem search_eq_some_iff {regex : Regex α} {subject : List α} {found : Match α} :
    search regex subject = some found ↔ found.start ≤ subject.length ∧
      matchAt regex (subject.drop found.start) = some found.words ∧
      ∀ place < found.start, matchAt regex (subject.drop place) = none := by
  induction subject generalizing found with
  | nil =>
    rcases found with ⟨start, words⟩
    simp only [search, Option.map_eq_some_iff, List.length_nil, List.drop_nil, Match.mk.injEq]
    constructor
    · rintro ⟨_, hmatch, rfl, rfl⟩
      exact ⟨le_rfl, hmatch, fun place hplace ↦ absurd hplace (Nat.not_lt_zero place)⟩
    · rintro ⟨hstart, hmatch, -⟩
      exact ⟨words, hmatch, (Nat.le_zero.1 hstart).symm, rfl⟩
  | cons a subject ih =>
    rcases found with ⟨start, words⟩
    cases hfront : matchAt regex (a :: subject) with
    | some front =>
      simp only [search, hfront, Option.some.injEq, Match.mk.injEq]
      constructor
      · rintro ⟨rfl, rfl⟩
        exact ⟨Nat.zero_le _, hfront, fun place hplace ↦ absurd hplace (Nat.not_lt_zero place)⟩
      · rintro ⟨-, hmatch, hbefore⟩
        have hstart : start = 0 := by
          by_contra hne
          simpa [hfront] using hbefore 0 (Nat.pos_of_ne_zero hne)
        subst hstart
        exact ⟨rfl, Option.some.inj (hfront.symm.trans hmatch)⟩
    | none =>
      simp only [search, hfront, Option.map_eq_some_iff, ih]
      constructor
      · rintro ⟨found, ⟨hstart, hmatch, hbefore⟩, hfound⟩
        obtain ⟨rfl, rfl⟩ := Match.mk.inj hfound
        refine ⟨Nat.succ_le_succ hstart, hmatch, fun place hplace ↦ ?_⟩
        cases place with
        | zero => exact hfront
        | succ place => exact hbefore place (Nat.lt_of_succ_lt_succ hplace)
      · rintro ⟨hstart, hmatch, hbefore⟩
        cases start with
        | zero => exact absurd (hfront.symm.trans hmatch) (by simp)
        | succ start =>
          refine ⟨⟨start, words⟩, ⟨Nat.le_of_succ_le_succ hstart, hmatch, fun place hplace ↦ ?_⟩,
            rfl⟩
          exact hbefore (place + 1) (Nat.succ_lt_succ hplace)

theorem search_eq_none_iff {regex : Regex α} {subject : List α} :
    search regex subject = none ↔
      ∀ place ≤ subject.length, matchAt regex (subject.drop place) = none := by
  induction subject with
  | nil =>
    simp only [search, Option.map_eq_none_iff, List.length_nil, List.drop_nil]
    exact ⟨fun h _ _ ↦ h, fun h ↦ h 0 le_rfl⟩
  | cons a subject ih =>
    cases hfront : matchAt regex (a :: subject) with
    | some front =>
      simp only [search, hfront, reduceCtorEq, false_iff]
      intro h
      simpa [hfront] using h 0 (Nat.zero_le _)
    | none =>
      simp only [search, hfront, Option.map_eq_none_iff, ih]
      constructor
      · intro h place hplace
        cases place with
        | zero => exact hfront
        | succ place => exact h place (Nat.le_of_succ_le_succ hplace)
      · intro h place hplace
        exact h (place + 1) (Nat.succ_le_succ hplace)

/-- What matches in no part of a text matches in no part of a part. -/
theorem search_eq_none_of_append {regex : Regex α} (hend : regex.atEnd = false)
    (before subject after : List α) (h : search regex (before ++ subject ++ after) = none) :
    search regex subject = none := by
  rw [search_eq_none_iff] at h ⊢
  intro place hplace
  rw [matchAt_eq_none_iff]
  rintro words ⟨hparse, hfront, -⟩
  have hwhole := h (before.length + place) (by simp; omega)
  apply matchAt_eq_none_iff.1 hwhole words
  refine ⟨hparse, ?_, fun hatEnd ↦ absurd (hend.symm.trans hatEnd) Bool.false_ne_true⟩
  rw [← List.drop_drop, List.append_assoc, List.drop_left, List.drop_append_of_le_length hplace]
  exact hfront.trans (List.prefix_append _ _)

/-- What is reported matches where it is reported. -/
theorem exec_fits {regex : Regex α} {subject : List α} {found : Match α}
    (h : exec regex subject = some found) :
    found.start ≤ subject.length ∧ FitsAt regex (subject.drop found.start) found.words := by
  rw [exec] at h
  split_ifs at h
  · obtain ⟨words, hmatch, rfl⟩ := Option.map_eq_some_iff.1 h
    exact ⟨Nat.zero_le _, matchAt_fits hmatch⟩
  · obtain ⟨hstart, hmatch, -⟩ := search_eq_some_iff.1 h
    exact ⟨hstart, matchAt_fits hmatch⟩

/-- A match stays in the subject. -/
theorem exec_stop_le {regex : Regex α} {subject : List α} {found : Match α}
    (h : exec regex subject = some found) : found.stop ≤ subject.length := by
  obtain ⟨hstart, hfits⟩ := exec_fits h
  have hlength := hfits.isPrefix.length_le
  rw [List.length_drop] at hlength
  rw [Match.stop, Match.length]
  omega

/-- The symbols of a match are those of the subject. -/
theorem exec_slice {regex : Regex α} {subject : List α} {found : Match α}
    (h : exec regex subject = some found) :
    (subject.drop found.start).take found.length = found.words.flatten :=
  (List.prefix_iff_eq_take.1 (exec_fits h).2.isPrefix).symm

/-! ## Text between two delimiters -/

/-- A nonempty run of a class between an opening text and a closing symbol. -/
def bracketed (opening : List α) (cls : α → Bool) (closing : α) : Regex α where
  items := [.lit opening, .plus cls, .lit [closing]]

section Bracketed

variable {opening subject rest name : List α} {cls : α → Bool} {closing : α}
  {words : List (List α)}

omit [DecidableEq α] in
theorem bracketed_fits_iff : FitsAt (bracketed opening cls closing) subject words ↔
    ∃ name, words = [opening, name, [closing]] ∧ name ≠ [] ∧ (∀ a ∈ name, cls a) ∧
      opening ++ name ++ [closing] <+: subject := by
  constructor
  · rintro ⟨hparse, hfront, -⟩
    simp only [bracketed, Parse, List.forall₂_cons_left_iff, List.forall₂_nil_left_iff,
      Item.Accepts] at hparse
    obtain ⟨_, _, rfl, ⟨name, _, ⟨hne, hcls⟩, ⟨_, _, rfl, rfl, rfl⟩, rfl⟩, rfl⟩ := hparse
    exact ⟨name, rfl, hne, hcls, by simpa using hfront⟩
  · rintro ⟨name, rfl, hne, hcls, hfront⟩
    refine ⟨?_, by simpa using hfront, fun h ↦ absurd h Bool.false_ne_true⟩
    simp only [bracketed, Parse, List.forall₂_cons, Item.Accepts, true_and, List.Forall₂.nil,
      and_true]
    exact ⟨hne, hcls⟩

theorem bracketed_matchAt_of_not_prefix (h : ¬opening <+: subject) :
    matchAt (bracketed opening cls closing) subject = none := by
  rw [matchAt_eq_none_iff]
  intro words hfits
  obtain ⟨name, -, -, -, hfront⟩ := bracketed_fits_iff.1 hfits
  rw [List.append_assoc] at hfront
  exact h ((List.prefix_append _ _).trans hfront)

omit [DecidableEq α] in
/-- A closing symbol behind a run of the class lies in the run or ends it. -/
theorem closing_mem_takeWhile (hclosing : cls closing) (hcls : ∀ a ∈ name, cls a)
    (h : name ++ [closing] <+: rest) : closing ∈ rest.takeWhile cls := by
  have hrun : ∀ a ∈ name ++ [closing], cls a := by
    intro a ha
    rcases List.mem_append.1 ha with ha | ha
    · exact hcls a ha
    · exact List.mem_singleton.1 ha ▸ hclosing
  exact ((prefix_takeWhile_iff cls _ _).2 ⟨hrun, h⟩).subset (by simp)

theorem bracketed_matchAt_of_not_closed (hclosing : cls closing)
    (h : closing ∉ rest.takeWhile cls) :
    matchAt (bracketed opening cls closing) (opening ++ rest) = none := by
  rw [matchAt_eq_none_iff]
  intro words hfits
  obtain ⟨name, -, -, hcls, hfront⟩ := bracketed_fits_iff.1 hfits
  rw [List.append_assoc, List.prefix_append_right_inj] at hfront
  exact h (closing_mem_takeWhile hclosing hcls hfront)

/-- Without a further closing symbol in the run, the match ends at the first one. -/
theorem bracketed_matchAt (hclosing : cls closing) (hne : name ≠ []) (hcls : ∀ a ∈ name, cls a)
    (hname : closing ∉ name) (hrest : closing ∉ rest.takeWhile cls) :
    matchAt (bracketed opening cls closing) (opening ++ name ++ closing :: rest) =
      some [opening, name, [closing]] := by
  have hsplit : opening ++ name ++ closing :: rest = (opening ++ name ++ [closing]) ++ rest := by
    simp
  apply matchAt_eq_of_unique
  · exact bracketed_fits_iff.2 ⟨name, rfl, hne, hcls, hsplit ▸ List.prefix_append _ _⟩
  · intro words hfits
    obtain ⟨other, rfl, -, hother, hfront⟩ := bracketed_fits_iff.1 hfits
    rw [List.append_assoc, List.append_assoc, List.prefix_append_right_inj] at hfront
    rcases List.prefix_or_prefix_of_prefix ((List.prefix_append other [closing]).trans hfront)
      (List.prefix_append name (closing :: rest)) with ⟨more, rfl⟩ | ⟨more, rfl⟩
    · -- the other name ends where the closing symbol of this one would have to be
      cases more with
      | nil => simp
      | cons a more =>
        rw [List.append_assoc, List.prefix_append_right_inj] at hfront
        obtain rfl : closing = a := by simpa using (List.cons_prefix_cons.1 hfront).1
        exact absurd (by simp) hname
    · cases more with
      | nil => simp
      | cons a more =>
        rw [List.append_assoc, List.prefix_append_right_inj, List.cons_append,
          List.cons_prefix_cons] at hfront
        have hmore : ∀ b ∈ more, cls b := fun b hb ↦ hother b (by simp [hb])
        exact absurd (closing_mem_takeWhile hclosing hmore hfront.2) hrest

end Bracketed

end Vodka.Foundation.FlatRegex

import Mathlib.Tactic
import Vodka.Genconfig.Scan

/-!
# Templates

What a configure file is meant to be: text without the bytes that open a
reference, and references of four forms. The references of a template are
listed with their places in the rendered line. When behind every reference the
rest of its run of printable bytes closes no further reference of its form, a
pattern matches at exactly the places of its references, and there it matches
the reference.
-/

namespace Vodka.Genconfig.Template

open Foundation.FlatRegex Replace Scan

/-- Letters, digits and the underscore. -/
def isword (b : UInt8) : Bool :=
  (0x41 ≤ b && b ≤ 0x5a) || (0x61 ≤ b && b ≤ 0x7a) || (0x30 ≤ b && b ≤ 0x39) || b == 0x5f

/-- The first byte of a reference. -/
def Form.sigil : Form → UInt8
  | .at => 0x40
  | _ => 0x24

def reference (form : Form) (name : Bytes) : Bytes := form.opening ++ name ++ [form.closing]

inductive Piece
  | text (content : Bytes)
  | ref (form : Form) (name : Bytes)

namespace Piece

def render : Piece → Bytes
  | text content => content
  | ref form name => reference form name

/-- What the line is meant to hold in the place of the piece. -/
def expected (dict : Dictionary) : Piece → Bytes
  | text content => content
  | ref form name => (dict.get name).getD (reference form name)

def WellFormed : Piece → Prop
  | text content => ∀ b ∈ content, b ≠ 0x40 ∧ b ≠ 0x24 ∧ b ≠ NUL
  | ref _ name => name ≠ [] ∧ ∀ b ∈ name, isword b

instance : DecidablePred WellFormed
  | text content => inferInstanceAs (Decidable (∀ b ∈ content, b ≠ 0x40 ∧ b ≠ 0x24 ∧ b ≠ NUL))
  | ref _ name => inferInstanceAs (Decidable (name ≠ [] ∧ ∀ b ∈ name, isword b))

end Piece

def render (template : List Piece) : Bytes := template.flatMap Piece.render

def expected (dict : Dictionary) (template : List Piece) : Bytes :=
  template.flatMap (Piece.expected dict)

def WellFormed (template : List Piece) : Prop := ∀ piece ∈ template, piece.WellFormed

instance : DecidablePred WellFormed := fun template ↦
  inferInstanceAs (Decidable (∀ piece ∈ template, piece.WellFormed))

/-- Behind every reference, the rest of its run of printable bytes closes no further reference of
its form. -/
def Isolated : List Piece → Prop
  | [] => True
  | .text _ :: rest => Isolated rest
  | .ref form _ :: rest =>
    form.closing ∉ (render rest).takeWhile isgraph ∧ Isolated rest

instance decidableIsolated : DecidablePred Isolated
  | [] => isTrue trivial
  | .text _ :: rest => decidableIsolated rest
  | .ref form _ :: rest =>
    have := decidableIsolated rest
    inferInstanceAs (Decidable (form.closing ∉ (render rest).takeWhile isgraph ∧ Isolated rest))

@[simp] theorem render_nil : render [] = [] := rfl

@[simp] theorem render_cons (piece : Piece) (rest : List Piece) :
    render (piece :: rest) = piece.render ++ render rest := rfl

@[simp] theorem expected_nil (dict : Dictionary) : expected dict [] = [] := rfl

@[simp] theorem expected_cons (dict : Dictionary) (piece : Piece) (rest : List Piece) :
    expected dict (piece :: rest) = piece.expected dict ++ expected dict rest := rfl

theorem Form.opening_eq (form : Form) : ∃ tail, form.opening = Form.sigil form :: tail ∧
    ∀ b ∈ tail, b ≠ 0x40 ∧ b ≠ 0x24 ∧ b ≠ NUL := by
  cases form <;> exact ⟨_, rfl, by decide +kernel⟩

theorem isgraph_of_isword {b : UInt8} (h : isword b) : isgraph b := by
  simp only [isword, isgraph, Bool.or_eq_true, Bool.and_eq_true, decide_eq_true_eq,
    beq_iff_eq, UInt8.le_iff_toNat_le, ← UInt8.toNat_inj, UInt8.reduceToNat] at h ⊢
  omega

theorem ne_of_isword {b : UInt8} (h : isword b) :
    b ≠ 0x40 ∧ b ≠ 0x24 ∧ b ≠ 0x7d ∧ b ≠ NUL := by
  refine ⟨?_, ?_, ?_, ?_⟩ <;> rintro rfl <;> exact absurd h (by decide)

theorem closing_not_mem (form : Form) {name : Bytes} (hname : ∀ b ∈ name, isword b) :
    form.closing ∉ name := by
  intro hclosing
  have hne := ne_of_isword (hname _ hclosing)
  cases form
  exacts [hne.1 rfl, hne.2.2.1 rfl, hne.2.2.1 rfl, hne.2.2.1 rfl]

/-- No opening is the start of a reference of another form. -/
theorem opening_not_isPrefix {form other : Form} (hne : form ≠ other) (rest : Bytes) :
    ¬form.opening <+: other.opening ++ rest := by
  intro h
  cases form <;> cases other <;>
    first
    | exact hne rfl
    | simp [Form.opening, bytes, List.cons_prefix_cons] at h

/-- A reference of a template and where it starts in the line. -/
structure Ref where
  form : Form
  name : Bytes
  start : ℕ
deriving DecidableEq

namespace Ref

variable (ref : Ref)

def text : Bytes := reference ref.form ref.name

def stop : ℕ := ref.start + ref.text.length

theorem length_text : ref.text.length = ref.form.opening.length + ref.name.length + 1 := by
  simp [text, reference, Nat.add_assoc]

theorem start_lt_stop : ref.start < ref.stop := by
  rw [stop, length_text]
  omega

end Ref

/-- The references of a template whose line starts at the offset. -/
def refsFrom : ℕ → List Piece → List Ref
  | _, [] => []
  | offset, .text content :: rest => refsFrom (offset + content.length) rest
  | offset, .ref form name :: rest =>
    ⟨form, name, offset⟩ :: refsFrom (offset + (reference form name).length) rest

def refs (template : List Piece) : List Ref := refsFrom 0 template

theorem mem_refsFrom_cons {piece : Piece} {rest : List Piece} {offset : ℕ} {ref : Ref}
    (h : ref ∈ refsFrom (offset + piece.render.length) rest) :
    ref ∈ refsFrom offset (piece :: rest) := by
  cases piece with
  | text content => exact h
  | ref form name => exact List.mem_cons_of_mem _ h

theorem le_start_of_mem {template : List Piece} {offset : ℕ} {ref : Ref}
    (h : ref ∈ refsFrom offset template) : offset ≤ ref.start := by
  induction template generalizing offset with
  | nil => exact absurd h List.not_mem_nil
  | cons piece rest ih =>
    cases piece with
    | text content => exact (Nat.le_add_right _ _).trans (ih h)
    | ref form name =>
      rcases List.mem_cons.1 h with rfl | h
      · exact le_rfl
      · exact (Nat.le_add_right _ _).trans (ih h)

theorem name_of_mem {template : List Piece} {offset : ℕ} {ref : Ref} (hwell : WellFormed template)
    (h : ref ∈ refsFrom offset template) : ref.name ≠ [] ∧ ∀ b ∈ ref.name, isword b := by
  induction template generalizing offset with
  | nil => exact absurd h List.not_mem_nil
  | cons piece rest ih =>
    have hrest : WellFormed rest := fun piece hpiece ↦ hwell piece (List.mem_cons_of_mem _ hpiece)
    cases piece with
    | text content => exact ih hrest h
    | ref form name =>
      rcases List.mem_cons.1 h with rfl | h
      · exact hwell _ List.mem_cons_self
      · exact ih hrest h

theorem stop_le_of_mem {template : List Piece} {offset : ℕ} {ref : Ref}
    (h : ref ∈ refsFrom offset template) : ref.stop ≤ offset + (render template).length := by
  induction template generalizing offset with
  | nil => exact absurd h List.not_mem_nil
  | cons piece rest ih =>
    rw [render_cons, List.length_append, ← Nat.add_assoc]
    cases piece with
    | text content => exact ih h
    | ref form name =>
      rcases List.mem_cons.1 h with rfl | h
      · exact Nat.le_add_right _ _
      · exact ih h

/-- References follow each other. -/
theorem refsFrom_pairwise (offset : ℕ) (template : List Piece) :
    (refsFrom offset template).Pairwise fun first second ↦ first.stop ≤ second.start := by
  induction template generalizing offset with
  | nil => exact List.Pairwise.nil
  | cons piece rest ih =>
    cases piece with
    | text content => exact ih _
    | ref form name => exact List.Pairwise.cons (fun ref href ↦ le_start_of_mem href) (ih _)

/-- The text of a reference stands where it starts. -/
theorem text_isPrefix {template : List Piece} {offset : ℕ} {ref : Ref}
    (h : ref ∈ refsFrom offset template) :
    ref.text <+: (render template).drop (ref.start - offset) := by
  induction template generalizing offset with
  | nil => exact absurd h List.not_mem_nil
  | cons piece rest ih =>
    have hrest (href : ref ∈ refsFrom (offset + piece.render.length) rest) :
        ref.text <+: (render (piece :: rest)).drop (ref.start - offset) := by
      have hle := le_start_of_mem href
      rw [show ref.start - offset = piece.render.length +
        (ref.start - (offset + piece.render.length)) by omega, ← List.drop_drop, render_cons,
        List.drop_left]
      exact ih href
    cases piece with
    | text content => exact hrest h
    | ref form name =>
      rcases List.mem_cons.1 h with rfl | href
      · rw [Nat.sub_self, List.drop_zero]
        exact List.prefix_append _ _
      · exact hrest href

theorem slice_ref {template : List Piece} {ref : Ref} (h : ref ∈ refs template) :
    slice (render template) ref.start ref.stop = ref.text := by
  have hfront := text_isPrefix h
  rw [Nat.sub_zero, List.prefix_iff_eq_take] at hfront
  rw [slice, Ref.stop, Nat.add_sub_cancel_left]
  exact hfront.symm

/-! ## Where the patterns match -/

variable {form other : Form} {name content : Bytes} {rest template : List Piece}
  {place offset : ℕ}

/-- A pattern matches only where its first byte stands. -/
theorem matchAt_of_ne_sigil {subject : Bytes} (h : subject[place]? ≠ some (Form.sigil form)) :
    matchAt (variablePat form) (subject.drop place) = none := by
  apply bracketed_matchAt_of_not_prefix
  rintro ⟨after, hafter⟩
  obtain ⟨tail, htail, -⟩ := Form.opening_eq form
  rw [← List.head?_drop, ← hafter, htail] at h
  exact h rfl

/-- Behind its first byte a reference has no byte that opens one, but for the last byte of an
`@` reference. -/
theorem sigil_inside_reference (hname : ∀ b ∈ name, isword b) (hpos : 0 < place)
    (hbyte : (reference other name)[place]? = some (Form.sigil form)) :
    form = .at ∧ other = .at ∧ place + 1 = (reference other name).length := by
  obtain ⟨tail, htail, hbytes⟩ := Form.opening_eq other
  have hreference : reference other name =
      (Form.sigil other :: (tail ++ name)) ++ [other.closing] := by
    simp [reference, htail]
  have hinner : ∀ b ∈ tail ++ name, b ≠ Form.sigil form := by
    intro b hb
    have hne : b ≠ 0x40 ∧ b ≠ 0x24 := by
      rcases List.mem_append.1 hb with hb | hb
      · exact ⟨(hbytes b hb).1, (hbytes b hb).2.1⟩
      · exact ⟨(ne_of_isword (hname b hb)).1, (ne_of_isword (hname b hb)).2.1⟩
    cases form
    exacts [hne.1, hne.2, hne.2, hne.2]
  have hplace : place < (reference other name).length := (List.getElem?_eq_some_iff.1 hbyte).1
  rw [hreference, List.length_append, List.length_cons, List.length_singleton] at hplace
  rw [hreference] at hbyte
  rcases Nat.lt_or_ge place ((tail ++ name).length + 1) with hlt | hge
  · obtain ⟨place, rfl⟩ := Nat.exists_eq_succ_of_ne_zero hpos.ne'
    rw [List.getElem?_append_left (by simpa using hlt), List.getElem?_cons_succ] at hbyte
    exact absurd rfl (hinner _ (List.mem_of_getElem? hbyte))
  · have hlast : place = (Form.sigil other :: (tail ++ name)).length := by
      rw [List.length_cons]
      omega
    rw [hlast, List.getElem?_append_right le_rfl, Nat.sub_self] at hbyte
    have hclosing : other.closing = Form.sigil form := Option.some.inj hbyte
    have hat : form = .at ∧ other = .at := by
      cases form <;> cases other <;> simp [Form.closing, Form.sigil] at hclosing ⊢
    refine ⟨hat.1, hat.2, ?_⟩
    rw [hreference, hlast]
    simp [Nat.add_assoc]

/-- The closing byte and what follows it. -/
theorem drop_to_closing (hplace : place + 1 = (reference other name).length) (rest : Bytes) :
    (reference other name ++ rest).drop place = [other.closing] ++ rest := by
  have hlength : place = (other.opening ++ name).length := by
    simp only [reference, List.length_append, List.length_singleton] at hplace ⊢
    omega
  rw [reference, hlength, List.append_assoc, List.drop_left]

/-- Behind its first byte a reference is not the start of a reference. -/
theorem matchAt_inside_reference (hname : ∀ b ∈ name, isword b)
    (hclosed : other.closing ∉ (render rest).takeWhile isgraph) (hpos : 0 < place)
    (hplace : place < (reference other name).length) :
    matchAt (variablePat form) ((reference other name ++ render rest).drop place) = none := by
  by_cases hbyte : (reference other name)[place]? = some (Form.sigil form)
  · obtain ⟨rfl, rfl, hlast⟩ := sigil_inside_reference hname hpos hbyte
    rw [drop_to_closing hlast]
    exact bracketed_matchAt_of_not_closed (Form.isgraph_closing .at) hclosed
  · apply matchAt_of_ne_sigil
    rwa [List.getElem?_append_left hplace]

/-- A pattern matches nowhere but at the references of its form. -/
theorem matchAt_eq_none (hwell : WellFormed template) (hisolated : Isolated template)
    (hplace : ∀ ref ∈ refsFrom offset template, ref.form = form → ref.start ≠ offset + place) :
    matchAt (variablePat form) ((render template).drop place) = none := by
  induction template generalizing offset place with
  | nil =>
    apply matchAt_of_ne_sigil
    simp
  | cons piece rest ih =>
    have hrest : WellFormed rest := fun piece hpiece ↦ hwell piece (List.mem_cons_of_mem _ hpiece)
    have hpiece := hwell piece List.mem_cons_self
    rw [render_cons]
    rcases Nat.lt_or_ge place piece.render.length with hlt | hge
    · cases piece with
      | text content =>
        apply matchAt_of_ne_sigil
        intro hbyte
        rw [List.getElem?_append_left hlt] at hbyte
        have hb := hpiece _ (List.mem_of_getElem? hbyte)
        cases form
        exacts [hb.1 rfl, hb.2.1 rfl, hb.2.1 rfl, hb.2.1 rfl]
      | ref other name =>
        rcases Nat.eq_zero_or_pos place with rfl | hpos
        · have hne : form ≠ other := by
            rintro rfl
            exact hplace ⟨form, name, offset⟩ List.mem_cons_self rfl rfl
          apply bracketed_matchAt_of_not_prefix
          rw [List.drop_zero, Piece.render, reference, List.append_assoc, List.append_assoc]
          exact opening_not_isPrefix hne _
        · exact matchAt_inside_reference hpiece.2 hisolated.1 hpos hlt
    · rw [List.drop_append, List.drop_eq_nil_of_le hge, List.nil_append]
      have hsum :
          offset + piece.render.length + (place - piece.render.length) = offset + place := by
        omega
      cases piece with
      | text content =>
        have hplace : ∀ ref ∈ refsFrom (offset + content.length) rest, ref.form = form →
            ref.start ≠ offset + content.length + (place - content.length) := by
          intro ref href hform
          rw [show offset + content.length + (place - content.length) = offset + place from hsum]
          exact hplace ref href hform
        exact ih hrest hisolated hplace
      | ref other name =>
        have hplace : ∀ ref ∈ refsFrom (offset + (reference other name).length) rest,
            ref.form = form → ref.start ≠ offset + (reference other name).length +
              (place - (reference other name).length) := by
          intro ref href hform
          rw [show offset + (reference other name).length +
            (place - (reference other name).length) = offset + place from hsum]
          exact hplace ref (List.mem_cons_of_mem _ href) hform
        exact ih hrest hisolated.2 hplace

/-- At a reference its pattern matches the reference. -/
theorem matchAt_ref (hwell : WellFormed template) (hisolated : Isolated template) {ref : Ref}
    (href : ref ∈ refsFrom offset template) :
    matchAt (variablePat ref.form) ((render template).drop (ref.start - offset)) =
      some [ref.form.opening, ref.name, [ref.form.closing]] := by
  induction template generalizing offset with
  | nil => exact absurd href List.not_mem_nil
  | cons piece rest ih =>
    have hrest : WellFormed rest := fun piece hpiece ↦ hwell piece (List.mem_cons_of_mem _ hpiece)
    have hpiece := hwell piece List.mem_cons_self
    rw [render_cons]
    cases piece with
    | text content =>
      have href : ref ∈ refsFrom (offset + content.length) rest := href
      have hle := le_start_of_mem href
      rw [show ref.start - offset = content.length + (ref.start - (offset + content.length)) by
        omega, ← List.drop_drop, Piece.render, List.drop_left]
      exact ih hrest hisolated href
    | ref form name =>
      rcases List.mem_cons.1 href with rfl | href
      · rw [Nat.sub_self, List.drop_zero, Piece.render, reference, List.append_assoc,
          List.singleton_append]
        apply bracketed_matchAt (Form.isgraph_closing form) hpiece.1
        · exact fun b hb ↦ isgraph_of_isword (hpiece.2 b hb)
        · exact closing_not_mem form hpiece.2
        · exact hisolated.1
      · have hle := le_start_of_mem href
        rw [show ref.start - offset = (reference form name).length +
          (ref.start - (offset + (reference form name).length)) by omega, ← List.drop_drop,
          Piece.render, List.drop_left]
        exact ih hrest hisolated.2 href

/-- References whose runs are not closed again make a template isolated. -/
theorem isolated_of_refs (h : ∀ ref ∈ refsFrom offset template,
    ref.form.closing ∉ ((render template).drop (ref.stop - offset)).takeWhile isgraph) :
    Isolated template := by
  induction template generalizing offset with
  | nil => trivial
  | cons piece rest ih =>
    have hrest : ∀ ref ∈ refsFrom (offset + piece.render.length) rest, ref.form.closing ∉
        ((render rest).drop (ref.stop - (offset + piece.render.length))).takeWhile isgraph := by
      intro ref href
      have hle := le_start_of_mem href
      have hlt := ref.start_lt_stop
      have hclosed := h ref (mem_refsFrom_cons href)
      rw [render_cons, List.drop_append, List.drop_eq_nil_of_le (by omega), List.nil_append,
        Nat.sub_sub] at hclosed
      exact hclosed
    cases piece with
    | text content => exact ih hrest
    | ref form name =>
      refine ⟨?_, ih hrest⟩
      have hclosed := h ⟨form, name, offset⟩ List.mem_cons_self
      rw [Ref.stop, Nat.add_sub_cancel_left, render_cons, Ref.text, Piece.render,
        List.drop_left] at hclosed
      exact hclosed

/-! ## References in the text -/

theorem split_of_not_mem {a : UInt8} {before after text : Bytes} (hbefore : a ∉ before)
    (h : text ++ [a] <+: before ++ after) :
    ∃ more, text = before ++ more ∧ more ++ [a] <+: after := by
  induction before generalizing text with
  | nil => exact ⟨text, rfl, h⟩
  | cons b before ih =>
    cases text with
    | nil =>
      have hab : a = b := by simpa using (List.cons_prefix_cons.1 h).1
      exact absurd (hab ▸ List.mem_cons_self) hbefore
    | cons c text =>
      obtain ⟨rfl, hrest⟩ := List.cons_prefix_cons.1 h
      obtain ⟨more, rfl, hmore⟩ := ih (fun ha ↦ hbefore (List.mem_cons_of_mem _ ha)) hrest
      exact ⟨more, rfl, hmore⟩

/-- The first `@` of a line opens a reference. -/
theorem exists_ref_of_at (hwell : WellFormed template) (hcontent : 0x40 ∉ content)
    (h : content ++ [0x40] <+: render template) :
    ∃ ref ∈ refsFrom offset template, ref.form = .at ∧ ref.start = offset + content.length := by
  induction template generalizing offset content with
  | nil => simp at h
  | cons piece rest ih =>
    have hrest : WellFormed rest := fun piece hpiece ↦ hwell piece (List.mem_cons_of_mem _ hpiece)
    have hpiece := hwell piece List.mem_cons_self
    have hskip (hnot : (0x40 : UInt8) ∉ piece.render) :
        ∃ ref ∈ refsFrom (offset + piece.render.length) rest,
          ref.form = .at ∧ ref.start = offset + content.length := by
      obtain ⟨more, rfl, hmore⟩ := split_of_not_mem hnot h
      rw [List.length_append, ← Nat.add_assoc]
      exact ih hrest (fun hmem ↦ hcontent (List.mem_append_right _ hmem)) hmore
    cases piece with
    | text other => exact hskip fun hmem ↦ (hpiece _ hmem).1 rfl
    | ref form name =>
      by_cases hform : form = .at
      · subst hform
        cases content with
        | nil => exact ⟨⟨.at, name, offset⟩, List.mem_cons_self, rfl, rfl⟩
        | cons b content =>
          have hb : b = 0x40 := (List.cons_prefix_cons.1 h).1
          exact absurd (hb ▸ List.mem_cons_self) hcontent
      · have hnot : (0x40 : UInt8) ∉ reference form name := by
          intro hmem
          obtain ⟨place, hplace⟩ := List.mem_iff_getElem?.1 hmem
          have hplace : (reference form name)[place]? = some (Form.sigil .at) := hplace
          rcases Nat.eq_zero_or_pos place with rfl | hpos
          · obtain ⟨tail, htail, -⟩ := Form.opening_eq form
            rw [reference, htail] at hplace
            cases form <;> simp [Form.sigil] at hplace hform
          · exact hform (sigil_inside_reference hpiece.2 hpos hplace).2.1
        obtain ⟨ref, href, hstart⟩ := hskip hnot
        exact ⟨ref, List.mem_cons_of_mem _ href, hstart⟩

/-- A text that ends at the first closing byte is determined by the line. -/
theorem eq_of_closed {a : UInt8} {first second line : Bytes} (hfirst : a ∉ first)
    (hsecond : a ∉ second) (h : first ++ [a] <+: line) (h' : second ++ [a] <+: line) :
    first = second := by
  obtain ⟨after, rfl⟩ := h'
  rw [List.append_assoc] at h
  obtain ⟨more, rfl, hmore⟩ := split_of_not_mem hsecond h
  cases more with
  | nil => exact List.append_nil _
  | cons b more =>
    have hb : b = a := (List.cons_prefix_cons.1 hmore).1
    exact absurd (hb ▸ List.mem_append_right _ List.mem_cons_self) hfirst

/-- The text of a reference stands at a reference of its form; or, from the end of an `@` reference
to the start of the next one, between two of them. -/
theorem ref_or_between (hwell : WellFormed template) (hname : ∀ b ∈ name, isword b)
    (h : reference form name <+: (render template).drop place) :
    (∃ ref ∈ refsFrom offset template, ref.form = form ∧ ref.start = offset + place) ∨
      ∃ ref ∈ refsFrom offset template, ∃ next ∈ refsFrom offset template,
        ref.form = form ∧ next.form = form ∧ ref.start < offset + place ∧
          offset + place < ref.stop ∧ offset + place < next.start ∧
            next.start < offset + place + (reference form name).length := by
  induction template generalizing offset place with
  | nil => simp [reference] at h
  | cons piece rest ih =>
    have hrest : WellFormed rest := fun piece hpiece ↦ hwell piece (List.mem_cons_of_mem _ hpiece)
    have hpiece := hwell piece List.mem_cons_self
    obtain ⟨tail, htail, -⟩ := Form.opening_eq form
    have hbyte : (piece.render ++ render rest)[place]? = some (Form.sigil form) := by
      obtain ⟨after, hafter⟩ := h
      rw [← List.head?_drop, ← render_cons, ← hafter, reference, htail]
      rfl
    rw [render_cons] at h
    rcases Nat.lt_or_ge place piece.render.length with hlt | hge
    · rw [List.getElem?_append_left hlt] at hbyte
      cases piece with
      | text content =>
        have hb := hpiece _ (List.mem_of_getElem? hbyte)
        cases form
        exacts [absurd rfl hb.1, absurd rfl hb.2.1, absurd rfl hb.2.1, absurd rfl hb.2.1]
      | ref other otherName =>
        rcases Nat.eq_zero_or_pos place with rfl | hpos
        · left
          have hform : form = other := by
            by_contra hne
            apply opening_not_isPrefix hne (otherName ++ ([other.closing] ++ render rest))
            rw [List.drop_zero, Piece.render, reference, reference, List.append_assoc,
              List.append_assoc, List.append_assoc] at h
            exact (List.prefix_append _ _).trans h
          exact ⟨⟨other, otherName, offset⟩, List.mem_cons_self, hform.symm, rfl⟩
        · right
          obtain ⟨rfl, rfl, hlast⟩ := sigil_inside_reference hpiece.2 hpos hbyte
          rw [Piece.render, drop_to_closing hlast] at h
          have hfront : name ++ [0x40] <+: render rest := (List.cons_prefix_cons.1 h).2
          obtain ⟨next, hnext, hform, hstart⟩ :
              ∃ ref ∈ refsFrom (offset + (reference .at otherName).length) rest,
                ref.form = .at ∧
                  ref.start = offset + (reference .at otherName).length + name.length :=
            exists_ref_of_at hrest (fun hmem ↦ (ne_of_isword (hname _ hmem)).1 rfl) hfront
          have hlength : (reference .at name).length = name.length + 2 := by
            simp [reference, Form.opening, bytes]
          refine ⟨⟨.at, otherName, offset⟩, List.mem_cons_self, next, List.mem_cons_of_mem _ hnext,
            rfl, hform, ?_, Nat.add_lt_add_left hlt offset, ?_, ?_⟩
          · exact Nat.lt_add_of_pos_right hpos
          · omega
          · omega
    · rw [List.drop_append, List.drop_eq_nil_of_le hge, List.nil_append] at h
      have hsum :
          offset + piece.render.length + (place - piece.render.length) = offset + place := by
        omega
      rcases ih hrest h with hat | hbetween
      · obtain ⟨ref, href, hform, hstart⟩ := hat
        exact Or.inl ⟨ref, mem_refsFrom_cons href, hform, hstart.trans hsum⟩
      · obtain ⟨ref, href, next, hnext, hform⟩ := hbetween
        rw [hsum] at hform
        exact Or.inr ⟨ref, mem_refsFrom_cons href, next, mem_refsFrom_cons hnext, hform⟩

end Vodka.Genconfig.Template

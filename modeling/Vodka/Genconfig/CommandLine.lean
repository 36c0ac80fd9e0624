import Mathlib.Data.List.TakeWhile
import Mathlib.Tactic
import Vodka.Genconfig.VariableMap

/-!
# Variables of a command line

Each argument sets one variable, so that the run of the dictionary is the list
of arguments up to the first one without `=`. The last argument of a name
decides its value. Every history has its map, and every command line its
variables, as long as the distinct keys fit into the slots that the arrays can
come to.
-/

namespace Vodka.Genconfig.CommandLine

open Foundation.Trace Replace VariableDict VariableMap

variable {V : Type} {d : Dict V} {ops : List (Op V)} {key : Bytes}

/-- The dictionary is the map of its history: one slot for each key, and no other keys. -/
structure Agrees (d : Dict V) (ops : List (Op V)) : Prop where
  get_eq : ∀ key default, dictionaryGet d key default = (lastSet ops key).getD default
  n_eq : d.n = (presentKeys ops).card
  slot_unique : ∀ key ∈ presentKeys ops, ∃! i : ℕ, d.key[i]? = some (some key)
  key_present : ∀ (i : ℕ) (key : Bytes), d.key[i]? = some (some key) → key ∈ presentKeys ops

theorem agrees_of_represents (h : Represents d (lastSet ops)) : Agrees d ops where
  get_eq := h.dictionaryGet_eq
  n_eq := h.card.symm
  slot_unique := by
    intro key hkey
    rw [mem_presentKeys, ← h.mem_iff] at hkey
    obtain ⟨i, hi⟩ := Foundation.Slots.mem_reduceOption_iff.mp hkey
    exact ⟨i, hi, fun j hj ↦ Foundation.Slots.index_unique h.nodup hj hi⟩
  key_present := by
    intro i key hi
    rw [mem_presentKeys, ← h.mem_iff]
    exact Foundation.Slots.mem_reduceOption_iff.mpr ⟨i, hi⟩

/-- The keys fit at every moment of the history. -/
def Fits (size : ℤ) (ops : List (Op V)) : Prop :=
  ∀ before, before <+: ops →
    (presentKeys before).card ≤ maxSlots (dictionaryNew size : Dict V).size

theorem exists_agrees_iff (size : ℤ) (ops : List (Op V)) :
    (∃ d, exec step (dictionaryNew size) ops = some d ∧ Agrees d ops) ↔ Fits size ops := by
  rw [Fits, ← exec_isSome_iff, Option.isSome_iff_exists]
  refine exists_congr fun d ↦ ⟨And.left, fun h ↦ ⟨h, ?_⟩⟩
  exact agrees_of_represents (represents_exec h).1

theorem lastSet_of_last {before after : List (Op V)} {val : Option V}
    (h : ∀ op ∈ after, opKey op ≠ key) :
    lastSet (before ++ .set key val :: after) key = some val := by
  rw [lastSet, List.filter_append, List.filter_cons_of_pos (by simp [opKey]),
    filter_opKey_eq_nil h, List.getLast?_concat]

theorem mem_of_lastSet {val : Option V} (h : lastSet ops key = some val) :
    Op.set key val ∈ ops := by
  unfold lastSet at h
  split at h
  next other hlast =>
    obtain ⟨hmem, hkey⟩ := List.mem_filter.mp (List.mem_of_getLast? hlast)
    obtain rfl := of_decide_eq_true hkey
    obtain rfl := Option.some.inj h
    exact hmem
  next => cases h

/-- The argument assigns a value to a variable; its first `=` is between the two. -/
def Assigns (arg name value : Bytes) : Prop := arg = name ++ equals :: value ∧ equals ∉ name

def nameOf (arg : Bytes) : Bytes := arg.takeWhile fun b ↦ b != equals

def valueOf (arg : Bytes) : Bytes := (arg.dropWhile fun b ↦ b != equals).tail

theorem assigns_iff {arg name value : Bytes} :
    Assigns arg name value ↔ equals ∈ arg ∧ nameOf arg = name ∧ valueOf arg = value := by
  constructor
  · rintro ⟨rfl, hname⟩
    have hkept : ∀ b ∈ name, (b != equals) = true := by
      intro b hb
      exact bne_iff_ne.mpr fun h ↦ hname (h ▸ hb)
    refine ⟨by simp, ?_, ?_⟩
    · simp [nameOf, List.takeWhile_append_of_pos hkept]
    · simp [valueOf, List.dropWhile_append_of_pos hkept]
  · rintro ⟨hmem, rfl, rfl⟩
    refine ⟨?_, fun h ↦ by simpa using List.mem_takeWhile_imp h⟩
    have hrest : (arg.dropWhile fun b ↦ b != equals) ≠ [] := by
      rw [ne_eq, List.dropWhile_eq_nil_iff]
      exact fun h ↦ by simpa using h equals hmem
    have hhead : (arg.dropWhile fun b ↦ b != equals).head hrest = equals := by
      simpa using List.head_dropWhile_not (fun b ↦ b != equals) hrest
    have hsplit := List.cons_head_tail hrest
    rw [hhead] at hsplit
    calc arg = nameOf arg ++ arg.dropWhile fun b ↦ b != equals :=
          (List.takeWhile_append_dropWhile).symm
      _ = nameOf arg ++ equals :: valueOf arg := by
          rw [valueOf, hsplit]

/-- The operation of an argument. -/
def assignment (arg : Bytes) : Op Bytes := .set (nameOf arg) (some (valueOf arg))

theorem defineVariable_eq {d : Dict Bytes} {arg : Bytes} (h : equals ∈ arg) :
    defineVariable d arg = (step d (assignment arg)).elim (.error .undefined) .ok := by
  unfold defineVariable step assignment
  rw [if_pos h]
  unfold nameOf valueOf
  dsimp only
  cases dictionarySet d _ _ <;> rfl

/-- The arguments up to the first one without `=`. -/
def assignments (args : List Bytes) : List (Op Bytes) :=
  (args.takeWhile fun arg ↦ equals ∈ arg).map assignment

/-- A command line is a run over its assignments; another argument ends it with the usage. -/
theorem foldlM_defineVariable (d : Dict Bytes) (args : List Bytes) :
    args.foldlM defineVariable d =
      (exec step d (assignments args)).elim (.error .undefined) fun d ↦
        if ∀ arg ∈ args, equals ∈ arg then .ok d else .error .usage := by
  induction args generalizing d with
  | nil => simp [assignments, exec]; rfl
  | cons arg args ih =>
    rw [List.foldlM_cons]
    by_cases harg : equals ∈ arg
    · have hassignments : assignments (arg :: args) = assignment arg :: assignments args := by
        simp [assignments, harg]
      rw [defineVariable_eq harg, hassignments, exec]
      cases step d (assignment arg) with
      | none => rfl
      | some next =>
        simp only [Option.elim_some, Option.bind_some, List.forall_mem_cons, harg, true_and]
        exact ih next
    · have hassignments : assignments (arg :: args) = [] := by simp [assignments, harg]
      rw [hassignments, defineVariable, if_neg harg]
      simp [exec, harg]
      rfl

theorem defineVariables_eq (args : List Bytes) :
    defineVariables args =
      (exec step (dictionaryNew 64) (assignments args)).elim (.error .undefined) fun d ↦
        if ∀ arg ∈ args, equals ∈ arg then .ok d else .error .usage :=
  foldlM_defineVariable _ args

/-- Every variable has the value of its last assignment, and there are no others. -/
structure LastValues (d : Dict Bytes) (args : List Bytes) : Prop where
  assigned : ∀ before arg after name value default, args = before ++ arg :: after →
    Assigns arg name value → (∀ other ∈ after, ∀ value, ¬ Assigns other name value) →
    dictionaryGet d name default = some value
  unassigned : ∀ name default, (∀ arg ∈ args, ∀ value, ¬ Assigns arg name value) →
    dictionaryGet d name default = default

theorem opKey_assignment_ne {args : List Bytes} {name : Bytes}
    (hall : ∀ arg ∈ args, equals ∈ arg)
    (hnone : ∀ arg ∈ args, ∀ value, ¬ Assigns arg name value) :
    ∀ op ∈ args.map assignment, opKey op ≠ name := by
  simp only [List.forall_mem_map]
  intro arg harg hname
  exact hnone arg harg (valueOf arg) (assigns_iff.mpr ⟨hall arg harg, hname, rfl⟩)

theorem lastValues_of_agrees {d : Dict Bytes} {args : List Bytes}
    (hall : ∀ arg ∈ args, equals ∈ arg) (h : Agrees d (args.map assignment)) :
    LastValues d args where
  assigned := by
    rintro before arg after name value default rfl hassigns hlast
    obtain ⟨-, hname, hvalue⟩ := assigns_iff.mp hassigns
    have hafter : ∀ arg ∈ after, equals ∈ arg := fun other hother ↦
      hall other (List.mem_append_right _ (List.mem_cons_of_mem _ hother))
    rw [h.get_eq, List.map_append, List.map_cons, assignment, hname, hvalue,
      lastSet_of_last (opKey_assignment_ne hafter hlast)]
    rfl
  unassigned := by
    intro name default hnone
    rw [h.get_eq, lastSet_eq_none (opKey_assignment_ne hall hnone)]
    rfl

/-- The command line leaves its variables, or ends with the usage message. -/
def Defined (args : List Bytes) : Prop :=
  if ∀ arg ∈ args, equals ∈ arg then ∃ d, defineVariables args = .ok d ∧ LastValues d args
  else defineVariables args = .error .usage

theorem defined_iff_isSome (args : List Bytes) :
    Defined args ↔ (exec step (dictionaryNew 64) (assignments args)).isSome := by
  rw [Defined, defineVariables_eq]
  cases hexec : exec step (dictionaryNew 64) (assignments args) with
  | none => split_ifs <;> simp
  | some d =>
    split_ifs with hall
    · refine iff_of_true ⟨d, rfl, lastValues_of_agrees hall ?_⟩ rfl
      have hassignments : assignments args = args.map assignment := by
        rw [assignments, List.takeWhile_eq_self_iff.mpr]
        exact fun arg harg ↦ decide_eq_true (hall arg harg)
      rw [← hassignments]
      exact agrees_of_represents (represents_exec hexec).1
    · exact iff_of_true rfl rfl

/-- The variables of C string arguments are C strings, so that the lines are replaced from
them. -/
theorem exists_dictionary {d : Dict Bytes} {args : List Bytes}
    (h : defineVariables args = .ok d) (hargs : ∀ arg ∈ args, NUL ∉ arg) :
    ∃ dict : Dictionary, ∀ name, dict.get name = dictionaryGet d name none := by
  refine ⟨⟨fun name ↦ dictionaryGet d name none, fun name value hget ↦ ?_⟩, fun _ ↦ rfl⟩
  rw [defineVariables_eq] at h
  cases hexec : exec step (dictionaryNew 64) (assignments args) with
  | none => simp [hexec] at h
  | some final =>
    rw [hexec, Option.elim_some] at h
    split_ifs at h
    obtain rfl := Except.ok.inj h
    rw [(represents_exec hexec).1.dictionaryGet_eq, Option.getD_eq_iff] at hget
    obtain hlast | ⟨-, hnone⟩ := hget
    · obtain ⟨arg, harg, hop⟩ := List.mem_map.mp (mem_of_lastSet hlast)
      obtain ⟨-, hvalue⟩ := Op.set.inj hop
      rw [← Option.some.inj hvalue]
      intro hnul
      refine hargs arg ((List.takeWhile_subset _) harg) ?_
      exact (List.dropWhile_sublist _).subset (List.mem_of_mem_tail hnul)
    · cases hnone

/-- The keys of a history of sets. -/
theorem presentKeys_sets {α : Type} (keyOf : α → Bytes) (valOf : α → Option V) (entries : List α) :
    presentKeys (entries.map fun entry ↦ .set (keyOf entry) (valOf entry)) =
      (entries.map keyOf).toFinset := by
  induction entries using List.reverseRecOn with
  | nil => rfl
  | append_singleton entries entry ih =>
    ext key
    have hkey : key ∈ presentKeys (entries.map fun entry ↦ .set (keyOf entry) (valOf entry)) ↔
        key ∈ entries.map keyOf := by rw [ih, List.mem_toFinset]
    rw [mem_presentKeys] at hkey
    rw [List.map_append, List.map_singleton, mem_presentKeys, lastSet_concat, List.mem_toFinset,
      List.map_append, List.mem_append, ← hkey, applyOp]
    by_cases hlast : key = keyOf entry
    · simp [hlast]
    · simp [hlast]

/-- Sets alone fit when their distinct keys do. -/
theorem fits_sets_iff {α : Type} (size : ℤ) (keyOf : α → Bytes) (valOf : α → Option V)
    (entries : List α) :
    Fits size (entries.map fun entry ↦ .set (keyOf entry) (valOf entry)) ↔
      (entries.map keyOf).toFinset.card ≤ maxSlots (dictionaryNew size : Dict V).size := by
  constructor
  · intro h
    rw [← presentKeys_sets keyOf valOf]
    exact h _ List.prefix_rfl
  · intro h before hbefore
    rw [List.prefix_iff_eq_take.mp hbefore, ← List.map_take, presentKeys_sets]
    refine le_trans (Finset.card_le_card ?_) h
    intro key hkey
    rw [List.mem_toFinset] at hkey ⊢
    exact List.map_subset _ (List.take_subset _ _) hkey

/-- The names in front of the first argument without `=`. -/
def names (args : List Bytes) : Finset Bytes :=
  ((args.takeWhile fun arg ↦ equals ∈ arg).map nameOf).toFinset

theorem defined_iff (args : List Bytes) : Defined args ↔ (names args).card ≤ SLOT_LIMIT := by
  rw [defined_iff_isSome, exec_isSome_iff, ← maxSlots_new]
  exact fits_sets_iff 64 nameOf (fun arg ↦ some (valueOf arg)) _

/-- **Variable store.** A history of sets and unsets has its map exactly when its keys fit at
every moment, and a command line its variables exactly when its names do. -/
theorem variables_iff (size : ℤ) (ops : List (Op V)) (args : List Bytes) :
    ((∃ d, exec step (dictionaryNew size) ops = some d ∧ Agrees d ops) ↔ Fits size ops) ∧
      (Defined args ↔ (names args).card ≤ SLOT_LIMIT) :=
  ⟨exists_agrees_iff size ops, defined_iff args⟩

/-- Five letters, the digits of the number to the base 64. -/
def letters (k : ℕ) : Bytes := (List.range 5).map fun i ↦ UInt8.ofNat (0x40 + k / 64 ^ i % 64)

def setLetters (count : ℕ) : List (Op Bytes) :=
  (List.range count).map fun k ↦ .set (letters k) (some [])

theorem letters_injOn {j k : ℕ} (hj : j < 64 ^ 5) (hk : k < 64 ^ 5) (h : letters j = letters k) :
    j = k := by
  have hdigit (i : ℕ) (hi : i < 5) : j / 64 ^ i % 64 = k / 64 ^ i % 64 := by
    have hget := congrArg (fun bytes ↦ bytes[i]?.map UInt8.toNat) h
    simp only [letters, List.getElem?_map, List.getElem?_range hi, Option.map_some,
      UInt8.toNat_ofNat', Option.some.injEq] at hget
    omega
  have h0 := hdigit 0 (by decide)
  have h1 := hdigit 1 (by decide)
  have h2 := hdigit 2 (by decide)
  have h3 := hdigit 3 (by decide)
  have h4 := hdigit 4 (by decide)
  norm_num at *
  omega

theorem not_fits_letters {count : ℕ} (hlimit : SLOT_LIMIT < count) (hcount : count ≤ 64 ^ 5) :
    ¬ Fits 64 (setLetters count) := by
  have hnodup : ((List.range count).map letters).Nodup := by
    refine List.Nodup.map_on (fun j hj k hk h ↦ ?_) List.nodup_range
    rw [List.mem_range] at hj hk
    exact letters_injOn (hj.trans_le hcount) (hk.trans_le hcount) h
  rw [setLetters, fits_sets_iff, List.toFinset_card_of_nodup hnodup, List.length_map,
    List.length_range, not_le]
  exact maxSlots_new ▸ hlimit

/-- One key more than the arrays can come to. -/
theorem letters_not_map :
    ¬ ∃ d, exec step (dictionaryNew 64) (setLetters (2 ^ 27 + 1)) = some d ∧
      Agrees d (setLetters (2 ^ 27 + 1)) := by
  rw [exists_agrees_iff]
  exact not_fits_letters (by decide) (by decide)

end Vodka.Genconfig.CommandLine

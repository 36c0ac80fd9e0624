import Mathlib.Tactic
import Vodka.Genconfig.Program

/-!
# Variables in the order of the command line

As long as nothing is unset, the slots of a dictionary are filled from the
front: a new key goes behind the last one, also when the arrays have grown, and
a key that is set again keeps its slot. `print_dictionary`, which reads the
first slots and would follow a null pointer at a free one, so lists every
variable of a command line once, in the order in which the names first appear.
-/

namespace Vodka.Genconfig.VariableOrder

open Foundation.Trace Foundation.Slots Replace VariableDict VariableMap CommandLine Program

variable {V : Type} {d d' : Dict V} {m : Bytes → Option (Option V)} {order : List Bytes}
  {key : Bytes}

/-- One line of `print_dictionary`. Neither the key nor the value may be a null pointer. -/
def printEntry (d : Dict Bytes) : Option Bytes → Option Bytes
  | none => none
  | some key => (dictionaryGet d key (some (bytes "default"))).map fun value ↦
      key ++ bytes ": " ++ value ++ bytes "\n"

def printDictionary (d : Dict Bytes) : Option Bytes :=
  ((d.key.take d.n).mapM (printEntry d)).map List.flatten

/-- The keys stand in the first slots, in this order. -/
structure Packed (d : Dict V) (order : List Bytes) : Prop where
  key_eq : ∃ free, d.key = order.map some ++ List.replicate free none
  n_eq : d.n = order.length

theorem packed_new (size : ℤ) : Packed (dictionaryNew size : Dict V) [] :=
  ⟨⟨_, rfl⟩, rfl⟩

theorem Packed.reduceOption_eq (h : Packed d order) : d.key.reduceOption = order := by
  obtain ⟨free, hkey⟩ := h.key_eq
  rw [hkey, List.reduceOption_append, List.reduceOption_replicate_none, List.append_nil,
    List.reduceOption, List.filterMap_map]
  exact List.filterMap_some

/-- What a set does to the order. -/
def record {α : Type} [DecidableEq α] (order : List α) (key : α) : List α :=
  if key ∈ order then order else order ++ [key]

theorem Packed.doubled (h : Packed d order) : Packed (VariableMap.doubled d) order where
  key_eq := by
    obtain ⟨free, hkey⟩ := h.key_eq
    refine ⟨free + d.key.length, ?_⟩
    rw [VariableMap.doubled, List.replicate_add, ← List.append_assoc]
    exact congrArg (· ++ _) hkey
  n_eq := h.n_eq

/-- A new key goes behind the last one. -/
theorem Packed.fill (h : Packed d order) (hd : Represents d m) (hroom : d.n < d.size)
    (key : Bytes) :
    freeSlot d d.size d.n = some d.n ∧
      ∃ free, d.key.set d.n (some key) = (order ++ [key]).map some ++ List.replicate free none := by
  obtain ⟨free, hkey⟩ := h.key_eq
  have hlength := hd.key_length
  rw [hkey, List.length_append, List.length_map, List.length_replicate, ← h.n_eq] at hlength
  obtain ⟨free, rfl⟩ := Nat.exists_eq_succ_of_ne_zero (show free ≠ 0 by omega)
  have hn : d.n = (order.map some).length := by rw [h.n_eq, List.length_map]
  constructor
  · obtain ⟨size, hsize⟩ := Nat.exists_eq_succ_of_ne_zero (Nat.ne_zero_of_lt hroom)
    rw [hsize, freeSlot, hkey, hn, List.getElem?_append_right le_rfl]
    simp
  · refine ⟨free, ?_⟩
    rw [hkey, hn, List.replicate_succ, set_split]
    simp

theorem Packed.step (h : Packed d order) (hd : Represents d m) {val : Option V}
    (hstep : VariableDict.step d (.set key val) = some d') : Packed d' (record order key) := by
  simp only [VariableDict.step, Option.map_eq_some_iff] at hstep
  obtain ⟨found, hset, rfl⟩ := hstep
  by_cases hmem : key ∈ order
  · have hslot : key ∈ d.key.reduceOption := h.reduceOption_eq.symm ▸ hmem
    obtain ⟨i, hi⟩ := mem_reduceOption_iff.mp hslot
    have hpos : 0 < d.n := h.n_eq ▸ List.length_pos_of_mem hmem
    rw [dictionarySet, if_pos hpos, hd.findSlot_eq_some hi] at hset
    rw [record, if_pos hmem, ← Option.some.inj hset]
    exact ⟨h.key_eq, h.n_eq⟩
  · rw [hd.dictionarySet_of_not_mem (h.reduceOption_eq.symm ▸ hmem), Option.map_eq_some_iff] at hset
    obtain ⟨after, hinsert, rfl⟩ := hset
    rw [record, if_neg hmem]
    have hput {e : Dict V} (he : Packed e order) (hrep : Represents e m) (hroom : e.n < e.size)
        (hgrow : grow d = some e) : Packed after (order ++ [key]) := by
      obtain ⟨hfree, hkeys⟩ := he.fill hrep hroom key
      rw [insertKey, hgrow, Option.bind_eq_bind, Option.bind_some, hfree] at hinsert
      obtain rfl := Option.some.inj hinsert
      exact ⟨hkeys, by simp [he.n_eq]⟩
    rcases hd.grow_cases with ⟨hlt, hgrow⟩ | ⟨heq, hlimit, hgrow⟩ | ⟨heq, hlimit, hgrow⟩
    · exact hput h hd hlt hgrow
    · refine hput h.doubled hd.doubled ?_ hgrow
      have hpos := hd.size_pos
      simp only [VariableMap.doubled]
      omega
    · rw [insertKey, hgrow] at hinsert
      cases hinsert

/-- A run of sets fills the slots in the order of the first sets. -/
theorem packed_exec {size : ℤ} {α : Type} (keyOf : α → Bytes) (valOf : α → Option V)
    {entries : List α}
    (h : exec step (dictionaryNew size)
      (entries.map fun entry ↦ .set (keyOf entry) (valOf entry)) = some d) :
    Packed d ((entries.map keyOf).foldl record []) := by
  induction entries using List.reverseRecOn generalizing d with
  | nil =>
    obtain rfl : dictionaryNew size = d := by simpa [exec] using h
    exact packed_new size
  | append_singleton entries entry ih =>
    rw [List.map_append, List.map_singleton, exec_concat] at h
    obtain ⟨before, hbefore, hstep⟩ := Option.bind_eq_some_iff.mp h
    rw [List.map_append, List.map_singleton, List.foldl_append, List.foldl_cons, List.foldl_nil]
    exact (ih hbefore).step (represents_exec hbefore).1 hstep

/-- The names of a command line, in the order in which they first appear. -/
def namesInOrder (args : List CString) : List Bytes :=
  (args.map fun arg ↦ nameOf arg.1).foldl record []

theorem mem_foldl_record {keys : List Bytes} :
    key ∈ keys.foldl record order ↔ key ∈ order ∨ key ∈ keys := by
  induction keys generalizing order with
  | nil => simp
  | cons first keys ih =>
    rw [List.foldl_cons, ih, record]
    split_ifs with hmem
    · constructor
      · exact fun h ↦ h.imp_right (List.mem_cons_of_mem _)
      · rintro (h | h)
        · exact .inl h
        · rcases List.mem_cons.mp h with rfl | h
          exacts [.inl hmem, .inr h]
    · simp [or_assoc]

/-- What is printed for a name. -/
def printed (args : List CString) (name : Bytes) : Bytes :=
  name ++ bytes ": " ++ (lastValue args name).getD [] ++ bytes "\n"

theorem mem_names_iff_mem {args : List CString} (h : ∀ arg ∈ args, equals ∈ arg.1)
    (name : Bytes) : name ∈ names (texts args) ↔ name ∈ namesInOrder args := by
  rw [mem_names_iff_mem_map h, namesInOrder, mem_foldl_record]
  simp

/-- **Printing the variables.** The dictionary of a command line is printed with one line for each
name, in the order in which the names first appear, and with the last value of each. -/
theorem printDictionary_eq {args : List CString} (hargs : Accepted args) :
    ∃ d, defineVariables (texts args) = .ok d ∧
      printDictionary d = some ((namesInOrder args).map (printed args)).flatten := by
  obtain ⟨d, hd, hget⟩ := hargs.defineVariables
  refine ⟨d, hd, ?_⟩
  have hexec : exec step (dictionaryNew 64) ((texts args).map assignment) = some d := by
    rw [defineVariables_eq, assignments_eq hargs.assigns] at hd
    cases hrun : exec step (dictionaryNew 64) ((texts args).map assignment) with
    | none => simp [hrun] at hd
    | some final =>
      rw [hrun, Option.elim_some] at hd
      split_ifs at hd
      rw [Except.ok.inj hd]
  have hrep := (represents_exec hexec).1
  rw [texts, List.map_map] at hexec
  have hpacked : Packed d (namesInOrder args) :=
    packed_exec (fun arg : CString ↦ nameOf arg.1) (fun arg ↦ some (valueOf arg.1)) hexec
  obtain ⟨free, hkey⟩ := hpacked.key_eq
  have htake : d.key.take d.n = (namesInOrder args).map some := by
    rw [hkey, hpacked.n_eq]
    exact List.take_left' (List.length_map _)
  have hentry : ∀ name ∈ namesInOrder args,
      printEntry d (some name) = some (printed args name) := by
    intro name hname
    have hassigned : (lastValue args name).isSome := by
      rwa [← mem_names_iff hargs.assigns, mem_names_iff_mem hargs.assigns]
    obtain ⟨value, hvalue⟩ := Option.isSome_iff_exists.mp hassigned
    have hfound : dictionaryGet d name (some (bytes "default")) = some value := by
      have hnone := hget name
      rw [hrep.dictionaryGet_eq, hvalue, Option.getD_eq_iff] at hnone
      rw [hrep.dictionaryGet_eq]
      rcases hnone with hsome | ⟨-, hfalse⟩
      · rw [hsome, Option.getD_some]
      · cases hfalse
    rw [printEntry, hfound, printed, hvalue]
    rfl
  have hlines : (namesInOrder args).mapM (printEntry d ∘ some) =
      some ((namesInOrder args).map (printed args)) := Lines.mapM_of_some hentry
  rw [printDictionary, htake, List.mapM_map, hlines, Option.map_some]

theorem printDictionary_eq_again :
    ∃ d, defineVariables (texts [setB, setA, ⟨bytes "B=2", by decide⟩]) = .ok d ∧
      printDictionary d = some (bytes "B: 2\nA: 1\n") :=
  printDictionary_eq ⟨by decide, by decide⟩

end Vodka.Genconfig.VariableOrder

import Mathlib.Tactic
import Vodka.Foundation.Simulation
import Vodka.Bsp.ModuleBringUp

/-!
# The modules as a registry

`bsp_module_find` looks a module up by its name. Over any run of the module
interface the list is a registry: an order of modules with an entry for each,
whose calls answer as the list does and make the same callbacks. Only an append
of a listed module that is not live is not meant. Names are arrays of a fixed
size that no call writes to.
-/

namespace Vodka.Bsp.ModuleRegistry

open Zephyr.Slist Modules ModuleList ModuleBringUp Foundation.Chain Foundation.Simulation

/-- `BSP_MODULE_NAME_LEN` -/
def BSP_MODULE_NAME_LEN : ℕ := 64

/-- The member `name` of a module. -/
abbrev Name := Vector UInt8 BSP_MODULE_NAME_LEN

/-- `strncmp` from a position on: whether the result is zero, or no result when a byte outside of
an array is read. -/
def strncmp (first second : List UInt8) : ℕ → ℕ → Option Bool
  | _, 0 => some true
  | i, n + 1 =>
    first[i]?.bind fun a ↦ second[i]?.bind fun b ↦
      if a ≠ b then some false else if a = 0 then some true else strncmp first second (i + 1) n

/-- The text that an array holds, which need not end in a terminator. -/
def textOf (array : List UInt8) : List UInt8 := array.takeWhile (· ≠ 0)

theorem strncmp_drop (first second : List UInt8) (i n : ℕ) :
    strncmp first second i n = strncmp (first.drop i) (second.drop i) 0 n := by
  induction n generalizing i first second with
  | zero => rfl
  | succ n ih =>
    have hnext : strncmp (first.drop i) (second.drop i) (0 + 1) n =
        strncmp first second (i + 1) n := by
      rw [ih (first.drop i), ih first, List.drop_drop, List.drop_drop, Nat.zero_add]
    rw [strncmp, strncmp, hnext, List.getElem?_drop, List.getElem?_drop]
    rfl

/-- The comparison of an array with a string of at most its size stays inside of both and finds
whether the array holds the start of the string. -/
theorem strncmp_eq {array text : List UInt8} (htext : 0 ∉ text) :
    strncmp array (text ++ [0]) 0 array.length =
      some (decide (textOf array = text.take array.length)) := by
  induction array generalizing text with
  | nil => simp [strncmp, textOf]
  | cons a array ih =>
    have hnext (b : UInt8) (rest : List UInt8) :
        strncmp (a :: array) (b :: rest) (0 + 1) array.length =
          strncmp array rest 0 array.length := strncmp_drop _ _ 1 _
    cases text with
    | nil =>
      by_cases ha : a = 0
      · simp [strncmp, textOf, ha]
      · simp [strncmp, textOf, ha]
    | cons b text =>
      obtain ⟨hb, hrest⟩ := not_or.1 (mt List.mem_cons.2 htext)
      by_cases hab : a = b
      · subst hab
        have ha : a ≠ 0 := Ne.symm hb
        rw [List.length_cons, strncmp, List.cons_append, hnext, ih hrest]
        simp [textOf, ha]
      · have htake : textOf (a :: array) ≠ (b :: text).take (array.length + 1) := by
          by_cases ha : a = 0
          · simp [textOf, ha]
          · simp [textOf, ha, hab]
        rw [List.length_cons, strncmp, decide_eq_false htake]
        simp [hab]

variable {Mod : Type*}

/-- The loop of `bsp_module_find`, which returns from within. -/
def findFrom (list : SysSlist Mod) (same : Mod → Option Bool) : ℕ → Option Mod → Option (Option Mod)
  | _, none => some none
  | 0, some _ => none
  | fuel + 1, some mod =>
    (same mod).bind fun found ↦
      if found then some (some mod) else findFrom list same fuel (list.next mod)

/-- `bsp_module_find` for the bytes of a string with its terminator. -/
def bspModuleFind (fuel : ℕ) (names : Mod → Name) (state : State Mod) (name : List UInt8) :
    Option (Option Mod) :=
  findFrom state.moduleList (fun mod ↦ strncmp (names mod).toList name 0 BSP_MODULE_NAME_LEN) fuel
    state.moduleList.head

theorem findFrom_eq {list : SysSlist Mod} {same : Mod → Option Bool} {p : Mod → Bool}
    (hsame : ∀ mod, same mod = some (p mod)) {nodes : List Mod} {cursor : Option Mod} {fuel : ℕ}
    (hcursor : Segment list.next cursor nodes none) (hfuel : nodes.length ≤ fuel) :
    findFrom list same fuel cursor = some (nodes.find? p) := by
  induction nodes generalizing cursor fuel with
  | nil =>
    obtain rfl := hcursor
    simp [findFrom]
  | cons first nodes ih =>
    obtain ⟨fuel, rfl⟩ := Nat.exists_eq_succ_of_ne_zero (Nat.ne_zero_of_lt hfuel)
    obtain ⟨rfl, hrest⟩ := hcursor
    rw [findFrom, hsame, Option.bind_some, List.find?_cons]
    cases p first with
    | true => rfl
    | false => exact ih hrest (by simpa using hfuel)

/-! ## The registry -/

variable [DecidableEq Mod]

/-- A call of the module interface. -/
inductive Call (Mod : Type*)
  | change (event : Event Mod)
  | find (text : List UInt8)

/-- What a call returns. -/
inductive Answer (Mod : Type*)
  | nothing
  | code (result : ℤ)
  | found (mod : Option Mod)

/-- The state behind a call and what it returns, when its loops end within the fuel. -/
def step (names : Mod → Name) (fuel : ℕ) (state : State Mod) :
    Call Mod → Option (State Mod × Answer Mod)
  | .change (.append mod) =>
    some ((bspModuleAppend state mod).1, .code (bspModuleAppend state mod).2)
  | .change (.remove mod) =>
    (bspModuleRemove fuel state mod).map fun removed ↦ (removed.1, .code removed.2)
  | .change (.prepareAll result) =>
    (bspModulePrepareAll fuel result state).map fun next ↦ (next, .nothing)
  | .change (.setupAll result) =>
    (bspModuleSetupAll fuel result state).map fun next ↦ (next, .nothing)
  | .change (.desetupAll result) =>
    (bspModuleDesetupAll fuel result state).map fun next ↦ (next, .nothing)
  | .find text => (bspModuleFind fuel names state (text ++ [0])).map fun mod ↦ (state, .found mod)

/-- The listed modules in order, the entries of all modules, and the callbacks, newest first. -/
structure Registry (Mod : Type*) where
  order : List Mod
  modules : Mod → BspModule
  log : List (Callback Mod)

namespace Registry

def isLive (registry : Registry Mod) (mod : Mod) : Bool :=
  decide ((registry.modules mod).state = .live)

/-- Every listed module gets a new entry and makes its callback if it is due. -/
def visitAll (due : Mod → BspModule → Bool) (call : Mod → BspModule → Callback Mod)
    (entry : Mod → BspModule → BspModule) (registry : Registry Mod) : Registry Mod where
  order := registry.order
  modules mod :=
    if mod ∈ registry.order then entry mod (registry.modules mod) else registry.modules mod
  log :=
    ((registry.order.filter fun mod ↦ due mod (registry.modules mod)).map
      fun mod ↦ call mod (registry.modules mod)).reverse ++ registry.log

end Registry

/-- A module that goes down goes whatever its callback returns. -/
def desetupEntry (entry : BspModule) : BspModule := { entry with state := .going }

/-- What the module interface is for. -/
def moduleRegistry (names : Mod → Name) : Purpose (Registry Mod) (Call Mod) (Answer Mod) where
  Meant
    | registry, .change (.append mod) => registry.isLive mod = true ∨ mod ∉ registry.order
    | _, .change _ => True
    | _, .find text => 0 ∉ text
  next
    | registry, .change (.append mod) =>
      if registry.isLive mod then registry else { registry with order := registry.order ++ [mod] }
    | registry, .change (.remove mod) =>
      if registry.isLive mod then registry else { registry with order := registry.order.erase mod }
    | registry, .change (.prepareAll result) =>
      registry.visitAll (fun _ entry ↦ entry.prepare)
        (fun mod entry ↦ .prepare mod entry.descriptor (result mod))
        (fun mod ↦ prepareEntry (result mod))
    | registry, .change (.setupAll result) =>
      registry.visitAll (fun _ entry ↦ decide (entry.state = .coming) && entry.setup)
        (fun mod entry ↦ .setup mod entry.descriptor (result mod))
        (fun mod ↦ setupEntry (result mod))
    | registry, .change (.desetupAll result) =>
      registry.visitAll (fun _ entry ↦ decide (entry.state ≠ .going) && entry.desetup)
        (fun mod entry ↦ .desetup mod entry.descriptor (result mod)) (fun _ ↦ desetupEntry)
    | registry, .find _ => registry
  answer
    | _, .change (.append _) => .code (-EBUSY)
    | registry, .change (.remove mod) => .code (if registry.isLive mod then -EBUSY else 0)
    | _, .change _ => .nothing
    | registry, .find text =>
      .found (registry.order.find? fun mod ↦
        decide (textOf (names mod).toList = text.take BSP_MODULE_NAME_LEN))

/-- The list stands for the registry and leaves room for the calls to come. -/
structure Tracks (fuel : ℕ) (state : State Mod) (registry : Registry Mod)
    (calls : List (Call Mod)) : Prop where
  order : Represents state.moduleList registry.order
  modules : state.modules = registry.modules
  log : state.log = registry.log
  room : registry.order.length + calls.length ≤ fuel

theorem desetupModule_eq (result : Mod → ℤ) (mod : Mod) (state : State Mod) :
    desetupModule result mod state =
      visit (fun _ entry ↦ decide (entry.state ≠ .going) && entry.desetup)
        (fun mod entry ↦ .desetup mod entry.descriptor (result mod)) (fun _ ↦ desetupEntry) mod
        state := by
  by_cases hgoing : (state.modules mod).state = .going
  · have hentry : desetupEntry (state.modules mod) = state.modules mod := by
      rw [desetupEntry, ← hgoing]
    simp [desetupModule, visit, hgoing, hentry]
  · by_cases hdesetup : (state.modules mod).desetup = true
    · simp [desetupModule, visit, desetupEntry, setModule, record, hgoing, hdesetup]
    · simp [desetupModule, visit, desetupEntry, setModule, hgoing, hdesetup]

section Step

variable {fuel : ℕ} {state : State Mod} {registry : Registry Mod} {call : Call Mod}
  {calls : List (Call Mod)}

/-- A loop of visits is one over the registry. -/
theorem Tracks.visitAll (h : Tracks fuel state registry (call :: calls))
    {body : Mod → State Mod → State Mod} {due : Mod → BspModule → Bool}
    {callback : Mod → BspModule → Callback Mod} {entry : Mod → BspModule → BspModule}
    (hbody : ∀ mod state, body mod state = visit due callback entry mod state) :
    ∃ next, forEach fuel State.moduleList body state = some next ∧
      Tracks fuel next (registry.visitAll due callback entry) calls := by
  have hroom := h.room
  rw [List.length_cons] at hroom
  obtain rfl : body = visit due callback entry :=
    funext fun mod ↦ funext fun state ↦ hbody mod state
  have hfuel : registry.order.length ≤ fuel := by omega
  have hlist (mod : Mod) (state : State Mod) :
      (visit due callback entry mod state).moduleList = state.moduleList := rfl
  refine ⟨_, h.order.forEach_eq_foldl hlist hfuel, ?_⟩
  rw [foldl_visit due callback entry h.order.nodup, h.modules, h.log]
  exact ⟨h.order, rfl, rfl, by simp only [Registry.visitAll]; omega⟩

omit [DecidableEq Mod] in
theorem Tracks.find (h : Tracks fuel state registry (call :: calls)) (names : Mod → Name)
    {text : List UInt8} (htext : 0 ∉ text) :
    bspModuleFind fuel names state (text ++ [0]) = some (registry.order.find? fun mod ↦
      decide (textOf (names mod).toList = text.take BSP_MODULE_NAME_LEN)) := by
  refine findFrom_eq (fun mod ↦ ?_) h.order.chain (Nat.le_of_add_right_le h.room)
  have hcompared := @strncmp_eq (names mod).toList text htext
  rwa [(names mod).length_toList] at hcompared

omit [DecidableEq Mod] in
theorem Tracks.isLive_eq (h : Tracks fuel state registry calls) (mod : Mod) :
    registry.isLive mod = decide ((state.modules mod).state = .live) := by
  rw [Registry.isLive, h.modules]

theorem Tracks.append {mod : Mod} (h : Tracks fuel state registry (call :: calls))
    (names : Mod → Name) (meant : registry.isLive mod = true ∨ mod ∉ registry.order) :
    ∃ next, ModuleRegistry.step names fuel state (.change (.append mod)) =
        some (next, .code (-EBUSY)) ∧
      Tracks fuel next ((moduleRegistry names).next registry (.change (.append mod))) calls := by
  have hroom := h.room
  rw [List.length_cons] at hroom
  by_cases hmod : (state.modules mod).state = .live
  · refine ⟨state, by simp [ModuleRegistry.step, bspModuleAppend, hmod], ?_⟩
    simp only [moduleRegistry, h.isLive_eq, hmod, decide_true, if_true]
    exact ⟨h.order, h.modules, h.log, by omega⟩
  · have hmem : mod ∉ registry.order := by
      rwa [h.isLive_eq, decide_eq_false hmod, or_iff_right Bool.false_ne_true] at meant
    refine ⟨{ state with moduleList := sysSlistAppend state.moduleList mod },
      by simp [ModuleRegistry.step, bspModuleAppend, hmod], ?_⟩
    simp only [moduleRegistry, h.isLive_eq, hmod, decide_false, Bool.false_eq_true, if_false]
    refine ⟨h.order.append hmem, h.modules, h.log, ?_⟩
    rw [List.length_append, List.length_singleton]
    omega

theorem Tracks.remove (h : Tracks fuel state registry (call :: calls)) (names : Mod → Name)
    (mod : Mod) :
    ∃ next, ModuleRegistry.step names fuel state (.change (.remove mod)) =
        some (next, .code (if registry.isLive mod then -EBUSY else 0)) ∧
      Tracks fuel next ((moduleRegistry names).next registry (.change (.remove mod))) calls := by
  have hroom := h.room
  rw [List.length_cons] at hroom
  by_cases hmod : (state.modules mod).state = .live
  · refine ⟨state, by simp [ModuleRegistry.step, bspModuleRemove, hmod, h.isLive_eq], ?_⟩
    simp only [moduleRegistry, h.isLive_eq, hmod, decide_true, if_true]
    exact ⟨h.order, h.modules, h.log, by omega⟩
  · have hfuel : registry.order.length ≤ fuel := by omega
    obtain ⟨list, hfound, hlist⟩ := h.order.findAndRemove hfuel mod
    refine ⟨{ state with moduleList := list },
      by simp [ModuleRegistry.step, bspModuleRemove, hmod, hfound, h.isLive_eq], ?_⟩
    simp only [moduleRegistry, h.isLive_eq, hmod, decide_false, Bool.false_eq_true, if_false]
    have hlength : (registry.order.erase mod).length ≤ registry.order.length :=
      List.length_erase_le
    exact ⟨hlist, h.modules, h.log, by simp only; omega⟩

/-- A meant call on a list that stands for the registry. -/
theorem Tracks.step (h : Tracks fuel state registry (call :: calls)) (names : Mod → Name)
    (meant : (moduleRegistry names).Meant registry call) :
    ∃ next, ModuleRegistry.step names fuel state call =
        some (next, (moduleRegistry names).answer registry call) ∧
      Tracks fuel next ((moduleRegistry names).next registry call) calls := by
  have hroom := h.room
  rw [List.length_cons] at hroom
  cases call with
  | find text =>
    refine ⟨state, ?_, h.order, h.modules, h.log, ?_⟩
    · rw [ModuleRegistry.step, h.find names meant]
      rfl
    · exact Nat.le_of_succ_le hroom
  | change event =>
    cases event with
    | append mod => exact h.append names meant
    | remove mod => exact h.remove names mod
    | prepareAll result =>
      obtain ⟨next, hnext, htracks⟩ := h.visitAll (prepareModule_eq result)
      exact ⟨next, by rw [ModuleRegistry.step, bspModulePrepareAll, hnext]; rfl, htracks⟩
    | setupAll result =>
      obtain ⟨next, hnext, htracks⟩ := h.visitAll (setupModule_eq result)
      exact ⟨next, by rw [ModuleRegistry.step, bspModuleSetupAll, hnext]; rfl, htracks⟩
    | desetupAll result =>
      obtain ⟨next, hnext, htracks⟩ := h.visitAll (desetupModule_eq result)
      exact ⟨next, by rw [ModuleRegistry.step, bspModuleDesetupAll, hnext]; rfl, htracks⟩

end Step

/-- **Registry.** Over any run of meant calls behind `bsp_module_init` every call returns what the
registry says, and the list, the entries and the callbacks are those of the registry. -/
theorem run_registry (names : Mod → Name) (state : State Mod) {calls : List (Call Mod)}
    (meant : (moduleRegistry names).MeantRun ⟨[], state.modules, []⟩ calls) :
    ∃ final, run (step names calls.length) (bspModuleInit state) calls =
        some (final, (moduleRegistry names).answers ⟨[], state.modules, []⟩ calls) ∧
      Tracks calls.length final ((moduleRegistry names).after ⟨[], state.modules, []⟩ calls)
        [] := by
  refine run_of_simulates (moduleRegistry names) (step names calls.length) (Tracks calls.length)
    (fun _ _ _ _ h meant ↦ h.step names meant) ?_ meant
  exact ⟨represents_init _, rfl, rfl, by simp⟩

/-- The names of `bsp_tty_mod` and `bsp_lcd_mod`. -/
def exampleNames (mod : Bool) : Name :=
  let text : List UInt8 := if mod then [0x54, 0x54, 0x59, 0x31] else [0x4C, 0x43, 0x44]
  Vector.ofFn fun i ↦ text.getD i 0

/-- The second module is found while it is listed, and is removed only behind its desetup. -/
theorem run_registry_twoModules :
    let start : State Bool :=
      { moduleList := ⟨none, none, fun _ ↦ none⟩
        modules := fun _ ↦ ⟨.coming, 1, true, true, true⟩
        log := [] }
    let tty1 : List UInt8 := [0x54, 0x54, 0x59, 0x31]
    let calls : List (Call Bool) :=
      [.change (.append false), .change (.append true), .change (.prepareAll fun _ ↦ 1),
        .change (.setupAll fun _ ↦ 0), .change (.remove true), .find tty1,
        .change (.desetupAll fun _ ↦ -5), .change (.remove true), .find tty1]
    ∃ final, run (step exampleNames 9) (bspModuleInit start) calls =
      some (final, [.code (-16), .code (-16), .nothing, .nothing, .code (-16), .found (some true),
        .nothing, .code 0, .found none]) := by
  intro start tty1 calls
  have htext : 0 ∉ tty1 := by decide
  obtain ⟨final, hrun, -⟩ := run_registry exampleNames start
    (show (moduleRegistry exampleNames).MeantRun ⟨[], start.modules, []⟩ calls from
      ⟨.inr (by decide), .inr (by decide), trivial, trivial, trivial, htext, trivial, trivial,
        htext, trivial⟩)
  exact ⟨final, hrun⟩

end Vodka.Bsp.ModuleRegistry

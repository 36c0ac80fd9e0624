import Mathlib.Tactic
import Vodka.Bsp.ModuleList

/-!
# Bringing the modules up

`bsp_init` prepares all modules and then sets all of them up. Both loops write
only the entry of the module at hand and make at most one of its callbacks, so
a whole loop acts on the modules of the list independently. The state field
carries the outcome of the first loop to the second.
-/

namespace Vodka.Bsp.ModuleBringUp

open Zephyr.Slist Modules ModuleList

variable {Mod : Type*} [DecidableEq Mod]

/-- A loop body that rewrites the entry of its module and makes the call if it is due. -/
def visit (due : Mod → BspModule → Bool) (call : Mod → BspModule → Callback Mod)
    (entry : Mod → BspModule → BspModule) (mod : Mod) (state : State Mod) : State Mod :=
  { state with
    modules := Function.update state.modules mod (entry mod (state.modules mod))
    log :=
      if due mod (state.modules mod) then call mod (state.modules mod) :: state.log
      else state.log }

/-- Visits of distinct modules do not see each other: each finds the entry of the start. -/
theorem foldl_visit (due : Mod → BspModule → Bool) (call : Mod → BspModule → Callback Mod)
    (entry : Mod → BspModule → BspModule) {nodes : List Mod} (hnodup : nodes.Nodup)
    (state : State Mod) :
    nodes.foldl (fun state mod ↦ visit due call entry mod state) state =
      { moduleList := state.moduleList
        modules := fun mod ↦
          if mod ∈ nodes then entry mod (state.modules mod) else state.modules mod
        log :=
          ((nodes.filter fun mod ↦ due mod (state.modules mod)).map
            fun mod ↦ call mod (state.modules mod)).reverse ++ state.log } := by
  induction nodes generalizing state with
  | nil => simp
  | cons first nodes ih =>
    obtain ⟨hfirst, hrest⟩ := List.nodup_cons.mp hnodup
    have hkept : ∀ mod ∈ nodes, (visit due call entry first state).modules mod =
        state.modules mod := by
      intro mod hmod
      exact Function.update_of_ne (ne_of_mem_of_not_mem hmod hfirst) _ _
    have hdue : (nodes.filter fun mod ↦ due mod ((visit due call entry first state).modules mod)) =
        nodes.filter fun mod ↦ due mod (state.modules mod) := by
      apply List.filter_congr
      intro mod hmod
      rw [hkept mod hmod]
    have hcalls : ((nodes.filter fun mod ↦ due mod (state.modules mod)).map
          fun mod ↦ call mod ((visit due call entry first state).modules mod)) =
        (nodes.filter fun mod ↦ due mod (state.modules mod)).map
          fun mod ↦ call mod (state.modules mod) := by
      apply List.map_congr_left
      intro mod hmod
      rw [hkept mod (List.mem_of_mem_filter hmod)]
    rw [List.foldl_cons, ih hrest, hdue, hcalls]
    congr 1
    · funext mod
      rcases eq_or_ne mod first with rfl | hne
      · simp [visit, hfirst]
      · simp [visit, hne]
    · by_cases hcall : due first (state.modules first) = true
      · simp [visit, hcall]
      · simp [visit, hcall]

/-- The prepare callback is there and handed over a usable descriptor. -/
def isPrepared (entry : BspModule) (pointer : BitVec 32) : Bool :=
  entry.prepare && !isErrOrNull pointer

/-- The entry `bsp_module_prepare_all` leaves. -/
def prepareEntry (pointer : BitVec 32) (entry : BspModule) : BspModule :=
  if isPrepared entry pointer then { entry with descriptor := pointer, state := .coming }
  else { entry with state := .going }

/-- The entry `bsp_module_setup_all` leaves. -/
def setupEntry (result : ℤ) (entry : BspModule) : BspModule :=
  if entry.state = .coming then
    { entry with state := if entry.setup ∧ result = 0 then .live else .going }
  else entry

theorem prepareModule_eq (result : Mod → BitVec 32) (mod : Mod) (state : State Mod) :
    prepareModule result mod state =
      visit (fun _ entry ↦ entry.prepare)
        (fun mod entry ↦ .prepare mod entry.descriptor (result mod))
        (fun mod ↦ prepareEntry (result mod)) mod state := by
  have hnull : isErrOrNull 0#32 = true := by decide
  by_cases hprepare : (state.modules mod).prepare = true
  · by_cases herr : isErrOrNull (result mod) = true
    · simp [prepareModule, visit, prepareEntry, isPrepared, setModule, record, hprepare, herr]
    · simp [prepareModule, visit, prepareEntry, isPrepared, setModule, record, hprepare, herr]
  · simp [prepareModule, visit, prepareEntry, isPrepared, setModule, hprepare, hnull]

theorem setupModule_eq (result : Mod → ℤ) (mod : Mod) (state : State Mod) :
    setupModule result mod state =
      visit (fun _ entry ↦ decide (entry.state = .coming) && entry.setup)
        (fun mod entry ↦ .setup mod entry.descriptor (result mod))
        (fun mod ↦ setupEntry (result mod)) mod state := by
  by_cases hcoming : (state.modules mod).state = .coming
  · by_cases hsetup : (state.modules mod).setup = true
    · by_cases hresult : result mod = 0
      · simp [setupModule, visit, setupEntry, setModule, record, hcoming, hsetup, hresult]
      · simp [setupModule, visit, setupEntry, setModule, record, hcoming, hsetup, hresult]
    · simp [setupModule, visit, setupEntry, setModule, hcoming, hsetup]
  · simp [setupModule, visit, setupEntry, hcoming]

/-- Only a prepared module reaches the second loop. -/
@[simp]
theorem prepareEntry_state_eq_coming (entry : BspModule) (pointer : BitVec 32) :
    (prepareEntry pointer entry).state = .coming ↔ isPrepared entry pointer = true := by
  by_cases hprepared : isPrepared entry pointer = true <;> simp [prepareEntry, hprepared]

@[simp]
theorem prepareEntry_setup (entry : BspModule) (pointer : BitVec 32) :
    (prepareEntry pointer entry).setup = entry.setup := by
  unfold prepareEntry
  split_ifs <;> rfl

/-- The module comes up: both callbacks are there and succeed. -/
def comesUp (entry : BspModule) (pointer : BitVec 32) (result : ℤ) : Bool :=
  isPrepared entry pointer && entry.setup && decide (result = 0)

/-- The two loops together, on one entry. -/
theorem setupEntry_prepareEntry (entry : BspModule) (pointer : BitVec 32) (result : ℤ) :
    setupEntry result (prepareEntry pointer entry) =
      { entry with
        state := if comesUp entry pointer result then .live else .going
        descriptor := if isPrepared entry pointer then pointer else entry.descriptor } := by
  by_cases hprepared : isPrepared entry pointer = true
  · simp [setupEntry, prepareEntry, comesUp, hprepared]
  · simp [setupEntry, prepareEntry, comesUp, hprepared]

def duePrepares (nodes : List Mod) (pointers : Mod → BitVec 32) (state : State Mod) :
    List (Callback Mod) :=
  (nodes.filter fun mod ↦ (state.modules mod).prepare).map
    fun mod ↦ .prepare mod (state.modules mod).descriptor (pointers mod)

/-- The state between the loops. -/
def preparedState (nodes : List Mod) (pointers : Mod → BitVec 32) (state : State Mod) :
    State Mod where
  moduleList := state.moduleList
  modules := fun mod ↦
    if mod ∈ nodes then prepareEntry (pointers mod) (state.modules mod) else state.modules mod
  log := (duePrepares nodes pointers state).reverse ++ state.log

theorem bspModulePrepareAll_eq {fuel : ℕ} {state : State Mod} {nodes : List Mod}
    (h : Represents state.moduleList nodes) (hfuel : nodes.length ≤ fuel)
    (pointers : Mod → BitVec 32) :
    bspModulePrepareAll fuel pointers state = some (preparedState nodes pointers state) := by
  calc bspModulePrepareAll fuel pointers state
      = some (nodes.foldl (fun state mod ↦ prepareModule pointers mod state) state) :=
        h.forEach_eq_foldl (fun mod state ↦ prepareModule_moduleList state mod pointers) hfuel
    _ = _ := by
        simp only [prepareModule_eq]
        rw [foldl_visit _ _ _ h.nodup]
        rfl

theorem bspModuleSetupAll_eq {fuel : ℕ} {state : State Mod} {nodes : List Mod}
    (h : Represents state.moduleList nodes) (hfuel : nodes.length ≤ fuel) (result : Mod → ℤ) :
    bspModuleSetupAll fuel result state =
      some
        { moduleList := state.moduleList
          modules := fun mod ↦
            if mod ∈ nodes then setupEntry (result mod) (state.modules mod)
            else state.modules mod
          log :=
            ((nodes.filter fun mod ↦
                decide ((state.modules mod).state = .coming) && (state.modules mod).setup).map
              fun mod ↦ .setup mod (state.modules mod).descriptor (result mod)).reverse ++
            state.log } := by
  calc bspModuleSetupAll fuel result state
      = some (nodes.foldl (fun state mod ↦ setupModule result mod state) state) :=
        h.forEach_eq_foldl (fun mod state ↦ setupModule_moduleList state mod result) hfuel
    _ = _ := by
        simp only [setupModule_eq]
        rw [foldl_visit _ _ _ h.nodup]

/-- The calls of setup that are due, in list order: one for every prepared module with a setup
callback, on the descriptor its prepare handed over. -/
def dueSetups (nodes : List Mod) (pointers : Mod → BitVec 32) (results : Mod → ℤ)
    (state : State Mod) : List (Callback Mod) :=
  (nodes.filter fun mod ↦
      isPrepared (state.modules mod) (pointers mod) && (state.modules mod).setup).map
    fun mod ↦ .setup mod (pointers mod) (results mod)

/-- What bringing up the listed modules does. -/
structure BroughtUp (nodes : List Mod) (pointers : Mod → BitVec 32) (results : Mod → ℤ)
    (before after : State Mod) : Prop where
  moduleList_eq : after.moduleList = before.moduleList
  log_eq : after.log = (dueSetups nodes pointers results before).reverse ++
    (duePrepares nodes pointers before).reverse ++ before.log
  live_iff : ∀ mod ∈ nodes, (after.modules mod).state = .live ↔
    isPrepared (before.modules mod) (pointers mod) = true ∧
      (before.modules mod).setup = true ∧ results mod = 0
  going_iff : ∀ mod ∈ nodes,
    (after.modules mod).state = .going ↔ (after.modules mod).state ≠ .live
  descriptor_eq : ∀ mod ∈ nodes, (after.modules mod).descriptor =
    if isPrepared (before.modules mod) (pointers mod) then pointers mod
    else (before.modules mod).descriptor
  callbacks_eq : ∀ mod ∈ nodes,
    (after.modules mod).prepare = (before.modules mod).prepare ∧
      (after.modules mod).setup = (before.modules mod).setup ∧
      (after.modules mod).desetup = (before.modules mod).desetup
  unlisted_eq : ∀ mod ∉ nodes, after.modules mod = before.modules mod

/-- The state after both loops. -/
def broughtUp (nodes : List Mod) (pointers : Mod → BitVec 32) (results : Mod → ℤ)
    (state : State Mod) : State Mod where
  moduleList := state.moduleList
  modules := fun mod ↦
    if mod ∈ nodes then
      setupEntry (results mod) (prepareEntry (pointers mod) (state.modules mod))
    else state.modules mod
  log := (dueSetups nodes pointers results state).reverse ++
    (duePrepares nodes pointers state).reverse ++ state.log

/-- `bsp_module_prepare_all` and then `bsp_module_setup_all`, as `bsp_init` calls them. -/
def bringUpAll (fuel : ℕ) (pointers : Mod → BitVec 32) (results : Mod → ℤ) (state : State Mod) :
    Option (State Mod) := do
  let prepared ← bspModulePrepareAll fuel pointers state
  bspModuleSetupAll fuel results prepared

theorem bringUpAll_eq {fuel : ℕ} {state : State Mod} {nodes : List Mod}
    (h : Represents state.moduleList nodes) (hfuel : nodes.length ≤ fuel)
    (pointers : Mod → BitVec 32) (results : Mod → ℤ) :
    bringUpAll fuel pointers results state = some (broughtUp nodes pointers results state) := by
  have hmodules : ∀ mod ∈ nodes, (preparedState nodes pointers state).modules mod =
      prepareEntry (pointers mod) (state.modules mod) := fun mod hmod ↦ if_pos hmod
  have hdue : (nodes.filter fun mod ↦
        decide (((preparedState nodes pointers state).modules mod).state = .coming) &&
          ((preparedState nodes pointers state).modules mod).setup) =
      nodes.filter fun mod ↦
        isPrepared (state.modules mod) (pointers mod) && (state.modules mod).setup := by
    apply List.filter_congr
    intro mod hmod
    simp [hmodules mod hmod]
  have hcalls : ((nodes.filter fun mod ↦
          isPrepared (state.modules mod) (pointers mod) && (state.modules mod).setup).map
        fun mod ↦ (.setup mod ((preparedState nodes pointers state).modules mod).descriptor
          (results mod) : Callback Mod)) =
      dueSetups nodes pointers results state := by
    apply List.map_congr_left
    intro mod hmod
    obtain ⟨hlisted, hprepared⟩ := List.mem_filter.mp hmod
    rw [Bool.and_eq_true] at hprepared
    simp [hmodules mod hlisted, prepareEntry, hprepared.1]
  have hlist : Represents (preparedState nodes pointers state).moduleList nodes := h
  unfold bringUpAll
  rw [bspModulePrepareAll_eq h hfuel pointers, Option.bind_eq_bind, Option.bind_some,
    bspModuleSetupAll_eq hlist hfuel results, hdue, hcalls]
  congr 1
  simp only [broughtUp, preparedState, List.append_assoc]
  congr 1
  funext mod
  split_ifs <;> rfl

theorem broughtUp_spec (nodes : List Mod) (pointers : Mod → BitVec 32) (results : Mod → ℤ)
    (state : State Mod) :
    BroughtUp nodes pointers results state (broughtUp nodes pointers results state) where
  moduleList_eq := rfl
  log_eq := rfl
  live_iff := by
    intro mod hmod
    simp [broughtUp, hmod, setupEntry_prepareEntry, comesUp, and_assoc]
  going_iff := by
    intro mod hmod
    simp [broughtUp, hmod, setupEntry_prepareEntry]
  descriptor_eq := by
    intro mod hmod
    simp [broughtUp, hmod, setupEntry_prepareEntry]
  callbacks_eq := by
    intro mod hmod
    simp [broughtUp, hmod, setupEntry_prepareEntry]
  unlisted_eq := by
    intro mod hmod
    simp [broughtUp, hmod]

/-- The module a callback belongs to. -/
def owner : Callback Mod → Mod
  | .prepare mod _ _ => mod
  | .setup mod _ _ => mod
  | .desetup mod _ _ => mod

/-- What is to be seen of one module: its entry and its callbacks. -/
def view (state : State Mod) (mod : Mod) : BspModule × List (Callback Mod) :=
  (state.modules mod, state.log.filter fun callback ↦ owner callback = mod)

/-- The callbacks of one module among those due depend on what is due for that module. -/
theorem filter_owner_congr {due due' : Mod → Bool} {call call' : Mod → Callback Mod} {mod : Mod}
    (hcall : ∀ mod, owner (call mod) = mod) (hcall' : ∀ mod, owner (call' mod) = mod)
    (hdue : due mod = due' mod) (heq : call mod = call' mod) (nodes : List Mod) :
    ((nodes.filter due).map call).filter (fun callback ↦ owner callback = mod) =
      ((nodes.filter due').map call').filter fun callback ↦ owner callback = mod := by
  rw [List.filter_map, List.filter_map, List.filter_filter, List.filter_filter]
  have hfilter : (nodes.filter fun other ↦
        ((fun callback ↦ decide (owner callback = mod)) ∘ call) other && due other) =
      nodes.filter fun other ↦
        ((fun callback ↦ decide (owner callback = mod)) ∘ call') other && due' other := by
    apply List.filter_congr
    intro other _
    rcases eq_or_ne other mod with rfl | hne
    · simp [hcall, hcall', hdue]
    · simp [hcall, hcall', hne]
  rw [hfilter]
  apply List.map_congr_left
  intro other hother
  have hmod : other = mod := by
    have howner := (List.mem_filter.mp hother).2
    simp only [Function.comp_apply, hcall', Bool.and_eq_true, decide_eq_true_eq] at howner
    exact howner.1
  rw [hmod, heq]

/-- What is seen of a module depends on the results of its own callbacks only. -/
theorem view_broughtUp_congr {pointers pointers' : Mod → BitVec 32} {results results' : Mod → ℤ}
    {mod : Mod} (hpointer : pointers mod = pointers' mod) (hresult : results mod = results' mod)
    (nodes : List Mod) (state : State Mod) :
    view (broughtUp nodes pointers results state) mod =
      view (broughtUp nodes pointers' results' state) mod := by
  have hsetups : (dueSetups nodes pointers results state).filter
        (fun callback ↦ owner callback = mod) =
      (dueSetups nodes pointers' results' state).filter fun callback ↦ owner callback = mod := by
    apply filter_owner_congr
    · exact fun _ ↦ rfl
    · exact fun _ ↦ rfl
    · rw [hpointer]
    · rw [hpointer, hresult]
  have hprepares : (duePrepares nodes pointers state).filter
        (fun callback ↦ owner callback = mod) =
      (duePrepares nodes pointers' state).filter fun callback ↦ owner callback = mod := by
    apply filter_owner_congr
    · exact fun _ ↦ rfl
    · exact fun _ ↦ rfl
    · rfl
    · rw [hpointer]
  apply Prod.ext
  · simp only [view, broughtUp, hpointer, hresult]
  · simp only [view, broughtUp, List.filter_append, List.filter_reverse, hsetups, hprepares]

/-- **Module bring-up.** On every well-formed list, whatever the callbacks return, both loops end
and leave the modules brought up; and two runs that differ in the callbacks of other modules
only show the same of a module. -/
theorem bringUp {fuel : ℕ} {state : State Mod} {nodes : List Mod}
    (h : Represents state.moduleList nodes) (hfuel : nodes.length ≤ fuel)
    (pointers : Mod → BitVec 32) (results : Mod → ℤ) :
    ∃ after, bringUpAll fuel pointers results state = some after ∧
      BroughtUp nodes pointers results state after ∧
      ∀ pointers' results' after', bringUpAll fuel pointers' results' state = some after' →
        ∀ mod, pointers mod = pointers' mod → results mod = results' mod →
          view after mod = view after' mod := by
  refine ⟨_, bringUpAll_eq h hfuel pointers results, broughtUp_spec nodes pointers results state,
    ?_⟩
  intro pointers' results' after' hafter' mod hpointer hresult
  rw [bringUpAll_eq h hfuel] at hafter'
  obtain rfl := Option.some.inj hafter'
  exact view_broughtUp_congr hpointer hresult nodes state

/-- The list as `bsp_init` builds it, of two modules. -/
def appendBoth (state : State Mod) (first second : Mod) : State Mod :=
  (bspModuleAppend (bspModuleAppend (bspModuleInit state) first).1 second).1

theorem represents_appendBoth {state : State Mod} {first second : Mod} (hne : second ≠ first)
    (hfirst : (state.modules first).state ≠ .live)
    (hsecond : (state.modules second).state ≠ .live) :
    Represents (appendBoth state first second).moduleList [first, second] := by
  have happend : (bspModuleAppend (bspModuleInit state) first).1 =
      { bspModuleInit state with
        moduleList := sysSlistAppend (bspModuleInit state).moduleList first } :=
    bspModuleAppend_of_not_live hfirst
  have hstart : Represents (bspModuleAppend (bspModuleInit state) first).1.moduleList [first] := by
    rw [happend]
    exact (represents_init state.moduleList).append List.not_mem_nil
  have hkept : ((bspModuleAppend (bspModuleInit state) first).1.modules second).state ≠ .live := by
    rw [happend]
    exact hsecond
  rw [appendBoth, bspModuleAppend_of_not_live hkept]
  exact hstart.append (by simpa using hne)

/-- The first module fails to prepare and the second one comes up all the same. -/
theorem bringUp_second :
    ∃ after,
      bringUpAll 2 (fun mod ↦ if mod = 0 then 0#32 else 32#32) (fun _ ↦ 0)
        (appendBoth exampleState 0 1) = some after ∧
      (after.modules 0).state = .going ∧ (after.modules 1).state = .live := by
  have hlisted : Represents (appendBoth exampleState 0 1).moduleList [0, 1] :=
    represents_appendBoth (by decide) (by decide) (by decide)
  obtain ⟨after, hafter, hbrought, -⟩ := bringUp hlisted (le_refl 2)
    (fun mod ↦ if mod = 0 then 0#32 else 32#32) (fun _ ↦ 0)
  refine ⟨after, hafter, ?_, ?_⟩
  · rw [hbrought.going_iff 0 (by simp), Ne, hbrought.live_iff 0 (by simp)]
    decide
  · rw [hbrought.live_iff 1 (by simp)]
    decide

end Vodka.Bsp.ModuleBringUp

import Mathlib.Tactic
import Vodka.Foundation.Trace
import Vodka.Zephyr.Slist

/-!
# The board support module list

Modules are kept in a Zephyr list and are prepared, set up and desetup by loops
over it. Versions only reach the log messages and are left out, and names, which
no call writes to, are a map of their own. The results of the callbacks are part
of the event that calls them, and every callback made is recorded.
-/

namespace Vodka.Bsp.Modules

open Foundation.Trace Zephyr.Slist

inductive BspModuleState
  | live
  | coming
  | going
  deriving DecidableEq, Repr

/-- `struct bsp_module`: of the callbacks only whether the pointer is set. -/
structure BspModule where
  state : BspModuleState
  descriptor : BitVec 32
  setup : Bool
  desetup : Bool
  prepare : Bool
  deriving DecidableEq

/-- One callback with its argument and result. -/
inductive Callback (Mod : Type*)
  | prepare (mod : Mod) (descriptor result : BitVec 32)
  | setup (mod : Mod) (descriptor : BitVec 32) (result : ℤ)
  | desetup (mod : Mod) (descriptor : BitVec 32) (result : ℤ)

/-- The list, the modules behind its nodes, and the callbacks made, newest first. -/
structure State (Mod : Type*) where
  moduleList : SysSlist Mod
  modules : Mod → BspModule
  log : List (Callback Mod)

def EBUSY : ℤ := 16

def MAX_ERRNO : ℕ := 4095

/-- `IS_ERR_OR_NULL` on a 32-bit pointer. -/
def isErrOrNull (pointer : BitVec 32) : Bool :=
  pointer == 0#32 || decide (2 ^ 32 - MAX_ERRNO ≤ pointer.toNat)

variable {Mod : Type*} [DecidableEq Mod]

def setModule (state : State Mod) (mod : Mod) (value : BspModule) : State Mod :=
  { state with modules := Function.update state.modules mod value }

def record (state : State Mod) (callback : Callback Mod) : State Mod :=
  { state with log := callback :: state.log }

def bspModuleInit (state : State Mod) : State Mod :=
  { state with moduleList := sysSlistInit state.moduleList, log := [] }

/-- The source appends whenever the module is not live and returns `-EBUSY` on every path. -/
def bspModuleAppend (state : State Mod) (mod : Mod) : State Mod × ℤ :=
  if (state.modules mod).state ≠ .live then
    ({ state with moduleList := sysSlistAppend state.moduleList mod }, -EBUSY)
  else (state, -EBUSY)

def bspModuleRemove (fuel : ℕ) (state : State Mod) (mod : Mod) : Option (State Mod × ℤ) :=
  if (state.modules mod).state ≠ .live then
    (sysSlistFindAndRemove fuel state.moduleList mod).map fun found ↦
      ({ state with moduleList := found.1 }, 0)
  else some (state, -EBUSY)

/-- The loop body of `bsp_module_prepare_all`. -/
def prepareModule (result : Mod → BitVec 32) (mod : Mod) (state : State Mod) : State Mod :=
  let entry := state.modules mod
  let tmpDes := if entry.prepare then result mod else 0#32
  let state :=
    if entry.prepare then record state (.prepare mod entry.descriptor (result mod)) else state
  if isErrOrNull tmpDes then setModule state mod { entry with state := .going }
  else setModule state mod { entry with descriptor := tmpDes, state := .coming }

/-- The loop body of `bsp_module_setup_all`. -/
def setupModule (result : Mod → ℤ) (mod : Mod) (state : State Mod) : State Mod :=
  let entry := state.modules mod
  if entry.state ≠ .coming then state
  else
    let res := if entry.setup then result mod else -1
    let state :=
      if entry.setup then record state (.setup mod entry.descriptor (result mod)) else state
    if res ≠ 0 then setModule state mod { entry with state := .going }
    else setModule state mod { entry with state := .live }

/-- The loop body of `bsp_module_desetup_all`: the result only reaches the log message. -/
def desetupModule (result : Mod → ℤ) (mod : Mod) (state : State Mod) : State Mod :=
  let entry := state.modules mod
  if entry.state = .going then state
  else
    let state :=
      if entry.desetup then record state (.desetup mod entry.descriptor (result mod)) else state
    setModule state mod { entry with state := .going }

def bspModulePrepareAll (fuel : ℕ) (result : Mod → BitVec 32) (state : State Mod) :
    Option (State Mod) :=
  forEach fuel State.moduleList (prepareModule result) state

def bspModuleSetupAll (fuel : ℕ) (result : Mod → ℤ) (state : State Mod) : Option (State Mod) :=
  forEach fuel State.moduleList (setupModule result) state

def bspModuleDesetupAll (fuel : ℕ) (result : Mod → ℤ) (state : State Mod) : Option (State Mod) :=
  forEach fuel State.moduleList (desetupModule result) state

/-- One call of the module interface, with the results of the callbacks it makes. -/
inductive Event (Mod : Type*)
  | append (mod : Mod)
  | remove (mod : Mod)
  | prepareAll (result : Mod → BitVec 32)
  | setupAll (result : Mod → ℤ)
  | desetupAll (result : Mod → ℤ)

/-- A call, when its loops end within the fuel. -/
def step (fuel : ℕ) (state : State Mod) : Event Mod → Option (State Mod)
  | .append mod => some (bspModuleAppend state mod).1
  | .remove mod => (bspModuleRemove fuel state mod).map Prod.fst
  | .prepareAll result => bspModulePrepareAll fuel result state
  | .setupAll result => bspModuleSetupAll fuel result state
  | .desetupAll result => bspModuleDesetupAll fuel result state

/-- The calls made after `bsp_module_init`. One loop iteration for every call is enough fuel
for a well-formed list, since each call appends at most one node. -/
def moduleTrace (state : State Mod) (events : List (Event Mod)) :
    List (Transition (State Mod) (Event Mod)) :=
  trace (step events.length) (bspModuleInit state) events

section Simp

variable (state : State Mod) (mod other : Mod) (value : BspModule) (callback : Callback Mod)

@[simp]
theorem setModule_moduleList : (setModule state mod value).moduleList = state.moduleList := rfl

@[simp]
theorem setModule_log : (setModule state mod value).log = state.log := rfl

@[simp]
theorem setModule_modules :
    (setModule state mod value).modules = Function.update state.modules mod value := rfl

omit [DecidableEq Mod] in
@[simp]
theorem record_moduleList : (record state callback).moduleList = state.moduleList := rfl

omit [DecidableEq Mod] in
@[simp]
theorem record_log : (record state callback).log = callback :: state.log := rfl

omit [DecidableEq Mod] in
@[simp]
theorem record_modules : (record state callback).modules = state.modules := rfl

@[simp]
theorem prepareModule_moduleList (result : Mod → BitVec 32) :
    (prepareModule result mod state).moduleList = state.moduleList := by
  unfold prepareModule
  dsimp only
  split_ifs <;> rfl

@[simp]
theorem setupModule_moduleList (result : Mod → ℤ) :
    (setupModule result mod state).moduleList = state.moduleList := by
  unfold setupModule
  dsimp only
  split_ifs <;> rfl

@[simp]
theorem desetupModule_moduleList (result : Mod → ℤ) :
    (desetupModule result mod state).moduleList = state.moduleList := by
  unfold desetupModule
  dsimp only
  split_ifs <;> rfl

end Simp

end Vodka.Bsp.Modules

import Mathlib.Tactic
import Vodka.Bsp.Modules

/-!
# Well-formedness of the module list

`bsp_module_append` tests the state of a module but not whether it is already
listed, and the list below it does not test either. A run of the module
interface keeps the list a finite chain of distinct modules that loses none of
them exactly when no module that is not live is appended while it is listed.
-/

namespace Vodka.Bsp.ModuleList

open Foundation.Trace Zephyr.Slist Modules

variable {Mod : Type*} [DecidableEq Mod]

/-- The module is a node of the well-formed list. -/
def Listed (state : State Mod) (mod : Mod) : Prop :=
  ∃ nodes, Represents state.moduleList nodes ∧ mod ∈ nodes

/-- After the call the list is a chain of distinct modules with the right tail, every loop over
it ends after visiting each of them once, and only a removed module is gone. -/
def ListOk (call : Transition (State Mod) (Event Mod)) : Prop :=
  ∃ before after, Represents call.pre.moduleList before ∧ Represents call.post.moduleList after ∧
    (∀ fuel, after.length ≤ fuel → visited fuel call.post.moduleList = some after) ∧
    ∀ mod ∈ before, mod ∈ after ∨ call.event = .remove mod

/-- An append either refuses a live module or adds one that is not listed yet. -/
def AppendFresh (state : State Mod) : Event Mod → Prop
  | .append mod => (state.modules mod).state = .live ∨ ¬ Listed state mod
  | _ => True

omit [DecidableEq Mod] in
theorem Listed.iff_mem {state : State Mod} {nodes : List Mod}
    (h : Represents state.moduleList nodes) (mod : Mod) : Listed state mod ↔ mod ∈ nodes :=
  ⟨fun ⟨_, hother, hmem⟩ ↦ h.unique hother ▸ hmem, fun hmem ↦ ⟨nodes, h, hmem⟩⟩

omit [DecidableEq Mod] in
/-- What the calls that loop over the modules do to the list: nothing. -/
theorem forEach_moduleList {body : Mod → State Mod → State Mod}
    (hbody : ∀ mod state, (body mod state).moduleList = state.moduleList) {fuel : ℕ}
    {state : State Mod} {nodes : List Mod} (h : Represents state.moduleList nodes)
    (hfuel : nodes.length ≤ fuel) :
    ∃ next, forEach fuel State.moduleList body state = some next ∧
      next.moduleList = state.moduleList :=
  h.forEach_rule (fun _ next ↦ next.moduleList = state.moduleList) hbody hfuel rfl
    fun _ mod next _ hnext ↦ (hbody mod next).trans hnext

theorem bspModuleAppend_of_not_live {state : State Mod} {mod : Mod}
    (hlive : (state.modules mod).state ≠ .live) :
    (bspModuleAppend state mod).1 =
      { state with moduleList := sysSlistAppend state.moduleList mod } := by
  simp [bspModuleAppend, hlive]

/-- A fresh call on a well-formed list returns, keeps the list well-formed, drops at most
the removed module and lengthens it by at most one. -/
theorem step_of_fresh (fuel : ℕ) {state : State Mod} {event : Event Mod} {nodes : List Mod}
    (h : Represents state.moduleList nodes) (hfuel : nodes.length ≤ fuel)
    (hfresh : AppendFresh state event) :
    ∃ next after, step fuel state event = some next ∧ Represents next.moduleList after ∧
      after.length ≤ nodes.length + 1 ∧ ∀ mod ∈ nodes, mod ∈ after ∨ event = .remove mod := by
  have hloop : ∀ {body : Mod → State Mod → State Mod},
      (∀ mod state, (body mod state).moduleList = state.moduleList) →
      ∃ next after, forEach fuel State.moduleList body state = some next ∧
        Represents next.moduleList after ∧ after.length ≤ nodes.length + 1 ∧
        ∀ mod ∈ nodes, mod ∈ after ∨ event = .remove mod := by
    intro body hbody
    obtain ⟨next, hnext, hlist⟩ := forEach_moduleList hbody h hfuel
    exact ⟨next, nodes, hnext, hlist ▸ h, Nat.le_succ _, fun mod hmod ↦ .inl hmod⟩
  cases event with
  | append mod =>
    by_cases hlive : (state.modules mod).state = .live
    · exact ⟨state, nodes, by simp [step, bspModuleAppend, hlive], h, Nat.le_succ _,
        fun mod hmod ↦ .inl hmod⟩
    · have hmem : mod ∉ nodes := by
        rw [← Listed.iff_mem h]
        exact hfresh.resolve_left hlive
      refine ⟨_, nodes ++ [mod], congrArg some (bspModuleAppend_of_not_live hlive), h.append hmem,
        by simp, fun other hother ↦ ?_⟩
      exact .inl (List.mem_append_left _ hother)
  | remove mod =>
    by_cases hlive : (state.modules mod).state = .live
    · exact ⟨state, nodes, by simp [step, bspModuleRemove, hlive], h, Nat.le_succ _,
        fun mod hmod ↦ .inl hmod⟩
    · obtain ⟨list, hfound, hlist⟩ := h.findAndRemove hfuel mod
      refine ⟨{ state with moduleList := list }, nodes.erase mod,
        by simp [step, bspModuleRemove, hlive, hfound], hlist, ?_, fun other hother ↦ ?_⟩
      · exact (List.length_erase_le).trans (Nat.le_succ _)
      · rcases eq_or_ne other mod with rfl | hne
        · exact .inr rfl
        · exact .inl ((List.mem_erase_of_ne hne).mpr hother)
  | prepareAll result => exact hloop fun mod state ↦ prepareModule_moduleList state mod result
  | setupAll result => exact hloop fun mod state ↦ setupModule_moduleList state mod result
  | desetupAll result => exact hloop fun mod state ↦ desetupModule_moduleList state mod result

/-- Appending a listed module that is not live breaks the chain or drops what follows it. -/
theorem not_listOk_of_relisted {state : State Mod} {mod : Mod} {nodes : List Mod}
    (h : Represents state.moduleList nodes) (hmem : mod ∈ nodes)
    (hlive : (state.modules mod).state ≠ .live) :
    ¬ ListOk ⟨state, .append mod, (bspModuleAppend state mod).1⟩ := by
  rintro ⟨before, after, hbefore, hafter, -, hkept⟩
  obtain rfl := h.unique hbefore
  rw [bspModuleAppend_of_not_live hlive] at hafter
  obtain ⟨front, rest, rfl⟩ := List.append_of_mem hmem
  rcases List.eq_nil_or_concat' rest with rfl | ⟨inner, last, rfl⟩
  · exact h.append_last after hafter.chain
  · obtain rfl := (h.append_inner (by simp)).unique hafter
    have hlast := (hkept last (by simp)).resolve_right (by simp)
    have hnodup := h.nodup
    rw [← List.cons_append, ← List.append_assoc, List.nodup_middle, List.append_nil] at hnodup
    simp only [List.nodup_cons, List.mem_append, List.mem_cons, not_or] at hnodup
    simp only [List.mem_append, List.mem_singleton] at hlast
    exact hlast.elim hnodup.1.1 hnodup.1.2.1

/-- The list has room for all calls still to come. -/
def Inv (fuel : ℕ) (state : State Mod) (events : List (Event Mod)) : Prop :=
  ∃ nodes, Represents state.moduleList nodes ∧ nodes.length + events.length ≤ fuel

theorem Inv.preserved {fuel : ℕ} {state next : State Mod} {event : Event Mod}
    {events : List (Event Mod)} (h : Inv fuel state (event :: events))
    (hstep : step fuel state event = some next) (hfresh : AppendFresh state event) :
    Inv fuel next events := by
  obtain ⟨nodes, hnodes, hfuel⟩ := h
  rw [List.length_cons] at hfuel
  obtain ⟨other, after, hother, hafter, hlength, -⟩ := step_of_fresh fuel hnodes (by omega) hfresh
  obtain rfl := Option.some.inj (hstep.symm.trans hother)
  exact ⟨after, hafter, by omega⟩

/-- Every call on a well-formed list returns, an unfortunate append included. -/
theorem Inv.returns {fuel : ℕ} {state : State Mod} {event : Event Mod} {events : List (Event Mod)}
    (h : Inv fuel state (event :: events)) : (step fuel state event).isSome := by
  obtain ⟨nodes, hnodes, hfuel⟩ := h
  rw [List.length_cons] at hfuel
  have hfreshReturns (hfresh : AppendFresh state event) : (step fuel state event).isSome := by
    obtain ⟨next, -, hnext, -⟩ := step_of_fresh fuel hnodes (by omega) hfresh
    exact Option.isSome_of_eq_some hnext
  cases event with
  | append mod => rfl
  | _ => exact hfreshReturns trivial

theorem listOk_iff_fresh {fuel : ℕ} {state next : State Mod} {event : Event Mod}
    {events : List (Event Mod)} (h : Inv fuel state (event :: events))
    (hstep : step fuel state event = some next) :
    ListOk ⟨state, event, next⟩ ↔ AppendFresh state event := by
  obtain ⟨nodes, hnodes, hfuel⟩ := h
  rw [List.length_cons] at hfuel
  constructor
  · intro hok
    cases event with
    | append mod =>
      by_contra hstale
      obtain ⟨hlive, hlisted⟩ := not_or.mp hstale
      rw [not_not, Listed.iff_mem hnodes] at hlisted
      obtain rfl := Option.some.inj hstep
      exact not_listOk_of_relisted hnodes hlisted hlive hok
    | _ => trivial
  · intro hfresh
    obtain ⟨other, after, hother, hafter, -, hkept⟩ := step_of_fresh fuel hnodes (by omega) hfresh
    obtain rfl := Option.some.inj (hstep.symm.trans hother)
    exact ⟨nodes, after, hnodes, hafter, fun fuel hfuel ↦ hafter.visited_eq hfuel, hkept⟩

/-- **Module list.** From `bsp_module_init` on, all calls return and every one of them keeps the
list well-formed without dropping another module, exactly when no append finds its module
already listed and not live. -/
theorem listOk_iff (state : State Mod) (events : List (Event Mod)) :
    ((∀ call ∈ moduleTrace state events, ListOk call) ∧
        (moduleTrace state events).length = events.length) ↔
      ∀ call ∈ moduleTrace state events, AppendFresh call.pre call.event := by
  have hstart : Inv events.length (bspModuleInit state) events :=
    ⟨[], represents_init _, by simp⟩
  have hcalls : (∀ call ∈ moduleTrace state events, ListOk call) ↔
      ∀ call ∈ moduleTrace state events, AppendFresh call.pre call.event :=
    forall_trace_iff _ (fun _ ↦ True)
      (fun _ _ _ _ hinv hstep _ hfresh ↦ hinv.preserved hstep hfresh)
      (fun _ _ _ _ hinv hstep _ ↦ listOk_iff_fresh hinv hstep) hstart fun _ _ ↦ trivial
  refine ⟨fun h ↦ hcalls.mp h.1, fun hfresh ↦ ⟨hcalls.mpr hfresh, ?_⟩⟩
  exact length_trace_eq _ (fun _ _ _ _ hinv hstep hfresh ↦ hinv.preserved hstep hfresh)
    (fun _ _ _ hinv ↦ hinv.returns) hstart hfresh

/-- Three modules in the state a module starts in. -/
def exampleState : State (Fin 3) where
  moduleList := { head := none, tail := none, next := fun _ ↦ none }
  modules := fun _ ↦
    { state := .coming, descriptor := 0#32, setup := true, desetup := true, prepare := true }
  log := []

/-- Appending the first of two listed modules once more loses the second. -/
theorem relisted_drops_second :
    ¬ ∀ call ∈ moduleTrace exampleState [.append 0, .append 1, .append 0], ListOk call := by
  intro hok
  let start := bspModuleInit exampleState
  let first := (bspModuleAppend start 0).1
  let second := (bspModuleAppend first 1).1
  have hlinked : Represents second.moduleList [0, 1] :=
    ((represents_init exampleState.moduleList).append (by decide)).append (by decide)
  exact not_listOk_of_relisted hlinked (by simp) (by decide)
    (hok ⟨second, .append 0, (bspModuleAppend second 0).1⟩
      (by simp [moduleTrace, trace, step, second, first, start]))

end Vodka.Bsp.ModuleList

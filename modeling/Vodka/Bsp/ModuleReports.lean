import Mathlib.Tactic
import Vodka.Bsp.ModuleList
import Vodka.Zephyr.Walk

/-!
# What the module list operations report

`bsp_module_append` returns `-EBUSY` on both of its paths, and `bsp_module_remove`
drops the answer of the search. The results are compared here with what happened
to the list, on every list a run of the module interface can reach, the lists
that a repeated append has looped included.
-/

namespace Vodka.Bsp.ModuleReports

open Foundation.Trace Zephyr.Slist Zephyr.Walk Modules

variable {Mod : Type*} [DecidableEq Mod]

/-- The module was put at the end of a list that did not hold it. -/
def Added (before after : SysSlist Mod) (mod : Mod) : Prop :=
  ∃ nodes, Order before nodes ∧ mod ∉ nodes ∧ Order after (nodes ++ [mod])

/-- The module was taken out of the list and the others stay in order. -/
def TakenOut (before after : SysSlist Mod) (mod : Mod) : Prop :=
  ∃ nodes, Order before nodes ∧ mod ∈ nodes ∧ Order after (nodes.erase mod)

/-- Zero is returned exactly when the work is done; an error means that the list is as before. -/
def Truthful (done : SysSlist Mod → SysSlist Mod → Mod → Prop) (state : State Mod) (mod : Mod)
    (result : State Mod × ℤ) : Prop :=
  (result.2 = 0 ↔ done state.moduleList result.1.moduleList mod) ∧
    (result.2 ≠ 0 → result.2 < 0 ∧ result.1.moduleList = state.moduleList)

def AppendReports (state : State Mod) (mod : Mod) : Prop :=
  Truthful Added state mod (bspModuleAppend state mod)

/-- The removal returns, and truthfully. -/
def RemoveReports (state : State Mod) (mod : Mod) : Prop :=
  ∃ fuel result, bspModuleRemove fuel state mod = some result ∧ Truthful TakenOut state mod result

/-- A loop over the list meets the module. -/
def Met (state : State Mod) (mod : Mod) : Prop :=
  ∃ nodes, Order state.moduleList nodes ∧ mod ∈ nodes

def SelfLinked (state : State Mod) (mod : Mod) : Prop :=
  state.moduleList.next mod = some mod

/-- The calls of the interface, on whatever modules, leave an order. -/
theorem linked_step {fuel : ℕ} {state next : State Mod} {event : Event Mod} {nodes : List Mod}
    (h : Linked state.moduleList nodes) (hstep : step fuel state event = some next) :
    ∃ after, Linked next.moduleList after := by
  have hloop {body : Mod → State Mod → State Mod}
      (hbody : ∀ mod state, (body mod state).moduleList = state.moduleList)
      (hnext : forEach fuel State.moduleList body state = some next) :
      ∃ after, Linked next.moduleList after :=
    ⟨nodes, forEachFrom_links hbody hnext ▸ h⟩
  cases event with
  | append mod =>
    obtain rfl := Option.some.inj hstep
    by_cases hlive : (state.modules mod).state = .live
    · exact ⟨nodes, by simpa [bspModuleAppend, hlive] using h⟩
    · rw [ModuleList.bspModuleAppend_of_not_live hlive]
      exact h.append mod
  | remove mod =>
    by_cases hlive : (state.modules mod).state = .live
    · simp only [step, bspModuleRemove, hlive, ne_eq, not_true_eq_false, if_false,
        Option.map_some, Option.some.injEq] at hstep
      exact ⟨nodes, hstep ▸ h⟩
    · simp only [step, bspModuleRemove, hlive, ne_eq, not_false_eq_true, if_true,
        Option.map_map, Option.map_eq_some_iff] at hstep
      obtain ⟨found, hfound, rfl⟩ := hstep
      exact h.of_findAndRemove hfound
  | prepareAll result =>
    exact hloop (fun mod state ↦ prepareModule_moduleList state mod result) hstep
  | setupAll result =>
    exact hloop (fun mod state ↦ setupModule_moduleList state mod result) hstep
  | desetupAll result =>
    exact hloop (fun mod state ↦ desetupModule_moduleList state mod result) hstep

theorem linked_exec {fuel : ℕ} {state final : State Mod} {events : List (Event Mod)}
    {nodes : List Mod} (h : Linked state.moduleList nodes)
    (hexec : exec (step fuel) state events = some final) :
    ∃ after, Linked final.moduleList after := by
  induction events generalizing state nodes with
  | nil =>
    obtain rfl := Option.some.inj hexec
    exact ⟨nodes, h⟩
  | cons event events ih =>
    obtain ⟨next, hstep, hrest⟩ := Option.bind_eq_some_iff.mp hexec
    obtain ⟨after, hafter⟩ := linked_step h hstep
    exact ih hafter hrest

theorem Met.iff_mem {state : State Mod} {nodes : List Mod} (h : Order state.moduleList nodes)
    (mod : Mod) : Met state mod ↔ mod ∈ nodes :=
  ⟨fun ⟨_, hother, hmem⟩ ↦ h.unique hother ▸ hmem, fun hmem ↦ ⟨nodes, h, hmem⟩⟩

/-- The list stays as it is exactly when nothing is added. -/
theorem not_added_self (list : SysSlist Mod) (mod : Mod) : ¬ Added list list mod := by
  intro ⟨nodes, hbefore, _, hafter⟩
  have hlength := congrArg List.length (hbefore.unique hafter)
  simp at hlength

theorem not_takenOut_self (list : SysSlist Mod) (mod : Mod) : ¬ TakenOut list list mod := by
  intro ⟨nodes, hbefore, hmem, hafter⟩
  have hlength := congrArg List.length (hbefore.unique hafter)
  rw [List.length_erase_of_mem hmem] at hlength
  have hpos := List.length_pos_of_mem hmem
  omega

/-- An append never returns zero, so it is truthful only where it does nothing. -/
theorem appendReports_iff (state : State Mod) (mod : Mod) :
    AppendReports state mod ↔
      (state.modules mod).state = .live ∨
        (state.moduleList.tail = some mod ∧ SelfLinked state mod) := by
  have hresult : (bspModuleAppend state mod).2 = -EBUSY := by
    unfold bspModuleAppend
    split_ifs <;> rfl
  have hnegative : -EBUSY < 0 := by decide
  have hunchanged : AppendReports state mod ↔
      (bspModuleAppend state mod).1.moduleList = state.moduleList := by
    rw [AppendReports, Truthful, hresult]
    constructor
    · exact fun htruthful ↦ (htruthful.2 hnegative.ne).2
    · intro hsame
      rw [hsame]
      exact ⟨iff_of_false hnegative.ne (not_added_self _ mod), fun _ ↦ ⟨hnegative, rfl⟩⟩
  rw [hunchanged]
  by_cases hlive : (state.modules mod).state = .live
  · simp [bspModuleAppend, hlive]
  · rw [ModuleList.bspModuleAppend_of_not_live hlive, SelfLinked, ← sysSlistAppend_eq_self_iff]
    simp [hlive]

/-- A removal returns zero unless the module is live: truthfully only where it can be taken out. -/
theorem removeReports_iff {state : State Mod} {nodes : List Mod}
    (h : Linked state.moduleList nodes) (mod : Mod) :
    RemoveReports state mod ↔
      (state.modules mod).state = .live ∨ (Met state mod ∧ ¬ SelfLinked state mod) := by
  have hnegative : -EBUSY < 0 := by decide
  by_cases hlive : (state.modules mod).state = .live
  · refine iff_of_true ⟨0, (state, -EBUSY), by simp [bspModuleRemove, hlive], ?_, ?_⟩ (.inl hlive)
    · exact iff_of_false hnegative.ne (not_takenOut_self _ mod)
    · exact fun _ ↦ ⟨hnegative, rfl⟩
  · have hsearch (fuel : ℕ) : bspModuleRemove fuel state mod =
        (sysSlistFindAndRemove fuel state.moduleList mod).map fun found ↦
          ({ state with moduleList := found.1 }, 0) := by
      simp [bspModuleRemove, hlive]
    rw [Met.iff_mem h.order]
    constructor
    · rintro ⟨fuel, result, hresult, htruthful⟩
      rw [hsearch, Option.map_eq_some_iff] at hresult
      obtain ⟨found, hfound, rfl⟩ := hresult
      obtain ⟨order, hbefore, hmem, hafter⟩ := htruthful.1.mp rfl
      obtain rfl := h.order.unique hbefore
      refine .inr ⟨hmem, fun hself ↦ ?_⟩
      obtain ⟨before, after, rfl⟩ := List.append_of_mem hmem
      have hremoved := h.remove
      rw [SelfLinked] at hself
      rw [if_pos hself] at hremoved
      have hlonger := h.findAndRemove (Nat.lt_succ_of_le (Nat.le_max_right fuel before.length))
      have hsame := findAndRemoveFrom_of_le
        (Nat.le_succ_of_le (Nat.le_max_left fuel before.length)) hfound
      obtain rfl := Option.some.inj (hlonger.symm.trans hsame)
      have hlength := congrArg List.length (hremoved.order.unique hafter)
      rw [List.length_erase_of_mem hmem] at hlength
      have hpos := List.length_pos_of_mem hmem
      omega
    · rintro (hcontra | ⟨hmem, hself⟩)
      · exact absurd hcontra hlive
      · obtain ⟨before, after, rfl, hbefore⟩ := List.eq_append_cons_of_mem hmem
        have hremoved := h.remove
        rw [SelfLinked] at hself
        rw [if_neg hself] at hremoved
        have hfound := h.findAndRemove (Nat.lt_succ_self before.length)
        refine ⟨before.length + 1, _, by rw [hsearch, hfound]; rfl, ?_⟩
        refine ⟨iff_of_true rfl ⟨_, h.order, hmem, ?_⟩, fun hne ↦ absurd rfl hne⟩
        rw [List.erase_append_right _ hbefore, List.erase_cons_head]
        exact hremoved.order

/-- **Reports.** On every list a run of the interface reaches, an append reports what it did
exactly when the module is live, or is the tail and already linked to itself; a removal exactly
when the module is live, or is in the list and not linked to itself. -/
theorem reports_iff (start : State Mod) (fuel : ℕ) (events : List (Event Mod)) (state : State Mod)
    (hreached : exec (step fuel) (bspModuleInit start) events = some state) (mod : Mod) :
    (AppendReports state mod ↔
        (state.modules mod).state = .live ∨
          (state.moduleList.tail = some mod ∧ SelfLinked state mod)) ∧
      (RemoveReports state mod ↔
        (state.modules mod).state = .live ∨ (Met state mod ∧ ¬ SelfLinked state mod)) := by
  obtain ⟨nodes, hlinked⟩ := linked_exec (linked_init start.moduleList) hreached
  exact ⟨appendReports_iff state mod, removeReports_iff hlinked mod⟩

theorem reports_iff_one_appended :
    (AppendReports (bspModuleAppend (bspModuleInit ModuleList.exampleState) 0).1 1 ↔ False) ∧
      (RemoveReports (bspModuleAppend (bspModuleInit ModuleList.exampleState) 0).1 0 ↔ True) := by
  have hzero := reports_iff ModuleList.exampleState 1 [.append 0] _ rfl 0
  have hone := reports_iff ModuleList.exampleState 1 [.append 0] _ rfl 1
  refine ⟨hone.1.trans (iff_of_false ?_ id), hzero.2.trans (iff_of_true (.inr ⟨?_, ?_⟩) trivial)⟩
  · intro hcases
    rcases hcases with hlive | htail
    · exact absurd hlive (by decide)
    · exact absurd htail.1 (by decide)
  · exact ⟨[0], by simp [Order, linkOn, bspModuleAppend, bspModuleInit, sysSlistAppend, nextSet,
      sysSlistInit, ModuleList.exampleState], List.mem_singleton_self 0⟩
  · intro hself
    exact absurd (show none = some (0 : Fin 3) from hself) (by decide)

/-- A module that is not live is added to the empty list and reported busy, and the removal of
one that is not listed is reported done. -/
theorem first_calls_not_reported :
    ¬ AppendReports (bspModuleInit ModuleList.exampleState) 0 ∧
      ¬ RemoveReports (bspModuleInit ModuleList.exampleState) 0 := by
  have hlinked : Linked (bspModuleInit ModuleList.exampleState).moduleList [] := linked_init _
  have hcoming : ((bspModuleInit ModuleList.exampleState).modules 0).state ≠ .live := by decide
  rw [appendReports_iff, removeReports_iff hlinked, Met.iff_mem hlinked.order]
  constructor
  · exact fun hcases ↦ hcases.elim hcoming fun htail ↦ absurd htail.1 (by decide)
  · exact fun hcases ↦ hcases.elim hcoming fun hmet ↦ absurd hmet.1 List.not_mem_nil

end Vodka.Bsp.ModuleReports

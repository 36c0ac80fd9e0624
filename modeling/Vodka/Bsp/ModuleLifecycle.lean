import Mathlib.Tactic
import Vodka.Bsp.ModuleList

/-!
# Setup and desetup discipline of the modules

The state field of a module is meant to say whether its hardware is set up. The
record of callbacks says it independently. The two agree, setup and desetup
alternate, and a module that is set up stays in the list, exactly when
`bsp_module_prepare_all` never meets a live module and
`bsp_module_desetup_all` never meets a live module without desetup callback or
a prepared one with it.
-/

namespace Vodka.Bsp.ModuleLifecycle

open Foundation.Trace Zephyr.Slist Modules ModuleList

variable {Mod : Type*} [DecidableEq Mod]

/-- Setup has succeeded since the last desetup, in a record with the newest callback first. -/
def isSetUp (mod : Mod) : List (Callback Mod) → Bool
  | [] => false
  | .prepare _ _ _ :: log => isSetUp mod log
  | .setup other _ result :: log => decide (other = mod ∧ result = 0) || isSetUp mod log
  | .desetup other _ _ :: log => decide (other ≠ mod) && isSetUp mod log

/-- No setup of a module that is set up and no desetup of one that is not. -/
def Disciplined : List (Callback Mod) → Prop
  | [] => True
  | .prepare _ _ _ :: log => Disciplined log
  | .setup mod _ _ :: log => isSetUp mod log = false ∧ Disciplined log
  | .desetup mod _ _ :: log => isSetUp mod log = true ∧ Disciplined log

instance decidableDisciplined : DecidablePred (@Disciplined Mod _)
  | [] => inferInstanceAs (Decidable True)
  | .prepare _ _ _ :: log => decidableDisciplined log
  | .setup _ _ _ :: log => @instDecidableAnd _ _ inferInstance (decidableDisciplined log)
  | .desetup _ _ _ :: log => @instDecidableAnd _ _ inferInstance (decidableDisciplined log)

/-- The module is listed, and still is after any attempt to remove it. -/
def StaysListed (state : State Mod) (mod : Mod) : Prop :=
  Listed state mod ∧
    ∀ fuel next, step fuel state (.remove mod) = some next → Listed next mod

/-- After the call the record is disciplined and every module that is set up stays listed. -/
def LifecycleOk (call : Transition (State Mod) (Event Mod)) : Prop :=
  Disciplined call.post.log ∧
    ∀ mod, isSetUp mod call.post.log = true → StaysListed call.post mod

/-- Only modules that are not listed are appended. -/
def AppendsUnlisted (call : Transition (State Mod) (Event Mod)) : Prop :=
  ∀ mod, call.event = .append mod → ¬ Listed call.pre mod

/-- The calls that keep the state fields truthful. -/
def StateTruthful (state : State Mod) : Event Mod → Prop
  | .prepareAll _ => ∀ mod, Listed state mod → (state.modules mod).state ≠ .live
  | .desetupAll _ => ∀ mod, Listed state mod →
      ((state.modules mod).state = .live → (state.modules mod).desetup = true) ∧
      ((state.modules mod).state = .coming → (state.modules mod).desetup = false)
  | _ => True

/-- The state field says of every module whether it is set up, and only listed ones are. -/
structure Lifecycle (state : State Mod) (nodes : List Mod) : Prop where
  represents : Represents state.moduleList nodes
  disciplined : Disciplined state.log
  setUp_iff : ∀ mod, isSetUp mod state.log = true ↔
    mod ∈ nodes ∧ (state.modules mod).state = .live

/-- A listed module resists removal exactly when it is live. -/
theorem staysListed_iff_live {state : State Mod} {nodes : List Mod} {mod : Mod}
    (h : Represents state.moduleList nodes) (hmem : mod ∈ nodes) :
    StaysListed state mod ↔ (state.modules mod).state = .live := by
  constructor
  · rintro ⟨-, hstays⟩
    by_contra hlive
    obtain ⟨list, hfound, hlist⟩ := h.findAndRemove le_rfl mod
    have hgone : Listed { state with moduleList := list } mod :=
      hstays nodes.length _ (by simp [step, bspModuleRemove, hlive, hfound])
    rw [Listed.iff_mem hlist] at hgone
    exact h.nodup.not_mem_erase hgone
  · intro hlive
    refine ⟨⟨nodes, h, hmem⟩, fun fuel next hnext ↦ ?_⟩
    simp only [step, bspModuleRemove, hlive, ne_eq, not_true_eq_false, if_false, Option.map_some,
      Option.some.injEq] at hnext
    exact hnext ▸ ⟨nodes, h, hmem⟩

theorem Lifecycle.ok {state next : State Mod} {event : Event Mod} {nodes : List Mod}
    (h : Lifecycle next nodes) : LifecycleOk ⟨state, event, next⟩ := by
  refine ⟨h.disciplined, fun mod hmod ↦ ?_⟩
  obtain ⟨hmem, hlive⟩ := (h.setUp_iff mod).mp hmod
  exact (staysListed_iff_live h.represents hmem).mpr hlive

/-- A change of one listed module keeps the lifecycle when its own state is truthful. -/
theorem Lifecycle.change {state next : State Mod} {nodes : List Mod} {mod : Mod}
    (h : Lifecycle state nodes) (hmem : mod ∈ nodes)
    (hlist : next.moduleList = state.moduleList) (hlog : Disciplined next.log)
    (hothers : ∀ other, other ≠ mod → next.modules other = state.modules other ∧
      isSetUp other next.log = isSetUp other state.log)
    (hmod : isSetUp mod next.log = true ↔ (next.modules mod).state = .live) :
    Lifecycle next nodes := by
  refine ⟨hlist ▸ h.represents, hlog, fun other ↦ ?_⟩
  rcases eq_or_ne other mod with rfl | hne
  · simp [hmod, hmem]
  · rw [(hothers other hne).1, (hothers other hne).2]
    exact h.setUp_iff other

/-- A listed module that is not live is not set up. -/
theorem Lifecycle.not_setUp {state : State Mod} {nodes : List Mod} {mod : Mod}
    (h : Lifecycle state nodes) (hlive : (state.modules mod).state ≠ .live) :
    isSetUp mod state.log = false :=
  Bool.eq_false_iff.mpr fun hset ↦ hlive ((h.setUp_iff mod).mp hset).2

theorem Lifecycle.prepareModule {state : State Mod} {nodes : List Mod} {mod : Mod}
    (h : Lifecycle state nodes) (hmem : mod ∈ nodes)
    (hlive : (state.modules mod).state ≠ .live) (result : Mod → BitVec 32) :
    Lifecycle (prepareModule result mod state) nodes := by
  have hunset := h.not_setUp hlive
  have hdisciplined := h.disciplined
  apply h.change hmem (prepareModule_moduleList state mod result)
  · unfold Modules.prepareModule
    dsimp only
    split_ifs <;> simpa [Disciplined] using hdisciplined
  · intro other hne
    unfold Modules.prepareModule
    dsimp only
    split_ifs <;> simp [isSetUp, hne]
  · unfold Modules.prepareModule
    dsimp only
    split_ifs <;> simp [isSetUp, hunset]

theorem Lifecycle.setupModule {state : State Mod} {nodes : List Mod} {mod : Mod}
    (h : Lifecycle state nodes) (hmem : mod ∈ nodes) (result : Mod → ℤ) :
    Lifecycle (setupModule result mod state) nodes := by
  by_cases hcoming : (state.modules mod).state = .coming
  · have hunset : isSetUp mod state.log = false := by
      apply h.not_setUp
      simp [hcoming]
    have hdisciplined := h.disciplined
    apply h.change hmem (setupModule_moduleList state mod result)
    · unfold Modules.setupModule
      dsimp only
      split_ifs <;> simp_all [Disciplined]
    · intro other hne
      unfold Modules.setupModule
      dsimp only
      split_ifs <;> simp_all [isSetUp, Ne.symm hne]
    · unfold Modules.setupModule
      dsimp only
      split_ifs <;> simp_all [isSetUp]
  · simpa [Modules.setupModule, hcoming] using h

theorem Lifecycle.desetupModule {state : State Mod} {nodes : List Mod} {mod : Mod}
    (h : Lifecycle state nodes) (hmem : mod ∈ nodes)
    (hdesetup : (state.modules mod).state = .live → (state.modules mod).desetup = true)
    (hkept : (state.modules mod).state = .coming → (state.modules mod).desetup = false)
    (result : Mod → ℤ) : Lifecycle (desetupModule result mod state) nodes := by
  have hsetUp := h.setUp_iff mod
  have hdisciplined := h.disciplined
  cases hstate : (state.modules mod).state with
  | going => simpa [Modules.desetupModule, hstate] using h
  | coming =>
    apply h.change hmem (desetupModule_moduleList state mod result)
    · simpa [Modules.desetupModule, hstate, hkept hstate] using hdisciplined
    · intro other hne
      simp [Modules.desetupModule, hstate, hkept hstate, hne]
    · simp [Modules.desetupModule, hstate, hkept hstate, hsetUp]
  | live =>
    apply h.change hmem (desetupModule_moduleList state mod result)
    · simpa [Modules.desetupModule, hstate, hdesetup hstate, Disciplined, hsetUp, hmem]
        using hdisciplined
    · intro other hne
      simp [Modules.desetupModule, hstate, hdesetup hstate, isSetUp, hne, Ne.symm hne]
    · simp [Modules.desetupModule, hstate, hdesetup hstate, isSetUp]

omit [DecidableEq Mod] in
/-- A module in the rest of a loop has not been touched by the nodes passed before it. -/
theorem next_not_passed {nodes passed : List Mod} {mod : Mod} (hnodup : nodes.Nodup)
    (hfront : passed ++ [mod] <+: nodes) : mod ∈ nodes ∧ mod ∉ passed := by
  have hpassed := hnodup.sublist hfront.sublist
  rw [List.nodup_middle, List.append_nil, List.nodup_cons] at hpassed
  exact ⟨hfront.subset (by simp), hpassed.1⟩

/-- A loop over the list keeps the lifecycle when its body does so on every module that is
still as the loop found it. -/
theorem Lifecycle.forEach {body : Mod → State Mod → State Mod} {state : State Mod}
    {nodes : List Mod} (h : Lifecycle state nodes) {fuel : ℕ} (hfuel : nodes.length ≤ fuel)
    (hlist : ∀ mod state, (body mod state).moduleList = state.moduleList)
    (hothers : ∀ mod other state, other ≠ mod →
      (body mod state).modules other = state.modules other)
    (hbody : ∀ mod current, mod ∈ nodes → current.modules mod = state.modules mod →
      Lifecycle current nodes → Lifecycle (body mod current) nodes) :
    ∃ next, forEach fuel State.moduleList body state = some next ∧ Lifecycle next nodes := by
  obtain ⟨next, hnext, hlifecycle, -⟩ := h.represents.forEach_rule
    (fun passed current ↦ Lifecycle current nodes ∧
      ∀ mod, mod ∉ passed → current.modules mod = state.modules mod)
    hlist hfuel ⟨h, fun _ _ ↦ rfl⟩ (by
      rintro passed mod current hfront ⟨hcurrent, hkept⟩
      obtain ⟨hmem, hfresh⟩ := next_not_passed h.represents.nodup hfront
      refine ⟨hbody mod current hmem (hkept mod hfresh) hcurrent, fun other hother ↦ ?_⟩
      rw [List.mem_append, List.mem_singleton, not_or] at hother
      rw [hothers mod other current hother.2, hkept other hother.1])
  exact ⟨next, hnext, hlifecycle⟩

theorem prepareModule_modules_of_ne {mod other : Mod} (state : State Mod) (hne : other ≠ mod)
    (result : Mod → BitVec 32) :
    (prepareModule result mod state).modules other = state.modules other := by
  unfold prepareModule
  dsimp only
  split_ifs <;> simp [hne]

theorem setupModule_modules_of_ne {mod other : Mod} (state : State Mod) (hne : other ≠ mod)
    (result : Mod → ℤ) :
    (setupModule result mod state).modules other = state.modules other := by
  unfold setupModule
  dsimp only
  split_ifs <;> simp [hne]

theorem desetupModule_modules_of_ne {mod other : Mod} (state : State Mod) (hne : other ≠ mod)
    (result : Mod → ℤ) :
    (desetupModule result mod state).modules other = state.modules other := by
  unfold desetupModule
  dsimp only
  split_ifs <;> simp [hne]

/-- A truthful call on a lifecycle returns and keeps it. -/
theorem Lifecycle.step (fuel : ℕ) {state : State Mod} {event : Event Mod} {nodes : List Mod}
    (h : Lifecycle state nodes) (hfuel : nodes.length ≤ fuel)
    (hunlisted : ∀ mod, event = .append mod → ¬ Listed state mod)
    (htruthful : StateTruthful state event) :
    ∃ next after, step fuel state event = some next ∧ Lifecycle next after ∧
      after.length ≤ nodes.length + 1 := by
  have hlisted (mod : Mod) (hmem : mod ∈ nodes) : Listed state mod := ⟨nodes, h.represents, hmem⟩
  cases event with
  | append mod =>
    have hmem : mod ∉ nodes := fun hmem ↦ hunlisted mod rfl (hlisted mod hmem)
    by_cases hlive : (state.modules mod).state = .live
    · exact ⟨state, nodes, by simp [Modules.step, bspModuleAppend, hlive], h, Nat.le_succ _⟩
    · refine ⟨_, nodes ++ [mod], congrArg some (bspModuleAppend_of_not_live hlive),
        ⟨h.represents.append hmem, h.disciplined, fun other ↦ ?_⟩, by simp⟩
      rw [h.setUp_iff other, List.mem_append, List.mem_singleton]
      constructor
      · exact fun hother ↦ ⟨.inl hother.1, hother.2⟩
      · rintro ⟨hother | rfl, hstate⟩
        · exact ⟨hother, hstate⟩
        · exact absurd hstate hlive
  | remove mod =>
    by_cases hlive : (state.modules mod).state = .live
    · exact ⟨state, nodes, by simp [Modules.step, bspModuleRemove, hlive], h, Nat.le_succ _⟩
    · obtain ⟨list, hfound, hlist⟩ := h.represents.findAndRemove hfuel mod
      refine ⟨{ state with moduleList := list }, nodes.erase mod,
        by simp [Modules.step, bspModuleRemove, hlive, hfound],
        ⟨hlist, h.disciplined, fun other ↦ ?_⟩, (List.length_erase_le).trans (Nat.le_succ _)⟩
      rw [h.setUp_iff other, h.represents.nodup.mem_erase_iff]
      constructor
      · exact fun hother ↦ ⟨⟨fun heq ↦ hlive (heq ▸ hother.2), hother.1⟩, hother.2⟩
      · exact fun hother ↦ ⟨hother.1.2, hother.2⟩
  | prepareAll result =>
    obtain ⟨next, hnext, hlifecycle⟩ := h.forEach hfuel
      (fun mod state ↦ prepareModule_moduleList state mod result)
      (fun mod other state hne ↦ prepareModule_modules_of_ne state hne result)
      (fun mod current hmem hsame hcurrent ↦ hcurrent.prepareModule hmem
        (by rw [hsame]; exact htruthful mod (hlisted mod hmem)) result)
    exact ⟨next, nodes, hnext, hlifecycle, Nat.le_succ _⟩
  | setupAll result =>
    obtain ⟨next, hnext, hlifecycle⟩ := h.forEach hfuel
      (fun mod state ↦ setupModule_moduleList state mod result)
      (fun mod other state hne ↦ setupModule_modules_of_ne state hne result)
      (fun mod current hmem _ hcurrent ↦ hcurrent.setupModule hmem result)
    exact ⟨next, nodes, hnext, hlifecycle, Nat.le_succ _⟩
  | desetupAll result =>
    obtain ⟨next, hnext, hlifecycle⟩ := h.forEach hfuel
      (fun mod state ↦ desetupModule_moduleList state mod result)
      (fun mod other state hne ↦ desetupModule_modules_of_ne state hne result)
      (fun mod current hmem hsame hcurrent ↦ hcurrent.desetupModule hmem
        (by rw [hsame]; exact (htruthful mod (hlisted mod hmem)).1)
        (by rw [hsame]; exact (htruthful mod (hlisted mod hmem)).2) result)
    exact ⟨next, nodes, hnext, hlifecycle, Nat.le_succ _⟩

/-- A call that turns a set-up module into one that is not live without a desetup leaves it
removable. -/
theorem not_ok_of_lost {state next : State Mod} {event : Event Mod} {nodes : List Mod} {mod : Mod}
    (hlist : Represents next.moduleList nodes) (hmem : mod ∈ nodes)
    (hsetUp : isSetUp mod next.log = true) (hlive : (next.modules mod).state ≠ .live) :
    ¬ LifecycleOk ⟨state, event, next⟩ :=
  fun hok ↦ hlive ((staysListed_iff_live hlist hmem).mp (hok.2 mod hsetUp))

/-- Preparing a live module forgets that it is set up. -/
theorem not_ok_of_prepare_live (fuel : ℕ) {state next : State Mod} {nodes : List Mod} {mod : Mod}
    {result : Mod → BitVec 32} (h : Lifecycle state nodes) (hfuel : nodes.length ≤ fuel)
    (hnext : Modules.step fuel state (.prepareAll result) = some next) (hmem : mod ∈ nodes)
    (hlive : (state.modules mod).state = .live) :
    ¬ LifecycleOk ⟨state, .prepareAll result, next⟩ := by
  obtain ⟨other, hother, hlist, hsetUp, hstate⟩ := h.represents.forEach_rule
    (fun passed current ↦ current.moduleList = state.moduleList ∧
      isSetUp mod current.log = true ∧ (mod ∈ passed → (current.modules mod).state ≠ .live))
    (fun mod state ↦ prepareModule_moduleList state mod result) hfuel
    ⟨rfl, (h.setUp_iff mod).mpr ⟨hmem, hlive⟩, by simp⟩ (by
      rintro passed node current - ⟨hlist, hsetUp, hstate⟩
      refine ⟨(prepareModule_moduleList current node result).trans hlist, ?_, ?_⟩
      · unfold Modules.prepareModule
        dsimp only
        split_ifs <;> simpa [isSetUp] using hsetUp
      · rcases eq_or_ne mod node with rfl | hne
        · unfold Modules.prepareModule
          dsimp only
          split_ifs <;> simp
        · rw [prepareModule_modules_of_ne current hne result]
          simpa [hne] using hstate)
  obtain rfl := Option.some.inj (hnext.symm.trans hother)
  exact not_ok_of_lost (hlist ▸ h.represents) hmem hsetUp (hstate hmem)

/-- The record only grows, so a breach of discipline stays. -/
theorem disciplined_of_desetupModule {state : State Mod} {mod : Mod} {result : Mod → ℤ}
    (h : Disciplined (desetupModule result mod state).log) : Disciplined state.log := by
  unfold desetupModule at h
  dsimp only at h
  split_ifs at h
  · exact h
  · exact h.2
  · exact h

/-- Desetup of a live module without callback forgets that it is set up. -/
theorem not_ok_of_desetup_live (fuel : ℕ) {state next : State Mod} {nodes : List Mod} {mod : Mod}
    {result : Mod → ℤ} (h : Lifecycle state nodes) (hfuel : nodes.length ≤ fuel)
    (hnext : Modules.step fuel state (.desetupAll result) = some next) (hmem : mod ∈ nodes)
    (hlive : (state.modules mod).state = .live) (hcallback : (state.modules mod).desetup = false) :
    ¬ LifecycleOk ⟨state, .desetupAll result, next⟩ := by
  obtain ⟨other, hother, hlist, hsetUp, -, hstate⟩ := h.represents.forEach_rule
    (fun passed current ↦ current.moduleList = state.moduleList ∧
      isSetUp mod current.log = true ∧
      (mod ∉ passed → current.modules mod = state.modules mod) ∧
      (mod ∈ passed → (current.modules mod).state ≠ .live))
    (fun mod state ↦ desetupModule_moduleList state mod result) hfuel
    ⟨rfl, (h.setUp_iff mod).mpr ⟨hmem, hlive⟩, fun _ ↦ rfl, by simp⟩ (by
      rintro passed node current hfront ⟨hlist, hsetUp, hkept, hstate⟩
      refine ⟨(desetupModule_moduleList current node result).trans hlist, ?_⟩
      rcases eq_or_ne mod node with rfl | hne
      · have hsame := hkept (next_not_passed h.represents.nodup hfront).2
        simp [Modules.desetupModule, hsame, hlive, hcallback, hsetUp]
      · rw [desetupModule_modules_of_ne current hne result]
        refine ⟨?_, by simpa [hne] using hkept, by simpa [hne] using hstate⟩
        unfold Modules.desetupModule
        dsimp only
        split_ifs <;> simpa [isSetUp, hne.symm] using hsetUp)
  obtain rfl := Option.some.inj (hnext.symm.trans hother)
  exact not_ok_of_lost (hlist ▸ h.represents) hmem hsetUp (hstate hmem)

/-- A prepared module with callback is desetup without having been set up. -/
theorem not_ok_of_desetup_coming (fuel : ℕ) {state next : State Mod} {nodes : List Mod} {mod : Mod}
    {result : Mod → ℤ} (h : Lifecycle state nodes) (hfuel : nodes.length ≤ fuel)
    (hnext : Modules.step fuel state (.desetupAll result) = some next) (hmem : mod ∈ nodes)
    (hcoming : (state.modules mod).state = .coming)
    (hcallback : (state.modules mod).desetup = true) :
    ¬ LifecycleOk ⟨state, .desetupAll result, next⟩ := by
  have hunset : isSetUp mod state.log = false := by
    apply h.not_setUp
    simp [hcoming]
  obtain ⟨other, hother, -, hbreach⟩ := h.represents.forEach_rule
    (fun passed current ↦
      (mod ∉ passed → current.modules mod = state.modules mod ∧
        isSetUp mod current.log = false) ∧
      (mod ∈ passed → ¬ Disciplined current.log))
    (fun mod state ↦ desetupModule_moduleList state mod result) hfuel
    ⟨fun _ ↦ ⟨rfl, hunset⟩, by simp⟩ (by
      rintro passed node current hfront ⟨hkept, hbreach⟩
      rcases eq_or_ne mod node with rfl | hne
      · obtain ⟨hsame, hunset⟩ := hkept (next_not_passed h.represents.nodup hfront).2
        refine ⟨by simp, fun _ ↦ ?_⟩
        simp [Modules.desetupModule, hsame, hcoming, hcallback, Disciplined, hunset]
      · have hmember : mod ∈ passed ++ [node] ↔ mod ∈ passed := by simp [hne]
        rw [hmember, desetupModule_modules_of_ne current hne result]
        refine ⟨fun hmod ↦ ⟨(hkept hmod).1, ?_⟩,
          fun hmod hdisciplined ↦ hbreach hmod (disciplined_of_desetupModule hdisciplined)⟩
        have hunset := (hkept hmod).2
        unfold Modules.desetupModule
        dsimp only
        split_ifs <;> simp [isSetUp, hunset])
  obtain rfl := Option.some.inj (hnext.symm.trans hother)
  exact fun hok ↦ hbreach hmem hok.1

/-- The lifecycle holds and the loops have fuel for all calls still to come. -/
def Inv (fuel : ℕ) (state : State Mod) (events : List (Event Mod)) : Prop :=
  ∃ nodes, Lifecycle state nodes ∧ nodes.length + events.length ≤ fuel

theorem Inv.preserved {fuel : ℕ} {state next : State Mod} {event : Event Mod}
    {events : List (Event Mod)} (h : Inv fuel state (event :: events))
    (hstep : Modules.step fuel state event = some next)
    (hunlisted : AppendsUnlisted ⟨state, event, next⟩) (htruthful : StateTruthful state event) :
    Inv fuel next events := by
  obtain ⟨nodes, hlifecycle, hfuel⟩ := h
  rw [List.length_cons] at hfuel
  obtain ⟨other, after, hother, hafter, hlength⟩ :=
    hlifecycle.step fuel (by omega) hunlisted htruthful
  obtain rfl := Option.some.inj (hstep.symm.trans hother)
  exact ⟨after, hafter, by omega⟩

theorem ok_iff_truthful {fuel : ℕ} {state next : State Mod} {event : Event Mod}
    {events : List (Event Mod)} (h : Inv fuel state (event :: events))
    (hstep : Modules.step fuel state event = some next)
    (hunlisted : AppendsUnlisted ⟨state, event, next⟩) :
    LifecycleOk ⟨state, event, next⟩ ↔ StateTruthful state event := by
  obtain ⟨nodes, hlifecycle, hfuel⟩ := h
  rw [List.length_cons] at hfuel
  have hnodes : nodes.length ≤ fuel := by omega
  have hmember (mod : Mod) (hmod : Listed state mod) : mod ∈ nodes :=
    (Listed.iff_mem hlifecycle.represents mod).mp hmod
  constructor
  · intro hok
    cases event with
    | prepareAll result =>
      intro mod hmod hlive
      exact not_ok_of_prepare_live fuel hlifecycle hnodes hstep (hmember mod hmod) hlive hok
    | desetupAll result =>
      intro mod hmod
      constructor
      · intro hlive
        by_contra hcallback
        rw [Bool.not_eq_true] at hcallback
        exact not_ok_of_desetup_live fuel hlifecycle hnodes hstep (hmember mod hmod) hlive
          hcallback hok
      · intro hcoming
        by_contra hcallback
        rw [Bool.not_eq_false] at hcallback
        exact not_ok_of_desetup_coming fuel hlifecycle hnodes hstep (hmember mod hmod) hcoming
          hcallback hok
    | _ => trivial
  · intro htruthful
    obtain ⟨other, after, hother, hafter, -⟩ :=
      hlifecycle.step fuel hnodes hunlisted htruthful
    obtain rfl := Option.some.inj (hstep.symm.trans hother)
    exact hafter.ok

/-- **Module lifecycle.** In a run that appends only unlisted modules, every call leaves the
callbacks disciplined and every module that is set up in the list, exactly when no call
prepares a live module, takes a live module down without its callback, or calls the desetup
callback of a module that was only prepared. -/
theorem lifecycle_iff (state : State Mod) (events : List (Event Mod))
    (hunlisted : ∀ call ∈ moduleTrace state events, AppendsUnlisted call) :
    (∀ call ∈ moduleTrace state events, LifecycleOk call) ↔
      ∀ call ∈ moduleTrace state events, StateTruthful call.pre call.event := by
  have hstart : Inv events.length (bspModuleInit state) events := by
    refine ⟨[], ⟨represents_init _, trivial, fun mod ↦ ?_⟩, by simp⟩
    simp [bspModuleInit, isSetUp]
  apply forall_trace_iff (Inv events.length) AppendsUnlisted
    (fun _ _ _ _ hinv hstep hunlisted htruthful ↦ hinv.preserved hstep hunlisted htruthful)
    (fun _ _ _ _ hinv hstep hunlisted ↦ ok_iff_truthful hinv hstep hunlisted) hstart hunlisted

/-- A module is set up, taken down again and removed. -/
def properRun : List (Event (Fin 3)) :=
  [.append 0, .prepareAll fun _ ↦ 1#32, .setupAll fun _ ↦ 0, .desetupAll fun _ ↦ 0, .remove 0]

/-- A module is prepared and set up twice in a row. -/
def repeatedRun : List (Event (Fin 3)) :=
  [.append 0, .prepareAll fun _ ↦ 1#32, .setupAll fun _ ↦ 0, .prepareAll fun _ ↦ 1#32,
    .setupAll fun _ ↦ 0]

/-- A run that appends nothing after its first call appends only unlisted modules. -/
theorem appendsUnlisted_of_first (state : State Mod) (mod : Mod) {events : List (Event Mod)}
    (h : ∀ other, .append other ∉ events) :
    ∀ call ∈ moduleTrace state (.append mod :: events), AppendsUnlisted call := by
  have hstart : ∀ other, ¬ Listed (bspModuleInit state) other := by
    intro other
    rw [Listed.iff_mem (represents_init _)]
    exact List.not_mem_nil
  have hfirst : Modules.step (events.length + 1) (bspModuleInit state) (.append mod) =
      some (bspModuleAppend (bspModuleInit state) mod).1 := rfl
  unfold moduleTrace
  rw [List.length_cons, trace_cons_of_some hfirst, List.forall_mem_cons]
  refine ⟨fun other _ ↦ hstart other, fun call hcall other hevent ↦ ?_⟩
  have hlater := event_mem_of_mem_trace hcall
  exact absurd (hevent ▸ hlater) (h other)

/-- The discipline of a proper run. -/
theorem lifecycle_of_properRun :
    (∀ call ∈ moduleTrace exampleState properRun, LifecycleOk call) ↔
      ∀ call ∈ moduleTrace exampleState properRun, StateTruthful call.pre call.event :=
  lifecycle_iff exampleState properRun (appendsUnlisted_of_first exampleState 0 (by simp))

/-- Preparing all modules once more sets up one that is set up already. -/
theorem repeatedRun_sets_up_twice :
    (∀ call ∈ moduleTrace exampleState repeatedRun, AppendsUnlisted call) ∧
      ¬ ∀ call ∈ moduleTrace exampleState repeatedRun, LifecycleOk call := by
  refine ⟨appendsUnlisted_of_first exampleState 0 (by simp), fun hok ↦ ?_⟩
  have hcomputed : (moduleTrace exampleState repeatedRun).all
      (fun call ↦ decide (Disciplined call.post.log)) = false := by decide
  rw [List.all_eq_false] at hcomputed
  obtain ⟨call, hcall, hbreach⟩ := hcomputed
  exact hbreach (decide_eq_true (hok call hcall).1)

end Vodka.Bsp.ModuleLifecycle

import Mathlib.Tactic

/-!
# Traces of partial deterministic machines

A machine is a partial step function on states and events. Its trace records
every executed step with the states around it and stops at the first event
whose step does not return. The rules below carry an invariant along a trace,
relate a property of all steps to a condition on the states before them, and
carry a fact from one recorded step to a later one.
-/

namespace Vodka.Foundation.Trace

variable {σ ε : Type*}

/-- One executed step. -/
@[ext]
structure Transition (σ ε : Type*) where
  pre : σ
  event : ε
  post : σ

/-- All executed steps, oldest first. -/
def trace (step : σ → ε → Option σ) : σ → List ε → List (Transition σ ε)
  | _, [] => []
  | state, event :: events =>
    match step state event with
    | none => []
    | some next => ⟨state, event, next⟩ :: trace step next events

/-- The state after all events, when every step returns. -/
def exec (step : σ → ε → Option σ) : σ → List ε → Option σ
  | state, [] => some state
  | state, event :: events => (step state event).bind fun next ↦ exec step next events

variable {step : σ → ε → Option σ} {state next : σ} {event : ε} {events : List ε}

@[simp]
theorem trace_nil : trace step state [] = [] := rfl

theorem trace_cons_of_some (h : step state event = some next) :
    trace step state (event :: events) = ⟨state, event, next⟩ :: trace step next events := by
  simp [trace, h]

theorem trace_cons_of_none (h : step state event = none) :
    trace step state (event :: events) = [] := by
  simp [trace, h]

theorem exec_append (state : σ) (before after : List ε) :
    exec step state (before ++ after) =
      (exec step state before).bind fun next ↦ exec step next after := by
  induction before generalizing state with
  | nil => rfl
  | cons event before ih =>
    simp only [List.cons_append, exec, Option.bind_assoc]
    exact congrArg _ (funext ih)

theorem exec_concat (state : σ) (events : List ε) (event : ε) :
    exec step state (events ++ [event]) =
      (exec step state events).bind fun next ↦ step next event := by
  rw [exec_append]
  simp [exec]

/-- Recorded steps are steps of the machine. -/
theorem step_of_mem_trace {entry : Transition σ ε} (h : entry ∈ trace step state events) :
    step entry.pre entry.event = some entry.post := by
  induction events generalizing state with
  | nil => simp at h
  | cons event events ih =>
    cases hstep : step state event with
    | none => simp [trace_cons_of_none hstep] at h
    | some next =>
      rw [trace_cons_of_some hstep, List.mem_cons] at h
      rcases h with rfl | h
      · exact hstep
      · exact ih h

theorem event_mem_of_mem_trace {entry : Transition σ ε} (h : entry ∈ trace step state events) :
    entry.event ∈ events := by
  induction events generalizing state with
  | nil => simp at h
  | cons event events ih =>
    cases hstep : step state event with
    | none => simp [trace_cons_of_none hstep] at h
    | some next =>
      rw [trace_cons_of_some hstep, List.mem_cons] at h
      rcases h with rfl | h
      · exact List.mem_cons_self
      · exact List.mem_cons_of_mem event (ih h)

/-- A machine whose steps all return records each event with the state it is reached in. -/
theorem mem_trace_of_total (f : σ → ε → σ) (state : σ) (before after : List ε) (event : ε) :
    ⟨before.foldl f state, event, f (before.foldl f state) event⟩ ∈
      trace (fun state event ↦ some (f state event)) state (before ++ event :: after) := by
  induction before generalizing state with
  | nil => exact List.mem_cons_self
  | cons first before ih => exact List.mem_cons_of_mem _ (ih (f state first))

section Invariant

-- The second argument of the invariant is the list of events still to come, so that a
-- resource bound on the remaining run can be part of it.
variable (Inv : σ → List ε → Prop) (Side : Transition σ ε → Prop) {Good : Transition σ ε → Prop}
  {Condition : σ → ε → Prop}

/-- Where the invariant makes goodness of a step equivalent to a condition on the
state before it, and the condition preserves the invariant, all steps of a run are
good exactly when all of them meet the condition. The side fact is what is granted
about every step of the run. -/
theorem forall_trace_iff
    (preserved : ∀ state event next events, Inv state (event :: events) →
      step state event = some next → Side ⟨state, event, next⟩ → Condition state event →
      Inv next events)
    (good_iff : ∀ state event next events, Inv state (event :: events) →
      step state event = some next → Side ⟨state, event, next⟩ →
      (Good ⟨state, event, next⟩ ↔ Condition state event))
    (start : Inv state events) (side : ∀ entry ∈ trace step state events, Side entry) :
    (∀ entry ∈ trace step state events, Good entry) ↔
      ∀ entry ∈ trace step state events, Condition entry.pre entry.event := by
  induction events generalizing state with
  | nil => simp
  | cons event events ih =>
    cases hstep : step state event with
    | none => simp [trace_cons_of_none hstep]
    | some next =>
      rw [trace_cons_of_some hstep, List.forall_mem_cons] at side
      have hgood := good_iff state event next events start hstep side.1
      simp only [trace_cons_of_some hstep, List.forall_mem_cons, hgood]
      refine and_congr_right fun hcondition ↦ ?_
      exact ih (preserved state event next events start hstep side.1 hcondition) side.2

/-- Under a condition that preserves the invariant, a machine that returns from every
invariant state executes all events. -/
theorem length_trace_eq
    (preserved : ∀ state event next events, Inv state (event :: events) →
      step state event = some next → Condition state event → Inv next events)
    (returns : ∀ state event events, Inv state (event :: events) → (step state event).isSome)
    (start : Inv state events)
    (condition : ∀ entry ∈ trace step state events, Condition entry.pre entry.event) :
    (trace step state events).length = events.length := by
  induction events generalizing state with
  | nil => simp
  | cons event events ih =>
    obtain ⟨next, hstep⟩ := Option.isSome_iff_exists.mp (returns state event events start)
    rw [trace_cons_of_some hstep] at condition ⊢
    rw [List.forall_mem_cons] at condition
    simp only [List.length_cons, Nat.add_right_cancel_iff]
    exact ih (preserved state event next events start hstep condition.1) condition.2

/-- An invariant that every step under the condition preserves holds around every recorded
step of a run that meets the condition throughout. -/
theorem invariant_of_mem_trace (Inv : σ → Prop) (Condition : σ → ε → Prop)
    (preserved : ∀ state event next, Inv state → step state event = some next →
      Condition state event → Inv next)
    (start : Inv state)
    (condition : ∀ entry ∈ trace step state events, Condition entry.pre entry.event) :
    ∀ entry ∈ trace step state events, Inv entry.pre ∧ Inv entry.post := by
  induction events generalizing state with
  | nil => simp
  | cons event events ih =>
    cases hstep : step state event with
    | none => simp [trace_cons_of_none hstep]
    | some next =>
      rw [trace_cons_of_some hstep, List.forall_mem_cons] at condition
      have hnext := preserved state event next start hstep condition.1
      rw [trace_cons_of_some hstep, List.forall_mem_cons]
      exact ⟨⟨start, hnext⟩, ih hnext condition.2⟩

end Invariant

section Segment

variable (Fact : σ → Prop)

/-- A fact of the first state that every earlier step keeps holds before a recorded step. -/
theorem fact_before {before after : List (Transition σ ε)} {entry : Transition σ ε}
    (h : trace step state events = before ++ entry :: after) (start : Fact state)
    (kept : ∀ other ∈ before, Fact other.pre → Fact other.post) : Fact entry.pre := by
  induction events generalizing state before with
  | nil => simp at h
  | cons event events ih =>
    cases hstep : step state event with
    | none => simp [trace_cons_of_none hstep] at h
    | some next =>
      rw [trace_cons_of_some hstep] at h
      cases before with
      | nil =>
        simp only [List.nil_append, List.cons.injEq] at h
        simpa [← h.1] using start
      | cons first before =>
        simp only [List.cons_append, List.cons.injEq] at h
        rw [List.forall_mem_cons] at kept
        exact ih h.2 (by simpa [← h.1] using kept.1 (by simpa [← h.1] using start)) kept.2

/-- A fact established by one recorded step and kept by the steps between holds before a
later one. -/
theorem fact_between {before between after : List (Transition σ ε)}
    {first second : Transition σ ε}
    (h : trace step state events = before ++ first :: (between ++ second :: after))
    (established : Fact first.post)
    (kept : ∀ other ∈ between, Fact other.pre → Fact other.post) : Fact second.pre := by
  induction events generalizing state before with
  | nil => simp at h
  | cons event events ih =>
    cases hstep : step state event with
    | none => simp [trace_cons_of_none hstep] at h
    | some next =>
      rw [trace_cons_of_some hstep] at h
      cases before with
      | nil =>
        simp only [List.nil_append, List.cons.injEq] at h
        exact fact_before Fact h.2 (by simpa [← h.1] using established) kept
      | cons other before =>
        simp only [List.cons_append, List.cons.injEq] at h
        exact ih h.2

end Segment

end Vodka.Foundation.Trace

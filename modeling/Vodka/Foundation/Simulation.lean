import Mathlib.Tactic

/-!
# Machines that answer, and what they are for

A machine takes a state and a call to a next state and an answer, or does not
return. A `Purpose` says on abstract states which calls are meant, what they do
and what they answer. A relation that every meant call keeps carries a whole
run of meant calls: the machine returns each time and gives the same answers.
The relation may depend on the calls still to come, so that a bound on the
remaining run can be part of it.
-/

namespace Vodka.Foundation.Simulation

variable {σ α ε ρ : Type*}

/-- What calls are meant, what they do and what they answer. -/
structure Purpose (α ε ρ : Type*) where
  Meant : α → ε → Prop
  next : α → ε → α
  answer : α → ε → ρ

namespace Purpose

variable (purpose : Purpose α ε ρ)

/-- Every call is meant where it is made. -/
def MeantRun : α → List ε → Prop
  | _, [] => True
  | abstract, call :: calls =>
    purpose.Meant abstract call ∧ MeantRun (purpose.next abstract call) calls

theorem meantRun_of_forall (h : ∀ abstract call, purpose.Meant abstract call) (abstract : α)
    (calls : List ε) : purpose.MeantRun abstract calls := by
  induction calls generalizing abstract with
  | nil => trivial
  | cons call calls ih => exact ⟨h abstract call, ih _⟩

def after (abstract : α) (calls : List ε) : α := calls.foldl purpose.next abstract

def answers : α → List ε → List ρ
  | _, [] => []
  | abstract, call :: calls =>
    purpose.answer abstract call :: answers (purpose.next abstract call) calls

end Purpose

/-- The state after all calls and their answers, when every call returns. -/
def run (step : σ → ε → Option (σ × ρ)) : σ → List ε → Option (σ × List ρ)
  | state, [] => some (state, [])
  | state, call :: calls =>
    (step state call).bind fun after ↦
      (run step after.1 calls).map fun final ↦ (final.1, after.2 :: final.2)

theorem run_cons_of_some {step : σ → ε → Option (σ × ρ)} {state next : σ} {call : ε} {answer : ρ}
    (h : step state call = some (next, answer)) (calls : List ε) :
    run step state (call :: calls) =
      (run step next calls).map fun final ↦ (final.1, answer :: final.2) := by
  rw [run, h, Option.bind_some]

/-- A relation kept by every meant call carries the whole run. -/
theorem run_of_simulates (purpose : Purpose α ε ρ) (step : σ → ε → Option (σ × ρ))
    (Related : σ → α → List ε → Prop)
    (kept : ∀ state abstract call calls, Related state abstract (call :: calls) →
      purpose.Meant abstract call →
      ∃ next, step state call = some (next, purpose.answer abstract call) ∧
        Related next (purpose.next abstract call) calls)
    {state : σ} {abstract : α} {calls : List ε} (start : Related state abstract calls)
    (meant : purpose.MeantRun abstract calls) :
    ∃ final, run step state calls = some (final, purpose.answers abstract calls) ∧
      Related final (purpose.after abstract calls) [] := by
  induction calls generalizing state abstract with
  | nil => exact ⟨state, rfl, start⟩
  | cons call calls ih =>
    obtain ⟨next, hstep, hnext⟩ := kept state abstract call calls start meant.1
    obtain ⟨final, hrun, hfinal⟩ := ih hnext meant.2
    refine ⟨final, ?_, hfinal⟩
    rw [run_cons_of_some hstep, hrun]
    rfl

end Vodka.Foundation.Simulation

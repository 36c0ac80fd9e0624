import Mathlib.Tactic

/-!
# Loops with a condition

A `while` loop is run for at most a number of turns, and has no result when its
condition still holds then. The states before each turn give the state behind
the loop, and how many turns it needs.
-/

namespace Vodka.Foundation.Loop

variable {σ : Type*}

/-- `while (condition) body`, for fewer turns than given. -/
def loop (condition : σ → Bool) (body : σ → σ) : ℕ → σ → Option σ
  | 0, _ => none
  | turns + 1, state =>
    if condition state then loop condition body turns (body state) else some state

variable {condition : σ → Bool} {body : σ → σ}

/-- The states before the turns lead to the one that ends the loop. -/
theorem loop_of_trace (before : ℕ → σ) {last turns : ℕ}
    (goes : ∀ k < last, condition (before k) = true)
    (kept : ∀ k < last, body (before k) = before (k + 1))
    (ends : condition (before last) = false) (hturns : last < turns) :
    loop condition body turns (before 0) = some (before last) := by
  suffices h : ∀ rest k, k + rest = last → ∀ turns, rest < turns →
      loop condition body turns (before k) = some (before last) from
    h last 0 (Nat.zero_add last) turns hturns
  intro rest
  induction rest with
  | zero =>
    rintro k hk (_ | turns) hturns
    · exact absurd hturns (Nat.lt_irrefl 0)
    · obtain rfl : k = last := hk
      rw [loop, ends]
      rfl
  | succ rest ih =>
    rintro k hk (_ | turns) hturns
    · exact absurd hturns (Nat.not_lt_zero _)
    · have hlt : k < last := by omega
      rw [loop, if_pos (goes k hlt), kept k hlt]
      exact ih (k + 1) (by omega) turns (by omega)

end Vodka.Foundation.Loop

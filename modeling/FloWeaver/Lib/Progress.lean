import Mathlib.Algebra.Order.Group.Nat
import Mathlib.Logic.Function.Iterate

/-!
# Steps that make progress

A step that decreases a measure whenever it moves a state comes to rest.  A loop that repeats such
a step until it reaches a final state ends exactly when it never rests on any other state.

* `Decreases` — a step decreases a measure unless it leaves the state as it is.
* `Decreases.rests` — the state at which it rests.
* `Decreases.exists_final_iff` — a loop ends if and only if it is never stuck.
-/

namespace Progress

variable {σ : Type*} {step : σ → σ} {size : σ → ℕ}

/-- A step that moves a state makes it smaller. -/
def Decreases (step : σ → σ) (size : σ → ℕ) : Prop := ∀ s, step s ≠ s → size (step s) < size s

/-- A step that has decreased a measure as often as its value says has come to rest. -/
theorem Decreases.rests (h : Decreases step size) (s : σ) :
    ∃ n, step (step^[n] s) = step^[n] s := by
  induction hn : size s using Nat.strong_induction_on generalizing s with
  | _ m ih =>
    by_cases hs : step s = s
    · exact ⟨0, hs⟩
    · obtain ⟨n, hn'⟩ := ih _ (hn ▸ h s hs) (step s) rfl
      refine ⟨n + 1, ?_⟩
      rw [Function.iterate_succ_apply]
      exact hn'

/-- A loop ends if and only if the states on which it rests are final. -/
theorem Decreases.exists_final_iff (h : Decreases step size) {final : σ → Prop}
    (hfinal : ∀ s, final s → step s = s) (s : σ) :
    (∃ n, final (step^[n] s)) ↔ ∀ n, step (step^[n] s) = step^[n] s → final (step^[n] s) := by
  constructor
  · rintro ⟨m, hm⟩ n hrest
    rcases Nat.le_total n m with hnm | hmn
    · obtain ⟨k, rfl⟩ := Nat.exists_eq_add_of_le hnm
      have hstay : step^[k] (step^[n] s) = step^[n] s := Function.iterate_fixed hrest k
      rwa [Nat.add_comm, Function.iterate_add_apply, hstay] at hm
    · obtain ⟨k, rfl⟩ := Nat.exists_eq_add_of_le hmn
      rw [Nat.add_comm, Function.iterate_add_apply, Function.iterate_fixed (hfinal _ hm)]
      exact hm
  · intro hall
    obtain ⟨n, hrest⟩ := h.rests s
    exact ⟨n, hall n hrest⟩

end Progress

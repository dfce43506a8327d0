/-
# Executions: runs without an end

What a step system does for ever, with pauses: at each time an action or none
(`StepSystem.Execution`).  What always happens in the end is a statement about executions:
that no action stays enabled and undone for ever is a hypothesis on them, and a
measure that no step makes larger comes to rest (`Execution.comes_to_rest`).

Of a sequence of actions that are all enabled where they come an execution is made (`execution`), so
a statement about what happens in the end can be refuted by such a sequence.
-/

import Mathlib.Data.Nat.Init
import Mathlib.Order.Basic
import Mathlib.Order.Nat
import ECSUtil.Lib.StepSystem

namespace StepSystem

variable {σ α : Type*}

/-- A run without an end, `none` where nothing happens. -/
structure Execution (S : StepSystem σ α) where
  state : ℕ → σ
  act : ℕ → Option α
  init : S.init (state 0)
  idle : ∀ n, act n = none → state (n + 1) = state n
  step : ∀ n a, act n = some a → S.step (state n) a = some (state (n + 1))

variable {S : StepSystem σ α}

namespace Execution

/-- Every state of an execution is reached by the system. -/
theorem reachable (e : S.Execution) : ∀ n, S.Reachable (e.state n)
  | 0 => .init e.init
  | n + 1 => by
      cases ha : e.act n with
      | none => exact e.idle n ha ▸ e.reachable n
      | some a => exact .step (e.reachable n) trivial (e.step n a ha)

/-- **What every step keeps from some time on** holds from then on. The induction is on the time
that has passed; a time without a step changes nothing. -/
theorem always (e : S.Execution) {I : σ → Prop} {n : ℕ} (h : I (e.state n))
    (hstep : ∀ m a, n ≤ m → e.act m = some a → I (e.state m) → I (e.state (m + 1))) :
    ∀ m, n ≤ m → I (e.state m) := by
  intro m hm
  induction m, hm using Nat.le_induction with
  | base => exact h
  | succ m hm ih =>
      cases ha : e.act m with
      | none => exact (e.idle m ha).symm ▸ ih
      | some a => exact hstep m a hm ha ih

/-- **A measure that never grows comes to rest.** The induction is on its value: it stays as it is,
or falls and comes to rest from there. -/
theorem comes_to_rest (e : S.Execution) (f : σ → ℕ) {n : ℕ}
    (hstep : ∀ m a, n ≤ m → e.act m = some a → f (e.state (m + 1)) ≤ f (e.state m)) :
    ∃ k, n ≤ k ∧ ∀ m, k ≤ m → f (e.state m) = f (e.state k) := by
  induction hf : f (e.state n) using Nat.strong_induction_on generalizing n with
  | _ v ih =>
      subst hf
      have hle : ∀ m, n ≤ m → f (e.state m) ≤ f (e.state n) :=
        e.always (I := fun s => f s ≤ f (e.state n)) le_rfl fun m a hm ha h =>
          (hstep m a hm ha).trans h
      by_cases hrest : ∀ m, n ≤ m → f (e.state m) = f (e.state n)
      · exact ⟨n, le_rfl, hrest⟩
      · push Not at hrest
        obtain ⟨m, hm, hne⟩ := hrest
        obtain ⟨k, hk, h⟩ := ih _ (lt_of_le_of_ne (hle m hm) hne)
          (fun l a hl => hstep l a (hm.trans hl)) rfl
        exact ⟨k, hm.trans hk, h⟩

end Execution

/-- The states on the way of some actions. -/
def follow (S : StepSystem σ α) (act : ℕ → Option α) (s : σ) : ℕ → σ
  | 0 => s
  | n + 1 => ((act n).bind (S.step (follow S act s n))).getD (follow S act s n)

/-- Where nothing happens any more. -/
theorem follow_eq_of_le {act : ℕ → Option α} {s : σ} {k : ℕ} (h : ∀ n, k ≤ n → act n = none) :
    ∀ n, k ≤ n → S.follow act s n = S.follow act s k := by
  intro n hn
  induction n, hn using Nat.le_induction with
  | base => rfl
  | succ n hn ih => simp [follow, h n hn, ih]

/-- The execution of some actions that are all enabled. -/
def execution (act : ℕ → Option α) (s : σ) (h0 : S.init s)
    (h : ∀ n a, act n = some a → (S.step (S.follow act s n) a).isSome = true) : S.Execution where
  state := S.follow act s
  act := act
  init := h0
  idle n ha := by simp [follow, ha]
  step n a ha := by
    obtain ⟨s', hs⟩ := Option.isSome_iff_exists.1 (h n a ha)
    simp [follow, ha, hs]

end StepSystem

/-
# Loops

A loop whose body either goes on with a new state or ends with a result, run with a number of turns.
A loop with a measure ends with what its invariant allows (`ends_of_measure`), and one that can keep
its invariant and go on has no end (`not_ends_of_invariant`).

The turns are there to make the run a function; of a loop that ends the result does not depend on
them (`run_inj`), and what holds of every result can be proved without a bound (`of_run`).
-/

import Mathlib.Data.Nat.Notation
import Mathlib.Logic.Basic

namespace ECSUtil
namespace Loop

variable {σ ρ : Type*}

/-- The result of a loop, if it has one after the turns given to it. -/
def run (body : σ → σ ⊕ ρ) : ℕ → σ → Option ρ
  | 0, _ => none
  | turns + 1, s =>
      match body s with
      | .inl s' => run body turns s'
      | .inr r => some r

/-- The loop ends, with a result of this kind. -/
def Ends (body : σ → σ ⊕ ρ) (Q : ρ → Prop) (s : σ) : Prop := ∃ turns r, run body turns s = some r ∧ Q r

variable {body : σ → σ ⊕ ρ} {I : σ → Prop} {Q : ρ → Prop}

/-- A body that goes on takes a turn. -/
theorem run_of_inl {s s' : σ} (h : body s = .inl s') (turns : ℕ) :
    run body (turns + 1) s = run body turns s' := by
  rw [run, h]

/-- A body that ends the loop gives its result. -/
theorem run_of_inr {s : σ} {r : ρ} (h : body s = .inr r) (turns : ℕ) :
    run body (turns + 1) s = some r := by
  rw [run, h]

/-- A loop has one result. -/
theorem run_inj {turns turns' : ℕ} {s : σ} {r r' : ρ} (h : run body turns s = some r)
    (h' : run body turns' s = some r') : r = r' := by
  induction turns generalizing turns' s with
  | zero => exact absurd h (by simp [run])
  | succ turns ih =>
      cases turns' with
      | zero => exact absurd h' (by simp [run])
      | succ turns' =>
          cases hbody : body s with
          | inl s' =>
              rw [run_of_inl hbody] at h h'
              exact ih h h'
          | inr r'' =>
              rw [run_of_inr hbody] at h h'
              exact Option.some.inj (h.symm.trans h')

/-- What the result of a loop is, where there is one. -/
theorem of_run (hend : ∀ s r, I s → body s = .inr r → Q r)
    (hstep : ∀ s s', I s → body s = .inl s' → I s') {turns : ℕ} {s : σ} {r : ρ} (hs : I s)
    (hrun : run body turns s = some r) : Q r := by
  induction turns generalizing s with
  | zero => exact absurd hrun (by simp [run])
  | succ turns ih =>
      cases hbody : body s with
      | inl s' =>
          rw [run_of_inl hbody] at hrun
          exact ih (hstep s s' hs hbody) hrun
      | inr r' =>
          rw [run_of_inr hbody] at hrun
          exact Option.some.inj hrun ▸ hend s r' hs hbody

/-- **A loop with a measure ends.** The induction is on the measure, and the invariant is carried
along. -/
theorem ends_of_measure (μ : σ → ℕ) (hend : ∀ s r, I s → body s = .inr r → Q r)
    (hstep : ∀ s s', I s → body s = .inl s' → I s' ∧ μ s' < μ s) {s : σ} (hs : I s) :
    Ends body Q s := by
  induction hn : μ s using Nat.strongRecOn generalizing s with
  | ind n ih =>
      cases hbody : body s with
      | inl s' =>
          obtain ⟨hs', hlt⟩ := hstep s s' hs hbody
          obtain ⟨turns, r, hr, hQ⟩ := ih (μ s') (hn ▸ hlt) hs' rfl
          exact ⟨turns + 1, r, (run_of_inl hbody turns).trans hr, hQ⟩
      | inr r => exact ⟨1, r, run_of_inr hbody 0, hend s r hs hbody⟩

/-- **A loop that can always go on has no end.** Each turn leads to a state of the same kind, so no
number of turns ends it. -/
theorem not_ends_of_invariant (hstep : ∀ s, I s → ∃ s', body s = .inl s' ∧ I s') {s : σ} (hs : I s) :
    ¬Ends body Q s := by
  have hnone : ∀ turns s, I s → run body turns s = none := by
    intro turns
    induction turns with
    | zero => exact fun _ _ => rfl
    | succ turns ih =>
        intro s hs
        obtain ⟨s', hbody, hs'⟩ := hstep s hs
        rw [run_of_inl hbody, ih s' hs']
  rintro ⟨turns, r, hr, -⟩
  rw [hnone turns s hs] at hr
  exact Option.some_ne_none r hr.symm

end Loop
end ECSUtil

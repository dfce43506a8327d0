/-
# Step systems: runs, reachable states, invariants

A program of several threads, or of one thread in an environment that answers
it, is a *step system*: the states it may start in, and a partial function that
takes a state and an action to the next state.  The action names the thread that
moves and carries every choice the system does not make itself (what a read
returned, whether a flag was raised), so a run is a list of actions and can be
computed (`StepSystem.run`).

`StepSystem.ReachableBy C` are the states of the runs all of whose steps meet
the condition `C` on the state before the step and the action; `Reachable` asks
nothing of the steps.  What holds initially and is kept by every allowed step
holds of all of them (`ReachableBy.invariant`).
-/

import Mathlib.Logic.Basic
import Mathlib.Data.List.Basic

/-- A step system over states `σ` and actions `α`. -/
structure StepSystem (σ α : Type*) where
  /-- The states a run may start in. -/
  init : σ → Prop
  /-- The state after an action, `none` where the action is not enabled. -/
  step : σ → α → Option σ

namespace StepSystem

variable {σ α : Type*} (S : StepSystem σ α)

/-- The state after a list of actions, `none` as soon as one is not enabled. -/
def run : List α → σ → Option σ
  | [], s => some s
  | a :: as, s => (S.step s a).bind (run as)

/-- The states of the runs whose steps all meet `C`. -/
inductive ReachableBy (C : σ → α → Prop) : σ → Prop
  | init {s : σ} (h : S.init s) : ReachableBy C s
  | step {s : σ} {a : α} {s' : σ} (h : ReachableBy C s) (hC : C s a)
      (hs : S.step s a = some s') : ReachableBy C s'

/-- The states of all runs. -/
abbrev Reachable : σ → Prop := S.ReachableBy fun _ _ => True

/-- `S` with only the steps that meet `C`. -/
def restrict (C : σ → α → Prop) [∀ s a, Decidable (C s a)] : StepSystem σ α where
  init := S.init
  step s a := if C s a then S.step s a else none

variable {S}

/-- A condition that asks less allows more runs. -/
theorem ReachableBy.mono {C D : σ → α → Prop} (hCD : ∀ s a, C s a → D s a) {s : σ}
    (h : S.ReachableBy C s) : S.ReachableBy D s := by
  induction h with
  | init h => exact .init h
  | step _ hC hs ih => exact .step ih (hCD _ _ hC) hs

/-- A run whose steps meet a condition is a run. -/
theorem ReachableBy.reachable {C : σ → α → Prop} {s : σ} (h : S.ReachableBy C s) :
    S.Reachable s := h.mono fun _ _ _ => trivial

/-- **The invariant rule.**  What holds of the initial states and is kept by
every step that meets `C` holds of every state of the runs by `C`. -/
theorem ReachableBy.invariant {C : σ → α → Prop} {I : σ → Prop} (h0 : ∀ s, S.init s → I s)
    (hstep : ∀ s a s', I s → C s a → S.step s a = some s' → I s') {s : σ}
    (h : S.ReachableBy C s) : I s := by
  induction h with
  | init h => exact h0 _ h
  | step _ hC hs ih => exact hstep _ _ _ ih hC hs

/-- The invariant rule, the steps also known to start in a reachable state. -/
theorem ReachableBy.invariant_reachable {C : σ → α → Prop} {I : σ → Prop}
    (h0 : ∀ s, S.init s → I s)
    (hstep : ∀ s a s', S.ReachableBy C s → I s → C s a → S.step s a = some s' → I s') {s : σ}
    (h : S.ReachableBy C s) : I s := by
  induction h with
  | init h => exact h0 _ h
  | step hr hC hs ih => exact hstep _ _ _ hr ih hC hs

/-- **The projection rule.**  Where each step of `S` is, seen through `f` and `g`, a step of `T`, the runs of
`S` are seen as runs of `T`. -/
theorem ReachableBy.map {τ β : Type*} {T : StepSystem τ β} {C : σ → α → Prop} {D : τ → β → Prop} (f : σ → τ)
    (g : α → β) (h0 : ∀ s, S.init s → T.init (f s)) (hCD : ∀ s a, C s a → D (f s) (g a))
    (hstep : ∀ s a s', S.step s a = some s' → T.step (f s) (g a) = some (f s')) {s : σ}
    (h : S.ReachableBy C s) : T.ReachableBy D (f s) := by
  induction h with
  | init h => exact .init (h0 _ h)
  | step _ hC hs ih => exact .step ih (hCD _ _ hC) (hstep _ _ _ hs)

/-- A computed run of the restricted system continues a run by `C`. -/
theorem ReachableBy.run_restrict {C : σ → α → Prop} [∀ s a, Decidable (C s a)] {s s' : σ}
    (as : List α) (h : S.ReachableBy C s) (hr : (S.restrict C).run as s = some s') :
    S.ReachableBy C s' := by
  induction as generalizing s with
  | nil => exact Option.some.inj hr ▸ h
  | cons a as ih =>
      obtain ⟨t, ht, hr⟩ := Option.bind_eq_some_iff.1 hr
      simp only [restrict, Option.ite_none_right_eq_some] at ht
      exact ih (.step h ht.1 ht.2) hr

/-- The invariant rule for one computed run. -/
theorem run_invariant {I : σ → Prop}
    (hstep : ∀ s a s', I s → S.step s a = some s' → I s') {s s' : σ} (as : List α) (h : I s)
    (hr : S.run as s = some s') : I s' := by
  induction as generalizing s with
  | nil => exact Option.some.inj hr ▸ h
  | cons a as ih =>
      obtain ⟨t, ht, hr⟩ := Option.bind_eq_some_iff.1 hr
      exact ih (hstep _ _ _ h ht) hr

/-- The invariant rule for one computed run whose actions are of some kind. -/
theorem run_invariant_of {P : α → Prop} {I : σ → Prop}
    (hstep : ∀ s a s', I s → P a → S.step s a = some s' → I s') {s s' : σ} (as : List α)
    (has : ∀ a ∈ as, P a) (h : I s) (hr : S.run as s = some s') : I s' := by
  induction as generalizing s with
  | nil => exact Option.some.inj hr ▸ h
  | cons a as ih =>
      obtain ⟨t, ht, hr⟩ := Option.bind_eq_some_iff.1 hr
      obtain ⟨ha, has⟩ := List.forall_mem_cons.1 has
      exact ih has (hstep _ _ _ h ha ht) hr

/-- A computed run continues a run. -/
theorem Reachable.run {s s' : σ} (as : List α) (h : S.Reachable s)
    (hr : S.run as s = some s') : S.Reachable s' := by
  induction as generalizing s with
  | nil => exact Option.some.inj hr ▸ h
  | cons a as ih =>
      obtain ⟨t, ht, hr⟩ := Option.bind_eq_some_iff.1 hr
      exact ih (.step h trivial ht) hr

end StepSystem

/-
# Objects that answer calls

An object takes calls one after the other.  Each gives an answer and the next state, or goes wrong
(`Responder.run`).  Where each call that meets a condition is answered as a reference answers it, and
a relation of the two states is kept, every run whose calls all meet the condition is answered so
(`Responder.run_refines`).

The relation and the condition are chosen by whoever uses this: the condition is on the state before
a call, so what is proved for one call (the hypothesis of `run_refines`) needs nothing of the runs.
-/

import Mathlib.Data.List.Basic

/-- An object with states `σ`, calls `κ` and answers `ρ`. -/
structure Responder (σ κ ρ : Type*) where
  /-- The answer and the next state, `none` where the call goes wrong. -/
  call : σ → κ → Option (ρ × σ)

namespace Responder

variable {σ τ κ ρ : Type*}

/-- The answers to a list of calls, and the state after them. -/
def run (O : Responder σ κ ρ) : List κ → σ → Option (List ρ × σ)
  | [], s => some ([], s)
  | c :: cs, s => (O.call s c).bind fun r => (O.run cs r.2).map fun rs => (r.1 :: rs.1, rs.2)

/-- The same of a reference, which answers every call. -/
def answers (ref : τ → κ → ρ × τ) : List κ → τ → List ρ × τ
  | [], t => ([], t)
  | c :: cs, t => ((ref t c).1 :: (answers ref cs (ref t c).2).1, (answers ref cs (ref t c).2).2)

/-- All calls meet a condition on the state before them. -/
def Meets (O : Responder σ κ ρ) (C : σ → κ → Prop) : List κ → σ → Prop
  | [], _ => True
  | c :: cs, s => C s c ∧ ∀ r, O.call s c = some r → O.Meets C cs r.2

variable {O : Responder σ κ ρ} {C : σ → κ → Prop}

/-- **Runs are answered as the reference answers them.** -/
theorem run_refines {ref : τ → κ → ρ × τ} {R : σ → τ → Prop}
    (hstep : ∀ {s t} c, R s t → C s c → ∃ s', O.call s c = some ((ref t c).1, s') ∧ R s' (ref t c).2)
    {cs : List κ} {s : σ} {t : τ} (hR : R s t) (hC : O.Meets C cs s) :
    ∃ s', O.run cs s = some ((answers ref cs t).1, s') ∧ R s' (answers ref cs t).2 := by
  induction cs generalizing s t with
  | nil => exact ⟨s, rfl, hR⟩
  | cons c cs ih =>
      obtain ⟨hc, hrest⟩ := hC
      obtain ⟨s₁, hcall, hR₁⟩ := hstep c hR hc
      obtain ⟨s₂, hrun, hR₂⟩ := ih hR₁ (hrest _ hcall)
      refine ⟨s₂, ?_, hR₂⟩
      rw [run, hcall, Option.bind_some, hrun]
      rfl

/-- What every call keeps holds after a run. -/
theorem run_keeps {I : σ → Prop} (hstep : ∀ {s c r}, I s → C s c → O.call s c = some r → I r.2)
    {cs : List κ} {s : σ} {rs : List ρ × σ} (hI : I s) (hC : O.Meets C cs s)
    (hrun : O.run cs s = some rs) : I rs.2 := by
  induction cs generalizing s rs with
  | nil =>
      obtain rfl := Option.some.inj hrun
      exact hI
  | cons c cs ih =>
      obtain ⟨hc, hrest⟩ := hC
      obtain ⟨r, hcall, hmap⟩ := Option.bind_eq_some_iff.1 hrun
      obtain ⟨rs', hrun', rfl⟩ := Option.map_eq_some_iff.1 hmap
      have hkept : I rs'.2 := ih (hstep hI hc hcall) (hrest r hcall) hrun'
      exact hkept

end Responder

/-
# Results that may be errors

What a computation in `Except` promises of its value, and of its error: `Meets r Q E`.
The rules follow the computation, one for each step and one for a loop over a list.

`E` may be `fun _ => True` where the errors do not matter, and `fun _ => False` where there are to
be none.  The rules are used by name, so a proof shows which step keeps what: `meets_ok` at the end,
`Meets.bind` between two steps, and `meets_foldlM` for a loop with its invariant.
-/

import Mathlib.Data.List.Basic

namespace Except

variable {ε α β : Type}

/-- A value that satisfies `Q`, or an error that satisfies `E`. -/
def Meets (r : Except ε α) (Q : α → Prop) (E : ε → Prop) : Prop :=
  match r with
  | .ok a => Q a
  | .error e => E e

variable {Q Q' : α → Prop} {E E' : ε → Prop} {R : β → Prop}

/-- A value is as good as it is. -/
theorem meets_ok {a : α} (h : Q a) : (Except.ok a : Except ε α).Meets Q E := h

/-- A value that is written as a computation is as good as it is. -/
theorem meets_pure {a : α} (h : Q a) : (pure a : Except ε α).Meets Q E := h

/-- Less may be promised. -/
theorem Meets.imp {r : Except ε α} (h : r.Meets Q E) (hQ : ∀ a, Q a → Q' a)
    (hE : ∀ e, E e → E' e) : r.Meets Q' E' := by
  cases r with
  | ok a => exact hQ a h
  | error e => exact hE e h

/-- After a value the computation goes on with it. -/
@[simp] theorem ok_bind (a : α) (f : α → Except ε β) : (Except.ok a >>= f) = f a := rfl

/-- **One after the other.** An error of the first is one of both, and what it returns satisfies
what the second asks for. -/
theorem Meets.bind {r : Except ε α} {f : α → Except ε β} (h : r.Meets Q E)
    (hf : ∀ a, Q a → (f a).Meets R E) : (r >>= f).Meets R E := by
  cases r with
  | ok a => exact hf a h
  | error e => exact h

/-- **A loop.** The property is the invariant of the loop, and the induction is on the list. -/
theorem meets_foldlM {f : α → β → Except ε α} {l : List β} {a : α} (h : Q a)
    (hf : ∀ a, ∀ b ∈ l, Q a → (f a b).Meets Q E) : (l.foldlM f a).Meets Q E := by
  induction l generalizing a with
  | nil => exact h
  | cons b l ih =>
      rw [List.foldlM_cons]
      exact (hf a b (List.mem_cons_self ..) h).bind fun a' ha =>
        ih ha fun a'' b' hb => hf a'' b' (List.mem_cons_of_mem _ hb)

end Except

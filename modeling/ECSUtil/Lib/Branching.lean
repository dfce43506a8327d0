/-
# Programs of commands that succeed or fail

A program takes one command after the other; where a command succeeds it goes on one way and where it
fails on the other (`Branching`).  What a command does depends on a reply of its surroundings.  A program
is run to its end with the replies it is given (`Branching.exec`), or one command at a time
(`Branching.next`), as a thread does among others.  What every command keeps, every run keeps.

The commands and what they do are parameters.  `Branching.exec` and `Branching.next` are the same
run seen by one thread and by many, so a fact about each command is enough for both.
-/

import Mathlib.Data.Nat.Notation
import Mathlib.Logic.Basic
import Mathlib.Tactic.SplitIfs

/-- A program of commands `κ`. -/
inductive Branching (κ : Type*)
  | done
  | act (c : κ) (ok fail : Branching κ)

namespace Branching

variable {κ ρ σ : Type*}

/-- The next command is taken: the rest of the program, and the state. -/
def next (eval : κ → ρ → σ → Bool × σ) (r : ρ) (s : σ) : Branching κ → Option (Branching κ × σ)
  | done => none
  | act c ok fail => some (if (eval c r s).1 then ok else fail, (eval c r s).2)

/-- The program is run to its end, the replies taken one by one. -/
def exec (eval : κ → ρ → σ → Bool × σ) : Branching κ → (ℕ → ρ) → σ → σ
  | done, _, s => s
  | act c ok fail, reply, s =>
      let rest := fun n => reply (n + 1)
      if (eval c (reply 0) s).1 then ok.exec eval rest (eval c (reply 0) s).2
      else fail.exec eval rest (eval c (reply 0) s).2

variable {eval : κ → ρ → σ → Bool × σ}

/-- A command, and the one or the other rest. -/
theorem exec_act {I : σ → Prop} {c : κ} {ok fail : Branching κ} {reply : ℕ → ρ} {s : σ}
    (hok : ∀ s', eval c (reply 0) s = (true, s') → I (ok.exec eval (fun n => reply (n + 1)) s'))
    (hfail : ∀ s', eval c (reply 0) s = (false, s') → I (fail.exec eval (fun n => reply (n + 1)) s')) :
    I ((act c ok fail).exec eval reply s) := by
  rw [exec]
  split_ifs with h
  · exact hok _ (Prod.ext h rfl)
  · exact hfail _ (Prod.ext (Bool.eq_false_iff.2 h) rfl)

end Branching

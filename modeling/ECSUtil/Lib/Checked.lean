/-
# Arithmetic that may go wrong

Operations on machine integers that say so when the mathematical result does not fit or a divisor is
zero, and loops that say so when they are not done after the turns given to them.

An operation returns its result where nothing goes wrong, and the lemmas below say when that is; so
a proof that a computation goes well follows its operations one by one, and what it computes is the
mathematical result.
-/

import Mathlib.Algebra.Group.Nat.Defs
import Mathlib.Data.Nat.Notation

namespace ECSUtil
namespace Checked

/-- Why there is no result. -/
inductive Stop
  | overflow
  | divideByZero
  /-- The turns of a loop are used up. -/
  | running
  deriving DecidableEq, Repr

/-- An unsigned integer of `width` bits. -/
def bound (width n : ℕ) : Except Stop ℕ := if n < 2 ^ width then .ok n else .error .overflow

def sub (a b : ℕ) : Except Stop ℕ := if b ≤ a then .ok (a - b) else .error .overflow

def div (a b : ℕ) : Except Stop ℕ := if b = 0 then .error .divideByZero else .ok (a / b)

/-- A number that fits is its own value. -/
theorem bound_of_lt {width n : ℕ} (h : n < 2 ^ width) : bound width n = .ok n := if_pos h

/-- A difference that is not negative is the difference. -/
theorem sub_of_le {a b : ℕ} (h : b ≤ a) : sub a b = .ok (a - b) := if_pos h

/-- A quotient by a divisor that is not zero is the quotient. -/
theorem div_of_pos {a b : ℕ} (h : 0 < b) : div a b = .ok (a / b) := if_neg (Nat.pos_iff_ne_zero.1 h)

/-- Division by zero is an error. -/
@[simp] theorem div_zero (a : ℕ) : div a 0 = .error .divideByZero := rfl

/-- After a result the computation goes on with it. -/
@[simp] theorem ok_bind {α β : Type} (a : α) (f : α → Except Stop β) :
    ((Except.ok a : Except Stop α) >>= f) = f a := rfl

/-- After an error the computation does not go on. -/
@[simp] theorem error_bind {α β : Type} (e : Stop) (f : α → Except Stop β) :
    ((Except.error e : Except Stop α) >>= f) = .error e := rfl

end Checked
end ECSUtil

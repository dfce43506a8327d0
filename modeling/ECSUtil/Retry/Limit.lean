/-
# The limit of the attempts

`SetRetries`, `SetTest` and the loop of `SendRequest` (`ECSUtil/ECSConnection.cpp`), by any number of
connections and threads.  `dwMaxRetryCount` is static.  A request of a test connection assigns to
it, and the assignment stays: `attempts_iff`.

Each assignment is a step, as is each turn of the loop, which reads the limit again.

The limit that a turn compares with is the one at the time, whoever assigned to it: the count that
`SetRetries` set last, or two at most once a request of a test connection came to its loop
(`LimitKept`).
-/

import Mathlib.Logic.Function.Basic
import ECSUtil.Lib.StepSystem
import ECSUtil.Retry.Send

namespace ECSUtil
namespace Retry

def MaxRetryCount : ℕ := 5

/-- What connections `κ` share, and the requests of threads `ρ` that are in their loop, each with its
connection and the number of its attempts. -/
structure Limits (κ ρ : Type*) where
  dwMaxRetryCount : ℕ := MaxRetryCount
  bTestConnection : κ → Bool := fun _ => false
  request : ρ → Option (κ × ℕ) := fun _ => none
  /-- History: the count that was set last. -/
  countSet : ℕ := MaxRetryCount
  /-- History: a request of a test connection came to its loop since then. -/
  lowered : Bool := false

/-- The steps. -/
inductive Move (κ ρ : Type*)
  | setRetries (dwMaxRetryCountParam : ℕ)
  | setTest (c : κ) (bTestParam : Bool)
  /-- A request comes to its loop. -/
  | enter (q : ρ) (c : κ)
  /-- An attempt, and whether its checks let the loop go on. -/
  | attempt (q : ρ) (again : Bool)
  /-- The condition of the loop fails. -/
  | leave (q : ρ)

namespace Limits

variable {κ ρ : Type*} [DecidableEq κ] [DecidableEq ρ]

/-- `SetRetries`. -/
def setRetries (s : Limits κ ρ) (dwMaxRetryCountParam : ℕ) : Limits κ ρ :=
  let n := if dwMaxRetryCountParam = 0 then MaxRetryCount else dwMaxRetryCountParam
  { s with dwMaxRetryCount := n, countSet := n, lowered := false }

/-- `SetTest`. -/
def setTest (s : Limits κ ρ) (c : κ) (bTestParam : Bool) : Limits κ ρ :=
  { s with bTestConnection := Function.update s.bTestConnection c bTestParam }

/-- The assignment before the loop. -/
def enter (s : Limits κ ρ) (q : ρ) (c : κ) : Limits κ ρ :=
  { s with
    dwMaxRetryCount :=
      if s.bTestConnection c then min 2 s.dwMaxRetryCount else s.dwMaxRetryCount
    lowered := s.lowered || s.bTestConnection c
    request := Function.update s.request q (some (c, 0)) }

def setRequest (s : Limits κ ρ) (q : ρ) (p : Option (κ × ℕ)) : Limits κ ρ :=
  { s with request := Function.update s.request q p }

/-- One step. -/
def step (s : Limits κ ρ) : Move κ ρ → Option (Limits κ ρ)
  | .setRetries n => some (s.setRetries n)
  | .setTest c b => some (s.setTest c b)
  | .enter q c => if (s.request q).isNone then some (s.enter q c) else none
  | .attempt q again =>
      (s.request q).bind fun p =>
        if p.2 < s.dwMaxRetryCount then
          some (s.setRequest q (if again then some (p.1, p.2 + 1) else none))
        else none
  | .leave q =>
      (s.request q).bind fun p =>
        if p.2 < s.dwMaxRetryCount then none else some (s.setRequest q none)

end Limits

section

variable {κ ρ : Type*} [DecidableEq κ] [DecidableEq ρ]

/-- Connections and their requests. -/
def limits (κ ρ : Type*) [DecidableEq κ] [DecidableEq ρ] : StepSystem (Limits κ ρ) (Move κ ρ) where
  init s := s = {}
  step := Limits.step

/-- A request that always goes on, with nothing else going on, makes `n` attempts. -/
def Makes (s : Limits κ ρ) (q : ρ) (c : κ) (n : ℕ) : Prop :=
  ((limits κ ρ).run (.enter q c :: (List.replicate n (.attempt q true) ++ [.leave q])) s).isSome

variable {s : Limits κ ρ} {q : ρ} {c : κ} {i n : ℕ}

/-- The limit is the count that was set, or two after a test connection. -/
def LimitKept (s : Limits κ ρ) : Prop :=
  s.dwMaxRetryCount = if s.lowered then min 2 s.countSet else s.countSet

omit [DecidableEq κ] in
/-- A request that comes to its loop keeps the limit. -/
theorem limitKept_enter (h : LimitKept s) : LimitKept (s.enter q c) := by
  unfold LimitKept Limits.enter at *
  dsimp only
  rw [h]
  cases s.bTestConnection c <;> cases s.lowered <;> simp

/-- **Every step keeps it.** Only a request of a test connection lowers the limit, to two at most. -/
theorem limitKept_step {a : Move κ ρ} {s' : Limits κ ρ} (h : LimitKept s)
    (hs : s.step a = some s') : LimitKept s' := by
  cases a with
  | setRetries n => exact Option.some.inj hs ▸ rfl
  | setTest c b => exact Option.some.inj hs ▸ h
  | enter q c =>
      simp only [Limits.step, Option.ite_none_right_eq_some, Option.some.injEq] at hs
      exact hs.2 ▸ limitKept_enter h
  | attempt q again =>
      obtain ⟨p, -, hs⟩ := Option.bind_eq_some_iff.1 hs
      simp only [Option.ite_none_right_eq_some, Option.some.injEq] at hs
      exact hs.2 ▸ h
  | leave q =>
      obtain ⟨p, -, hs⟩ := Option.bind_eq_some_iff.1 hs
      simp only [Option.ite_none_left_eq_some, Option.some.injEq] at hs
      exact hs.2 ▸ h

/-- The limit is kept in all runs. -/
theorem limitKept (h : (limits κ ρ).Reachable s) : LimitKept s := by
  refine StepSystem.ReachableBy.invariant (I := LimitKept) ?_ ?_ h
  · rintro s rfl
    rfl
  · exact fun _ _ _ hI _ hs => limitKept_step hI hs

/-- The limit is what was set. -/
theorem limit_eq_iff (h : (limits κ ρ).Reachable s) :
    s.dwMaxRetryCount = s.countSet ↔ s.lowered = false ∨ s.countSet ≤ 2 := by
  rw [limitKept h]
  cases s.lowered <;> simp

/-- A request in its loop makes another attempt if and only if it is below the limit. -/
theorem attempt_isSome (hq : s.request q = some (c, i)) (again : Bool) :
    (s.step (.attempt q again)).isSome = true ↔ i < s.dwMaxRetryCount := by
  rw [Limits.step, hq, Option.bind_some]
  split_ifs with h <;> simp [h]

/-- The rest of the loop, when nothing else happens. -/
theorem run_attempts (hq : s.request q = some (c, i)) (hi : i ≤ s.dwMaxRetryCount) :
    ((limits κ ρ).run (List.replicate n (.attempt q true) ++ [.leave q]) s).isSome = true ↔
      i + n = s.dwMaxRetryCount := by
  induction n generalizing s i with
  | zero =>
      have hleave : s.step (.leave q) =
          if i < s.dwMaxRetryCount then none else some (s.setRequest q none) := by
        rw [Limits.step, hq, Option.bind_some]
      show ((s.step (.leave q)).bind some).isSome = true ↔ _
      rw [hleave]
      split_ifs with h
      · simp [Nat.ne_of_lt h]
      · simp [Nat.le_antisymm hi (Nat.not_lt.1 h)]
  | succ n ih =>
      have hattempt : s.step (.attempt q true) =
          if i < s.dwMaxRetryCount then some (s.setRequest q (some (c, i + 1))) else none := by
        rw [Limits.step, hq, Option.bind_some]
        rfl
      rw [List.replicate_succ, List.cons_append]
      show ((s.step (.attempt q true)).bind _).isSome = true ↔ _
      rw [hattempt]
      split_ifs with h
      · have hnext := ih (s := s.setRequest q (some (c, i + 1))) (i := i + 1)
          (Function.update_self ..) h
        refine hnext.trans ?_
        rw [Nat.add_assoc, Nat.add_comm 1 n]
        rfl
      · simp only [Option.bind_none, Option.isSome_none, Bool.false_eq_true, false_iff]
        omega

/-- The number of attempts that a request makes when it always goes on. -/
theorem makes_iff (hc : s.bTestConnection c = false) (hq : s.request q = none) :
    Makes s q c n ↔ n = s.dwMaxRetryCount := by
  have hlimit : (s.enter q c).dwMaxRetryCount = s.dwMaxRetryCount := by
    simp [Limits.enter, hc]
  have henter : s.step (.enter q c) = some (s.enter q c) := by
    simp [Limits.step, hq]
  unfold Makes
  show ((s.step (.enter q c)).bind _).isSome = true ↔ _
  rw [henter, Option.bind_some, ← hlimit]
  refine (run_attempts (i := 0) (Function.update_self ..) (Nat.zero_le _)).trans ?_
  rw [Nat.zero_add]

end

/-- **The attempts of a connection that is no test**, at any time of any run: a request of it may make
as many as were set if and only if no request of a test connection came to its loop since, or no
more than two were set; and then one that is in its loop goes on until it has made so many. -/
theorem attempts_iff {κ ρ : Type*} [DecidableEq κ] [DecidableEq ρ] {s : Limits κ ρ}
    (h : (limits κ ρ).Reachable s) {c : κ} (hc : s.bTestConnection c = false) :
    (∀ q, s.request q = none →
      (Makes s q c s.countSet ↔ s.lowered = false ∨ s.countSet ≤ 2)) ∧
    ∀ q i again, s.request q = some (c, i) → s.lowered = false ∨ s.countSet ≤ 2 →
      ((s.step (.attempt q again)).isSome = true ↔ i < s.countSet) := by
  refine ⟨fun q hq => ?_, fun q i again hq hkept => ?_⟩
  · rw [makes_iff hc hq, ← limit_eq_iff h]
    exact eq_comm
  · rw [attempt_isSome hq, (limit_eq_iff h).2 hkept]

/-- A request of the test connection `true` has come to its loop. -/
def afterTest : List (Move Bool ℕ) := [.setTest true true, .enter 0 true]

/-- The other connection does not make the five attempts that are set by default. The request of the
test connection has lowered the limit that all connections share. -/
theorem lowered_attempts : ∃ s, (limits Bool ℕ).run afterTest {} = some s ∧
    s.bTestConnection false = false ∧ s.request 1 = none ∧ s.countSet = MaxRetryCount ∧
    ¬Makes s 1 false s.countSet := by
  refine ⟨_, rfl, rfl, rfl, rfl, ?_⟩
  rw [makes_iff rfl rfl]
  decide

/-- One that is set to two attempts makes them. What the test has left is not below it. -/
theorem attempts_iff_two : ∃ s, (limits Bool ℕ).run (.setRetries 2 :: afterTest) {} = some s ∧
    Makes s 1 false 2 := by
  refine ⟨_, rfl, ?_⟩
  exact ((attempts_iff (.run (.setRetries 2 :: afterTest) (.init rfl) rfl) rfl).1 1 rfl).2
    (.inr (Nat.le_refl 2))

end Retry
end ECSUtil

/-
# Slim reader-writer locks

A lock that one thread has exclusively or several share, with who has it.  It is not recursive, and
it is released in the mode in which it was acquired (`release` is `none` otherwise).  A lock *agrees*
with the modes of the threads (`Agrees`) when each thread has it once in its mode or not at all; to
acquire and to release changes the mode of one thread, and a thread in exclusive mode is alone
(`Agrees.alone`).

Who waits is not modelled: a thread that cannot acquire the lock has no step, and any other one may
get it first, so what is proved holds whatever the order in which waiting threads are woken.
-/

import Mathlib.Data.List.Basic
import Mathlib.Logic.Function.Basic

/-- Who has the lock. -/
structure SrwLock (ι : Type*) where
  exclusive : Option ι := none
  shared : List ι := []

namespace SrwLock

variable {ι : Type*} [DecidableEq ι]

/-- The lock is acquired, exclusively or shared; `none` while the thread must wait. -/
def acquire (l : SrwLock ι) (t : ι) (bExclusive : Bool) : Option (SrwLock ι) :=
  if bExclusive then
    if l.exclusive = none ∧ l.shared = [] then some { exclusive := some t } else none
  else if l.exclusive = none then some { l with shared := t :: l.shared } else none

/-- The lock is released in a mode; `none` where the thread does not have it in that mode. -/
def release (l : SrwLock ι) (t : ι) (bExclusive : Bool) : Option (SrwLock ι) :=
  if bExclusive then
    if l.exclusive = some t then some { l with exclusive := none } else none
  else if t ∈ l.shared then some { l with shared := l.shared.erase t } else none

/-- How often a thread has acquired the lock and not released it. -/
def acquisitions (l : SrwLock ι) (t : ι) : ℕ :=
  (if l.exclusive = some t then 1 else 0) + l.shared.count t

/-- Every thread has the lock as its mode says: `some true` exclusively, `some false` shared. -/
structure Agrees (l : SrwLock ι) (mode : ι → Option Bool) : Prop where
  exclusive : ∀ t, l.exclusive = some t ↔ mode t = some true
  shared : ∀ t, l.shared.count t = if mode t = some false then 1 else 0
  apart : l.exclusive ≠ none → l.shared = []

variable {l l' : SrwLock ι} {mode : ι → Option Bool} {t t' : ι} {b : Bool}

/-- A lock that is free agrees with threads that have none. -/
theorem agrees_free : Agrees ({} : SrwLock ι) fun _ => none :=
  ⟨fun _ => ⟨fun h => absurd h (by simp), fun h => absurd h (by simp)⟩, fun _ => rfl, fun _ => rfl⟩

/-- **A thread that has it exclusively is alone.** -/
theorem Agrees.alone (h : l.Agrees mode) (ht : mode t = some true) (ht' : mode t' ≠ none) :
    t' = t := by
  have hexclusive := (h.exclusive t).2 ht
  rcases hmode : mode t' with _ | _ | _
  · exact absurd hmode ht'
  · have hcount := h.shared t'
    rw [if_pos hmode, h.apart (by rw [hexclusive]; exact Option.some_ne_none t)] at hcount
    exact absurd hcount (by simp)
  · have hexclusive' := (h.exclusive t').2 hmode
    exact (Option.some.inj (hexclusive.symm.trans hexclusive')).symm

/-- Each thread has it once, or not at all. -/
theorem Agrees.acquisitions_eq (h : l.Agrees mode) (t : ι) :
    l.acquisitions t = if mode t = none then 0 else 1 := by
  unfold acquisitions
  rw [h.shared t]
  simp only [h.exclusive t]
  rcases mode t with _ | _ | _ <;> rfl

/-- **To acquire it.** -/
theorem Agrees.acquire (h : l.Agrees mode) (ht : mode t = none) (ha : l.acquire t b = some l') :
    l'.Agrees (Function.update mode t (some b)) := by
  have hcount : l.shared.count t = 0 := by rw [h.shared t, ht]; rfl
  unfold SrwLock.acquire at ha
  cases b with
  | true =>
      simp only [if_true, Option.ite_none_right_eq_some, Option.some.injEq] at ha
      obtain ⟨⟨hfree, hshared⟩, rfl⟩ := ha
      refine ⟨fun t' => ?_, fun t' => ?_, fun _ => rfl⟩
      · by_cases hne : t' = t
        · subst hne
          simp
        · rw [Function.update_of_ne hne, ← h.exclusive t', hfree]
          simp [Ne.symm hne]
      · have hshared' := h.shared t'
        rw [hshared] at hshared'
        by_cases hne : t' = t
        · subst hne
          simp
        · rw [Function.update_of_ne hne]
          exact hshared'
  | false =>
      simp only [Bool.false_eq_true, if_false, Option.ite_none_right_eq_some,
        Option.some.injEq] at ha
      obtain ⟨hfree, rfl⟩ := ha
      refine ⟨fun t' => ?_, fun t' => ?_, fun hne => absurd hfree hne⟩
      · show l.exclusive = some t' ↔ _
        by_cases hne : t' = t
        · subst hne
          simp [hfree]
        · rw [Function.update_of_ne hne]
          exact h.exclusive t'
      · show (t :: l.shared).count t' = _
        rw [List.count_cons]
        by_cases hne : t' = t
        · subst hne
          simp [hcount]
        · rw [Function.update_of_ne hne, h.shared t']
          simp [Ne.symm hne]

/-- **To release it** in the mode in which the thread has it. -/
theorem Agrees.release (h : l.Agrees mode) (ht : mode t = some b) :
    ∃ l', l.release t b = some l' ∧ l'.Agrees (Function.update mode t none) := by
  unfold SrwLock.release
  cases b with
  | true =>
      have hexclusive := (h.exclusive t).2 ht
      have hshared := h.apart (by rw [hexclusive]; exact Option.some_ne_none t)
      refine ⟨{ l with exclusive := none }, by rw [if_pos rfl, if_pos hexclusive], fun t' => ?_, fun t' => ?_,
        fun hne => absurd rfl hne⟩
      · by_cases hne : t' = t
        · subst hne
          simp
        · rw [Function.update_of_ne hne, ← h.exclusive t', hexclusive]
          simp [Ne.symm hne]
      · show l.shared.count t' = _
        by_cases hne : t' = t
        · subst hne
          simp [hshared]
        · rw [Function.update_of_ne hne]
          exact h.shared t'
  | false =>
      have hcount : l.shared.count t = 1 := by rw [h.shared t, if_pos ht]
      have hmem : t ∈ l.shared := List.count_pos_iff.1 (by omega)
      have hfree : l.exclusive = none := by
        by_contra hne
        rw [h.apart hne] at hmem
        exact absurd hmem List.not_mem_nil
      refine ⟨{ l with shared := l.shared.erase t },
        by rw [if_neg Bool.false_ne_true, if_pos hmem], fun t' => ?_, fun t' => ?_,
        fun hne => absurd hfree hne⟩
      · show l.exclusive = some t' ↔ _
        by_cases hne : t' = t
        · subst hne
          simp [hfree]
        · rw [Function.update_of_ne hne]
          exact h.exclusive t'
      · show (l.shared.erase t).count t' = _
        by_cases hne : t' = t
        · subst hne
          rw [List.count_erase_self, hcount]
          simp
        · rw [Function.update_of_ne hne, List.count_erase_of_ne hne]
          exact h.shared t'

end SrwLock

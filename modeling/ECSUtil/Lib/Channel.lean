/-
# First-in first-out channels with their history

A queue between two threads is modelled together with what has gone through it:
everything that was ever pushed, everything that was popped, and what is still
queued.  The three are tied by a field of the structure, so that no operation
can lose, repeat or reorder an element (`Channel.pushed_eq`), and a proof about
the readers of a queue never has to carry that fact as an invariant of its own.

The lemmas on the history of each operation are in the simp set, and what a pop does is said in one
equation (`pop_eq_some`).
-/

import Mathlib.Data.List.Basic

/-- A first-in first-out queue with its history. -/
structure Channel (α : Type*) where
  /-- Everything pushed so far, the oldest first. -/
  pushed : List α
  /-- Everything popped so far, the oldest first. -/
  popped : List α
  /-- What is still queued, the next to be popped first. -/
  queue : List α
  pushed_eq : pushed = popped ++ queue
  deriving DecidableEq

namespace Channel

variable {α : Type*}

/-- The channel nothing has gone through. -/
def empty : Channel α := ⟨[], [], [], rfl⟩

/-- Append an element. -/
def push (c : Channel α) (a : α) : Channel α where
  pushed := c.pushed ++ [a]
  popped := c.popped
  queue := c.queue ++ [a]
  pushed_eq := by rw [c.pushed_eq, List.append_assoc]

/-- Take the oldest element that is queued, `none` on an empty queue. -/
def pop (c : Channel α) : Option (α × Channel α) :=
  match h : c.queue with
  | [] => none
  | a :: q => some (a, ⟨c.pushed, c.popped ++ [a], q, by rw [c.pushed_eq, h]; simp⟩)

/-- To a new queue nothing was pushed. -/
@[simp] theorem empty_pushed : (empty : Channel α).pushed = [] := rfl

/-- From a new queue nothing was popped. -/
@[simp] theorem empty_popped : (empty : Channel α).popped = [] := rfl

/-- In a new queue nothing is queued. -/
@[simp] theorem empty_queue : (empty : Channel α).queue = [] := rfl

/-- A push puts its element behind what was pushed. -/
@[simp] theorem push_pushed (c : Channel α) (a : α) : (c.push a).pushed = c.pushed ++ [a] := rfl

/-- A push leaves what was popped. -/
@[simp] theorem push_popped (c : Channel α) (a : α) : (c.push a).popped = c.popped := rfl

/-- A push puts its element behind what is queued. -/
@[simp] theorem push_queue (c : Channel α) (a : α) : (c.push a).queue = c.queue ++ [a] := rfl

/-- **What a pop does.**  The element comes from the front of the queue to the
end of what was popped, and nothing is pushed. -/
theorem pop_eq_some {c c' : Channel α} {a : α} (h : c.pop = some (a, c')) :
    c.queue = a :: c'.queue ∧ c'.popped = c.popped ++ [a] ∧ c'.pushed = c.pushed := by
  unfold pop at h
  split at h
  · simp at h
  · rename_i q hq
    obtain ⟨rfl, rfl⟩ := Prod.mk.inj (Option.some.inj h)
    exact ⟨hq, rfl, rfl⟩

end Channel

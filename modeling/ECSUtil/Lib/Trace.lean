/-
# Traces: what every event finds in its past

A trace is a list of events, the oldest first.  `Past Q l` says that each event
of `l` is in the relation `Q` to the events before it; a trace that grows by one
event keeps it when that event is in the relation to the whole trace
(`Past.snoc`).  Order properties of a protocol ("this is sent only after that",
"nothing of this kind after that") are such relations.  `latest f d l` is the value
that the last event of `l` to set it has set, `d` where none has.
-/

import Mathlib.Data.List.Basic

variable {α : Type*}

/-- Every event is in the relation `Q` to the events before it. -/
def Past (Q : List α → α → Prop) (l : List α) : Prop :=
  ∀ pre a post, l = pre ++ a :: post → Q pre a

variable {Q : List α → α → Prop} {l : List α}

/-- Of no events nothing is asked. -/
theorem Past.nil : Past Q [] := by
  intro pre a post h
  simp at h

/-- **A trace grows.** -/
theorem Past.snoc (h : Past Q l) {a : α} (ha : Q l a) : Past Q (l ++ [a]) := by
  intro pre b post heq
  rcases List.eq_nil_or_concat post with rfl | ⟨post', c, rfl⟩
  · obtain ⟨rfl, hab⟩ := List.append_inj' heq rfl
    obtain rfl := List.singleton_inj.1 hab
    exact ha
  · have heq' : l ++ [a] = (pre ++ b :: post') ++ [c] := by simpa using heq
    obtain ⟨rfl, -⟩ := List.append_inj' heq' rfl
    exact h pre b post' rfl

/-- Less may be asked of each. -/
theorem Past.imp {Q' : List α → α → Prop} (hQ : ∀ pre a, Q pre a → Q' pre a) (h : Past Q l) :
    Past Q' l := fun pre a post heq => hQ pre a (h pre a post heq)

/-- A trace without its last event. -/
theorem Past.init {a : α} (h : Past Q (l ++ [a])) : Past Q l := by
  rintro pre b post rfl
  exact h pre b (post ++ [a]) (by simp)

/-- The last event of a trace is in the relation to those before it. -/
theorem Past.last {a : α} (h : Past Q (l ++ [a])) : Q l a := h l a [] rfl

/-- The value the last event with a value has, and `d` where none has one. -/
def latest {β : Type*} (f : α → Option β) (d : β) (l : List α) : β :=
  l.foldl (fun x a => (f a).getD x) d

/-- Where nothing was set, the default stands. -/
@[simp] theorem latest_nil {β : Type*} (f : α → Option β) (d : β) : latest f d [] = d := rfl

/-- The last event counts, if it sets the value. -/
@[simp] theorem latest_snoc {β : Type*} (f : α → Option β) (d : β) (l : List α) (a : α) :
    latest f d (l ++ [a]) = (f a).getD (latest f d l) := by
  simp [latest]

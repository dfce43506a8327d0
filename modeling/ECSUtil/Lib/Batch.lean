/-
# Batches in a safe order

Items are added to a buffer; now and then the largest items of the buffer go out as a batch, each
once and in descending order.  Some items must not go out before others above them in the
order (`under`).

Every item added goes out (`Run.added_iff`).  Each goes out once, and after those it must wait
for, if and only if none is added after a batch that held it or one that had to wait for it
(`Run.good_iff`).

The two facts are proved for a log with one event more: what is added keeps what is good unless it
comes too late (`good_add`), and a batch changes nothing about it, if what must wait is smaller
(`good_batch`).
-/

import Mathlib.Data.List.Nodup
import Mathlib.Logic.Relation
import Mathlib.Order.Lattice
import ECSUtil.Lib.Trace

namespace Batch

/-- An item is added, or a batch goes out. -/
inductive Event (α : Type*)
  | add (a : α)
  | batch (l : List α)

variable {α : Type*}

/-- What has gone out, in order. -/
def sent (log : List (Event α)) : List α :=
  log.flatMap fun e => match e with
    | .add _ => []
    | .batch l => l

/-- What has been added, in order. -/
def added (log : List (Event α)) : List α :=
  log.flatMap fun e => match e with
    | .add a => [a]
    | .batch _ => []

/-- The buffer, and what happened so far. -/
structure State (α : Type*) where
  buffer : List α := []
  log : List (Event α) := []

/-- What is added has not gone out by that. -/
@[simp] theorem sent_add (log : List (Event α)) (a : α) : sent (log ++ [.add a]) = sent log := by
  simp [sent]

/-- What a batch takes has gone out. -/
@[simp] theorem sent_batch (log : List (Event α)) (l : List α) :
    sent (log ++ [.batch l]) = sent log ++ l := by
  simp [sent]

/-- What is added is the last that was. -/
@[simp] theorem added_add (log : List (Event α)) (a : α) :
    added (log ++ [.add a]) = added log ++ [a] := by
  simp [added]

/-- A batch adds nothing. -/
@[simp] theorem added_batch (log : List (Event α)) (l : List α) :
    added (log ++ [.batch l]) = added log := by
  simp [added]

variable (under : α → α → Prop)

/-- The item `b` comes too late for `a` to have gone out. -/
def Late (a b : α) : Prop := a = b ∨ under a b

/-- Nothing is added too late. -/
def NoneLate (log : List (Event α)) : Prop :=
  Past (fun before e => match e with
    | .add b => ∀ a ∈ sent before, ¬Late under a b
    | .batch _ => True) log

/-- Each item has gone out once, after those it must wait for, and none of these is left. -/
structure Good (s : State α) : Prop where
  once : (sent s.log).Nodup
  ordered : (sent s.log).Pairwise fun a b => ¬under a b
  apart : ∀ a ∈ sent s.log, ∀ b ∈ s.buffer, ¬Late under a b

variable {under} {s s' : State α}

/-- Nothing is too late with one item more if nothing was, and it is not. -/
theorem noneLate_add {log : List (Event α)} {b : α} :
    NoneLate under (log ++ [.add b]) ↔
      NoneLate under log ∧ ∀ a ∈ sent log, ¬Late under a b :=
  ⟨fun h => ⟨Past.init h, Past.last h⟩, fun h => Past.snoc h.1 h.2⟩

/-- A batch makes nothing late. -/
theorem noneLate_batch {log : List (Event α)} {l : List α} :
    NoneLate under (log ++ [.batch l]) ↔ NoneLate under log :=
  ⟨Past.init, fun h => Past.snoc h trivial⟩

/-- **What is added** keeps what is good unless it comes too late. It is too late where something is
out that had to wait for it. -/
theorem good_add {b : α} :
    Good under { buffer := s.buffer ++ [b], log := s.log ++ [.add b] } ↔
      Good under s ∧ ∀ a ∈ sent s.log, ¬Late under a b := by
  constructor
  · rintro ⟨honce, hord, hapart⟩
    rw [sent_add] at honce hord hapart
    exact ⟨⟨honce, hord, fun a ha c hc => hapart a ha c (List.mem_append_left _ hc)⟩,
      fun a ha => hapart a ha b (by simp)⟩
  · rintro ⟨h, hb⟩
    refine ⟨by rw [sent_add]; exact h.once, by rw [sent_add]; exact h.ordered, ?_⟩
    intro a ha c hc
    rw [sent_add] at ha
    rcases List.mem_append.1 hc with hc | hc
    · exact h.apart a ha c hc
    · exact List.mem_singleton.1 hc ▸ hb a ha

variable [LinearOrder α]

/-- One step. -/
inductive Step : State α → State α → Prop
  | add (s : State α) (a : α) :
      Step s { buffer := s.buffer ++ [a], log := s.log ++ [.add a] }
  | batch (s : State α) (l rest : List α) (hdesc : l.Pairwise (· > ·))
      (hmem : ∀ a, a ∈ s.buffer ↔ a ∈ l ∨ a ∈ rest) (hlt : ∀ a ∈ l, ∀ b ∈ rest, b < a) :
      Step s { buffer := rest, log := s.log ++ [.batch l] }

/-- Some steps from the start. -/
def Run (s : State α) : Prop := Relation.ReflTransGen Step {} s

/-- **A batch changes nothing** about what is good, if what must wait is smaller. The items go out
in descending order, and what is left is smaller than all of them. -/
theorem good_batch (hunder : ∀ a b, under a b → a < b) {l rest : List α}
    (hdesc : l.Pairwise (· > ·)) (hmem : ∀ a, a ∈ s.buffer ↔ a ∈ l ∨ a ∈ rest)
    (hlt : ∀ a ∈ l, ∀ b ∈ rest, b < a) :
    Good under { buffer := rest, log := s.log ++ [.batch l] } ↔ Good under s := by
  have hdown : ∀ {a b : α}, b < a → ¬Late under a b := by
    rintro a b h (rfl | hab)
    · exact lt_irrefl _ h
    · exact lt_asymm h (hunder a b hab)
  constructor
  · intro h
    have hsent := sent_batch s.log l
    obtain ⟨honce, -, hdisj⟩ := List.nodup_append.1 (hsent ▸ h.once)
    obtain ⟨hord, -, hcross⟩ := List.pairwise_append.1 (hsent ▸ h.ordered)
    refine ⟨honce, hord, fun a ha b hb => ?_⟩
    rcases (hmem b).1 hb with hb | hb
    · rintro (rfl | hab)
      · exact hdisj a ha a hb rfl
      · exact hcross a ha b hb hab
    · exact h.apart a (hsent ▸ List.mem_append_left _ ha) b hb
  · intro h
    have hl : ∀ a ∈ sent s.log, ∀ b ∈ l, ¬Late under a b := fun a ha b hb =>
      h.apart a ha b ((hmem b).2 (.inl hb))
    constructor
    · rw [sent_batch, List.nodup_append]
      refine ⟨h.once, hdesc.imp fun hab => ne_of_gt hab, ?_⟩
      rintro a ha b hb rfl
      exact hl a ha a hb (.inl rfl)
    · rw [sent_batch, List.pairwise_append]
      refine ⟨h.ordered, hdesc.imp fun hab hu => hdown hab (.inr hu), ?_⟩
      exact fun a ha b hb hab => hl a ha b hb (.inr hab)
    · intro a ha b hb
      rw [sent_batch, List.mem_append] at ha
      rcases ha with ha | ha
      · exact h.apart a ha b ((hmem b).2 (.inr hb))
      · exact hdown (hlt a ha b hb)

/-- **A run is good** if and only if nothing is added too late. The induction is on the run: a batch
is good always, and only an item that is added can spoil it. -/
theorem Run.good_iff (hunder : ∀ a b, under a b → a < b) (h : Run s) :
    Good under s ↔ NoneLate under s.log := by
  induction h with
  | refl =>
      exact ⟨fun _ => Past.nil, fun _ =>
        ⟨List.nodup_nil, List.Pairwise.nil, fun a ha => absurd ha List.not_mem_nil⟩⟩
  | tail _ hstep ih =>
      cases hstep with
      | add a => rw [good_add, noneLate_add, ih]
      | batch l rest hdesc hmem hlt => rw [good_batch hunder hdesc hmem hlt, noneLate_batch, ih]

/-- **Everything added has gone out or is left**, and nothing else. An item leaves the buffer only
with a batch. -/
theorem Run.added_iff (h : Run s) (a : α) :
    a ∈ added s.log ↔ a ∈ sent s.log ∨ a ∈ s.buffer := by
  induction h with
  | refl => simp [added, sent]
  | tail _ hstep ih =>
      cases hstep with
      | add b =>
          simp only [added_add, sent_add, List.mem_append, ih, or_assoc]
      | batch l rest hdesc hmem hlt =>
          rw [added_batch, sent_batch, List.mem_append, ih, hmem a, or_assoc]

/-- A run goes on with an item. -/
theorem Run.add (h : Run s) (a : α) :
    Run { buffer := s.buffer ++ [a], log := s.log ++ [.add a] } := h.tail (.add s a)

/-- A run goes on with a batch of the largest items. -/
theorem Run.batch (h : Run s) {l rest : List α} (hdesc : l.Pairwise (· > ·))
    (hmem : ∀ a, a ∈ s.buffer ↔ a ∈ l ∨ a ∈ rest) (hlt : ∀ a ∈ l, ∀ b ∈ rest, b < a) :
    Run { buffer := rest, log := s.log ++ [.batch l] } := h.tail (.batch s l rest hdesc hmem hlt)

/-- Nothing comes too late where nothing is added twice, or after one that had to wait for it. -/
theorem noneLate_of_pairwise (h : Run s)
    (hp : (added s.log).Pairwise fun a b => ¬Late under a b) : NoneLate under s.log := by
  induction h with
  | refl => exact Past.nil
  | @tail s₁ _ hrun hstep ih =>
      cases hstep with
      | add b =>
          rw [added_add, List.pairwise_append] at hp
          refine noneLate_add.2 ⟨ih hp.1, fun a ha => ?_⟩
          exact hp.2.2 a ((Run.added_iff hrun a).2 (.inl ha)) b (by simp)
      | batch l rest hdesc hmem hlt =>
          rw [added_batch] at hp
          exact noneLate_batch.2 (ih hp)

/-- **The largest items of a list in order**, and what is left. They are the end of the ascending
list, reversed. -/
theorem largest_spec {l : List α} (h : l.Pairwise (· < ·)) (n : ℕ) :
    (l.reverse.take n).Pairwise (· > ·) ∧
      (∀ a, a ∈ l ↔ a ∈ l.reverse.take n ∨ a ∈ l.take (l.length - n)) ∧
      ∀ a ∈ l.reverse.take n, ∀ b ∈ l.take (l.length - n), b < a := by
  have hsplit := List.take_append_drop (l.length - n) l
  obtain ⟨-, hdrop, hlt⟩ := List.pairwise_append.1 (hsplit.symm ▸ h)
  rw [List.take_reverse]
  refine ⟨List.pairwise_reverse.2 hdrop, fun a => ?_, fun a ha b hb => ?_⟩
  · rw [List.mem_reverse, or_comm, ← List.mem_append, hsplit]
  · exact hlt b hb a (List.mem_reverse.1 ha)

end Batch

/-
# The limit of a queue

`CSharedQueue` (`ECSUtil/CSharedQueue.h`): producers that push with a limit, and consumers that pop.  The
size is tested and the entry pushed in different critical sections, so the queue can have more entries
than the limit: one for each producer that has passed the test.  `GetCount` cuts the size to a `DWORD`.

`queue_bounded`: the queue never has more than that, and no entry is lost or duplicated.  Where that
number does not fit in a `DWORD` the test lets producers pass whatever the size (`queue_overflows`).

The invariant counts the entries together with the producers that have passed the test: a producer
passes it only where the queue is not longer than the limit (`Inv.goto`), and its push then takes
the place that was counted (`Inv.push`).  Where no number wraps, this is the bound at any time.
-/

import ECSUtil.Lib.StepSystem

namespace ECSUtil
namespace Queue

variable {α : Type*}

/-- The end at which an entry is pushed or popped. -/
inductive QueueEnd
  | back
  | front
  deriving DecidableEq

/-- Where a producer is in `push_back`, `push_front`, `emplace_back` or `emplace_front`. -/
inductive PushPoint (α : Type*)
  | idle
  /-- Before the test of `GetCount`. -/
  | count (rec : α) (side : QueueEnd)
  /-- Before the first test of `WaitForQueue`. -/
  | waitForQueue (rec : α) (side : QueueEnd)
  /-- Before the test of the loop; the event is linked. -/
  | loop (rec : α) (side : QueueEnd)
  /-- Before `pTestAbort`. -/
  | testAbort (rec : α) (side : QueueEnd)
  /-- In `lockEmpty.Lock`, for a second at most. -/
  | lock (rec : α) (side : QueueEnd)
  /-- Before the push. -/
  | push (rec : α) (side : QueueEnd)

namespace PushPoint

/-- The test has been passed, and the entry is not pushed. -/
def passed : PushPoint α → Bool
  | push _ _ => true
  | _ => false

/-- The entry of a push that has not returned. -/
def pending : PushPoint α → List α
  | idle => []
  | count rec _ | waitForQueue rec _ | loop rec _ | testAbort rec _ | lock rec _ | push rec _ => [rec]

end PushPoint

/-- The queue, the producers, the entries that a push was called with, and those that were popped. -/
structure QueueState (α : Type*) where
  queue : List α := []
  producers : List (PushPoint α)
  pushed : List α := []
  popped : List α := []

inductive QueueAction (α : Type*)
  /-- A producer calls a push. -/
  | call (t : ℕ) (rec : α) (side : QueueEnd)
  /-- A producer takes its next step; `bAbort` is what `pTestAbort` returns, if that is the step. -/
  | step (t : ℕ) (bAbort : Bool)
  /-- `pop_front` or `pop_back`. -/
  | pop (side : QueueEnd)

namespace QueueState

/-- A producer goes to another point. -/
def goto (s : QueueState α) (t : ℕ) (p : PushPoint α) : QueueState α :=
  { s with producers := s.producers.set t p }

/-- `GetCount`. -/
def getCount (s : QueueState α) : ℕ := s.queue.length % 0x100000000

/-- `std::list<T>::push_back` or `push_front`. -/
def insert (s : QueueState α) (rec : α) : QueueEnd → QueueState α
  | .back => { s with queue := s.queue ++ [rec] }
  | .front => { s with queue := rec :: s.queue }

/-- The push, one critical section at a time. -/
def next (dwMaxQueueSize : ℕ) (s : QueueState α) (t : ℕ) (bAbort : Bool) : Option (QueueState α) :=
  match s.producers[t]? with
  | none | some .idle => none
  | some (.count rec side) =>
      some (s.goto t
        (if dwMaxQueueSize > 0 ∧ s.getCount > dwMaxQueueSize then .waitForQueue rec side
         else .push rec side))
  | some (.waitForQueue rec side) =>
      some (s.goto t
        (if dwMaxQueueSize ≠ 0 ∧ s.queue.length > dwMaxQueueSize then .loop rec side
         else .push rec side))
  | some (.loop rec side) =>
      some (s.goto t
        (if s.queue.length > dwMaxQueueSize then .testAbort rec side else .push rec side))
  | some (.testAbort rec side) => some (s.goto t (if bAbort then .push rec side else .lock rec side))
  | some (.lock rec side) => some (s.goto t (.loop rec side))
  | some (.push rec side) => some ((s.insert rec side).goto t .idle)

/-- An entry is popped, if there is one. -/
def pop (s : QueueState α) : QueueEnd → Option (QueueState α)
  | .front =>
      match s.queue with
      | [] => none
      | rec :: rest => some { s with queue := rest, popped := s.popped ++ [rec] }
  | .back =>
      match s.queue.getLast? with
      | none => none
      | some rec => some { s with queue := s.queue.dropLast, popped := s.popped ++ [rec] }

/-- What an action does. -/
def act (dwMaxQueueSize : ℕ) (s : QueueState α) : QueueAction α → Option (QueueState α)
  | .call t rec side =>
      match s.producers[t]? with
      | some .idle => some { s.goto t (.count rec side) with pushed := rec :: s.pushed }
      | _ => none
  | .step t bAbort => s.next dwMaxQueueSize t bAbort
  | .pop side => s.pop side

/-- `P` producers and an empty queue, with a limit. -/
def system (α : Type*) (dwMaxQueueSize P : ℕ) : StepSystem (QueueState α) (QueueAction α) where
  init s := s = { producers := List.replicate P .idle }
  step := act dwMaxQueueSize

/-- The abort test stays false. -/
def NoAbort (_ : QueueState α) : QueueAction α → Prop
  | .step _ bAbort => bAbort = false
  | _ => True

/-- How many producers have passed the test. -/
def passing (s : QueueState α) : ℕ := s.producers.countP PushPoint.passed

/-- The entries of the pushes that have not returned. -/
def pending (s : QueueState α) : List α := s.producers.flatMap PushPoint.pending

/-- **What holds in every state**: the entries and the producers that have passed the test are not more
than the limit and all producers; what was pushed was popped, is in the queue or in a push. -/
structure Inv (dwMaxQueueSize P : ℕ) (s : QueueState α) : Prop where
  producers : s.producers.length = P
  bound : s.queue.length + s.passing ≤ dwMaxQueueSize + P
  entries : (s.popped ++ s.queue ++ s.pending).Perm s.pushed

variable {dwMaxQueueSize P : ℕ} {s s' : QueueState α} {t : ℕ} {p q : PushPoint α}

/-- How many have passed, after one producer went to another point. -/
theorem passing_goto (hq : s.producers[t]? = some q) :
    (s.goto t p).passing + (if q.passed = true then 1 else 0) =
      s.passing + (if p.passed = true then 1 else 0) := by
  obtain ⟨hlt, hget⟩ := List.getElem?_eq_some_iff.1 hq
  have hpos : q.passed = true → 0 < s.producers.countP PushPoint.passed := fun h =>
    List.countP_pos_iff.2 ⟨q, List.mem_of_getElem? hq, h⟩
  unfold passing goto
  dsimp only
  rw [List.countP_set hlt, hget]
  split_ifs with hpassed
  · have := hpos hpassed
    omega
  · have := hpos hpassed
    omega
  · omega
  · omega

/-- The entries in pushes, after one producer went to another point. -/
theorem pending_set {producers : List (PushPoint α)} (hq : producers[t]? = some q) :
    (q.pending ++ (producers.set t p).flatMap PushPoint.pending).Perm
      (p.pending ++ producers.flatMap PushPoint.pending) := by
  induction producers generalizing t with
  | nil => exact absurd hq (by simp)
  | cons first producers ih =>
      cases t with
      | zero =>
          obtain rfl : first = q := Option.some.inj hq
          rw [List.set_cons_zero, List.flatMap_cons, List.flatMap_cons]
          exact List.perm_append_comm_assoc ..
      | succ t =>
          rw [List.set_cons_succ, List.flatMap_cons, List.flatMap_cons]
          have hrest := (ih hq).append_left first.pending
          exact (List.perm_append_comm_assoc ..).trans
            (hrest.trans (List.perm_append_comm_assoc ..))

/-- What is pending is what it was, but for the thread that goes on. -/
theorem pending_goto (hq : s.producers[t]? = some q) :
    (q.pending ++ (s.goto t p).pending).Perm (p.pending ++ s.pending) := pending_set hq

/-- **A producer goes on**: it passes the test only where the queue is not longer than the limit.
What it is about to push stays the same entry, so nothing is lost or doubled. -/
theorem Inv.goto (h : Inv dwMaxQueueSize P s) (hq : s.producers[t]? = some q)
    (hpending : p.pending = q.pending)
    (hp : p.passed = true → s.queue.length ≤ dwMaxQueueSize) : Inv dwMaxQueueSize P (s.goto t p) := by
  have hlength : (s.goto t p).producers.length = P := (List.length_set ..).trans h.producers
  have hpassing := passing_goto (p := p) hq
  have hbound := h.bound
  refine ⟨hlength, ?_, ?_⟩
  · show s.queue.length + (s.goto t p).passing ≤ dwMaxQueueSize + P
    by_cases hpassed : p.passed = true
    · have hall : (s.goto t p).passing ≤ (s.goto t p).producers.length := List.countP_le_length
      have := hp hpassed
      omega
    · rw [if_neg hpassed] at hpassing
      split_ifs at hpassing <;> omega
  · have hsame := pending_goto (p := p) hq
    rw [hpending] at hsame
    exact (((List.perm_append_left_iff _).1 hsame).append_left _).trans h.entries

/-- **A test**: the producer waits on, or has passed it. The length is that of the moment of the
test; entries that other producers push in between are what the bound allows for. -/
theorem Inv.test (h : Inv dwMaxQueueSize P s) (hq : s.producers[t]? = some q) {c : Prop} [Decidable c]
    {wait : PushPoint α} {rec : α} {side : QueueEnd} (hrec : q.pending = [rec])
    (hwait : wait.pending = [rec] ∧ wait.passed = false) (hc : ¬ c → s.queue.length ≤ dwMaxQueueSize) :
    Inv dwMaxQueueSize P (s.goto t (if c then wait else .push rec side)) := by
  split_ifs with htest
  · exact h.goto hq (hwait.1.trans hrec.symm) fun hp => absurd (hp.symm.trans hwait.2) Bool.noConfusion
  · exact h.goto hq hrec.symm fun _ => hc htest

/-- **The push**: the producer has passed the test, and the entry takes its place. There are at most
as many that have passed as there are producers, and it is one of them. -/
theorem Inv.push (h : Inv dwMaxQueueSize P s) {rec : α} {side : QueueEnd}
    (hq : s.producers[t]? = some (.push rec side)) :
    Inv dwMaxQueueSize P ((s.insert rec side).goto t .idle) := by
  have hproducers : (s.insert rec side).producers = s.producers := by cases side <;> rfl
  have hqueue : (s.insert rec side).queue.Perm (rec :: s.queue) := by
    cases side with
    | back => exact List.perm_append_singleton ..
    | front => exact List.Perm.refl _
  have hlength : (s.insert rec side).queue.length = s.queue.length + 1 := hqueue.length_eq
  have hq' : (s.insert rec side).producers[t]? = some (.push rec side) := hproducers ▸ hq
  have hbound := h.bound
  refine ⟨(List.length_set ..).trans (hproducers ▸ h.producers), ?_, ?_⟩
  · have hpassing : ((s.insert rec side).goto t .idle).passing + 1 = (s.insert rec side).passing :=
      passing_goto hq'
    have hsame : (s.insert rec side).passing = s.passing := by
      unfold passing
      rw [hproducers]
    show (s.insert rec side).queue.length + _ ≤ _
    omega
  · have hpending : (rec :: ((s.insert rec side).goto t .idle).pending).Perm s.pending := by
      have := pending_goto (p := .idle) hq'
      rwa [show (s.insert rec side).pending = s.pending by unfold pending; rw [hproducers]] at this
    have hpopped : (s.insert rec side).popped = s.popped := by cases side <;> rfl
    have hpushed : (s.insert rec side).pushed = s.pushed := by cases side <;> rfl
    show ((s.insert rec side).popped ++ (s.insert rec side).queue ++ _).Perm (s.insert rec side).pushed
    rw [hpopped, hpushed, List.append_assoc]
    refine List.Perm.trans ?_ (List.append_assoc .. ▸ h.entries)
    refine List.Perm.append_left _ ((hqueue.append_right _).trans ?_)
    exact List.perm_middle.symm.trans (hpending.append_left _)

/-- **One step of a producer.** The size is read as a `DWORD`, which is exact here, since the queue
is never longer than the limit and one for each producer. -/
theorem Inv.next (h : Inv dwMaxQueueSize P s) (hmax : 0 < dwMaxQueueSize)
    (hfits : dwMaxQueueSize + P < 0x100000000)
    (hstep : s.next dwMaxQueueSize t false = some s') : Inv dwMaxQueueSize P s' := by
  have hcount : s.getCount = s.queue.length := Nat.mod_eq_of_lt (by have := h.bound; omega)
  unfold QueueState.next at hstep
  split at hstep
  · exact absurd hstep (by simp)
  · exact absurd hstep (by simp)
  · rename_i rec side hq
    obtain rfl := Option.some.inj hstep
    rw [hcount]
    exact h.test hq rfl ⟨rfl, rfl⟩ fun _ => by omega
  · rename_i rec side hq
    obtain rfl := Option.some.inj hstep
    exact h.test hq rfl ⟨rfl, rfl⟩ fun _ => by omega
  · rename_i rec side hq
    obtain rfl := Option.some.inj hstep
    exact h.test hq rfl ⟨rfl, rfl⟩ fun _ => by omega
  · rename_i rec side hq
    obtain rfl := Option.some.inj hstep
    exact h.goto hq rfl fun hp => absurd hp Bool.false_ne_true
  · rename_i rec side hq
    obtain rfl := Option.some.inj hstep
    exact h.goto hq rfl fun hp => absurd hp Bool.false_ne_true
  · rename_i rec side hq
    obtain rfl := Option.some.inj hstep
    exact h.push hq

/-- **A push is called.** The entry is pending from then on, until it is in the queue. -/
theorem Inv.call (h : Inv dwMaxQueueSize P s) {rec : α} {side : QueueEnd}
    (hq : s.producers[t]? = some .idle) :
    Inv dwMaxQueueSize P { s.goto t (.count rec side) with pushed := rec :: s.pushed } := by
  have hpassing : (s.goto t (.count rec side)).passing + 0 = s.passing + 0 := passing_goto hq
  have hpending : (s.goto t (.count rec side)).pending.Perm (rec :: s.pending) := pending_goto hq
  refine ⟨(List.length_set ..).trans h.producers, ?_, ?_⟩
  · show s.queue.length + (s.goto t (.count rec side)).passing ≤ _
    have := h.bound
    omega
  · show (s.popped ++ s.queue ++ (s.goto t (.count rec side)).pending).Perm (rec :: s.pushed)
    exact (hpending.append_left _).trans (List.perm_middle.trans (h.entries.cons rec))

/-- **An entry is popped.** The queue gets shorter, and what it loses is among the popped entries. -/
theorem Inv.pop (h : Inv dwMaxQueueSize P s) {side : QueueEnd} (hpop : s.pop side = some s') :
    Inv dwMaxQueueSize P s' := by
  have key : ∃ rec rest, s.queue.Perm (rec :: rest) ∧
      s' = { s with queue := rest, popped := s.popped ++ [rec] } := by
    cases side with
    | front =>
        simp only [QueueState.pop] at hpop
        split at hpop
        · exact absurd hpop (by simp)
        · rename_i rec rest hqueue
          exact ⟨rec, rest, hqueue ▸ List.Perm.refl _, (Option.some.inj hpop).symm⟩
    | back =>
        simp only [QueueState.pop] at hpop
        split at hpop
        · exact absurd hpop (by simp)
        · rename_i rec hlast
          refine ⟨rec, s.queue.dropLast, ?_, (Option.some.inj hpop).symm⟩
          rw [← List.dropLast_append_getLast? rec hlast]
          exact (List.dropLast_concat ..).symm ▸ List.perm_append_singleton ..
  obtain ⟨rec, rest, hqueue, rfl⟩ := key
  have hlength : s.queue.length = rest.length + 1 := hqueue.length_eq
  refine ⟨h.producers, ?_, ?_⟩
  · show rest.length + s.passing ≤ _
    have := h.bound
    omega
  · show (s.popped ++ [rec] ++ rest ++ s.pending).Perm s.pushed
    refine List.Perm.trans ?_ h.entries
    rw [List.append_assoc s.popped [rec] rest]
    exact (hqueue.symm.append_left _).append_right _

/-- **Every state of every run.** It holds at the start, where the queue is empty and no producer
has an entry, and every step keeps it. -/
theorem inv_reachable (hmax : 0 < dwMaxQueueSize) (hfits : dwMaxQueueSize + P < 0x100000000)
    (h : (system α dwMaxQueueSize P).ReachableBy NoAbort s) : Inv dwMaxQueueSize P s := by
  refine h.invariant ?_ ?_
  · rintro s rfl
    refine ⟨List.length_replicate, ?_, ?_⟩
    · show 0 + (List.replicate P (PushPoint.idle (α := α))).countP PushPoint.passed ≤ _
      have := List.countP_le_length (p := PushPoint.passed (α := α)) (l := List.replicate P .idle)
      rw [List.length_replicate] at this
      omega
    · show (([] : List α) ++ [] ++ (List.replicate P PushPoint.idle).flatMap PushPoint.pending).Perm []
      rw [List.flatMap_eq_nil_iff.2 fun p hp => List.eq_of_mem_replicate hp ▸ rfl]
      exact List.Perm.refl _
  · intro s a s' hs habort hstep
    cases a with
    | call t rec side =>
        have hstep : QueueState.act dwMaxQueueSize s (.call t rec side) = some s' := hstep
        simp only [act] at hstep
        split at hstep
        · rename_i hq
          exact Option.some.inj hstep ▸ hs.call hq
        · exact absurd hstep (by simp)
    | step t bAbort =>
        obtain rfl : bAbort = false := habort
        exact hs.next hmax hfits hstep
    | pop side => exact hs.pop hstep

/-- **The queue is bounded**: where the limit and the number of producers fit in a `DWORD` together, the
queue never has more entries than the limit and one for each producer, and what was pushed was popped, is
in the queue or in a push that has not returned, each as often as it was pushed. -/
theorem queue_bounded (hmax : 0 < dwMaxQueueSize) (hfits : dwMaxQueueSize + P < 0x100000000)
    (h : (system α dwMaxQueueSize P).ReachableBy NoAbort s) :
    s.queue.length ≤ dwMaxQueueSize + P ∧ (s.popped ++ s.queue ++ s.pending).Perm s.pushed := by
  have hinv := inv_reachable hmax hfits h
  exact ⟨Nat.le_of_add_right_le hinv.bound, hinv.entries⟩

instance : ∀ (s : QueueState α) (a : QueueAction α), Decidable (NoAbort s a)
  | _, .step _ bAbort => inferInstanceAs (Decidable (bAbort = false))
  | _, .call _ _ _ => isTrue trivial
  | _, .pop _ => isTrue trivial

/-- Two producers and the limit one: both pass the test before one pushes. -/
def twoProducers : List (QueueAction ℕ) :=
  [.call 0 7 .back, .step 0 false, .step 0 false, .call 0 8 .front, .step 0 false, .call 1 9 .back,
    .step 1 false, .step 0 false, .step 1 false]

/-- Two producers of a queue with a limit of one both pass the test before either pushes, and the
queue has two entries. -/
theorem queue_bounded_two : ∃ s : QueueState ℕ,
    ((system ℕ 1 2).restrict NoAbort).run twoProducers { producers := List.replicate 2 .idle } = some s ∧
    s.queue = [8, 7, 9] ∧
    s.queue.length ≤ 1 + 2 ∧ (s.popped ++ s.queue ++ s.pending).Perm s.pushed :=
  ⟨_, rfl, rfl, queue_bounded (by decide) (by decide) (.run_restrict twoProducers (.init rfl) rfl)⟩

/-- **A producer alone, where the limit is the largest `DWORD`**: no size is greater, so it is never
stopped. -/
theorem passes_alone (n : ℕ) : ∃ s : QueueState ℕ, (system ℕ 0xFFFFFFFF 1).ReachableBy NoAbort s ∧
    s.queue.length = n ∧ s.producers = [.idle] := by
  induction n with
  | zero => exact ⟨_, .init rfl, rfl, rfl⟩
  | succ n ih =>
      obtain ⟨⟨queue, producers, pushed, popped⟩, hs, hlength, rfl⟩ := ih
      have hcount : ¬ (0xFFFFFFFF > 0 ∧ queue.length % 0x100000000 > 0xFFFFFFFF) := by omega
      have htest : (system ℕ 0xFFFFFFFF 1).step ⟨queue, [.count n .back], n :: pushed, popped⟩
          (.step 0 false) = some ⟨queue, [.push n .back], n :: pushed, popped⟩ :=
        congrArg (fun p => some (⟨queue, [p], n :: pushed, popped⟩ : QueueState ℕ)) (if_neg hcount)
      have hcalled : (system ℕ 0xFFFFFFFF 1).ReachableBy NoAbort
          ⟨queue, [.count n .back], n :: pushed, popped⟩ :=
        .step (a := QueueAction.call 0 n .back) hs trivial rfl
      have hpassed : (system ℕ 0xFFFFFFFF 1).ReachableBy NoAbort
          ⟨queue, [.push n .back], n :: pushed, popped⟩ :=
        .step (a := QueueAction.step 0 false) hcalled rfl htest
      have hpushed : (system ℕ 0xFFFFFFFF 1).ReachableBy NoAbort
          ⟨queue ++ [n], [.idle], n :: pushed, popped⟩ :=
        .step (a := QueueAction.step 0 false) hpassed rfl rfl
      exact ⟨_, hpushed, List.length_append.trans (congrArg (· + 1) hlength), rfl⟩

/-- One producer and that limit: the queue can have more entries than both together. The size of a
queue of 2^32 entries is read as zero, so the producer goes on. -/
theorem queue_overflows : ¬ ∀ s : QueueState ℕ, (system ℕ 0xFFFFFFFF 1).ReachableBy NoAbort s →
    s.queue.length ≤ 0xFFFFFFFF + 1 ∧ (s.popped ++ s.queue ++ s.pending).Perm s.pushed := by
  intro h
  obtain ⟨s, hs, hlength, -⟩ := passes_alone 0x100000001
  have := (h s hs).1
  omega

end QueueState

end Queue
end ECSUtil

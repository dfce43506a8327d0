/-
# The order of the queue

`UpdatePerf`, `CThreadWork::DoWork`, `SearchMessageKill` and `SearchMessageBackModify`
(`ECSUtil/ThreadPool.h`), as they find and leave `MsgQueue`.

An entry is put behind the last one whose priority is not below its own, and entries are removed
from anywhere.  So the queue is sorted by priority, and by the order of sending within a priority, and
the first message that nobody processes is the one that is to be next: `queue_order`.

The order is one of the entries (`Before`): by priority, and by the ids, which are given out in the
order of sending.  But for the step that sends, each one leaves a part of the queue
(`Ordered.sublist`) or marks an entry where it is (`Ordered.setProcessing`).
-/

import Mathlib.Data.List.TakeWhile
import ECSUtil.ThreadPool.Grouping

namespace ECSUtil
namespace ThreadPool

/-- An entry goes before another: its priority is higher, or it is the same and it was sent before. -/
def Before (a b : CMsgEntry) : Prop :=
  b.uPriority < a.uPriority ∨ a.uPriority = b.uPriority ∧ a.ullUniqueID < b.ullUniqueID

/-- **The queue is in order**, and the next entry is new. -/
structure Ordered (s : State) : Prop where
  sorted : s.MsgQueue.Pairwise Before
  sent : ∀ m ∈ s.MsgQueue, m.ullUniqueID < s.nextID

/-- A message is the one that is to be next: nobody processes it, and it goes before all others that
nobody processes. -/
structure Next (s : State) (m : CMsgEntry) : Prop where
  mem : m ∈ s.MsgQueue
  free : m.bProcessing = false
  first : ∀ n ∈ s.MsgQueue, n.bProcessing = false → n = m ∨ Before m n

section

variable {s s' : State} {m : CMsgEntry}

/-- An entry in front of another one has no lower priority. -/
theorem Before.le {a b : CMsgEntry} (h : Before a b) : b.uPriority ≤ a.uPriority := by
  rcases h with h | h <;> omega

/-- The queue is in order while it and the next id stay the same. -/
theorem Ordered.of_eq (h : Ordered s) (hqueue : s'.MsgQueue = s.MsgQueue)
    (hnext : s'.nextID = s.nextID) : Ordered s' := by
  constructor
  · rw [hqueue]
    exact h.sorted
  · rw [hqueue, hnext]
    exact h.sent

/-- **Entries are removed**, from anywhere. Those that are left are in the order that they had. -/
theorem Ordered.sublist (h : Ordered s) (hqueue : List.Sublist s'.MsgQueue s.MsgQueue)
    (hnext : s'.nextID = s.nextID) : Ordered s' := by
  constructor
  · exact h.sorted.sublist hqueue
  · intro m hm
    rw [hnext]
    exact h.sent m (hqueue.subset hm)

/-- `bProcessing` has nothing to do with the order. -/
theorem Ordered.setProcessing (h : Ordered s) (m : CMsgEntry) (b : Bool) :
    Ordered (s.setProcessing m b) := by
  have hsame : ∀ n : CMsgEntry,
      (if n.ullUniqueID = m.ullUniqueID then { n with bProcessing := b } else n).uPriority =
          n.uPriority ∧
        (if n.ullUniqueID = m.ullUniqueID then { n with bProcessing := b } else n).ullUniqueID =
          n.ullUniqueID := by
    intro n
    split_ifs <;> exact ⟨rfl, rfl⟩
  constructor
  · refine List.pairwise_map.2 (h.sorted.imp fun {a a'} hbefore => ?_)
    unfold Before
    rw [(hsame a).1, (hsame a').1, (hsame a).2, (hsame a').2]
    exact hbefore
  · intro n hn
    obtain ⟨n', hn', rfl⟩ := List.mem_map.1 hn
    rw [(hsame n').2]
    exact h.sent n' hn'

/-- **An entry is inserted**: it is below what is in front of it, and above what is behind it. It is
behind those of its priority, as its id is the largest. -/
theorem Ordered.insert (h : Ordered s) {Rec : CMsgEntry} (hnew : Rec.ullUniqueID = s.nextID) :
    Ordered { s.insert Rec with nextID := s.nextID + 1 } := by
  let below : CMsgEntry → Bool := fun m => m.uPriority < Rec.uPriority
  let front := (s.MsgQueue.reverse.dropWhile below).reverse
  let back := (s.MsgQueue.reverse.takeWhile below).reverse
  have hsplit : s.MsgQueue = front ++ back := by
    rw [← List.reverse_append, List.takeWhile_append_dropWhile, List.reverse_reverse]
  have hsorted := h.sorted
  rw [hsplit, List.pairwise_append] at hsorted
  obtain ⟨hfront, hback, hacross⟩ := hsorted
  have hlow : ∀ b ∈ back, b.uPriority < Rec.uPriority := by
    intro b hb
    have hpass : below b = true := List.mem_takeWhile_imp (List.mem_reverse.1 hb)
    exact of_decide_eq_true hpass
  have hhigh : ∀ a ∈ front, Rec.uPriority ≤ a.uPriority := by
    intro a ha
    -- the last one in front is not below it, and the others are not below that one
    cases hdrop : s.MsgQueue.reverse.dropWhile below with
    | nil =>
        have hnil : front = [] := by
          show (s.MsgQueue.reverse.dropWhile below).reverse = []
          rw [hdrop, List.reverse_nil]
        exact absurd (hnil ▸ ha) List.not_mem_nil
    | cons x rest =>
        have hx : Rec.uPriority ≤ x.uPriority := by
          have hstop := List.head_dropWhile_not below (by rw [hdrop]; simp)
          simp only [hdrop, List.head_cons] at hstop
          exact Nat.not_lt.1 (of_decide_eq_false hstop)
        have heq : front = rest.reverse ++ [x] := by
          show (s.MsgQueue.reverse.dropWhile below).reverse = _
          rw [hdrop, List.reverse_cons]
        rw [heq] at ha hfront
        rcases List.mem_append.1 ha with ha | ha
        · have hbefore := (List.pairwise_append.1 hfront).2.2 a ha x List.mem_cons_self
          exact Nat.le_trans hx hbefore.le
        · rw [List.mem_singleton.1 ha]
          exact hx
  have hqueue : (s.insert Rec).MsgQueue = front ++ Rec :: back := rfl
  constructor
  · show (s.insert Rec).MsgQueue.Pairwise Before
    rw [hqueue, List.pairwise_append]
    refine ⟨hfront, List.pairwise_cons.2 ⟨fun b hb => .inl (hlow b hb), hback⟩, fun a ha b hb => ?_⟩
    rcases List.mem_cons.1 hb with rfl | hb
    · have hid : a.ullUniqueID < s.nextID := h.sent a (hsplit ▸ List.mem_append_left _ ha)
      have hle := hhigh a ha
      unfold Before
      omega
    · exact hacross a ha b hb
  · intro m hm
    have hm' : m ∈ front ++ Rec :: back := hm
    show m.ullUniqueID < s.nextID + 1
    rcases List.mem_append.1 hm' with hm' | hm'
    · exact Nat.lt_succ_of_lt (h.sent m (hsplit ▸ List.mem_append_left _ hm'))
    · rcases List.mem_cons.1 hm' with rfl | hm'
      · omega
      · exact Nat.lt_succ_of_lt (h.sent m (hsplit ▸ List.mem_append_right _ hm'))

/-- The first message that nobody processes is the next one. -/
theorem Ordered.next (h : Ordered s) (hfind : s.MsgQueue.find? (fun m => !m.bProcessing) = some m) :
    Next s m := by
  obtain ⟨hfree, before, after, hqueue, hbusy⟩ := List.find?_eq_some_iff_append.1 hfind
  have hsorted := h.sorted
  rw [hqueue, List.pairwise_append] at hsorted
  refine ⟨List.mem_of_find?_eq_some hfind, by simpa using hfree, fun n hn hn' => ?_⟩
  rw [hqueue] at hn
  rcases List.mem_append.1 hn with hn | hn
  · have hno := hbusy n hn
    rw [hn'] at hno
    exact absurd hno (by decide)
  · rcases List.mem_cons.1 hn with rfl | hn
    · exact .inl rfl
    · exact .inr ((List.pairwise_cons.1 hsorted.2.1).1 n hn)

/-- The queue is in order when a worker takes a message. -/
theorem Ordered.take (h : Ordered s) (i : ℕ) (w : CThreadWork) (ftNow : ℕ) :
    Ordered (s.take i w ftNow) := by
  unfold State.take
  cases s.MsgQueue.find? fun m => !m.bProcessing with
  | none => exact h
  | some m =>
      dsimp only
      split_ifs
      · exact h.of_eq rfl rfl
      · exact h.of_eq rfl rfl
      · have hset : Ordered ((s.setWork i { w with uGrouping := m.uGrouping }).setWork i
            { bInUse := true, uGrouping := m.uGrouping, pc := .processing m }) := h.of_eq rfl rfl
        exact hset.setProcessing m true

/-- The queue is in order when a message is removed. -/
theorem Ordered.remove (h : Ordered s) (m : CMsgEntry) (bProcessed : Bool) :
    Ordered (s.remove m bProcessed) := by
  unfold State.remove
  split_ifs
  · exact h.sublist (List.eraseP_sublist ..) rfl
  · exact h.setProcessing m false

/-- **Every step keeps the order.** Only a message that is sent is inserted, and all other steps
remove entries or mark them. -/
theorem Ordered.step {a : Action} (h : Ordered s) (hs : s.step a = some s') : Ordered s' := by
  cases a with
  | send uPriority uGrouping ftDueTime =>
      obtain rfl := Option.some.inj hs
      exact h.insert rfl
  | kill ids =>
      obtain rfl := Option.some.inj hs
      exact h.sublist List.filter_sublist rfl
  | take i ftNow =>
      obtain ⟨w, -, hs⟩ := Option.bind_eq_some_iff.1 hs
      obtain ⟨-, rfl⟩ := Option.ite_none_right_eq_some.1 hs |>.imp_right Option.some.inj
      exact h.take i w ftNow
  | process i bProcessed =>
      obtain ⟨w, -, hs⟩ := Option.bind_eq_some_iff.1 hs
      cases hpc : w.pc with
      | processing m =>
          rw [hpc] at hs
          exact Option.some.inj hs ▸ h.of_eq rfl rfl
      | _ => simp [hpc] at hs
  | remove i =>
      obtain ⟨w, -, hs⟩ := Option.bind_eq_some_iff.1 hs
      cases hpc : w.pc with
      | processed m bProcessed =>
          rw [hpc] at hs
          have hset : Ordered (s.setWork i { w with pc := .settled }) := h.of_eq rfl rfl
          exact Option.some.inj hs ▸ hset.remove m bProcessed
      | _ => simp [hpc] at hs
  | setIdle i =>
      obtain ⟨w, -, hs⟩ := Option.bind_eq_some_iff.1 hs
      obtain ⟨-, rfl⟩ := Option.ite_none_right_eq_some.1 hs |>.imp_right Option.some.inj
      exact h.of_eq rfl rfl
  | leave i =>
      obtain ⟨w, -, hs⟩ := Option.bind_eq_some_iff.1 hs
      have hset : Ordered (s.setWork i { w with pc := .leaving }) := h.of_eq rfl rfl
      cases hpc : w.pc with
      | ready => exact Option.some.inj (by simpa [hpc] using hs) ▸ hset
      | processing m => exact Option.some.inj (by simpa [hpc] using hs) ▸ hset
      | _ => simp [hpc] at hs
  | exitInstance i =>
      obtain ⟨w, -, hs⟩ := Option.bind_eq_some_iff.1 hs
      obtain ⟨-, rfl⟩ := Option.ite_none_right_eq_some.1 hs |>.imp_right Option.some.inj
      exact h.of_eq rfl rfl
  | startNewThread =>
      obtain rfl := Option.some.inj hs
      refine h.of_eq ?_ ?_ <;>
      · unfold State.startNewThread
        dsimp only
        split_ifs <;> rfl
  | deleteEntry i =>
      obtain ⟨w, -, hs⟩ := Option.bind_eq_some_iff.1 hs
      obtain ⟨-, rfl⟩ := Option.ite_none_right_eq_some.1 hs |>.imp_right Option.some.inj
      exact h.of_eq rfl rfl
  | discardPool =>
      obtain ⟨-, rfl⟩ := Option.ite_none_right_eq_some.1 hs |>.imp_right Option.some.inj
      exact h.sublist (List.nil_sublist _) rfl

/-- A worker that has a message after it looked for one found it first. -/
theorem find_of_take {i ftNow : ℕ} {w w' : CThreadWork} (hi : s.Pool[i]? = some w)
    (hready : w.pc = .ready) (hi' : (s.take i w ftNow).Pool[i]? = some w') (hm : m ∈ w'.message) :
    s.MsgQueue.find? (fun m => !m.bProcessing) = some m := by
  have hlt : i < s.Pool.length := (List.getElem?_eq_some_iff.1 hi).1
  -- a worker that still looks has no message
  have hnone : ∀ v : CThreadWork, v.pc = .ready → some v = some w' → m ∉ w'.message := by
    rintro v hv heq hmem
    rw [← Option.some.inj heq, CThreadWork.message, hv] at hmem
    exact absurd hmem (by simp)
  unfold State.take at hi'
  cases hfind : s.MsgQueue.find? fun m => !m.bProcessing with
  | none =>
      rw [hfind] at hi'
      exact absurd hm (hnone w hready (hi.symm.trans hi'))
  | some n =>
      rw [hfind] at hi'
      dsimp only at hi'
      have hset : ∀ v : CThreadWork, (s.setWork i v).Pool[i]? = some v := fun v =>
        List.getElem?_set_self hlt
      split_ifs at hi'
      · exact absurd hm (hnone { w with uGrouping := n.uGrouping } hready ((hset _).symm.trans hi'))
      · exact absurd hm (hnone { w with uGrouping := n.uGrouping } hready ((hset _).symm.trans hi'))
      · have hw' : some { bInUse := true, uGrouping := n.uGrouping, pc := .processing n } = some w' := by
          rw [← hi']
          exact (List.getElem?_set_self (show i < (s.Pool.set i _).length by
            rw [List.length_set]
            exact hlt)).symm
        rw [← Option.some.inj hw'] at hm
        exact hm

/-- The queue is in order in all runs. -/
theorem ordered_reachable (h : system.Reachable s) : Ordered s := by
  refine StepSystem.ReachableBy.invariant ?_ (fun _ _ _ hI _ hs => hI.step hs) h
  rintro _ rfl
  exact ⟨List.Pairwise.nil, fun m hm => absurd hm List.not_mem_nil⟩

end

/-- **The work queue is in order**: by priority, and within a priority in the order of sending; and a
worker that takes a message takes the one that is to be next. -/
theorem queue_order {s : State} (h : system.Reachable s) :
    s.MsgQueue.Pairwise Before ∧
      ∀ (i ftNow : ℕ) (s' : State) (w' : CThreadWork) (m : CMsgEntry),
        s.step (.take i ftNow) = some s' → s'.Pool[i]? = some w' → m ∈ w'.message → Next s m := by
  have hordered := ordered_reachable h
  refine ⟨hordered.sorted, fun i ftNow s' w' m hs hi' hm => ?_⟩
  obtain ⟨w, hi, hs⟩ := Option.bind_eq_some_iff.1 hs
  obtain ⟨hready, rfl⟩ := Option.ite_none_right_eq_some.1 hs |>.imp_right Option.some.inj
  exact hordered.next (find_of_take hi hready hi' hm)

/-- Four messages of two priorities; one worker has one of them back in the queue. -/
def fourMessages : List Action :=
  [.send 1 0 0, .send 2 0 0, .send 1 0 0, .startNewThread, .take 0 0, .process 0 false, .send 2 0 0,
    .remove 0, .setIdle 0]

/-- Four messages of three priorities, of which a worker takes the one that is next. -/
theorem queue_order_four : ∃ (s s' : State) (w : CThreadWork) (m : CMsgEntry),
    system.run fourMessages {} = some s ∧ s.MsgQueue.map CMsgEntry.ullUniqueID = [1, 3, 0, 2] ∧
    s.MsgQueue.Pairwise Before ∧ s.step (.take 0 0) = some s' ∧ s'.Pool[0]? = some w ∧
    m ∈ w.message ∧ Next s m := by
  have hrun := queue_order (.run fourMessages (.init rfl) rfl)
  exact ⟨_, _, _, _, rfl, rfl, hrun.1, rfl, rfl, rfl, hrun.2 0 0 _ _ _ rfl rfl rfl⟩

end ThreadPool
end ECSUtil

/-
# The messages of a thread pool

`SendMessageToPool`, `SendMessageToPoolDelayed`, `TransferFutureQueue`, `CThreadWork::DoWork`,
`SearchMessageKill`, `SearchMessageBackModify`, `DiscardPool` and `WaitForWorkFinished`
(`ECSUtil/ThreadPool.h`), as they hand on messages from `FutureMsgQueue` to `MsgQueue` and from there to a
worker.

A worker keeps a pointer to its entry of `MsgQueue` while it is in `DoProcess` without a lock.  The entry
stays where it is, marked, until that worker removes it (`Custody`); so no message is lost, duplicated or
processed by two workers (`messages_conserved`), and when both queues are empty all work is done
(`work_finished`).

`DiscardPool` clears the queues when no worker is left.  In the source `bDisable` has kept the
workers from taking another message by then, and `KillThreadQueueSRW` has told each of them to end
and waited for it; of the two there is only what they come to, as the guard of that step.
-/

import Mathlib.Data.List.Perm.Basic
import ECSUtil.ThreadPool.Order
import ECSUtil.ThreadPool.Future

namespace ECSUtil
namespace ThreadPool

/-- The entry of a message that is being processed. -/
def CMsgEntry.marked (m : CMsgEntry) : CMsgEntry := { m with bProcessing := true }

/-- The mark does not change the id. -/
@[simp] theorem CMsgEntry.marked_ullUniqueID (m : CMsgEntry) : m.marked.ullUniqueID = m.ullUniqueID := rfl

namespace State

def ids (s : State) : List ℕ := s.MsgQueue.map CMsgEntry.ullUniqueID

/-- What an action puts on the queue. -/
def sends (s : State) : Action → List ℕ
  | .send _ _ _ => [s.nextID]
  | _ => []

/-- What an action removes, since it was processed. -/
def finishes (s : State) : Action → List ℕ
  | .remove i =>
      match (s.Pool[i]?).map CThreadWork.pc with
      | some (.processed m true) => [m.ullUniqueID]
      | _ => []
  | _ => []

/-- What a search removes. -/
def kills (s : State) : Action → List ℕ
  | .kill ids =>
      (s.MsgQueue.filter fun m => !(m.bProcessing || !ids.contains m.ullUniqueID)).map
        CMsgEntry.ullUniqueID
  | _ => []

/-- What `DiscardPool` removes. -/
def discards (s : State) : Action → List ℕ
  | .discardPool => s.ids
  | _ => []

end State

/-- **A message that a worker has is in the queue**, marked, and no other worker has it. -/
structure Custody (s : State) : Prop where
  nodup : s.ids.Nodup
  held : ∀ w ∈ s.Pool, ∀ m ∈ w.message, m.marked ∈ s.MsgQueue
  apart : ∀ (i j : ℕ) (w v : CThreadWork), i ≠ j → s.Pool[i]? = some w → s.Pool[j]? = some v →
    ∀ m ∈ w.message, ∀ n ∈ v.message, m.ullUniqueID ≠ n.ullUniqueID

section

variable {s s' : State} {w v : CThreadWork} {i j : ℕ} {m n : CMsgEntry} {a : Action}

/-- An entry that is marked is the same message. -/
theorem ids_setProcessing (s : State) (m : CMsgEntry) (b : Bool) : (s.setProcessing m b).ids = s.ids := by
  unfold State.ids State.setProcessing
  rw [List.map_map]
  refine List.map_congr_left fun n _ => ?_
  simp only [Function.comp_apply]
  split_ifs <;> rfl

/-- An entry goes into the queue somewhere. -/
theorem insert_perm (s : State) (Rec : CMsgEntry) : (s.insert Rec).MsgQueue.Perm (Rec :: s.MsgQueue) := by
  unfold State.insert
  refine List.perm_middle.trans (.cons _ ?_)
  rw [← List.reverse_append, List.takeWhile_append_dropWhile, List.reverse_reverse]

/-- An entry is removed by its number. -/
theorem map_eraseP {l : List CMsgEntry} {k : ℕ} :
    (l.eraseP fun m => m.ullUniqueID = k).map CMsgEntry.ullUniqueID =
      (l.map CMsgEntry.ullUniqueID).erase k := by
  induction l with
  | nil => rfl
  | cons m l ih =>
      by_cases hm : m.ullUniqueID = k
      · rw [List.eraseP_cons_of_pos (by simpa using hm), List.map_cons, hm, List.erase_cons_head]
      · rw [List.eraseP_cons_of_neg (by simpa using hm), List.map_cons, List.map_cons, ih,
          List.erase_cons_tail (by simpa using hm)]

/-- Two entries of the same number are the same. -/
theorem Custody.inj (h : Custody s) (hm : m ∈ s.MsgQueue) (hn : n ∈ s.MsgQueue)
    (hid : m.ullUniqueID = n.ullUniqueID) : m = n :=
  List.inj_on_of_nodup_map h.nodup hm hn hid

/-- **A worker gives up its message, or keeps it**, while the queue is as it was. It gets none that
it did not have, so no other worker has it either. -/
theorem Custody.set (h : Custody s) (hi : s.Pool[i]? = some w) (hv : ∀ m ∈ v.message, m ∈ w.message) :
    Custody (s.setWork i v) := by
  refine ⟨h.nodup, fun u hu m hm => ?_, fun j k u u' hne hu hu' m hm n hn => ?_⟩
  · rcases List.mem_or_eq_of_mem_set hu with hu | rfl
    · exact h.held u hu m hm
    · exact h.held w (List.mem_of_getElem? hi) m (hv m hm)
  · simp only [State.setWork, List.getElem?_set] at hu hu'
    split_ifs at hu hu' with hj hlt hk hk hlt
    · exact absurd (hj.symm.trans hk) hne
    · obtain rfl := Option.some.inj hu
      exact h.apart i k w u' (hj ▸ hne) hi hu' m (hv m hm) n hn
    · obtain rfl := Option.some.inj hu'
      exact h.apart j i u w (hk ▸ hne) hu hi m hm n (hv n hn)
    · exact h.apart j k u u' hne hu hu' m hm n hn

/-- **The queue changes**, and what the workers have stays in it. Messages that no worker has may
come and go. -/
theorem Custody.queue (h : Custody s) (hpool : s'.Pool = s.Pool) (hnodup : s'.ids.Nodup)
    (hheld : ∀ w ∈ s.Pool, ∀ m ∈ w.message, m.marked ∈ s.MsgQueue → m.marked ∈ s'.MsgQueue) :
    Custody s' :=
  ⟨hnodup, fun w hw m hm => hheld w (hpool ▸ hw) m hm (h.held w (hpool ▸ hw) m hm), hpool ▸ h.apart⟩

/-- A message that nobody processes is with no worker. -/
theorem Custody.ne_of_free (h : Custody s) (hm : m ∈ s.MsgQueue) (hfree : m.bProcessing = false)
    (hv : v ∈ s.Pool) (hn : n ∈ v.message) : n.ullUniqueID ≠ m.ullUniqueID := by
  intro hid
  have heq : n.marked = m := h.inj (h.held v hv n hn) hm hid
  rw [← heq] at hfree
  exact Bool.noConfusion hfree

/-- **A worker takes a message** that nobody processes. It is marked in the step that takes it, and
no worker has a message that is not marked. -/
theorem Custody.takes (h : Custody s) (hm : m ∈ s.MsgQueue) (hfree : m.bProcessing = false)
    (hmessage : v.message = some m) : Custody ((s.setWork i v).setProcessing m true) := by
  have hne : ∀ u ∈ s.Pool, ∀ n ∈ u.message, n.ullUniqueID ≠ m.ullUniqueID := fun u hu n hn =>
    h.ne_of_free hm hfree hu hn
  refine ⟨(ids_setProcessing _ m true).symm ▸ h.nodup, fun u hu n hn => ?_,
    fun j k u u' hjk hu hu' n hn n' hn' => ?_⟩
  · rcases List.mem_or_eq_of_mem_set hu with hu | rfl
    · refine List.mem_map.2 ⟨n.marked, h.held u hu n hn, if_neg (hne u hu n hn)⟩
    · obtain rfl : m = n := Option.some.inj (hmessage.symm.trans hn)
      exact List.mem_map.2 ⟨m, hm, if_pos rfl⟩
  · simp only [State.setProcessing, State.setWork, List.getElem?_set] at hu hu'
    split_ifs at hu hu' with hj hlt hk hk hlt
    · exact absurd (hj.symm.trans hk) hjk
    · obtain rfl := Option.some.inj hu
      obtain rfl : m = n := Option.some.inj (hmessage.symm.trans hn)
      exact (hne u' (List.mem_of_getElem? hu') n' hn').symm
    · obtain rfl := Option.some.inj hu'
      obtain rfl : m = n' := Option.some.inj (hmessage.symm.trans hn')
      exact hne u (List.mem_of_getElem? hu) n hn
    · exact h.apart j k u u' hjk hu hu' n hn n' hn'

/-- A worker that takes a message has it in custody. -/
theorem Custody.take (h : Custody s) (hi : s.Pool[i]? = some w) (hready : w.pc = .ready) (ftNow : ℕ) :
    Custody (s.take i w ftNow) := by
  have hlook : ∀ uGrouping, Custody (s.setWork i { w with uGrouping := uGrouping }) := fun uGrouping =>
    h.set hi fun m hm => absurd hm (by simp [CThreadWork.message, hready])
  unfold State.take
  cases hfind : s.MsgQueue.find? fun m => !m.bProcessing with
  | none => exact h
  | some m =>
      dsimp only
      have hfree : m.bProcessing = false := by simpa using List.find?_some hfind
      split_ifs
      · exact hlook m.uGrouping
      · exact hlook m.uGrouping
      · exact (hlook m.uGrouping).takes (List.mem_of_find?_eq_some hfind) hfree rfl

/-- **A worker gives back its message**, or removes it. The entry leaves the queue, or stays in it
without its mark. -/
theorem Custody.removes (h : Custody s) (hi : s.Pool[i]? = some w) (hm : m ∈ w.message)
    (hv : v.message = none) (bProcessed : Bool) : Custody ((s.setWork i v).remove m bProcessed) := by
  have hset : Custody (s.setWork i v) := h.set hi fun n hn => absurd (hv ▸ hn) (by simp)
  have hne : ∀ u ∈ (s.setWork i v).Pool, ∀ n ∈ u.message, n.ullUniqueID ≠ m.ullUniqueID := by
    intro u hu n hn
    obtain ⟨j, hj⟩ := List.getElem?_of_mem hu
    simp only [State.setWork, List.getElem?_set] at hj
    split_ifs at hj with hij
    · obtain rfl := Option.some.inj hj
      exact absurd (hv ▸ hn) (by simp)
    · exact (h.apart i j w u hij hi hj m hm n hn).symm
  unfold State.remove
  split_ifs
  · refine hset.queue rfl ?_ fun u hu n hn hmem => ?_
    · show (((s.setWork i v).MsgQueue.eraseP _).map CMsgEntry.ullUniqueID).Nodup
      rw [map_eraseP]
      exact hset.nodup.erase _
    · refine (List.mem_eraseP_of_neg ?_).2 hmem
      exact fun hid => hne u hu n hn (of_decide_eq_true hid)
  · refine hset.queue rfl ((ids_setProcessing _ m false).symm ▸ hset.nodup) fun u hu n hn hmem => ?_
    exact List.mem_map.2 ⟨n.marked, hmem, if_neg (hne u hu n hn)⟩

/-- A new worker has nothing in custody. -/
theorem custody_startNewThread (h : Custody s) : Custody s.startNewThread := by
  unfold State.startNewThread
  dsimp only
  split_ifs with hlt
  · refine h.set (List.getElem?_eq_getElem hlt) fun m hm => absurd hm (by simp [CThreadWork.message])
  · have hnone : ∀ {k : ℕ} {u : CThreadWork}, (s.Pool ++ [{ pc := .ready }])[k]? = some u → ∀ m ∈ u.message,
        s.Pool[k]? = some u := by
      intro k u hu m hm
      rw [List.getElem?_append] at hu
      split_ifs at hu with hk
      · exact hu
      · obtain rfl := List.mem_singleton.1 (List.mem_of_getElem? hu)
        exact absurd hm (by simp [CThreadWork.message])
    refine ⟨h.nodup, fun u hu m hm => ?_, fun j k u u' hjk hu hu' m hm n hn => ?_⟩
    · obtain ⟨j, hj⟩ := List.getElem?_of_mem hu
      exact h.held u (List.mem_of_getElem? (hnone hj m hm)) m hm
    · exact h.apart j k u u' hjk (hnone hu m hm) (hnone hu' n hn) m hm n hn

/-- **Every step keeps the custody.** A new message has an id that none of the queue has, which is
where the order of the queue is used. -/
theorem Custody.step (h : Custody s) (ho : Ordered s) (hs : s.step a = some s') : Custody s' := by
  have hgives : ∀ {w v : CThreadWork} {i : ℕ}, s.Pool[i]? = some w → v.message = none → Custody (s.setWork i v) :=
    fun hi hv => h.set hi fun m hm => absurd (hv ▸ hm) (by simp)
  cases a with
  | send uPriority uGrouping ftDueTime =>
      obtain rfl := Option.some.inj hs
      have hperm := insert_perm s { ullUniqueID := s.nextID, uPriority := uPriority, uGrouping := uGrouping,
                                    ftDueTime := ftDueTime }
      refine h.queue rfl ?_ fun w _ m _ hmem => hperm.mem_iff.2 (List.mem_cons_of_mem _ hmem)
      refine ((hperm.map CMsgEntry.ullUniqueID).nodup_iff).2 (List.nodup_cons.2 ⟨fun hmem => ?_, h.nodup⟩)
      obtain ⟨m, hm, hid⟩ := List.mem_map.1 hmem
      exact absurd (ho.sent m hm) (by simp only [hid, Nat.lt_irrefl, not_false_eq_true])
  | kill ids =>
      obtain rfl := Option.some.inj hs
      refine h.queue rfl (h.nodup.sublist (List.filter_sublist.map _)) fun w _ m _ hmem => ?_
      exact List.mem_filter.2 ⟨hmem, Bool.true_or _⟩
  | take i ftNow =>
      obtain ⟨w, hi, hs⟩ := Option.bind_eq_some_iff.1 hs
      obtain ⟨hready, rfl⟩ := Option.ite_none_right_eq_some.1 hs |>.imp_right Option.some.inj
      exact h.take hi hready ftNow
  | process i bProcessed =>
      obtain ⟨w, hi, hs⟩ := Option.bind_eq_some_iff.1 hs
      cases hpc : w.pc with
      | processing m =>
          rw [hpc] at hs
          exact Option.some.inj hs ▸ h.set hi fun n hn => by simpa [CThreadWork.message, hpc] using hn
      | _ => simp [hpc] at hs
  | remove i =>
      obtain ⟨w, hi, hs⟩ := Option.bind_eq_some_iff.1 hs
      cases hpc : w.pc with
      | processed m bProcessed =>
          rw [hpc] at hs
          exact Option.some.inj hs ▸ h.removes hi (by simp [CThreadWork.message, hpc]) rfl bProcessed
      | _ => simp [hpc] at hs
  | setIdle i =>
      obtain ⟨w, hi, hs⟩ := Option.bind_eq_some_iff.1 hs
      obtain ⟨-, rfl⟩ := Option.ite_none_right_eq_some.1 hs |>.imp_right Option.some.inj
      exact hgives hi rfl
  | leave i =>
      obtain ⟨w, hi, hs⟩ := Option.bind_eq_some_iff.1 hs
      have hset : Custody (s.setWork i { w with pc := .leaving }) := hgives hi rfl
      cases hpc : w.pc with
      | ready => exact Option.some.inj (by simpa [hpc] using hs) ▸ hset
      | processing m => exact Option.some.inj (by simpa [hpc] using hs) ▸ hset
      | _ => simp [hpc] at hs
  | exitInstance i =>
      obtain ⟨w, hi, hs⟩ := Option.bind_eq_some_iff.1 hs
      obtain ⟨-, rfl⟩ := Option.ite_none_right_eq_some.1 hs |>.imp_right Option.some.inj
      exact hgives hi rfl
  | startNewThread => exact Option.some.inj hs ▸ custody_startNewThread h
  | deleteEntry i =>
      obtain ⟨w, hi, hs⟩ := Option.bind_eq_some_iff.1 hs
      obtain ⟨-, rfl⟩ := Option.ite_none_right_eq_some.1 hs |>.imp_right Option.some.inj
      exact hgives hi rfl
  | discardPool =>
      obtain ⟨hgone, rfl⟩ := Option.ite_none_right_eq_some.1 hs |>.imp_right Option.some.inj
      refine h.queue rfl List.nodup_nil fun w hw m hm => ?_
      have hpc : w.pc = .gone := of_decide_eq_true (List.all_eq_true.1 hgone w hw)
      exact absurd hm (by simp [CThreadWork.message, hpc])

/-- **Nothing is lost and nothing is made up**: what a step removes from the queue has left it for one
reason. -/
theorem Custody.ids_perm (h : Custody s) (hs : s.step a = some s') :
    (s'.ids ++ (s.finishes a ++ s.kills a ++ s.discards a)).Perm (s.ids ++ s.sends a) := by
  have hsame : s'.ids = s.ids → s.finishes a = [] → s.kills a = [] → s.discards a = [] → s.sends a = [] →
      (s'.ids ++ (s.finishes a ++ s.kills a ++ s.discards a)).Perm (s.ids ++ s.sends a) := by
    intro hids h₁ h₂ h₃ h₄
    rw [hids, h₁, h₂, h₃, h₄]
    exact .refl _
  cases a with
  | send uPriority uGrouping ftDueTime =>
      obtain rfl := Option.some.inj hs
      have hperm := (insert_perm s { ullUniqueID := s.nextID, uPriority := uPriority, uGrouping := uGrouping,
                                     ftDueTime := ftDueTime }).map CMsgEntry.ullUniqueID
      show (List.map CMsgEntry.ullUniqueID _ ++ []).Perm _
      rw [List.append_nil]
      exact hperm.trans (List.perm_append_singleton _ _).symm
  | kill ids =>
      obtain rfl := Option.some.inj hs
      show (List.map CMsgEntry.ullUniqueID _ ++ ([] ++ List.map CMsgEntry.ullUniqueID _ ++ [])).Perm (s.ids ++ [])
      rw [List.append_nil, List.append_nil, List.nil_append, ← List.map_append]
      exact (List.filter_append_perm _ _).map _
  | take i ftNow =>
      obtain ⟨w, hi, hs⟩ := Option.bind_eq_some_iff.1 hs
      obtain ⟨-, rfl⟩ := Option.ite_none_right_eq_some.1 hs |>.imp_right Option.some.inj
      refine hsame ?_ rfl rfl rfl rfl
      unfold State.take
      cases s.MsgQueue.find? fun m => !m.bProcessing with
      | none => rfl
      | some m =>
          dsimp only
          split_ifs
          · rfl
          · rfl
          · exact ids_setProcessing _ m true
  | process i bProcessed =>
      obtain ⟨w, hi, hs⟩ := Option.bind_eq_some_iff.1 hs
      cases hpc : w.pc with
      | processing m =>
          rw [hpc] at hs
          exact hsame (Option.some.inj hs ▸ rfl) rfl rfl rfl rfl
      | _ => simp [hpc] at hs
  | remove i =>
      obtain ⟨w, hi, hs⟩ := Option.bind_eq_some_iff.1 hs
      cases hpc : w.pc with
      | processed m bProcessed =>
          rw [hpc] at hs
          obtain rfl := Option.some.inj hs
          cases bProcessed with
          | false =>
              refine hsame (ids_setProcessing _ m false) ?_ rfl rfl rfl
              simp [State.finishes, hi, hpc]
          | true =>
              have hmem : m.ullUniqueID ∈ s.ids := by
                refine List.mem_map.2 ⟨m.marked, h.held w (List.mem_of_getElem? hi) m ?_, rfl⟩
                simp [CThreadWork.message, hpc]
              have hfinishes : s.finishes (.remove i) = [m.ullUniqueID] := by simp [State.finishes, hi, hpc]
              show ((s.MsgQueue.eraseP _).map CMsgEntry.ullUniqueID ++ (s.finishes (.remove i) ++ [] ++ [])).Perm
                (s.ids ++ [])
              rw [map_eraseP, hfinishes, List.append_nil, List.append_nil, List.append_nil]
              exact (List.perm_append_singleton _ _).trans (List.perm_cons_erase hmem).symm
      | _ => simp [hpc] at hs
  | setIdle i =>
      obtain ⟨w, hi, hs⟩ := Option.bind_eq_some_iff.1 hs
      obtain ⟨-, rfl⟩ := Option.ite_none_right_eq_some.1 hs |>.imp_right Option.some.inj
      exact hsame rfl rfl rfl rfl rfl
  | leave i =>
      obtain ⟨w, hi, hs⟩ := Option.bind_eq_some_iff.1 hs
      cases hpc : w.pc with
      | ready => exact hsame (Option.some.inj (by simpa [hpc] using hs) ▸ rfl) rfl rfl rfl rfl
      | processing m => exact hsame (Option.some.inj (by simpa [hpc] using hs) ▸ rfl) rfl rfl rfl rfl
      | _ => simp [hpc] at hs
  | exitInstance i =>
      obtain ⟨w, hi, hs⟩ := Option.bind_eq_some_iff.1 hs
      obtain ⟨-, rfl⟩ := Option.ite_none_right_eq_some.1 hs |>.imp_right Option.some.inj
      exact hsame rfl rfl rfl rfl rfl
  | startNewThread =>
      obtain rfl := Option.some.inj hs
      refine hsame ?_ rfl rfl rfl rfl
      unfold State.startNewThread
      dsimp only
      split_ifs <;> rfl
  | deleteEntry i =>
      obtain ⟨w, hi, hs⟩ := Option.bind_eq_some_iff.1 hs
      obtain ⟨-, rfl⟩ := Option.ite_none_right_eq_some.1 hs |>.imp_right Option.some.inj
      exact hsame rfl rfl rfl rfl rfl
  | discardPool =>
      obtain ⟨-, rfl⟩ := Option.ite_none_right_eq_some.1 hs |>.imp_right Option.some.inj
      show s.ids.Perm (s.ids ++ [])
      rw [List.append_nil]

end

/-- No `DoProcess` throws: a worker that has a message does not leave. -/
def Returns (s : State) : Action → Prop
  | .leave i => (s.Pool[i]?).bind CThreadWork.message = none
  | _ => True

instance (s : State) : (a : Action) → Decidable (Returns s a)
  | .leave i => inferInstanceAs (Decidable ((s.Pool[i]?).bind CThreadWork.message = none))
  | .send _ _ _ | .kill _ | .take _ _ | .process _ _ | .remove _ | .setIdle _ | .exitInstance _
  | .startNewThread | .deleteEntry _ | .discardPool => .isTrue trivial

/-- Who marked an entry works on it. -/
def MarksHeld (s : State) : Prop :=
  ∀ m ∈ s.MsgQueue, m.bProcessing = true → ∃ w ∈ s.Pool, ∃ n ∈ w.message, n.ullUniqueID = m.ullUniqueID

section

variable {s s' : State} {w v : CThreadWork} {i : ℕ} {a : Action}

/-- A worker keeps its message, or had none. -/
theorem MarksHeld.set (h : MarksHeld s) (hi : s.Pool[i]? = some w)
    (hv : ∀ n ∈ w.message, ∃ n' ∈ v.message, n'.ullUniqueID = n.ullUniqueID) : MarksHeld (s.setWork i v) := by
  intro m hm hmark
  obtain ⟨u, hu, n, hn, hid⟩ := h m hm hmark
  have hlt := (List.getElem?_eq_some_iff.1 hi).1
  obtain ⟨j, hj⟩ := List.getElem?_of_mem hu
  rcases eq_or_ne i j with rfl | hne
  · obtain rfl := Option.some.inj (hi.symm.trans hj)
    obtain ⟨n', hn', hid'⟩ := hv n hn
    exact ⟨v, List.mem_set hlt v, n', hn', hid'.trans hid⟩
  · refine ⟨u, List.mem_of_getElem? (i := j) ?_, n, hn, hid⟩
    exact (List.getElem?_set_ne hne).trans hj

/-- **Every step but an exception keeps the marks.** A message is marked where a worker takes it,
and the mark goes where the worker gives it back. -/
theorem MarksHeld.step (h : MarksHeld s) (hc : Custody s) (hR : Returns s a) (hs : s.step a = some s') :
    MarksHeld s' := by
  have hset : ∀ {w v : CThreadWork} {i : ℕ}, s.Pool[i]? = some w → w.message = none → MarksHeld (s.setWork i v) :=
    fun hi hw => h.set hi fun n hn => absurd (hw ▸ hn) (by simp)
  have hmessage : ∀ {w : CThreadWork} {pc : Pc}, w.pc = pc → (∀ m, pc ≠ .processing m) →
      (∀ m b, pc ≠ .processed m b) → w.message = none := by
    intro w pc hpc h₁ h₂
    cases pc <;> simp_all [CThreadWork.message]
  cases a with
  | send uPriority uGrouping ftDueTime =>
      obtain rfl := Option.some.inj hs
      intro m hm hmark
      rcases List.mem_cons.1 ((insert_perm s _).mem_iff.1 hm) with rfl | hm
      · cases hmark
      · exact h m hm hmark
  | kill ids =>
      obtain rfl := Option.some.inj hs
      exact fun m hm => h m (List.mem_filter.1 hm).1
  | take i ftNow =>
      obtain ⟨w, hi, hs⟩ := Option.bind_eq_some_iff.1 hs
      obtain ⟨hready, rfl⟩ := Option.ite_none_right_eq_some.1 hs |>.imp_right Option.some.inj
      have hnone : w.message = none := by rw [CThreadWork.message, hready]
      have hlt := (List.getElem?_eq_some_iff.1 hi).1
      unfold State.take
      cases s.MsgQueue.find? fun m => !m.bProcessing with
      | none => exact h
      | some m =>
          dsimp only
          split_ifs
          · exact hset hi hnone
          · exact hset hi hnone
          · have hlook : MarksHeld (s.setWork i { w with uGrouping := m.uGrouping }) := hset hi hnone
            have hi' : (s.setWork i { w with uGrouping := m.uGrouping }).Pool[i]? =
              some { w with uGrouping := m.uGrouping } := List.getElem?_set_self hlt
            intro n hn hmark
            obtain ⟨n', hn', rfl⟩ := List.mem_map.1 hn
            by_cases hid : n'.ullUniqueID = m.ullUniqueID
            · refine ⟨_, List.mem_set ?_ _, m, rfl, ?_⟩
              · show i < (s.Pool.set i _).length
                rw [List.length_set]
                exact hlt
              · rw [if_pos hid]
                exact hid.symm
            · rw [if_neg hid] at hmark ⊢
              exact hlook.set hi' (fun n hn => absurd hn (by simp [CThreadWork.message, hready])) n' hn' hmark
  | process i bProcessed =>
      obtain ⟨w, hi, hs⟩ := Option.bind_eq_some_iff.1 hs
      cases hpc : w.pc with
      | processing m =>
          rw [hpc] at hs
          exact Option.some.inj hs ▸ h.set hi fun n hn => ⟨n, by simpa [CThreadWork.message, hpc] using hn, rfl⟩
      | _ => simp [hpc] at hs
  | remove i =>
      obtain ⟨w, hi, hs⟩ := Option.bind_eq_some_iff.1 hs
      cases hpc : w.pc with
      | processed m bProcessed =>
          rw [hpc] at hs
          obtain rfl := Option.some.inj hs
          have hm : m ∈ w.message := by simp [CThreadWork.message, hpc]
          -- whoever works on another entry still does
          have hother : ∀ n ∈ s.MsgQueue, n.bProcessing = true → n.ullUniqueID ≠ m.ullUniqueID →
              ∃ u ∈ (s.setWork i { w with pc := .settled }).Pool, ∃ n' ∈ u.message,
                n'.ullUniqueID = n.ullUniqueID := by
            intro n hn hmark hne
            obtain ⟨u, hu, n', hn', hid⟩ := h n hn hmark
            obtain ⟨j, hj⟩ := List.getElem?_of_mem hu
            have hij : i ≠ j := by
              rintro rfl
              obtain rfl := Option.some.inj (hi.symm.trans hj)
              exact hne (hid.symm.trans (congrArg _ (Option.some.inj (hn'.symm.trans hm))))
            exact ⟨u, List.mem_of_getElem? ((List.getElem?_set_ne hij).trans hj), n', hn', hid⟩
          intro n hn hmark
          unfold State.remove at hn ⊢
          split_ifs at hn ⊢ with hb
          · have hmem := List.mem_of_mem_eraseP hn
            refine hother n hmem hmark fun hid => ?_
            have hnot : m.ullUniqueID ∉ (s.MsgQueue.eraseP fun m' => m'.ullUniqueID = m.ullUniqueID).map
                CMsgEntry.ullUniqueID := by
              rw [map_eraseP]
              exact hc.nodup.not_mem_erase
            exact hnot (List.mem_map.2 ⟨n, hn, hid⟩)
          · obtain ⟨n', hn', rfl⟩ := List.mem_map.1 hn
            split_ifs at hmark ⊢ with hid
            exact hother n' hn' hmark hid
      | _ => simp [hpc] at hs
  | setIdle i =>
      obtain ⟨w, hi, hs⟩ := Option.bind_eq_some_iff.1 hs
      obtain ⟨hpc, rfl⟩ := Option.ite_none_right_eq_some.1 hs |>.imp_right Option.some.inj
      exact hset hi (hmessage hpc (fun _ => Pc.noConfusion) fun _ _ => Pc.noConfusion)
  | leave i =>
      obtain ⟨w, hi, hs⟩ := Option.bind_eq_some_iff.1 hs
      have hleft : MarksHeld (s.setWork i { w with pc := .leaving }) := by
        refine hset hi ?_
        rw [Returns, hi] at hR
        exact hR
      cases hpc : w.pc with
      | ready => exact Option.some.inj (by simpa [hpc] using hs) ▸ hleft
      | processing m => exact Option.some.inj (by simpa [hpc] using hs) ▸ hleft
      | _ => simp [hpc] at hs
  | exitInstance i =>
      obtain ⟨w, hi, hs⟩ := Option.bind_eq_some_iff.1 hs
      obtain ⟨hpc, rfl⟩ := Option.ite_none_right_eq_some.1 hs |>.imp_right Option.some.inj
      exact hset hi (hmessage hpc (fun _ => Pc.noConfusion) fun _ _ => Pc.noConfusion)
  | startNewThread =>
      obtain rfl := Option.some.inj hs
      unfold State.startNewThread
      dsimp only
      split_ifs with hlt
      · have hgone : (s.Pool.get ⟨_, hlt⟩).pc = .gone := of_decide_eq_true (List.findIdx_getElem (w := hlt))
        exact hset (List.getElem?_eq_getElem hlt) (hmessage hgone (fun _ => Pc.noConfusion) fun _ _ => Pc.noConfusion)
      · intro m hm hmark
        obtain ⟨w, hw, hn⟩ := h m hm hmark
        exact ⟨w, List.mem_append_left _ hw, hn⟩
  | deleteEntry i =>
      obtain ⟨w, hi, hs⟩ := Option.bind_eq_some_iff.1 hs
      obtain ⟨hpc, rfl⟩ := Option.ite_none_right_eq_some.1 hs |>.imp_right Option.some.inj
      exact hset hi (hmessage hpc (fun _ => Pc.noConfusion) fun _ _ => Pc.noConfusion)
  | discardPool =>
      obtain ⟨-, rfl⟩ := Option.ite_none_right_eq_some.1 hs |>.imp_right Option.some.inj
      exact fun m hm => absurd hm List.not_mem_nil

end

/-- **An entry is marked exactly when one worker works on it**, as long as no `DoProcess` throws; so a
message that was not processed can be taken again, and none is stuck. -/
theorem marks_exact {s : State} (h : system.ReachableBy Returns s) {m : CMsgEntry} (hm : m ∈ s.MsgQueue) :
    m.bProcessing = true ↔
      ∃! i : ℕ, ∃ w, s.Pool[i]? = some w ∧ ∃ n ∈ w.message, n.marked = m := by
  obtain ⟨hcustody, hmarks⟩ : Custody s ∧ MarksHeld s := by
    refine StepSystem.ReachableBy.invariant_reachable (I := fun s => Custody s ∧ MarksHeld s) ?_ ?_ h
    · rintro _ rfl
      exact ⟨⟨List.nodup_nil, fun w hw => absurd hw List.not_mem_nil, fun i j w v _ hw => absurd hw (by simp)⟩,
        fun m hm => absurd hm List.not_mem_nil⟩
    · exact fun s a s' hr h hC hs => ⟨h.1.step (ordered_reachable hr.reachable) hs, h.2.step h.1 hC hs⟩
  constructor
  · intro hmark
    obtain ⟨w, hw, n, hn, hid⟩ := hmarks m hm hmark
    obtain ⟨i, hi⟩ := List.getElem?_of_mem hw
    have heq : n.marked = m := hcustody.inj (hcustody.held w hw n hn) hm hid
    refine ⟨i, ⟨w, hi, n, hn, heq⟩, ?_⟩
    rintro j ⟨v, hj, n', hn', heq'⟩
    by_contra hne
    refine hcustody.apart j i v w hne hj hi n' hn' n hn ?_
    rw [← n'.marked_ullUniqueID, ← n.marked_ullUniqueID, heq, heq']
  · rintro ⟨i, ⟨w, hi, n, hn, rfl⟩, -⟩
    rfl

/-- A message that could not be processed is back, and another one is with a worker. -/
def oneBack : List Action :=
  [.send 0 0 0, .startNewThread, .take 0 0, .process 0 false, .remove 0, .send 5 0 0, .startNewThread,
    .take 1 0]

/-- One of two workers is back from `DoProcess`, the other one is in it. Each message that is marked
is that of one of them. -/
theorem marks_exact_two : ∃ s, (system.restrict Returns).run oneBack {} = some s ∧
    ∀ m ∈ s.MsgQueue, m.bProcessing = true ↔
      ∃! i : ℕ, ∃ w, s.Pool[i]? = some w ∧ ∃ n ∈ w.message, n.marked = m :=
  ⟨_, rfl, fun _ hm => marks_exact (.run_restrict oneBack (.init rfl) rfl) hm⟩

/-- A pool with its delayed messages, and what became of the messages. -/
structure Work (ι : Type*) where
  pool : State := {}
  future : Transfer ι := {}
  /-- History: the numbers of the messages that were put on `MsgQueue`. -/
  sent : List ℕ := []
  processed : List ℕ := []
  /-- History: what was removed by a search. -/
  killed : List ℕ := []
  discarded : List ℕ := []
  /-- History: the delayed messages, with the numbers that they have on `MsgQueue`. -/
  relayed : List (CMsgEntry × ℕ) := []
  /-- History: the delayed messages that `DiscardPool` removed. -/
  dropped : List CMsgEntry := []

inductive Work.Act (ι : Type*)
  | pool (a : Action)
  | future (e : Event ι)

namespace Work

variable {ι : Type*}

/-- A step of the pool; `DiscardPool` clears both queues. -/
def poolStep (s : Work ι) (a : Action) : Option (Work ι) :=
  (s.pool.step a).map fun pool =>
    { s with
      pool := pool
      sent := s.sent ++ s.pool.sends a
      processed := s.processed ++ s.pool.finishes a
      killed := s.killed ++ s.pool.kills a
      discarded := s.discarded ++ s.pool.discards a
      future := if a = .discardPool then { s.future with FutureMsgQueue := [] } else s.future
      dropped := if a = .discardPool then s.dropped ++ s.future.FutureMsgQueue else s.dropped }

/-- The message that a pass is about to send. -/
def relays (s : Transfer ι) : Event ι → Option CMsgEntry
  | .turn t =>
      match (s.pass t).map Pass.stage with
      | some (.found m) => some m
      | _ => none
  | _ => none

variable [DecidableEq ι]

/-- A step with the delayed messages; a pass sends its message with `SendMessageToPool`. -/
def futureStep (s : Work ι) (e : Event ι) : Option (Work ι) :=
  (s.future.step e).bind fun future =>
    match relays s.future e with
    | none => some { s with future := future }
    | some m =>
        (poolStep s (.send m.uPriority m.uGrouping 0)).map fun s' =>
          { s' with future := future, relayed := s.relayed ++ [(m, s.pool.nextID)] }

def step (s : Work ι) : Work.Act ι → Option (Work ι)
  | .pool a => s.poolStep a
  | .future e => s.futureStep e

end Work

/-- A pool at first without threads and messages. -/
def works (ι : Type*) [DecidableEq ι] : StepSystem (Work ι) (Work.Act ι) where
  init s := s = {}
  step := Work.step

/-- **The invariant** of what became of the messages. -/
structure Accounted {ι : Type*} (s : Work ι) : Prop where
  ordered : Ordered s.pool
  custody : Custody s.pool
  fresh : ∀ k ∈ s.sent, k < s.pool.nextID
  nodup : s.sent.Nodup
  perm : s.sent.Perm (s.pool.ids ++ (s.processed ++ s.killed ++ s.discarded))
  relayed : ∀ m k, (m, k) ∈ s.relayed → k ∈ s.sent

/-- **What becomes of a delayed message**: it waits, or it was sent, or `DiscardPool` removed it. -/
structure Followed {ι : Type*} (s : Work ι) : Prop where
  id_lt : ∀ m ∈ s.future.posted, m.ullUniqueID < s.future.nextID
  id_inj : ∀ m ∈ s.future.posted, ∀ n ∈ s.future.posted, m.ullUniqueID = n.ullUniqueID → m = n
  queued : ∀ m ∈ s.future.FutureMsgQueue, m ∈ s.future.posted
  found : ∀ t p m, s.future.pass t = some p → p.message = some m → m ∈ s.future.posted
  sent : ∀ t p m, s.future.pass t = some p → p.stage = .sent m → ∃ k, (m, k) ∈ s.relayed
  kept : ∀ m ∈ s.future.posted, m ∈ s.future.FutureMsgQueue ∨ (∃ k, (m, k) ∈ s.relayed) ∨ m ∈ s.dropped

section Works

variable {ι : Type*} {s s' : Work ι}

/-- The ids go up, and a message that is sent gets a new one. -/
theorem nextID_of_step {p p' : State} {a : Action} (hs : p.step a = some p') :
    p.nextID ≤ p'.nextID ∧ ∀ k ∈ p.sends a, k < p'.nextID ∧ p.nextID ≤ k := by
  cases a with
  | send uPriority uGrouping ftDueTime =>
      obtain rfl := Option.some.inj hs
      refine ⟨Nat.le_succ _, fun k hk => ?_⟩
      obtain rfl := List.mem_singleton.1 hk
      exact ⟨Nat.lt_succ_self _, Nat.le_refl _⟩
  | _ =>
      refine ⟨Nat.le_of_eq ?_, fun k hk => absurd hk List.not_mem_nil⟩
      grind [State.step, State.take, State.remove, State.setWork, State.setProcessing, State.startNewThread]

/-- A step of the pool keeps account of the messages. -/
theorem Accounted.poolStep (h : Accounted s) {a : Action} (hs : s.poolStep a = some s') : Accounted s' := by
  obtain ⟨p, hp, rfl⟩ := Option.map_eq_some_iff.1 hs
  obtain ⟨hle, hsends⟩ := nextID_of_step hp
  refine ⟨h.ordered.step hp, h.custody.step h.ordered hp, fun k hk => ?_, ?_, ?_, fun m k hk => ?_⟩
  · rcases List.mem_append.1 hk with hk | hk
    · exact Nat.lt_of_lt_of_le (h.fresh k hk) hle
    · exact (hsends k hk).1
  · refine List.nodup_append.2 ⟨h.nodup, ?_, ?_⟩
    · cases a <;> simp [State.sends]
    · intro k hk k' hk'
      exact Nat.ne_of_lt (Nat.lt_of_lt_of_le (h.fresh k hk) (hsends k' hk').2)
  · refine List.perm_iff_count.2 fun k => ?_
    have hold := h.perm.count_eq k
    have hstep := (h.custody.ids_perm hp).count_eq k
    simp only [List.count_append] at hold hstep ⊢
    omega
  · exact List.mem_append_left _ (h.relayed m k hk)

variable [DecidableEq ι]

/-- What a step with the delayed messages is. -/
theorem futureStep_cases {e : Event ι} (hs : s.futureStep e = some s') :
    ∃ f, s.future.step e = some f ∧
      ((Work.relays s.future e = none ∧ s' = { s with future := f }) ∨
        ∃ m s₁, Work.relays s.future e = some m ∧ s.poolStep (.send m.uPriority m.uGrouping 0) = some s₁ ∧
          s' = { s₁ with future := f, relayed := s.relayed ++ [(m, s.pool.nextID)] }) := by
  obtain ⟨f, hf, hs⟩ := Option.bind_eq_some_iff.1 hs
  refine ⟨f, hf, ?_⟩
  cases hrelays : Work.relays s.future e with
  | none =>
      rw [hrelays] at hs
      exact .inl ⟨rfl, (Option.some.inj hs).symm⟩
  | some m =>
      rw [hrelays] at hs
      obtain ⟨s₁, hs₁, rfl⟩ := Option.map_eq_some_iff.1 hs
      exact .inr ⟨m, s₁, rfl, hs₁, rfl⟩

/-- A step of the whole keeps account of the messages. -/
theorem Accounted.step (h : Accounted s) {a : Work.Act ι} (hs : s.step a = some s') : Accounted s' := by
  cases a with
  | pool a => exact h.poolStep hs
  | future e =>
      obtain ⟨f, -, ⟨-, rfl⟩ | ⟨m, s₁, -, hs₁, rfl⟩⟩ := futureStep_cases hs
      · exact ⟨h.ordered, h.custody, h.fresh, h.nodup, h.perm, h.relayed⟩
      · have h₁ := h.poolStep hs₁
        refine ⟨h₁.ordered, h₁.custody, h₁.fresh, h₁.nodup, h₁.perm, fun n k hk => ?_⟩
        obtain ⟨p, -, rfl⟩ := Option.map_eq_some_iff.1 hs₁
        rcases List.mem_append.1 hk with hk | hk
        · exact List.mem_append_left _ (h.relayed n k hk)
        · obtain ⟨-, rfl⟩ := Prod.mk.inj (List.mem_singleton.1 hk)
          exact List.mem_append_right _ List.mem_cons_self

/-- In all runs account is kept of the messages. -/
theorem accounted_reachable (h : (works ι).Reachable s) : Accounted s := by
  refine StepSystem.ReachableBy.invariant ?_ (fun _ _ _ hI _ hs => hI.step hs) h
  rintro _ rfl
  exact ⟨⟨List.Pairwise.nil, fun m hm => absurd hm List.not_mem_nil⟩,
    ⟨List.nodup_nil, fun w hw => absurd hw List.not_mem_nil, fun i j w v _ hw => absurd hw (by simp)⟩,
    fun k hk => absurd hk List.not_mem_nil, List.nodup_nil, .refl _, fun m k hk => absurd hk List.not_mem_nil⟩

/-- A step of the pool loses no delayed message. -/
theorem Followed.poolStep {ι : Type*} {s s' : Work ι} (h : Followed s) {a : Action} (hs : s.poolStep a = some s') :
    Followed s' := by
  obtain ⟨p, -, rfl⟩ := Option.map_eq_some_iff.1 hs
  by_cases ha : a = .discardPool
  · simp only [ha, if_true]
    refine ⟨h.id_lt, h.id_inj, fun m hm => absurd hm List.not_mem_nil, h.found, h.sent, fun m hm => ?_⟩
    rcases h.kept m hm with hq | hr | hd
    · exact .inr (.inr (List.mem_append_right _ hq))
    · exact .inr (.inl hr)
    · exact .inr (.inr (List.mem_append_left _ hd))
  · simp only [ha, if_false]
    exact ⟨h.id_lt, h.id_inj, h.queued, h.found, h.sent, h.kept⟩

/-- **A pass goes on**, and what it has sent was relayed. -/
theorem Followed.setPass (h : Followed s) {t : ι} {o : Option Pass} {pool : State}
    {sent processed killed discarded : List ℕ} {relayed : List (CMsgEntry × ℕ)}
    {delivered finished : List CMsgEntry}
    (hrelayed : ∀ x ∈ s.relayed, x ∈ relayed)
    (hfound : ∀ p m, o = some p → p.message = some m → m ∈ s.future.posted)
    (hsent : ∀ p m, o = some p → p.stage = .sent m → ∃ k, (m, k) ∈ relayed) :
    Followed { s with
      pool := pool, sent := sent, processed := processed, killed := killed, discarded := discarded,
      relayed := relayed,
      future := { s.future.setPass t o with delivered := delivered, finished := finished } } := by
  refine ⟨h.id_lt, h.id_inj, h.queued, fun u p m hp hm => ?_, fun u p m hp hm => ?_, fun m hm => ?_⟩
  · rcases eq_or_ne u t with rfl | hu
    · exact hfound p m ((pass_setPass_self s.future u o).symm.trans hp) hm
    · exact h.found u p m ((pass_setPass_ne hu).symm.trans hp) hm
  · rcases eq_or_ne u t with rfl | hu
    · exact hsent p m ((pass_setPass_self s.future u o).symm.trans hp) hm
    · obtain ⟨k, hk⟩ := h.sent u p m ((pass_setPass_ne hu).symm.trans hp) hm
      exact ⟨k, hrelayed _ hk⟩
  · exact (h.kept m hm).imp id (Or.imp (fun ⟨k, hk⟩ => ⟨k, hrelayed _ hk⟩) id)

omit [DecidableEq ι] in
/-- A message is posted. -/
theorem Followed.post (h : Followed s) (uPriority uGrouping ftDueTime : ℕ) :
    Followed { s with future := s.future.post uPriority uGrouping ftDueTime } := by
  obtain ⟨Rec, hRec, hpost⟩ : ∃ Rec : CMsgEntry, Rec.ullUniqueID = s.future.nextID ∧
      s.future.post uPriority uGrouping ftDueTime = { s.future with
        FutureMsgQueue := s.future.FutureMsgQueue ++ [Rec]
        posted := s.future.posted ++ [Rec]
        nextID := s.future.nextID + 1 } := ⟨_, rfl, rfl⟩
  have hnew : ∀ m ∈ s.future.posted, m.ullUniqueID ≠ s.future.nextID := fun m hm => Nat.ne_of_lt (h.id_lt m hm)
  rw [hpost]
  refine ⟨fun m hm => ?_, fun m hm n hn hid => ?_, fun m hm => ?_, fun t p m hp hm => ?_, h.sent, fun m hm => ?_⟩
  · rcases List.mem_append.1 hm with hm | hm
    · exact Nat.lt_succ_of_lt (h.id_lt m hm)
    · rw [List.mem_singleton.1 hm, hRec]
      exact Nat.lt_succ_self _
  · rcases List.mem_append.1 hm with hm | hm <;> rcases List.mem_append.1 hn with hn | hn
    · exact h.id_inj m hm n hn hid
    · rw [List.mem_singleton.1 hn, hRec] at hid
      exact absurd hid (hnew m hm)
    · rw [List.mem_singleton.1 hm, hRec] at hid
      exact absurd hid.symm (hnew n hn)
    · rw [List.mem_singleton.1 hm, List.mem_singleton.1 hn]
  · rcases List.mem_append.1 hm with hm | hm
    · exact List.mem_append_left _ (h.queued m hm)
    · exact List.mem_append_right _ hm
  · exact List.mem_append_left _ (h.found t p m hp hm)
  · rcases List.mem_append.1 hm with hm | hm
    · exact (h.kept m hm).imp (List.mem_append_left _) id
    · exact .inl (List.mem_append_right _ hm)

/-- The message that was sent is taken off the queue. -/
theorem Followed.erase (h : Followed s) {t : ι} {p : Pass} {m : CMsgEntry} (hp : s.future.pass t = some p)
    (hstage : p.stage = .sent m) : Followed { s with
      future := { s.future.setPass t (some { p with stage := .seek }) with
        FutureMsgQueue := s.future.FutureMsgQueue.eraseP fun e => e.ullUniqueID = m.ullUniqueID } } := by
  have hset : Followed { s with future := s.future.setPass t (some { p with stage := .seek }) } :=
    h.setPass (fun _ => id) (fun q n hq hn => by obtain rfl := Option.some.inj hq; cases hn)
      fun q n hq hn => by obtain rfl := Option.some.inj hq; cases hn
  refine ⟨hset.id_lt, hset.id_inj, fun n hn => h.queued n (List.mem_of_mem_eraseP hn), hset.found, hset.sent,
    fun n hn => ?_⟩
  by_cases hid : n.ullUniqueID = m.ullUniqueID
  · obtain rfl := h.id_inj n hn m (h.found t p m hp (Pass.message_of_sent hstage)) hid
    exact .inr (.inl (h.sent t p n hp hstage))
  · refine (h.kept n hn).imp (fun hq => (List.mem_eraseP_of_neg ?_).2 hq) id
    exact fun heq => hid (of_decide_eq_true heq)

/-- **Every step keeps track of the delayed messages.** One case for each step of a pass; the
message that it sends is relayed in that step. -/
theorem Followed.futureStep (h : Followed s) {e : Event ι} (hs : s.futureStep e = some s') : Followed s' := by
  obtain ⟨f, hf, hcases⟩ := futureStep_cases hs
  cases e with
  | post uPriority uGrouping ftDueTime =>
      obtain rfl := Option.some.inj hf
      rcases hcases with ⟨-, rfl⟩ | ⟨m, s₁, hrelays, -⟩
      · exact h.post uPriority uGrouping ftDueTime
      · cases hrelays
  | start t ftNow bFlush =>
      obtain ⟨-, rfl⟩ := Option.ite_none_right_eq_some.1 hf |>.imp_right Option.some.inj
      rcases hcases with ⟨-, rfl⟩ | ⟨m, s₁, hrelays, -⟩
      · exact h.setPass (fun _ => id) (fun q n hq hn => by obtain rfl := Option.some.inj hq; cases hn)
          fun q n hq hn => by obtain rfl := Option.some.inj hq; cases hn
      · cases hrelays
  | turn t =>
      obtain ⟨p, hp, rfl⟩ := Option.map_eq_some_iff.1 hf
      cases hstage : p.stage with
      | seek =>
          rcases hcases with ⟨-, rfl⟩ | ⟨m, s₁, hrelays, -⟩
          · rw [Transfer.turn, hstage]
            dsimp only
            cases hfind : s.future.find p with
            | none => exact h.setPass (fun _ => id) (fun q n hq => by cases hq) fun q n hq => by cases hq
            | some m =>
                refine h.setPass (fun _ => id) (fun q n hq hn => ?_)
                  fun q n hq hn => by obtain rfl := Option.some.inj hq; cases hn
                obtain rfl := Option.some.inj hq
                obtain rfl : m = n := Option.some.inj hn
                exact h.queued m (mem_of_find hfind)
          · simp [Work.relays, hp, hstage] at hrelays
      | found m =>
          rcases hcases with ⟨hrelays, -⟩ | ⟨m', s₁, hrelays, hs₁, rfl⟩
          · simp [Work.relays, hp, hstage] at hrelays
          · obtain rfl : m = m' := by simpa [Work.relays, hp, hstage] using hrelays
            obtain ⟨pool, -, rfl⟩ := Option.map_eq_some_iff.1 hs₁
            rw [Transfer.turn, hstage]
            refine h.setPass (fun _ => List.mem_append_left _) (fun q n hq hn => ?_) fun q n hq hn => ?_
            · obtain rfl := Option.some.inj hq
              obtain rfl : m = n := Option.some.inj hn
              exact h.found t p m hp (by rw [Pass.message, hstage])
            · obtain rfl := Option.some.inj hq
              obtain rfl : m = n := Stage.sent.inj hn
              exact ⟨_, List.mem_append_right _ List.mem_cons_self⟩
      | sent m =>
          rcases hcases with ⟨-, rfl⟩ | ⟨m', s₁, hrelays, -⟩
          · rw [Transfer.turn, hstage]
            exact h.erase hp hstage
          · simp [Work.relays, hp, hstage] at hrelays

/-- In all runs no delayed message is lost. -/
theorem followed_reachable (h : (works ι).Reachable s) : Followed s := by
  refine StepSystem.ReachableBy.invariant ?_ ?_ h
  · rintro _ rfl
    have hnone : ∀ {P : CMsgEntry → Prop}, ∀ m ∈ ([] : List CMsgEntry), P m := fun m hm =>
      absurd hm List.not_mem_nil
    exact ⟨hnone, hnone, hnone, fun t p m hp => (Option.some_ne_none p hp.symm).elim,
      fun t p m hp => (Option.some_ne_none p hp.symm).elim, hnone⟩
  · intro s a s' h _ hs
    cases a with
    | pool a => exact h.poolStep hs
    | future e => exact h.futureStep hs

end Works

/-- **The messages of a pool are conserved.**  In every interleaving of senders, workers, searches and
passes over the delayed messages, the messages that were put on the queue are, each once, those that are on
it, those that were processed, those that a search removed and those that were discarded; and a message that
a worker works on is on the queue, marked, and no other worker works on it. -/
theorem messages_conserved {ι : Type*} [DecidableEq ι] {s : Work ι} (h : (works ι).Reachable s) :
    s.sent.Nodup ∧ s.sent.Perm (s.pool.ids ++ (s.processed ++ s.killed ++ s.discarded)) ∧
      (∀ w ∈ s.pool.Pool, ∀ m ∈ w.message, m.marked ∈ s.pool.MsgQueue) ∧
      ∀ (i j : ℕ) (w v : CThreadWork), i ≠ j → s.pool.Pool[i]? = some w → s.pool.Pool[j]? = some v →
        ∀ m ∈ w.message, ∀ n ∈ v.message, m.ullUniqueID ≠ n.ullUniqueID := by
  have hacc := accounted_reachable h
  exact ⟨hacc.nodup, hacc.perm, hacc.custody.held, hacc.custody.apart⟩

/-- Three messages: one is processed, one is removed by a search, and one is with a worker. -/
def threeMessages : List (Work.Act Unit) :=
  [.pool (.send 1 0 0), .pool (.send 2 0 0), .pool (.send 3 0 0), .pool .startNewThread, .pool (.take 0 0),
    .pool (.process 0 true), .pool (.remove 0), .pool (.setIdle 0), .pool (.kill [0, 1]), .pool (.send 0 0 0),
    .pool (.take 0 0)]

/-- Three messages, one of which is processed and two are killed. -/
theorem messages_conserved_three : ∃ s, (works Unit).run threeMessages {} = some s ∧ s.processed = [2] ∧
    s.killed = [1, 0] ∧ s.sent.Perm (s.pool.ids ++ (s.processed ++ s.killed ++ s.discarded)) :=
  ⟨_, rfl, rfl, rfl, (messages_conserved (.run threeMessages (.init rfl) rfl)).2.1⟩

/-- The test of `WaitForWorkFinished`. -/
def Work.finished {ι : Type*} (s : Work ι) : Bool :=
  s.pool.MsgQueue.length = 0 && s.future.FutureMsgQueue.isEmpty

/-- A message is dealt with. -/
def Work.Settled {ι : Type*} (s : Work ι) (k : ℕ) : Prop :=
  k ∈ s.processed ∨ k ∈ s.killed ∨ k ∈ s.discarded

/-- **When `WaitForWorkFinished` finds both queues empty, all work is done**: no worker has a message, every
message that was sent was processed, unless a search removed it or `DiscardPool` did, and every delayed
message went the same way. -/
theorem work_finished {ι : Type*} [DecidableEq ι] {s : Work ι} (h : (works ι).Reachable s)
    (hfinished : s.finished = true) :
    (∀ w ∈ s.pool.Pool, w.message = none) ∧ (∀ k ∈ s.sent, s.Settled k) ∧
      ∀ m ∈ s.future.posted, (∃ k, (m, k) ∈ s.relayed ∧ s.Settled k) ∨ m ∈ s.dropped := by
  have hacc := accounted_reachable h
  have hfollowed := followed_reachable h
  obtain ⟨hlength, hempty⟩ := Bool.and_eq_true_iff.1 hfinished
  have hqueue : s.pool.MsgQueue = [] := List.length_eq_zero_iff.1 (of_decide_eq_true hlength)
  have hsettled : ∀ k ∈ s.sent, s.Settled k := by
    intro k hk
    have hmem := hacc.perm.mem_iff.1 hk
    simp only [State.ids, hqueue, List.map_nil, List.nil_append, List.mem_append, or_assoc] at hmem
    exact hmem
  refine ⟨fun w hw => ?_, hsettled, fun m hm => ?_⟩
  · cases hm : w.message with
    | none => rfl
    | some m => exact absurd (hqueue ▸ hacc.custody.held w hw m hm) List.not_mem_nil
  · rcases hfollowed.kept m hm with hq | ⟨k, hk⟩ | hd
    · rw [List.isEmpty_iff.1 hempty] at hq
      exact absurd hq List.not_mem_nil
    · exact .inl ⟨k, hk, hsettled k (hacc.relayed m k hk)⟩
    · exact .inr hd

/-- A delayed message is sent and processed. -/
def oneDelayed : List (Work.Act Unit) :=
  [.future (.post 0 0 5), .future (.start () 9 false), .future (.turn ()), .future (.turn ()),
    .future (.turn ()), .pool .startNewThread, .pool (.take 0 9), .pool (.process 0 true), .pool (.remove 0)]

/-- A delayed message that went through both queues. -/
theorem work_finished_one : ∃ s, (works Unit).run oneDelayed {} = some s ∧ s.processed = [0] ∧
    (∀ w ∈ s.pool.Pool, w.message = none) ∧ (∀ k ∈ s.sent, s.Settled k) ∧
      ∀ m ∈ s.future.posted, (∃ k, (m, k) ∈ s.relayed ∧ s.Settled k) ∨ m ∈ s.dropped :=
  ⟨_, rfl, rfl, work_finished (.run oneDelayed (.init rfl) rfl) rfl⟩

end ThreadPool
end ECSUtil

/-
# Grouping in a thread pool

`CThreadWork::DoWork`, `SetInUse`, `SetIdle`, `ExitInstance` and `CThreadPool::IfInGroup`, `UpdatePerf`,
`StartNewThread`, `SearchMessageKill`, `DeleteOldThreadEntries`, `DiscardPool`
(`ECSUtil/ThreadPool.h`).  What is done under the write lock of `Pool` or of `MsgQueue` is one step; a
worker takes a message under both.

The messages that are being processed have the same grouping, and one of a grouping from
`THREAD_POOL_MSG_GROUPING_ALONE_BASE` on is alone: `grouping_exclusive`.

Two workers in use go together if they have the same grouping and it is none that is to be alone
(`Together`). A worker that takes a message has looked at all others under the lock
(`together_of_not_blocks`); all other steps leave the groupings of the workers in use as they are,
or take a worker out of use.
-/

import Mathlib.Data.Nat.Notation
import Mathlib.Data.List.Basic
import ECSUtil.Lib.StepSystem

namespace ECSUtil
namespace ThreadPool

def THREAD_POOL_MSG_GROUPING_DONT_CARE : ℕ := 0
def THREAD_POOL_MSG_GROUPING_ALONE_BASE : ℕ := 1000

/-- `CMsgEntry`, without what is processed. -/
structure CMsgEntry where
  ullUniqueID : ℕ
  uPriority : ℕ := 0
  uGrouping : ℕ := THREAD_POOL_MSG_GROUPING_DONT_CARE
  /-- Zero for now. -/
  ftDueTime : ℕ := 0
  bProcessing : Bool := false
  deriving DecidableEq, Repr

/-- Where a worker is. -/
inductive Pc
  /-- There is no thread. -/
  | gone
  /-- It waits, or looks for a message. -/
  | ready
  /-- It is in `DoProcess`. -/
  | processing (pMsg : CMsgEntry)
  | processed (pMsg : CMsgEntry) (bProcessed : Bool)
  /-- The message is back or gone, and `UpdatePerf` is next. -/
  | settled
  /-- `ExitInstance` is next. -/
  | leaving
  deriving DecidableEq, Repr

/-- `CThreadWork`. -/
structure CThreadWork where
  bInUse : Bool := false
  uGrouping : ℕ := THREAD_POOL_MSG_GROUPING_DONT_CARE
  pc : Pc := .gone
  deriving DecidableEq, Repr

/-- The message that a worker works on. -/
def CThreadWork.message (w : CThreadWork) : Option CMsgEntry :=
  match w.pc with
  | .processing m => some m
  | .processed m _ => some m
  | _ => none

structure State where
  MsgQueue : List CMsgEntry := []
  Pool : List CThreadWork := []
  /-- `GetUniqueInt64`. -/
  nextID : ℕ := 0
  deriving Repr

/-- What happens. -/
inductive Action
  /-- `SendMessageToPool`. -/
  | send (uPriority uGrouping ftDueTime : ℕ)
  /-- `SearchMessageKill` and the deletions of `SearchMessageBackModify`. -/
  | kill (ids : List ℕ)
  /-- A worker looks for a message. -/
  | take (i ftNow : ℕ)
  /-- `DoProcess` returns. -/
  | process (i : ℕ) (bProcessed : Bool)
  /-- The message is removed from the queue, or not. -/
  | remove (i : ℕ)
  /-- `UpdatePerf` with `SetIdle`. -/
  | setIdle (i : ℕ)
  /-- The thread ends, by its flag or by an exception of `DoProcess`. -/
  | leave (i : ℕ)
  | exitInstance (i : ℕ)
  | startNewThread
  /-- `DeleteOldThreadEntries`: the entry keeps its place, as one that is not used yet. -/
  | deleteEntry (i : ℕ)
  | discardPool
  deriving DecidableEq, Repr

/-- The worker is in the way of a message of this grouping. -/
def CThreadWork.blocks (w : CThreadWork) (uGrouping : ℕ) : Bool :=
  w.bInUse &&
    ((uGrouping ≠ THREAD_POOL_MSG_GROUPING_DONT_CARE ||
        w.uGrouping ≠ THREAD_POOL_MSG_GROUPING_DONT_CARE) &&
      ((THREAD_POOL_MSG_GROUPING_ALONE_BASE ≤ uGrouping ||
          THREAD_POOL_MSG_GROUPING_ALONE_BASE ≤ w.uGrouping) ||
        w.uGrouping ≠ uGrouping))

/-- `IfInGroup`. -/
def ifInGroup (Pool : List CThreadWork) (uGrouping : ℕ) : Bool :=
  Pool.all fun w => !w.blocks uGrouping

namespace State

/-- An entry goes behind the last one whose priority is not below its own. -/
def insert (s : State) (Rec : CMsgEntry) : State :=
  { s with
    MsgQueue := (s.MsgQueue.reverse.dropWhile fun m => m.uPriority < Rec.uPriority).reverse ++
      Rec :: (s.MsgQueue.reverse.takeWhile fun m => m.uPriority < Rec.uPriority).reverse }

def setWork (s : State) (i : ℕ) (w : CThreadWork) : State := { s with Pool := s.Pool.set i w }

/-- `bProcessing` of an entry is set. -/
def setProcessing (s : State) (m : CMsgEntry) (b : Bool) : State :=
  { s with
    MsgQueue := s.MsgQueue.map fun m' =>
      if m'.ullUniqueID = m.ullUniqueID then { m' with bProcessing := b } else m' }

/-- A worker takes the first message that nobody processes, if that can be run now.  It has its
grouping in either case. -/
def take (s : State) (i : ℕ) (w : CThreadWork) (ftNow : ℕ) : State :=
  match s.MsgQueue.find? fun m => !m.bProcessing with
  | none => s
  | some m =>
      let s := s.setWork i { w with uGrouping := m.uGrouping }
      if !ifInGroup s.Pool m.uGrouping then s
      else if m.ftDueTime ≠ 0 ∧ ftNow < m.ftDueTime then s
      else
        (s.setWork i { bInUse := true, uGrouping := m.uGrouping, pc := .processing m }).setProcessing
          m true

/-- The message is removed where it was processed. -/
def remove (s : State) (m : CMsgEntry) (bProcessed : Bool) : State :=
  if bProcessed then
    { s with MsgQueue := s.MsgQueue.eraseP fun m' => m'.ullUniqueID = m.ullUniqueID }
  else s.setProcessing m false

/-- `StartNewThread`: the first entry without a thread, or a new one. -/
def startNewThread (s : State) : State :=
  let i := s.Pool.findIdx fun w => w.pc = .gone
  if h : i < s.Pool.length then
    s.setWork i { s.Pool.get ⟨i, h⟩ with bInUse := false, pc := .ready }
  else { s with Pool := s.Pool ++ [{ pc := .ready }] }

/-- One step. -/
def step (s : State) : Action → Option State
  | .send uPriority uGrouping ftDueTime =>
      some { s.insert { ullUniqueID := s.nextID, uPriority := uPriority, uGrouping := uGrouping,
                        ftDueTime := ftDueTime } with nextID := s.nextID + 1 }
  | .kill ids =>
      some { s with MsgQueue := s.MsgQueue.filter fun m => m.bProcessing || !ids.contains m.ullUniqueID }
  | .take i ftNow =>
      (s.Pool[i]?).bind fun w => if w.pc = .ready then some (s.take i w ftNow) else none
  | .process i bProcessed =>
      (s.Pool[i]?).bind fun w =>
        match w.pc with
        | .processing m => some (s.setWork i { w with pc := .processed m bProcessed })
        | _ => none
  | .remove i =>
      (s.Pool[i]?).bind fun w =>
        match w.pc with
        | .processed m bProcessed =>
            some ((s.setWork i { w with pc := .settled }).remove m bProcessed)
        | _ => none
  | .setIdle i =>
      (s.Pool[i]?).bind fun w =>
        if w.pc = .settled then some (s.setWork i { w with bInUse := false, pc := .ready }) else none
  | .leave i =>
      (s.Pool[i]?).bind fun w =>
        match w.pc with
        | .ready => some (s.setWork i { w with pc := .leaving })
        | .processing _ => some (s.setWork i { w with pc := .leaving })
        | _ => none
  | .exitInstance i =>
      (s.Pool[i]?).bind fun w =>
        if w.pc = .leaving then some (s.setWork i { w with bInUse := false, pc := .gone }) else none
  | .startNewThread => some s.startNewThread
  | .deleteEntry i =>
      (s.Pool[i]?).bind fun w => if w.pc = .gone then some (s.setWork i {}) else none
  | .discardPool =>
      if s.Pool.all fun w => w.pc = .gone then some { s with MsgQueue := [] } else none

end State

/-- A pool, at first without threads. -/
def system : StepSystem State Action where
  init s := s = {}
  step := State.step

/-- What an entry of the pool is like. -/
def CThreadWork.Ok (w : CThreadWork) : Prop :=
  (∀ m ∈ w.message, w.bInUse = true ∧ w.uGrouping = m.uGrouping) ∧
    (w.pc = .gone ∨ w.pc = .ready → w.bInUse = false)

/-- Two workers in use have the same grouping, and it is none that is to be alone. -/
def Together (w v : CThreadWork) : Prop :=
  w.bInUse = true → v.bInUse = true →
    w.uGrouping = v.uGrouping ∧ w.uGrouping < THREAD_POOL_MSG_GROUPING_ALONE_BASE

/-- **The invariant**: each worker is in order by itself, and any two of them go together. -/
structure Inv (Pool : List CThreadWork) : Prop where
  ok : ∀ w ∈ Pool, w.Ok
  together : ∀ (i j : ℕ) (w v : CThreadWork), i ≠ j → Pool[i]? = some w → Pool[j]? = some v →
    Together w v

section

variable {Pool : List CThreadWork} {s s' : State} {w v : CThreadWork} {i j : ℕ} {m : CMsgEntry}

/-- Two workers go together in either order. -/
theorem Together.symm (h : Together w v) : Together v w := by
  intro hv hw
  obtain ⟨heq, hlt⟩ := h hw hv
  exact ⟨heq.symm, heq ▸ hlt⟩

/-- A worker that has nothing goes with any. -/
theorem together_of_idle (h : w.bInUse = false) : Together w v := fun hw =>
  absurd (h.symm.trans hw) Bool.false_ne_true

/-- **What `IfInGroup` tells**: a worker that takes such a message fits with those in use. Its
grouping is theirs, and not one that is to be alone. -/
theorem together_of_not_blocks {uGrouping : ℕ} {pc : Pc} (h : v.blocks uGrouping = false) :
    Together { bInUse := true, uGrouping := uGrouping, pc := pc } v := by
  intro _ hv
  unfold CThreadWork.blocks THREAD_POOL_MSG_GROUPING_DONT_CARE
    THREAD_POOL_MSG_GROUPING_ALONE_BASE at h
  simp only [hv, Bool.true_and, Bool.and_eq_false_iff, Bool.or_eq_false_iff,
    decide_eq_false_iff_not, Decidable.not_not] at h
  show uGrouping = v.uGrouping ∧ uGrouping < 1000
  omega

/-- **One entry changes**, and fits with the others. The other workers go together as before, and
each of them with the one that changed. -/
theorem Inv.set (h : Inv Pool) (hw : w.Ok)
    (hfit : ∀ (j : ℕ) (v : CThreadWork), i ≠ j → Pool[j]? = some v → Together w v) :
    Inv (Pool.set i w) := by
  refine ⟨fun v hv => ?_, fun j k v u hne hv hu => ?_⟩
  · rcases List.mem_or_eq_of_mem_set hv with hv | rfl
    · exact h.ok v hv
    · exact hw
  · rw [List.getElem?_set] at hv hu
    split_ifs at hv hu with hj hlt hk hk hlt
    · exact absurd (hj.symm.trans hk) hne
    · obtain rfl := Option.some.inj hv
      exact hfit k u hk hu
    · obtain rfl := Option.some.inj hu
      exact (hfit j v hj hv).symm
    · exact h.together j k v u hne hv hu

/-- An entry that is not in use fits with all. -/
theorem Inv.set_idle (h : Inv Pool) (hw : w.Ok) (hidle : w.bInUse = false) : Inv (Pool.set i w) :=
  h.set hw fun _ _ _ _ => together_of_idle hidle

/-- An entry that is in use as before. -/
theorem Inv.set_same (h : Inv Pool) (hi : Pool[i]? = some v) (hw : w.Ok)
    (huse : w.bInUse = v.bInUse) (hgrouping : w.uGrouping = v.uGrouping) : Inv (Pool.set i w) := by
  refine h.set hw fun j u hne hu => ?_
  unfold Together
  rw [huse, hgrouping]
  exact h.together i j v u hne hi hu

/-- **A worker that looks for a message.** It holds the locks while it looks at the others, so none
of them can take a message in between. -/
theorem inv_take (h : Inv s.Pool) (hi : s.Pool[i]? = some w) (hready : w.pc = .ready) (ftNow : ℕ) :
    Inv (s.take i w ftNow).Pool := by
  have hidle : w.bInUse = false := (h.ok w (List.mem_of_getElem? hi)).2 (.inr hready)
  have hlook : ∀ uGrouping, Inv (s.Pool.set i { w with uGrouping := uGrouping }) := by
    refine fun uGrouping => h.set_idle ⟨fun m hm => ?_, fun _ => hidle⟩ hidle
    exact absurd hm (by simp [CThreadWork.message, hready])
  unfold State.take
  cases s.MsgQueue.find? fun m => !m.bProcessing with
  | none => exact h
  | some m =>
      dsimp only
      split_ifs with hgroup hdue
      · exact hlook m.uGrouping
      · exact hlook m.uGrouping
      · -- it is in the group
        show Inv ((s.Pool.set i { w with uGrouping := m.uGrouping }).set i _)
        refine (hlook m.uGrouping).set ⟨?_, ?_⟩ fun j v hne hv => together_of_not_blocks ?_
        · intro n hn
          obtain rfl : m = n := Option.some.inj hn
          exact ⟨rfl, rfl⟩
        · rintro (hpc | hpc) <;> exact Pc.noConfusion hpc
        · rw [Bool.not_eq_true', Bool.not_eq_false] at hgroup
          exact Bool.not_eq_true' _ ▸ List.all_eq_true.1 hgroup v (List.mem_of_getElem? hv)

/-- A new thread. -/
theorem inv_startNewThread (h : Inv s.Pool) : Inv s.startNewThread.Pool := by
  unfold State.startNewThread
  dsimp only
  split_ifs with hlt
  · refine h.set_idle ⟨fun m hm => ?_, fun _ => rfl⟩ rfl
    exact absurd hm (by simp [CThreadWork.message])
  · refine ⟨fun w hw => ?_, fun i j w v hne hw hv => ?_⟩
    · rcases List.mem_append.1 hw with hw | hw
      · exact h.ok w hw
      · obtain rfl := List.mem_singleton.1 hw
        exact ⟨fun m hm => absurd hm (by simp [CThreadWork.message]), fun _ => rfl⟩
    · rw [List.getElem?_append] at hw hv
      split_ifs at hw hv
      · exact h.together i j w v hne hw hv
      · obtain rfl := List.mem_singleton.1 (List.mem_of_getElem? hv)
        exact (together_of_idle rfl).symm
      · obtain rfl := List.mem_singleton.1 (List.mem_of_getElem? hw)
        exact together_of_idle rfl
      · obtain rfl := List.mem_singleton.1 (List.mem_of_getElem? hw)
        exact together_of_idle rfl

/-- **Every step keeps the invariant.** -/
theorem inv_step {a : Action} (h : Inv s.Pool) (hs : s.step a = some s') : Inv s'.Pool := by
  cases a with
  | send uPriority uGrouping ftDueTime => exact Option.some.inj hs ▸ h
  | kill ids => exact Option.some.inj hs ▸ h
  | take i ftNow =>
      obtain ⟨w, hi, hs⟩ := Option.bind_eq_some_iff.1 hs
      obtain ⟨hready, hs⟩ := Option.ite_none_right_eq_some.1 hs
      exact Option.some.inj hs ▸ inv_take h hi hready ftNow
  | process i bProcessed =>
      obtain ⟨w, hi, hs⟩ := Option.bind_eq_some_iff.1 hs
      obtain ⟨hmessage, -⟩ := h.ok w (List.mem_of_getElem? hi)
      cases hpc : w.pc with
      | processing m =>
          rw [hpc] at hs
          refine Option.some.inj hs ▸ h.set_same hi ⟨?_, ?_⟩ rfl rfl
          · intro n hn
            obtain rfl : m = n := Option.some.inj hn
            exact hmessage m (by simp [CThreadWork.message, hpc])
          · rintro (h | h) <;> exact Pc.noConfusion h
      | _ => simp [hpc] at hs
  | remove i =>
      obtain ⟨w, hi, hs⟩ := Option.bind_eq_some_iff.1 hs
      cases hpc : w.pc with
      | processed m bProcessed =>
          rw [hpc] at hs
          have hset : Inv (s.Pool.set i { w with pc := .settled }) :=
            h.set_same hi ⟨fun m hm => absurd hm (by simp [CThreadWork.message]),
              fun h => by rcases h with h | h <;> exact Pc.noConfusion h⟩ rfl rfl
          obtain rfl := Option.some.inj hs
          unfold State.remove
          split_ifs <;> exact hset
      | _ => simp [hpc] at hs
  | setIdle i =>
      obtain ⟨w, hi, hs⟩ := Option.bind_eq_some_iff.1 hs
      obtain ⟨-, hs⟩ := Option.ite_none_right_eq_some.1 hs
      refine Option.some.inj hs ▸ h.set_idle ⟨fun m hm => ?_, fun _ => rfl⟩ rfl
      exact absurd hm (by simp [CThreadWork.message])
  | leave i =>
      obtain ⟨w, hi, hs⟩ := Option.bind_eq_some_iff.1 hs
      have hset : Inv (s.Pool.set i { w with pc := .leaving }) :=
        h.set_same hi ⟨fun m hm => absurd hm (by simp [CThreadWork.message]),
          fun h => by rcases h with h | h <;> exact Pc.noConfusion h⟩ rfl rfl
      cases hpc : w.pc with
      | ready => exact Option.some.inj (by simpa [hpc] using hs) ▸ hset
      | processing m => exact Option.some.inj (by simpa [hpc] using hs) ▸ hset
      | _ => simp [hpc] at hs
  | exitInstance i =>
      obtain ⟨w, hi, hs⟩ := Option.bind_eq_some_iff.1 hs
      obtain ⟨-, hs⟩ := Option.ite_none_right_eq_some.1 hs
      refine Option.some.inj hs ▸ h.set_idle ⟨fun m hm => ?_, fun _ => rfl⟩ rfl
      exact absurd hm (by simp [CThreadWork.message])
  | startNewThread => exact Option.some.inj hs ▸ inv_startNewThread h
  | deleteEntry i =>
      obtain ⟨w, hi, hs⟩ := Option.bind_eq_some_iff.1 hs
      obtain ⟨-, hs⟩ := Option.ite_none_right_eq_some.1 hs
      refine Option.some.inj hs ▸ h.set_idle ⟨fun m hm => ?_, fun _ => rfl⟩ rfl
      exact absurd hm (by simp [CThreadWork.message])
  | discardPool =>
      obtain ⟨-, hs⟩ := Option.ite_none_right_eq_some.1 hs
      exact Option.some.inj hs ▸ h

/-- The invariant holds of all runs. -/
theorem inv_reachable (h : system.Reachable s) : Inv s.Pool := by
  refine StepSystem.ReachableBy.invariant (I := fun s => Inv s.Pool) ?_ ?_ h
  · rintro _ rfl
    exact ⟨fun w hw => absurd hw List.not_mem_nil, fun i j w v _ hw => absurd hw (by simp)⟩
  · exact fun _ _ _ hI _ hs => inv_step hI hs

end

/-- **Grouping**: two workers that work on messages at the same time have messages of the same
grouping, which is none that is to be processed alone. -/
theorem grouping_exclusive {s : State} (h : system.Reachable s) {i j : ℕ} (hne : i ≠ j)
    {w v : CThreadWork} (hi : s.Pool[i]? = some w) (hj : s.Pool[j]? = some v) {m n : CMsgEntry}
    (hm : m ∈ w.message) (hn : n ∈ v.message) :
    m.uGrouping = n.uGrouping ∧ m.uGrouping < THREAD_POOL_MSG_GROUPING_ALONE_BASE := by
  have hinv := inv_reachable h
  obtain ⟨hw, hwm⟩ := (hinv.ok w (List.mem_of_getElem? hi)).1 m hm
  obtain ⟨hv, hvn⟩ := (hinv.ok v (List.mem_of_getElem? hj)).1 n hn
  obtain ⟨heq, hlt⟩ := hinv.together i j w v hne hi hj hw hv
  exact ⟨hwm.symm.trans (heq.trans hvn), hwm ▸ hlt⟩

/-- Two workers and two messages of one grouping. -/
def twoMessages : List Action :=
  [.send 0 7 0, .send 0 7 0, .startNewThread, .startNewThread, .take 0 0, .take 1 0]

/-- Two workers process messages of the same grouping at the same time. It is below those that are
to be alone. -/
theorem grouping_exclusive_two : ∃ (s : State) (w v : CThreadWork) (m n : CMsgEntry),
    system.run twoMessages {} = some s ∧ s.Pool[0]? = some w ∧ s.Pool[1]? = some v ∧
    m ∈ w.message ∧ n ∈ v.message ∧ m.uGrouping = n.uGrouping ∧ m.uGrouping < 1000 :=
  ⟨_, _, _, _, _, rfl, rfl, rfl, rfl, rfl,
    grouping_exclusive (.run twoMessages (.init rfl) rfl) Nat.zero_ne_one rfl rfl rfl rfl⟩

end ThreadPool
end ECSUtil

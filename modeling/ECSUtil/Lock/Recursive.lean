/-
# The recursive reader-writer lock

`CRWLock` and `CRWLockAcquire` (`ECSUtil/CRWLock.cpp`, `ECSUtil/CRWLock.h`).  An acquire object that
finds another one of its thread locked does not acquire the SRW lock, and one that leaves another
locked does not release it.  What a call reads of other objects belongs to its own thread, so a call
is one step, up to the wait for the SRW lock.

The last object of a thread that is unlocked releases the SRW lock in its own mode, whatever mode it
was acquired in: `recursive_lock_correct`, `released_shared`.

What a thread has of the SRW lock is told by its objects alone (`mode`).  The invariant (`Inv`) is
that the SRW lock is with the threads as their modes say; each call keeps it, where an `Unlock` of
the only object with a write lock finds no others with read locks (`MayUnlock`).
-/

import ECSUtil.Lib.SrwLock
import ECSUtil.Lib.StepSystem

namespace ECSUtil
namespace Lock

/-- `CRWLockAcquire`. -/
structure Acquire where
  dwThreadId : ℕ
  bLocked : Bool := false
  bWrite : Bool
  bWaiting : Bool := false
  deriving DecidableEq, Repr

/-- `CRWLock`. -/
structure State where
  /-- `Instances`, `none` for an object that was destroyed. -/
  Instances : List (Option Acquire) := []
  RWLock : SrwLock ℕ := {}
  /-- The SRW lock was released by a thread that does not have it in that mode. -/
  fault : Bool := false

/-- The mode of some locked objects: none, read or write. -/
def modeOf (l : List Acquire) : Option Bool :=
  if l = [] then none else some (l.any (·.bWrite))

/-- The objects of a thread that are locked. -/
def locked (Instances : List (Option Acquire)) (t : ℕ) : List Acquire :=
  (Instances.filterMap id).filter fun a => a.dwThreadId = t ∧ a.bLocked = true

/-- The other objects of the thread that are locked. -/
def others (Instances : List (Option Acquire)) (o t : ℕ) : List Acquire :=
  locked (Instances.eraseIdx o) t

/-- What a thread holds through its objects. -/
def mode (Instances : List (Option Acquire)) (t : ℕ) : Option Bool := modeOf (locked Instances t)

namespace State

def setInstance (s : State) (o : ℕ) (a : Option Acquire) : State :=
  { s with Instances := s.Instances.set o a }

/-- `ReleaseSRWLockExclusive`, `ReleaseSRWLockShared`. -/
def releaseSRWLock (s : State) (t : ℕ) (bWrite : Bool) : State :=
  match s.RWLock.release t bWrite with
  | some l => { s with RWLock := l }
  | none => { s with fault := true }

/-- `Unlock`. -/
def unlock (s : State) (o : ℕ) (a : Acquire) : State :=
  if a.bLocked then
    if others s.Instances o a.dwThreadId ≠ [] then
      s.setInstance o (some { a with bLocked := false })
    else
      (s.releaseSRWLock a.dwThreadId a.bWrite).setInstance o (some { a with bLocked := false })
  else s

/-- `Lock`, up to the wait for the SRW lock. -/
def lock (s : State) (o : ℕ) (a : Acquire) (bWriteParam : Bool) : State :=
  let s := s.unlock o a
  let l := others s.Instances o a.dwThreadId
  let bThreadLocked := l ≠ []
  let bWriteLocked := l.any (·.bWrite)
  if bThreadLocked ∧ ¬(bWriteLocked = false ∧ bWriteParam = true) then
    s.setInstance o (some { a with bLocked := true, bWrite := bWriteParam, bWaiting := false })
  else
    s.setInstance o (some { a with bLocked := false, bWrite := bWriteParam, bWaiting := true })

/-- The thread waits for the SRW lock. -/
def waits (s : State) (t : ℕ) : Bool :=
  (s.Instances.filterMap id).any fun a => a.dwThreadId = t ∧ a.bWaiting = true

/-- The object of a thread that does not wait. -/
def object (s : State) (o : ℕ) : Option Acquire :=
  match s.Instances[o]?.join with
  | some a => if s.waits a.dwThreadId then none else some a
  | none => none

end State

/-- What the threads do.  Every object is used by the thread that constructed it. -/
inductive Action
  /-- The constructor; the object is behind those that were constructed before. -/
  | construct (dwThreadId : ℕ) (bWrite bGetLock : Bool)
  | lock (o : ℕ) (bWrite : Bool)
  /-- The SRW lock is acquired for an object that waits for it. -/
  | acquired (o : ℕ)
  | unlock (o : ℕ)
  | destroy (o : ℕ)
  deriving DecidableEq, Repr

/-- One step. -/
def step (s : State) : Action → Option State
  | .construct t bWrite bGetLock =>
      if s.waits t then none
      else
        let a : Acquire := { dwThreadId := t, bWrite := bWrite }
        let s' : State := { s with Instances := s.Instances ++ [some a] }
        some (if bGetLock then s'.lock s.Instances.length a bWrite else s')
  | .lock o bWrite => (s.object o).map fun a => s.lock o a bWrite
  | .acquired o =>
      match s.Instances[o]?.join with
      | some a =>
          if a.bWaiting then
            (s.RWLock.acquire a.dwThreadId a.bWrite).map fun l =>
              { s with RWLock := l }.setInstance o
                (some { a with bLocked := true, bWaiting := false })
          else none
      | none => none
  | .unlock o => (s.object o).map fun a => s.unlock o a
  | .destroy o => (s.object o).map fun a => (s.unlock o a).setInstance o none

def system : StepSystem State Action where
  init s := s = {}
  step := step

/-- The thread asks for a write lock while it holds only read locks. -/
def Action.Upgrades (s : State) : Action → Prop
  | construct t bWrite bGetLock =>
      bWrite = true ∧ bGetLock = true ∧ mode s.Instances t = some false
  | lock o bWrite =>
      bWrite = true ∧ ∃ a, s.object o = some a ∧ mode s.Instances a.dwThreadId = some false
  | _ => False

/-- The object that is unlocked is the only one of its thread with a write lock, and others of the
thread hold read locks. -/
def Action.LeavesReads (s : State) : Action → Prop
  | lock o _ | unlock o | destroy o => ∃ a, s.object o = some a ∧ a.bLocked = true ∧
      a.bWrite = true ∧ modeOf (others s.Instances o a.dwThreadId) = some false
  | _ => False

/-- **A reader-writer lock**: the SRW lock is never released in another mode than the one it was
acquired in; a thread has acquired it once more than it released it while it holds a lock, and as
often otherwise; and where an object holds a write lock, only its thread holds locks. -/
structure Correct (s : State) : Prop where
  fault : s.fault = false
  acquisitions : ∀ t, s.RWLock.acquisitions t = if locked s.Instances t = [] then 0 else 1
  exclusion : ∀ t t', ∀ a ∈ locked s.Instances t, a.bWrite = true →
    locked s.Instances t' ≠ [] → t' = t

section Modes

variable {Instances : List (Option Acquire)} {o t : ℕ} {a a' x : Acquire}

/-- The locked objects of a thread are those that say so. -/
theorem mem_locked : x ∈ locked Instances t ↔
    (∃ o : ℕ, Instances[o]? = some (some x)) ∧ x.dwThreadId = t ∧ x.bLocked = true := by
  unfold locked
  rw [List.mem_filter, decide_eq_true_iff, List.mem_filterMap]
  refine and_congr_left fun _ => ?_
  constructor
  · rintro ⟨y, hy, rfl⟩
    exact List.mem_iff_getElem?.1 hy
  · rintro ⟨o, ho⟩
    exact ⟨some x, List.mem_of_getElem? ho, rfl⟩

/-- The other locked objects of a thread are those at other places that say so. -/
theorem mem_others : x ∈ others Instances o t ↔
    (∃ o' : ℕ, o' ≠ o ∧ Instances[o']? = some (some x)) ∧ x.dwThreadId = t ∧ x.bLocked = true := by
  unfold others
  rw [mem_locked]
  refine and_congr_left fun _ => ?_
  rw [← List.mem_iff_getElem?, List.mem_eraseIdx_iff_getElem?]

/-- The mode is that of the objects, in any order. -/
theorem modeOf_congr {l l' : List Acquire} (h : ∀ x, x ∈ l ↔ x ∈ l') : modeOf l = modeOf l' := by
  unfold modeOf
  have hnil : l = [] ↔ l' = [] := by
    simp only [List.eq_nil_iff_forall_not_mem, h]
  have hany : l.any (·.bWrite) = l'.any (·.bWrite) := by
    rw [Bool.eq_iff_iff, List.any_eq_true, List.any_eq_true]
    simp only [h]
  simp only [hnil, hany]

/-- The object itself, while it is locked. -/
def own (a : Acquire) : List Acquire := if a.bLocked then [a] else []

/-- The own objects are the object itself, if it is locked. -/
theorem mem_own : x ∈ own a ↔ x = a ∧ a.bLocked = true := by
  unfold own
  split_ifs with h
  · simp [h]
  · simp [h]

/-- An object that is not locked has none of its own. -/
theorem own_of_unlocked (h : a.bLocked = false) : own a = [] := if_neg (by simp [h])

/-- What becomes of an object does not change the others. -/
theorem others_set (y : Option Acquire) :
    others (Instances.set o y) o t = others Instances o t := by
  unfold others
  rw [List.eraseIdx_set_eq]

/-- **An object changes**, and the mode of its thread with it. The mode of a thread is the stronger
one of its objects, so only what this object adds to the others counts. -/
theorem mode_set (hget : Instances[o]? = some (some a)) (hthread : x.dwThreadId = a.dwThreadId) :
    mode (Instances.set o (some x)) = Function.update (mode Instances) a.dwThreadId
      (modeOf (own x ++ others Instances o a.dwThreadId)) := by
  obtain ⟨hlt, -⟩ := List.getElem?_eq_some_iff.1 hget
  funext t
  by_cases ht : t = a.dwThreadId
  · subst ht
    rw [Function.update_self]
    refine modeOf_congr fun x => ?_
    rw [mem_locked, List.mem_append, mem_own, mem_others]
    constructor
    · rintro ⟨⟨o', ho'⟩, hthread', hlocked⟩
      by_cases hne : o' = o
      · subst hne
        rw [List.getElem?_set_self hlt] at ho'
        obtain rfl := Option.some.inj (Option.some.inj ho')
        exact .inl ⟨rfl, hlocked⟩
      · rw [List.getElem?_set_ne (Ne.symm hne)] at ho'
        exact .inr ⟨⟨o', hne, ho'⟩, hthread', hlocked⟩
    · rintro (⟨rfl, hlocked⟩ | ⟨⟨o', hne, ho'⟩, hthread', hlocked⟩)
      · exact ⟨⟨o, List.getElem?_set_self hlt⟩, hthread, hlocked⟩
      · refine ⟨⟨o', ?_⟩, hthread', hlocked⟩
        rw [List.getElem?_set_ne (Ne.symm hne)]
        exact ho'
  · rw [Function.update_of_ne ht]
    refine modeOf_congr fun x => ?_
    rw [mem_locked, mem_locked]
    refine and_congr_left fun hx => ?_
    constructor
    · rintro ⟨o', ho'⟩
      by_cases hne : o' = o
      · subst hne
        rw [List.getElem?_set_self hlt] at ho'
        obtain rfl := Option.some.inj (Option.some.inj ho')
        exact absurd (hx.1.symm.trans hthread) ht
      · rw [List.getElem?_set_ne (Ne.symm hne)] at ho'
        exact ⟨o', ho'⟩
    · rintro ⟨o', ho'⟩
      have hne : o' ≠ o := by
        rintro rfl
        rw [hget] at ho'
        obtain rfl := Option.some.inj (Option.some.inj ho')
        exact ht hx.1.symm
      exact ⟨o', by rw [List.getElem?_set_ne (Ne.symm hne)]; exact ho'⟩

/-- The mode of a thread, by one of its objects. -/
theorem mode_eq (hget : Instances[o]? = some (some a)) :
    mode Instances a.dwThreadId = modeOf (own a ++ others Instances o a.dwThreadId) := by
  have hset := congrFun (mode_set (x := a) hget rfl) a.dwThreadId
  rw [Function.update_self] at hset
  obtain ⟨hlt, hget'⟩ := List.getElem?_eq_some_iff.1 hget
  rwa [← hget', List.set_getElem_self] at hset

/-- An object is destroyed that is not locked. -/
theorem mode_set_none (hget : Instances[o]? = some (some a)) (hlocked : a.bLocked = false) :
    mode (Instances.set o none) = mode Instances := by
  obtain ⟨hlt, -⟩ := List.getElem?_eq_some_iff.1 hget
  funext t
  refine modeOf_congr fun x => ?_
  rw [mem_locked, mem_locked]
  refine and_congr_left fun hx => ?_
  constructor
  · rintro ⟨o', ho'⟩
    by_cases hne : o' = o
    · subst hne
      rw [List.getElem?_set_self hlt] at ho'
      exact absurd (Option.some.inj ho') (by simp)
    · rw [List.getElem?_set_ne (Ne.symm hne)] at ho'
      exact ⟨o', ho'⟩
  · rintro ⟨o', ho'⟩
    have hne : o' ≠ o := by
      rintro rfl
      rw [hget] at ho'
      obtain rfl := Option.some.inj (Option.some.inj ho')
      exact absurd (hx.2.symm.trans hlocked) (by simp)
    exact ⟨o', by rw [List.getElem?_set_ne (Ne.symm hne)]; exact ho'⟩

/-- An object is constructed, and is not locked. -/
theorem mode_append (hlocked : a.bLocked = false) :
    mode (Instances ++ [some a]) = mode Instances := by
  funext t
  have happend : locked (Instances ++ [some a]) t = locked Instances t := by
    unfold locked
    rw [List.filterMap_append, List.filter_append]
    simp [hlocked]
  unfold mode
  rw [happend]

/-- A thread holds the lock in some mode if an object of it is locked. -/
theorem modeOf_eq_none_iff {l : List Acquire} : modeOf l = none ↔ l = [] := by
  unfold modeOf
  split_ifs with h
  · exact ⟨fun _ => h, fun _ => rfl⟩
  · exact ⟨fun hnone => absurd hnone (by simp), fun hnil => absurd hnil h⟩

/-- A read lock in the midst of others, or a write lock in the midst of a write lock. -/
theorem modeOf_nested {l : List Acquire} (hl : l ≠ [])
    (hmode : ¬(l.any (·.bWrite) = false ∧ a.bWrite = true)) : modeOf (a :: l) = modeOf l := by
  unfold modeOf
  rw [if_neg (List.cons_ne_nil a l), if_neg hl, List.any_cons]
  cases hany : l.any (·.bWrite) <;> cases hwrite : a.bWrite <;> simp_all

end Modes

/-- What every step keeps: the SRW lock is with the threads as the modes of their objects say, and
an object that waits is the only thing its thread has to do with the lock. -/
structure Inv (s : State) : Prop where
  fault : s.fault = false
  agrees : s.RWLock.Agrees (mode s.Instances)
  waiting : ∀ (o : ℕ) (a : Acquire), s.Instances[o]? = some (some a) → a.bWaiting = true →
    a.bLocked = false ∧ mode s.Instances a.dwThreadId = none
  one : ∀ (o o' : ℕ) (a a' : Acquire), s.Instances[o]? = some (some a) →
    s.Instances[o']? = some (some a') → a.bWaiting = true → a'.bWaiting = true →
    a.dwThreadId = a'.dwThreadId → o = o'

variable {s s' : State} {o t : ℕ} {a a' x : Acquire}

/-- A thread with an object that waits is one that waits. -/
theorem waits_of_waiting (hget : s.Instances[o]? = some (some a)) (h : a.bWaiting = true) :
    s.waits a.dwThreadId = true := by
  unfold State.waits
  rw [List.any_eq_true]
  refine ⟨a, ?_, by simp [h]⟩
  rw [List.mem_filterMap]
  exact ⟨some a, List.mem_of_getElem? hget, rfl⟩

/-- A thread acts on an object of its own while it waits for none. -/
theorem object_eq (h : s.object o = some a) :
    s.Instances[o]? = some (some a) ∧ s.waits a.dwThreadId = false := by
  unfold State.object at h
  cases hget : s.Instances[o]? with
  | none =>
      rw [hget] at h
      exact absurd h (by simp)
  | some x =>
      cases x with
      | none =>
          rw [hget] at h
          exact absurd h (by simp)
      | some b =>
          rw [hget] at h
          simp only [Option.join_some, Option.ite_none_left_eq_some, Option.some.injEq] at h
          obtain ⟨hwaits, rfl⟩ := h
          exact ⟨rfl, Bool.eq_false_iff.2 hwaits⟩

/-- **One object of a thread that does not wait changes.**  It may wait then if nothing of the thread
is locked. -/
theorem Inv.set (h : Inv s) (hget : s.Instances[o]? = some (some a))
    (hidle : s.waits a.dwThreadId = false) (hthread : x.dwThreadId = a.dwThreadId)
    (hfault : s'.fault = false) (hinst : s'.Instances = s.Instances.set o (some x))
    (hagrees : s'.RWLock.Agrees (mode s'.Instances))
    (hwait : x.bWaiting = true → x.bLocked = false ∧ others s.Instances o a.dwThreadId = []) :
    Inv s' := by
  obtain ⟨hlt, -⟩ := List.getElem?_eq_some_iff.1 hget
  have hcase : ∀ {o' : ℕ} {b : Acquire}, s'.Instances[o']? = some (some b) →
      (o' = o ∧ b = x) ∨ (o' ≠ o ∧ s.Instances[o']? = some (some b)) := by
    intro o' b hb
    rw [hinst] at hb
    by_cases hne : o' = o
    · subst hne
      rw [List.getElem?_set_self hlt] at hb
      exact .inl ⟨rfl, (Option.some.inj (Option.some.inj hb)).symm⟩
    · rw [List.getElem?_set_ne (Ne.symm hne)] at hb
      exact .inr ⟨hne, hb⟩
  -- what waits elsewhere belongs to another thread
  have hother : ∀ {o' : ℕ} {b : Acquire}, s.Instances[o']? = some (some b) → b.bWaiting = true →
      b.dwThreadId ≠ a.dwThreadId := by
    intro o' b hb hwaits heq
    have hyes := waits_of_waiting hb hwaits
    rw [heq, hidle] at hyes
    exact Bool.false_ne_true hyes
  refine ⟨hfault, hagrees, fun o' b hb hwaits => ?_, fun o' o'' b b' hb hb' hwaits hwaits' heq => ?_⟩
  · rcases hcase hb with ⟨-, rfl⟩ | ⟨-, hb⟩
    · obtain ⟨hunlocked, hnone⟩ := hwait hwaits
      refine ⟨hunlocked, ?_⟩
      rw [hinst, mode_set hget hthread, hthread, Function.update_self, own_of_unlocked hunlocked,
        List.nil_append, hnone]
      rfl
    · obtain ⟨hunlocked, hnone⟩ := h.waiting o' b hb hwaits
      refine ⟨hunlocked, ?_⟩
      rw [hinst, mode_set hget hthread, Function.update_of_ne (hother hb hwaits)]
      exact hnone
  · rcases hcase hb with ⟨rfl, rfl⟩ | ⟨-, hb⟩ <;> rcases hcase hb' with ⟨rfl, rfl⟩ | ⟨-, hb'⟩
    · rfl
    · exact absurd (heq.symm.trans hthread) (hother hb' hwaits')
    · exact absurd (heq.trans hthread) (hother hb hwaits)
    · exact h.one o' o'' b b' hb hb' hwaits hwaits' heq

/-- The condition under which an object may be unlocked. -/
def MayUnlock (s : State) (o : ℕ) (a : Acquire) : Prop :=
  ¬(a.bLocked = true ∧ a.bWrite = true ∧
    modeOf (others s.Instances o a.dwThreadId) = some false)

/-- **`Unlock`** leaves the SRW lock with the thread in the mode of its other objects. Another
object of the thread keeps the lock held; a write lock is turned into a read lock where only readers
are left. -/
theorem unlock_spec (h : Inv s) (hget : s.Instances[o]? = some (some a))
    (hmay : MayUnlock s o a) :
    (s.unlock o a).fault = false ∧
    (s.unlock o a).Instances = s.Instances.set o (some { a with bLocked := false }) ∧
    (s.unlock o a).RWLock.Agrees (Function.update (mode s.Instances) a.dwThreadId
      (modeOf (others s.Instances o a.dwThreadId))) := by
  have hmode := mode_eq hget
  unfold State.unlock
  by_cases hlocked : a.bLocked = true
  · rw [if_pos hlocked]
    have hown : own a = [a] := if_pos hlocked
    rw [hown, List.singleton_append] at hmode
    by_cases hothers : others s.Instances o a.dwThreadId = []
    · rw [if_neg (not_not.2 hothers)]
      have hheld : mode s.Instances a.dwThreadId = some a.bWrite := by
        rw [hmode, hothers]
        simp [modeOf]
      obtain ⟨l, hrelease, hagrees⟩ := h.agrees.release hheld
      have hreleased : s.releaseSRWLock a.dwThreadId a.bWrite = { s with RWLock := l } := by
        unfold State.releaseSRWLock
        rw [hrelease]
      rw [hreleased, hothers]
      exact ⟨h.fault, rfl, hagrees⟩
    · rw [if_pos hothers]
      -- the others are in the same mode: another write lock, or no write lock given up
      have hsame : modeOf (others s.Instances o a.dwThreadId) =
          mode s.Instances a.dwThreadId := by
        rw [hmode]
        refine (modeOf_nested hothers ?_).symm
        rintro ⟨hany, hwrite⟩
        refine hmay ⟨hlocked, hwrite, ?_⟩
        rw [modeOf, if_neg hothers, hany]
      rw [hsame, Function.update_eq_self]
      exact ⟨h.fault, rfl, h.agrees⟩
  · rw [if_neg hlocked]
    have hunlocked : a.bLocked = false := Bool.eq_false_iff.2 hlocked
    rw [own_of_unlocked hunlocked, List.nil_append] at hmode
    rw [← hmode, Function.update_eq_self]
    have hself : ({ a with bLocked := false } : Acquire) = a := by
      rw [← hunlocked]
    refine ⟨h.fault, ?_, h.agrees⟩
    obtain ⟨hlt, hget'⟩ := List.getElem?_eq_some_iff.1 hget
    rw [hself, ← hget', List.set_getElem_self]

/-- An unlock that is allowed keeps the invariant. -/
theorem Inv.unlock (h : Inv s) (hget : s.Instances[o]? = some (some a))
    (hidle : s.waits a.dwThreadId = false) (hmay : MayUnlock s o a) : Inv (s.unlock o a) := by
  obtain ⟨hfault, hinst, hagrees⟩ := unlock_spec h hget hmay
  have hwaiting : a.bWaiting = false := by
    refine Bool.eq_false_iff.2 fun hwaits => ?_
    exact Bool.false_ne_true (hidle.symm.trans (waits_of_waiting hget hwaits))
  refine h.set (x := { a with bLocked := false }) hget hidle rfl hfault hinst ?_
    fun hwaits => absurd (hwaiting.symm.trans hwaits) Bool.false_ne_true
  rw [hinst, mode_set (x := { a with bLocked := false }) hget rfl]
  exact hagrees

/-- **`Lock`**, by a thread that does not ask for more than it holds. It may get what it asks for at
once, since the thread has it already, or waits for the lock to be free for it. -/
theorem Inv.lock (h : Inv s) (hget : s.Instances[o]? = some (some a))
    (hidle : s.waits a.dwThreadId = false) (hmay : MayUnlock s o a) {bWrite : Bool}
    (hasks : ¬(bWrite = true ∧ mode s.Instances a.dwThreadId = some false)) :
    Inv (s.lock o a bWrite) := by
  obtain ⟨hfault, hinst, hagrees⟩ := unlock_spec h hget hmay
  have hmode := mode_eq hget
  have hothers : others (s.unlock o a).Instances o a.dwThreadId =
      others s.Instances o a.dwThreadId := by
    rw [hinst, others_set]
  unfold State.lock
  dsimp only
  rw [hothers]
  have hset : ∀ x : Acquire, ((s.unlock o a).setInstance o (some x)).Instances =
      s.Instances.set o (some x) := by
    intro x
    show (s.unlock o a).Instances.set o (some x) = _
    rw [hinst, List.set_set]
  by_cases hnested : others s.Instances o a.dwThreadId ≠ [] ∧
      ¬((others s.Instances o a.dwThreadId).any (·.bWrite) = false ∧ bWrite = true)
  · rw [if_pos hnested]
    refine h.set (x := { a with bLocked := true, bWrite := bWrite, bWaiting := false }) hget hidle
      rfl hfault (hset _) ?_ fun hwaits => absurd hwaits Bool.false_ne_true
    rw [hset, mode_set (x := { a with bLocked := true, bWrite := bWrite, bWaiting := false }) hget
      rfl]
    have hown : own { a with bLocked := true, bWrite := bWrite, bWaiting := false } =
        [{ a with bLocked := true, bWrite := bWrite, bWaiting := false }] := if_pos rfl
    rw [hown, List.singleton_append, modeOf_nested hnested.1 hnested.2]
    exact hagrees
  · rw [if_neg hnested]
    -- the SRW lock is waited for, so the thread holds nothing
    have hnone : others s.Instances o a.dwThreadId = [] := by
      by_contra hne
      obtain ⟨hany, hwrite⟩ := not_not.1 fun hc => hnested ⟨hne, hc⟩
      have hreads : modeOf (others s.Instances o a.dwThreadId) = some false := by
        rw [modeOf, if_neg hne, hany]
      refine hasks ⟨hwrite, hmode.trans ?_⟩
      by_cases hlocked : a.bLocked = true
      · have hown : own a = [a] := if_pos hlocked
        rw [hown, List.singleton_append]
        refine (modeOf_nested hne ?_).trans hreads
        rintro ⟨-, hwrite'⟩
        exact hmay ⟨hlocked, hwrite', hreads⟩
      · rw [own_of_unlocked (Bool.eq_false_iff.2 hlocked), List.nil_append]
        exact hreads
    refine h.set (x := { a with bLocked := false, bWrite := bWrite, bWaiting := true }) hget hidle
      rfl hfault (hset _) ?_ fun _ => ⟨rfl, hnone⟩
    rw [hset, mode_set (x := { a with bLocked := false, bWrite := bWrite, bWaiting := true }) hget
      rfl]
    exact hagrees

/-- **The SRW lock is acquired** for an object that waited. The lock gives it to the thread only
where no other one excludes it, and the mode of the thread becomes what the object asked for. -/
theorem Inv.acquired (h : Inv s) (hget : s.Instances[o]? = some (some a))
    (hwaiting : a.bWaiting = true) {l : SrwLock ℕ}
    (hl : s.RWLock.acquire a.dwThreadId a.bWrite = some l) :
    Inv ({ s with RWLock := l }.setInstance o (some { a with bLocked := true, bWaiting := false })) := by
  obtain ⟨hlt, -⟩ := List.getElem?_eq_some_iff.1 hget
  obtain ⟨hunlocked, hnone⟩ := h.waiting o a hget hwaiting
  have hothers : others s.Instances o a.dwThreadId = [] := by
    have hmode := mode_eq hget
    rw [own_of_unlocked hunlocked, List.nil_append, hnone] at hmode
    exact modeOf_eq_none_iff.1 hmode.symm
  have hmode := mode_set (x := { a with bLocked := true, bWaiting := false }) hget rfl
  have hown : own { a with bLocked := true, bWaiting := false } =
      [{ a with bLocked := true, bWaiting := false }] := if_pos rfl
  rw [hown, hothers] at hmode
  have hother : ∀ {o' : ℕ} {b : Acquire},
      (s.Instances.set o (some { a with bLocked := true, bWaiting := false }))[o']? =
      some (some b) → b.bWaiting = true → s.Instances[o']? = some (some b) ∧
        b.dwThreadId ≠ a.dwThreadId := by
    intro o' b hb hwaits
    by_cases hne : o' = o
    · subst hne
      rw [List.getElem?_set_self hlt] at hb
      obtain rfl := Option.some.inj (Option.some.inj hb)
      exact absurd hwaits Bool.false_ne_true
    · rw [List.getElem?_set_ne (Ne.symm hne)] at hb
      exact ⟨hb, fun heq => hne (h.one o' o b a hb hget hwaits hwaiting heq)⟩
  refine ⟨h.fault, ?_, fun o' b hb hwaits => ?_, fun o' o'' b b' hb hb' hwaits hwaits' heq => ?_⟩
  · show l.Agrees (mode (s.Instances.set o _))
    rw [hmode]
    have hagrees := h.agrees.acquire hnone hl
    simpa [modeOf] using hagrees
  · obtain ⟨hb, hne⟩ := hother hb hwaits
    obtain ⟨hunlocked', hnone'⟩ := h.waiting o' b hb hwaits
    refine ⟨hunlocked', ?_⟩
    show mode (s.Instances.set o _) _ = none
    rw [hmode, Function.update_of_ne hne]
    exact hnone'
  · exact h.one o' o'' b b' (hother hb hwaits).1 (hother hb' hwaits').1 hwaits hwaits' heq

/-- A new object. -/
theorem Inv.append (h : Inv s) (a : Acquire) (hunlocked : a.bLocked = false)
    (hwaiting : a.bWaiting = false) : Inv { s with Instances := s.Instances ++ [some a] } := by
  have hold : ∀ {o' : ℕ} {b : Acquire}, (s.Instances ++ [some a])[o']? = some (some b) → b.bWaiting = true →
      s.Instances[o']? = some (some b) := by
    intro o' b hb hwaits
    by_cases hlt : o' < s.Instances.length
    · rwa [List.getElem?_append_left hlt] at hb
    · have hmem : some b ∈ [some a] := by
        rw [List.getElem?_append_right (Nat.le_of_not_lt hlt)] at hb
        exact List.mem_of_getElem? hb
      obtain rfl := Option.some.inj (List.mem_singleton.1 hmem)
      exact absurd (hwaiting.symm.trans hwaits) Bool.false_ne_true
  refine ⟨h.fault, ?_, fun o' b hb hwaits => ?_, fun o' o'' b b' hb hb' hwaits hwaits' heq => ?_⟩
  · show s.RWLock.Agrees (mode (s.Instances ++ [some a]))
    rw [mode_append hunlocked]
    exact h.agrees
  · obtain ⟨hunlocked', hnone⟩ := h.waiting o' b (hold hb hwaits) hwaits
    refine ⟨hunlocked', ?_⟩
    show mode (s.Instances ++ [some a]) _ = none
    rw [mode_append hunlocked]
    exact hnone
  · exact h.one o' o'' b b' (hold hb hwaits) (hold hb' hwaits') hwaits hwaits' heq

/-- An object that is not locked is gone. -/
theorem Inv.remove (h : Inv s) (hget : s.Instances[o]? = some (some a))
    (hunlocked : a.bLocked = false) : Inv (s.setInstance o none) := by
  obtain ⟨hlt, -⟩ := List.getElem?_eq_some_iff.1 hget
  have hmode : mode (s.Instances.set o none) = mode s.Instances := mode_set_none hget hunlocked
  have hold : ∀ {o' : ℕ} {b : Acquire}, (s.Instances.set o none)[o']? = some (some b) →
      s.Instances[o']? = some (some b) := by
    intro o' b hb
    by_cases hne : o' = o
    · subst hne
      rw [List.getElem?_set_self hlt] at hb
      exact absurd (Option.some.inj hb) (by simp)
    · rwa [List.getElem?_set_ne (Ne.symm hne)] at hb
  refine ⟨h.fault, ?_, fun o' b hb hwaits => ?_, fun o' o'' b b' hb hb' hwaits hwaits' heq => ?_⟩
  · show s.RWLock.Agrees (mode (s.Instances.set o none))
    rw [hmode]
    exact h.agrees
  · obtain ⟨hunlocked', hnone⟩ := h.waiting o' b (hold hb) hwaits
    refine ⟨hunlocked', ?_⟩
    show mode (s.Instances.set o none) _ = none
    rw [hmode]
    exact hnone
  · exact h.one o' o'' b b' (hold hb) (hold hb') hwaits hwaits' heq

/-- **Every step keeps it** that asks for no write lock under read locks, and gives up no write lock
before them. -/
theorem Inv.step (h : Inv s) {act : Action} (hask : ¬act.Upgrades s) (hleave : ¬act.LeavesReads s)
    (hstep : Lock.step s act = some s') : Inv s' := by
  cases act with
  | construct t bWrite bGetLock =>
      simp only [Lock.step] at hstep
      obtain ⟨hidle, rfl⟩ := Option.ite_none_left_eq_some.1 hstep |>.imp_right Option.some.inj
      have happend := h.append { dwThreadId := t, bWrite := bWrite } rfl rfl
      by_cases hget : bGetLock = true
      · rw [if_pos hget]
        refine happend.lock (a := { dwThreadId := t, bWrite := bWrite })
          List.getElem?_concat_length ?_ (fun hlocked => absurd hlocked.1 Bool.false_ne_true) ?_
        · refine Bool.eq_false_iff.2 fun hwaits => hidle ?_
          unfold State.waits at hwaits ⊢
          rw [List.filterMap_append, List.any_append] at hwaits
          simpa using hwaits
        · rintro ⟨hwrite, hmode⟩
          refine hask ⟨hwrite, hget, ?_⟩
          rwa [show mode (s.Instances ++ [some _]) _ = _ from congrFun (mode_append rfl) _] at hmode
      · rw [if_neg hget]
        exact happend
  | lock o bWrite =>
      obtain ⟨a, hobj, rfl⟩ := Option.map_eq_some_iff.1 hstep
      obtain ⟨hget, hidle⟩ := object_eq hobj
      exact h.lock hget hidle (fun hmay => hleave ⟨a, hobj, hmay⟩)
        fun hasks => hask ⟨hasks.1, a, hobj, hasks.2⟩
  | acquired o =>
      simp only [Lock.step] at hstep
      cases hget : s.Instances[o]? with
      | none =>
          rw [hget] at hstep
          exact absurd hstep (by simp)
      | some x =>
          cases x with
          | none =>
              rw [hget] at hstep
              exact absurd hstep (by simp)
          | some a =>
              rw [hget] at hstep
              obtain ⟨hwaiting, hacquired⟩ := Option.ite_none_right_eq_some.1 hstep
              obtain ⟨l, hl, rfl⟩ := Option.map_eq_some_iff.1 hacquired
              exact h.acquired hget hwaiting hl
  | unlock o =>
      obtain ⟨a, hobj, rfl⟩ := Option.map_eq_some_iff.1 hstep
      obtain ⟨hget, hidle⟩ := object_eq hobj
      exact h.unlock hget hidle fun hmay => hleave ⟨a, hobj, hmay⟩
  | destroy o =>
      obtain ⟨a, hobj, rfl⟩ := Option.map_eq_some_iff.1 hstep
      obtain ⟨hget, hidle⟩ := object_eq hobj
      have hmay : MayUnlock s o a := fun hmay => hleave ⟨a, hobj, hmay⟩
      obtain ⟨-, hinst, -⟩ := unlock_spec h hget hmay
      obtain ⟨hlt, -⟩ := List.getElem?_eq_some_iff.1 hget
      refine (h.unlock hget hidle hmay).remove (a := { a with bLocked := false }) ?_ rfl
      rw [hinst, List.getElem?_set_self hlt]

/-- The invariant says what the lock is to do. -/
theorem Inv.correct (h : Inv s) : Correct s := by
  refine ⟨h.fault, fun t => ?_, fun t t' a ha hwrite ht' => ?_⟩
  · rw [h.agrees.acquisitions_eq t]
    simp only [mode, modeOf_eq_none_iff]
  · refine h.agrees.alone ?_ fun hnone => ht' (modeOf_eq_none_iff.1 hnone)
    unfold mode modeOf
    rw [if_neg (List.ne_nil_of_mem ha), List.any_eq_true.2 ⟨a, ha, hwrite⟩]

/-- **The lock is correct while write locks are given up last.**  In every run in which no thread
asks for a write lock while it holds only read locks, and none unlocks its only write lock before its
read locks. -/
theorem recursive_lock_correct
    (h : system.ReachableBy (fun s act => ¬act.Upgrades s ∧ ¬act.LeavesReads s) s) :
    Correct s := by
  have hinv : Inv s := by
    refine h.invariant (I := Inv) ?_ fun s act s' hs hC hstep => hs.step hC.1 hC.2 hstep
    rintro s rfl
    refine ⟨rfl, SrwLock.agrees_free, fun o a hget => ?_, fun o o' a a' hget => ?_⟩ <;>
      exact absurd hget (by simp)
  exact hinv.correct

/-- A write lock and a read lock inside it, which is unlocked first. The thread holds the SRW lock
once, for writing, before and after. -/
theorem recursive_lock_correct_nested : ∃ s, Correct s ∧ s.RWLock.acquisitions 1 = 1 ∧
    system.run [.construct 1 true true, .acquired 0, .construct 1 false true, .unlock 1] {} =
      some s := by
  refine ⟨_, recursive_lock_correct ?_, ?_, rfl⟩
  · refine .step (a := .unlock 1) (.step (a := .construct 1 false true) (.step (a := .acquired 0)
      (.step (a := .construct 1 true true) (.init rfl) ⟨?_, id⟩ rfl) ⟨id, id⟩ rfl) ⟨?_, id⟩ rfl)
      ⟨id, ?_⟩ rfl
    · rintro ⟨-, -, hmode⟩
      exact absurd hmode (by decide)
    · rintro ⟨hwrite, -⟩
      exact absurd hwrite Bool.false_ne_true
    · rintro ⟨a, hobj, -, hwrite, -⟩
      obtain rfl := Option.some.inj hobj
      exact absurd hwrite Bool.false_ne_true
  · decide

/-- **The write lock is unlocked first**: the read lock that is left releases as shared what was
acquired exclusively. -/
theorem released_shared : ∃ s,
    system.ReachableBy (fun s act => ¬act.Upgrades s) s ∧ s.fault = true ∧ ¬Correct s := by
  refine ⟨_, .step (a := .unlock 1) (.step (a := .unlock 0) (.step (a := .construct 1 false true)
    (.step (a := .acquired 0) (.step (a := .construct 1 true true) (.init rfl) ?_ rfl) id rfl)
    ?_ rfl) id rfl) id rfl, rfl, ?_⟩
  · rintro ⟨-, -, hmode⟩
    exact absurd hmode (by decide)
  · rintro ⟨hwrite, -⟩
    exact absurd hwrite Bool.false_ne_true
  · intro h
    exact Bool.false_ne_true h.fault.symm

end Lock
end ECSUtil

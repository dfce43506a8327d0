/-
# A worker thread

`CSimpleWorkerThread` (`ECSUtil/SimpleWorkerThread.cpp`): `ThreadProc` of one object, with the calls of any
number of other threads that create the thread, give it work, end it and wait for its end.  What is done
under `csWorkEvent` is one step; only the last block of `ThreadProc` is several, for what it stores is read
by others without the lock.

A thread is created when `IfActive` is false and no `CreateThread` or `KillThreadWait` is under way
(`Careful`).  Then its event is there as long as the thread uses it, and a thread that was told to end does
not sleep (`Inv`).

`Pc` is where the thread is, `Call` where each of the others is in its call.  What the others do is
seen by the thread only through the fields of the object, so most steps of a call leave the thread
alone, and the invariant is kept part by part.
-/

import Mathlib.Data.Fintype.Basic
import Mathlib.Data.List.Basic
import Mathlib.Logic.Function.Basic
import Mathlib.Tactic.SplitIfs
import ECSUtil.Lib.StepSystem

namespace ECSUtil
namespace Worker

/-- Where `ThreadProc` is. -/
inductive Pc
  /-- There is no thread, or it has returned. -/
  | none
  | suspended
  | begin
  /-- `InitInstance` runs. -/
  | initInstance
  /-- At the test of `bTerminate`. -/
  | test
  /-- The list of handles is filled. -/
  | list
  /-- `WaitForMultipleObjectsEx`, with the handle of the work event. -/
  | wait (hObject : ℕ)
  | woken
  /-- `DoWork` runs. -/
  | doWork
  /-- `ExitInstance` runs. -/
  | exitInstance
  /-- Before the last block. -/
  | last
  /-- The event is deleted and the handle closed. -/
  | closing
  /-- `bRunning` is false. -/
  | signal
  /-- A null pointer was followed. -/
  | fault
  deriving DecidableEq, Repr

/-- Where a call of another thread is. -/
inductive Call
  | idle
  /-- `CreateThread` has made the event. -/
  | created
  /-- `bTerminate` is false. -/
  | cleared
  /-- The thread is suspended. -/
  | begun
  /-- `KillThreadWait` found a thread. -/
  | kill
  /-- `csKillThread` is next. -/
  | lock
  /-- `m_pWorkEvent` is tested. -/
  | test
  | wait
  /-- The loop was left. -/
  | delete
  deriving DecidableEq, Repr

/-- An object, the threads `ι` that call it and the events `ε` that they register.  `dwThreadID` is true
for an id that is not zero. -/
structure State (ε ι : Type*) where
  /-- The handle of the event, and whether it is signalled. -/
  m_pWorkEvent : Option (ℕ × Bool) := none
  /-- The handle of the next event. -/
  nextHandle : ℕ := 0
  pThread : Bool := false
  dwThreadID : Bool := false
  hThread : Bool := false
  bRunning : Bool := false
  bTerminate : Bool := false
  bThreadInitialized : Bool := false
  TermEventList : List ε := []
  /-- The `SetEvent` calls of `SignalTermination`. -/
  signalled : List ε := []
  csKillThread : Option ι := none
  pc : Pc := .none
  call : ι → Call := fun _ => .idle

/-- The steps of `ThreadProc`. -/
inductive ProcAct
  | begin
  | initInstance (bRet : Bool)
  | test
  | list
  /-- The wait ends for the work event. -/
  | workEvent
  /-- The wait ends for an event of `EventList`, for a timeout or for a routine of an alertable wait. -/
  | otherEvent
  | waitFailed
  | doWork
  | doWorkReturn
  | exitInstance
  | deleteEvent
  | stop
  | signalTermination
  /-- The thread is killed from outside. -/
  | die
  deriving DecidableEq, Repr

/-- The steps of the other threads. -/
inductive CallAct (ε : Type*)
  | startWork
  | killThread
  | addTermEvent (pEvent : ε)
  | removeTermEvent (pEvent : ε)
  | removeAllTermEvent
  | ifActive
  | createThread
  | clearTerminate
  /-- `AfxBeginThread`, which gives a thread or not. -/
  | beginThread (b : Bool)
  /-- `OpenThread`, which gives a handle or not. -/
  | openThread (b : Bool)
  | killThreadWait (bDontKillWaitOnly : Bool)
  | kill
  | lockKillThread
  | testEvent
  | waitActive
  /-- `WaitForSingleObject` fails. -/
  | waitFailed
  | deleteEvent
  deriving DecidableEq, Repr

inductive Act (ε ι : Type*)
  | proc (a : ProcAct)
  | call (t : ι) (a : CallAct ε)
  deriving DecidableEq, Repr

/-- The thread has what it needs of the object: it is past its suspension and before its last block. -/
def Pc.runs : Pc → Bool
  | .begin | .initInstance | .test | .list | .wait _ | .woken | .doWork | .exitInstance | .last => true
  | _ => false

/-- `csWorkEvent` is held from one step to the next. -/
def Pc.locks : Pc → Bool
  | .closing | .signal => true
  | _ => false

/-- Nothing of the derived class runs any more. -/
def Pc.ended : Pc → Bool
  | .none | .closing | .signal => true
  | _ => false

/-- The test of `bTerminate` is done, and the wait is not over. -/
def Pc.sleeps : Pc → Bool
  | .list | .wait _ => true
  | _ => false

/-- The loop was left. -/
def Pc.left : Pc → Bool
  | .exitInstance | .last | .closing | .signal => true
  | _ => false

/-- `CreateThread` is under way. -/
def Call.creates : Call → Bool
  | .created | .cleared | .begun => true
  | _ => false

namespace State

variable {ε ι : Type*}

/-- `IfActive`.  `bRunning` is read without the lock: who reads it before the last block of the thread and
then waits for the lock finds no handle. -/
def IfActive (s : State ε ι) : Bool := s.bRunning && s.hThread && s.pc ≠ .none

/-- `IfActive` can have its answer. -/
def answers (s : State ε ι) : Bool := !s.bRunning || !s.pc.locks

/-- `IfActive` closes the handle of a thread that did not return from `ThreadProc`. -/
def closed (s : State ε ι) : State ε ι :=
  if s.bRunning && s.pc = .none then { s with hThread := false } else s

/-- `SetEvent` of the work event. -/
def setEvent (s : State ε ι) : State ε ι :=
  { s with m_pWorkEvent := s.m_pWorkEvent.map fun e => (e.1, true) }

/-- `KillThread`. -/
def killThread (s : State ε ι) : State ε ι := { s.setEvent with bTerminate := true }

/-- A step of `ThreadProc`. -/
def proc (s : State ε ι) : ProcAct → Option (State ε ι)
  | .begin =>
      if s.pc = .begin then some { s with pc := if s.hThread then .initInstance else .none } else none
  | .initInstance bRet =>
      if s.pc = .initInstance then
        some { s with bTerminate := s.bTerminate || !bRet, bThreadInitialized := true, pc := .test }
      else none
  | .test =>
      if s.pc = .test then
        some (if s.bTerminate then { s with bThreadInitialized := false, pc := .exitInstance }
          else { s with pc := .list })
      else none
  | .list =>
      if s.pc = .list then
        some { s with pc := match s.m_pWorkEvent with
          | some e => .wait e.1
          | none => .fault }
      else none
  | .workEvent =>
      match s.m_pWorkEvent with
      | some (h, true) =>
          if s.pc = .wait h then some { s with m_pWorkEvent := some (h, false), pc := .woken } else none
      | _ => none
  | .otherEvent =>
      match s.pc with
      | .wait _ => some { s with pc := .woken }
      | _ => none
  | .waitFailed =>
      match s.pc with
      | .wait _ => some { s with pc := .test }
      | _ => none
  | .doWork => if s.pc = .woken then some { s with pc := .doWork } else none
  | .doWorkReturn => if s.pc = .doWork then some { s with pc := .test } else none
  | .exitInstance => if s.pc = .exitInstance then some { s with pc := .last } else none
  | .deleteEvent =>
      if s.pc = .last then
        some { s with m_pWorkEvent := none, pThread := false, hThread := false,
                      dwThreadID := s.dwThreadID && !s.hThread, pc := .closing }
      else none
  | .stop => if s.pc = .closing then some { s with bRunning := false, pc := .signal } else none
  | .signalTermination =>
      if s.pc = .signal then
        some { s with signalled := s.signalled ++ s.TermEventList, TermEventList := [], pc := .none }
      else none
  | .die => if s.pc.runs then some { s with pc := .none } else none

variable [DecidableEq ι]

def setCall (s : State ε ι) (t : ι) (c : Call) : State ε ι :=
  { s with call := Function.update s.call t c }

variable [DecidableEq ε]

/-- A step of a call.  A step with a section under `csWorkEvent` is made while the thread does not hold
it. -/
def callStep (s : State ε ι) (t : ι) : CallAct ε → Option (State ε ι)
  | .startWork => if s.pc.locks then none else some s.setEvent
  | .killThread => if s.pc.locks then none else some s.killThread
  | .addTermEvent pEvent =>
      if s.pc.locks then none
      else some (if s.IfActive then { s with TermEventList := s.TermEventList ++ [pEvent] } else s.closed)
  | .removeTermEvent pEvent =>
      if s.pc.locks then none
      else some { s with TermEventList := s.TermEventList.filter (· ≠ pEvent) }
  | .removeAllTermEvent => if s.pc.locks then none else some { s with TermEventList := [] }
  | .ifActive => if s.answers then some s.closed else none
  | .createThread =>
      if s.call t = .idle ∧ s.pc.locks = false then
        some (setCall { s with m_pWorkEvent := some (s.nextHandle, false), nextHandle := s.nextHandle + 1,
                               hThread := false, pThread := s.pThread && !s.hThread } t .created)
      else none
  | .clearTerminate =>
      if s.call t = .created then some (setCall { s with bTerminate := false } t .cleared) else none
  | .beginThread b =>
      -- the model has one thread: another one can begin when there is none
      if s.call t = .cleared ∧ s.pc = .none then
        some (if b then setCall { s with pThread := true, pc := .suspended } t .begun
          else setCall { s with pThread := false } t .idle)
      else none
  | .openThread b =>
      -- without a handle the thread is resumed too, and dies while it is waited for
      if s.call t = .begun then
        some (setCall { s with bRunning := true, dwThreadID := true, hThread := b,
                               pc := if b then .begin else .none } t .idle)
      else none
  | .killThreadWait bDontKillWaitOnly =>
      if s.call t = .idle then
        some (if s.pThread && s.dwThreadID then s.setCall t (if bDontKillWaitOnly then .lock else .kill)
          else s)
      else none
  | .kill =>
      if s.call t = .kill ∧ s.pc.locks = false then some (s.killThread.setCall t .lock) else none
  | .lockKillThread =>
      if s.call t = .lock ∧ s.csKillThread = none then
        some (setCall { s with csKillThread := some t } t .test)
      else none
  | .testEvent =>
      if s.call t = .test then
        some (if s.m_pWorkEvent = none then setCall { s with csKillThread := none } t .idle
          else s.setCall t .wait)
      else none
  | .waitActive =>
      if s.call t = .wait ∧ s.answers then
        some (if s.IfActive then s else s.closed.setCall t .delete)
      else none
  | .waitFailed => if s.call t = .wait then some (s.setCall t .delete) else none
  | .deleteEvent =>
      if s.call t = .delete ∧ s.pc.locks = false then
        some (setCall { s with m_pWorkEvent := none, csKillThread := none } t .idle)
      else none

def step (s : State ε ι) : Act ε ι → Option (State ε ι)
  | .proc a => s.proc a
  | .call t a => s.callStep t a

end State

/-- No thread at first. -/
def system (ε ι : Type*) [DecidableEq ε] [DecidableEq ι] : StepSystem (State ε ι) (Act ε ι) where
  init s := s = {}
  step := State.step

/-- `CreateThread` is called when `IfActive` is false and no other call is under way, and no
`KillThreadWait` begins until it has returned; the wait for the end does not fail. -/
def Careful {ε ι : Type*} (s : State ε ι) : Act ε ι → Prop
  | .call _ .createThread => s.IfActive = false ∧ ∀ u, s.call u = .idle
  | .call _ (.killThreadWait _) => ∀ u, (s.call u).creates = false
  | .call _ .waitFailed => False
  | _ => True

instance {ε ι : Type*} [Fintype ι] (s : State ε ι) : (a : Act ε ι) → Decidable (Careful s a)
  | .proc _ => .isTrue trivial
  | .call _ .createThread => inferInstanceAs (Decidable (_ ∧ ∀ _, _))
  | .call _ (.killThreadWait _) => inferInstanceAs (Decidable (∀ _, _))
  | .call _ .waitFailed => .isFalse id
  | .call _ .startWork | .call _ .killThread | .call _ (.addTermEvent _) | .call _ (.removeTermEvent _)
  | .call _ .removeAllTermEvent | .call _ .ifActive | .call _ .clearTerminate | .call _ (.beginThread _)
  | .call _ (.openThread _) | .call _ .kill | .call _ .lockKillThread | .call _ .testEvent
  | .call _ .waitActive | .call _ .deleteEvent => .isTrue trivial

/-- **The invariant.**  A thread that runs is known to the others and has its event, which is signalled if it is to
end and might sleep; a thread that is being created is the only thing that goes on, and its predecessor is gone;
and an event is deleted only behind the end of the thread. -/
structure Inv {ε ι : Type*} (s : State ε ι) : Prop where
  noFault : s.pc ≠ .fault
  /-- A thread that runs is known to the others. -/
  known : s.pc.runs = true → s.bRunning = true ∧ s.hThread = true ∧ s.pThread = true ∧ s.dwThreadID = true
  event : s.pc.runs = true ∨ (∃ t, (s.call t).creates = true) → s.m_pWorkEvent.isSome = true
  /-- It waits for the event that is there. -/
  waits : ∀ h, s.pc = .wait h → ∃ b, s.m_pWorkEvent = some (h, b)
  /-- It does not sleep when it has to end. -/
  wakes : s.bTerminate = true → s.pc.sleeps = true → ∃ h, s.m_pWorkEvent = some (h, true)
  left : s.pc.left = true → s.bTerminate = true
  suspended : s.pc = .suspended → ∃ t, (s.call t).creates = true
  resting : ∀ t, (s.call t).creates = true → (s.pc = .none ∨ s.pc = .suspended) ∧ s.hThread = false
  alone : ∀ t, (s.call t).creates = true → ∀ u, u ≠ t → s.call u = .idle
  begun : ∀ t, s.call t = .begun → s.pThread = true
  deletes : ∀ t, s.call t = .delete → s.pc.ended = true

section Invariant

variable {ε ι : Type*} {s s' : State ε ι} {t : ι} {c : Call} {p : Pc}

/-- A thread that does not run, is not suspended and made no fault has ended. -/
theorem Pc.ended_of (hruns : p.runs = false) (hsuspended : p ≠ .suspended) (hfault : p ≠ .fault) :
    p.ended = true := by
  cases p <;> first | rfl | exact absurd rfl hsuspended | exact absurd rfl hfault | cases hruns

/-- A thread that runs has not ended. -/
theorem Pc.not_ended (h : p.runs = true) : p.ended = false := by cases p <;> first | rfl | cases h

/-- A thread that ended and is not in its last block is none. -/
theorem Pc.eq_none (hended : p.ended = true) (hlocks : p.locks = false) : p = .none := by
  cases p <;> first | rfl | exact Bool.noConfusion hended | exact Bool.noConfusion hlocks

/-- No thread is created while one runs. -/
theorem Inv.creates_of_runs (h : Inv s) (hruns : s.pc.runs = true) (t : ι) : (s.call t).creates = false := by
  by_contra hcreates
  rw [Bool.not_eq_false] at hcreates
  rcases (h.resting t hcreates).1 with hpc | hpc <;> rw [hpc] at hruns <;> cases hruns

/-- `IfActive` is false only of a thread that has ended. -/
theorem Inv.ended_of_inactive (h : Inv s) (hactive : s.IfActive = false)
    (hcreates : ∀ t, (s.call t).creates = false) : s.pc.ended = true := by
  refine Pc.ended_of ?_ (fun hpc => ?_) h.noFault
  · by_contra hruns
    rw [Bool.not_eq_false] at hruns
    obtain ⟨hrunning, hthread, -⟩ := h.known hruns
    have hpc : s.pc ≠ .none := fun hpc => by rw [hpc] at hruns; cases hruns
    simp [State.IfActive, hrunning, hthread, hpc] at hactive
  · obtain ⟨t, ht⟩ := h.suspended hpc
    exact Bool.noConfusion ((hcreates t).symm.trans ht)

/-- **A step of a thread that runs** and goes on. The event stays the one that it waits for, and
nobody creates a thread at that time. -/
theorem Inv.running (h : Inv s) (hruns : s.pc.runs = true) {ev : Option (ℕ × Bool)} {bTerminate b : Bool}
    (hp : p.runs = true) (hev : ev.isSome = true) (hwaits : ∀ h, p = .wait h → ∃ b, ev = some (h, b))
    (hwakes : bTerminate = true → p.sleeps = true → ∃ h, ev = some (h, true))
    (hleft : p.left = true → bTerminate = true) :
    Inv { s with m_pWorkEvent := ev, bTerminate := bTerminate, bThreadInitialized := b, pc := p } where
  noFault := by rintro rfl; cases hp
  known _ := h.known hruns
  event _ := hev
  waits := hwaits
  wakes := hwakes
  left := hleft
  suspended := by rintro rfl; cases hp
  resting t ht := Bool.noConfusion ((h.creates_of_runs hruns t).symm.trans ht)
  alone t ht := Bool.noConfusion ((h.creates_of_runs hruns t).symm.trans ht)
  begun := h.begun
  deletes t ht := Bool.noConfusion ((Pc.not_ended hruns).symm.trans (h.deletes t ht))

/-- A thread that was past its suspension has ended, or is about to. -/
theorem inv_over (hcreates : ∀ t, (s.call t).creates = false) (hp : p.ended = true)
    (hleft : p.left = true → s.bTerminate = true) {ev : Option (ℕ × Bool)} {b₁ b₂ b₃ b₄ : Bool} {l₁ l₂ : List ε} :
    Inv { s with m_pWorkEvent := ev, pThread := b₁, hThread := b₂, dwThreadID := b₃, bRunning := b₄,
                 signalled := l₁, TermEventList := l₂, pc := p } where
  noFault := by rintro rfl; cases hp
  known hruns := Bool.noConfusion ((Pc.not_ended hruns).symm.trans hp)
  event hor := by
    rcases hor with hruns | ⟨t, ht⟩
    · exact Bool.noConfusion ((Pc.not_ended hruns).symm.trans hp)
    · exact Bool.noConfusion ((hcreates t).symm.trans ht)
  waits := by rintro _ rfl; cases hp
  wakes _ hsleeps := by cases p <;> first | exact Bool.noConfusion hsleeps | exact Bool.noConfusion hp
  left := hleft
  suspended := by rintro rfl; cases hp
  resting t ht := Bool.noConfusion ((hcreates t).symm.trans ht)
  alone t ht := Bool.noConfusion ((hcreates t).symm.trans ht)
  begun t ht := Bool.noConfusion ((hcreates t).symm.trans (congrArg Call.creates ht))
  deletes _ _ := hp

/-- The invariant holds of a new object. -/
theorem inv_init : Inv ({} : State ε ι) :=
  inv_over (s := {}) (p := .none) (fun _ => rfl) rfl fun h => Bool.noConfusion h

/-- **A step of `ThreadProc` keeps the invariant.** One case for each point; a thread that has ended
is left to the calls. -/
theorem Inv.proc (h : Inv s) {a : ProcAct} (hs : s.proc a = some s') : Inv s' := by
  have hsome : s.pc.runs = true → s.m_pWorkEvent.isSome = true := fun hruns => h.event (.inl hruns)
  have hmoves : ∀ p, s.pc.runs = true → p.runs = true → p.sleeps = false → p.left = false →
      Inv { s with pc := p } := fun p hruns hp hsleeps hleft =>
    h.running hruns hp (hsome hruns) (by rintro _ rfl; cases hsleeps)
      (fun _ hp => Bool.noConfusion (hsleeps.symm.trans hp)) fun hp => Bool.noConfusion (hleft.symm.trans hp)
  have hends : ∀ t, s.pc.left = true → (s.call t).creates = false := by
    intro t hleft
    by_contra hcreates
    rw [Bool.not_eq_false] at hcreates
    rcases (h.resting t hcreates).1 with hpc | hpc <;> rw [hpc] at hleft <;> cases hleft
  cases a with
  | begin =>
      simp only [State.proc, Option.ite_none_right_eq_some, Option.some.injEq] at hs
      obtain ⟨hpc, rfl⟩ := hs
      have hruns : s.pc.runs = true := hpc ▸ rfl
      rw [if_pos (h.known hruns).2.1]
      exact hmoves _ hruns rfl rfl rfl
  | initInstance bRet =>
      simp only [State.proc, Option.ite_none_right_eq_some, Option.some.injEq] at hs
      obtain ⟨hpc, rfl⟩ := hs
      have hruns : s.pc.runs = true := hpc ▸ rfl
      exact h.running hruns rfl (hsome hruns) (fun _ hp => Pc.noConfusion hp) (fun _ hp => Bool.noConfusion hp)
        fun hp => Bool.noConfusion hp
  | test =>
      simp only [State.proc, Option.ite_none_right_eq_some, Option.some.injEq] at hs
      obtain ⟨hpc, rfl⟩ := hs
      have hruns : s.pc.runs = true := hpc ▸ rfl
      split_ifs with hterm
      · exact h.running hruns rfl (hsome hruns) (fun _ hp => Pc.noConfusion hp) (fun _ hp => Bool.noConfusion hp)
          fun _ => hterm
      · exact h.running hruns rfl (hsome hruns) (fun _ hp => Pc.noConfusion hp)
          (fun hterm' _ => absurd hterm' hterm) fun hp => Bool.noConfusion hp
  | list =>
      simp only [State.proc, Option.ite_none_right_eq_some, Option.some.injEq] at hs
      obtain ⟨hpc, rfl⟩ := hs
      have hruns : s.pc.runs = true := hpc ▸ rfl
      rcases he : s.m_pWorkEvent with _ | ⟨h', b⟩
      · exact absurd (he ▸ hsome hruns) (by decide)
      refine h.running hruns rfl rfl ?_ (fun hterm _ => he ▸ h.wakes hterm (hpc ▸ rfl)) fun hp => Bool.noConfusion hp
      rintro _ ⟨⟩
      exact ⟨b, rfl⟩
  | workEvent =>
      rcases he : s.m_pWorkEvent with _ | ⟨h', b⟩
      · simp only [State.proc, he] at hs; cases hs
      cases b with
      | false => simp only [State.proc, he] at hs; cases hs
      | true =>
          simp only [State.proc, he, Option.ite_none_right_eq_some, Option.some.injEq] at hs
          obtain ⟨hpc, rfl⟩ := hs
          exact h.running (hpc ▸ rfl) rfl rfl (fun _ hp => Pc.noConfusion hp) (fun _ hp => Bool.noConfusion hp)
            fun hp => Bool.noConfusion hp
  | otherEvent =>
      cases hpc : s.pc <;> simp only [State.proc, hpc, reduceCtorEq, Option.some.injEq] at hs
      rw [← hs]
      exact hmoves _ (hpc ▸ rfl) rfl rfl rfl
  | waitFailed =>
      cases hpc : s.pc <;> simp only [State.proc, hpc, reduceCtorEq, Option.some.injEq] at hs
      rw [← hs]
      exact hmoves _ (hpc ▸ rfl) rfl rfl rfl
  | doWork =>
      simp only [State.proc, Option.ite_none_right_eq_some, Option.some.injEq] at hs
      obtain ⟨hpc, rfl⟩ := hs
      exact hmoves _ (hpc ▸ rfl) rfl rfl rfl
  | doWorkReturn =>
      simp only [State.proc, Option.ite_none_right_eq_some, Option.some.injEq] at hs
      obtain ⟨hpc, rfl⟩ := hs
      exact hmoves _ (hpc ▸ rfl) rfl rfl rfl
  | exitInstance =>
      simp only [State.proc, Option.ite_none_right_eq_some, Option.some.injEq] at hs
      obtain ⟨hpc, rfl⟩ := hs
      have hruns : s.pc.runs = true := hpc ▸ rfl
      exact h.running hruns rfl (hsome hruns) (fun _ hp => Pc.noConfusion hp) (fun _ hp => Bool.noConfusion hp)
        fun _ => h.left (hpc ▸ rfl)
  | deleteEvent =>
      simp only [State.proc, Option.ite_none_right_eq_some, Option.some.injEq] at hs
      obtain ⟨hpc, rfl⟩ := hs
      have hleft : s.pc.left = true := hpc ▸ rfl
      exact inv_over (fun t => hends t hleft) rfl fun _ => h.left hleft
  | stop =>
      simp only [State.proc, Option.ite_none_right_eq_some, Option.some.injEq] at hs
      obtain ⟨hpc, rfl⟩ := hs
      have hleft : s.pc.left = true := hpc ▸ rfl
      exact inv_over (fun t => hends t hleft) rfl fun _ => h.left hleft
  | signalTermination =>
      simp only [State.proc, Option.ite_none_right_eq_some, Option.some.injEq] at hs
      obtain ⟨hpc, rfl⟩ := hs
      exact inv_over (fun t => hends t (hpc ▸ rfl)) rfl fun hp => Bool.noConfusion hp
  | die =>
      simp only [State.proc, Option.ite_none_right_eq_some, Option.some.injEq] at hs
      obtain ⟨hruns, rfl⟩ := hs
      exact inv_over (h.creates_of_runs hruns) rfl fun hp => Bool.noConfusion hp

/-- The deletion of the event leaves the thread where it is. -/
@[simp] theorem State.closed_pc (s : State ε ι) : s.closed.pc = s.pc := by
  rw [State.closed]; split_ifs <;> rfl

/-- The deletion of the event leaves the calls alone. -/
@[simp] theorem State.closed_call (s : State ε ι) : s.closed.call = s.call := by
  rw [State.closed]; split_ifs <;> rfl

/-- To set the event keeps the invariant. -/
theorem Inv.setEvent (h : Inv s) : Inv s.setEvent where
  noFault := h.noFault
  known := h.known
  event hor := Option.isSome_map.trans (h.event hor)
  waits h' hpc := by
    obtain ⟨b, he⟩ := h.waits h' hpc
    exact ⟨true, congrArg (Option.map _) he⟩
  wakes hterm hsleeps := by
    obtain ⟨h', he⟩ := h.wakes hterm hsleeps
    exact ⟨h', congrArg (Option.map _) he⟩
  left := h.left
  suspended := h.suspended
  resting := h.resting
  alone := h.alone
  begun := h.begun
  deletes := h.deletes

/-- A thread that sleeps runs. -/
theorem Pc.runs_of_sleeps (h : p.sleeps = true) : p.runs = true := by cases p <;> first | rfl | cases h

/-- **Who ends the thread wakes it.** The flag and the event are set together, so the thread does
not sleep with the flag. -/
theorem Inv.killThread (h : Inv s) : Inv s.killThread :=
  { h.setEvent with
    wakes := fun _ hsleeps => by
      obtain ⟨⟨h', b⟩, he⟩ := Option.isSome_iff_exists.1 (h.event (.inl (Pc.runs_of_sleeps hsleeps)))
      exact ⟨h', congrArg (Option.map _) he⟩
    left := fun _ => rfl }

/-- To delete the event of a thread that ended keeps the invariant. -/
theorem Inv.closed (h : Inv s) : Inv s.closed := by
  rw [State.closed]
  split_ifs with hdead
  · have hpc : s.pc = .none := of_decide_eq_true (Bool.and_eq_true_iff.1 hdead).2
    exact { h with
      known := fun hruns => absurd (show s.pc.runs = true from hruns) (by rw [hpc]; decide)
      resting := fun t ht => ⟨(h.resting t ht).1, rfl⟩ }
  · exact h

/-- The lock of those who kill does not matter to the invariant. -/
theorem Inv.csKillThread (h : Inv s) (o : Option ι) : Inv { s with csKillThread := o } := { h with }

/-- While a call is under way that does not create a thread, none does. -/
theorem Inv.creates_of_call (h : Inv s) (hidle : s.call t ≠ .idle) (hc : (s.call t).creates = false) (u : ι) :
    (s.call u).creates = false := by
  by_contra hu
  rw [Bool.not_eq_false] at hu
  by_cases hne : t = u
  · exact Bool.noConfusion (hc.symm.trans (hne ▸ hu))
  · exact hidle (h.alone u hu t hne)

/-- A thread is not suspended while none is created. -/
theorem Inv.ended_of_runs (h : Inv s) (hcreates : ∀ t, (s.call t).creates = false) (hruns : s.pc.runs = false) :
    s.pc.ended = true := by
  refine Pc.ended_of hruns (fun hpc => ?_) h.noFault
  obtain ⟨t, ht⟩ := h.suspended hpc
  exact Bool.noConfusion ((hcreates t).symm.trans ht)

section Calls

variable [DecidableEq ι]

/-- A thread is in the call that it is set to. -/
theorem State.setCall_self (s : State ε ι) (t : ι) (c : Call) : (s.setCall t c).call t = c :=
  Function.update_self ..

/-- Where a thread is set to a call, the others are in theirs. -/
theorem State.setCall_of_ne (s : State ε ι) {u : ι} (hne : u ≠ t) (c : Call) :
    (s.setCall t c).call u = s.call u :=
  Function.update_of_ne hne ..

/-- What is true of the others and of the new call is true of all then. -/
theorem State.forall_setCall {P : ι → Call → Prop} (hc : P t c) (h : ∀ u, u ≠ t → P u (s.call u)) (u : ι) :
    P u ((s.setCall t c).call u) := by
  rcases eq_or_ne u t with rfl | hne
  · exact (s.setCall_self u c).symm ▸ hc
  · exact (s.setCall_of_ne hne c).symm ▸ h u hne

/-- **A call goes on** that creates no thread. What the calls say of the thread is about those that
create one, and there are none. -/
theorem Inv.setCall (h : Inv s) (hcreates : ∀ u, (s.call u).creates = false) (hc : c.creates = false)
    (hdelete : c = .delete → s.pc.ended = true) : Inv (s.setCall t c) := by
  have hnone : ∀ u, ((s.setCall t c).call u).creates = false :=
    State.forall_setCall (P := fun _ c => c.creates = false) hc fun u _ => hcreates u
  exact { h with
    event := fun hor => h.event <| hor.imp id fun ⟨u, hu⟩ => Bool.noConfusion ((hnone u).symm.trans hu)
    suspended := fun hpc =>
      have ⟨u, hu⟩ := h.suspended hpc
      Bool.noConfusion ((hcreates u).symm.trans hu)
    resting := fun u hu => Bool.noConfusion ((hnone u).symm.trans hu)
    alone := fun u hu => Bool.noConfusion ((hnone u).symm.trans hu)
    begun := fun u hu => Bool.noConfusion ((hnone u).symm.trans (congrArg Call.creates hu))
    deletes := State.forall_setCall (P := fun _ c => c = .delete → s.pc.ended = true) hdelete
      fun u _ => h.deletes u }

/-- `CreateThread` goes on. -/
theorem inv_creating (hpc : s.pc = .none ∨ s.pc = .suspended) (hthread : s.hThread = false)
    (halone : ∀ u, u ≠ t → s.call u = .idle) (hc : c.creates = true)
    (hev : s.m_pWorkEvent.isSome = true) (hbegun : c = .begun → s.pThread = true) :
    Inv (s.setCall t c) where
  noFault hfault := by rcases hpc with hpc | hpc <;> cases hpc.symm.trans hfault
  known hruns := by rcases hpc with hpc | hpc <;> cases (congrArg Pc.runs hpc).symm.trans hruns
  event _ := hev
  waits h hwait := by rcases hpc with hpc | hpc <;> cases hpc.symm.trans hwait
  wakes _ hsleeps := by rcases hpc with hpc | hpc <;> cases (congrArg Pc.sleeps hpc).symm.trans hsleeps
  left hleft := by rcases hpc with hpc | hpc <;> cases (congrArg Pc.left hpc).symm.trans hleft
  suspended _ := ⟨t, (s.setCall_self t c).symm ▸ hc⟩
  resting _ _ := ⟨hpc, hthread⟩
  alone u hu v hv := by
    have hut : u = t := by
      by_contra hne
      rw [s.setCall_of_ne hne, halone u hne] at hu
      cases hu
    exact (s.setCall_of_ne (hut ▸ hv) c).trans (halone v (hut ▸ hv))
  begun := State.forall_setCall (P := fun _ c => c = .begun → s.pThread = true) hbegun
    fun u hne hu => Call.noConfusion ((halone u hne).symm.trans hu)
  deletes := by
    refine State.forall_setCall (P := fun _ c => c = .delete → s.pc.ended = true) ?_
      fun u hne hu => Call.noConfusion ((halone u hne).symm.trans hu)
    rintro rfl
    cases hc

variable [DecidableEq ε]

/-- **A step of a call keeps the invariant.** The condition is asked for where `CreateThread` and
`KillThreadWait` begin, and where the wait ends. -/
theorem Inv.callStep (h : Inv s) {a : CallAct ε} (hC : Careful s (.call t a)) (hs : s.callStep t a = some s') :
    Inv s' := by
  have hunder : s.call t ≠ .idle → (s.call t).creates = false → ∀ u, (s.call u).creates = false :=
    h.creates_of_call
  cases a with
  | startWork =>
      simp only [State.callStep, Option.ite_none_left_eq_some, Option.some.injEq] at hs
      exact hs.2 ▸ h.setEvent
  | killThread =>
      simp only [State.callStep, Option.ite_none_left_eq_some, Option.some.injEq] at hs
      exact hs.2 ▸ h.killThread
  | addTermEvent pEvent =>
      simp only [State.callStep, Option.ite_none_left_eq_some, Option.some.injEq] at hs
      obtain ⟨-, rfl⟩ := hs
      split_ifs
      · exact { h with }
      · exact h.closed
  | removeTermEvent pEvent =>
      simp only [State.callStep, Option.ite_none_left_eq_some, Option.some.injEq] at hs
      obtain ⟨-, rfl⟩ := hs
      exact { h with }
  | removeAllTermEvent =>
      simp only [State.callStep, Option.ite_none_left_eq_some, Option.some.injEq] at hs
      obtain ⟨-, rfl⟩ := hs
      exact { h with }
  | ifActive =>
      simp only [State.callStep, Option.ite_none_right_eq_some, Option.some.injEq] at hs
      exact hs.2 ▸ h.closed
  | createThread =>
      simp only [State.callStep, Option.ite_none_right_eq_some, Option.some.injEq] at hs
      obtain ⟨⟨-, hlocks⟩, rfl⟩ := hs
      have hended : s.pc.ended = true := h.ended_of_inactive hC.1 fun u => hC.2 u ▸ rfl
      exact inv_creating (.inl (Pc.eq_none hended hlocks)) rfl (fun u _ => hC.2 u) rfl rfl
        fun hc => Call.noConfusion hc
  | clearTerminate =>
      simp only [State.callStep, Option.ite_none_right_eq_some, Option.some.injEq] at hs
      obtain ⟨hcall, rfl⟩ := hs
      have hcreates : (s.call t).creates = true := hcall ▸ rfl
      have hresting := h.resting t hcreates
      exact inv_creating hresting.1 hresting.2 (h.alone t hcreates) rfl (h.event (.inr ⟨t, hcreates⟩))
        fun hc => Call.noConfusion hc
  | beginThread b =>
      simp only [State.callStep, Option.ite_none_right_eq_some, Option.some.injEq] at hs
      obtain ⟨⟨hcall, hpc⟩, rfl⟩ := hs
      have hcreates : (s.call t).creates = true := hcall ▸ rfl
      have halone := h.alone t hcreates
      split_ifs
      · exact inv_creating (.inr rfl) (h.resting t hcreates).2 halone rfl (h.event (.inr ⟨t, hcreates⟩)) fun _ => rfl
      · refine inv_over (s := s.setCall t .idle) (p := s.pc) ?_ (hpc ▸ rfl) h.left
        exact State.forall_setCall (P := fun _ c => c.creates = false) rfl fun u hne => halone u hne ▸ rfl
  | openThread b =>
      simp only [State.callStep, Option.ite_none_right_eq_some, Option.some.injEq] at hs
      obtain ⟨hcall, rfl⟩ := hs
      have hcreates : (s.call t).creates = true := hcall ▸ rfl
      have hidle : ∀ u, (s.setCall t .idle).call u = .idle :=
        State.forall_setCall (P := fun _ c => c = .idle) rfl (h.alone t hcreates)
      have hnone : ∀ u, ((s.setCall t .idle).call u).creates = false := fun u => congrArg Call.creates (hidle u)
      cases b with
      | false => exact inv_over (s := s.setCall t .idle) hnone rfl fun hp => Bool.noConfusion hp
      | true =>
          exact {
            noFault := fun hp => Pc.noConfusion hp
            known := fun _ => ⟨rfl, rfl, h.begun t hcall, rfl⟩
            event := fun _ => h.event (.inr ⟨t, hcreates⟩)
            waits := fun _ hp => Pc.noConfusion hp
            wakes := fun _ hp => Bool.noConfusion hp
            left := fun hp => Bool.noConfusion hp
            suspended := fun hp => Pc.noConfusion hp
            resting := fun u hu => Bool.noConfusion ((hnone u).symm.trans hu)
            alone := fun u hu => Bool.noConfusion ((hnone u).symm.trans hu)
            begun := fun u hu => Call.noConfusion ((hidle u).symm.trans hu)
            deletes := fun u hu => Call.noConfusion ((hidle u).symm.trans hu) }
  | killThreadWait bDontKillWaitOnly =>
      simp only [State.callStep, Option.ite_none_right_eq_some, Option.some.injEq] at hs
      obtain ⟨-, rfl⟩ := hs
      split_ifs
      · exact h.setCall hC rfl fun hc => Call.noConfusion hc
      · exact h.setCall hC rfl fun hc => Call.noConfusion hc
      · exact h
  | kill =>
      simp only [State.callStep, Option.ite_none_right_eq_some, Option.some.injEq] at hs
      obtain ⟨⟨hcall, -⟩, rfl⟩ := hs
      exact h.killThread.setCall (hunder (hcall ▸ by decide) (hcall ▸ rfl)) rfl fun hc => Call.noConfusion hc
  | lockKillThread =>
      simp only [State.callStep, Option.ite_none_right_eq_some, Option.some.injEq] at hs
      obtain ⟨⟨hcall, -⟩, rfl⟩ := hs
      exact (h.csKillThread _).setCall (hunder (hcall ▸ by decide) (hcall ▸ rfl)) rfl fun hc => Call.noConfusion hc
  | testEvent =>
      simp only [State.callStep, Option.ite_none_right_eq_some, Option.some.injEq] at hs
      obtain ⟨hcall, rfl⟩ := hs
      have hnone := hunder (hcall ▸ by decide) (hcall ▸ rfl)
      split_ifs
      · exact (h.csKillThread _).setCall hnone rfl fun hc => Call.noConfusion hc
      · exact h.setCall hnone rfl fun hc => Call.noConfusion hc
  | waitActive =>
      simp only [State.callStep, Option.ite_none_right_eq_some, Option.some.injEq] at hs
      obtain ⟨⟨hcall, -⟩, rfl⟩ := hs
      have hnone := hunder (hcall ▸ by decide) (hcall ▸ rfl)
      split_ifs with hactive
      · exact h
      · have hended := h.ended_of_inactive (Bool.not_eq_true _ ▸ hactive) hnone
        exact h.closed.setCall (s.closed_call ▸ hnone) rfl fun _ => s.closed_pc ▸ hended
  | waitFailed => exact hC.elim
  | deleteEvent =>
      simp only [State.callStep, Option.ite_none_right_eq_some, Option.some.injEq] at hs
      obtain ⟨⟨hcall, -⟩, rfl⟩ := hs
      have hnone := hunder (hcall ▸ by decide) (hcall ▸ rfl)
      refine inv_over (s := State.setCall { s with csKillThread := none } t .idle) (p := s.pc) ?_
        (h.deletes t hcall) h.left
      exact State.forall_setCall (P := fun _ c => c.creates = false) rfl fun u _ => hnone u

/-- Every step that is careful keeps the invariant. -/
theorem Inv.step (h : Inv s) {a : Act ε ι} (hC : Careful s a) (hs : s.step a = some s') : Inv s' := by
  cases a with
  | proc a => exact h.proc hs
  | call t a => exact h.callStep hC hs

/-- **The invariant holds in every run**, for any number of threads that call the object. There is
no thread at the start. -/
theorem inv_reachable (h : (system ε ι).ReachableBy Careful s) : Inv s :=
  h.invariant (fun _ h0 => h0 ▸ inv_init) fun _ _ _ h hC hs => h.step hC hs

end Calls

end Invariant

end Worker
end ECSUtil

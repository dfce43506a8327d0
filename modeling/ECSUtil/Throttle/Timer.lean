/-
# The timer of the throttle

`SetThrottle`, `TerminateThrottle` (`ECSUtil/ECSConnection.cpp`) by any number of threads, with the calls of
`CSimpleWorkerThread` (`ECSUtil/SimpleWorkerThread.cpp`) that they make of the timer thread: `IfActive`,
`CreateThread`, `StartWork` and `KillThreadWait`, in the steps of `ECSUtil.Worker.Thread`, and the steps of the
timer thread itself.

A host is added under `csThrottleMap` from the entry in the map to the end of the wait for the new thread.  The
last host is removed under it, but the timer is stopped after the lock was given up, so a host that is added
meanwhile finds a timer that is about to end.  `TerminateThrottle` does not take the lock before it stops the
timer, and its `KillThreadWait` ends with the deletion of the work event, whose event ever that is by then: a
thread that is created before has lost it, and follows a null pointer in its next turn.

So a throttled host has a running timer (`timer_runs`) where no host is added while a `SetThrottle` stops the
timer, and where `CreateThread` and `KillThreadWait` do not overlap.
-/

import Mathlib.Data.List.Basic
import Mathlib.Logic.Function.Basic
import Mathlib.Tactic.SplitIfs
import ECSUtil.Conn.Text
import ECSUtil.Worker.Lifecycle

namespace ECSUtil
namespace Throttle

open Worker (CallAct ProcAct)

/-- Where a call is.  `b` tells `TerminateThrottle` from the `SetThrottle` that removed the last host. -/
inductive Call
  | idle
  /-- The host is in the map, and `IfActive` is next. -/
  | adding
  /-- `IfActive` was false: `CreateThread` is run. -/
  | creating
  /-- `StartWork` is next. -/
  | created
  /-- The new thread is waited for, two seconds at most. -/
  | added
  /-- `KillThreadWait` is next. -/
  | stop (b : Bool)
  /-- `KillThreadWait` is under way. -/
  | killing (b : Bool)
  /-- `TerminateThrottle` has the map to clear. -/
  | clear
  deriving DecidableEq, Repr

namespace Call

/-- `KillThreadWait` is run by `SetThrottle` or by `TerminateThrottle`. -/
def stops (b : Bool) (c : Call) : Bool := c = .stop b ∨ c = .killing b

/-- A host is being added. -/
def adds : Call → Bool
  | .adding | .creating | .created | .added => true
  | _ => false

/-- What follows on `KillThreadWait`. -/
def afterKill (b : Bool) : Call := if b then .clear else .idle

/-- The steps of the calls of `TimerThread` that a call comes to. -/
def allows : Call → CallAct Empty → Bool
  | .adding, .ifActive => true
  | .creating, .createThread | .creating, .clearTerminate | .creating, .beginThread _
  | .creating, .openThread _ => true
  | .created, .startWork => true
  | .stop _, .killThreadWait false => true
  | .killing _, .kill | .killing _, .lockKillThread | .killing _, .testEvent | .killing _, .waitActive
  | .killing _, .waitFailed | .killing _, .deleteEvent => true
  | _, _ => false

/-- Where a call goes on after such a step; `bActive` is what `IfActive` returned, and `bDone` tells that the call
of `TimerThread` has returned. -/
def after (bActive bDone : Bool) : Call → Call
  | .adding => if bActive then .created else .creating
  | .creating => if bDone then .created else .creating
  | .created => .added
  | .stop b | .killing b => if bDone then afterKill b else .killing b
  | c => c

/-- The call will see to the timer, or clear the map. -/
def cares (c : Call) : Prop := c = .adding ∨ c = .creating ∨ c = .clear ∨ c = .killing true

instance (c : Call) : Decidable c.cares := inferInstanceAs (Decidable (_ ∨ _ ∨ _ ∨ _))

/-- Where the call of `TimerThread` is. -/
def Matches (w : Worker.Call) : Call → Prop
  | .creating => w = .idle ∨ w.creates = true
  | .killing _ => w.kills = true
  | _ => w = .idle

end Call

/-- The hosts of `ThrottleMap`, the timer thread, and the calls of the threads.  The rates of the hosts have no
part in it. -/
structure Timing (κ ι : Type*) where
  ThrottleMap : List κ := []
  /-- Who holds `csThrottleMap` from one step to the next. -/
  csThrottleMap : Option ι := none
  TimerThread : Worker.State Empty ι := {}
  call : ι → Call := fun _ => .idle

/-- The steps of a thread `t`, and of the timer thread. -/
inductive Act (κ ι : Type*)
  /-- `SetThrottle` with a rate makes an entry or changes it. -/
  | setThrottle (t : ι) (pszHost : κ)
  /-- A step of the call of `TimerThread` that the thread makes. -/
  | worker (t : ι) (a : CallAct Empty)
  /-- `SetThrottle` returns and gives up the lock. -/
  | unlock (t : ι)
  /-- `SetThrottle` without a rate erases an entry. -/
  | eraseThrottle (t : ι) (pszHost : κ)
  | terminateThrottle (t : ι)
  | clearMap (t : ι)
  | proc (a : ProcAct)
  deriving DecidableEq, Repr

section Steps

variable {κ ι : Type*} [DecidableEq κ] [DecidableEq ι]

def Timing.setCall (s : Timing κ ι) (t : ι) (c : Call) : Timing κ ι :=
  { s with call := Function.update s.call t c }

/-- One step. -/
def Timing.step (s : Timing κ ι) : Act κ ι → Option (Timing κ ι)
  | .setThrottle t pszHost =>
      if s.call t = .idle ∧ s.csThrottleMap = none then
        some (Timing.setCall
          { s with ThrottleMap := s.ThrottleMap.insert pszHost, csThrottleMap := some t } t .adding)
      else none
  | .worker t a =>
      if (s.call t).allows a then
        (s.TimerThread.callStep t a).map fun w =>
          Timing.setCall { s with TimerThread := w } t
            ((s.call t).after s.TimerThread.IfActive (w.call t = .idle))
      else none
  | .unlock t =>
      if s.call t = .added then some (Timing.setCall { s with csThrottleMap := none } t .idle)
      else none
  | .eraseThrottle t pszHost =>
      if s.call t = .idle ∧ s.csThrottleMap = none then
        some (Timing.setCall { s with ThrottleMap := s.ThrottleMap.erase pszHost } t
          (if s.ThrottleMap.erase pszHost = [] then .stop false else .idle))
      else none
  | .terminateThrottle t => if s.call t = .idle then some (s.setCall t (.stop true)) else none
  | .clearMap t =>
      if s.call t = .clear ∧ s.csThrottleMap = none then
        some (Timing.setCall { s with ThrottleMap := [] } t .idle)
      else none
  | .proc a =>
      -- `InitInstance` of the timer returns true
      if a = .initInstance false then none
      else (s.TimerThread.proc a).map fun w => { s with TimerThread := w }

/-- No host and no timer at first. -/
def timing (κ ι : Type*) [DecidableEq κ] [DecidableEq ι] : StepSystem (Timing κ ι) (Act κ ι) where
  init s := s = {}
  step := Timing.step

end Steps

/-- **What the timer asks of a step.**  No host is added while a `SetThrottle` that removed the last one stops the
timer; no `CreateThread` begins while a `KillThreadWait` is under way, and no `KillThreadWait` while a
`CreateThread` is; `CreateThread` succeeds, the wait of `KillThreadWait` does not fail, and nobody kills the
thread from outside. -/
def Undisturbed {κ ι : Type*} (s : Timing κ ι) : Act κ ι → Prop
  | .setThrottle _ _ => ∀ u, (s.call u).stops false = false
  | .worker _ .createThread => ∀ u, s.TimerThread.call u = .idle
  | .worker _ (.killThreadWait _) => ∀ u, (s.TimerThread.call u).creates = false
  | .worker _ (.beginThread b) | .worker _ (.openThread b) => b = true
  | .worker _ .waitFailed | .proc .die => False
  | _ => True

instance {κ ι : Type*} [Fintype ι] (s : Timing κ ι) : (a : Act κ ι) → Decidable (Undisturbed s a)
  | .setThrottle _ _ | .worker _ .createThread | .worker _ (.killThreadWait _) => inferInstanceAs (Decidable (∀ _, _))
  | .worker _ (.beginThread _) | .worker _ (.openThread _) => inferInstanceAs (Decidable (_ = _))
  | .worker _ .waitFailed | .proc .die => .isFalse id
  | .worker _ .startWork | .worker _ .killThread | .worker _ (.addTermEvent _) | .worker _ (.removeTermEvent _)
  | .worker _ .removeAllTermEvent | .worker _ .ifActive | .worker _ .clearTerminate | .worker _ .kill
  | .worker _ .lockKillThread | .worker _ .testEvent | .worker _ .waitActive | .worker _ .deleteEvent
  | .unlock _ | .eraseThrottle _ _ | .terminateThrottle _ | .clearMap _ | .proc .begin | .proc (.initInstance _)
  | .proc .test | .proc .list | .proc .workEvent | .proc .otherEvent | .proc .waitFailed | .proc .doWork
  | .proc .doWorkReturn | .proc .exitInstance | .proc .deleteEvent | .proc .stop | .proc .signalTermination =>
      .isTrue trivial

/-- The timer thread runs, and was not told to end. -/
def Alive {ι : Type*} (w : Worker.State Empty ι) : Prop := w.pc.runs = true ∧ w.bTerminate = false

/-- **The calls and the timer thread**: whoever adds a host has the lock of the map, and the calls of
`TimerThread` are those that the calls make. -/
structure Timing.Calls {κ ι : Type*} (s : Timing κ ι) : Prop where
  worker : Worker.Inv s.TimerThread
  called : ∀ t, (s.call t).Matches (s.TimerThread.call t)
  locked : ∀ t, (s.call t).adds = true → s.csThrottleMap = some t
  /-- `CreateThread` is run for a thread that is not active. -/
  inactive : ∀ t, s.call t = .creating → s.TimerThread.call t = .idle → s.TimerThread.IfActive = false
  /-- The new thread was not told to end. -/
  fresh : ∀ t, s.TimerThread.call t = .cleared ∨ s.TimerThread.call t = .begun → s.TimerThread.bTerminate = false
  /-- A thread in its last block has no handle any more. -/
  handle : s.TimerThread.pc.locks = true → s.TimerThread.hThread = false

/-- **The invariant.**  Where a `SetThrottle` stops the timer there is no host, a thread that was told to end was
told so by a `KillThreadWait` that has not returned, and where there is a host the timer runs, or some call is
about to see to it or to clear the map. -/
structure Timing.Inv {κ ι : Type*} (s : Timing κ ι) : Prop extends Timing.Calls s where
  /-- `SetThrottle` stops the timer of an empty map. -/
  empty : ∀ t, (s.call t).stops false = true → s.ThrottleMap = []
  killer : s.TimerThread.pc.runs = true → s.TimerThread.bTerminate = true → ∃ t b, s.call t = .killing b
  running : s.ThrottleMap ≠ [] → Alive s.TimerThread ∨ ∃ t, (s.call t).cares

section Worker

variable {ι : Type*} {w w' : Worker.State Empty ι} {t u : ι} {a : ProcAct} {c : CallAct Empty}

/-- A thread that runs is active. -/
theorem active_of_runs (h : Worker.Inv w) (hruns : w.pc.runs = true) : w.IfActive = true := by
  obtain ⟨hrunning, hthread, -⟩ := h.known hruns
  have hpc : w.pc ≠ .none := fun hpc => by rw [hpc] at hruns; cases hruns
  simp [Worker.State.IfActive, hrunning, hthread, hpc]

/-- A thread that is active runs. -/
theorem runs_of_active (h : Worker.Inv w) (hhandle : w.pc.locks = true → w.hThread = false)
    (hactive : w.IfActive = true) : w.pc.runs = true := by
  simp only [Worker.State.IfActive, Bool.and_eq_true, decide_eq_true_eq] at hactive
  obtain ⟨⟨-, hthread⟩, hpc⟩ := hactive
  cases hw : w.pc with
  | none => exact absurd hw hpc
  | suspended =>
      obtain ⟨t, ht⟩ := h.suspended hw
      exact Bool.noConfusion ((h.resting t ht).2.symm.trans hthread)
  | closing | signal => exact Bool.noConfusion ((hhandle (hw ▸ rfl)).symm.trans hthread)
  | fault => exact absurd hw h.noFault
  | _ => rfl

/-- A thread that runs after a step of its own ran before it. -/
theorem proc_runs (hs : w.proc a = some w') (hruns : w'.pc.runs = true) : w.pc.runs = true := by
  cases a <;> grind [Worker.State.proc, Worker.Pc.runs]

/-- The steps of a thread do not tell it to end, but for an `InitInstance` that fails. -/
theorem proc_bTerminate (ha : a ≠ .initInstance false) (hs : w.proc a = some w') :
    w'.bTerminate = w.bTerminate := by
  cases a with
  | initInstance bRet =>
      cases bRet with
      | false => exact absurd rfl ha
      | true => grind [Worker.State.proc]
  | _ => grind [Worker.State.proc]

/-- A thread that was not told to end goes on. -/
theorem Alive.proc (h : Worker.Inv w) (halive : Alive w) (ha : a ≠ .initInstance false) (hdie : a ≠ .die)
    (hs : w.proc a = some w') : Alive w' := by
  refine ⟨?_, (proc_bTerminate ha hs).trans halive.2⟩
  have hthread := (h.known halive.1).2.1
  have hevent := h.event (.inl halive.1)
  have hleft : w.pc.left = false := by
    by_contra hleft
    rw [Bool.not_eq_false] at hleft
    exact Bool.noConfusion (halive.2.symm.trans (h.left hleft))
  cases a with
  | die => exact absurd rfl hdie
  | _ => grind [Worker.State.proc, Worker.Pc.runs, Worker.Pc.left, Alive]

/-- The steps of a thread do not make it active. -/
theorem proc_inactive (hs : w.proc a = some w') (hinactive : w.IfActive = false) : w'.IfActive = false := by
  cases a <;> grind [Worker.State.proc, Worker.State.IfActive]

/-- A thread in its last block has no handle any more, behind its steps too. -/
theorem proc_handle (hhandle : w.pc.locks = true → w.hThread = false) (hs : w.proc a = some w') :
    w'.pc.locks = true → w'.hThread = false := by
  cases a <;> grind [Worker.State.proc, Worker.Pc.locks]

variable [DecidableEq ι]

/-- A call of one thread leaves those of the others. -/
theorem callStep_call_of_ne (hs : w.callStep t c = some w') (hne : u ≠ t) : w'.call u = w.call u := by
  cases c <;> grind [Worker.State.callStep, Worker.State.setCall_of_ne, Worker.State.closed_call,
    Worker.State.setEvent, Worker.State.killThread]

/-- `CreateThread` alone moves the thread. -/
theorem callStep_pc (hbegin : ∀ b, c ≠ .beginThread b) (hopen : ∀ b, c ≠ .openThread b)
    (hs : w.callStep t c = some w') : w'.pc = w.pc := by
  cases c <;> grind [Worker.State.callStep, Worker.State.setCall, Worker.State.closed_pc,
    Worker.State.setEvent, Worker.State.killThread]

/-- `KillThread` and `CreateThread` alone tell it whether to end. -/
theorem callStep_bTerminate (hkill : c ≠ .killThread ∧ c ≠ .kill) (hclear : c ≠ .clearTerminate)
    (hs : w.callStep t c = some w') : w'.bTerminate = w.bTerminate := by
  cases c <;> grind [Worker.State.callStep, Worker.State.setCall, Worker.State.closed, Worker.State.setEvent]

/-- `OpenThread` alone gives a handle. -/
theorem callStep_hThread (hopen : ∀ b, c ≠ .openThread b) (hs : w.callStep t c = some w') :
    w.hThread = false → w'.hThread = false := by
  cases c <;> grind [Worker.State.callStep, Worker.State.setCall, Worker.State.closed, Worker.State.setEvent,
    Worker.State.killThread]

/-- `OpenThread` alone makes a thread active. -/
theorem callStep_inactive (hbegin : ∀ b, c ≠ .beginThread b) (hopen : ∀ b, c ≠ .openThread b)
    (hs : w.callStep t c = some w') (hinactive : w.IfActive = false) : w'.IfActive = false := by
  cases c <;> grind [Worker.State.callStep, Worker.State.setCall, Worker.State.closed, Worker.State.setEvent,
    Worker.State.killThread, Worker.State.IfActive]

/-- The last block of a thread is left as it is, without a handle. -/
theorem callStep_handle (hhandle : w.pc.locks = true → w.hThread = false) (hs : w.callStep t c = some w') :
    w'.pc.locks = true → w'.hThread = false := by
  by_cases hopen : ∃ b, c = .openThread b
  · obtain ⟨b, rfl⟩ := hopen
    cases b <;> grind [Worker.State.callStep, Worker.State.setCall, Worker.Pc.locks]
  · by_cases hbegin : ∃ b, c = .beginThread b
    · obtain ⟨b, rfl⟩ := hbegin
      cases b <;> grind [Worker.State.callStep, Worker.State.setCall, Worker.Pc.locks]
    · intro hlocks
      rw [callStep_pc (fun b hb => hbegin ⟨b, hb⟩) (fun b hb => hopen ⟨b, hb⟩) hs] at hlocks
      exact callStep_hThread (fun b hb => hopen ⟨b, hb⟩) hs (hhandle hlocks)

/-- A `KillThreadWait` that is under way goes on, or returns. -/
theorem callStep_kills (hkills : (w.call t).kills = true) (hs : w.callStep t c = some w') :
    w'.call t = .idle ∨ (w'.call t).kills = true := by
  cases c <;> grind [Worker.State.callStep, Worker.State.setCall_self, Worker.State.closed_call,
    Worker.State.killThread, Worker.State.setEvent, Worker.Call.kills]

/-- So does a `CreateThread`. -/
theorem callStep_creates (hcreates : (w.call t).creates = true) (hs : w.callStep t c = some w') :
    w'.call t = .idle ∨ (w'.call t).creates = true := by
  cases c <;> grind [Worker.State.callStep, Worker.State.setCall_self, Worker.State.closed_call,
    Worker.State.killThread, Worker.State.setEvent, Worker.Call.creates]

/-- After `bTerminate` was cleared, `CreateThread` goes on. -/
theorem callStep_cleared (hclear : c ≠ .clearTerminate) (hs : w.callStep t c = some w')
    (hcall : w'.call t = .cleared ∨ w'.call t = .begun) : w.call t = .cleared ∨ w.call t = .begun := by
  cases c <;> grind [Worker.State.callStep, Worker.State.setCall_self, Worker.State.closed_call,
    Worker.State.killThread, Worker.State.setEvent]

end Worker

section Invariant

variable {κ ι : Type*} {s s' : Timing κ ι} {t u : ι} {c : Call} {b : Bool} {w : Worker.State Empty ι}
  {a : CallAct Empty}

/-- Nothing of the map and the calls changes where the timer thread goes on. -/
theorem Timing.Calls.proc (h : s.Calls) {a : ProcAct} (ha : a ≠ .initInstance false)
    (hs : s.TimerThread.proc a = some w) : Timing.Calls { s with TimerThread := w } where
  worker := h.worker.proc hs
  called t := by
    show (s.call t).Matches (w.call t)
    rw [Worker.proc_call hs]
    exact h.called t
  locked := h.locked
  inactive t ht hidle := by
    refine proc_inactive hs (h.inactive t ht ?_)
    rw [← Worker.proc_call hs]
    exact hidle
  fresh t ht := by
    show w.bTerminate = false
    have ht' : w.call t = .cleared ∨ w.call t = .begun := ht
    rw [Worker.proc_call hs] at ht'
    exact (proc_bTerminate ha hs).trans (h.fresh t ht')
  handle := proc_handle h.handle hs

/-- **The timer thread goes on.** It ends only where it was told to, and who told it to is still
waiting for that. -/
theorem Timing.Inv.proc (h : s.Inv) {a : ProcAct} (ha : a ≠ .initInstance false) (hdie : a ≠ .die)
    (hs : s.TimerThread.proc a = some w) : Timing.Inv { s with TimerThread := w } where
  toCalls := h.toCalls.proc ha hs
  empty := h.empty
  killer hruns hterm :=
    h.killer (proc_runs hs hruns) ((proc_bTerminate ha hs).symm.trans hterm)
  running hmap := (h.running hmap).imp_left fun halive => halive.proc h.worker ha hdie hs

/-- Who adds a host is alone with it. -/
theorem Timing.Calls.eq_of_adds (h : s.Calls) (ht : (s.call t).adds = true) (hu : (s.call u).adds = true) :
    u = t :=
  Option.some.inj ((h.locked u hu).symm.trans (h.locked t ht))

/-- Who adds a host is past the question of who stops the timer. -/
theorem Timing.Calls.idle_of (h : s.Calls) (hc : s.call t ≠ .creating) (hkill : ∀ b, s.call t ≠ .killing b) :
    s.TimerThread.call t = .idle := by
  have hmatches := h.called t
  cases hcall : s.call t with
  | creating => exact absurd hcall hc
  | killing b => exact absurd hcall (hkill b)
  | _ => rwa [hcall] at hmatches

/-- The threads that create no timer thread. -/
theorem Timing.Calls.creates (h : s.Calls) (hcreates : (s.TimerThread.call t).creates = true) :
    s.call t = .creating := by
  by_contra hc
  by_cases hkill : ∃ b, s.call t = .killing b
  · obtain ⟨b, hb⟩ := hkill
    have hkills := h.called t
    rw [hb] at hkills
    cases hcall : s.TimerThread.call t with
    | created | cleared | begun => rw [hcall] at hkills; cases hkills
    | _ => rw [hcall] at hcreates; cases hcreates
  · rw [h.idle_of hc fun b hb => hkill ⟨b, hb⟩] at hcreates
    cases hcreates

variable [DecidableEq ι]

/-- A thread is in the call that it is set to. -/
theorem Timing.setCall_self (s : Timing κ ι) (t : ι) (c : Call) : (s.setCall t c).call t = c :=
  Function.update_self ..

/-- Where a thread is set to a call, the others are in theirs. -/
theorem Timing.setCall_of_ne (s : Timing κ ι) (hne : u ≠ t) (c : Call) :
    (s.setCall t c).call u = s.call u :=
  Function.update_of_ne hne ..

/-- Who was where another is not is still there. -/
theorem Timing.exists_setCall {P : Call → Prop} (h : ∃ u, P (s.call u)) (ht : ¬P (s.call t)) :
    ∃ u, P ((s.setCall t c).call u) := by
  obtain ⟨u, hu⟩ := h
  have hne : u ≠ t := fun heq => ht (heq ▸ hu)
  exact ⟨u, (s.setCall_of_ne hne c).symm ▸ hu⟩

/-- What is true of the others and of the new call is true of all then. -/
theorem Timing.forall_setCall {P : ι → Call → Prop} (h : ∀ u, u ≠ t → P u (s.call u)) (hc : P t c) (u : ι) :
    P u ((s.setCall t c).call u) := by
  rcases eq_or_ne u t with rfl | hne
  · exact (s.setCall_self u c).symm ▸ hc
  · exact (s.setCall_of_ne hne c).symm ▸ h u hne

/-- **A call goes on** that makes no call of `TimerThread`. At most one call adds a host at a time,
as it holds the lock. -/
theorem Timing.Calls.setCall (h : s.Calls) {map : List κ} {o : Option ι}
    (hidle : s.TimerThread.call t = .idle) (hc : ∀ b, c ≠ .killing b) (hcreating : c ≠ .creating)
    (hothers : ∀ u, u ≠ t → (s.call u).adds = true → o = some u) (ht : c.adds = true → o = some t) :
    (Timing.setCall { s with ThrottleMap := map, csThrottleMap := o } t c).Calls where
  worker := h.worker
  called := by
    refine Timing.forall_setCall (P := fun u c => c.Matches (s.TimerThread.call u)) (fun u _ => h.called u) ?_
    rw [hidle]
    cases c with
    | killing b => exact absurd rfl (hc b)
    | creating => exact absurd rfl hcreating
    | _ => rfl
  locked := Timing.forall_setCall (P := fun u c => c.adds = true → o = some u) hothers ht
  inactive := Timing.forall_setCall
    (P := fun u c => c = .creating → s.TimerThread.call u = .idle → s.TimerThread.IfActive = false)
    (fun u _ => h.inactive u) fun heq => absurd heq hcreating
  fresh := h.fresh
  handle := h.handle

/-- The invariant is kept by a call that goes on, where it has what its next place asks for. -/
theorem Timing.Inv.setCall (h : s.Inv) {map : List κ} {o : Option ι}
    (hidle : s.TimerThread.call t = .idle) (ht : ∀ b, s.call t ≠ .killing b)
    (hc : ∀ b, c ≠ .killing b) (hcreating : c ≠ .creating)
    (hothers : ∀ u, u ≠ t → (s.call u).adds = true → o = some u) (hself : c.adds = true → o = some t)
    (hempty : ∀ u, u ≠ t → (s.call u).stops false = true → map = []) (hstops : c.stops false = true → map = [])
    (hcares : map ≠ [] → c.cares ∨ s.ThrottleMap ≠ [] ∧ ¬(s.call t).cares) :
    (Timing.setCall { s with ThrottleMap := map, csThrottleMap := o } t c).Inv where
  toCalls := h.toCalls.setCall hidle hc hcreating hothers hself
  empty := Timing.forall_setCall (P := fun _ c => c.stops false = true → map = []) hempty hstops
  killer hruns hterm := Timing.exists_setCall (P := fun c => ∃ b, c = .killing b) (h.killer hruns hterm)
    fun ⟨b, hb⟩ => ht b hb
  running hmap := by
    rcases hcares hmap with hc | ⟨hmap', hno⟩
    · exact .inr ⟨t, (Timing.setCall_self _ t c).symm ▸ hc⟩
    · exact (h.running hmap').imp_right fun hcare => Timing.exists_setCall hcare hno

/-- A step of a call of `TimerThread`, taken apart. -/
theorem Timing.worker_cases [DecidableEq κ] (hs : s.step (.worker t a) = some s') :
    (s.call t).allows a = true ∧ ∃ w, s.TimerThread.callStep t a = some w ∧
      s' = Timing.setCall { s with TimerThread := w } t
        ((s.call t).after s.TimerThread.IfActive (w.call t = .idle)) := by
  simp only [Timing.step, Option.ite_none_right_eq_some, Option.map_eq_some_iff] at hs
  obtain ⟨hallows, w, hw, rfl⟩ := hs
  exact ⟨hallows, w, hw, rfl⟩

omit [DecidableEq ι] in
/-- What the timer asks of a step is what the worker thread asks of it. -/
theorem Timing.Calls.careful (h : s.Calls) (hallows : (s.call t).allows a = true)
    (hC : Undisturbed s (.worker t a : Act κ ι)) : Worker.Careful s.TimerThread (.call t a) := by
  cases a with
  | createThread =>
      refine ⟨h.inactive t ?_ (hC t), hC⟩
      cases hcall : s.call t <;> first | rfl | (rw [hcall] at hallows; cases hallows)
  | killThreadWait bDontKillWaitOnly => exact hC
  | waitFailed => exact hC.elim
  | _ => exact trivial

/-- Where the call of `TimerThread` is after a step of it. -/
theorem Call.matches_after {bActive : Bool} (hallows : c.allows a = true) (hmatches : c.Matches (s.TimerThread.call t))
    (hw : s.TimerThread.callStep t a = some w) : (c.after bActive (w.call t = .idle)).Matches (w.call t) := by
  cases c with
  | killing b =>
      rcases callStep_kills hmatches hw with hidle | hkills
      · rw [hidle]
        cases b <;> rfl
      · have hne : w.call t ≠ .idle := fun hidle => by rw [hidle] at hkills; cases hkills
        simp only [after, hne, decide_false, Bool.false_eq_true, if_false]
        exact hkills
  | creating =>
      have hcreates : w.call t = .idle ∨ (w.call t).creates = true := by
        rcases hmatches with hidle | hcreates
        · cases a with
          | createThread | clearTerminate | beginThread | openThread =>
              grind [Worker.State.callStep, Worker.State.setCall_self, Worker.Call.creates]
          | _ => exact absurd hallows (by simp [allows])
        · exact callStep_creates hcreates hw
      by_cases hidle : w.call t = .idle
      · rw [hidle]
        rfl
      · simp only [after, hidle, decide_false, Bool.false_eq_true, if_false]
        exact hcreates
  | stop b =>
      cases a with
      | killThreadWait bDontKillWaitOnly =>
          have hkills : w.call t = .idle ∨ (w.call t).kills = true := by
            grind [Worker.State.callStep, Worker.State.setCall_self, Worker.Call.kills]
          rcases hkills with hidle | hkills
          · rw [hidle]
            cases b <;> rfl
          · have hne : w.call t ≠ .idle := fun hidle => by rw [hidle] at hkills; cases hkills
            simp only [after, hne, decide_false, Bool.false_eq_true, if_false]
            exact hkills
      | _ => exact absurd hallows (by simp [allows])
  | adding =>
      cases a with
      | ifActive =>
          have hidle : w.call t = .idle := by
            simp only [Worker.State.callStep, Option.ite_none_right_eq_some, Option.some.injEq] at hw
            rw [← hw.2, Worker.State.closed_call]
            exact hmatches
          rw [hidle]
          cases bActive <;> first | rfl | exact .inl rfl
      | _ => exact absurd hallows (by simp [allows])
  | created =>
      cases a with
      | startWork =>
          simp only [Worker.State.callStep, Option.ite_none_left_eq_some, Option.some.injEq] at hw
          rw [← hw.2]
          exact hmatches
      | _ => exact absurd hallows (by simp [allows])
  | _ => exact absurd hallows (by simp [allows])

/-- The call goes on adding as long as it does. -/
theorem Call.adds_after {bActive bDone : Bool} (hallows : c.allows a = true)
    (hadds : (c.after bActive bDone).adds = true) : c.adds = true := by
  cases c with
  | stop b | killing b =>
      cases bDone <;> cases b <;> exact absurd hadds (by simp [after, adds, afterKill])
  | adding | creating | created => rfl
  | _ => exact absurd hallows (by simp [allows])

/-- Who stops the timer of an empty map does so until it has. -/
theorem Call.stops_after {bActive bDone : Bool} (hallows : c.allows a = true)
    (hstops : (c.after bActive bDone).stops false = true) : c.stops false = true := by
  cases c with
  | adding | creating =>
      cases bActive <;> cases bDone <;> exact absurd hstops (by simp [after, stops])
  | stop b | killing b =>
      cases bDone <;> cases b <;> first | rfl | exact absurd hstops (by simp [after, stops, afterKill])
  | created => exact absurd hstops (by simp [after, stops])
  | _ => exact absurd hallows (by simp [allows])

/-- **A step of a call of `TimerThread`** keeps the calls and the timer thread together. -/
theorem Timing.Calls.workerStep (h : s.Calls) (hallows : (s.call t).allows a = true)
    (hC : Undisturbed s (.worker t a : Act κ ι)) (hw : s.TimerThread.callStep t a = some w) :
    (Timing.setCall { s with TimerThread := w } t
      ((s.call t).after s.TimerThread.IfActive (w.call t = .idle))).Calls where
  worker := h.worker.callStep (h.careful hallows hC) hw
  called := by
    refine Timing.forall_setCall (P := fun u c => c.Matches (w.call u)) (fun u hne => ?_)
      (Call.matches_after hallows (h.called t) hw)
    rw [callStep_call_of_ne hw hne]
    exact h.called u
  locked := Timing.forall_setCall (P := fun u c => c.adds = true → s.csThrottleMap = some u)
    (fun u _ => h.locked u) fun hadds => h.locked t (Call.adds_after hallows hadds)
  inactive := by
    refine Timing.forall_setCall (P := fun u c => c = .creating → w.call u = .idle → w.IfActive = false)
      (fun u hne hu hidle => ?_) fun hself hidle => ?_
    · -- another one is creating the thread, and this one does not
      have hadds : (s.call t).adds = false := by
        by_contra hadds
        exact hne (h.eq_of_adds (Bool.not_eq_false _ ▸ hadds) (hu ▸ rfl))
      refine callStep_inactive (fun b hb => ?_) (fun b hb => ?_) hw
        (h.inactive u hu ((callStep_call_of_ne hw hne).symm.trans hidle))
      all_goals
        subst hb
        cases hcall : s.call t <;> rw [hcall] at hallows hadds <;>
          first | exact absurd hadds (by decide) | exact absurd hallows (by simp [Call.allows])
    · -- the call has just found the thread inactive
      cases hcall : s.call t with
      | adding =>
          cases a with
          | ifActive =>
              rw [hcall] at hself
              cases hactive : s.TimerThread.IfActive with
              | true => rw [hactive] at hself; exact Call.noConfusion hself
              | false => exact callStep_inactive (by simp) (by simp) hw hactive
          | _ => rw [hcall] at hallows; exact absurd hallows (by simp [Call.allows])
      | creating =>
          rw [hcall, hidle] at hself
          exact Call.noConfusion hself
      | created => rw [hcall] at hself; exact Call.noConfusion hself
      | stop b | killing b =>
          rw [hcall, hidle] at hself
          cases b <;> exact Call.noConfusion hself
      | _ => rw [hcall] at hallows; exact absurd hallows (by simp [Call.allows])
  fresh u hu := by
    by_cases hclear : a = .clearTerminate
    · subst hclear
      simp only [Worker.State.callStep, Option.ite_none_right_eq_some, Option.some.injEq] at hw
      rw [← hw.2]
      rfl
    · have hbefore : s.TimerThread.call u = .cleared ∨ s.TimerThread.call u = .begun := by
        rcases eq_or_ne u t with rfl | hne
        · exact callStep_cleared hclear hw hu
        · rw [← callStep_call_of_ne hw hne]
          exact hu
      refine (callStep_bTerminate ⟨?_, ?_⟩ hclear hw).trans (h.fresh u hbefore)
      · rintro rfl
        cases hcall : s.call t <;> rw [hcall] at hallows <;> exact absurd hallows (by simp [Call.allows])
      · -- who kills the thread is alone, or no thread is created
        rintro rfl
        have hkill : s.TimerThread.call t = .kill := by
          simp only [Worker.State.callStep, Option.ite_none_right_eq_some] at hw
          exact hw.1.1
        have hcreates : (s.TimerThread.call u).creates = true := by
          rcases hbefore with hu | hu <;> rw [hu] <;> rfl
        have hne : t ≠ u := by
          rintro rfl
          rw [hkill] at hcreates
          cases hcreates
        exact Worker.Call.noConfusion (hkill.symm.trans (h.worker.alone u hcreates t hne))
  handle := callStep_handle h.handle hw

omit [DecidableEq ι] in
/-- A timer thread that runs and was told to end, and a host in the map: `TerminateThrottle` will clear the
map. -/
theorem Timing.Inv.cares_of_killed (h : s.Inv) (hruns : s.TimerThread.pc.runs = true)
    (hterm : s.TimerThread.bTerminate = true) (hmap : s.ThrottleMap ≠ []) : ∃ u, s.call u = .killing true := by
  obtain ⟨u, b, hu⟩ := h.killer hruns hterm
  cases b with
  | true => exact ⟨u, hu⟩
  | false => exact absurd (h.empty u (by rw [hu]; rfl)) hmap

/-- `KillThreadWait` returns when the thread does not run any more. -/
theorem Timing.Calls.not_runs_of_returns (h : s.Calls) (hkilling : s.call t = .killing b)
    (hw : s.TimerThread.callStep t a = some w) (hidle : w.call t = .idle) : s.TimerThread.pc.runs = false := by
  have hkills : (s.TimerThread.call t).kills = true := by
    have hmatches := h.called t
    rwa [hkilling] at hmatches
  have hcall : s.TimerThread.call t ≠ .idle ∧ (s.TimerThread.call t).creates = false := by
    generalize s.TimerThread.call t = c at hkills
    revert hkills
    cases c <;> decide
  have hcreates : ∀ u, (s.TimerThread.call u).creates = false := h.worker.creates_of_call hcall.1 hcall.2
  have hended := Worker.Settled.ended_of_returns ⟨h.worker, hcreates⟩ hw ⟨.inl hkills, hidle⟩
  by_contra hruns
  rw [Bool.not_eq_false] at hruns
  exact Bool.noConfusion ((Worker.Pc.not_ended hruns).symm.trans hended)

/-- **Who kills the timer thread waits for its end**: a thread that runs and was told to end has such a call. -/
theorem Timing.Inv.killer_workerStep (h : s.Inv) (hallows : (s.call t).allows a = true)
    (hw : s.TimerThread.callStep t a = some w)
    (hc : (s.call t).after s.TimerThread.IfActive (w.call t = .idle) = c)
    (hruns : w.pc.runs = true) (hterm : w.bTerminate = true) :
    ∃ u b, (Timing.setCall { s with TimerThread := w } t c).call u = .killing b := by
  -- the call goes on waiting, or another one waits
  have hstays : ∀ b, s.call t = .killing b → w.call t ≠ .idle →
      ∃ u b, (Timing.setCall { s with TimerThread := w } t c).call u = .killing b := by
    intro b hb hne
    refine ⟨t, b, (Timing.setCall_self _ t _).trans ?_⟩
    rw [hb] at hc
    exact hc.symm.trans (if_neg (by simp [hne]))
  have hothers : w.pc = s.TimerThread.pc → w.bTerminate = s.TimerThread.bTerminate →
      ∃ u b, (Timing.setCall { s with TimerThread := w } t c).call u = .killing b := by
    intro hpc hb
    by_cases hkilling : ∃ b, s.call t = .killing b
    · obtain ⟨b, hcall⟩ := hkilling
      refine hstays b hcall fun hidle => ?_
      have hno := h.not_runs_of_returns hcall hw hidle
      rw [← hpc, hruns] at hno
      cases hno
    · exact Timing.exists_setCall (P := fun c => ∃ b, c = .killing b) (h.killer (hpc ▸ hruns) (hb ▸ hterm)) hkilling
  cases a with
  | kill =>
      simp only [Worker.State.callStep, Option.ite_none_right_eq_some, Option.some.injEq] at hw
      cases hcall : s.call t with
      | killing b =>
          refine hstays b hcall ?_
          rw [← hw.2, Worker.State.setCall_self]
          exact Worker.Call.noConfusion
      | _ => rw [hcall] at hallows; exact absurd hallows (by simp [Call.allows])
  | clearTerminate =>
      simp only [Worker.State.callStep, Option.ite_none_right_eq_some, Option.some.injEq] at hw
      rw [← hw.2] at hterm
      cases hterm
  | beginThread bThread =>
      have hpc : s.TimerThread.pc = .none := by
        simp only [Worker.State.callStep, Option.ite_none_right_eq_some] at hw
        exact hw.1.2
      cases bThread <;> grind [Worker.State.callStep, Worker.State.setCall, Worker.Pc.runs]
  | openThread bThread =>
      have hbegun : s.TimerThread.call t = .begun := by
        simp only [Worker.State.callStep, Option.ite_none_right_eq_some] at hw
        exact hw.1
      have hfresh := h.fresh t (.inr hbegun)
      rw [callStep_bTerminate (by simp) (by simp) hw, hfresh] at hterm
      cases hterm
  | killThread => cases hcall : s.call t <;> rw [hcall] at hallows <;> exact absurd hallows (by simp [Call.allows])
  | _ => exact hothers (callStep_pc (by simp) (by simp) hw) (callStep_bTerminate (by simp) (by simp) hw)

/-- **A throttled host has a running timer**, or a call will see to it. -/
theorem Timing.Inv.running_workerStep (h : s.Inv) (hallows : (s.call t).allows a = true)
    (hC : Undisturbed s (.worker t a : Act κ ι)) (hw : s.TimerThread.callStep t a = some w)
    (hc : (s.call t).after s.TimerThread.IfActive (w.call t = .idle) = c) (hmap : s.ThrottleMap ≠ []) :
    Alive w ∨ ∃ u, ((Timing.setCall { s with TimerThread := w } t c).call u).cares := by
  have hself : c.cares → Alive w ∨ ∃ u, ((Timing.setCall { s with TimerThread := w } t c).call u).cares :=
    fun hcares => .inr ⟨t, (Timing.setCall_self _ t _).symm ▸ hcares⟩
  have hframe : w.pc = s.TimerThread.pc → w.bTerminate = s.TimerThread.bTerminate → ¬(s.call t).cares →
      Alive w ∨ ∃ u, ((Timing.setCall { s with TimerThread := w } t c).call u).cares := by
    intro hpc hb hno
    refine (h.running hmap).imp (fun halive => ?_) fun hcare => Timing.exists_setCall hcare hno
    exact ⟨hpc ▸ halive.1, hb ▸ halive.2⟩
  cases hcall : s.call t with
  | adding =>
      rw [hcall] at hc
      cases a with
      | ifActive =>
          cases hactive : s.TimerThread.IfActive with
          | true =>
              have hruns := runs_of_active h.worker h.handle hactive
              cases hterm : s.TimerThread.bTerminate with
              | false =>
                  refine .inl ⟨?_, ?_⟩
                  · rw [callStep_pc (by simp) (by simp) hw]
                    exact hruns
                  · rw [callStep_bTerminate (by simp) (by simp) hw]
                    exact hterm
              | true =>
                  -- the thread is about to end: `TerminateThrottle` told it to, and clears the map
                  obtain ⟨u, hu⟩ := h.cares_of_killed hruns hterm hmap
                  have hne : u ≠ t := by
                    rintro rfl
                    exact Call.noConfusion (hu.symm.trans hcall)
                  exact .inr ⟨u, (Timing.setCall_of_ne _ hne _).symm ▸ .inr (.inr (.inr hu))⟩
          | false =>
              rw [hactive] at hc
              exact hself (hc ▸ .inr (.inl rfl))
      | _ => rw [hcall] at hallows; exact absurd hallows (by simp [Call.allows])
  | creating =>
      rw [hcall] at hc
      by_cases hidle : w.call t = .idle
      · -- the new thread is there
        cases a with
        | createThread | clearTerminate => grind [Worker.State.callStep, Worker.State.setCall_self]
        | beginThread bThread =>
            obtain rfl : bThread = true := hC
            grind [Worker.State.callStep, Worker.State.setCall_self]
        | openThread bThread =>
            obtain rfl : bThread = true := hC
            simp only [Worker.State.callStep, Option.ite_none_right_eq_some, Option.some.injEq] at hw
            obtain ⟨hbegun, rfl⟩ := hw
            exact .inl ⟨rfl, h.fresh t (.inr hbegun)⟩
        | _ => rw [hcall] at hallows; exact absurd hallows (by simp [Call.allows])
      · refine hself (hc ▸ .inr (.inl ?_))
        exact if_neg (by simp [hidle])
  | created =>
      cases a with
      | startWork =>
          exact hframe (callStep_pc (by simp) (by simp) hw) (callStep_bTerminate (by simp) (by simp) hw)
            (by rw [hcall]; decide)
      | _ => rw [hcall] at hallows; exact absurd hallows (by simp [Call.allows])
  | stop b =>
      cases a with
      | killThreadWait bDontKillWaitOnly =>
          exact hframe (callStep_pc (by simp) (by simp) hw) (callStep_bTerminate (by simp) (by simp) hw)
            (by rw [hcall]; cases b <;> decide)
      | _ => rw [hcall] at hallows; exact absurd hallows (by simp [Call.allows])
  | killing b =>
      cases b with
      | false => exact absurd (h.empty t (hcall ▸ rfl)) hmap
      | true =>
          rw [hcall] at hc
          refine hself ?_
          by_cases hidle : w.call t = .idle
          · rw [hidle] at hc
            exact .inr (.inr (.inl hc.symm))
          · exact .inr (.inr (.inr (hc.symm.trans (if_neg (by simp [hidle])))))
  | _ => rw [hcall] at hallows; exact absurd hallows (by simp [Call.allows])

/-- **A step of a call of `TimerThread` keeps the invariant.** It is put together from the three
lemmas above: the calls, who kills the thread, and who runs it. -/
theorem Timing.Inv.workerStep (h : s.Inv) (hallows : (s.call t).allows a = true)
    (hC : Undisturbed s (.worker t a : Act κ ι)) (hw : s.TimerThread.callStep t a = some w) :
    (Timing.setCall { s with TimerThread := w } t
      ((s.call t).after s.TimerThread.IfActive (w.call t = .idle))).Inv where
  toCalls := h.toCalls.workerStep hallows hC hw
  empty := Timing.forall_setCall (P := fun _ c => c.stops false = true → s.ThrottleMap = [])
    (fun u _ => h.empty u) fun hstops => h.empty t (Call.stops_after hallows hstops)
  killer := h.killer_workerStep hallows hw rfl
  running := h.running_workerStep hallows hC hw rfl

variable [DecidableEq κ]

/-- **Every step keeps the invariant** that does not disturb the timer. One case for the timer
thread, one for a call of it and one for each step of the calls of `SetThrottle` and
`TerminateThrottle` themselves. -/
theorem Timing.inv_step {a : Act κ ι} (h : s.Inv) (hC : Undisturbed s a) (hs : s.step a = some s') :
    s'.Inv := by
  cases a with
  | setThrottle t pszHost =>
      obtain ⟨⟨hcall, hlock⟩, rfl⟩ := Option.ite_none_right_eq_some.1 hs |>.imp_right Option.some.inj
      have hidle := h.idle_of (t := t) (by simp [hcall]) (by simp [hcall])
      refine h.setCall hidle (by simp [hcall]) (by simp) (by simp) (fun u _ hu => ?_) (fun _ => rfl)
        (fun u _ hu => ?_) (fun hstops => absurd hstops (by decide)) fun _ => .inl (.inl rfl)
      · exact absurd ((h.locked u hu).symm.trans hlock) (by simp)
      · exact absurd ((hC u).symm.trans hu) Bool.false_ne_true
  | worker t a =>
      obtain ⟨hallows, w, hw, rfl⟩ := Timing.worker_cases hs
      exact h.workerStep hallows hC hw
  | unlock t =>
      obtain ⟨hcall, rfl⟩ := Option.ite_none_right_eq_some.1 hs |>.imp_right Option.some.inj
      have hidle := h.idle_of (t := t) (by simp [hcall]) (by simp [hcall])
      refine h.setCall hidle (by simp [hcall]) (by simp) (by simp) (fun u hne hu => ?_)
        (fun hadds => absurd hadds (by decide)) (fun u _ => h.empty u) (fun hstops => absurd hstops (by decide))
        fun hmap => .inr ⟨hmap, by rw [hcall]; decide⟩
      exact absurd (h.eq_of_adds (t := t) (hcall ▸ rfl) hu) hne
  | eraseThrottle t pszHost =>
      obtain ⟨⟨hcall, hlock⟩, rfl⟩ := Option.ite_none_right_eq_some.1 hs |>.imp_right Option.some.inj
      have hidle := h.idle_of (t := t) (by simp [hcall]) (by simp [hcall])
      have hnil : s.ThrottleMap = [] → s.ThrottleMap.erase pszHost = [] := fun hmap => by rw [hmap]; rfl
      refine h.setCall hidle (by simp [hcall]) (fun b => ?_) ?_ (fun u _ => h.locked u) (fun hadds => ?_)
        (fun u _ hu => hnil (h.empty u hu)) (fun hstops => ?_)
        fun hmap => .inr ⟨fun h => hmap (hnil h), by rw [hcall]; decide⟩
      · split_ifs <;> simp
      · split_ifs <;> simp
      · split_ifs at hadds <;> exact absurd hadds (by decide)
      · by_contra hmap
        rw [if_neg hmap] at hstops
        exact absurd hstops (by decide)
  | terminateThrottle t =>
      obtain ⟨hcall, rfl⟩ := Option.ite_none_right_eq_some.1 hs |>.imp_right Option.some.inj
      have hidle := h.idle_of (t := t) (by simp [hcall]) (by simp [hcall])
      exact h.setCall hidle (by simp [hcall]) (by simp) (by simp) (fun u _ => h.locked u)
        (fun hadds => absurd hadds (by decide)) (fun u _ => h.empty u) (fun hstops => absurd hstops (by decide))
        fun hmap => .inr ⟨hmap, by rw [hcall]; decide⟩
  | clearMap t =>
      obtain ⟨⟨hcall, hlock⟩, rfl⟩ := Option.ite_none_right_eq_some.1 hs |>.imp_right Option.some.inj
      have hidle := h.idle_of (t := t) (by simp [hcall]) (by simp [hcall])
      exact h.setCall hidle (by simp [hcall]) (by simp) (by simp) (fun u _ => h.locked u)
        (fun hadds => absurd hadds (by decide)) (fun _ _ _ => rfl) (fun _ => rfl) fun hmap => absurd rfl hmap
  | proc a =>
      simp only [Timing.step, Option.ite_none_left_eq_some, Option.map_eq_some_iff] at hs
      obtain ⟨ha, w, hw, rfl⟩ := hs
      refine h.proc ha ?_ hw
      rintro rfl
      exact hC.elim

omit [DecidableEq ι] [DecidableEq κ] in
/-- Before the first step there is neither a host nor a timer. -/
theorem Timing.inv_init : ({} : Timing κ ι).Inv where
  worker := Worker.inv_init
  called _ := rfl
  locked _ hadds := Bool.noConfusion (show Call.adds .idle = true from hadds)
  inactive _ hcall := Call.noConfusion hcall
  fresh _ hcall := by rcases hcall with hcall | hcall <;> cases hcall
  handle _ := rfl
  empty _ _ := rfl
  killer hruns := Bool.noConfusion (show Worker.Pc.runs .none = true from hruns)
  running hmap := absurd rfl hmap

end Invariant

/-- **A throttled host has a running timer** when no call is in progress: the thread runs, was not told to end,
and waits for an event that is there, in all runs whose steps leave it undisturbed. -/
theorem timer_runs {κ ι : Type*} [DecidableEq κ] [DecidableEq ι] {s : Timing κ ι}
    (h : (timing κ ι).ReachableBy Undisturbed s) (hidle : ∀ t, s.call t = .idle)
    (hmap : s.ThrottleMap ≠ []) :
    Alive s.TimerThread ∧ s.TimerThread.IfActive = true ∧ s.TimerThread.m_pWorkEvent.isSome = true ∧
      ∀ hObject, s.TimerThread.pc = .wait hObject → ∃ b, s.TimerThread.m_pWorkEvent = some (hObject, b) := by
  have hinv : s.Inv := by
    refine h.invariant ?_ fun _ _ _ hI hC hs => Timing.inv_step hI hC hs
    rintro _ rfl
    exact Timing.inv_init
  have halive : Alive s.TimerThread := by
    rcases hinv.running hmap with halive | ⟨t, hcares⟩
    · exact halive
    · rw [hidle t] at hcares
      exact absurd hcares (by decide)
  exact ⟨halive, active_of_runs hinv.worker halive.1, hinv.worker.event (.inl halive.1), hinv.worker.waits⟩

/-- A host is added where there is no timer. -/
def adds (t : Bool) (pszHost : CString) : List (Act CString Bool) :=
  [.setThrottle t pszHost, .worker t .ifActive, .worker t .createThread, .worker t .clearTerminate,
    .worker t (.beginThread true), .worker t (.openThread true), .worker t .startWork, .unlock t]

/-- A host is added where there is one. -/
def addsMore (t : Bool) (pszHost : CString) : List (Act CString Bool) :=
  [.setThrottle t pszHost, .worker t .ifActive, .worker t .startWork, .unlock t]

/-- The timer up to its wait. -/
def waits : List (Act CString Bool) := [.proc .begin, .proc (.initInstance true), .proc .test, .proc .list]

/-- `KillThreadWait`, up to the end of its loop, and the end of the timer. -/
def kills (t : Bool) : List (Act CString Bool) :=
  [.worker t (.killThreadWait false), .worker t .kill, .worker t .lockKillThread, .worker t .testEvent,
    .proc .workEvent, .proc .doWork, .proc .doWorkReturn, .proc .test, .proc .exitInstance, .proc .deleteEvent,
    .proc .stop, .proc .signalTermination, .worker t .waitActive]

/-- A host comes and goes, with the timer, and another one comes. -/
def twoHosts : List (Act CString Bool) :=
  adds false ['a'] ++ waits ++ .eraseThrottle false ['a'] :: kills false ++ .worker false .deleteEvent ::
    adds true ['b'] ++ waits

/-- The second host has a timer again. The first one was removed before, and its timer was ended and
waited for. -/
theorem timer_runs_two : ∃ s : Timing CString Bool,
    ((timing CString Bool).restrict Undisturbed).run twoHosts {} = some s ∧
    s.ThrottleMap = [['b']] ∧ Alive s.TimerThread ∧ s.TimerThread.IfActive = true ∧
      s.TimerThread.m_pWorkEvent.isSome = true ∧
      ∀ hObject, s.TimerThread.pc = .wait hObject → ∃ b, s.TimerThread.m_pWorkEvent = some (hObject, b) :=
  ⟨_, rfl, rfl, timer_runs (.run_restrict twoHosts (.init rfl) rfl) (by decide) (by decide)⟩

/-- The last host goes, and before the timer is stopped, another one comes. -/
def lastHost : List (Act CString Bool) :=
  adds false ['a'] ++ waits ++ .eraseThrottle false ['a'] :: addsMore true ['b'] ++ kills false ++
    [.worker false .deleteEvent]

/-- No call is in progress, a host is throttled, and there is no timer. The call that removed the
last host stops the timer after another one has added a host. -/
theorem timer_stopped : ∃ s : Timing CString Bool, (timing CString Bool).Reachable s ∧
    (∀ t, s.call t = .idle) ∧ s.ThrottleMap ≠ [] ∧ s.TimerThread.IfActive = false ∧ s.TimerThread.pc = .none :=
  ⟨_, .run lastHost (.init rfl) rfl, by decide, by decide, rfl, rfl⟩

/-- `TerminateThrottle` stops the timer, and before it deletes the event, another host comes with a new thread. -/
def lostEvent : List (Act CString Bool) :=
  adds false ['a'] ++ waits ++ .terminateThrottle false :: kills false ++ adds true ['b'] ++
    [.worker false .deleteEvent, .clearMap false] ++ addsMore true ['c'] ++ waits

/-- **Without the rule for `CreateThread` and `KillThreadWait`** the timer follows a null pointer, no call is in
progress and a host is throttled. -/
theorem timer_faults : ∃ s : Timing CString Bool, (timing CString Bool).Reachable s ∧
    (∀ t, s.call t = .idle) ∧ s.ThrottleMap ≠ [] ∧ s.TimerThread.pc = .fault :=
  ⟨_, .run lostEvent (.init rfl) rfl, by decide, by decide, rfl⟩

end Throttle
end ECSUtil

/-
# What a worker thread promises

The calls of `CSimpleWorkerThread` (`ECSUtil/SimpleWorkerThread.cpp`) over whole runs: a `StartWork` is
followed by a `DoWork` unless the thread was told to end (`startWork_served`), a thread that was told to end
does so in a bounded number of its own steps (`killed_ends`), `KillThreadWait` returns when nothing of the
derived class runs any more (`killThreadWait_ended`), and an event that `AddTermEvent` took is signalled when
the thread ends (`termEvent_signalled`).

All four are about runs in which threads are created with care (`Careful`): otherwise the deletion
that `KillThreadWait` ends with may meet the event of a new thread.  Once a thread is created and no
other one is being created (`Settled`), what the calls of the others do beside it is said once
(`Beside`), and each of its own steps brings it nearer to its end (`Pc.rank`).
-/

import ECSUtil.Worker.Thread

namespace ECSUtil
namespace Worker

/-- A step that neither creates a thread nor gives up the wait for its end. -/
def Act.keeps {ε ι : Type*} : Act ε ι → Bool
  | .call _ .createThread | .call _ .waitFailed => false
  | _ => true

/-- `KillThreadWait` is under way. -/
def Call.kills : Call → Bool
  | .kill | .lock | .test | .wait | .delete => true
  | _ => false

/-- How many steps the thread has before it at most, when it has to end. -/
def Pc.rank : Pc → ℕ
  | .list => 9
  | .wait _ => 8
  | .begin | .woken => 7
  | .initInstance | .doWork => 6
  | .test => 5
  | .exitInstance => 4
  | .last => 3
  | .closing => 2
  | .signal => 1
  | .none | .suspended | .fault => 0

/-- A thread is created and waits. -/
def starts : List (Act Unit Unit) :=
  [.call () .createThread, .call () .clearTerminate, .call () (.beginThread true), .call () (.openThread true),
    .proc .begin, .proc (.initInstance true), .proc .test, .proc .list]

/-- `ThreadProc` from the end of its wait on. -/
def ends : List (Act Unit Unit) :=
  [.proc .workEvent, .proc .doWork, .proc .doWorkReturn, .proc .test, .proc .exitInstance, .proc .deleteEvent,
    .proc .stop, .proc .signalTermination]

section Runs

variable {ε ι : Type*} {s s' : State ε ι} {t : ι} {p : Pc}

/-- The invariant, and no thread is being created. -/
structure Settled (s : State ε ι) : Prop where
  inv : Inv s
  creates : ∀ t, (s.call t).creates = false

/-- A step of the thread leaves the calls of the others. -/
theorem proc_call {a : ProcAct} (hs : s.proc a = some s') : s'.call = s.call := by
  cases a <;> grind [State.proc]

/-- A thread that ended stays so by its own steps. -/
theorem proc_ended {a : ProcAct} (hended : s.pc.ended = true) (hs : s.proc a = some s') :
    s'.pc.ended = true := by
  cases a <;> grind [State.proc, Pc.ended, Pc.runs]

/-- By a step of the thread none is created. -/
theorem Settled.proc (h : Settled s) {a : ProcAct} (hs : s.proc a = some s') : Settled s' :=
  ⟨h.inv.proc hs, proc_call hs ▸ h.creates⟩

/-- A step that the thread makes by itself: nobody kills it, and where it waits its own work event ends the
wait, neither a timeout nor another event nor a failure. -/
def ProcAct.own : ProcAct → Bool
  | .die | .otherEvent | .waitFailed => false
  | _ => true

/-- While no thread is being created, a step that creates none is careful. -/
theorem Settled.careful (h : Settled s) {a : Act ε ι} (ha : a.keeps = true) : Careful s a := by
  cases a with
  | proc => exact trivial
  | call t a =>
      cases a with
      | createThread | waitFailed => cases ha
      | killThreadWait => exact h.creates
      | _ => exact trivial

/-- There is work for the thread: its event is signalled or the wait is over, or it was told to end. -/
def Owed (s : State ε ι) : Prop :=
  (s.pc.runs = true ∧ ∃ h, s.m_pWorkEvent = some (h, true)) ∨ s.pc = .woken ∨
    s.bTerminate = true ∧ (s.pc.left = true ∨ s.pc = .none)

/-- The thread loses no work: what is owed stays so until `DoWork`. -/
theorem Settled.owed_proc (h : Settled s) (howed : Owed s) {a : ProcAct} (hwork : a ≠ .doWork) (hdie : a ≠ .die)
    (hs : s.proc a = some s') : Owed s' := by
  have hleft := h.inv.left
  have hthread : s.pc.runs = true → s.hThread = true := fun hruns => (h.inv.known hruns).2.1
  cases a with
  | doWork => exact absurd rfl hwork
  | die => exact absurd rfl hdie
  | workEvent | otherEvent =>
      refine .inr (.inl ?_)
      grind [State.proc]
  | deleteEvent | stop | signalTermination =>
      refine .inr (.inr ?_)
      grind [State.proc, Pc.left]
  | _ => grind [State.proc, Owed, Pc.runs, Pc.left]

variable [DecidableEq ε] [DecidableEq ι]

/-- What a call does to the thread while none is created. -/
structure Beside (s s' : State ε ι) : Prop where
  pc : s'.pc = s.pc
  signalled : s'.signalled = s.signalled
  bTerminate : s.bTerminate = true → s'.bTerminate = true
  creates : ∀ u, (s'.call u).creates = false
  event : s.pc.runs = true → ∀ h, s.m_pWorkEvent = some (h, true) → s'.m_pWorkEvent = some (h, true)

/-- While no thread is being created, the calls of the others do not get in the way of the thread. -/
theorem Settled.beside (h : Settled s) {a : CallAct ε} (ha : (Act.call t a).keeps = true)
    (hs : s.callStep t a = some s') : Beside s s' := by
  have hset : ∀ {c : Call}, c.creates = false → ∀ u, ((s.setCall t c).call u).creates = false := fun hc =>
    State.forall_setCall (P := fun _ c => c.creates = false) hc fun u _ => h.creates u
  have hevent : ∀ h, s.m_pWorkEvent = some (h, true) → s.setEvent.m_pWorkEvent = some (h, true) := fun _ he =>
    congrArg (Option.map _) he
  have hcall : ∀ {c : Call}, s.call t = c → c.creates = false := fun hc => hc ▸ h.creates t
  cases a with
  | startWork | killThread =>
      simp only [State.callStep, Option.ite_none_left_eq_some, Option.some.injEq] at hs
      obtain ⟨-, rfl⟩ := hs
      exact ⟨rfl, rfl, fun h => by first | exact h | rfl, h.creates, fun _ => hevent⟩
  | addTermEvent pEvent =>
      simp only [State.callStep, Option.ite_none_left_eq_some, Option.some.injEq] at hs
      obtain ⟨-, rfl⟩ := hs
      rw [State.closed]
      split_ifs <;> exact ⟨rfl, rfl, id, h.creates, fun _ _ => id⟩
  | removeTermEvent | removeAllTermEvent =>
      simp only [State.callStep, Option.ite_none_left_eq_some, Option.some.injEq] at hs
      obtain ⟨-, rfl⟩ := hs
      exact ⟨rfl, rfl, id, h.creates, fun _ _ => id⟩
  | ifActive =>
      simp only [State.callStep, Option.ite_none_right_eq_some, Option.some.injEq] at hs
      obtain ⟨-, rfl⟩ := hs
      rw [State.closed]
      split_ifs <;> exact ⟨rfl, rfl, id, h.creates, fun _ _ => id⟩
  | createThread | waitFailed => cases ha
  | clearTerminate | openThread =>
      simp only [State.callStep, Option.ite_none_right_eq_some] at hs
      exact Bool.noConfusion (hcall hs.1)
  | beginThread =>
      simp only [State.callStep, Option.ite_none_right_eq_some] at hs
      exact Bool.noConfusion (hcall hs.1.1)
  | killThreadWait bDontKillWaitOnly =>
      simp only [State.callStep, Option.ite_none_right_eq_some, Option.some.injEq] at hs
      obtain ⟨-, rfl⟩ := hs
      split_ifs
      · exact ⟨rfl, rfl, id, hset rfl, fun _ _ => id⟩
      · exact ⟨rfl, rfl, id, hset rfl, fun _ _ => id⟩
      · exact ⟨rfl, rfl, id, h.creates, fun _ _ => id⟩
  | kill =>
      simp only [State.callStep, Option.ite_none_right_eq_some, Option.some.injEq] at hs
      obtain ⟨-, rfl⟩ := hs
      exact ⟨rfl, rfl, fun _ => rfl, hset rfl, fun _ => hevent⟩
  | lockKillThread =>
      simp only [State.callStep, Option.ite_none_right_eq_some, Option.some.injEq] at hs
      obtain ⟨-, rfl⟩ := hs
      exact ⟨rfl, rfl, id, hset rfl, fun _ _ => id⟩
  | testEvent =>
      simp only [State.callStep, Option.ite_none_right_eq_some, Option.some.injEq] at hs
      obtain ⟨-, rfl⟩ := hs
      split_ifs <;> exact ⟨rfl, rfl, id, hset rfl, fun _ _ => id⟩
  | waitActive =>
      simp only [State.callStep, Option.ite_none_right_eq_some, Option.some.injEq] at hs
      obtain ⟨-, rfl⟩ := hs
      rw [State.closed]
      split_ifs
      all_goals first | exact ⟨rfl, rfl, id, hset rfl, fun _ _ => id⟩ | exact ⟨rfl, rfl, id, h.creates, fun _ _ => id⟩
  | deleteEvent =>
      simp only [State.callStep, Option.ite_none_right_eq_some, Option.some.injEq] at hs
      obtain ⟨⟨hdelete, -⟩, rfl⟩ := hs
      refine ⟨rfl, rfl, id, hset rfl, fun hruns => ?_⟩
      exact Bool.noConfusion ((Pc.not_ended hruns).symm.trans (h.inv.deletes t hdelete))

/-- In a run that creates no thread none is being created. -/
theorem Settled.step (h : Settled s) {a : Act ε ι} (ha : a.keeps = true) (hs : s.step a = some s') :
    Settled s' := by
  cases a with
  | proc a => exact h.proc hs
  | call t a => exact ⟨h.inv.callStep (h.careful ha) hs, (h.beside ha hs).creates⟩

/-- What has ended stays so. -/
theorem Settled.ended (h : Settled s) (hended : s.pc.ended = true) {as : List (Act ε ι)}
    (has : ∀ a ∈ as, a.keeps = true) (hr : (system ε ι).run as s = some s') : s'.pc.ended = true := by
  have hinv : Settled s' ∧ s'.pc.ended = true := by
    refine StepSystem.run_invariant_of (I := fun s => Settled s ∧ s.pc.ended = true) ?_ as has ⟨h, hended⟩ hr
    rintro s a s' ⟨h, hended⟩ ha hs
    refine ⟨h.step ha hs, ?_⟩
    cases a with
    | proc a => exact proc_ended hended hs
    | call t a => exact (h.beside ha hs).pc ▸ hended
  exact hinv.2

/-- A step with which a `KillThreadWait` returns. -/
def Returns (s : State ε ι) (t : ι) (a : CallAct ε) (s' : State ε ι) : Prop :=
  ((s.call t).kills = true ∨ ∃ b, a = .killThreadWait b) ∧ s'.call t = .idle

/-- It does not return while the thread runs. -/
theorem Settled.ended_of_returns (h : Settled s) {a : CallAct ε} (hs : s.callStep t a = some s')
    (hret : Returns s t a s') : s.pc.ended = true := by
  refine h.inv.ended_of_runs h.creates ?_
  by_contra hruns
  rw [Bool.not_eq_false] at hruns
  obtain ⟨-, -, hthread, hid⟩ := h.inv.known hruns
  have hevent := h.inv.event (.inl hruns)
  have hdelete : s.call t ≠ .delete := fun hc =>
    Bool.noConfusion ((Pc.not_ended hruns).symm.trans (h.inv.deletes t hc))
  obtain ⟨hkills, hidle⟩ := hret
  cases a with
  | killThreadWait b =>
      simp only [State.callStep, hthread, hid, Bool.and_self, if_true, Option.ite_none_right_eq_some,
        Option.some.injEq] at hs
      obtain ⟨-, rfl⟩ := hs
      rw [State.setCall_self] at hidle
      split_ifs at hidle
  | testEvent =>
      have hne : s.m_pWorkEvent ≠ none := fun he => by rw [he] at hevent; cases hevent
      simp only [State.callStep, if_neg hne, Option.ite_none_right_eq_some, Option.some.injEq] at hs
      obtain ⟨-, rfl⟩ := hs
      rw [State.setCall_self] at hidle
      cases hidle
  | deleteEvent =>
      simp only [State.callStep, Option.ite_none_right_eq_some] at hs
      exact hdelete hs.1.1
  | _ =>
      -- the call is where it was, or elsewhere in `KillThreadWait`
      grind [State.callStep, State.setCall_self, State.closed_call, State.setEvent, State.killThread, Call.kills]

/-- **When `KillThreadWait` has returned nothing of the derived class runs**: neither `InitInstance` nor
`DoWork` nor `ExitInstance` runs, nor will any of them before the next `CreateThread`.  The run is `Careful`:
an earlier `KillThreadWait` that is still under way when a thread is created deletes the event of the new
thread, and the next call finds no event and returns at once. -/
theorem killThreadWait_ended (h : (system ε ι).ReachableBy Careful s) {a : CallAct ε}
    (hC : Careful s (.call t a)) (hs : s.callStep t a = some s') (hret : Returns s t a s')
    {as : List (Act ε ι)} (has : ∀ a ∈ as, a.keeps = true) {s'' : State ε ι}
    (hr : (system ε ι).run as s' = some s'') : s''.pc.ended = true := by
  have hinv := inv_reachable h
  have hkeeps : (Act.call t a).keeps = true := by
    cases a with
    | createThread =>
        rcases hret.1 with hkills | ⟨b, hb⟩
        · rw [hC.2 t] at hkills
          cases hkills
        · cases hb
    | waitFailed => exact hC.elim
    | _ => rfl
  have hcreates : ∀ u, (s.call u).creates = false := by
    rcases hret.1 with hkills | ⟨b, rfl⟩
    · refine hinv.creates_of_call (t := t) (fun hidle => ?_) ?_
      · rw [hidle] at hkills; cases hkills
      · cases hc : s.call t <;> first | rfl | exact Bool.noConfusion ((congrArg Call.kills hc).symm.trans hkills)
    · exact hC
  have hsettled : Settled s := ⟨hinv, hcreates⟩
  have hbeside := hsettled.beside hkeeps hs
  exact (hsettled.step hkeeps hs).ended (hbeside.pc ▸ hsettled.ended_of_returns hs hret) has hr

/-- `KillThreadWait` up to the step with which it returns. -/
def killWaits : List (Act Unit Unit) :=
  starts ++ [.call () (.killThreadWait false), .call () .kill, .call () .lockKillThread, .call () .testEvent] ++
    ends ++ [.call () .waitActive]

/-- A thread is created, ended and waited for. The wait has returned, so the deletion is behind the
end of the thread. -/
theorem killThreadWait_ended_one : ∃ s s', ((system Unit Unit).restrict Careful).run killWaits {} = some s ∧
    s.callStep () .deleteEvent = some s' ∧ s'.pc.ended = true :=
  ⟨_, _, rfl, rfl, killThreadWait_ended (t := ()) (a := .deleteEvent)
    (.run_restrict killWaits (.init rfl) rfl) trivial rfl ⟨.inl rfl, rfl⟩ (by decide)
    (rfl : (system Unit Unit).run [] _ = some _)⟩

/-- A step that neither begins a `DoWork` nor kills the thread from outside. -/
def Act.waits : Act ε ι → Bool
  | .proc .doWork | .proc .die => false
  | a => a.keeps

/-- **No `StartWork` is lost.**  As long as no `DoWork` has begun since, the event that the thread waits for is
signalled, or its wait is over; only a thread that was told to end leaves it undone.  The run is `Careful`, and
no thread is created and none is killed from outside after the call. -/
theorem startWork_served (h : (system ε ι).ReachableBy Careful s) (hruns : s.pc.runs = true)
    (hs : s.callStep t .startWork = some s') {as : List (Act ε ι)} (has : ∀ a ∈ as, a.waits = true)
    {s'' : State ε ι} (hr : (system ε ι).run as s' = some s'') :
    (∃ h, s''.m_pWorkEvent = some (h, true) ∧ ∀ h', s''.pc = .wait h' → h' = h) ∨ s''.pc = .woken ∨
      s''.bTerminate = true ∧ (s''.pc.left = true ∨ s''.pc = .none) := by
  have hinv := inv_reachable h
  have hsettled : Settled s := ⟨hinv, hinv.creates_of_runs hruns⟩
  have hsettled' : Settled s' := hsettled.step (a := .call t .startWork) rfl hs
  have howed : Owed s' := by
    simp only [State.callStep, Option.ite_none_left_eq_some, Option.some.injEq] at hs
    obtain ⟨-, rfl⟩ := hs
    obtain ⟨⟨h', b⟩, he⟩ := Option.isSome_iff_exists.1 (hinv.event (.inl hruns))
    exact .inl ⟨hruns, h', congrArg (Option.map _) he⟩
  have hend : Settled s'' ∧ Owed s'' := by
    refine StepSystem.run_invariant_of (I := fun s => Settled s ∧ Owed s) ?_ as has ⟨hsettled', howed⟩ hr
    rintro s a s' ⟨h, howed⟩ ha hs
    cases a with
    | proc a =>
        have hwork : a ≠ .doWork := by rintro rfl; cases ha
        have hdie : a ≠ .die := by rintro rfl; cases ha
        exact ⟨h.proc hs, h.owed_proc howed hwork hdie hs⟩
    | call t a =>
        have hbeside := h.beside ha hs
        refine ⟨h.step (a := .call t a) ha hs, ?_⟩
        rw [Owed, hbeside.pc]
        rcases howed with ⟨hruns, h', he⟩ | hwoken | ⟨hterm, hleft⟩
        · exact .inl ⟨hruns, h', hbeside.event hruns h' he⟩
        · exact .inr (.inl hwoken)
        · exact .inr (.inr ⟨hbeside.bTerminate hterm, hleft⟩)
  obtain ⟨hsettled'', ⟨-, h', he⟩ | hwoken | hleft⟩ := hend
  · refine .inl ⟨h', he, fun h'' hpc => ?_⟩
    obtain ⟨b, he'⟩ := hsettled''.inv.waits h'' hpc
    exact (Prod.mk.inj (Option.some.inj (he'.symm.trans he))).1
  · exact .inr (.inl hwoken)
  · exact .inr (.inr hleft)

/-- `StartWork` of a thread that waits. The event is signalled, and the thread wakes for it. -/
theorem startWork_served_one : ∃ s s' s'', ((system Unit Unit).restrict Careful).run starts {} = some s ∧
    s.callStep () .startWork = some s' ∧ (system Unit Unit).run [.proc .workEvent] s' = some s'' ∧
      ((∃ h, s''.m_pWorkEvent = some (h, true) ∧ ∀ h', s''.pc = .wait h' → h' = h) ∨ s''.pc = .woken ∨
        s''.bTerminate = true ∧ (s''.pc.left = true ∨ s''.pc = .none)) :=
  ⟨_, _, _, rfl, rfl, rfl, startWork_served (t := ()) (.run_restrict starts (.init rfl) rfl) rfl
    rfl (by decide) (rfl : (system Unit Unit).run [.proc .workEvent] _ = some _)⟩

/-- A step that does not take `pEvent` off the list, and does not kill the thread from outside. -/
def Act.remembers (pEvent : ε) : Act ε ι → Bool
  | .proc .die | .call _ .removeAllTermEvent => false
  | .call _ (.removeTermEvent e) => e ≠ pEvent
  | a => a.keeps

/-- An event was signalled more than `n` times, or is on the list of a thread that has not ended. -/
def Promised (pEvent : ε) (n : ℕ) (s : State ε ι) : Prop :=
  n < s.signalled.count pEvent ∨ pEvent ∈ s.TermEventList ∧ s.pc ≠ .none

omit [DecidableEq ι] in
/-- A promise is kept over a step of the thread. -/
theorem Settled.promised_proc (h : Settled s) {pEvent : ε} {n : ℕ} (hn : n ≤ s.signalled.count pEvent)
    (hpromised : Promised pEvent n s) {a : ProcAct} (hdie : a ≠ .die) (hs : s.proc a = some s') :
    n ≤ s'.signalled.count pEvent ∧ Promised pEvent n s' := by
  cases a with
  | die => exact absurd rfl hdie
  | signalTermination =>
      simp only [State.proc, Option.ite_none_right_eq_some, Option.some.injEq] at hs
      obtain ⟨-, rfl⟩ := hs
      have hlt : n < (s.signalled ++ s.TermEventList).count pEvent := by
        rw [List.count_append]
        rcases hpromised with hlt | ⟨hmem, -⟩
        · exact Nat.lt_add_right _ hlt
        · have hpos := List.count_pos_iff.2 hmem
          omega
      exact ⟨Nat.le_of_lt hlt, .inl hlt⟩
  | begin =>
      simp only [State.proc, Option.ite_none_right_eq_some, Option.some.injEq] at hs
      obtain ⟨hpc, rfl⟩ := hs
      rw [if_pos (h.inv.known (hpc ▸ rfl)).2.1]
      exact ⟨hn, hpromised.imp id fun hmem => ⟨hmem.1, Pc.noConfusion⟩⟩
  | _ => grind [State.proc, Promised]

/-- A promise is kept over the calls of the others. -/
theorem Settled.promised_call (h : Settled s) {pEvent : ε} {n : ℕ} (hpromised : Promised pEvent n s)
    {a : CallAct ε} (ha : (Act.call t a).remembers pEvent = true) (hs : s.callStep t a = some s') :
    Promised pEvent n s' := by
  have hkeeps : (Act.call t a).keeps = true := by cases a <;> first | rfl | exact ha
  have hbeside := h.beside hkeeps hs
  rw [Promised, hbeside.signalled, hbeside.pc]
  refine hpromised.imp id fun ⟨hmem, hpc⟩ => ⟨?_, hpc⟩
  cases a with
  | removeAllTermEvent => cases ha
  | removeTermEvent e =>
      simp only [State.callStep, Option.ite_none_left_eq_some, Option.some.injEq] at hs
      obtain ⟨-, rfl⟩ := hs
      have hne : e ≠ pEvent := of_decide_eq_true ha
      exact List.mem_filter.2 ⟨hmem, decide_eq_true hne.symm⟩
  | _ => grind [State.callStep, State.setCall, State.closed, State.setEvent, State.killThread]

/-- **An event that `AddTermEvent` took is signalled when the thread ends**: until then it is on the list,
whatever other threads do, unless it is taken off the list.  The run is `Careful`: a second `CreateThread`
before the first instruction of the thread takes its handle away, and it returns without
`SignalTermination`. -/
theorem termEvent_signalled (h : (system ε ι).ReachableBy Careful s) (hactive : s.IfActive = true) {pEvent : ε}
    (hs : s.callStep t (.addTermEvent pEvent) = some s') {as : List (Act ε ι)}
    (has : ∀ a ∈ as, a.remembers pEvent = true) {s'' : State ε ι}
    (hr : (system ε ι).run as s' = some s'') :
    s.signalled.count pEvent < s''.signalled.count pEvent ∨
      pEvent ∈ s''.TermEventList ∧ s''.pc ≠ .none := by
  have hinv := inv_reachable h
  have hcreates : ∀ u, (s.call u).creates = false := by
    intro u
    by_contra hu
    rw [Bool.not_eq_false] at hu
    simp [State.IfActive, (hinv.resting u hu).2] at hactive
  have hsettled : Settled s := ⟨hinv, hcreates⟩
  have hsettled' : Settled s' := hsettled.step (a := .call t (.addTermEvent pEvent)) rfl hs
  have hpromised : s.signalled.count pEvent ≤ s'.signalled.count pEvent ∧
      Promised pEvent (s.signalled.count pEvent) s' := by
    simp only [State.callStep, hactive, if_true, Option.ite_none_left_eq_some, Option.some.injEq] at hs
    obtain ⟨-, rfl⟩ := hs
    refine ⟨Nat.le_refl _, .inr ⟨List.mem_append_right _ List.mem_cons_self, fun hpc => ?_⟩⟩
    have hpc : s.pc = .none := hpc
    simp [State.IfActive, hpc] at hactive
  have hend : Settled s'' ∧ s.signalled.count pEvent ≤ s''.signalled.count pEvent ∧
      Promised pEvent (s.signalled.count pEvent) s'' := by
    refine StepSystem.run_invariant_of (I := fun s₁ => Settled s₁ ∧ s.signalled.count pEvent ≤
      s₁.signalled.count pEvent ∧ Promised pEvent (s.signalled.count pEvent) s₁) ?_ as has ⟨hsettled', hpromised⟩ hr
    rintro s₁ a s₂ ⟨h, hn, hpromised⟩ ha hs
    cases a with
    | proc a =>
        have hdie : a ≠ .die := by rintro rfl; cases ha
        exact ⟨h.proc hs, h.promised_proc hn hpromised hdie hs⟩
    | call t a =>
        have hkeeps : (Act.call t a).keeps = true := by cases a <;> first | rfl | exact ha
        exact ⟨h.step hkeeps hs, (h.beside hkeeps hs).signalled ▸ hn, h.promised_call hpromised ha hs⟩
  exact hend.2.2

/-- An event of a thread that is told to end and does so. `SignalTermination` sets the event on the
way. -/
theorem termEvent_signalled_one : ∃ s s' s'', ((system Unit Unit).restrict Careful).run starts {} = some s ∧
    s.callStep () (.addTermEvent ()) = some s' ∧
    (system Unit Unit).run (.call () .killThread :: ends) s' = some s'' ∧
      (s.signalled.count () < s''.signalled.count () ∨ () ∈ s''.TermEventList ∧ s''.pc ≠ .none) :=
  ⟨_, _, _, rfl, rfl, rfl, termEvent_signalled (t := ()) (.run_restrict starts (.init rfl) rfl) rfl rfl
    (by decide) (rfl : (system Unit Unit).run (.call () .killThread :: ends) _ = some _)⟩

end Runs

end Worker
end ECSUtil

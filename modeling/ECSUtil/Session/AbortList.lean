/-
# The registrations of an abort

`TestAbort`, `RegisterAbortPtr`, `UnregisterAbortPtr`, `RegisterShutdownCB`, `UnregisterShutdownCB`,
`CStateRef` and the part of `GarbageCollect` that has to do with the states
(`ECSUtil/ECSConnection.cpp`).  The list is in the state of a thread, which is made where it is not
there, and is collected when nobody has referred to it for two minutes; what is done under
`rwlStateMap` and `rwlAbortList` is one step.

`registered` remembers what was registered and not unregistered.  `TestAbort` tells whether one of
these signals an abort as long as no two of them are equal when one is unregistered, and no thread that
has any is idle for two minutes: `abort_in_force`.
-/

import Mathlib.Data.List.Basic
import Mathlib.Data.Nat.Notation
import Mathlib.Logic.Function.Basic
import ECSUtil.Conn.Time
import ECSUtil.Lib.StepSystem

namespace ECSUtil
namespace Aborts

/-- `ABORT_ENTRY`.  Pointers are numbers, and zero is `nullptr`. -/
structure AbortEntry where
  pbAbort : ℕ := 0
  bAbortIfTrue : Bool := true
  ShutdownCB : ℕ := 0
  pShutdownContext : ℕ := 0
  deriving DecidableEq, Repr

/-- What the pointers point at, and what the callbacks return. -/
structure World where
  abort : ℕ → Bool
  shutdown : ℕ → ℕ → Bool

/-- The body of the loop of `TestAbort`. -/
def AbortEntry.test (e : AbortEntry) (w : World) : Bool :=
  if e.ShutdownCB ≠ 0 ∧ w.shutdown e.ShutdownCB e.pShutdownContext then true
  else if e.pbAbort ≠ 0 then
    if e.bAbortIfTrue then w.abort e.pbAbort else !w.abort e.pbAbort
  else false

/-- What is registered. -/
inductive Registration
  | abortPtr (pbAbort : ℕ) (bAbortTrue : Bool)
  | shutdownCB (ShutdownCB pContext : ℕ)
  deriving DecidableEq, Repr

/-- A registration signals an abort: what `pbAbort` points at is as it was told, or the callback says
so. -/
def Registration.Signals (w : World) : Registration → Prop
  | .abortPtr pbAbort bAbortTrue => pbAbort ≠ 0 ∧ w.abort pbAbort = bAbortTrue
  | .shutdownCB ShutdownCB pContext => ShutdownCB ≠ 0 ∧ w.shutdown ShutdownCB pContext = true

/-- The entry of a registration. -/
def Registration.entry : Registration → AbortEntry
  | .abortPtr pbAbort bAbortTrue => { pbAbort := pbAbort, bAbortIfTrue := bAbortTrue }
  | .shutdownCB ShutdownCB pContext =>
      { ShutdownCB := ShutdownCB, pShutdownContext := pContext }

/-- The arguments of `UnregisterAbortPtr` and of `UnregisterShutdownCB`. -/
inductive Unregistration
  | abortPtr (pbAbort : ℕ)
  | shutdownCB (ShutdownCB pContext : ℕ)
  deriving DecidableEq, Repr

namespace Unregistration

/-- The comparison of the loop. -/
def removes : Unregistration → AbortEntry → Bool
  | .abortPtr pbAbort, e => e.pbAbort = pbAbort
  | .shutdownCB ShutdownCB pContext, e =>
      e.ShutdownCB = ShutdownCB ∧ e.pShutdownContext = pContext

/-- It is the counterpart of a registration. -/
def of : Unregistration → Registration → Bool
  | .abortPtr pbAbort, .abortPtr pbAbort' _ => pbAbort = pbAbort'
  | .shutdownCB ShutdownCB pContext, .shutdownCB ShutdownCB' pContext' =>
      ShutdownCB = ShutdownCB' ∧ pContext = pContext'
  | _, _ => false

end Unregistration

/-- `CECSConnectionState`, as far as it is collected, with its list. -/
structure ThreadState where
  ulReferenceCount : ℕ := 0
  ftLastUsed : FileTime := 0
  AbortList : List AbortEntry := []
  deriving DecidableEq, Repr

/-- `FT_MINUTES(2)`. -/
def twoMinutes : FileTime := 1200000000

/-- `GarbageCollect` takes the state away. -/
def ThreadState.collected (x : ThreadState) (ftNow : FileTime) : Bool :=
  x.ulReferenceCount = 0 ∧ x.ftLastUsed ≠ 0 ∧ x.ftLastUsed < ftNow - twoMinutes

/-- The states by connection and thread, `κ`, and what is registered. -/
structure State (κ : Type*) where
  StateMap : κ → Option ThreadState := fun _ => none
  registered : κ → List Registration := fun _ => []

/-- What the threads do. -/
inductive Action (κ : Type*)
  | register (k : κ) (r : Registration) (ftNow : FileTime)
  | unregister (k : κ) (u : Unregistration) (ftNow : FileTime)
  /-- A `CStateRef` is made, by another call or by a `CStateReserve`. -/
  | stateRef (k : κ)
  /-- It goes. -/
  | stateRelease (k : κ) (ftNow : FileTime)
  | garbageCollect (ftNow : FileTime)
  deriving DecidableEq, Repr

namespace State

variable {κ : Type*} [DecidableEq κ]

/-- `GetStateBuf`: the state, which is a new one where there is none. -/
def getState (s : State κ) (k : κ) : ThreadState := (s.StateMap k).getD {}

def setState (s : State κ) (k : κ) (x : ThreadState) : State κ :=
  { s with StateMap := Function.update s.StateMap k (some x) }

/-- A call that changes the list, with the `CStateRef` that it has for the time being. -/
def change (s : State κ) (k : κ) (ftNow : FileTime) (f : List AbortEntry → List AbortEntry) :
    State κ :=
  s.setState k { s.getState k with
    ftLastUsed := ftNow
    AbortList := f (s.getState k).AbortList }

/-- The last registration of which it is the counterpart is gone. -/
def forget (l : List Registration) (u : Unregistration) : List Registration :=
  (l.reverse.eraseP u.of).reverse

/-- `TestAbort`. -/
def testAbort (s : State κ) (bCheckShutdown : Bool) (w : World) (k : κ) : Bool :=
  bCheckShutdown && (s.getState k).AbortList.any fun e => e.test w

/-- One step. -/
def step (s : State κ) : Action κ → Option (State κ)
  | .register k r ftNow =>
      some { s.change k ftNow (· ++ [r.entry]) with
        registered := Function.update s.registered k (s.registered k ++ [r]) }
  | .unregister k u ftNow =>
      some { s.change k ftNow (·.filter fun e => !u.removes e) with
        registered := Function.update s.registered k (forget (s.registered k) u) }
  | .stateRef k =>
      some (s.setState k { s.getState k with
        ulReferenceCount := (s.getState k).ulReferenceCount + 1 })
  | .stateRelease k ftNow =>
      if (s.getState k).ulReferenceCount = 0 then none
      else
        some (s.setState k { s.getState k with
          ulReferenceCount := (s.getState k).ulReferenceCount - 1
          ftLastUsed := ftNow })
  | .garbageCollect ftNow =>
      some { s with StateMap := fun k => (s.StateMap k).filter fun x => !x.collected ftNow }

end State

/-- Any connections and threads, at first without states. -/
def system (κ : Type*) [DecidableEq κ] : StepSystem (State κ) (Action κ) where
  init s := s = {}
  step := State.step

/-- What the registrations ask of a step: what is unregistered is one registration at most, of that
kind; and no state with a list is collected. -/
def InForce {κ : Type*} (s : State κ) : Action κ → Prop
  | .unregister k u _ =>
      (s.registered k).countP (fun r => u.removes r.entry) ≤ 1 ∧
        ∀ r ∈ s.registered k, u.removes r.entry = true → u.of r = true
  | .garbageCollect ftNow => ∀ k, ∀ x ∈ s.StateMap k, x.collected ftNow = true → x.AbortList = []
  | _ => True

section

variable {κ : Type*} {s s' : State κ} {k : κ} {u : Unregistration} {w : World}

/-- An entry is tested as its registration says. -/
theorem test_entry (r : Registration) (w : World) : r.entry.test w = true ↔ r.Signals w := by
  cases r with
  | abortPtr pbAbort bAbortTrue =>
      simp only [AbortEntry.test, Registration.entry, Registration.Signals]
      cases bAbortTrue <;> by_cases hp : pbAbort = 0 <;> simp [hp]
  | shutdownCB ShutdownCB pContext =>
      simp [AbortEntry.test, Registration.entry, Registration.Signals]

/-- A counterpart is removed. -/
theorem removes_of {r : Registration} (h : u.of r = true) : u.removes r.entry = true := by
  cases u <;> cases r <;> simp_all [Unregistration.of, Unregistration.removes, Registration.entry]

/-- Where one element at most is to go, one goes. -/
theorem eraseP_eq_filter {α : Type*} {p : α → Bool} {l : List α} (h : l.countP p ≤ 1) :
    l.eraseP p = l.filter fun a => !p a := by
  induction l with
  | nil => rfl
  | cons a l ih =>
      cases hp : p a with
      | true =>
          rw [List.countP_cons_of_pos hp] at h
          have hnone : ∀ b ∈ l, ¬p b = true := List.countP_eq_zero.1 (by omega)
          rw [List.eraseP_cons_of_pos hp, List.filter_cons_of_neg (by simp [hp])]
          exact (List.filter_eq_self.2 fun b hb => by simp [hnone b hb]).symm
      | false =>
          rw [List.countP_cons_of_neg (by simp [hp])] at h
          rw [List.eraseP_cons_of_neg (by simp [hp]), List.filter_cons_of_pos (by simp [hp]), ih h]

/-- **What is unregistered**, where it is one registration of the kind at most. The code takes off
the list every entry that is equal, and the ghost list one registration of the caller's; so the two
agree where no more than one is equal, and it is of that kind. -/
theorem forget_eq {l : List Registration} (hone : l.countP (fun r => u.removes r.entry) ≤ 1)
    (hof : ∀ r ∈ l, u.removes r.entry = true → u.of r = true) :
    (State.forget l u).map Registration.entry =
      (l.map Registration.entry).filter fun e => !u.removes e := by
  have hsame : ∀ r ∈ l, u.of r = u.removes r.entry := fun r hr =>
    Bool.eq_iff_iff.2 ⟨removes_of, hof r hr⟩
  have hcount : l.countP u.of ≤ 1 := by
    rw [List.countP_congr fun r hr => by rw [hsame r hr]]
    exact hone
  unfold State.forget
  rw [eraseP_eq_filter (by rwa [List.countP_reverse]), List.filter_reverse, List.reverse_reverse,
    List.filter_map]
  refine congrArg _ (List.filter_congr fun r hr => ?_)
  rw [hsame r hr]
  rfl

/-- **The invariant**: the list is that of what is registered. -/
def Listed (s : State κ) : Prop :=
  ∀ k, (s.getState k).AbortList = (s.registered k).map Registration.entry

variable [DecidableEq κ]

/-- The state of a thread is what it is set to. -/
theorem getState_self (s : State κ) (k : κ) (x : ThreadState) : (s.setState k x).getState k = x := by
  show (Function.update s.StateMap k (some x) k).getD {} = x
  rw [Function.update_self, Option.getD_some]

/-- Where a state is set, those of other threads are as before. -/
theorem getState_of_ne (s : State κ) {j k : κ} (hne : j ≠ k) (x : ThreadState) :
    (s.setState k x).getState j = s.getState j := by
  show (Function.update s.StateMap k (some x) j).getD {} = s.getState j
  rw [Function.update_of_ne hne]
  rfl

/-- A state is changed, and what is registered with it. -/
theorem Listed.set (h : Listed s) {x : ThreadState} {l : List Registration}
    (hx : x.AbortList = l.map Registration.entry) :
    Listed { s.setState k x with registered := Function.update s.registered k l } := by
  intro j
  show ((s.setState k x).getState j).AbortList = (Function.update s.registered k l j).map _
  rcases eq_or_ne j k with rfl | hne
  · rw [getState_self, Function.update_self, hx]
  · rw [getState_of_ne s hne, Function.update_of_ne hne]
    exact h j

/-- A state may change that keeps its list. -/
theorem Listed.set_same (h : Listed s) {x : ThreadState}
    (hx : x.AbortList = (s.getState k).AbortList) : Listed (s.setState k x) := by
  intro j
  show ((s.setState k x).getState j).AbortList = _
  rcases eq_or_ne j k with rfl | hne
  · rw [getState_self, hx]
    exact h j
  · rw [getState_of_ne s hne]
    exact h j

/-- **Every step keeps the list**, where the registrations are in force. The list of a thread is
what it has registered and not unregistered, in order; a collection takes lists away, and under the
condition none that has anything on it. -/
theorem Listed.step {a : Action κ} (h : Listed s) (hC : InForce s a) (hs : s.step a = some s') :
    Listed s' := by
  cases a with
  | register k r ftNow =>
      obtain rfl := Option.some.inj hs
      refine h.set ?_
      show (s.getState k).AbortList ++ [r.entry] = _
      rw [h k, List.map_append, List.map_singleton]
  | unregister k u ftNow =>
      obtain rfl := Option.some.inj hs
      refine h.set ?_
      show (s.getState k).AbortList.filter _ = _
      rw [h k, forget_eq hC.1 hC.2]
  | stateRef k =>
      obtain rfl := Option.some.inj hs
      exact h.set_same rfl
  | stateRelease k ftNow =>
      obtain ⟨-, rfl⟩ := Option.ite_none_left_eq_some.1 hs |>.imp_right Option.some.inj
      exact h.set_same rfl
  | garbageCollect ftNow =>
      obtain rfl := Option.some.inj hs
      intro k
      rw [← h k]
      show (((s.StateMap k).filter fun x => !x.collected ftNow).getD {}).AbortList =
        ((s.StateMap k).getD {}).AbortList
      cases hx : s.StateMap k with
      | none => rfl
      | some x =>
          cases hcoll : x.collected ftNow with
          | true =>
              rw [Option.filter_some_neg (by simp [hcoll]), Option.getD_some, hC k x hx hcoll]
              rfl
          | false => rw [Option.filter_some_pos (by simp [hcoll])]

end

/-- **The registrations are in force.**  With shutdown checking on, `TestAbort` returns true if and only
if a registration that has not been unregistered signals an abort, in the runs where what is unregistered
is not registered twice and no state with a list is collected. -/
theorem abort_in_force {κ : Type*} [DecidableEq κ] {s : State κ}
    (h : (system κ).ReachableBy InForce s) (w : World) (k : κ) :
    s.testAbort true w k = true ↔ ∃ r ∈ s.registered k, r.Signals w := by
  have hlisted : Listed s := by
    refine h.invariant ?_ fun _ _ _ hI hC hs => hI.step hC hs
    rintro _ rfl k
    rfl
  unfold State.testAbort
  rw [Bool.true_and, hlisted k, List.any_map, List.any_eq_true]
  exact exists_congr fun r => and_congr_right fun _ => test_entry r w

/-- Every pointer points at `true`. -/
def aborting : World := { abort := fun _ => true, shutdown := fun _ _ => false }

instance (s : State Bool) (a : Action Bool) : Decidable (InForce s a) := by
  cases a <;> unfold InForce <;> infer_instance

/-- Two pointers are registered, one is unregistered, and there is a collection a minute later. -/
def oneLeft : List (Action Bool) :=
  [.register false (.abortPtr 1 true) 1, .register false (.abortPtr 2 true) 1,
    .unregister false (.abortPtr 2) 1, .garbageCollect 600000001]

/-- One thread registers a pointer and a callback and takes the pointer away again; the callback
signals. -/
theorem abort_in_force_one : ∃ s : State Bool, (system Bool).ReachableBy InForce s ∧
    s.testAbort true aborting false = true ∧ ∃ r ∈ s.registered false, r.Signals aborting := by
  have hrun : (((system Bool).restrict InForce).run oneLeft {}).map
      (fun s => s.testAbort true aborting false) = some true := by decide
  obtain ⟨s, hs, htest⟩ := Option.map_eq_some_iff.1 hrun
  have hr : (system Bool).ReachableBy InForce s := .run_restrict oneLeft (.init rfl) hs
  exact ⟨s, hr, htest, (abort_in_force hr aborting false).1 htest⟩

/-- A pointer is registered twice and unregistered once. -/
def nested : List (Action Bool) :=
  [.register false (.abortPtr 1 true) 1, .register false (.abortPtr 1 true) 1,
    .unregister false (.abortPtr 1) 1]

/-- A pointer is registered, and there is a collection three minutes later. -/
def idle : List (Action Bool) :=
  [.register false (.abortPtr 1 true) 1, .garbageCollect 1800000001]

/-- **A registration is lost** to the inner of two scopes, and to a collection. Both lists are empty
then, while the outer registration, or the one of the thread that was idle, is still in force and
signals an abort. -/
theorem registration_lost :
    (∃ s : State Bool, (system Bool).run nested {} = some s ∧
      s.testAbort true aborting false = false ∧ ∃ r ∈ s.registered false, r.Signals aborting) ∧
    ∃ s : State Bool, (system Bool).run idle {} = some s ∧
      s.testAbort true aborting false = false ∧ ∃ r ∈ s.registered false, r.Signals aborting :=
  ⟨⟨_, rfl, by decide, .abortPtr 1 true, by decide, by decide, rfl⟩,
    ⟨_, rfl, by decide, .abortPtr 1 true, by decide, by decide, rfl⟩⟩

end Aborts
end ECSUtil

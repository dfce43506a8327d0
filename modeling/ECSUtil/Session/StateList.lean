/-
# The states of the threads

`GetStateBuf`, `CStateRef` and `GarbageCollect` (`ECSUtil/ECSConnection.cpp`), for the part that has to
do with the states of a connection.  Every step of a thread is one access to what the threads share,
under the locks the source takes: `rwlStateMap` of a connection, shared to find a state and
exclusive to insert and to erase, and `csThrottleMap` for a collection.

A state that is referred to stays in its map: `states_pinned`.

The threads have the locks as their places in the source say (`Pc.mode`).  The invariant (`Inv`) is
that what is referred to is in the map, and counted, and that a state which is about to be erased,
under the exclusive lock, is in the map and not referred to.
-/

import Mathlib.Data.List.Perm.Basic
import ECSUtil.Conn.Time
import ECSUtil.Lib.SortedMap
import ECSUtil.Lib.SrwLock
import ECSUtil.Lib.StepSystem

namespace ECSUtil
namespace StateList

/-- `CECSConnectionState`, as far as it is collected. -/
structure ConnectionState where
  ulReferenceCount : ℤ := 0
  ftLastUsed : FileTime := 0
  deriving DecidableEq, Repr

/-- `CStateRef`, from the increment of the count to the decrement. -/
structure StateRef where
  pConn : ℕ
  dwThreadID : ℕ
  /-- The number of the state. -/
  Ref : ℕ
  /-- The destructor has set `ftLastUsed`. -/
  bReleasing : Bool := false
  deriving DecidableEq, Repr

/-- Where a thread is. -/
inductive Pc
  | idle
  /-- `GetStateBuf` has the read lock. -/
  | find (pConn : ℕ)
  /-- It has found the state. -/
  | found (pConn Ref : ℕ)
  /-- The state is counted. -/
  | foundDone (pConn : ℕ)
  /-- It has released the read lock. -/
  | upgrade (pConn : ℕ)
  /-- It has the write lock. -/
  | insert (pConn : ℕ)
  /-- The state is in the map and counted; the map may be getting large. -/
  | inserted (pConn : ℕ) (bCollect : Bool)
  /-- `GarbageCollect`, before it takes `csThrottleMap`. -/
  | collect (ftNow : FileTime)
  /-- The connections it has still to go to. -/
  | connections (ftExpire : FileTime) (rest : List ℕ)
  /-- The states of a connection it has still to look at. -/
  | states (ftExpire : FileTime) (pConn : ℕ) (keys rest : List ℕ)
  /-- A state was found to be unused and old. -/
  | erase (ftExpire : FileTime) (pConn key Ref : ℕ) (keys rest : List ℕ)
  deriving DecidableEq, Repr

/-- In which mode the thread has `rwlStateMap` of a connection. -/
def Pc.mode (c : ℕ) : Pc → Option Bool
  | find c' | found c' _ | foundDone c' => if c' = c then some false else none
  | insert c' | inserted c' _ | states _ c' _ _ | erase _ c' _ _ _ _ =>
      if c' = c then some true else none
  | _ => none

structure State where
  StateMap : ℕ → SortedMap ℕ ℕ := fun _ => .empty
  states : ℕ → ConnectionState := fun _ => {}
  /-- The number of the next state. -/
  next : ℕ := 0
  rwlStateMap : ℕ → SrwLock ℕ := fun _ => {}
  csThrottleMap : Option ℕ := none
  ECSConnectionList : List ℕ
  refs : List StateRef := []
  pc : ℕ → Pc := fun _ => .idle

inductive Action
  /-- The constructor of `CStateRef` calls `GetStateBuf`, which takes the read lock. -/
  | getStateBuf (t pConn : ℕ)
  | garbageCollect (t : ℕ) (ftNow : FileTime)
  /-- The next step of the thread; the time is needed where it calls `GarbageCollect`. -/
  | run (t : ℕ) (ftNow : FileTime)
  /-- The destructor of a `CStateRef` sets `ftLastUsed`, on any thread. -/
  | releaseStart (k : ℕ) (ftNow : FileTime)
  /-- It decrements the count. -/
  | releaseEnd (k : ℕ)
  deriving DecidableEq, Repr

/-- `FT_MINUTES(2)`. -/
def twoMinutes : FileTime := 1200000000

namespace State

def goto (s : State) (t : ℕ) (p : Pc) : State := { s with pc := Function.update s.pc t p }

/-- A lock of `rwlStateMap` is taken, or waited for. -/
def lock (s : State) (t c : ℕ) (bWrite : Bool) : Option State :=
  ((s.rwlStateMap c).acquire t bWrite).map fun l =>
    { s with rwlStateMap := Function.update s.rwlStateMap c l }

def unlock (s : State) (t c : ℕ) (bWrite : Bool) : Option State :=
  ((s.rwlStateMap c).release t bWrite).map fun l =>
    { s with rwlStateMap := Function.update s.rwlStateMap c l }

def setState (s : State) (id : ℕ) (x : ConnectionState) : State :=
  { s with states := Function.update s.states id x }

/-- `InterlockedIncrement` or `InterlockedDecrement` of the count. -/
def addRef (s : State) (id : ℕ) (n : ℤ) : State :=
  s.setState id { s.states id with ulReferenceCount := (s.states id).ulReferenceCount + n }

/-- A thread counts a state and refers to it. -/
def refer (s : State) (t c id : ℕ) : State :=
  { s.addRef id 1 with refs := s.refs ++ [{ pConn := c, dwThreadID := t, Ref := id }] }

/-- `emplace`: the state of the thread, which is a new one where there is none. -/
def emplace (s : State) (t c : ℕ) : State × ℕ :=
  match (s.StateMap c).find t with
  | some id => (s, id)
  | none =>
      ({ s.setState s.next {} with
          StateMap := Function.update s.StateMap c ((s.StateMap c).insert t s.next)
          next := s.next + 1 }, s.next)

/-- The next step of a thread. -/
def run (s : State) (t : ℕ) (ftNow : FileTime) : Option State :=
  match s.pc t with
  | .idle => none
  | .find c =>
      match (s.StateMap c).find t with
      | some id => some (s.goto t (.found c id))
      | none => (s.unlock t c false).map fun s => s.goto t (.upgrade c)
  | .found c id => some ((s.refer t c id).goto t (.foundDone c))
  | .foundDone c => (s.unlock t c false).map fun s => s.goto t .idle
  | .upgrade c => (s.lock t c true).map fun s => s.goto t (.insert c)
  | .insert c =>
      let MapSize := (s.StateMap c).entries.length
      let r := s.emplace t c
      some ((r.1.refer t c r.2).goto t (.inserted c (500 < MapSize)))
  | .inserted c bCollect =>
      (s.unlock t c true).map fun s => s.goto t (if bCollect then .collect ftNow else .idle)
  | .collect ftNow =>
      if s.csThrottleMap = none then
        some ({ s with csThrottleMap := some t }.goto t
          (.connections (ftNow - twoMinutes) s.ECSConnectionList))
      else none
  | .connections _ [] => some ({ s with csThrottleMap := none }.goto t .idle)
  | .connections ftExpire (c :: rest) =>
      (s.lock t c true).map fun s =>
        s.goto t (.states ftExpire c ((s.StateMap c).entries.map Prod.fst) rest)
  | .states ftExpire c [] rest =>
      (s.unlock t c true).map fun s => s.goto t (.connections ftExpire rest)
  | .states ftExpire c (key :: keys) rest =>
      match (s.StateMap c).find key with
      | none => some (s.goto t (.states ftExpire c keys rest))
      | some id =>
          if (s.states id).ulReferenceCount = 0 ∧ (s.states id).ftLastUsed ≠ 0 ∧
              (s.states id).ftLastUsed < ftExpire then
            some (s.goto t (.erase ftExpire c key id keys rest))
          else some (s.goto t (.states ftExpire c keys rest))
  | .erase ftExpire c key _ keys rest =>
      some ({ s with StateMap := Function.update s.StateMap c ((s.StateMap c).erase key) }.goto t
        (.states ftExpire c keys rest))

end State

def step (s : State) : Action → Option State
  | .getStateBuf t c =>
      if s.pc t = .idle then (s.lock t c false).map fun s => s.goto t (.find c) else none
  | .garbageCollect t ftNow =>
      if s.pc t = .idle then some (s.goto t (.collect ftNow)) else none
  | .run t ftNow => s.run t ftNow
  | .releaseStart k ftNow =>
      match s.refs[k]? with
      | some r =>
          if r.bReleasing then none
          else
            some { s.setState r.Ref { s.states r.Ref with ftLastUsed := ftNow } with
              refs := s.refs.set k { r with bReleasing := true } }
      | none => none
  | .releaseEnd k =>
      match s.refs[k]? with
      | some r =>
          if r.bReleasing then some { s.addRef r.Ref (-1) with refs := s.refs.eraseIdx k } else none
      | none => none

/-- Any threads and any connections. -/
def system : StepSystem State Action where
  init s := ∃ ECSConnectionList, s = { ECSConnectionList := ECSConnectionList }
  step := step

/-- The state of a thread. -/
def State.state (s : State) (c t : ℕ) : Option ℕ := (s.StateMap c).find t

/-- How many references a state has. -/
def State.referred (s : State) (id : ℕ) : ℕ := s.refs.countP fun r => r.Ref = id

/-- **The invariant.**  The locks are with the threads as their places in the source say; what is referred to
is in its map, and counted; an id is given out once, and stands for one state; and what a thread has found, or
is about to erase, is still there. -/
structure Inv (s : State) : Prop where
  /-- The threads have the locks as their places say. -/
  agrees : ∀ c, (s.rwlStateMap c).Agrees fun t => (s.pc t).mode c
  /-- What is referred to is in the map. -/
  pinned : ∀ r ∈ s.refs, s.state r.pConn r.dwThreadID = some r.Ref
  counted : ∀ id, (s.states id).ulReferenceCount = s.referred id
  fresh : ∀ {c t id}, s.state c t = some id → id < s.next
  apart : ∀ {c t c' t' id}, s.state c t = some id → s.state c' t' = some id → c = c' ∧ t = t'
  found : ∀ {t c id}, s.pc t = .found c id → s.state c t = some id
  /-- What is about to be erased is not referred to. -/
  erasing : ∀ {t ftExpire c key id keys rest}, s.pc t = .erase ftExpire c key id keys rest →
    s.state c key = some id ∧ s.referred id = 0

variable {s s' : State} {t c id : ℕ} {p : Pc}

/-- The modes change with the place of the one thread. -/
theorem mode_goto (pc : ℕ → Pc) (t c : ℕ) (p : Pc) :
    (fun t' => (Function.update pc t p t').mode c) =
      Function.update (fun t' => (pc t').mode c) t (p.mode c) := by
  funext t'
  by_cases h : t' = t
  · subst h
    rw [Function.update_self, Function.update_self]
  · rw [Function.update_of_ne h, Function.update_of_ne h]

/-- A thread that keeps its locks. -/
theorem Inv.agrees_goto (h : Inv s) (hmode : ∀ c, p.mode c = (s.pc t).mode c) (c : ℕ) :
    (s.rwlStateMap c).Agrees fun t' => (Function.update s.pc t p t').mode c := by
  rw [mode_goto, hmode c, Function.update_eq_self (f := fun t' => (s.pc t').mode c)]
  exact h.agrees c

/-- **A thread takes a lock.** The lock of the map is given to a thread that had none on it, in the
mode that its next place asks for; the locks of the other maps are as they were. -/
theorem Inv.agrees_lock (h : Inv s) {bWrite : Bool} {s₁ : State} (hlock : s.lock t c bWrite = some s₁)
    (hfree : (s.pc t).mode c = none) (hmode : p.mode c = some bWrite)
    (hother : ∀ c' ≠ c, p.mode c' = (s.pc t).mode c') (c' : ℕ) :
    (s₁.rwlStateMap c').Agrees fun t' => (Function.update s.pc t p t').mode c' := by
  obtain ⟨l, hl, rfl⟩ := Option.map_eq_some_iff.1 hlock
  show (Function.update s.rwlStateMap c l c').Agrees _
  rw [mode_goto]
  by_cases hc : c' = c
  · subst hc
    rw [Function.update_self, hmode]
    exact (h.agrees c').acquire hfree hl
  · rw [Function.update_of_ne hc, hother c' hc,
      Function.update_eq_self (f := fun t' => (s.pc t').mode c')]
    exact h.agrees c'

/-- **A thread gives a lock back.** The lock was held in the mode of the place that the thread
leaves, and its next place has none on that map. -/
theorem Inv.agrees_unlock (h : Inv s) {bWrite : Bool} {s₁ : State}
    (hunlock : s.unlock t c bWrite = some s₁) (hheld : (s.pc t).mode c = some bWrite)
    (hmode : p.mode c = none) (hother : ∀ c' ≠ c, p.mode c' = (s.pc t).mode c') (c' : ℕ) :
    (s₁.rwlStateMap c').Agrees fun t' => (Function.update s.pc t p t').mode c' := by
  obtain ⟨l, hl, rfl⟩ := Option.map_eq_some_iff.1 hunlock
  show (Function.update s.rwlStateMap c l c').Agrees _
  rw [mode_goto]
  by_cases hc : c' = c
  · subst hc
    obtain ⟨l', hl', hagrees⟩ := (h.agrees c').release hheld
    obtain rfl := Option.some.inj (hl'.symm.trans hl)
    rw [Function.update_self, hmode]
    exact hagrees
  · rw [Function.update_of_ne hc, hother c' hc,
      Function.update_eq_self (f := fun t' => (s.pc t').mode c')]
    exact h.agrees c'

/-- **A step that changes no map and no state.** Only the place of one thread changes; the
hypotheses are what the invariant asks of a place at which a state was found or is about to be
erased. -/
theorem Inv.move (h : Inv s)
    (hagrees : ∀ c, (s'.rwlStateMap c).Agrees fun t' => (Function.update s.pc t p t').mode c)
    (hpc : s'.pc = Function.update s.pc t p) (hmap : s'.StateMap = s.StateMap)
    (hstates : s'.states = s.states) (hnext : s'.next = s.next) (hrefs : s'.refs = s.refs)
    (hfound : ∀ c id, p = .found c id → s.state c t = some id)
    (herase : ∀ ftExpire c key id keys rest, p = .erase ftExpire c key id keys rest →
      s.state c key = some id ∧ s.referred id = 0) : Inv s' := by
  have hstate : s'.state = s.state := by
    unfold State.state
    rw [hmap]
  have hreferred : s'.referred = s.referred := by
    unfold State.referred
    rw [hrefs]
  refine ⟨?_, ?_, ?_, ?_, ?_, ?_, ?_⟩
  · rw [hpc]
    exact hagrees
  · rw [hrefs, hstate]
    exact h.pinned
  · rw [hstates, hreferred]
    exact h.counted
  · rw [hstate, hnext]
    exact h.fresh
  · rw [hstate]
    exact h.apart
  · intro t' c id hp
    rw [hpc] at hp
    rw [hstate]
    by_cases ht : t' = t
    · subst ht
      rw [Function.update_self] at hp
      exact hfound c id hp
    · rw [Function.update_of_ne ht] at hp
      exact h.found hp
  · intro t' ftExpire c key id keys rest hp
    rw [hpc] at hp
    rw [hstate, hreferred]
    by_cases ht : t' = t
    · subst ht
      rw [Function.update_self] at hp
      exact herase ftExpire c key id keys rest hp
    · rw [Function.update_of_ne ht] at hp
      exact h.erasing hp

/-- A thread with the lock of a connection, and one that has it exclusively. -/
theorem Inv.exclusive (h : Inv s) {t' : ℕ} (ht : (s.pc t).mode c = some true)
    (ht' : (s.pc t').mode c ≠ none) : t' = t :=
  (h.agrees c).alone ht ht'

/-- A state is found under the shared lock. -/
theorem Pc.mode_found (c id : ℕ) : (Pc.found c id).mode c = some false := if_pos rfl

/-- A state is inserted under the exclusive lock. -/
theorem Pc.mode_insert (c : ℕ) : (Pc.insert c).mode c = some true := if_pos rfl

/-- A state is erased under the exclusive lock. -/
theorem Pc.mode_erase (ftExpire c key id : ℕ) (keys rest : List ℕ) :
    (Pc.erase ftExpire c key id keys rest).mode c = some true := if_pos rfl

/-- How many references there are to a state, with one more. -/
theorem referred_refer (s : State) (t c id id' : ℕ) :
    (s.refer t c id).referred id' = s.referred id' + if id = id' then 1 else 0 := by
  show (s.refs ++ [_]).countP _ = _
  rw [List.countP_append, List.countP_singleton]
  simp only [decide_eq_true_eq]
  rfl

/-- **A thread refers to its state**, which it counts. The state is in the map under the lock that
the thread has in either mode, so none is about to be erased in that map but by the thread itself. -/
theorem Inv.refer (h : Inv s) (hstate : s.state c t = some id) (hlocked : (s.pc t).mode c ≠ none)
    (hmode : ∀ c, p.mode c = (s.pc t).mode c) (hfound : ∀ c id, p ≠ .found c id)
    (herase : ∀ ftExpire c key id keys rest, p ≠ .erase ftExpire c key id keys rest)
    (hpc : ∀ ftExpire c key id keys rest, s.pc t ≠ .erase ftExpire c key id keys rest) :
    Inv ((s.refer t c id).goto t p) := by
  refine ⟨h.agrees_goto hmode, ?_, ?_, h.fresh, h.apart, ?_, ?_⟩
  · intro r hr
    rcases List.mem_append.1 hr with hr | hr
    · exact h.pinned r hr
    · obtain rfl := List.mem_singleton.1 hr
      exact hstate
  · intro id'
    show (Function.update s.states id _ id').ulReferenceCount = ((s.refer t c id).referred id' : ℤ)
    rw [referred_refer]
    have hcounted := h.counted id'
    by_cases hid : id' = id
    · subst hid
      rw [Function.update_self, if_pos rfl]
      show (s.states id').ulReferenceCount + 1 = _
      omega
    · rw [Function.update_of_ne hid, if_neg (Ne.symm hid)]
      exact hcounted
  · intro t' c' id' hp
    show s.state c' t' = some id'
    have hp' : Function.update s.pc t p t' = .found c' id' := hp
    by_cases ht : t' = t
    · subst ht
      rw [Function.update_self] at hp'
      exact absurd hp' (hfound c' id')
    · rw [Function.update_of_ne ht] at hp'
      exact h.found hp'
  · intro t' ftExpire c' key id' keys rest hp
    have hp' : Function.update s.pc t p t' = .erase ftExpire c' key id' keys rest := hp
    by_cases ht : t' = t
    · subst ht
      rw [Function.update_self] at hp'
      exact absurd hp' (herase ftExpire c' key id' keys rest)
    · rw [Function.update_of_ne ht] at hp'
      obtain ⟨hkey, hzero⟩ := h.erasing hp'
      refine ⟨hkey, ?_⟩
      show (s.refer t c id).referred id' = 0
      have hid : id ≠ id' := by
        rintro rfl
        obtain ⟨rfl, rfl⟩ := h.apart hkey hstate
        have hexclusive : (s.pc t').mode c' = some true := by
          rw [hp']
          exact Pc.mode_erase ..
        exact ht (h.exclusive hexclusive hlocked).symm
      rw [referred_refer, if_neg hid, hzero]

/-- What `emplace` makes of the map of a connection. -/
theorem state_emplace (hnone : s.state c t = none) (c' t' : ℕ) :
    (s.emplace t c).1.state c' t' = if c' = c ∧ t' = t then some s.next else s.state c' t' := by
  have hcase : s.emplace t c =
      ({ s.setState s.next {} with
          StateMap := Function.update s.StateMap c ((s.StateMap c).insert t s.next)
          next := s.next + 1 }, s.next) := by
    unfold State.emplace
    rw [show (s.StateMap c).find t = none from hnone]
  rw [hcase]
  show (Function.update s.StateMap c _ c').find t' = _
  by_cases hc : c' = c
  · subst hc
    rw [Function.update_self, SortedMap.find_insert hnone]
    by_cases ht : t' = t
    · rw [if_pos ht, if_pos ⟨rfl, ht⟩]
    · rw [if_neg ht, if_neg fun h => ht h.2]
      rfl
  · rw [Function.update_of_ne hc, if_neg fun h => hc h.1]
    rfl

/-- A state that no map has is not referred to. -/
theorem Inv.referred_next (h : Inv s) : s.referred s.next = 0 := by
  refine List.countP_eq_zero.2 fun r hr heq => ?_
  have hlt := h.fresh (h.pinned r hr)
  exact absurd (of_decide_eq_true heq) (Nat.ne_of_lt hlt)

/-- **A state is made for the thread** where there is none. A new state gets a number that no other
has had, so no reference and no place of another thread speaks of it. -/
theorem Inv.emplace (h : Inv s) (c : ℕ) :
    Inv (s.emplace t c).1 ∧ (s.emplace t c).1.state c t = some (s.emplace t c).2 ∧
      (s.emplace t c).1.pc = s.pc := by
  cases hfind : s.state c t with
  | some id =>
      have hcase : s.emplace t c = (s, id) := by
        unfold State.emplace
        rw [show (s.StateMap c).find t = some id from hfind]
      rw [hcase]
      exact ⟨h, hfind, rfl⟩
  | none =>
      have hstate := state_emplace (s := s) hfind
      have hcase : s.emplace t c =
          ({ s.setState s.next {} with
              StateMap := Function.update s.StateMap c ((s.StateMap c).insert t s.next)
              next := s.next + 1 }, s.next) := by
        unfold State.emplace
        rw [show (s.StateMap c).find t = none from hfind]
      have hkept : ∀ {c' t' id}, s.state c' t' = some id →
          (s.emplace t c).1.state c' t' = some id := by
        intro c' t' id hid
        rw [hstate, if_neg, hid]
        rintro ⟨rfl, rfl⟩
        rw [hfind] at hid
        exact absurd hid (by simp)
      refine ⟨⟨?_, ?_, ?_, ?_, ?_, ?_, ?_⟩, ?_, ?_⟩
      · rw [hcase]
        exact h.agrees
      · intro r hr
        refine hkept (h.pinned r ?_)
        rw [hcase] at hr
        exact hr
      · intro id
        have hcounted := h.counted id
        have hzero := h.referred_next
        rw [hcase]
        show (Function.update s.states s.next {} id).ulReferenceCount = (s.referred id : ℤ)
        by_cases hid : id = s.next
        · subst hid
          rw [Function.update_self, hzero]
          rfl
        · rw [Function.update_of_ne hid]
          exact hcounted
      · intro c' t' id hid
        rw [hstate] at hid
        have hnext : (s.emplace t c).1.next = s.next + 1 := by rw [hcase]
        rw [hnext]
        split_ifs at hid
        · obtain rfl := Option.some.inj hid
          exact Nat.lt_succ_self _
        · exact Nat.lt_succ_of_lt (h.fresh hid)
      · intro c₁ t₁ c₂ t₂ id h₁ h₂
        rw [hstate] at h₁ h₂
        split_ifs at h₁ h₂ with hself₁ hself₂ hself₂
        · exact ⟨hself₁.1.trans hself₂.1.symm, hself₁.2.trans hself₂.2.symm⟩
        · obtain rfl := Option.some.inj h₁
          exact absurd (h.fresh h₂) (Nat.lt_irrefl _)
        · obtain rfl := Option.some.inj h₂
          exact absurd (h.fresh h₁) (Nat.lt_irrefl _)
        · exact h.apart h₁ h₂
      · intro t' c' id hp
        refine hkept (h.found ?_)
        rw [hcase] at hp
        exact hp
      · intro t' ftExpire c' key id keys rest hp
        have hp' : s.pc t' = .erase ftExpire c' key id keys rest := by
          rw [hcase] at hp
          exact hp
        obtain ⟨hkey, hzero⟩ := h.erasing hp'
        refine ⟨hkept hkey, ?_⟩
        rw [hcase]
        exact hzero
      · rw [hstate, if_pos ⟨rfl, rfl⟩, hcase]
      · exact congrArg (fun r : State × ℕ => r.1.pc) hcase

/-- **A state that is not referred to is erased.** The collection has the exclusive lock and found
the count at zero under it, so no reference goes with the state. -/
theorem Inv.erase (h : Inv s) {ftExpire key : ℕ} {keys rest : List ℕ}
    (hpc : s.pc t = .erase ftExpire c key id keys rest) :
    Inv ({ s with StateMap := Function.update s.StateMap c ((s.StateMap c).erase key) }.goto t
      (.states ftExpire c keys rest)) := by
  obtain ⟨hkey, hzero⟩ := h.erasing hpc
  have hexclusive : (s.pc t).mode c = some true := by
    rw [hpc]
    exact Pc.mode_erase ..
  have hstate : ∀ c' t', (Function.update s.StateMap c ((s.StateMap c).erase key) c').find t' =
      if c' = c ∧ t' = key then none else s.state c' t' := by
    intro c' t'
    by_cases hc : c' = c
    · subst hc
      rw [Function.update_self, SortedMap.find_erase]
      by_cases ht : t' = key
      · rw [if_pos ht, if_pos ⟨rfl, ht⟩]
      · rw [if_neg ht, if_neg fun h => ht h.2]
        rfl
    · rw [Function.update_of_ne hc, if_neg fun h => hc h.1]
      rfl
  have hkept : ∀ {c' t' id'}, s.state c' t' = some id' → ¬(c' = c ∧ t' = key) →
      (Function.update s.StateMap c ((s.StateMap c).erase key) c').find t' = some id' := by
    intro c' t' id' hid hne
    rw [hstate, if_neg hne, hid]
  have hold : ∀ {c' t' id'},
      (Function.update s.StateMap c ((s.StateMap c).erase key) c').find t' = some id' →
        s.state c' t' = some id' := by
    intro c' t' id' hid
    rw [hstate] at hid
    split_ifs at hid
    exact hid
  refine ⟨h.agrees_goto fun c' => by rw [hpc]; rfl, ?_, h.counted, fun hid => h.fresh (hold hid),
    fun h₁ h₂ => h.apart (hold h₁) (hold h₂), ?_, ?_⟩
  · intro r hr
    refine hkept (h.pinned r hr) ?_
    rintro ⟨hc, ht⟩
    have hpin := h.pinned r hr
    rw [hc, ht, hkey] at hpin
    have hnone := List.countP_eq_zero.1 hzero r hr
    exact hnone (decide_eq_true (Option.some.inj hpin).symm)
  · intro t' c' id' hp
    have hp' : Function.update s.pc t (.states ftExpire c keys rest) t' = .found c' id' := hp
    by_cases ht : t' = t
    · subst ht
      rw [Function.update_self] at hp'
      exact absurd hp' (by simp)
    · rw [Function.update_of_ne ht] at hp'
      refine hkept (h.found hp') ?_
      rintro ⟨rfl, -⟩
      refine ht (h.exclusive hexclusive ?_)
      rw [hp', Pc.mode_found]
      exact Option.some_ne_none _
  · intro t' ft' c' key' id' keys' rest' hp
    have hp' : Function.update s.pc t (.states ftExpire c keys rest) t' =
        .erase ft' c' key' id' keys' rest' := hp
    by_cases ht : t' = t
    · subst ht
      rw [Function.update_self] at hp'
      exact absurd hp' (by simp)
    · rw [Function.update_of_ne ht] at hp'
      obtain ⟨hkey', hzero'⟩ := h.erasing hp'
      refine ⟨hkept hkey' ?_, hzero'⟩
      rintro ⟨rfl, -⟩
      refine ht (h.exclusive hexclusive ?_)
      rw [hp', Pc.mode_erase]
      exact Option.some_ne_none _

/-- **The destructor of a reference begins**: the time of last use is set. The time is a field that
decides when the state is collected, and nothing that the invariant speaks of. -/
theorem Inv.releaseStart (h : Inv s) {k : ℕ} {r : StateRef} (hr : s.refs[k]? = some r)
    (ftNow : FileTime) :
    Inv { s.setState r.Ref { s.states r.Ref with ftLastUsed := ftNow } with
      refs := s.refs.set k { r with bReleasing := true } } := by
  obtain ⟨hlt, hget⟩ := List.getElem?_eq_some_iff.1 hr
  have hreferred : ∀ id, (s.refs.set k { r with bReleasing := true }).countP (fun r => r.Ref = id) =
      s.referred id := by
    intro id
    have hset := List.countP_set (p := fun r : StateRef => r.Ref = id)
      (a := { r with bReleasing := true }) hlt
    have hpos : r.Ref = id → 0 < s.refs.countP fun r => r.Ref = id := fun hid =>
      List.countP_pos_iff.2 ⟨r, List.mem_of_getElem? hr, decide_eq_true hid⟩
    rw [hget] at hset
    rw [hset]
    show _ = s.refs.countP _
    by_cases hid : r.Ref = id
    · have := hpos hid
      simp only [hid, decide_true, if_true]
      omega
    · simp [hid]
  refine ⟨h.agrees, ?_, fun id => ?_, h.fresh, h.apart, h.found, fun hp => ?_⟩
  · intro r' hr'
    rcases List.mem_or_eq_of_mem_set hr' with hold | rfl
    · exact h.pinned r' hold
    · exact h.pinned r (List.mem_of_getElem? hr)
  · have hcounted := h.counted id
    refine Eq.trans ?_ (hcounted.trans (congrArg Int.ofNat (hreferred id).symm))
    show (Function.update s.states r.Ref _ id).ulReferenceCount = _
    by_cases hid : id = r.Ref
    · subst hid
      rw [Function.update_self]
    · rw [Function.update_of_ne hid]
  · obtain ⟨hkey, hzero⟩ := h.erasing hp
    exact ⟨hkey, (hreferred _).trans hzero⟩

/-- **It ends**: the state is no longer counted. The count and the number of references go down
together; whether the state may be erased is decided later, by a collection. -/
theorem Inv.releaseEnd (h : Inv s) {k : ℕ} {r : StateRef} (hr : s.refs[k]? = some r) :
    Inv { s.addRef r.Ref (-1) with refs := s.refs.eraseIdx k } := by
  obtain ⟨hlt, hget⟩ := List.getElem?_eq_some_iff.1 hr
  have hreferred : ∀ id, s.referred id =
      (s.refs.eraseIdx k).countP (fun r => r.Ref = id) + if r.Ref = id then 1 else 0 := by
    intro id
    have hperm := (List.getElem_cons_eraseIdx_perm hlt).countP_eq fun r => r.Ref = id
    rw [hget, List.countP_cons] at hperm
    simp only [decide_eq_true_eq] at hperm
    exact hperm.symm
  refine ⟨h.agrees, ?_, fun id => ?_, h.fresh, h.apart, h.found, fun {t ft c key id} _ _ hp => ?_⟩
  · intro r' hr'
    exact h.pinned r' (List.mem_of_mem_eraseIdx hr')
  · have hcounted := h.counted id
    have hone := hreferred id
    show (Function.update s.states r.Ref _ id).ulReferenceCount =
      (((s.refs.eraseIdx k).countP fun r => r.Ref = id : ℕ) : ℤ)
    by_cases hid : id = r.Ref
    · subst hid
      rw [if_pos rfl] at hone
      rw [Function.update_self]
      show (s.states r.Ref).ulReferenceCount + -1 = _
      omega
    · rw [if_neg (Ne.symm hid)] at hone
      rw [Function.update_of_ne hid]
      omega
  · obtain ⟨hkey, hzero⟩ := h.erasing hp
    refine ⟨hkey, ?_⟩
    have hone := hreferred id
    show (s.refs.eraseIdx k).countP (fun r => r.Ref = id) = 0
    omega

/-- **The next step of a thread.** The cases are the places of a thread in the source; each takes or
gives back a lock, finds, makes or refers to a state, or erases one. -/
theorem Inv.run (h : Inv s) {ftNow : FileTime} (hrun : s.run t ftNow = some s') : Inv s' := by
  unfold State.run at hrun
  cases hpc : s.pc t with
  | idle =>
      rw [hpc] at hrun
      exact absurd hrun (by simp)
  | find c =>
      rw [hpc] at hrun
      dsimp only at hrun
      cases hfind : (s.StateMap c).find t with
      | some id =>
          rw [hfind] at hrun
          obtain rfl := Option.some.inj hrun
          refine h.move (h.agrees_goto fun c' => by rw [hpc]; rfl) rfl rfl rfl rfl rfl ?_ (by simp)
          intro c' id' hp
          obtain ⟨rfl, rfl⟩ := Pc.found.inj hp
          exact hfind
      | none =>
          rw [hfind] at hrun
          obtain ⟨s₁, hunlock, rfl⟩ := Option.map_eq_some_iff.1 hrun
          have hagrees := h.agrees_unlock (p := .upgrade c) hunlock (by rw [hpc]; exact if_pos rfl)
            rfl fun c' hne => by rw [hpc]; exact (if_neg (Ne.symm hne)).symm
          obtain ⟨l, -, rfl⟩ := Option.map_eq_some_iff.1 hunlock
          exact h.move hagrees rfl rfl rfl rfl rfl (by simp) (by simp)
  | found c id =>
      rw [hpc] at hrun
      obtain rfl := Option.some.inj hrun
      exact h.refer (h.found hpc) (by rw [hpc, Pc.mode_found]; exact Option.some_ne_none _)
        (fun c' => by rw [hpc]; rfl) (by simp) (by simp) (by simp [hpc])
  | foundDone c =>
      rw [hpc] at hrun
      obtain ⟨s₁, hunlock, rfl⟩ := Option.map_eq_some_iff.1 hrun
      have hagrees := h.agrees_unlock (p := .idle) hunlock (by rw [hpc]; exact if_pos rfl)
        rfl fun c' hne => by rw [hpc]; exact (if_neg (Ne.symm hne)).symm
      obtain ⟨l, -, rfl⟩ := Option.map_eq_some_iff.1 hunlock
      exact h.move hagrees rfl rfl rfl rfl rfl (by simp) (by simp)
  | upgrade c =>
      rw [hpc] at hrun
      obtain ⟨s₁, hlock, rfl⟩ := Option.map_eq_some_iff.1 hrun
      have hagrees := h.agrees_lock (p := .insert c) hlock (by rw [hpc]; rfl) (if_pos rfl)
        fun c' hne => by rw [hpc]; exact if_neg (Ne.symm hne)
      obtain ⟨l, -, rfl⟩ := Option.map_eq_some_iff.1 hlock
      exact h.move hagrees rfl rfl rfl rfl rfl (by simp) (by simp)
  | insert c =>
      rw [hpc] at hrun
      obtain rfl := Option.some.inj hrun
      obtain ⟨hemplace, hstate, hkept⟩ := h.emplace (t := t) c
      have hpc' : (s.emplace t c).1.pc t = .insert c := by rw [hkept, hpc]
      exact hemplace.refer hstate (by rw [hpc', Pc.mode_insert]; exact Option.some_ne_none _)
        (fun c' => by rw [hpc']; rfl) (by simp) (by simp) (by simp [hpc'])
  | inserted c bCollect =>
      rw [hpc] at hrun
      obtain ⟨s₁, hunlock, rfl⟩ := Option.map_eq_some_iff.1 hrun
      have hagrees := h.agrees_unlock (p := if bCollect then .collect ftNow else .idle) hunlock
        (by rw [hpc]; exact if_pos rfl) (by cases bCollect <;> rfl)
        fun c' hne => by
          rw [hpc]
          refine Eq.trans ?_ (if_neg (Ne.symm hne)).symm
          cases bCollect <;> rfl
      obtain ⟨l, -, rfl⟩ := Option.map_eq_some_iff.1 hunlock
      exact h.move hagrees rfl rfl rfl rfl rfl (by cases bCollect <;> simp)
        (by cases bCollect <;> simp)
  | collect ft =>
      rw [hpc] at hrun
      obtain ⟨-, hgoto⟩ := Option.ite_none_right_eq_some.1 hrun
      obtain rfl := Option.some.inj hgoto
      exact h.move (h.agrees_goto fun c' => by rw [hpc]; rfl) rfl rfl rfl rfl rfl (by simp) (by simp)
  | connections ftExpire rest =>
      cases rest with
      | nil =>
          rw [hpc] at hrun
          obtain rfl := Option.some.inj hrun
          exact h.move (h.agrees_goto fun c' => by rw [hpc]; rfl) rfl rfl rfl rfl rfl (by simp)
            (by simp)
      | cons c rest =>
          rw [hpc] at hrun
          obtain ⟨s₁, hlock, rfl⟩ := Option.map_eq_some_iff.1 hrun
          have hagrees := h.agrees_lock
            (p := .states ftExpire c ((s₁.StateMap c).entries.map Prod.fst) rest) hlock
            (by rw [hpc]; rfl) (if_pos rfl) fun c' hne => by rw [hpc]; exact if_neg (Ne.symm hne)
          obtain ⟨l, -, rfl⟩ := Option.map_eq_some_iff.1 hlock
          exact h.move hagrees rfl rfl rfl rfl rfl (by simp) (by simp)
  | states ftExpire c keys rest =>
      cases keys with
      | nil =>
          rw [hpc] at hrun
          obtain ⟨s₁, hunlock, rfl⟩ := Option.map_eq_some_iff.1 hrun
          have hagrees := h.agrees_unlock (p := .connections ftExpire rest) hunlock
            (by rw [hpc]; exact if_pos rfl) rfl
            fun c' hne => by rw [hpc]; exact (if_neg (Ne.symm hne)).symm
          obtain ⟨l, -, rfl⟩ := Option.map_eq_some_iff.1 hunlock
          exact h.move hagrees rfl rfl rfl rfl rfl (by simp) (by simp)
      | cons key keys =>
          rw [hpc] at hrun
          dsimp only at hrun
          have hnext : ∀ c', (Pc.states ftExpire c keys rest).mode c' = (s.pc t).mode c' :=
            fun c' => by rw [hpc]; rfl
          cases hfind : (s.StateMap c).find key with
          | none =>
              rw [hfind] at hrun
              obtain rfl := Option.some.inj hrun
              exact h.move (h.agrees_goto hnext) rfl rfl rfl rfl rfl (by simp) (by simp)
          | some id =>
              rw [hfind] at hrun
              dsimp only at hrun
              split_ifs at hrun with hold
              · obtain rfl := Option.some.inj hrun
                refine h.move (h.agrees_goto fun c' => by rw [hpc]; rfl) rfl rfl rfl rfl rfl
                  (by simp) ?_
                intro ft' c' key' id' keys' rest' hp
                obtain ⟨-, rfl, rfl, rfl, -, -⟩ := Pc.erase.inj hp
                have hcounted := h.counted id
                exact ⟨hfind, by omega⟩
              · obtain rfl := Option.some.inj hrun
                exact h.move (h.agrees_goto hnext) rfl rfl rfl rfl rfl (by simp) (by simp)
  | erase ftExpire c key id keys rest =>
      rw [hpc] at hrun
      obtain rfl := Option.some.inj hrun
      exact h.erase hpc

/-- **Every step keeps it.** A thread begins or goes on with `GetStateBuf` or a collection, or a
reference that it has is destroyed; the threads are as many as one likes. -/
theorem Inv.step (h : Inv s) {a : Action} (hstep : StateList.step s a = some s') : Inv s' := by
  cases a with
  | getStateBuf t c =>
      obtain ⟨hidle, hlocked⟩ := Option.ite_none_right_eq_some.1 hstep
      obtain ⟨s₁, hlock, rfl⟩ := Option.map_eq_some_iff.1 hlocked
      have hagrees := h.agrees_lock (p := .find c) hlock (by rw [hidle]; rfl) (if_pos rfl)
        fun c' hne => by rw [hidle]; exact if_neg (Ne.symm hne)
      obtain ⟨l, -, rfl⟩ := Option.map_eq_some_iff.1 hlock
      exact h.move hagrees rfl rfl rfl rfl rfl (by simp) (by simp)
  | garbageCollect t ftNow =>
      obtain ⟨hidle, hgoto⟩ := Option.ite_none_right_eq_some.1 hstep
      obtain rfl := Option.some.inj hgoto
      exact h.move (h.agrees_goto fun c' => by rw [hidle]; rfl) rfl rfl rfl rfl rfl (by simp)
        (by simp)
  | run t ftNow => exact h.run hstep
  | releaseStart k ftNow =>
      simp only [StateList.step] at hstep
      cases hr : s.refs[k]? with
      | none =>
          rw [hr] at hstep
          exact absurd hstep (by simp)
      | some r =>
          rw [hr] at hstep
          obtain ⟨-, hset⟩ := Option.ite_none_left_eq_some.1 hstep
          obtain rfl := Option.some.inj hset
          exact h.releaseStart hr ftNow
  | releaseEnd k =>
      simp only [StateList.step] at hstep
      cases hr : s.refs[k]? with
      | none =>
          rw [hr] at hstep
          exact absurd hstep (by simp)
      | some r =>
          rw [hr] at hstep
          obtain ⟨-, hset⟩ := Option.ite_none_right_eq_some.1 hstep
          obtain rfl := Option.some.inj hset
          exact h.releaseEnd hr

/-- The invariant holds of all runs. -/
theorem inv_reachable (h : system.Reachable s) : Inv s := by
  refine h.invariant (I := Inv) ?_ fun s a s' hs _ hstep => hs.step hstep
  rintro s ⟨ECSConnectionList, rfl⟩
  refine ⟨fun c => SrwLock.agrees_free, fun r hr => absurd hr List.not_mem_nil, fun _ => rfl, ?_, ?_,
    ?_, ?_⟩ <;> simp [State.state]

/-- A lock that is taken changes no map. -/
theorem lock_stateMap {bWrite : Bool} (h : s.lock t c bWrite = some s') :
    s'.StateMap = s.StateMap := by
  obtain ⟨l, -, rfl⟩ := Option.map_eq_some_iff.1 h
  rfl

/-- A lock that is given up changes no map. -/
theorem unlock_stateMap {bWrite : Bool} (h : s.unlock t c bWrite = some s') :
    s'.StateMap = s.StateMap := by
  obtain ⟨l, -, rfl⟩ := Option.map_eq_some_iff.1 h
  rfl

/-- **What a step of a thread can do to the maps**: nothing, insert its state, or erase one. Nothing
but `emplace` and the erasure of a collection writes to a map, so this is what can happen to a state
that somebody refers to. -/
theorem run_stateMap {ftNow : FileTime} (hrun : s.run t ftNow = some s') :
    s'.StateMap = s.StateMap ∨
    (∃ c, s'.StateMap = (s.emplace t c).1.StateMap) ∨
    ∃ ftExpire c key id keys rest, s.pc t = .erase ftExpire c key id keys rest ∧
      s'.StateMap = Function.update s.StateMap c ((s.StateMap c).erase key) := by
  -- a step that waits for a lock or gives one back
  have hlocked : ∀ {r : Option State} {p : State → Pc},
      (∀ s₁, r = some s₁ → s₁.StateMap = s.StateMap) →
      (r.map fun s₁ => s₁.goto t (p s₁)) = some s' → s'.StateMap = s.StateMap := by
    intro r p hr hmap
    obtain ⟨s₁, hs₁, rfl⟩ := Option.map_eq_some_iff.1 hmap
    exact hr s₁ hs₁
  unfold State.run at hrun
  cases hpc : s.pc t with
  | idle =>
      rw [hpc] at hrun
      exact absurd hrun (by simp)
  | find c =>
      rw [hpc] at hrun
      dsimp only at hrun
      split at hrun
      · obtain rfl := Option.some.inj hrun
        exact .inl rfl
      · exact .inl (hlocked (fun _ h => unlock_stateMap h) hrun)
  | found c id =>
      rw [hpc] at hrun
      obtain rfl := Option.some.inj hrun
      exact .inl rfl
  | foundDone c =>
      rw [hpc] at hrun
      exact .inl (hlocked (fun _ h => unlock_stateMap h) hrun)
  | upgrade c =>
      rw [hpc] at hrun
      exact .inl (hlocked (fun _ h => lock_stateMap h) hrun)
  | insert c =>
      rw [hpc] at hrun
      obtain rfl := Option.some.inj hrun
      exact .inr (.inl ⟨c, rfl⟩)
  | inserted c bCollect =>
      rw [hpc] at hrun
      exact .inl (hlocked (fun _ h => unlock_stateMap h) hrun)
  | collect ft =>
      rw [hpc] at hrun
      obtain ⟨-, hgoto⟩ := Option.ite_none_right_eq_some.1 hrun
      obtain rfl := Option.some.inj hgoto
      exact .inl rfl
  | connections ftExpire rest =>
      cases rest with
      | nil =>
          rw [hpc] at hrun
          obtain rfl := Option.some.inj hrun
          exact .inl rfl
      | cons c rest =>
          rw [hpc] at hrun
          exact .inl (hlocked (fun _ h => lock_stateMap h) hrun)
  | states ftExpire c keys rest =>
      cases keys with
      | nil =>
          rw [hpc] at hrun
          exact .inl (hlocked (fun _ h => unlock_stateMap h) hrun)
      | cons key keys =>
          rw [hpc] at hrun
          dsimp only at hrun
          split at hrun
          · obtain rfl := Option.some.inj hrun
            exact .inl rfl
          · split_ifs at hrun <;>
              · obtain rfl := Option.some.inj hrun
                exact .inl rfl
  | erase ftExpire c key id keys rest =>
      rw [hpc] at hrun
      obtain rfl := Option.some.inj hrun
      exact .inr (.inr ⟨ftExpire, c, key, id, keys, rest, rfl, rfl⟩)

/-- **What is removed is not counted.** It was erased by a collection, which looks at the count
under the exclusive lock, and the count is that of the references. -/
theorem Inv.removed (h : Inv s) {a : Action} (hstep : StateList.step s a = some s') {c t id : ℕ}
    (hid : s.state c t = some id) (hgone : s'.state c t ≠ some id) :
    (s.states id).ulReferenceCount = 0 := by
  have hkept : s'.StateMap = s.StateMap → (s.states id).ulReferenceCount = 0 := by
    intro hmap
    unfold State.state at hid hgone
    rw [hmap] at hgone
    exact absurd hid hgone
  cases a with
  | getStateBuf t c =>
      obtain ⟨-, hlocked⟩ := Option.ite_none_right_eq_some.1 hstep
      obtain ⟨s₁, hlock, rfl⟩ := Option.map_eq_some_iff.1 hlocked
      have hmap : s₁.StateMap = s.StateMap := lock_stateMap hlock
      exact hkept hmap
  | garbageCollect t ftNow =>
      obtain ⟨-, hgoto⟩ := Option.ite_none_right_eq_some.1 hstep
      obtain rfl := Option.some.inj hgoto
      exact hkept rfl
  | run t' ftNow =>
      rcases run_stateMap hstep with hmap | ⟨c', hmap⟩ | ⟨ftExpire, c', key, id', keys, rest, hpc, hmap⟩
      · exact hkept hmap
      · cases hfind : s.state c' t' with
        | some id' =>
            refine hkept (hmap.trans ?_)
            unfold State.emplace
            rw [show (s.StateMap c').find t' = some id' from hfind]
        | none =>
            have hstate := state_emplace (s := s) hfind c t
            unfold State.state at hid hgone hstate
            rw [hmap] at hgone
            refine absurd (hstate.trans ((if_neg ?_).trans hid)) hgone
            rintro ⟨rfl, rfl⟩
            exact absurd (hfind.symm.trans hid) (by simp)
      · obtain ⟨hkey, hzero⟩ := h.erasing hpc
        have hself : c = c' ∧ t = key := by
          by_contra hne
          refine hgone ?_
          unfold State.state at hid ⊢
          rw [hmap]
          by_cases hc : c = c'
          · subst hc
            rw [Function.update_self, SortedMap.find_erase, if_neg fun ht => hne ⟨rfl, ht⟩]
            exact hid
          · rw [Function.update_of_ne hc]
            exact hid
        obtain ⟨rfl, rfl⟩ := hself
        obtain rfl := Option.some.inj (hid.symm.trans hkey)
        have hcounted := h.counted id
        omega
  | releaseStart k ftNow =>
      simp only [StateList.step] at hstep
      split at hstep
      · obtain ⟨-, hset⟩ := Option.ite_none_left_eq_some.1 hstep
        obtain rfl := Option.some.inj hset
        exact hkept rfl
      · exact absurd hstep (by simp)
  | releaseEnd k =>
      simp only [StateList.step] at hstep
      split at hstep
      · obtain ⟨-, hset⟩ := Option.ite_none_right_eq_some.1 hstep
        obtain rfl := Option.some.inj hset
        exact hkept rfl
      · exact absurd hstep (by simp)

/-- **States are pinned while they are used.**  In every run of any threads: a map has one state at
most for a thread; a state counts the references to it; what a step removes from a map is not
counted; and the references of a thread to a connection are to one state, which is in the map. -/
theorem states_pinned (h : system.Reachable s) :
    (∀ c, ((s.StateMap c).entries.map Prod.fst).Nodup) ∧
    (∀ id, (s.states id).ulReferenceCount = s.refs.countP fun r => r.Ref = id) ∧
    (∀ a s', system.step s a = some s' → ∀ c t id, (s.StateMap c).find t = some id →
      (s'.StateMap c).find t ≠ some id → ¬0 < (s.states id).ulReferenceCount) ∧
    ∀ r ∈ s.refs, (s.StateMap r.pConn).find r.dwThreadID = some r.Ref ∧
      ∀ r' ∈ s.refs, r'.pConn = r.pConn → r'.dwThreadID = r.dwThreadID → r'.Ref = r.Ref := by
  have hinv := inv_reachable h
  refine ⟨fun c => ?_, hinv.counted, ?_, fun r hr => ⟨hinv.pinned r hr, fun r' hr' hc ht => ?_⟩⟩
  · refine List.pairwise_map.2 ?_
    exact (s.StateMap c).sorted.imp fun hlt => Nat.ne_of_lt hlt
  · intro a s' hstep c t id hid hgone hpos
    have hzero := hinv.removed hstep hid hgone
    omega
  · have hpin := hinv.pinned r hr
    have hpin' := hinv.pinned r' hr'
    rw [hc, ht] at hpin'
    exact Option.some.inj (hpin'.symm.trans hpin)

/-- A thread refers to its state twice, the first time it is made. The second `GetStateBuf` finds
the state under the shared lock alone, and both references count. -/
theorem states_pinned_twice : ∃ s,
    system.run [.getStateBuf 7 1, .run 7 0, .run 7 0, .run 7 0, .run 7 0, .getStateBuf 7 1, .run 7 0,
      .run 7 0, .run 7 0] { ECSConnectionList := [1] } = some s ∧
    (s.states 0).ulReferenceCount = 2 ∧ (s.StateMap 1).find 7 = some 0 := by
  have hreach : ∀ s, system.run [.getStateBuf 7 1, .run 7 0, .run 7 0, .run 7 0, .run 7 0,
      .getStateBuf 7 1, .run 7 0, .run 7 0, .run 7 0] { ECSConnectionList := [1] } = some s →
      system.Reachable s := fun s hrun =>
    StepSystem.Reachable.run _ (.init ⟨[1], rfl⟩) hrun
  obtain ⟨s, hrun, hrefs⟩ : ∃ s, system.run [.getStateBuf 7 1, .run 7 0, .run 7 0, .run 7 0, .run 7 0,
      .getStateBuf 7 1, .run 7 0, .run 7 0, .run 7 0] { ECSConnectionList := [1] } = some s ∧
      s.refs = [⟨1, 7, 0, false⟩, ⟨1, 7, 0, false⟩] := ⟨_, rfl, rfl⟩
  obtain ⟨-, hcounted, -, hpinned⟩ := states_pinned (hreach s hrun)
  refine ⟨s, hrun, ?_, ?_⟩
  · rw [hcounted, hrefs]
    rfl
  · exact (hpinned ⟨1, 7, 0, false⟩ (by rw [hrefs]; exact List.mem_cons_self)).1

end StateList
end ECSUtil

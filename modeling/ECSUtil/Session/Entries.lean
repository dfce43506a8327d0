/-
# What becomes of the sessions

The operations on the `SessionMap` (`ECSUtil/ECSConnection.cpp`), as those see it who
want to know what a session was opened with.  `KillHostSessions`, `GarbageCollect` and
`ReleaseSession` make no session, open no handles and take no mark off (`Survives`);
`AllocSession` hands out a session that is not marked, under the host name that it was
asked for, and what it makes anew has no handles yet (`survives_claim`).  After
`KillHostSessions` every session that is left is marked (`marked_killHostSessions`),
so what was opened before a call of it is not handed out after it.

From these facts the invariants of the connections are derived: what the settings of a
session are, and what port the requests go to while an admin call changes it.
-/

import ECSUtil.Session.Owner

namespace ECSUtil
namespace Session

/-- A session handle and a connection handle. -/
abbrev Handles := SessionHandle × ConnectHandle

/-- The entry that `pValue` points at. -/
def State.pointee {ι : Type} (s : State ι) (i : ι) : Option SessionMapValue :=
  (s.sessionMap.entries.find? fun e => some e.2.addr = (s.session i).pValue).map Prod.snd

namespace SessionMapValue

/-- The handles of an entry, where both are open. -/
def handles (v : SessionMapValue) : Option Handles :=
  match v.hSession, v.hConnect with
  | some hSession, some hConnect => some (hSession, hConnect)
  | _, _ => none

/-- `SESSION_MAP_VALUE::CloseAll`. -/
def closeAll (v : SessionMapValue) : SessionMapValue := { v with hSession := none, hConnect := none }

/-- There are no handles. -/
def Closed (v : SessionMapValue) : Prop := v.hSession = none ∧ v.hConnect = none

/-- The same entry, not marked if it is not now, with the same handles or without. -/
structure Was (v w : SessionMapValue) : Prop where
  addr : v.addr = w.addr
  unmarked : w.bKillWhenDone = false → v.bKillWhenDone = false
  opened : w.Closed ∨ (v.hSession = w.hSession ∧ v.hConnect = w.hConnect)

variable {v w u : SessionMapValue}

/-- An entry was itself. -/
theorem Was.refl (v : SessionMapValue) : v.Was v := ⟨rfl, id, .inr ⟨rfl, rfl⟩⟩

/-- What an entry without handles was had none. -/
theorem Was.closed (h : v.Was w) (hv : v.Closed) : w.Closed :=
  h.opened.elim id fun hw => ⟨hw.1.symm.trans hv.1, hw.2.symm.trans hv.2⟩

/-- What an entry was before, it was before that. -/
theorem Was.trans (h : v.Was w) (h' : w.Was u) : v.Was u where
  addr := h.addr.trans h'.addr
  unmarked hk := h.unmarked (h'.unmarked hk)
  opened := by
    rcases h'.opened with hu | ⟨hs, hc⟩
    · exact .inl hu
    · exact h.opened.imp h'.closed fun hw => ⟨hw.1.trans hs, hw.2.trans hc⟩

/-- No handles are open where the second one is not. -/
theorem handles_of_hConnect (h : v.hConnect = none) : v.handles = none := by
  unfold SessionMapValue.handles
  rw [h]
  cases v.hSession <;> rfl

/-- Handles that are open now were open before. -/
theorem Was.handles (h : v.Was w) {y : Handles} (hy : y ∈ w.handles) : y ∈ v.handles := by
  rcases h.opened with hw | ⟨hs, hc⟩
  · exact absurd ((handles_of_hConnect hw.2).symm.trans hy) (by simp)
  · rwa [SessionMapValue.handles, hs, hc]

end SessionMapValue

variable {ι : Type} {s s' s'' : State ι} {i : ι}

/-- Every entry was there before, with its handles or with more of them, and not marked if it is not now;
or it is new, and has no handles. -/
structure Survives (s s' : State ι) : Prop where
  created : s.created ≤ s'.created
  entry : ∀ e ∈ s'.sessionMap, (∃ v, (e.1, v) ∈ s.sessionMap ∧ v.Was e.2) ∨
    (s.created ≤ e.2.addr ∧ e.2.Closed)

/-- Where no entry is made. -/
theorem Survives.of_entries (hc : s'.created = s.created)
    (h : ∀ e ∈ s'.sessionMap, ∃ v, (e.1, v) ∈ s.sessionMap ∧ v.Was e.2) : Survives s s' :=
  ⟨hc.ge, fun e he => .inl (h e he)⟩

/-- The entries survive where nothing is done. -/
theorem Survives.refl (s : State ι) : Survives s s := .of_entries rfl fun e he => ⟨e.2, he, .refl e.2⟩

/-- The entries survive two operations if they survive each. -/
theorem Survives.trans (h : Survives s s') (h' : Survives s' s'') : Survives s s'' := by
  refine ⟨h.created.trans h'.created, fun e he => ?_⟩
  rcases h'.entry e he with ⟨v, hv, hwas⟩ | ⟨hnew, hclosed⟩
  · rcases h.entry _ hv with ⟨w, hw, hwas'⟩ | ⟨hnew, hclosed⟩
    · exact .inl ⟨w, hw, hwas'.trans hwas⟩
    · exact .inr ⟨hwas.addr ▸ hnew, hwas.closed hclosed⟩
  · exact .inr ⟨h.created.trans hnew, hclosed⟩

/-- Handles that are open now were open before, in an entry that was not marked if it is not now. -/
theorem Survives.handles (h : Survives s s') {e : SessionMapKey × SessionMapValue}
    (he : e ∈ s'.sessionMap) {y : Handles} (hy : y ∈ e.2.handles) :
    ∃ v, (e.1, v) ∈ s.sessionMap ∧ v.addr = e.2.addr ∧ y ∈ v.handles ∧
      (e.2.bKillWhenDone = false → v.bKillWhenDone = false) := by
  rcases h.entry e he with ⟨v, hv, hwas⟩ | ⟨-, hclosed⟩
  · exact ⟨v, hv, hwas.addr, hwas.handles hy, hwas.unmarked⟩
  · exact absurd ((SessionMapValue.handles_of_hConnect hclosed.2).symm.trans hy) (by simp)

/-- An entry changed in fields other than these. -/
theorem survives_modify {m : SortedMap SessionMapKey SessionMapValue} {k : SessionMapKey}
    {f : SessionMapValue → SessionMapValue} {e : SessionMapKey × SessionMapValue}
    (he : e ∈ m.modify k f) (hf : ∀ v : SessionMapValue, v.Was (f v)) :
    ∃ v : SessionMapValue, (e.1, v) ∈ m ∧ v.Was e.2 := by
  obtain ⟨v, hv, heq⟩ := SortedMap.mem_modify.1 he
  refine ⟨v, hv, ?_⟩
  rw [heq]
  split_ifs
  · exact hf v
  · exact .refl v

/-- `KillHostSessions` only erases and marks entries. -/
theorem survives_killHostSessions (s : State ι) : Survives s s.killHostSessions := by
  refine .of_entries rfl fun e he => ?_
  obtain ⟨d, hd, rfl⟩ := SortedMap.mem_mapValues.1 he
  exact ⟨d.2, (SortedMap.mem_filter.1 hd).1, rfl, fun h => absurd h (by simp), .inr ⟨rfl, rfl⟩⟩

/-- After `KillHostSessions` every entry is marked. -/
theorem marked_killHostSessions (s : State ι) : ∀ e ∈ s.killHostSessions.sessionMap,
    e.2.bKillWhenDone = true := by
  intro e he
  obtain ⟨d, -, rfl⟩ := SortedMap.mem_mapValues.1 he
  rfl

/-- `GarbageCollect` only erases entries. -/
theorem survives_garbageCollect (s : State ι) (ftNow : FileTime) :
    Survives s (s.garbageCollect ftNow) :=
  .of_entries rfl fun e he => ⟨e.2, (SortedMap.mem_filter.1 he).1, .refl e.2⟩

/-- A write through `pValue`. -/
theorem survives_writeValue {f : SessionMapValue → SessionMapValue}
    (hf : ∀ v : SessionMapValue, v.Was (f v)) : Survives s (s.writeValue i f) := by
  refine .of_entries rfl fun e he => ?_
  obtain ⟨d, hd, rfl⟩ := SortedMap.mem_mapValues.1 he
  refine ⟨d.2, hd, ?_⟩
  dsimp only
  split_ifs
  · exact hf d.2
  · exact .refl d.2

/-- `pointee` finds the entry. -/
theorem pointee_spec {v : SessionMapValue} (h : s.pointee i = some v) :
    (s.session i).pValue = some v.addr ∧ ∃ k, (k, v) ∈ s.sessionMap := by
  obtain ⟨e, he, rfl⟩ := Option.map_eq_some_iff.1 h
  have hat := List.find?_some he
  exact ⟨(of_decide_eq_true hat).symm, e.1, List.mem_of_find?_eq_some he⟩

variable [DecidableEq ι]

/-- `ReleaseSession` erases its entry or keeps it, with its handles. -/
theorem survives_release (s : State ι) (i : ι) (ftNow : FileTime) :
    Survives s ((s.releaseLocked i ftNow).releaseClear i) := by
  suffices h : Survives s (s.releaseLocked i ftNow) from ⟨h.created, h.entry⟩
  unfold State.releaseLocked
  split_ifs
  · exact .refl s
  · refine .of_entries rfl fun e he => ?_
    split at he
    · exact ⟨e.2, he, .refl e.2⟩
    · split_ifs at he
      · exact ⟨e.2, (SortedMap.mem_erase.1 he).1, .refl e.2⟩
      · exact survives_modify he fun v => ⟨rfl, id, .inr ⟨rfl, rfl⟩⟩

/-- **`AllocSession`**: every entry was there, or has no handles; the one that is taken is not marked, and
is under the host name that was asked for. -/
theorem survives_claim (h : Inv s) (pszHost pszIP : CString) (ftNow : FileTime)
    (hc : (s.claim i pszHost pszIP ftNow).created < 4294967296) :
    Survives s (s.claim i pszHost pszIP ftNow) ∧
      ∃ e ∈ (s.claim i pszHost pszIP ftNow).sessionMap, e.2.bKillWhenDone = false ∧
        e.1.sHostEntry = pszHost ∧
        ((s.claim i pszHost pszIP ftNow).session i).pValue = some e.2.addr := by
  cases hl : s.lookup pszHost pszIP with
  | some e =>
      obtain ⟨k, v⟩ := e
      obtain ⟨hv, hu, hkey, -⟩ := lookup_spec hl
      rw [State.claim_reuse hl]
      refine ⟨.of_entries rfl fun e he => survives_modify he fun v => ⟨rfl, id, .inr ⟨rfl, rfl⟩⟩,
        _, (SortedMap.mem_modify_of_mem hv).2 (.inr rfl), ?_, hkey, by simp⟩
      refine Bool.eq_false_of_not_eq_true fun hk => ?_
      exact Bool.false_ne_true (hu.symm.trans (h.marked _ hv hk))
  | none =>
      have hcr : s.created + 1 < 4294967296 := by
        simpa only [State.claim, hl] using hc
      have hf := find_nextKey h.toNamed hcr pszHost pszIP
      rw [State.claim_fresh hl hf]
      refine ⟨⟨Nat.le_succ _, fun e he => ?_⟩,
        _, (SortedMap.mem_modify_insert hf).2 (.inr rfl), rfl, rfl, by simp⟩
      rcases (SortedMap.mem_modify_insert hf).1 he with ⟨he, -⟩ | rfl
      · exact .inl ⟨e.2, he, .refl e.2⟩
      · exact .inr ⟨Nat.le_refl _, rfl, rfl⟩

/-- The sessions of the others are theirs. -/
theorem session_release (s : State ι) {i j : ι} (hne : j ≠ i) (ftNow : FileTime) :
    ((s.releaseLocked i ftNow).releaseClear i).session j = s.session j := by
  show Function.update (s.releaseLocked i ftNow).session i {} j = s.session j
  rw [Function.update_of_ne hne]
  unfold State.releaseLocked
  split_ifs <;> rfl

/-- The session of another thread is not touched by an `AllocSession`. -/
theorem session_allocSession (s : State ι) {i j : ι} (hne : j ≠ i) (pszHost pszIP : CString)
    (ftNow : FileTime) : (s.allocSession i pszHost pszIP ftNow).session j = s.session j := by
  unfold State.allocSession State.claim
  split <;> exact (Function.update_of_ne hne ..).trans (session_release s hne ftNow)

/-- A thread that released is through with it. -/
theorem releasing_release {s : State ι} (h : ∀ j, s.releasing j = false) (i : ι) (ftNow : FileTime)
    (j : ι) : ((s.releaseLocked i ftNow).releaseClear i).releasing j = false := by
  show Function.update (s.releaseLocked i ftNow).releasing i false j = false
  rcases eq_or_ne j i with rfl | hne
  · exact Function.update_self ..
  · rw [Function.update_of_ne hne]
    unfold State.releaseLocked
    split_ifs
    · exact h j
    · exact (Function.update_of_ne hne ..).trans (h j)

/-- No thread releases in an `AllocSession`. -/
theorem releasing_allocSession {s : State ι} (h : ∀ j, s.releasing j = false) (i : ι)
    (pszHost pszIP : CString) (ftNow : FileTime) (j : ι) :
    (s.allocSession i pszHost pszIP ftNow).releasing j = false := by
  unfold State.allocSession State.claim
  split <;> exact releasing_release h i ftNow j

/-- A release makes no session. -/
theorem created_release (s : State ι) (i : ι) (ftNow : FileTime) :
    ((s.releaseLocked i ftNow).releaseClear i).created = s.created := by
  show (s.releaseLocked i ftNow).created = s.created
  unfold State.releaseLocked
  split_ifs <;> rfl

/-- `AllocSession` makes one session at most. -/
theorem created_allocSession (s : State ι) (i : ι) (pszHost pszIP : CString) (ftNow : FileTime) :
    s.created ≤ (s.allocSession i pszHost pszIP ftNow).created ∧
      (s.allocSession i pszHost pszIP ftNow).created ≤ s.created + 1 := by
  have hrelease := created_release s i ftNow
  unfold State.allocSession State.claim
  split
  · exact ⟨hrelease.ge, hrelease.le.trans (Nat.le_succ _)⟩
  · exact ⟨hrelease.ge.trans (Nat.le_succ _), Nat.succ_le_succ hrelease.le⟩

end Session
end ECSUtil

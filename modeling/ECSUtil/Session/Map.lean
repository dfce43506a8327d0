/-
# The session map

`SESSION_MAP_KEY`, `SESSION_MAP_VALUE`, `CECSConnectionSession` and the four
operations on the static `SessionMap` (`ECSUtil/ECSConnection.h`, `.cpp`):
`AllocSession`, `ReleaseSession`, `KillHostSessions` and the part of
`GarbageCollect` that concerns it.

A node of a `std::map` stays where it is until it is erased, so the pointer `pValue`
is the number of the node (`addr`), and the nodes are numbered in the order they
were made.  A handle is known by what it was opened with.

The key of a session is its host name, its address and a number, and the map is in the order of the
three; `AllocSession` takes the first entry of the host name and the address that is free
(`lookup`).  Each operation is under the lock of the map as a whole, but for the end of
`ReleaseSession`.
-/

import ECSUtil.Lib.SortedMap
import ECSUtil.Conn.Time
import Mathlib.Data.Char
import Mathlib.Data.Int.Order.Basic
import Mathlib.Data.List.Lex
import Mathlib.Data.Prod.Lex
import Mathlib.Logic.Function.Basic

namespace ECSUtil
namespace Session

/-- `SESSION_MAP_KEY`. -/
structure SessionMapKey where
  sHostEntry : CString := []
  sIP : CString := []
  lKey : ℤ := 0
  deriving DecidableEq, Repr

namespace SessionMapKey

/-- The fields in the order in which `CompareEntry` looks at them. -/
def fields (k : SessionMapKey) : CString ×ₗ (CString ×ₗ ℤ) :=
  toLex (k.sHostEntry, toLex (k.sIP, k.lKey))

/-- A key is told by its three fields. -/
theorem fields_injective : Function.Injective fields := by
  rintro ⟨h, i, l⟩ ⟨h', i', l'⟩ heq
  simp only [fields, EmbeddingLike.apply_eq_iff_eq, Prod.mk.injEq] at heq
  obtain ⟨rfl, rfl, rfl⟩ := heq
  rfl

/-- `SESSION_MAP_KEY::operator <`. -/
instance : LinearOrder SessionMapKey := LinearOrder.lift' fields fields_injective

end SessionMapKey

/-- The access types of `WinHttpOpen`. -/
inductive AccessType
  | defaultProxy
  | noProxy
  | namedProxy
  deriving DecidableEq, Repr

/-- What a session handle was opened with: the arguments of `WinHttpOpen`, and the
protocols of `WINHTTP_OPTION_SECURE_PROTOCOLS`, zero where that was not set. -/
structure SessionHandle where
  pszAgent : CString
  dwAccessType : AccessType
  pszProxy : CString
  dwProtocols : DWORD
  deriving DecidableEq, Repr

/-- What a connection handle was opened with, the arguments of `WinHttpConnect`. -/
structure ConnectHandle where
  pswzServerName : CString
  nServerPort : ℕ
  deriving DecidableEq, Repr

/-- `SESSION_MAP_VALUE`, at its address. -/
structure SessionMapValue where
  addr : ℕ
  bInUse : Bool := false
  bKillWhenDone : Bool := false
  hSession : Option SessionHandle := none
  hConnect : Option ConnectHandle := none
  /-- When the entry was freed. -/
  ftIdleTime : FileTime := 0
  deriving DecidableEq, Repr

/-- `CECSConnectionSession`. -/
structure ConnectionSession where
  Key : SessionMapKey := {}
  pValue : Option ℕ := none
  deriving DecidableEq, Repr

/-- `InterlockedIncrement` of a `long`. -/
def interlockedIncrement (l : ℤ) : ℤ := (l + 1).bmod 4294967296

/-- `FT_HOURS(1)`. -/
def oneHour : FileTime := 36000000000

/-- `SessionMap` and `lSessionKeyValue`, the sessions of the threads, and how many
entries were ever made.  `ι` names the `CECSConnectionSession` objects; `releasing`
tells that one is between the locked part of `ReleaseSession` and the clearing of
its fields. -/
structure State (ι : Type) where
  sessionMap : SortedMap SessionMapKey SessionMapValue := .empty
  lSessionKeyValue : ℤ := 0
  created : ℕ := 0
  session : ι → ConnectionSession := fun _ => {}
  releasing : ι → Bool := fun _ => false

namespace State

variable {ι : Type} [DecidableEq ι]

/-- The locked part of `ReleaseSession`. -/
def releaseLocked (s : State ι) (i : ι) (ftNow : FileTime) : State ι :=
  if (s.session i).pValue = none then s
  else
    { s with
      releasing := Function.update s.releasing i true
      sessionMap :=
        match s.sessionMap.find (s.session i).Key with
        | none => s.sessionMap
        | some v =>
            if v.bKillWhenDone then s.sessionMap.erase (s.session i).Key
            else s.sessionMap.modify (s.session i).Key fun v =>
              { v with ftIdleTime := ftNow, bInUse := false } }

/-- The end of `ReleaseSession`: the fields are cleared. -/
def releaseClear (s : State ι) (i : ι) : State ι :=
  { s with
    session := Function.update s.session i {}
    releasing := Function.update s.releasing i false }

/-- The loop of `AllocSession`: the first entry that is free, as long as the host name
and the address are those asked for. -/
def firstFree (pszHost pszIP : CString) :
    List (SessionMapKey × SessionMapValue) → Option (SessionMapKey × SessionMapValue)
  | [] => none
  | e :: es =>
      if pszHost ≠ e.1.sHostEntry ∨ pszIP ≠ e.1.sIP then none
      else if !e.2.bInUse then some e
      else firstFree pszHost pszIP es

/-- The entry that `AllocSession` finds free. -/
def lookup (s : State ι) (pszHost pszIP : CString) : Option (SessionMapKey × SessionMapValue) :=
  firstFree pszHost pszIP (s.sessionMap.lowerBound { sHostEntry := pszHost, sIP := pszIP })

/-- The key of a new entry takes the next number that is not zero. -/
def nextKey (s : State ι) : ℤ :=
  let l := interlockedIncrement s.lSessionKeyValue
  if l = 0 then interlockedIncrement l else l

/-- The rest of `AllocSession`, with nothing allocated: claim a free entry, or make
one. -/
def claim (s : State ι) (i : ι) (pszHost pszIP : CString) (ftNow : FileTime) : State ι :=
  match s.lookup pszHost pszIP with
  | some (k, v) =>
      { s with
        sessionMap := s.sessionMap.modify k fun v => { v with bInUse := true }
        session := Function.update s.session i ⟨k, some v.addr⟩ }
  | none =>
      let k : SessionMapKey := { sHostEntry := pszHost, sIP := pszIP, lKey := s.nextKey }
      let m := s.sessionMap.insert k { addr := s.created, ftIdleTime := ftNow }
      { s with
        lSessionKeyValue := s.nextKey
        created := s.created + 1
        sessionMap := m.modify k fun v => { v with bInUse := true }
        session := Function.update s.session i ⟨k, (m.find k).map (·.addr)⟩ }

variable {s : State ι} {i : ι} {pszHost pszIP : CString} {ftNow : FileTime} {k : SessionMapKey}
  {v : SessionMapValue}

/-- A free entry is claimed. -/
theorem claim_reuse (hl : s.lookup pszHost pszIP = some (k, v)) :
    s.claim i pszHost pszIP ftNow =
      { s with
        sessionMap := s.sessionMap.modify k fun v => { v with bInUse := true }
        session := Function.update s.session i ⟨k, some v.addr⟩ } := by
  simp only [claim, hl]

/-- An entry is made. -/
theorem claim_fresh (hl : s.lookup pszHost pszIP = none)
    (hf : s.sessionMap.find ⟨pszHost, pszIP, s.nextKey⟩ = none) :
    s.claim i pszHost pszIP ftNow =
      { s with
        lSessionKeyValue := s.nextKey
        created := s.created + 1
        sessionMap := (s.sessionMap.insert ⟨pszHost, pszIP, s.nextKey⟩
          { addr := s.created, ftIdleTime := ftNow }).modify ⟨pszHost, pszIP, s.nextKey⟩
            fun v => { v with bInUse := true }
        session := Function.update s.session i ⟨⟨pszHost, pszIP, s.nextKey⟩, some s.created⟩ } := by
  simp only [claim, hl, SortedMap.find_eq_some.2 ((SortedMap.mem_insert hf).2 (.inl rfl)),
    Option.map_some]

/-- `AllocSession`, all of it under the lock of the map. -/
def allocSession (s : State ι) (i : ι) (pszHost pszIP : CString) (ftNow : FileTime) : State ι :=
  ((s.releaseLocked i ftNow).releaseClear i).claim i pszHost pszIP ftNow

/-- A write through `pValue`. -/
def writeValue (s : State ι) (i : ι) (f : SessionMapValue → SessionMapValue) : State ι :=
  { s with
    sessionMap := s.sessionMap.mapValues fun e =>
      if some e.2.addr = (s.session i).pValue then f e.2 else e.2 }

/-- `KillHostSessions`: what is free goes, what is in use goes when it is released. -/
def killHostSessions (s : State ι) : State ι :=
  { s with
    sessionMap := (s.sessionMap.filter fun e => e.2.bInUse).mapValues fun e =>
      { e.2 with bKillWhenDone := true } }

/-- `GarbageCollect`: what has been free for an hour goes. -/
def garbageCollect (s : State ι) (ftNow : FileTime) : State ι :=
  { s with
    sessionMap := s.sessionMap.filter fun e =>
      !(!e.2.bInUse && decide (e.2.ftIdleTime < ftNow - oneHour)) }

end State

end Session
end ECSUtil

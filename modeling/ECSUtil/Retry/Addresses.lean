/-
# The addresses of a host

`GetNextECSIP`, `GetCurrentServerIP`, `TestAllIPBad`, `LogBadIPAddr` and `IfMarkIPBad`
(`ECSUtil/ECSConnection.cpp`), with `BadIPMap` and `LoadBalMap`, which all connections share.  A mark
is the time of an error; what is kept with it for the log is left out, as is `IPUsed`, which
`GetNextECSIP` does not read.

`GetNextECSIP` finds an address that is not marked if there is one, goes round the list, and finds one
after `TestAllIPBad`: `getNextECSIP_correct`.

A mark that is too old is taken away before an address is selected (`Selection.unexpired`), so what
is said of the marks is said of those that are left.  The place of the next address is counted on
from that of the last (`firstPlace`), and the search goes round from there.
-/

import Mathlib.Data.Char
import Mathlib.Data.List.Lex
import Mathlib.Data.Prod.Lex
import ECSUtil.Conn.Error
import ECSUtil.Conn.Text
import ECSUtil.Lib.Rotation
import ECSUtil.Lib.SortedMap

namespace ECSUtil
namespace Retry

/-- `BAD_IP_KEY`. -/
structure BadIpKey where
  sHostName : CString := []
  sIP : CString := []
  deriving DecidableEq, Repr

namespace BadIpKey

/-- The fields in the order in which `Compare` looks at them. -/
def fields (k : BadIpKey) : CString ×ₗ CString := toLex (k.sHostName, k.sIP)

/-- A key of the map is told by its two names. -/
theorem fields_injective : Function.Injective fields := by
  rintro ⟨h, i⟩ ⟨h', i'⟩ heq
  simp only [fields, EmbeddingLike.apply_eq_iff_eq, Prod.mk.injEq] at heq
  obtain ⟨rfl, rfl⟩ := heq
  rfl

/-- `BAD_IP_KEY::operator <`. -/
instance : LinearOrder BadIpKey := LinearOrder.lift' fields fields_injective

end BadIpKey

def WINHTTP_ERROR_BASE : DWORD := 12000
def ERROR_WINHTTP_OPERATION_CANCELLED : DWORD := 12017
def ERROR_WINHTTP_INVALID_SERVER_RESPONSE : DWORD := 12152

/-- What of a connection matters for its addresses, and the last error code of WinHTTP, which depends
on its version. -/
structure Host where
  sHost : CString
  /-- In milliseconds; zero stands for 12 minutes. -/
  dwBadIPAddrAge : UInt32 := 0
  bTestConnection : Bool := false
  WINHTTP_ERROR_LAST : DWORD := 12188

/-- The maps, and the address that the request is at.  Places of a list are natural numbers: a `UINT`
that wraps around is as good as one behind the end. -/
structure Selection where
  BadIPMap : SortedMap BadIpKey UInt64 := .empty
  LoadBalMap : SortedMap CString ℕ := .empty
  iIPList : ℕ := 0

/-- `liBadIPAge`, in units of a `FILETIME`. -/
def Host.badIPAge (c : Host) : UInt64 :=
  (if c.dwBadIPAddrAge = 0 then 720000 else c.dwBadIPAddrAge.toUInt64) * 10000

/-- A mark is too old. -/
def Host.expired (c : Host) (ftNow : UInt64) (e : BadIpKey × UInt64) : Bool :=
  ftNow > e.2 + c.badIPAge

namespace Selection

/-- The address is marked as bad for the host. -/
def marked (s : Selection) (c : Host) (sIP : CString) : Bool :=
  (s.BadIPMap.find { sHostName := c.sHost, sIP := sIP }).isSome

/-- The marks that are not too old. -/
def unexpired (s : Selection) (c : Host) (ftNow : UInt64) : Selection :=
  { s with BadIPMap := s.BadIPMap.filter fun e => !c.expired ftNow e }

/-- `GetCurrentServerIP`. -/
def currentServerIP (s : Selection) (IPListLocal : List CString) : CString :=
  if IPListLocal = [] then ['?']
  else IPListLocal.getD (if IPListLocal.length ≤ s.iIPList then 0 else s.iIPList) []

/-- The address at which the search begins. -/
def firstPlace (s : Selection) (c : Host) (IPListLocal : List CString) : ℕ :=
  let n := (s.LoadBalMap.find c.sHost).getD 0 + 1
  if IPListLocal.length ≤ n then 0 else n

/-- `GetNextECSIP`. -/
def getNextECSIP (s : Selection) (c : Host) (IPListLocal : List CString) (ftNow : UInt64) :
    Selection × Bool :=
  if IPListLocal = [] then (s, false)
  else
    let s := s.unexpired c ftNow
    let r := Rotation.search (fun i => s.marked c (IPListLocal.getD i [])) IPListLocal.length
      IPListLocal.length (s.firstPlace c IPListLocal)
    ({ s with LoadBalMap := s.LoadBalMap.assign c.sHost r.1, iIPList := r.1 }, r.2)

/-- The addresses that are not marked, as `TestAllIPBad` finds them. -/
def unmarkedIPs (s : Selection) (c : Host) (IPListLocal : List CString) : List CString :=
  s.BadIPMap.entries.foldl
    (fun IPList e =>
      if c.sHost = e.1.sHostName then IPList.filter fun sIP => sIP ≠ e.1.sIP else IPList)
    IPListLocal

/-- `TestAllIPBad`. -/
def testAllIPBad (s : Selection) (c : Host) (IPListLocal : List CString) : Selection :=
  if s.unmarkedIPs c IPListLocal = [] then
    { s with BadIPMap := s.BadIPMap.filter fun e => c.sHost ≠ e.1.sHostName }
  else s

/-- `LogBadIPAddr`. -/
def logBadIPAddr (s : Selection) (c : Host) (IPListLocal IPUsed : List CString) (ftNow : UInt64) :
    Selection :=
  if c.bTestConnection then s
  else
    { s with
      BadIPMap := IPUsed.foldl
        (fun m sIP => m.assign { sHostName := c.sHost, sIP := sIP } ftNow) s.BadIPMap }.testAllIPBad
      c IPListLocal

end Selection

/-- `IfMarkIPBad`: an error of WinHTTP, but for two of them. -/
def Host.ifMarkIPBad (c : Host) (dwError : DWORD) : Bool :=
  WINHTTP_ERROR_BASE ≤ dwError && dwError ≤ c.WINHTTP_ERROR_LAST &&
    dwError ≠ ERROR_WINHTTP_OPERATION_CANCELLED && dwError ≠ ERROR_WINHTTP_INVALID_SERVER_RESPONSE

namespace Selection

section

variable {s : Selection} {c : Host} {IPListLocal : List CString} {sIP : CString} {ftNow : UInt64}

/-- An address is marked if the map has a mark of it. -/
theorem marked_iff : s.marked c sIP = true ↔
    ∃ ftError, ({ sHostName := c.sHost, sIP := sIP }, ftError) ∈ s.BadIPMap := by
  unfold marked
  rw [Option.isSome_iff_exists]
  exact exists_congr fun _ => SortedMap.find_eq_some

/-- The search begins at an address of the list. -/
theorem firstPlace_lt (hne : IPListLocal ≠ []) :
    s.firstPlace c IPListLocal < IPListLocal.length := by
  have hpos : 0 < IPListLocal.length := List.length_pos_iff.2 hne
  unfold firstPlace
  dsimp only
  split_ifs <;> omega

/-- What `GetNextECSIP` does for a list that is not empty. -/
theorem getNextECSIP_of_ne_nil (hne : IPListLocal ≠ []) : s.getNextECSIP c IPListLocal ftNow =
    let r := Rotation.search
      (fun i => (s.unexpired c ftNow).marked c (IPListLocal.getD i [])) IPListLocal.length
      IPListLocal.length (s.firstPlace c IPListLocal)
    ({ s.unexpired c ftNow with
      LoadBalMap := s.LoadBalMap.assign c.sHost r.1, iIPList := r.1 }, r.2) :=
  if_neg hne

/-- The address that is found is in the list, and it is not marked. -/
theorem found_unmarked (hne : IPListLocal ≠ [])
    (h : (s.getNextECSIP c IPListLocal ftNow).2 = true) :
    ∃ hlt : (s.getNextECSIP c IPListLocal ftNow).1.iIPList < IPListLocal.length,
      (s.getNextECSIP c IPListLocal ftNow).1.marked c
        IPListLocal[(s.getNextECSIP c IPListLocal ftNow).1.iIPList] = false := by
  have hpos : 0 < IPListLocal.length := List.length_pos_iff.2 hne
  rw [getNextECSIP_of_ne_nil hne] at h
  obtain ⟨hlt, hgood⟩ := Rotation.search_found hpos _ (Nat.le_of_lt (firstPlace_lt hne)) h
  rw [List.getD_eq_getElem?_getD, List.getElem?_eq_getElem hlt, Option.getD_some] at hgood
  simp only [getNextECSIP_of_ne_nil hne]
  exact ⟨hlt, hgood⟩

/-- Fewer marks, as far as they matter for a host. -/
theorem marked_of_subset {s' : Selection} (h : ∀ e ∈ s'.BadIPMap, e ∈ s.BadIPMap)
    (hs : s.marked c sIP = false) : s'.marked c sIP = false := by
  rw [← Bool.not_eq_true, marked_iff] at hs ⊢
  exact fun ⟨ftError, hmem⟩ => hs ⟨ftError, h _ hmem⟩

/-- The marks that are left are those that are not too old. -/
theorem mem_unexpired {e : BadIpKey × UInt64} : e ∈ (s.unexpired c ftNow).BadIPMap ↔
    e ∈ s.BadIPMap ∧ c.expired ftNow e = false := by
  unfold unexpired
  rw [SortedMap.mem_filter, Bool.not_eq_true']

/-- The marks that are left are among those before. -/
theorem unexpired_subset (s : Selection) (c : Host) (ftNow : UInt64) :
    ∀ e ∈ (s.unexpired c ftNow).BadIPMap, e ∈ s.BadIPMap := fun _ he =>
  (mem_unexpired.1 he).1

/-- Nothing is marked by a selection. -/
theorem getNextECSIP_subset : ∀ e ∈ (s.getNextECSIP c IPListLocal ftNow).1.BadIPMap,
    e ∈ s.BadIPMap := by
  by_cases hne : IPListLocal = []
  · rw [getNextECSIP, if_pos hne]
    exact fun _ he => he
  · rw [getNextECSIP_of_ne_nil hne]
    exact unexpired_subset s c ftNow

/-- What `TestAllIPBad` leaves of the list. -/
theorem mem_unmarkedIPs : sIP ∈ s.unmarkedIPs c IPListLocal ↔
    sIP ∈ IPListLocal ∧ s.marked c sIP = false := by
  have hfold : ∀ (entries : List (BadIpKey × UInt64)) (IPList : List CString),
      sIP ∈ entries.foldl (fun IPList e =>
        if c.sHost = e.1.sHostName then IPList.filter fun sIP => sIP ≠ e.1.sIP else IPList) IPList ↔
      sIP ∈ IPList ∧ ∀ e ∈ entries, e.1 ≠ { sHostName := c.sHost, sIP := sIP } := by
    intro entries
    induction entries with
    | nil => simp
    | cons e entries ih =>
        intro IPList
        obtain ⟨⟨sHostName, sIP'⟩, ftError⟩ := e
        rw [List.foldl_cons, ih, List.forall_mem_cons, ← and_assoc]
        refine and_congr_left fun _ => ?_
        dsimp only
        by_cases hhost : c.sHost = sHostName
        · subst hhost
          rw [if_pos rfl, List.mem_filter, decide_eq_true_iff]
          refine and_congr_right fun _ => not_congr ⟨fun h => h ▸ rfl, fun h => ?_⟩
          exact (BadIpKey.mk.inj h).2.symm
        · rw [if_neg hhost]
          exact (and_iff_left fun h => hhost (BadIpKey.mk.inj h).1.symm).symm
  rw [unmarkedIPs, hfold, ← Bool.not_eq_true, marked_iff]
  refine and_congr_right fun _ => ?_
  constructor
  · rintro h ⟨ftError, he⟩
    exact h _ he rfl
  · rintro h ⟨k, ftError⟩ he rfl
    exact h ⟨ftError, he⟩

/-- The addresses that are let off have no new marks. -/
theorem testAllIPBad_subset : ∀ e ∈ (s.testAllIPBad c IPListLocal).BadIPMap,
    e ∈ s.BadIPMap := by
  unfold testAllIPBad
  split_ifs with h
  · exact fun _ he => (SortedMap.mem_filter.1 he).1
  · exact fun _ he => he

/-- When all addresses are marked, none is afterwards. -/
theorem marked_testAllIPBad (h : ∀ sIP ∈ IPListLocal, s.marked c sIP = true) (sIP : CString) :
    (s.testAllIPBad c IPListLocal).marked c sIP = false := by
  have hall : s.unmarkedIPs c IPListLocal = [] := by
    refine List.eq_nil_iff_forall_not_mem.2 fun sIP' hmem => ?_
    obtain ⟨hin, hgood⟩ := mem_unmarkedIPs.1 hmem
    exact Bool.false_ne_true (hgood.symm.trans (h sIP' hin))
  rw [testAllIPBad, if_pos hall, ← Bool.not_eq_true, marked_iff]
  rintro ⟨ftError, he⟩
  exact of_decide_eq_true (SortedMap.mem_filter.1 he).2 rfl

/-- When an address is not marked, nothing happens. -/
theorem testAllIPBad_of_unmarked (hmem : sIP ∈ IPListLocal) (h : s.marked c sIP = false) :
    s.testAllIPBad c IPListLocal = s :=
  if_neg (List.ne_nil_of_mem (mem_unmarkedIPs.2 ⟨hmem, h⟩))

end

end Selection

end Retry
end ECSUtil

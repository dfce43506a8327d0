/-
# Who owns a session

The threads allocate, use and release sessions of the one `SessionMap` in any order.
A session in use has one owner, whose `pValue` points at its entry
(`session_owner`), as long as fewer than `2 ^ 32` sessions are made: the number
in a key is a `long` that is counted up.

The lock of the map covers `AllocSession` as a whole, but of `ReleaseSession` only the
change of the map; the fields of the session are cleared after it.  A session between
the two still holds its old pointer, but has given the entry up (`Owns`).

The invariant (`Inv`) is that owners and entries in use belong together, one to one, where entries
have different keys and numbers (`Named`), and that an entry is in use if it is marked to be killed.
Such an entry stays marked and with its owner until it is gone (`Doomed`), which it is when the
owner releases it.
-/

import ECSUtil.Lib.StepSystem
import ECSUtil.Session.Map

namespace ECSUtil
namespace Session

variable {ι : Type}

/-- The steps of the threads. -/
inductive Action (ι : Type)
  | allocSession (i : ι) (pszHost pszIP : CString) (ftNow : FileTime)
  /-- `InitSession` opens the handles of the session, or closes them. -/
  | openHandles (i : ι) (hSession : Option SessionHandle) (hConnect : Option ConnectHandle)
  /-- The handler of `SendRequestInternal` marks the session of a failed exchange. -/
  | killWhenDone (i : ι)
  | releaseSession (i : ι) (ftNow : FileTime)
  | releaseDone (i : ι)
  | killHostSessions
  | garbageCollect (ftNow : FileTime)
  deriving Repr

section Steps

variable [DecidableEq ι]

/-- One step.  A thread inside `ReleaseSession` does nothing else with its session. -/
def step (s : State ι) : Action ι → Option (State ι)
  | .allocSession i pszHost pszIP ftNow =>
      if s.releasing i then none else some (s.allocSession i pszHost pszIP ftNow)
  | .openHandles i hSession hConnect =>
      if s.releasing i ∨ (s.session i).pValue = none then none
      else some (s.writeValue i fun v => { v with hSession := hSession, hConnect := hConnect })
  | .killWhenDone i =>
      if s.releasing i ∨ (s.session i).pValue = none then none
      else some (s.writeValue i fun v => { v with bKillWhenDone := true })
  | .releaseSession i ftNow => if s.releasing i then none else some (s.releaseLocked i ftNow)
  | .releaseDone i =>
      if s.releasing i ∨ (s.session i).pValue = none then some (s.releaseClear i) else none
  | .killHostSessions => some s.killHostSessions
  | .garbageCollect ftNow => some (s.garbageCollect ftNow)

/-- The threads, at first without sessions. -/
def system (ι : Type) [DecidableEq ι] : StepSystem (State ι) (Action ι) where
  init s := s = {}
  step := step

end Steps

/-- The session `i` owns the entry at an address: it points at it and is not giving it
up. -/
def Owns (s : State ι) (i : ι) (a : ℕ) : Prop :=
  (s.session i).pValue = some a ∧ s.releasing i = false

/-- Every entry is known by its address. -/
structure Placed (s : State ι) : Prop where
  addr_lt : ∀ e ∈ s.sessionMap, e.2.addr < s.created
  addr_inj : ∀ e ∈ s.sessionMap, ∀ f ∈ s.sessionMap, e.2.addr = f.2.addr → e = f

/-- Every entry is known by its address, and its key by the number of the entry. -/
structure Named (s : State ι) : Prop extends Placed s where
  counter : s.lSessionKeyValue = (s.created : ℤ).bmod 4294967296
  lKey : ∀ e ∈ s.sessionMap, e.1.lKey = ((e.2.addr : ℤ) + 1).bmod 4294967296

/-- **The invariant.**  Owners and entries in use belong together, one to one, and what
is marked to be killed is in use. -/
structure Inv (s : State ι) : Prop extends Named s where
  live : ∀ i a, Owns s i a → ∃ v, ((s.session i).Key, v) ∈ s.sessionMap ∧ v.addr = a ∧
    v.bInUse = true
  owned : ∀ e ∈ s.sessionMap, e.2.bInUse = true → ∃ i, Owns s i e.2.addr
  owner : ∀ i j a, Owns s i a → Owns s j a → i = j
  marked : ∀ e ∈ s.sessionMap, e.2.bKillWhenDone = true → e.2.bInUse = true

/-- A thread owns nothing while it releases, or without a pointer. -/
theorem not_owns {s : State ι} {i : ι} {a : ℕ}
    (h : s.releasing i = true ∨ (s.session i).pValue = none) : ¬Owns s i a := by
  rintro ⟨hp, hr⟩
  rcases h with h | h
  · exact absurd (h.symm.trans hr) (by simp)
  · exact absurd (h.symm.trans hp) (by simp)

/-- The invariant holds of the empty map. -/
theorem inv_init : Inv ({} : State ι) where
  addr_lt e he := absurd he SortedMap.not_mem_empty
  addr_inj e he := absurd he SortedMap.not_mem_empty
  counter := Int.zero_bmod.symm
  lKey e he := absurd he SortedMap.not_mem_empty
  live i a h := absurd h.1 (by simp)
  owned e he := absurd he SortedMap.not_mem_empty
  owner i j a h := absurd h.1 (by simp)
  marked e he := absurd he SortedMap.not_mem_empty

/-! ## What the operations do -/

variable {s s' : State ι} {i : ι}

/-- Two addresses that were given out make two keys. -/
theorem bmod_injective {a b : ℕ} (ha : a < 4294967296) (hb : b < 4294967296)
    (h : ((a : ℤ) + 1).bmod 4294967296 = ((b : ℤ) + 1).bmod 4294967296) : a = b := by
  rw [Int.bmod_eq_bmod_iff_bmod_sub_eq_zero, ← Int.dvd_iff_bmod_eq_zero] at h
  omega

/-- The key of a new session is the count of those made, as a `long`. -/
theorem nextKey_eq (h : Named s) (hc : s.created + 1 < 4294967296) :
    s.nextKey = ((s.created : ℤ) + 1).bmod 4294967296 := by
  unfold State.nextKey interlockedIncrement
  rw [h.counter, Int.bmod_add_bmod]
  simp only
  rw [if_neg]
  intro h0
  have hd := Int.dvd_of_bmod_eq_zero h0
  omega

/-- As long as the numbers have not come round, the key of a new entry is new. -/
theorem find_nextKey (h : Named s) (hc : s.created + 1 < 4294967296) (pszHost pszIP : CString) :
    s.sessionMap.find ⟨pszHost, pszIP, s.nextKey⟩ = none := by
  refine SortedMap.find_eq_none.2 fun e he heq => ?_
  have hlt := h.addr_lt e he
  have hkey : s.nextKey = ((e.2.addr : ℤ) + 1).bmod 4294967296 := by rw [← h.lKey e he, heq]
  rw [nextKey_eq h hc] at hkey
  exact hlt.ne' (bmod_injective (by omega) (by omega) hkey)

/-- Where an entry is found free, the entry is in the map and free. -/
theorem firstFree_spec {pszHost pszIP : CString} {es : List (SessionMapKey × SessionMapValue)}
    {e : SessionMapKey × SessionMapValue} (h : State.firstFree pszHost pszIP es = some e) :
    e ∈ es ∧ e.2.bInUse = false ∧ e.1.sHostEntry = pszHost ∧ e.1.sIP = pszIP := by
  induction es with
  | nil => simp [State.firstFree] at h
  | cons f es ih =>
      unfold State.firstFree at h
      split_ifs at h with hk hf
      · obtain rfl := Option.some.inj h
        rw [not_or, not_not, not_not] at hk
        exact ⟨List.mem_cons_self, by simpa using hf, hk.1.symm, hk.2.symm⟩
      · obtain ⟨hm, he⟩ := ih h
        exact ⟨List.mem_cons_of_mem f hm, he⟩

/-- What is found is free, and of the host and the address that were asked for. -/
theorem lookup_spec {pszHost pszIP : CString} {e : SessionMapKey × SessionMapValue}
    (h : s.lookup pszHost pszIP = some e) :
    e ∈ s.sessionMap ∧ e.2.bInUse = false ∧ e.1.sHostEntry = pszHost ∧ e.1.sIP = pszIP := by
  obtain ⟨hm, he⟩ := firstFree_spec h
  exact ⟨SortedMap.mem_of_mem_lowerBound hm, he⟩

/-- The entries keep their places in a step that makes none. -/
theorem Placed.keep (h : Placed s) (hcr : s.created ≤ s'.created)
    (hm : ∀ e ∈ s'.sessionMap, ∃ v, (e.1, v) ∈ s.sessionMap ∧ v.addr = e.2.addr) : Placed s' where
  addr_lt e he := by
    obtain ⟨v, hv, ha⟩ := hm e he
    exact ha ▸ (h.addr_lt _ hv).trans_le hcr
  addr_inj e he f hf heq := by
    obtain ⟨v, hv, ha⟩ := hm e he
    obtain ⟨w, hw, hb⟩ := hm f hf
    have hvw := h.addr_inj _ hv _ hw (by rw [ha, hb, heq])
    exact SortedMap.unique he hf (Prod.mk.inj hvw).1

/-- The entries keep their places in a step that makes one. -/
theorem Placed.add {k : SessionMapKey} {w : SessionMapValue} (h : Placed s)
    (hcr : s'.created = s.created + 1) (hw : w.addr = s.created)
    (hm : ∀ e ∈ s'.sessionMap, e ∈ s.sessionMap ∨ e = (k, w)) : Placed s' where
  addr_lt e he := by
    rcases hm e he with he | rfl
    · have := h.addr_lt e he
      omega
    · rw [hw, hcr]
      exact Nat.lt_succ_self _
  addr_inj e he f hf heq := by
    rcases hm e he with he | rfl <;> rcases hm f hf with hf | rfl
    · exact h.addr_inj e he f hf heq
    · exact absurd (heq.trans hw) (h.addr_lt e he).ne
    · exact absurd (heq.symm.trans hw) (h.addr_lt f hf).ne
    · rfl

/-- The entries keep their names in a step that makes none. -/
theorem Named.keep (h : Named s) (hcr : s'.created = s.created)
    (hl : s'.lSessionKeyValue = s.lSessionKeyValue)
    (hm : ∀ e ∈ s'.sessionMap, ∃ v, (e.1, v) ∈ s.sessionMap ∧ v.addr = e.2.addr) : Named s' where
  toPlaced := h.toPlaced.keep hcr.ge hm
  counter := by rw [hcr, hl, h.counter]
  lKey e he := by
    obtain ⟨v, hv, ha⟩ := hm e he
    rw [h.lKey _ hv, ha]

/-- The entries keep their names in a step that makes one, under the next number. -/
theorem Named.add {k : SessionMapKey} {w : SessionMapValue} (h : Named s)
    (hcr : s'.created = s.created + 1)
    (hl : s'.lSessionKeyValue = ((s.created : ℤ) + 1).bmod 4294967296)
    (hk : k.lKey = s'.lSessionKeyValue) (hw : w.addr = s.created)
    (hm : ∀ e ∈ s'.sessionMap, e ∈ s.sessionMap ∨ e = (k, w)) : Named s' where
  toPlaced := h.toPlaced.add hcr hw hm
  counter := by rw [hl, hcr, Int.natCast_succ]
  lKey e he := by
    rcases hm e he with he | rfl
    · exact h.lKey e he
    · rw [hk, hl, hw]

/-- The entries in use and their owners stay as they were. -/
theorem Inv.same (h : Inv s) (hcr : s'.created = s.created)
    (hl : s'.lSessionKeyValue = s.lSessionKeyValue) (hses : s'.session = s.session)
    (hrel : s'.releasing = s.releasing)
    (hfrom : ∀ e ∈ s'.sessionMap, ∃ v, (e.1, v) ∈ s.sessionMap ∧ v.addr = e.2.addr ∧
      v.bInUse = e.2.bInUse)
    (hto : ∀ k v, (k, v) ∈ s.sessionMap → v.bInUse = true →
      ∃ w, (k, w) ∈ s'.sessionMap ∧ w.addr = v.addr ∧ w.bInUse = true)
    (hmark : ∀ e ∈ s'.sessionMap, e.2.bKillWhenDone = true → e.2.bInUse = true) : Inv s' := by
  have howns : ∀ j b, Owns s' j b ↔ Owns s j b := by
    intro j b
    rw [Owns, Owns, hses, hrel]
  refine ⟨h.toNamed.keep hcr hl fun e he => ?_, fun j b hj => ?_, fun e he hu => ?_,
    fun j l b hj hl => ?_, hmark⟩
  · obtain ⟨v, hv, ha, -⟩ := hfrom e he
    exact ⟨v, hv, ha⟩
  · obtain ⟨v, hv, hvb, hu⟩ := h.live j b ((howns j b).1 hj)
    obtain ⟨w, hw, hwa, hwu⟩ := hto _ v hv hu
    exact ⟨w, hses ▸ hw, hwa.trans hvb, hwu⟩
  · obtain ⟨v, hv, ha, hvu⟩ := hfrom e he
    obtain ⟨j, hj⟩ := h.owned _ hv (hvu.trans hu)
    exact ⟨j, (howns j _).2 (ha ▸ hj)⟩
  · exact h.owner j l b ((howns j b).1 hj) ((howns l b).1 hl)

/-- A write through the pointer of an owner, to fields other than `bInUse`. -/
theorem Inv.writeValue (h : Inv s) (hi : ∃ a, Owns s i a) {f : SessionMapValue → SessionMapValue}
    (hf : ∀ v, (f v).addr = v.addr ∧ (f v).bInUse = v.bInUse) : Inv (s.writeValue i f) := by
  have hmem : ∀ e, e ∈ (s.writeValue i f).sessionMap ↔ ∃ d ∈ s.sessionMap,
      (d.1, if some d.2.addr = (s.session i).pValue then f d.2 else d.2) = e :=
    fun e => SortedMap.mem_mapValues
  refine h.same rfl rfl rfl rfl (fun e he => ?_) (fun k v hv hu => ?_) (fun e he hk => ?_)
  · obtain ⟨d, hd, rfl⟩ := (hmem e).1 he
    refine ⟨d.2, hd, ?_⟩
    dsimp only
    split_ifs
    · exact ⟨(hf d.2).1.symm, (hf d.2).2.symm⟩
    · exact ⟨rfl, rfl⟩
  · refine ⟨_, (hmem _).2 ⟨_, hv, rfl⟩, ?_⟩
    dsimp only
    split_ifs
    · exact ⟨(hf v).1, (hf v).2.trans hu⟩
    · exact ⟨rfl, hu⟩
  · obtain ⟨d, hd, rfl⟩ := (hmem e).1 he
    dsimp only at hk ⊢
    split_ifs at hk ⊢ with hp
    · obtain ⟨a, ha⟩ := hi
      obtain ⟨v, hv, hva, hu⟩ := h.live i a ha
      have hda : d.2.addr = a := Option.some.inj (hp.trans ha.1)
      obtain rfl := h.addr_inj _ hv d hd (hva.trans hda.symm)
      exact (hf v).2.trans hu
    · exact h.marked d hd hk

/-- `KillHostSessions` keeps the invariant. -/
theorem Inv.killHostSessions (h : Inv s) : Inv s.killHostSessions := by
  have hmem : ∀ e, e ∈ s.killHostSessions.sessionMap ↔ ∃ d ∈ s.sessionMap, d.2.bInUse = true ∧
      (d.1, { d.2 with bKillWhenDone := true }) = e := by
    intro e
    simp [State.killHostSessions, and_assoc]
  refine h.same rfl rfl rfl rfl (fun e he => ?_) (fun k v hv hu => ?_) (fun e he _ => ?_)
  · obtain ⟨d, hd, -, rfl⟩ := (hmem e).1 he
    exact ⟨d.2, hd, rfl, rfl⟩
  · exact ⟨_, (hmem _).2 ⟨_, hv, hu, rfl⟩, rfl, hu⟩
  · obtain ⟨d, -, hu, rfl⟩ := (hmem e).1 he
    exact hu

/-- `GarbageCollect` keeps the invariant. -/
theorem Inv.garbageCollect (h : Inv s) (ftNow : FileTime) : Inv (s.garbageCollect ftNow) := by
  refine h.same rfl rfl rfl rfl (fun e he => ?_) (fun k v hv hu => ?_) (fun e he hk => ?_)
  · exact ⟨e.2, (SortedMap.mem_filter.1 he).1, rfl, rfl⟩
  · exact ⟨v, SortedMap.mem_filter.2 ⟨hv, by simp [hu]⟩, rfl, hu⟩
  · exact h.marked e (SortedMap.mem_filter.1 he).1 hk

/-- The entry at the address `a` is marked to be killed and owned by `i`, as long as it is
in the map. -/
structure Doomed (i : ι) (a : ℕ) (s : State ι) : Prop where
  lt : a < s.created
  owns : ∀ e ∈ s.sessionMap, e.2.addr = a → e.2.bKillWhenDone = true ∧ Owns s i a

variable {a : ℕ} {j : ι}

/-- A write that leaves the marks alone leaves a session doomed. -/
theorem Doomed.writeValue {f : SessionMapValue → SessionMapValue} (hd : Doomed i a s)
    (hf : ∀ v, (f v).addr = v.addr ∧ (v.bKillWhenDone = true → (f v).bKillWhenDone = true)) :
    Doomed i a (s.writeValue j f) := by
  refine ⟨hd.lt, fun e he ha => ?_⟩
  obtain ⟨d, hdm, rfl⟩ := SortedMap.mem_mapValues.1 he
  dsimp only at ha ⊢
  split_ifs at ha ⊢
  · obtain ⟨hk, hown⟩ := hd.owns d hdm ((hf d.2).1.symm.trans ha)
    exact ⟨(hf d.2).2 hk, hown⟩
  · exact hd.owns d hdm ha

section Operations

variable [DecidableEq ι]

/-- A release takes its entry away, or puts it back as free. -/
theorem mem_releaseLocked {v : SessionMapValue} (hp : (s.session i).pValue ≠ none)
    (hv : ((s.session i).Key, v) ∈ s.sessionMap) (ftNow : FileTime)
    {e : SessionMapKey × SessionMapValue} :
    e ∈ (s.releaseLocked i ftNow).sessionMap ↔
      (e ∈ s.sessionMap ∧ e.1 ≠ (s.session i).Key) ∨
        (v.bKillWhenDone = false ∧
          e = ((s.session i).Key, { v with ftIdleTime := ftNow, bInUse := false })) := by
  simp only [State.releaseLocked, if_neg hp, SortedMap.find_eq_some.2 hv]
  cases hk : v.bKillWhenDone
  · simp only [Bool.false_eq_true, if_false, SortedMap.mem_modify_of_mem hv, true_and, hk]
  · simp

/-- **`ReleaseSession`, the locked part.**  The owner gives its entry up: the entry is
erased when it was marked, and free otherwise. -/
theorem Inv.releaseLocked (h : Inv s) (hr : s.releasing i = false) (ftNow : FileTime) :
    Inv (s.releaseLocked i ftNow) := by
  by_cases hp : (s.session i).pValue = none
  · rwa [State.releaseLocked, if_pos hp]
  obtain ⟨a, ha⟩ := Option.ne_none_iff_exists'.1 hp
  have hown : Owns s i a := ⟨ha, hr⟩
  obtain ⟨v, hv, hva, -⟩ := h.live i a hown
  have hmem := fun e => mem_releaseLocked hp hv ftNow (e := e)
  have howns : ∀ j b, Owns (s.releaseLocked i ftNow) j b ↔ Owns s j b ∧ j ≠ i := by
    intro j b
    simp only [State.releaseLocked, if_neg hp, Owns]
    by_cases hj : j = i
    · simp [hj]
    · simp [hj]
  have hsession : (s.releaseLocked i ftNow).session = s.session := by
    simp only [State.releaseLocked, if_neg hp]
  refine ⟨h.toNamed.keep ?_ ?_ fun e he => ?_, fun j b hj => ?_, fun e he hu => ?_,
    fun j l b hj hl => ?_, fun e he hk => ?_⟩
  · simp only [State.releaseLocked, if_neg hp]
  · simp only [State.releaseLocked, if_neg hp]
  · rcases (hmem e).1 he with ⟨he, -⟩ | ⟨-, rfl⟩
    · exact ⟨e.2, he, rfl⟩
    · exact ⟨v, hv, rfl⟩
  · obtain ⟨hj, hne⟩ := (howns j b).1 hj
    obtain ⟨w, hw, hwb, hu⟩ := h.live j b hj
    refine ⟨w, (hmem _).2 (.inl ⟨hsession ▸ hw, fun heq => hne ?_⟩), hwb, hu⟩
    -- Two owners of one entry are one.
    rw [hsession] at heq
    obtain rfl : w = v := (Prod.mk.inj (SortedMap.unique hw hv heq)).2
    exact h.owner j i b hj (hwb ▸ hva ▸ hown)
  · rcases (hmem e).1 he with ⟨hes, hkey⟩ | ⟨-, rfl⟩
    · obtain ⟨j, hj⟩ := h.owned e hes hu
      refine ⟨j, (howns j _).2 ⟨hj, ?_⟩⟩
      rintro rfl
      obtain ⟨w, hw, hwb, -⟩ := h.live j _ hj
      exact hkey (congrArg Prod.fst (h.addr_inj _ hw e hes hwb)).symm
    · simp at hu
  · exact h.owner j l b ((howns j b).1 hj).1 ((howns l b).1 hl).1
  · rcases (hmem e).1 he with ⟨he, -⟩ | ⟨hkill, rfl⟩
    · exact h.marked e he hk
    · simp [hkill] at hk

/-- The owner `i` that owned nothing is given the entry of the key `k`, which nobody
owns. -/
theorem Inv.give {k : SessionMapKey} {w : SessionMapValue} (h : Inv s) (h' : Named s')
    (hi : (s.session i).pValue = none) (hr : s.releasing i = false)
    (hmem : ∀ e, e ∈ s'.sessionMap ↔ (e ∈ s.sessionMap ∧ e.1 ≠ k) ∨ e = (k, w))
    (hfree : ∀ e ∈ s.sessionMap, e.1 = k ∨ e.2.addr = w.addr → e.2.bInUse = false)
    (hw : w.bInUse = true) (hses : s'.session = Function.update s.session i ⟨k, some w.addr⟩)
    (hrel : s'.releasing = s.releasing) : Inv s' := by
  have howns : ∀ j b, Owns s' j b ↔ (j = i ∧ b = w.addr) ∨ (j ≠ i ∧ Owns s j b) := by
    intro j b
    rw [Owns, hses, hrel]
    by_cases hj : j = i
    · subst hj
      simp [hr, eq_comm]
    · simp [hj, Owns]
  have hother : ∀ j b, Owns s j b → b ≠ w.addr := by
    rintro j b hj rfl
    obtain ⟨v, hv, hva, hu⟩ := h.live j _ hj
    rw [hfree _ hv (.inr hva)] at hu
    exact absurd hu Bool.false_ne_true
  refine ⟨h', fun j b hj => ?_, fun e he hu => ?_, fun j l b hj hl => ?_, fun e he hk => ?_⟩
  · rw [hses]
    rcases (howns j b).1 hj with ⟨rfl, rfl⟩ | ⟨hne, hj⟩
    · rw [Function.update_self]
      exact ⟨w, (hmem _).2 (.inr rfl), rfl, hw⟩
    · obtain ⟨v, hv, hvb, hu⟩ := h.live j b hj
      rw [Function.update_of_ne hne]
      refine ⟨v, (hmem _).2 (.inl ⟨hv, fun hk => ?_⟩), hvb, hu⟩
      rw [hfree _ hv (.inl hk)] at hu
      exact absurd hu Bool.false_ne_true
  · rcases (hmem e).1 he with ⟨he, -⟩ | rfl
    · obtain ⟨j, hj⟩ := h.owned e he hu
      refine ⟨j, (howns j _).2 (.inr ⟨?_, hj⟩)⟩
      rintro rfl
      exact absurd (hi.symm.trans hj.1) (by simp)
    · exact ⟨i, (howns i _).2 (.inl ⟨rfl, rfl⟩)⟩
  · rcases (howns j b).1 hj with ⟨rfl, rfl⟩ | ⟨-, hj⟩ <;>
      rcases (howns l _).1 hl with ⟨rfl, hb⟩ | ⟨-, hl⟩
    · rfl
    · exact absurd rfl (hother l _ hl)
    · exact absurd hb (hother j _ hj)
    · exact h.owner j l b hj hl
  · rcases (hmem e).1 he with ⟨he, -⟩ | rfl
    · exact h.marked e he hk
    · exact hw

/-- **`ReleaseSession`, the end.**  Who owns nothing has nothing to lose. The session has given its
entry up before, in the section under the lock; here the fields of the session are cleared, and no
entry is touched. -/
theorem Inv.releaseClear (h : Inv s) (hi : ∀ a, ¬Owns s i a) : Inv (s.releaseClear i) := by
  have howns : ∀ j b, Owns (s.releaseClear i) j b ↔ Owns s j b := by
    intro j b
    by_cases hj : j = i
    · subst hj
      exact iff_of_false (by simp [State.releaseClear, Owns]) (hi b)
    · simp [State.releaseClear, Owns, hj]
  refine ⟨h.toNamed.keep rfl rfl fun e he => ⟨e.2, he, rfl⟩, fun j b hj => ?_, fun e he hu => ?_,
    fun j l b hj hl => ?_, h.marked⟩
  · have hj' := (howns j b).1 hj
    have hne : j ≠ i := fun heq => hi b (heq ▸ hj')
    obtain ⟨v, hv⟩ := h.live j b hj'
    refine ⟨v, ?_⟩
    simpa [State.releaseClear, hne] using hv
  · obtain ⟨j, hj⟩ := h.owned e he hu
    exact ⟨j, (howns j _).2 hj⟩
  · exact h.owner j l b ((howns j b).1 hj) ((howns l b).1 hl)

/-- **`AllocSession`.**  A free entry gets an owner, or a new entry does. A free entry that is found
has no owner by the invariant; a new one has a number that no other entry has, as the numbers have
not come round yet. -/
theorem Inv.claim (h : Inv s) (hi : (s.session i).pValue = none) (hr : s.releasing i = false)
    (pszHost pszIP : CString) (ftNow : FileTime)
    (hc : (s.claim i pszHost pszIP ftNow).created < 4294967296) :
    Inv (s.claim i pszHost pszIP ftNow) := by
  cases hl : s.lookup pszHost pszIP with
  | some e =>
      obtain ⟨k, v⟩ := e
      obtain ⟨hv, hu, -⟩ := lookup_spec hl
      have hmem := fun e => SortedMap.mem_modify_of_mem hv
        (f := fun v : SessionMapValue => { v with bInUse := true }) (e := e)
      rw [State.claim_reuse hl]
      refine h.give (w := { v with bInUse := true }) (h.toNamed.keep rfl rfl fun e he => ?_) hi hr
        hmem (fun e he heq => ?_) rfl rfl rfl
      · rcases (hmem e).1 he with ⟨he, -⟩ | rfl
        · exact ⟨e.2, he, rfl⟩
        · exact ⟨v, hv, rfl⟩
      · obtain rfl : e = (k, v) := by
          rcases heq with heq | heq
          · exact SortedMap.unique he hv heq
          · exact h.addr_inj e he _ hv heq
        exact hu
  | none =>
      have hcr : s.created + 1 < 4294967296 := by
        simpa only [State.claim, hl] using hc
      have hf := find_nextKey h.toNamed hcr pszHost pszIP
      have hmem := fun e => SortedMap.mem_modify_insert hf
        (v := { addr := s.created, ftIdleTime := ftNow })
        (f := fun v : SessionMapValue => { v with bInUse := true }) (e := e)
      rw [State.claim_fresh hl hf]
      refine h.give (h.toNamed.add (k := ⟨pszHost, pszIP, s.nextKey⟩)
        (w := { addr := s.created, bInUse := true, ftIdleTime := ftNow }) rfl
        (nextKey_eq h.toNamed hcr) rfl rfl fun e he => ?_) hi hr hmem (fun e he heq => ?_) rfl rfl rfl
      · exact ((hmem e).1 he).imp_left And.left
      · rcases heq with heq | heq
        · exact absurd heq (SortedMap.find_eq_none.1 hf e he)
        · exact absurd heq (h.addr_lt e he).ne

/-- A session that was released is owned no more. -/
theorem not_owns_releaseLocked (ftNow : FileTime) (a : ℕ) :
    ¬Owns (s.releaseLocked i ftNow) i a := by
  rintro ⟨hp, hrel⟩
  unfold State.releaseLocked at hp hrel
  split_ifs at hp hrel with hn
  · exact absurd (hn.symm.trans hp) (by simp)
  · simp at hrel

/-- `AllocSession` keeps the invariant, as long as the numbers do not wrap. -/
theorem Inv.allocSession (h : Inv s) (hr : s.releasing i = false) (pszHost pszIP : CString)
    (ftNow : FileTime) (hc : (s.allocSession i pszHost pszIP ftNow).created < 4294967296) :
    Inv (s.allocSession i pszHost pszIP ftNow) := by
  refine ((h.releaseLocked hr ftNow).releaseClear
    (not_owns_releaseLocked ftNow)).claim ?_ ?_ pszHost pszIP ftNow hc
  · simp [State.releaseClear]
  · simp [State.releaseClear]

/-- The sessions made are only ever counted up. -/
theorem created_le {a : Action ι} (hs : step s a = some s') : s.created ≤ s'.created := by
  cases a with
  | allocSession i pszHost pszIP ftNow =>
      simp only [step, Option.ite_none_left_eq_some, Option.some.injEq] at hs
      obtain ⟨-, rfl⟩ := hs
      have hrel : (s.releaseLocked i ftNow).created = s.created := by
        unfold State.releaseLocked
        split_ifs <;> rfl
      unfold State.allocSession State.claim
      split
      · exact hrel.ge
      · exact hrel ▸ Nat.le_succ _
  | openHandles i hSession hConnect =>
      simp only [step, Option.ite_none_left_eq_some, Option.some.injEq] at hs
      exact hs.2 ▸ Nat.le_refl _
  | killWhenDone i =>
      simp only [step, Option.ite_none_left_eq_some, Option.some.injEq] at hs
      exact hs.2 ▸ Nat.le_refl _
  | releaseSession i ftNow =>
      simp only [step, Option.ite_none_left_eq_some, Option.some.injEq] at hs
      obtain ⟨-, rfl⟩ := hs
      unfold State.releaseLocked
      split_ifs <;> exact Nat.le_refl _
  | releaseDone i =>
      simp only [step, Option.ite_none_right_eq_some, Option.some.injEq] at hs
      exact hs.2 ▸ Nat.le_refl _
  | killHostSessions => exact Option.some.inj hs ▸ Nat.le_refl _
  | garbageCollect ftNow => exact Option.some.inj hs ▸ Nat.le_refl _

/-- **Every step keeps the invariant.** The cases are the steps of a session; each section under the
lock of the map is one of them, and a write through `pValue` changes no owner and no mark but to set
it. -/
theorem Inv.step {a : Action ι} (h : Inv s) (hs : step s a = some s')
    (hc : s'.created < 4294967296) : Inv s' := by
  have howner : ∀ i, ¬(s.releasing i = true ∨ (s.session i).pValue = none) → ∃ a, Owns s i a := by
    intro i hi
    obtain ⟨hr, hp⟩ := not_or.1 hi
    obtain ⟨a, ha⟩ := Option.ne_none_iff_exists'.1 hp
    exact ⟨a, ha, Bool.eq_false_of_not_eq_true hr⟩
  cases a with
  | allocSession i pszHost pszIP ftNow =>
      simp only [Session.step, Option.ite_none_left_eq_some, Option.some.injEq] at hs
      obtain ⟨hr, rfl⟩ := hs
      exact h.allocSession (Bool.eq_false_of_not_eq_true hr) pszHost pszIP ftNow hc
  | openHandles i hSession hConnect =>
      simp only [Session.step, Option.ite_none_left_eq_some, Option.some.injEq] at hs
      obtain ⟨hi, rfl⟩ := hs
      exact h.writeValue (howner i hi) fun v => ⟨rfl, rfl⟩
  | killWhenDone i =>
      simp only [Session.step, Option.ite_none_left_eq_some, Option.some.injEq] at hs
      obtain ⟨hi, rfl⟩ := hs
      exact h.writeValue (howner i hi) fun v => ⟨rfl, rfl⟩
  | releaseSession i ftNow =>
      simp only [Session.step, Option.ite_none_left_eq_some, Option.some.injEq] at hs
      obtain ⟨hr, rfl⟩ := hs
      exact h.releaseLocked (Bool.eq_false_of_not_eq_true hr) ftNow
  | releaseDone i =>
      simp only [Session.step, Option.ite_none_right_eq_some, Option.some.injEq] at hs
      obtain ⟨hi, rfl⟩ := hs
      exact h.releaseClear fun a => not_owns hi
  | killHostSessions => exact Option.some.inj hs ▸ h.killHostSessions
  | garbageCollect ftNow => exact Option.some.inj hs ▸ h.garbageCollect ftNow

/-- **The invariant holds** in every run that makes fewer than `2 ^ 32` sessions. The bound on the
sessions is a hypothesis on the state that is reached, and holds of those before it, as sessions are
only counted up. -/
theorem inv_of_reachable (h : (system ι).Reachable s) (hc : s.created < 4294967296) : Inv s := by
  refine h.invariant (I := fun s => s.created < 4294967296 → Inv s) ?_ ?_ hc
  · rintro _ rfl -
    exact inv_init
  · intro s a s' ih _ hs hc
    exact (ih ((created_le hs).trans_lt hc)).step hs hc

/-! ## Marked entries -/

/-- The release of another session leaves a session doomed. -/
theorem Doomed.releaseLocked (h : Inv s) (hd : Doomed i a s) (hr : s.releasing j = false)
    (ftNow : FileTime) : Doomed i a (s.releaseLocked j ftNow) := by
  by_cases hp : (s.session j).pValue = none
  · rwa [State.releaseLocked, if_pos hp]
  obtain ⟨b, hb⟩ := Option.ne_none_iff_exists'.1 hp
  obtain ⟨v, hv, hvb, -⟩ := h.live j b ⟨hb, hr⟩
  refine ⟨?_, fun e he ha => ?_⟩
  · simp only [State.releaseLocked, if_neg hp]
    exact hd.lt
  · rcases (mem_releaseLocked hp hv ftNow).1 he with ⟨hes, hkey⟩ | ⟨hkill, rfl⟩
    · obtain ⟨hk, hown⟩ := hd.owns e hes ha
      refine ⟨hk, ?_⟩
      have hne : i ≠ j := by
        rintro rfl
        obtain ⟨w, hw, hwa, -⟩ := h.live i a hown
        exact hkey (congrArg Prod.fst (h.addr_inj _ hw e hes (hwa.trans ha.symm))).symm
      simpa [State.releaseLocked, if_neg hp, Owns, hne] using hown
    · exact absurd ((hd.owns _ hv ha).1.symm.trans hkill) (by simp)

/-- The clearing of another session leaves a session doomed. -/
theorem Doomed.releaseClear (hd : Doomed i a s) (hj : ∀ b, ¬Owns s j b) :
    Doomed i a (s.releaseClear j) := by
  refine ⟨hd.lt, fun e he ha => ?_⟩
  obtain ⟨hk, hown⟩ := hd.owns e he ha
  have hne : i ≠ j := fun heq => hj a (heq ▸ hown)
  exact ⟨hk, by simpa [State.releaseClear, Owns, hne] using hown⟩

/-- The claim of another session leaves a session doomed. -/
theorem Doomed.claim (h : Inv s) (hd : Doomed i a s) (hj : (s.session j).pValue = none)
    (pszHost pszIP : CString) (ftNow : FileTime)
    (hc : (s.claim j pszHost pszIP ftNow).created < 4294967296) :
    Doomed i a (s.claim j pszHost pszIP ftNow) := by
  have hne : ∀ b, Owns s i b → i ≠ j := by
    rintro b hb rfl
    exact absurd (hj.symm.trans hb.1) (by simp)
  cases hl : s.lookup pszHost pszIP with
  | some e =>
      obtain ⟨k, v⟩ := e
      obtain ⟨hv, hu, -⟩ := lookup_spec hl
      rw [State.claim_reuse hl]
      refine ⟨hd.lt, fun e he ha => ?_⟩
      rcases (SortedMap.mem_modify_of_mem hv).1 he with ⟨he, -⟩ | rfl
      · obtain ⟨hk, hown⟩ := hd.owns e he ha
        exact ⟨hk, by simpa [Owns, hne a hown] using hown⟩
      · -- A marked entry is in use, so it is not found free.
        exact absurd ((h.marked _ hv (hd.owns _ hv ha).1).symm.trans hu) (by simp)
  | none =>
      have hcr : s.created + 1 < 4294967296 := by
        simpa only [State.claim, hl] using hc
      have hf := find_nextKey h.toNamed hcr pszHost pszIP
      rw [State.claim_fresh hl hf]
      refine ⟨hd.lt.trans (Nat.lt_succ_self _), fun e he ha => ?_⟩
      rcases (SortedMap.mem_modify_insert hf).1 he with ⟨he, -⟩ | rfl
      · obtain ⟨hk, hown⟩ := hd.owns e he ha
        exact ⟨hk, by simpa [Owns, hne a hown] using hown⟩
      · exact absurd ha hd.lt.ne'

/-- **A marked entry has one owner, to the end.** Other sessions do not find it, as it is in use;
its owner can only release it, which takes a marked entry out of the map. -/
theorem Doomed.step {b : Action ι} (h : Inv s) (hd : Doomed i a s) (hs : step s b = some s')
    (hc : s'.created < 4294967296) : Doomed i a s' := by
  cases b with
  | allocSession j pszHost pszIP ftNow =>
      simp only [Session.step, Option.ite_none_left_eq_some, Option.some.injEq] at hs
      obtain ⟨hr, rfl⟩ := hs
      replace hr := Bool.eq_false_of_not_eq_true hr
      have hnone := not_owns_releaseLocked (s := s) (i := j) ftNow
      refine Doomed.claim ((h.releaseLocked hr ftNow).releaseClear hnone)
        ((hd.releaseLocked h hr ftNow).releaseClear hnone) ?_ pszHost pszIP ftNow hc
      simp [State.releaseClear]
  | openHandles j hSession hConnect =>
      simp only [Session.step, Option.ite_none_left_eq_some, Option.some.injEq] at hs
      obtain ⟨-, rfl⟩ := hs
      refine hd.writeValue fun v => ⟨rfl, id⟩
  | killWhenDone j =>
      simp only [Session.step, Option.ite_none_left_eq_some, Option.some.injEq] at hs
      obtain ⟨-, rfl⟩ := hs
      exact hd.writeValue fun v => ⟨rfl, fun _ => rfl⟩
  | releaseSession j ftNow =>
      simp only [Session.step, Option.ite_none_left_eq_some, Option.some.injEq] at hs
      obtain ⟨hr, rfl⟩ := hs
      exact hd.releaseLocked h (Bool.eq_false_of_not_eq_true hr) ftNow
  | releaseDone j =>
      simp only [Session.step, Option.ite_none_right_eq_some, Option.some.injEq] at hs
      obtain ⟨hj, rfl⟩ := hs
      exact hd.releaseClear fun b => not_owns hj
  | killHostSessions =>
      obtain rfl := Option.some.inj hs
      refine ⟨hd.lt, fun e he ha => ?_⟩
      obtain ⟨d, hdm, rfl⟩ := SortedMap.mem_mapValues.1 he
      exact ⟨rfl, (hd.owns d (SortedMap.mem_filter.1 hdm).1 ha).2⟩
  | garbageCollect ftNow =>
      obtain rfl := Option.some.inj hs
      exact ⟨hd.lt, fun e he ha => hd.owns e (SortedMap.mem_filter.1 he).1 ha⟩

/-- A marked entry in every later state. -/
theorem Doomed.run (h : (system ι).Reachable s) (hd : Doomed i a s) (acts : List (Action ι))
    (hr : (system ι).run acts s = some s') (hc : s'.created < 4294967296) : Doomed i a s' := by
  refine ((system ι).run_invariant
    (I := fun t => (system ι).Reachable t ∧ (t.created < 4294967296 → Doomed i a t))
    (fun t b t' ht hs => ⟨.step ht.1 trivial hs, fun hc' => ?_⟩) acts ⟨h, fun _ => hd⟩ hr).2 hc
  have hlt := (created_le hs).trans_lt hc'
  exact (ht.2 hlt).step (inv_of_reachable ht.1 hlt) hs hc'

/-- **Session ownership.**  In every run of the threads that makes fewer than `2 ^ 32`
sessions, an entry in use has exactly one owner, and an owner points at an entry that is in the map
and in use; no two owners share an entry; and an entry that is marked to be killed is never
handed out again, and gone from the map once its owner has released it. -/
theorem session_owner (h : (system ι).Reachable s) (hc : s.created < 4294967296) :
    (∀ e ∈ s.sessionMap, e.2.bInUse = true → ∃! i, Owns s i e.2.addr) ∧
      (∀ i a, Owns s i a →
        ∃ v, ((s.session i).Key, v) ∈ s.sessionMap ∧ v.addr = a ∧ v.bInUse = true) ∧
      (∀ i j a, Owns s i a → Owns s j a → i = j) ∧
      ∀ e ∈ s.sessionMap, e.2.bKillWhenDone = true → ∃ i, Owns s i e.2.addr ∧
        ∀ acts s', (system ι).run acts s = some s' → s'.created < 4294967296 →
          (∀ j, Owns s' j e.2.addr → j = i) ∧
            (¬Owns s' i e.2.addr → ∀ f ∈ s'.sessionMap, f.2.addr ≠ e.2.addr) := by
  have hinv := inv_of_reachable h hc
  refine ⟨fun e he hu => ?_, hinv.live, hinv.owner, fun e he hk => ?_⟩
  · obtain ⟨i, hi⟩ := hinv.owned e he hu
    exact ⟨i, hi, fun j hj => hinv.owner j i _ hj hi⟩
  · obtain ⟨i, hi⟩ := hinv.owned e he (hinv.marked e he hk)
    refine ⟨i, hi, fun acts s' hr hc' => ?_⟩
    have hd : Doomed i e.2.addr s := by
      refine ⟨hinv.addr_lt e he, fun f hf ha => ?_⟩
      obtain rfl := hinv.addr_inj f hf e he ha
      exact ⟨hk, hi⟩
    have hd' := hd.run h acts hr hc'
    have hinv' := inv_of_reachable (h.run acts hr) hc'
    refine ⟨fun j hj => ?_, fun hno f hf ha => hno (hd'.owns f hf ha).2⟩
    obtain ⟨v, hv, hva, -⟩ := hinv'.live j _ hj
    exact hinv'.owner j i _ hj (hd'.owns _ hv hva).2

/-- Two threads at one host: the session of the first is marked, so the second gets another;
each session has its owner. -/
theorem session_owner_killed : ∃ s : State Bool, (system Bool).Reachable s ∧
    s.sessionMap.entries.map (fun e => (e.2.bInUse, e.2.bKillWhenDone)) =
      [(true, true), (true, false)] ∧
    ∀ e ∈ s.sessionMap, e.2.bInUse = true → ∃! i, Owns s i e.2.addr := by
  have hrun : ((system Bool).run [.allocSession false "h".toList "1".toList 0, .killHostSessions,
      .allocSession true "h".toList "1".toList 0] {}).map (fun s => (s.created,
        s.sessionMap.entries.map fun e => (e.2.bInUse, e.2.bKillWhenDone))) =
      some (2, [(true, true), (true, false)]) := by decide +kernel
  obtain ⟨s, hs, heq⟩ := Option.map_eq_some_iff.1 hrun
  obtain ⟨hc, hm⟩ := Prod.mk.inj heq
  have hr : (system Bool).Reachable s := .run _ (.init rfl) hs
  exact ⟨s, hr, hm, (session_owner hr (by rw [hc]; decide)).1⟩

end Operations

end Session
end ECSUtil

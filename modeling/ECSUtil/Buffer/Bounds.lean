/-
# A buffer and its allocation

`SetBufSize`, `SetAt`, `Load`, `Append` and `operator +=` (`ECSUtil/cbuffer.cpp`), with what can go wrong
below them: `Grow` throws where the header does not fit a `SIZE_T` or the heap has no memory, the
allocation can be shorter than the size, and `memcpy` can write behind the end of the contents
(`Outcome.overrun`).  A `SIZE_T` has 32 or 64 bits, a size always 32.

`bounded`: an operation throws, or stays in its allocation and does what it should, exactly where the size
it asks for does not wrap around, a reallocation has room for 100 bytes more, and no buffer that has bytes
is appended to itself.
-/

import ECSUtil.Buffer.Values
import Mathlib.Algebra.Group.Nat.Defs

namespace ECSUtil
namespace Buffer

/-- The bits of a `SIZE_T`, and whether the heap returns a block. -/
structure Platform where
  sizeBits : ℕ
  heap : Bool
  deriving DecidableEq, Repr

namespace Platform

/-- A `SIZE_T`. -/
def sizeT (p : Platform) (n : ℕ) : ℕ := n % 2 ^ p.sizeBits

end Platform

/-- `sizeof(CBufferData)`. -/
def sizeofCBufferData : ℕ := 16

/-- What becomes of an operation: it returns, it throws, or it leaves its allocation or its contents. -/
inductive Outcome
  | done (s : Memory)
  | thrown (s : Memory)
  | overrun

/-- What is done next. -/
def Outcome.bind : Outcome → (Memory → Outcome) → Outcome
  | done s, f => f s
  | thrown s, _ => thrown s
  | overrun, _ => overrun

namespace Memory

/-- `Grow` takes a block from the heap. -/
def allocates (s : Memory) (i nNewSize : ℕ) : Bool :=
  match s.internalData (s.pData i) with
  | none => nNewSize ≠ 0
  | some pInfo => pInfo.m_nRefs > 1 ∨ nNewSize > pInfo.m_nAllocSize

/-- `Grow` reallocates the block. -/
def reallocates (s : Memory) (i nNewSize : ℕ) : Bool :=
  match s.internalData (s.pData i) with
  | none => false
  | some pInfo => ¬pInfo.m_nRefs > 1 ∧ nNewSize > pInfo.m_nAllocSize

/-- `Grow`, with what it throws, and a block that is shorter than its size. -/
def growOn (p : Platform) (s : Memory) (i nNewSize : ℕ) : Outcome :=
  if p.sizeT (nNewSize + sizeofCBufferData) ≤ nNewSize then .thrown s
  else if s.allocates i nNewSize = true ∧ p.heap = false then .thrown s
  else if s.reallocates i nNewSize = true ∧
      p.sizeT (nNewSize + sizeofCBufferData + ALLOC_INCR_DEFAULT) < nNewSize + sizeofCBufferData then
    .overrun
  else
    match s.grow i nNewSize false false with
    | some s' => .done s'
    | none => .overrun

/-- `memcpy` to the contents. -/
def put (s : Memory) (i nIndex : ℕ) (src : Bytes) : Outcome :=
  if src = [] then .done s
  else if nIndex + src.length ≤ s.getBufSize i then
    match s.copyTo i nIndex src with
    | some s' => .done s'
    | none => .overrun
  else .overrun

/-- The sizes of the blocks are not larger than what they are said to have. -/
def WellSized (s : Memory) : Prop := ∀ id b, s.cell id = some b → b.m_nSize ≤ b.m_nAllocSize

end Memory

/-- The operations that change a size. -/
inductive SizeOp
  | setBufSize (i nNewSize : ℕ)
  | setAt (i nIndex : ℕ) (newElement : UInt8)
  | load (i : ℕ) (src : Bytes)
  | append (i : ℕ) (src : Bytes)
  | appendBuffer (i j : ℕ)
  deriving DecidableEq, Repr

namespace SizeOp

/-- The operation on independent byte lists. -/
def toOp : SizeOp → Op
  | setBufSize i n => .setBufSize i n
  | setAt i k b => .setAt i k b
  | load i src => .load i src
  | append i src => .append i src
  | appendBuffer i j => .appendBuffer i j

/-- What the code does. -/
def exec (p : Platform) (s : Memory) : SizeOp → Outcome
  | setBufSize i nNewSize => s.growOn p i nNewSize
  | setAt i nIndex newElement =>
      (s.growOn p i (if nIndex ≥ s.getBufSize i then toDWORD (nIndex + 1) else s.getBufSize i)).bind
        fun s => if s.pData i = none then .thrown s else s.put i nIndex [newElement]
  | load i src =>
      (s.growOn p i src.length).bind fun s => if src.length > 0 then s.put i 0 src else .done s
  | append i src =>
      (s.growOn p i (toDWORD (src.length + s.getBufSize i))).bind fun s' =>
        if s'.getBufSize i > 0 then s'.put i (s.getBufSize i) src else .done s'
  | appendBuffer i j =>
      if s.getBufSize j = 0 then .done s
      else
        (s.growOn p i (toDWORD (s.getBufSize i + s.getBufSize j))).bind fun s' =>
          if s'.pData i = none then .thrown s' else s'.put i (s.getBufSize i) (s'.getBytes j)

/-- The object that changes. -/
def object : SizeOp → ℕ
  | setBufSize i _ | setAt i _ _ | load i _ | append i _ | appendBuffer i _ => i

/-- The size that the operation needs, as a number. -/
def request (s : Memory) : SizeOp → ℕ
  | setBufSize _ nNewSize => nNewSize
  | setAt i nIndex _ => max (s.getBufSize i) (nIndex + 1)
  | load _ src => src.length
  | append i src => s.getBufSize i + src.length
  | appendBuffer i j => s.getBufSize i + s.getBufSize j

/-- The objects are there, and sizes, lengths and indices are `DWORD`s. -/
def Ok (V : Values) (op : SizeOp) : Prop :=
  (∃ v, Live V op.object v ∧ v.length < 0x100000000) ∧
    match op with
    | setBufSize _ nNewSize => nNewSize < 0x100000000
    | setAt _ nIndex _ => nIndex < 0x100000000
    | load _ src | append _ src => src.length < 0x100000000
    | appendBuffer _ j => ∃ w, Live V j w ∧ w.length < 0x100000000

/-- **What the operation should do**: throw and leave the contents, or stay in its allocation, and
change the contents as it should. -/
def Meets (s : Memory) (op : SizeOp) : Outcome → Prop
  | .done s' => s'.WellSized ∧ op.toOp.Spec s.values s'.values
  | .thrown s' => s'.values = s.values
  | .overrun => False

/-- It throws: the header does not fit, or the heap has no block. -/
def Refused (p : Platform) (s : Memory) (op : SizeOp) : Prop :=
  p.sizeT (toDWORD (op.request s) + sizeofCBufferData) ≤ toDWORD (op.request s) ∨
    (s.allocates op.object (toDWORD (op.request s)) = true ∧ p.heap = false)

/-- It has nothing to do: nothing is appended, or the index wraps around and there is no block. -/
def Idle (s : Memory) : SizeOp → Prop
  | appendBuffer _ j => s.getBufSize j = 0
  | setAt i nIndex _ => nIndex + 1 = 0x100000000 ∧ s.pData i = none
  | _ => False

/-- A buffer is appended to itself. -/
def Self : SizeOp → Prop
  | appendBuffer i j => i = j
  | _ => False

/-- **There is room**: the size does not wrap around, and if the block is reallocated neither do the
100 bytes more, nor the header with them. -/
def Room (p : Platform) (s : Memory) (op : SizeOp) : Prop :=
  op.request s < 0x100000000 ∧
    (s.reallocates op.object (op.request s) = true →
      op.request s + ALLOC_INCR_DEFAULT < 0x100000000 ∧
        op.request s + sizeofCBufferData ≤
          p.sizeT (op.request s + sizeofCBufferData + ALLOC_INCR_DEFAULT))

end SizeOp

variable {p : Platform} {s s' : Memory} {i j n : ℕ} {v w src : Bytes}

namespace Memory

/-- A cell that was set has what it was set to. -/
theorem cell_setCell_self (s : Memory) (id : ℕ) (b : Option CBufferData) :
    (Shared.setCell s id b).cell id = b := by
  show Function.update s.cell id b id = b
  rw [Function.update_self]

/-- Where a cell was set, the others have what they had. -/
theorem cell_setCell_ne (s : Memory) {id id' : ℕ} (b : Option CBufferData) (h : id' ≠ id) :
    (Shared.setCell s id b).cell id' = s.cell id' := by
  show Function.update s.cell id b id' = s.cell id'
  rw [Function.update_of_ne h]

/-- One block is changed or new. -/
theorem wellSized_setCell {id : ℕ} {b : CBufferData} (hw : s.WellSized) :
    WellSized (s.setCell id (some b)) ↔ b.m_nSize ≤ b.m_nAllocSize := by
  constructor
  · intro h
    exact h id b (cell_setCell_self s id (some b))
  · intro h id' b' hb'
    by_cases hid : id' = id
    · subst hid
      rw [cell_setCell_self] at hb'
      exact Option.some.inj hb' ▸ h
    · rw [cell_setCell_ne s (some b) hid] at hb'
      exact hw id' b' hb'

/-- One block is changed, and has the sizes that it had. -/
theorem wellSized_modify {id : ℕ} {b d : CBufferData} (hc : s.cell id = some b)
    (hsize : d.m_nSize = b.m_nSize) (halloc : d.m_nAllocSize = b.m_nAllocSize) :
    WellSized (s.setCell id (some d)) ↔ s.WellSized := by
  constructor
  · intro hw id' b' hb'
    by_cases hid : id' = id
    · subst hid
      obtain rfl : b = b' := Option.some.inj (hc.symm.trans hb')
      have hd : d.m_nSize ≤ d.m_nAllocSize := hw id' d (cell_setCell_self s id' (some d))
      omega
    · exact hw id' b' ((cell_setCell_ne s (some d) hid).trans hb')
  · intro hw
    have hb := hw id b hc
    exact (wellSized_setCell hw).2 (by omega)

/-- **Copying changes no size.** The bytes are written inside the block, of which neither the
recorded nor the real size is another one then. -/
theorem copyTo_wellSized (h : s.copyTo i n src = some s') : s'.WellSized ↔ s.WellSized := by
  unfold copyTo at h
  split at h
  · split at h
    · exact absurd h (by simp)
    · rename_i b hc
      split_ifs at h
      obtain rfl := Option.some.inj h
      exact wellSized_modify hc rfl rfl
  · exact absurd h (by simp)

/-- A block that is left keeps its size. -/
theorem release_wellSized {id : ℕ} {b : CBufferData} (hw : s.WellSized) (hc : s.cell id = some b)
    (hrefs : b.m_nRefs > 1) : (s.release i id b).WellSized := by
  have hcase : s.release i id b =
      (s.setCell id (some (b.setRefs (b.m_nRefs - 1)))).setSlot i (some none) :=
    if_neg (by omega)
  have hleft : WellSized (s.setCell id (some (b.setRefs (b.m_nRefs - 1)))) :=
    (wellSized_modify (d := b.setRefs (b.m_nRefs - 1)) hc rfl rfl).2 hw
  rw [hcase]
  exact hleft

/-- A block is allocated. -/
theorem wellSized_alloc {b : CBufferData} (hw : s.WellSized) (hb : b.m_nSize ≤ b.m_nAllocSize) :
    WellSized (s.alloc i b) := by
  have hnew : WellSized (s.setCell s.next (some b)) := (wellSized_setCell hw).2 hb
  exact hnew

/-- **`Grow` keeps the sizes right**, unless a reallocation is said to have a wrapped size. A block
that is made larger is given the size that is asked for and an increment, and the sum is kept in a
`DWORD`. -/
theorem grow_wellSized (hs : s.Counted) (hw : s.WellSized) (hi : Live s.values i v)
    (hn : n < 0x100000000) (hgrow : s.grow i n false false = some s') :
    s'.WellSized ↔ (s.reallocates i n = true → n + ALLOC_INCR_DEFAULT < 0x100000000) := by
  unfold grow at hgrow
  unfold reallocates
  rcases hi.slot hs with ⟨hslot, rfl⟩ | ⟨id, b, hslot, hc, rfl⟩
  · rw [pData_of_slot hslot]
    rw [hslot] at hgrow
    dsimp only at hgrow
    refine iff_of_true ?_ fun h => absurd h Bool.false_ne_true
    by_cases hzero : n = 0
    · rw [if_pos (.inr hzero)] at hgrow
      exact Option.some.inj hgrow ▸ hw
    · rw [if_neg (by simp [hzero])] at hgrow
      obtain rfl := Option.some.inj hgrow
      exact wellSized_alloc hw (Nat.le_refl n)
  · rw [internalData_of_slot hslot hc]
    rw [hslot] at hgrow
    dsimp only at hgrow ⊢
    rw [hc] at hgrow
    dsimp only at hgrow
    by_cases hshared : b.m_nRefs > 1
    · rw [if_pos hshared, if_neg Bool.false_ne_true] at hgrow
      obtain rfl := Option.some.inj hgrow
      refine iff_of_true ?_ fun h => absurd hshared (of_decide_eq_true h).1
      exact wellSized_alloc (release_wellSized hw hc hshared) (Nat.le_refl n)
    · rw [if_neg hshared, if_neg Bool.false_ne_true] at hgrow
      by_cases hfits : n ≤ b.m_nAllocSize
      · rw [dif_pos ⟨rfl, hfits⟩] at hgrow
        obtain rfl := Option.some.inj hgrow
        refine iff_of_true ?_ fun h => absurd hfits (Nat.not_le.2 (of_decide_eq_true h).2)
        exact (wellSized_setCell hw).2 hfits
      · rw [dif_neg fun h => hfits h.2, if_neg (by omega)] at hgrow
        obtain rfl := Option.some.inj hgrow
        rw [wellSized_setCell hw]
        have hrealloc : decide (¬b.m_nRefs > 1 ∧ n > b.m_nAllocSize) = true :=
          decide_eq_true ⟨hshared, Nat.lt_of_not_le hfits⟩
        show n ≤ toDWORD (n + ALLOC_INCR_DEFAULT) ↔ _
        rw [hrealloc]
        unfold toDWORD ALLOC_INCR_DEFAULT
        constructor
        · intro h _
          omega
        · intro h
          have := h rfl
          omega

/-- `Grow` throws. -/
def Refuses (p : Platform) (s : Memory) (i n : ℕ) : Prop :=
  p.sizeT (n + sizeofCBufferData) ≤ n ∨ (s.allocates i n = true ∧ p.heap = false)

/-- Where `Grow` refuses it throws, and nothing has changed. -/
theorem growOn_of_refuses (h : Refuses p s i n) : s.growOn p i n = .thrown s := by
  unfold growOn
  rcases h with h | h
  · rw [if_pos h]
  · rw [if_pos h]
    exact ite_self _

/-- **`Grow`**, where it does not throw. Either the size of the allocation wraps around in a
`size_t`, and what is written overruns it; or the buffer has a block with the bytes that it had, up
to its new size. -/
theorem growOn_spec (hs : s.Counted) (hw : s.WellSized) (hi : Live s.values i v)
    (hn : n < 0x100000000) (hno : ¬Refuses p s i n) :
    (s.growOn p i n = .overrun ∧ s.reallocates i n = true ∧
      p.sizeT (n + sizeofCBufferData + ALLOC_INCR_DEFAULT) < n + sizeofCBufferData) ∨
    ∃ s' v', s.growOn p i n = .done s' ∧ s.Sets i v' s' ∧ Resized v n v' ∧
      (0 < n ∨ s.pData i ≠ none → s'.Owns i) ∧
      (s.reallocates i n = true →
        n + sizeofCBufferData ≤ p.sizeT (n + sizeofCBufferData + ALLOC_INCR_DEFAULT)) ∧
      (s'.WellSized ↔ (s.reallocates i n = true → n + ALLOC_INCR_DEFAULT < 0x100000000)) := by
  unfold growOn
  rw [if_neg fun h => hno (.inl h), if_neg fun h => hno (.inr h)]
  by_cases hshort : s.reallocates i n = true ∧
      p.sizeT (n + sizeofCBufferData + ALLOC_INCR_DEFAULT) < n + sizeofCBufferData
  · rw [if_pos hshort]
    exact .inl ⟨rfl, hshort⟩
  · obtain ⟨s', v', hgrow, hsets, hresized, howns⟩ := grow_sets hs hi n false
    rw [if_neg hshort, hgrow]
    exact .inr ⟨s', v', rfl, hsets, hresized, fun h => howns (h.imp_right fun h => ⟨rfl, h⟩),
      fun h => Nat.le_of_not_lt fun hlt => hshort ⟨h, hlt⟩, grow_wellSized hs hw hi hn hgrow⟩

/-- `Grow` to no bytes has nothing to do for an object without a block. -/
theorem growOn_nothing (hs : s.Counted) (hi : Live s.values i v) (hdata : s.pData i = none) :
    s.growOn p i 0 = .thrown s ∨ s.growOn p i 0 = .done s := by
  rcases hi.slot hs with ⟨hslot, -⟩ | ⟨id, b, hslot, -, -⟩
  · have hnone : s.internalData (s.pData i) = none := by
      rw [hdata]
      rfl
    have hgrow : s.grow i 0 false false = some s := by
      unfold grow
      rw [hslot]
      exact if_pos (.inr rfl)
    have halloc : s.allocates i 0 = false := by
      unfold allocates
      rw [hnone]
      rfl
    have hrealloc : s.reallocates i 0 = false := by
      unfold reallocates
      rw [hnone]
    unfold growOn
    by_cases hheader : p.sizeT (0 + sizeofCBufferData) ≤ 0
    · exact .inl (if_pos hheader)
    · rw [if_neg hheader, halloc, hrealloc, if_neg fun h => absurd h.1 Bool.false_ne_true,
        if_neg fun h => absurd h.1 Bool.false_ne_true, hgrow]
      exact .inr rfl
  · rw [pData_of_slot hslot] at hdata
    exact absurd hdata (by simp)

/-- **`memcpy` inside the contents.** The buffer owns its block, so no other one sees the bytes, and
no size changes. -/
theorem put_sets (n : ℕ) (src : Bytes) (hs : s.Counted) (hi : Live s.values i v) (hown : src ≠ [] → s.Owns i)
    (hfits : n + src.length ≤ v.length) : ∃ s', s.put i n src = .done s' ∧
      s.Sets i (overwrite v n src) s' ∧ (s'.WellSized ↔ s.WellSized) := by
  unfold put
  by_cases hsrc : src = []
  · subst hsrc
    rw [if_pos rfl, overwrite_nil]
    exact ⟨s, rfl, ⟨hs, hi.set_self.symm⟩, Iff.rfl⟩
  · obtain ⟨s', hcopy, hsets, -⟩ := copyTo_sets hs hi (hown hsrc) hfits
    rw [if_neg hsrc, (getBytes_eq hs hi).1, if_pos hfits, hcopy]
    exact ⟨s', rfl, hsets, copyTo_wellSized hcopy⟩

/-- `memcpy` behind the contents. -/
theorem put_overrun (hs : s.Counted) (hi : Live s.values i v) (hsrc : src ≠ [])
    (hlong : v.length < n + src.length) : s.put i n src = .overrun := by
  unfold put
  rw [if_neg hsrc, (getBytes_eq hs hi).1, if_neg (by omega)]

end Memory

namespace SizeOp

variable {op : SizeOp} {f : Memory → Outcome}

/-- What throws leaves the contents. -/
theorem meets_of_refuses (h : Memory.Refuses p s i n) : op.Meets s ((s.growOn p i n).bind f) := by
  rw [Memory.growOn_of_refuses h]
  exact rfl

/-- **The block gets its size, and what is done then is right**: the operation is right exactly where the
reallocation has room. -/
theorem meets_grow_iff (hs : s.Counted) (hw : s.WellSized) (hi : Live s.values i v)
    (hn : n < 0x100000000) (hno : ¬Memory.Refuses p s i n)
    (hf : ∀ s₁ v₁, s.Sets i v₁ s₁ → Resized v n v₁ → (0 < n ∨ s.pData i ≠ none → s₁.Owns i) →
      ∃ s₂, f s₁ = .done s₂ ∧ (s₂.WellSized ↔ s₁.WellSized) ∧ op.toOp.Spec s.values s₂.values) :
    op.Meets s ((s.growOn p i n).bind f) ↔ (s.reallocates i n = true →
      n + ALLOC_INCR_DEFAULT < 0x100000000 ∧
        n + sizeofCBufferData ≤ p.sizeT (n + sizeofCBufferData + ALLOC_INCR_DEFAULT)) := by
  rcases Memory.growOn_spec hs hw hi hn hno with ⟨hover, hrealloc, hshort⟩ |
    ⟨s₁, v₁, hdone, hsets, hresized, howns, hroom, hsized⟩
  · rw [hover]
    exact iff_of_false (fun h => h) fun h => absurd (h hrealloc).2 (Nat.not_le.2 hshort)
  · obtain ⟨s₂, hf₂, hsized₂, hspec⟩ := hf s₁ v₁ hsets hresized howns
    have hmeets : op.Meets s ((s.growOn p i n).bind f) ↔ s₂.WellSized ∧ op.toOp.Spec s.values s₂.values := by
      rw [hdone]
      show op.Meets s (f s₁) ↔ _
      rw [hf₂]
      exact Iff.rfl
    rw [hmeets, hsized₂, hsized]
    exact ⟨fun h hrealloc => ⟨h.1 hrealloc, hroom hrealloc⟩, fun h => ⟨fun hrealloc => (h hrealloc).1, hspec⟩⟩

/-- The block gets its size, and what is done then is wrong. -/
theorem not_meets_grow (hs : s.Counted) (hw : s.WellSized) (hi : Live s.values i v)
    (hn : n < 0x100000000) (hno : ¬Memory.Refuses p s i n)
    (hf : ∀ s₁ v₁, s.Sets i v₁ s₁ → Resized v n v₁ → (0 < n ∨ s.pData i ≠ none → s₁.Owns i) →
      ¬op.Meets s (f s₁)) : ¬op.Meets s ((s.growOn p i n).bind f) := by
  rcases Memory.growOn_spec hs hw hi hn hno with ⟨hover, -, -⟩ | ⟨s₁, v₁, hdone, hsets, hresized, howns, -, -⟩
  · rw [hover]
    exact fun h => h
  · rw [hdone]
    exact hf s₁ v₁ hsets hresized howns

/-- An object that owns a block has one. -/
theorem pData_of_owns (h : s.Owns i) : s.pData i ≠ none := by
  obtain ⟨id, b, hslot, -, -⟩ := h
  rw [Memory.pData_of_slot hslot]
  exact Option.some_ne_none id

/-- **`SetBufSize`.** It is `Grow` alone. -/
theorem setBufSize_iff (hs : s.Counted) (hw : s.WellSized) (hi : Live s.values i v)
    (hn : n < 0x100000000) (hno : ¬Memory.Refuses p s i n) :
    (setBufSize i n).Meets s (exec p s (setBufSize i n)) ↔ Room p s (setBufSize i n) := by
  have hbind : exec p s (setBufSize i n) = (s.growOn p i n).bind .done := by
    show s.growOn p i n = _
    cases s.growOn p i n <;> rfl
  rw [hbind, meets_grow_iff hs hw hi hn hno]
  · exact ⟨fun h => ⟨hn, h⟩, fun h => h.2⟩
  · intro s₁ v₁ hsets hresized _
    exact ⟨s₁, rfl, Iff.rfl, v, v₁, hi, hresized, hsets.values⟩

/-- **`Load`.** It makes the buffer as large as the source and writes from its start, so it is right
just where `Grow` is. -/
theorem load_iff (hs : s.Counted) (hw : s.WellSized) (hi : Live s.values i v)
    (hn : src.length < 0x100000000) (hno : ¬Memory.Refuses p s i src.length) :
    (load i src).Meets s (exec p s (load i src)) ↔ Room p s (load i src) := by
  refine (meets_grow_iff hs hw hi hn hno ?_).trans ⟨fun h => ⟨hn, h⟩, fun h => h.2⟩
  intro s₁ v₁ hsets hresized howns
  by_cases hsrc : src.length > 0
  · obtain ⟨s₂, hput, hsets₂, hsized⟩ := Memory.put_sets 0 src hsets.counted (hsets.live hi)
      (fun _ => howns (.inl hsrc)) (by rw [hresized.1]; omega)
    rw [overwrite_all hresized.1] at hsets₂
    exact ⟨s₂, (if_pos hsrc).trans hput, hsized, (hsets.trans hsets₂).values⟩
  · obtain rfl : src = [] := List.length_eq_zero_iff.1 (by omega)
    obtain rfl : v₁ = [] := List.length_eq_zero_iff.1 hresized.1
    exact ⟨s₁, if_neg hsrc, Iff.rfl, hsets.values⟩

/-- **`SetAt`**, where the index and one do not wrap around. A buffer that is too short grows by as
much as is missing, and the byte is then inside of it. -/
theorem setAt_iff (hs : s.Counted) (hw : s.WellSized) (hi : Live s.values i v) {b : UInt8}
    (hv : v.length < 0x100000000) (hn : n + 1 < 0x100000000)
    (hno : ¬Memory.Refuses p s i (max v.length (n + 1))) :
    (setAt i n b).Meets s (exec p s (setAt i n b)) ↔ Room p s (setAt i n b) := by
  have hsize := (Memory.getBytes_eq hs hi).1
  have hrequest : (if n ≥ s.getBufSize i then toDWORD (n + 1) else s.getBufSize i) =
      max v.length (n + 1) := by
    rw [hsize, Memory.toDWORD_eq hn]
    split_ifs <;> omega
  have hroom : Room p s (setAt i n b) ↔ (s.reallocates i (max v.length (n + 1)) = true →
      max v.length (n + 1) + ALLOC_INCR_DEFAULT < 0x100000000 ∧
        max v.length (n + 1) + sizeofCBufferData ≤
          p.sizeT (max v.length (n + 1) + sizeofCBufferData + ALLOC_INCR_DEFAULT)) := by
    unfold Room request object
    dsimp only
    rw [hsize]
    exact ⟨fun h => h.2, fun h => ⟨by omega, h⟩⟩
  unfold exec
  dsimp only
  rw [hrequest, hroom, meets_grow_iff hs hw hi (by omega) hno]
  intro s₁ v₁ hsets hresized howns
  have hown := howns (.inl (by omega))
  obtain ⟨s₂, hput, hsets₂, hsized⟩ := Memory.put_sets n [b] hsets.counted (hsets.live hi)
    (fun _ => hown) (by rw [hresized.1, List.length_singleton]; omega)
  rw [overwrite_singleton (by rw [hresized.1]; omega)] at hsets₂
  refine ⟨s₂, (if_neg (pData_of_owns hown)).trans hput, hsized, v, v₁, hi, hresized, ?_⟩
  exact (hsets.trans hsets₂).values

/-- **`SetAt`**, where they do: the index is written, and there is no byte. The index is 2^32 - 1,
so the new size is zero, and the byte is written behind it. -/
theorem setAt_wraps (hs : s.Counted) (hw : s.WellSized) (hi : Live s.values i v) {b : UInt8}
    (hv : v.length < 0x100000000) (hn : n + 1 = 0x100000000) (hdata : s.pData i ≠ none)
    (hno : ¬Memory.Refuses p s i 0) : ¬(setAt i n b).Meets s (exec p s (setAt i n b)) := by
  have hrequest : (if n ≥ s.getBufSize i then toDWORD (n + 1) else s.getBufSize i) = 0 := by
    rw [(Memory.getBytes_eq hs hi).1, if_pos (by omega), hn]
    rfl
  unfold exec
  dsimp only
  rw [hrequest]
  refine not_meets_grow hs hw hi (by decide) hno ?_
  intro s₁ v₁ hsets hresized howns
  rw [if_neg (pData_of_owns (howns (.inr hdata))), Memory.put_overrun hsets.counted (hsets.live hi)
    (List.cons_ne_nil b []) (by rw [hresized.1, List.length_singleton]; omega)]
  exact fun h => h

/-- **`Append`**, where the sum of the sizes does not wrap around. It makes the buffer larger by the
source and writes to the old end, which has room for it. -/
theorem append_iff (hs : s.Counted) (hw : s.WellSized) (hi : Live s.values i v)
    (hn : v.length + src.length < 0x100000000)
    (hno : ¬Memory.Refuses p s i (v.length + src.length)) :
    (append i src).Meets s (exec p s (append i src)) ↔ Room p s (append i src) := by
  have hsize := (Memory.getBytes_eq hs hi).1
  have hroom : Room p s (append i src) ↔ (s.reallocates i (v.length + src.length) = true →
      v.length + src.length + ALLOC_INCR_DEFAULT < 0x100000000 ∧
        v.length + src.length + sizeofCBufferData ≤
          p.sizeT (v.length + src.length + sizeofCBufferData + ALLOC_INCR_DEFAULT)) := by
    unfold Room request object
    dsimp only
    rw [hsize]
    exact ⟨fun h => h.2, fun h => ⟨hn, h⟩⟩
  unfold exec
  dsimp only
  rw [hsize, Nat.add_comm src.length, Memory.toDWORD_eq hn, hroom, meets_grow_iff hs hw hi hn hno]
  intro s₁ v₁ hsets hresized howns
  have hsize₁ : s₁.getBufSize i = v.length + src.length :=
    (Memory.getBytes_eq hsets.counted (hsets.live hi)).1.trans hresized.1
  rw [hsize₁]
  by_cases hpos : v.length + src.length > 0
  · obtain ⟨s₂, hput, hsets₂, hsized⟩ := Memory.put_sets v.length src hsets.counted
      (hsets.live hi) (fun _ => howns (.inl hpos)) (Nat.le_of_eq hresized.1.symm)
    rw [overwrite_end hresized.1, hresized.take_of_le (by omega)] at hsets₂
    exact ⟨s₂, (if_pos hpos).trans hput, hsized, v, hi, (hsets.trans hsets₂).values⟩
  · obtain rfl : src = [] := List.length_eq_zero_iff.1 (by omega)
    obtain rfl : v = [] := List.length_eq_zero_iff.1 (by omega)
    obtain rfl : v₁ = [] := List.length_eq_zero_iff.1 hresized.1
    exact ⟨s₁, if_neg hpos, Iff.rfl, [], hi, hsets.values⟩

/-- **`Append`**, where the sum wraps around: what is written is behind the contents, or nothing is left. -/
theorem append_wraps (hs : s.Counted) (hw : s.WellSized) (hi : Live s.values i v)
    (hv : v.length < 0x100000000) (hsrc : src.length < 0x100000000)
    (hn : 0x100000000 ≤ v.length + src.length)
    (hno : ¬Memory.Refuses p s i (toDWORD (v.length + src.length))) :
    ¬(append i src).Meets s (exec p s (append i src)) := by
  have hless : toDWORD (v.length + src.length) < 0x100000000 := Nat.mod_lt _ (by decide)
  have hwrap : toDWORD (v.length + src.length) < v.length := by
    unfold toDWORD
    omega
  unfold exec
  dsimp only
  rw [(Memory.getBytes_eq hs hi).1, Nat.add_comm src.length]
  refine not_meets_grow hs hw hi hless hno ?_
  intro s₁ v₁ hsets hresized _ hmeets
  have hsize₁ : s₁.getBufSize i = toDWORD (v.length + src.length) :=
    (Memory.getBytes_eq hsets.counted (hsets.live hi)).1.trans hresized.1
  rw [hsize₁] at hmeets
  by_cases hpos : toDWORD (v.length + src.length) > 0
  · rw [if_pos hpos, Memory.put_overrun hsets.counted (hsets.live hi)
      (List.length_pos_iff.1 (by omega)) (by rw [hresized.1]; omega)] at hmeets
    exact hmeets
  · rw [if_neg hpos] at hmeets
    obtain ⟨v', hi', hvalues⟩ := hmeets.2
    obtain rfl := hi.unique hi'
    have hlive : Live s₁.values i (v ++ src) := hvalues ▸ hi.set _
    have hlength := congrArg List.length (hlive.unique (hsets.live hi))
    rw [List.length_append, hresized.1] at hlength
    omega

/-- **`+=`** with another object, where the sum of the sizes does not wrap around. It is `Append`
with the contents of the other object, which `Grow` does not touch. -/
theorem appendBuffer_iff (hs : s.Counted) (hw : s.WellSized) (hi : Live s.values i v)
    (hj : Live s.values j w) (hij : i ≠ j) (hpos : w.length ≠ 0)
    (hn : v.length + w.length < 0x100000000)
    (hno : ¬Memory.Refuses p s i (v.length + w.length)) :
    (appendBuffer i j).Meets s (exec p s (appendBuffer i j)) ↔ Room p s (appendBuffer i j) := by
  have hsizei := (Memory.getBytes_eq hs hi).1
  have hsizej := (Memory.getBytes_eq hs hj).1
  have hroom : Room p s (appendBuffer i j) ↔ (s.reallocates i (v.length + w.length) = true →
      v.length + w.length + ALLOC_INCR_DEFAULT < 0x100000000 ∧
        v.length + w.length + sizeofCBufferData ≤
          p.sizeT (v.length + w.length + sizeofCBufferData + ALLOC_INCR_DEFAULT)) := by
    unfold Room request object
    dsimp only
    rw [hsizei, hsizej]
    exact ⟨fun h => h.2, fun h => ⟨hn, h⟩⟩
  unfold exec
  dsimp only
  rw [hsizei, hsizej, if_neg hpos, Memory.toDWORD_eq hn, hroom, meets_grow_iff hs hw hi hn hno]
  intro s₁ v₁ hsets hresized howns
  have hown := howns (.inl (by omega))
  have hbytes := (Memory.getBytes_eq hsets.counted (hsets.live_ne hj hij)).2
  rw [hbytes, if_neg (pData_of_owns hown)]
  obtain ⟨s₂, hput, hsets₂, hsized⟩ := Memory.put_sets v.length w hsets.counted
    (hsets.live hi) (fun _ => hown) (Nat.le_of_eq hresized.1.symm)
  rw [overwrite_end hresized.1, hresized.take_of_le (by omega)] at hsets₂
  exact ⟨s₂, hput, hsized, v, w, hi, hj, (hsets.trans hsets₂).values⟩

/-- **`+=`**, where the sum wraps around or the buffer is appended to itself. A buffer that is
appended to itself has its new size already when its bytes are copied. -/
theorem appendBuffer_wraps (hs : s.Counted) (hw : s.WellSized) (hi : Live s.values i v)
    (hj : Live s.values j w) (hpos : w.length ≠ 0) (hv : v.length < 0x100000000)
    (hw' : w.length < 0x100000000)
    (hn : i = j ∨ 0x100000000 ≤ v.length + w.length)
    (hno : ¬Memory.Refuses p s i (toDWORD (v.length + w.length))) :
    ¬(appendBuffer i j).Meets s (exec p s (appendBuffer i j)) := by
  have hless : toDWORD (v.length + w.length) < 0x100000000 := Nat.mod_lt _ (by decide)
  have hvpos : 0 < v.length := by
    rcases hn with rfl | hn
    · obtain rfl := hi.unique hj
      omega
    · omega
  have hdata : s.pData i ≠ none := by
    obtain ⟨id, b, hslot, -⟩ := Memory.block_of_size hs hi (Nat.ne_of_gt hvpos)
    rw [Memory.pData_of_slot hslot]
    exact Option.some_ne_none id
  unfold exec
  dsimp only
  rw [(Memory.getBytes_eq hs hi).1, (Memory.getBytes_eq hs hj).1, if_neg hpos]
  refine not_meets_grow hs hw hi hless hno ?_
  intro s₁ v₁ hsets hresized howns hmeets
  rw [if_neg (pData_of_owns (howns (.inr hdata)))] at hmeets
  have hlive₁ := hsets.live hi
  -- what is copied: the contents of the other one, or what the buffer itself has got
  have hcopied : ∃ q, s₁.getBytes j = q ∧ (q = [] ∨ v₁.length < v.length + q.length) ∧
      (q = [] → v₁ = [] ∧ 0x100000000 ≤ v.length + w.length) := by
    by_cases hij : i = j
    · subst hij
      obtain rfl := hi.unique hj
      refine ⟨v₁, (Memory.getBytes_eq hsets.counted hlive₁).2, .inr (by omega), ?_⟩
      rintro rfl
      refine ⟨rfl, ?_⟩
      have hzero : toDWORD (v.length + v.length) = 0 := hresized.1.symm
      unfold toDWORD at hzero
      omega
    · have hsum := hn.resolve_left hij
      refine ⟨w, (Memory.getBytes_eq hsets.counted (hsets.live_ne hj hij)).2, .inr ?_, ?_⟩
      · rw [hresized.1]
        unfold toDWORD
        omega
      · rintro rfl
        exact absurd rfl hpos
  obtain ⟨q, hq, hlong, hempty⟩ := hcopied
  rw [hq] at hmeets
  by_cases hqe : q = []
  · obtain ⟨rfl, hsum⟩ := hempty hqe
    rw [hqe] at hmeets
    obtain ⟨v', w', hi', hj', hvalues⟩ := hmeets.2
    obtain rfl := hi.unique hi'
    obtain rfl := hj.unique hj'
    have hlive : Live s₁.values i (v ++ w) := hvalues ▸ hi.set _
    have hlength := congrArg List.length (hlive.unique hlive₁)
    rw [List.length_append, List.length_nil] at hlength
    omega
  · rw [Memory.put_overrun hsets.counted hlive₁ hqe (hlong.resolve_left hqe)] at hmeets
    exact hmeets

/-- An operation that has something to do throws, or is right exactly where there is room. -/
theorem bounded_of_bind
    (hexec : op.exec p s = (s.growOn p op.object (toDWORD (op.request s))).bind f) (hidle : ¬op.Idle s)
    (h : ¬Memory.Refuses p s op.object (toDWORD (op.request s)) →
      (op.Meets s (op.exec p s) ↔ op.Room p s ∧ ¬op.Self)) :
    op.Meets s (op.exec p s) ↔ op.Idle s ∨ op.Refused p s ∨ (op.Room p s ∧ ¬op.Self) := by
  by_cases hno : Memory.Refuses p s op.object (toDWORD (op.request s))
  · refine iff_of_true ?_ (.inr (.inl hno))
    rw [hexec]
    exact meets_of_refuses hno
  · rw [h hno]
    exact ⟨fun h => .inr (.inr h), fun h => (h.resolve_left hidle).resolve_left hno⟩

/-- `SetBufSize`, for every size it can be given. -/
theorem setBufSize_bounded (hs : s.Counted) (hw : s.WellSized) (hi : Live s.values i v) (hn : n < 0x100000000) :
    (setBufSize i n).Meets s (exec p s (setBufSize i n)) ↔
      Idle s (setBufSize i n) ∨ Refused p s (setBufSize i n) ∨
        (Room p s (setBufSize i n) ∧ ¬Self (setBufSize i n)) := by
  refine bounded_of_bind (f := .done) ?_ id fun hno => ?_
  · show s.growOn p i n = (s.growOn p i (toDWORD n)).bind .done
    rw [Memory.toDWORD_eq hn]
    cases s.growOn p i n <;> rfl
  · have hno' : ¬Memory.Refuses p s i (toDWORD n) := hno
    rw [Memory.toDWORD_eq hn] at hno'
    exact (setBufSize_iff hs hw hi hn hno').trans ⟨fun h => ⟨h, id⟩, And.left⟩

/-- `Load`, for every source. -/
theorem load_bounded (hs : s.Counted) (hw : s.WellSized) (hi : Live s.values i v)
    (hn : src.length < 0x100000000) :
    (load i src).Meets s (exec p s (load i src)) ↔
      Idle s (load i src) ∨ Refused p s (load i src) ∨ (Room p s (load i src) ∧ ¬Self (load i src)) := by
  refine bounded_of_bind
    (f := fun s => if src.length > 0 then s.put i 0 src else .done s) ?_ id fun hno => ?_
  · show _ = (s.growOn p i (toDWORD src.length)).bind _
    rw [Memory.toDWORD_eq hn]
    rfl
  · have hno' : ¬Memory.Refuses p s i (toDWORD src.length) := hno
    rw [Memory.toDWORD_eq hn] at hno'
    exact (load_iff hs hw hi hn hno').trans ⟨fun h => ⟨h, id⟩, And.left⟩

/-- `Load` behind the contents, for every source: the sum of the sizes wraps around or it does not. -/
theorem append_bounded (hs : s.Counted) (hw : s.WellSized) (hi : Live s.values i v) (hv : v.length < 0x100000000)
    (hw' : src.length < 0x100000000) :
    (append i src).Meets s (exec p s (append i src)) ↔
      Idle s (append i src) ∨ Refused p s (append i src) ∨ (Room p s (append i src) ∧ ¬Self (append i src)) := by
  have hsize : s.getBufSize i = v.length := (Memory.getBytes_eq hs hi).1
  refine bounded_of_bind (f := fun s' =>
    if s'.getBufSize i > 0 then s'.put i (s.getBufSize i) src else .done s') ?_ id fun hno => ?_
  · show (s.growOn p i (toDWORD (src.length + s.getBufSize i))).bind _ = _
    rw [Nat.add_comm src.length]
    rfl
  · have hno' : ¬Memory.Refuses p s i (toDWORD (s.getBufSize i + src.length)) := hno
    rw [hsize] at hno'
    by_cases hsum : v.length + src.length < 0x100000000
    · rw [Memory.toDWORD_eq hsum] at hno'
      exact (append_iff hs hw hi hsum hno').trans ⟨fun h => ⟨h, id⟩, And.left⟩
    · refine iff_of_false (append_wraps hs hw hi hv hw' (Nat.le_of_not_lt hsum) hno') fun h => ?_
      have hroom : s.getBufSize i + src.length < 0x100000000 := h.1.1
      omega

/-- `SetAt`, for every index: the last one of all asks for a buffer of no size. -/
theorem setAt_bounded (hs : s.Counted) (hw : s.WellSized) (hi : Live s.values i v) {b : UInt8}
    (hv : v.length < 0x100000000) (hn : n < 0x100000000) :
    (setAt i n b).Meets s (exec p s (setAt i n b)) ↔
      Idle s (setAt i n b) ∨ Refused p s (setAt i n b) ∨ (Room p s (setAt i n b) ∧ ¬Self (setAt i n b)) := by
  have hsize : s.getBufSize i = v.length := (Memory.getBytes_eq hs hi).1
  have hrequest : (if n ≥ s.getBufSize i then toDWORD (n + 1) else s.getBufSize i) =
      toDWORD (max (s.getBufSize i) (n + 1)) := by
    rw [hsize]
    unfold toDWORD
    split_ifs <;> omega
  by_cases hidle : n + 1 = 0x100000000 ∧ s.pData i = none
  · refine iff_of_true ?_ (.inl hidle)
    have hthrown : exec p s (.setAt i n b) = .thrown s := by
      have hzero : toDWORD (max (s.getBufSize i) (n + 1)) = 0 := by
        rw [hsize]
        unfold toDWORD
        omega
      unfold exec
      dsimp only
      rw [hrequest, hzero]
      have hnothing : s.growOn p i 0 = .thrown s ∨ s.growOn p i 0 = .done s :=
        Memory.growOn_nothing hs hi hidle.2
      rcases hnothing with h | h
      · rw [h]
        rfl
      · rw [h]
        exact if_pos hidle.2
    rw [hthrown]
    exact rfl
  refine bounded_of_bind (f := fun s =>
    if s.pData i = none then .thrown s else s.put i n [b]) ?_ hidle fun hno => ?_
  · show (s.growOn p i (if n ≥ s.getBufSize i then toDWORD (n + 1) else s.getBufSize i)).bind _ = _
    rw [hrequest]
    rfl
  · have hno' : ¬Memory.Refuses p s i (toDWORD (max (s.getBufSize i) (n + 1))) := hno
    rw [hsize] at hno'
    by_cases hwrap : n + 1 < 0x100000000
    · rw [Memory.toDWORD_eq (by omega)] at hno'
      exact (setAt_iff hs hw hi hv hwrap hno').trans ⟨fun h => ⟨h, id⟩, And.left⟩
    · have hend : n + 1 = 0x100000000 := by omega
      have hzero : toDWORD (max v.length (n + 1)) = 0 := by
        unfold toDWORD
        omega
      rw [hzero] at hno'
      refine iff_of_false (setAt_wraps hs hw hi hv hend (fun h => hidle ⟨hend, h⟩) hno') fun h => ?_
      have hroom : max (s.getBufSize i) (n + 1) < 0x100000000 := h.1.1
      omega

/-- `+=`, for every other object and for the buffer itself. -/
theorem appendBuffer_bounded (hs : s.Counted) (hw : s.WellSized) (hi : Live s.values i v)
    (hj : Live s.values j w) (hv : v.length < 0x100000000) (hw' : w.length < 0x100000000) :
    (appendBuffer i j).Meets s (exec p s (appendBuffer i j)) ↔
      Idle s (appendBuffer i j) ∨ Refused p s (appendBuffer i j) ∨
        (Room p s (appendBuffer i j) ∧ ¬Self (appendBuffer i j)) := by
  have hsize : s.getBufSize i = v.length := (Memory.getBytes_eq hs hi).1
  have hsizej : s.getBufSize j = w.length := (Memory.getBytes_eq hs hj).1
  by_cases hidle : s.getBufSize j = 0
  · refine iff_of_true ?_ (.inl hidle)
    have hdone : exec p s (.appendBuffer i j) = .done s := if_pos hidle
    obtain rfl : w = [] := List.length_eq_zero_iff.1 (hsizej.symm.trans hidle)
    rw [hdone]
    refine ⟨hw, v, [], hi, hj, ?_⟩
    rw [List.append_nil]
    exact (Live.set_self hi).symm
  refine bounded_of_bind (f := fun s' =>
    if s'.pData i = none then .thrown s' else s'.put i (s.getBufSize i) (s'.getBytes j)) ?_ hidle
    fun hno => ?_
  · exact if_neg hidle
  · have hno' : ¬Memory.Refuses p s i (toDWORD (s.getBufSize i + s.getBufSize j)) := hno
    rw [hsize, hsizej] at hno'
    rw [hsizej] at hidle
    by_cases hgood : i ≠ j ∧ v.length + w.length < 0x100000000
    · rw [Memory.toDWORD_eq hgood.2] at hno'
      exact (appendBuffer_iff hs hw hi hj hgood.1 hidle hgood.2 hno').trans
        ⟨fun h => ⟨h, hgood.1⟩, And.left⟩
    · have hbad : i = j ∨ 0x100000000 ≤ v.length + w.length := by
        by_cases hij : i = j
        · exact .inl hij
        · exact .inr (Nat.le_of_not_lt fun h => hgood ⟨hij, h⟩)
      refine iff_of_false (appendBuffer_wraps hs hw hi hj hidle hv hw' hbad hno') fun h => ?_
      have hroom : s.getBufSize i + s.getBufSize j < 0x100000000 := h.1.1
      exact hgood ⟨h.2, by omega⟩

end SizeOp

/-- **A buffer stays inside its allocation**: an operation throws and leaves the contents, or keeps the
sizes right, writes only to the contents and gives what it should, exactly where it throws, has nothing to do,
or has room and does not append a buffer to itself. -/
theorem bounded (p : Platform) (hs : s.Counted) (hw : s.WellSized) {op : SizeOp} (hok : op.Ok s.values) :
    op.Meets s (op.exec p s) ↔ op.Idle s ∨ op.Refused p s ∨ (op.Room p s ∧ ¬op.Self) := by
  obtain ⟨⟨v, hi, hv⟩, hargs⟩ := hok
  cases op with
  | setBufSize i n => exact SizeOp.setBufSize_bounded hs hw hi hargs
  | load i src => exact SizeOp.load_bounded hs hw hi hargs
  | append i src => exact SizeOp.append_bounded hs hw hi hv hargs
  | setAt i n b => exact SizeOp.setAt_bounded hs hw hi hv hargs
  | appendBuffer i j =>
      obtain ⟨w, hj, hw'⟩ := hargs
      exact SizeOp.appendBuffer_bounded hs hw hi hj hv hw'

/-- Two bytes, loaded into an empty buffer. The block is new and has the increment behind the bytes,
so nothing is written outside of it. -/
theorem bounded_load :
    ∃ s', SizeOp.exec ⟨64, true⟩ { slots := [some none] } (.load 0 [1, 2]) = .done s' ∧
      s'.values = [some [1, 2]] := by
  have hs : Memory.Counted { slots := [some none] } :=
    ⟨fun _ => by simp [Shared.sharers], fun h => absurd h (by simp), fun _ _ => rfl⟩
  have hw : Memory.WellSized { slots := [some none] } := fun _ _ h => absurd h (by simp)
  have hok : (SizeOp.load 0 [1, 2]).Ok (Memory.values { slots := [some none] }) :=
    ⟨⟨[], rfl, by decide⟩, (by decide : [1, 2].length < 0x100000000)⟩
  have hroom : (SizeOp.load 0 [1, 2]).Room ⟨64, true⟩ { slots := [some none] } :=
    ⟨(by decide : [1, 2].length < 0x100000000), fun h => absurd h Bool.false_ne_true⟩
  have hmeets := (bounded ⟨64, true⟩ hs hw hok).2 (.inr (.inr ⟨hroom, id⟩))
  obtain ⟨s', hexec⟩ :
      ∃ s', SizeOp.exec ⟨64, true⟩ { slots := [some none] } (.load 0 [1, 2]) = .done s' := ⟨_, rfl⟩
  rw [hexec] at hmeets
  exact ⟨s', hexec, hmeets.2⟩

/-- **A buffer that is appended to itself**: its new size is copied, behind its old end. A buffer of
one byte grows to two, and two bytes are copied to the second one on. -/
theorem append_self_overruns : ∃ s : Memory, system.ReachableBy (fun s op => op.Ok s.values) s ∧
    s.values = [some [1]] ∧ SizeOp.exec ⟨64, true⟩ s (.appendBuffer 0 0) = .overrun := by
  refine ⟨_, .step (a := .constructFrom [1]) (.init rfl) ?_ rfl, rfl, rfl⟩
  exact (by decide : [1].length < 0x100000000)

end Buffer
end ECSUtil

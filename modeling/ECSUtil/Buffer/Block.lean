/-
# Buffers

`CBuffer` (`ECSUtil/cbuffer.cpp`, `ECSUtil/cbuffer.h`): `Grow` and the operations over it.  Every
object is a slot and every block of `CBufferData` a cell (`Memory`); `m_nRefs` counts the objects
that share a block, -1 where it is locked.  A `SIZE_T` has 64 bits.

An operation is `none` where it would use memory that is not there: no block, or bytes behind its
end.

The names are those of the source.  `grow` leaves a block that others share, with a copy where it is
not to be emptied, and otherwise frees, resizes or reallocates it; the operations call it with the
size that they need and then put their bytes there.
-/

import Mathlib.Data.Int.Notation
import ECSUtil.Conn.Stream
import ECSUtil.Lib.Sharing
import ECSUtil.Lib.Slice

namespace ECSUtil
namespace Buffer

/-- `ALLOC_INCR_DEFAULT`. -/
def ALLOC_INCR_DEFAULT : ℕ := 100

/-- A `DWORD`. -/
def toDWORD (n : ℕ) : ℕ := n % 0x100000000

/-- `CBufferData`, and the bytes behind it. -/
structure CBufferData where
  m_nSize : ℕ
  m_nAllocSize : ℕ
  m_nRefs : ℤ
  data : Bytes
  size_le : m_nSize ≤ data.length
  alloc_le : m_nAllocSize ≤ data.length

namespace CBufferData

/-- `CreateBuffer`. -/
def createBuffer (nNewSize : ℕ) : CBufferData where
  m_nSize := nNewSize
  m_nAllocSize := nNewSize
  m_nRefs := 1
  data := List.replicate nNewSize 0
  size_le := by simp
  alloc_le := by simp

/-- A new block has as many bytes as were asked for. -/
theorem length_createBuffer (n : ℕ) : (createBuffer n).data.length = n := List.length_replicate

/-- As many bytes as both blocks have fit the new one. -/
theorem take_le_createBuffer (m n : ℕ) (data : Bytes) :
    0 + (data.take (min m n)).length ≤ (createBuffer n).data.length := by
  rw [length_createBuffer, Nat.zero_add]
  exact Nat.le_trans (List.length_take_le _ _) (Nat.min_le_right m n)

/-- `memcpy`: bytes are put into the block, where it is long enough. -/
def copy (b : CBufferData) (i : ℕ) (src : Bytes) (h : i + src.length ≤ b.data.length) :
    CBufferData :=
  { b with
    data := overwrite b.data i src
    size_le := by
      have := b.size_le
      rwa [length_overwrite h]
    alloc_le := by
      have := b.alloc_le
      rwa [length_overwrite h] }

/-- `HeapReAlloc`, with the new sizes. -/
def reAlloc (b : CBufferData) (nNewSize : ℕ) : CBufferData where
  m_nSize := nNewSize
  m_nAllocSize := toDWORD (nNewSize + ALLOC_INCR_DEFAULT)
  m_nRefs := b.m_nRefs
  data := b.data.take (nNewSize + ALLOC_INCR_DEFAULT) ++
    List.replicate (nNewSize + ALLOC_INCR_DEFAULT - b.data.length) 0
  size_le := by
    simp only [List.length_append, List.length_take, List.length_replicate]
    omega
  alloc_le := by
    have := Nat.mod_le (nNewSize + ALLOC_INCR_DEFAULT) 0x100000000
    simp only [toDWORD, List.length_append, List.length_take, List.length_replicate]
    omega

/-- The block keeps its bytes, and has another size. -/
def resize (b : CBufferData) (nNewSize : ℕ) (h : nNewSize ≤ b.m_nAllocSize) : CBufferData :=
  { b with m_nSize := nNewSize, size_le := Nat.le_trans h b.alloc_le }

/-- `m_nRefs` is set. -/
def setRefs (b : CBufferData) (n : ℤ) : CBufferData := { b with m_nRefs := n }

/-- The contents of the block. -/
def bytes (b : CBufferData) : Bytes := b.data.take b.m_nSize

/-- How many objects share the block: a locked one belongs to one. -/
def refs (b : CBufferData) : ℕ := if b.m_nRefs = -1 then 1 else b.m_nRefs.toNat

end CBufferData

/-- The blocks, and the objects: `none` for one that was destroyed, `some m_pData` otherwise. -/
abbrev Memory := Shared CBufferData

namespace Memory

/-- `GetInternalData` of a `m_pData`; `none` also where there is no such block. -/
def internalData (s : Memory) (m_pData : Option ℕ) : Option CBufferData := m_pData.bind s.cell

/-- The object lets its block go, which is deallocated when the count has gone to zero. -/
def release (s : Memory) (i id : ℕ) (pInfo : CBufferData) : Memory :=
  if pInfo.m_nRefs - 1 ≤ 0 then (s.setCell id none).setSlot i (some none)
  else (s.setCell id (some (pInfo.setRefs (pInfo.m_nRefs - 1)))).setSlot i (some none)

/-- `Grow`: a block that others share is left, with a copy where it is not to be emptied.  Otherwise
it is freed, resized or reallocated. -/
def grow (s : Memory) (i nNewSize : ℕ) (bForce bEmpty : Bool) : Option Memory :=
  match s.slots[i]? with
  | some (some none) =>
      if bEmpty ∨ nNewSize = 0 then some s
      else some (s.alloc i (.createBuffer nNewSize))
  | some (some (some id)) =>
      match s.cell id with
      | none => none
      | some pInfo =>
          if pInfo.m_nRefs > 1 then
            if bEmpty then some (s.release i id pInfo)
            else
              some ((s.release i id pInfo).alloc i
                ((CBufferData.createBuffer nNewSize).copy 0
                  (pInfo.data.take (min pInfo.m_nSize nNewSize))
                  (CBufferData.take_le_createBuffer _ _ _)))
          else if bEmpty then some ((s.setCell id none).setSlot i (some none))
          else if h : bForce = false ∧ nNewSize ≤ pInfo.m_nAllocSize then
            some (s.setCell id (some (pInfo.resize nNewSize h.2)))
          else if nNewSize = 0 then some ((s.setCell id none).setSlot i (some none))
          else some (s.setCell id (some (pInfo.reAlloc nNewSize)))
  | _ => none

/-- `memcpy` to the block of an object. -/
def copyTo (s : Memory) (i nIndex : ℕ) (src : Bytes) : Option Memory :=
  match s.slots[i]? with
  | some (some (some id)) =>
      match s.cell id with
      | none => none
      | some b =>
          if h : nIndex + src.length ≤ b.data.length then
            some (s.setCell id (some (b.copy nIndex src h)))
          else none
  | _ => none

/-- `m_pData` of an object. -/
def pData (s : Memory) (i : ℕ) : Option ℕ := (s.slots[i]?.join).join

/-- `GetBufSize`. -/
def getBufSize (s : Memory) (i : ℕ) : ℕ := ((s.internalData (s.pData i)).map (·.m_nSize)).getD 0

/-- `m_nRefs` of the block of an object. -/
def getRefs (s : Memory) (i : ℕ) : Option ℤ := (s.internalData (s.pData i)).map (·.m_nRefs)

/-- The bytes of an object, for `memcpy`. -/
def getBytes (s : Memory) (i : ℕ) : Bytes := ((s.internalData (s.pData i)).map (·.bytes)).getD []

/-- `SetBufSize`. -/
def setBufSize (s : Memory) (i nNewSize : ℕ) : Option Memory := s.grow i nNewSize false false

/-- `Empty`. -/
def empty (s : Memory) (i : ℕ) : Option Memory := s.grow i 0 false true

/-- `m_nRefs` of the block of an object is set. -/
def setRefs (s : Memory) (i : ℕ) (f : ℤ → ℤ) : Option Memory :=
  match s.pData i with
  | none => none
  | some id => (s.cell id).map fun b => s.setCell id (some (b.setRefs (f b.m_nRefs)))

/-- `Lock`. -/
def lock (s : Memory) (i : ℕ) : Option Memory :=
  if s.pData i = none then some s
  else (s.grow i (s.getBufSize i) false false).bind fun s => s.setRefs i fun _ => -1

/-- `Unlock`. -/
def unlock (s : Memory) (i : ℕ) : Option Memory :=
  if s.pData i = none then some s
  else s.setRefs i fun n => if n = -1 then 1 else n

/-- `SetAt`. -/
def setAt (s : Memory) (i nIndex : ℕ) (newElement : UInt8) : Option Memory :=
  let nSize := s.getBufSize i
  (s.grow i (if nIndex ≥ nSize then toDWORD (nIndex + 1) else nSize) false false).bind fun s =>
    s.copyTo i nIndex [newElement]

/-- The object shares the block of another one. -/
def share (s : Memory) (i j : ℕ) : Option Memory :=
  match s.pData j with
  | none => none
  | some id =>
      (s.cell id).map fun b =>
        (s.setCell id (some (b.setRefs (b.m_nRefs + 1)))).setSlot i (some (some id))

/-- `operator =`. -/
def assign (s : Memory) (i j : ℕ) : Option Memory :=
  if j = i then some s
  else if s.getBufSize j = 0 then s.empty i
  else if s.getRefs j = some (-1) ∨ s.getRefs i = some (-1) then
    (s.grow i (s.getBufSize j) false false).bind fun s' => s'.copyTo i 0 (s'.getBytes j)
  else if s.pData i ≠ s.pData j then (s.empty i).bind fun s => s.share i j
  else some s

/-- `operator +=`. -/
def appendBuffer (s : Memory) (i j : ℕ) : Option Memory :=
  if s.getBufSize j = 0 then some s
  else
    let OldSize := s.getBufSize i
    (s.grow i (toDWORD (OldSize + s.getBufSize j)) false false).bind fun s =>
      s.copyTo i OldSize (s.getBytes j)

/-- The copy constructor, of the object that was made last. -/
def copyLast (s : Memory) (j : ℕ) : Option Memory :=
  let i := s.slots.length
  let s₀ : Memory := s.push
  if s.getBufSize j = 0 then some s₀
  else if s.getRefs j = some (-1) then
    (s₀.grow i (s.getBufSize j) false false).bind fun s' => s'.copyTo i 0 (s'.getBytes j)
  else s₀.share i j

/-- `FreeExtra`. -/
def freeExtra (s : Memory) (i : ℕ) : Option Memory := s.grow i (s.getBufSize i) true false

/-- `Load`. -/
def load (s : Memory) (i : ℕ) (src : Bytes) : Option Memory :=
  (s.grow i src.length false false).bind fun s =>
    if src.length > 0 then s.copyTo i 0 src else some s

/-- `Append`. -/
def append (s : Memory) (i : ℕ) (src : Bytes) : Option Memory :=
  let nOrigSize := s.getBufSize i
  (s.grow i (toDWORD (src.length + nOrigSize)) false false).bind fun s =>
    if s.getBufSize i > 0 then s.copyTo i nOrigSize src else some s

/-- A byte is written through the pointer that `GetData` returns. -/
def writeData (s : Memory) (i nIndex : ℕ) (b : UInt8) : Option Memory :=
  if s.pData i = none then none
  else (s.grow i (s.getBufSize i) false false).bind fun s => s.copyTo i nIndex [b]

end Memory

end Buffer
end ECSUtil

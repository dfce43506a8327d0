/-
# A stream over a buffer

`CBufferStream` (`ECSUtil/XmlLiteUtil.h`): `Read`, `Write` and `Seek`.  The position has 64 bits, of
which the code uses the lower half; the buffer is an object of a memory with others (`Memory`).

`ByteStream` is what such a stream is for: bytes that grow, and a position.  A stream over a buffer is one
as long as its calls stay below the limits of a `DWORD` and no write goes past the end over bytes that
the buffer had before it was made smaller (`stream_is_bytes`).

`Represents` connects the two: the stream is these bytes, in one object of a memory that holds other
values otherwise.  Each call has a lemma that it keeps this and answers as the reference does
(`read_spec`, `write_spec`, `seek_spec`, `call_spec`), and the stream with its calls refines the
reference by them.
-/

import ECSUtil.Buffer.Slack
import ECSUtil.Conn.Error
import ECSUtil.Lib.Responder
import Mathlib.Algebra.Group.Int.Defs

namespace ECSUtil
namespace Buffer

def E_ACCESSDENIED : DWORD := 0x80070005

def STG_E_INVALIDFUNCTION : DWORD := 0x80030001

def STREAM_SEEK_SET : ℕ := 0

def STREAM_SEEK_CUR : ℕ := 1

def STREAM_SEEK_END : ℕ := 2

/-- The calls of a stream. -/
inductive Call
  | read (cb : ℕ)
  | write (pv : Bytes)
  | seek (liDistanceToMove : ℤ) (dwOrigin : ℕ)
  deriving DecidableEq, Repr

/-- What a call answers: the bytes, how many were written, the new position or an error. -/
inductive Answer
  | read (pv : Bytes)
  | written (cb : ℕ)
  | moved (liPosition : ℕ)
  | failed (hr : DWORD)
  deriving DecidableEq, Repr

/-- **Bytes that grow, with a position** of 64 bits. -/
structure ByteStream where
  bytes : Bytes
  position : ℕ := 0
  readOnly : Bool := false
  deriving DecidableEq, Repr

namespace ByteStream

/-- The bytes with others at a position, behind zeros where they do not go that far. -/
def put (v : Bytes) (position : ℕ) (pv : Bytes) : Bytes :=
  overwrite (v ++ List.replicate (position - v.length) 0) position pv

/-- Where a distance is counted from. -/
def origin (r : ByteStream) (dwOrigin : ℕ) : Option ℕ :=
  if dwOrigin = STREAM_SEEK_SET then some 0
  else if dwOrigin = STREAM_SEEK_CUR then some r.position
  else if dwOrigin = STREAM_SEEK_END then some r.bytes.length
  else none

/-- What a call does. -/
def call (r : ByteStream) : Call → Answer × ByteStream
  | .read cb =>
      (.read (slice r.bytes r.position cb),
        { r with position := r.position + (slice r.bytes r.position cb).length })
  | .write pv =>
      if r.readOnly then (.failed E_ACCESSDENIED, r)
      else
        (.written pv.length,
          { r with bytes := put r.bytes r.position pv, position := r.position + pv.length })
  | .seek d dwOrigin =>
      match r.origin dwOrigin with
      | none => (.failed STG_E_INVALIDFUNCTION, r)
      | some start =>
          if 0 ≤ start + d ∧ start + d < 2 ^ 64 then
            (.moved (start + d).toNat, { r with position := (start + d).toNat })
          else (.failed STG_E_INVALIDFUNCTION, r)

end ByteStream

namespace Memory

/-- `GetData`: a block that others share is left. -/
def getData (s : Memory) (i : ℕ) : Option Memory :=
  if s.pData i = none then some s else s.grow i (s.getBufSize i) false false

/-- `memcpy` to what `GetData` points to; no memory is used for no bytes. -/
def putData (s : Memory) (i nIndex : ℕ) (pv : Bytes) : Option Memory :=
  (s.getData i).bind fun s => if pv = [] then some s else s.copyTo i nIndex pv

end Memory

/-- `CBufferStream`, with the memory its buffer is in. -/
structure CBufferStream where
  memory : Memory
  _pBuf : ℕ
  _liPosition : ℕ := 0
  bReadOnly : Bool := false

namespace CBufferStream

/-- `(DWORD)_liPosition.QuadPart`. -/
def position (st : CBufferStream) : ℕ := toDWORD st._liPosition

/-- `_pBuf->GetBufSize()`. -/
def bufSize (st : CBufferStream) : ℕ := st.memory.getBufSize st._pBuf

/-- `Read`. -/
def read (st : CBufferStream) (cb : ℕ) : Option (Answer × CBufferStream) :=
  if st.position < st.bufSize then
    let dwRemainingBytes := st.bufSize - st.position
    let pcbRead := if cb > dwRemainingBytes then dwRemainingBytes else cb
    (st.memory.getData st._pBuf).map fun memory =>
      (.read (slice (memory.getBytes st._pBuf) st.position pcbRead),
        { st with memory := memory, _liPosition := toDWORD (st.position + pcbRead) })
  else some (.read [], st)

/-- The buffer is made larger, where what is written does not fit. -/
def makeRoom (st : CBufferStream) (cb : ℕ) : Option Memory :=
  if toDWORD (st.position + cb) > st.bufSize then
    (st.memory.setBufSize st._pBuf (toDWORD (st.position + cb + 8196))).bind fun memory =>
      memory.setBufSize st._pBuf (toDWORD (st.position + cb))
  else some st.memory

/-- `Write`. -/
def write (st : CBufferStream) (pv : Bytes) : Option (Answer × CBufferStream) :=
  if st.bReadOnly then some (.failed E_ACCESSDENIED, st)
  else
    (st.makeRoom pv.length).bind fun memory =>
      (memory.putData st._pBuf st.position pv).map fun memory =>
        (.written pv.length,
          { st with memory := memory, _liPosition := toDWORD (st.position + pv.length) })

/-- `LowPart` of a distance. -/
def lowPart (liDistanceToMove : ℤ) : ℕ := (liDistanceToMove % 0x100000000).toNat

/-- `Seek`. -/
def seek (st : CBufferStream) (liDistanceToMove : ℤ) (dwOrigin : ℕ) : Answer × CBufferStream :=
  let moveTo (liPosition : ℕ) : Answer × CBufferStream :=
    (.moved liPosition, { st with _liPosition := liPosition })
  if dwOrigin = STREAM_SEEK_SET then moveTo (lowPart liDistanceToMove)
  else if dwOrigin = STREAM_SEEK_CUR then moveTo (toDWORD (st.position + lowPart liDistanceToMove))
  else if dwOrigin = STREAM_SEEK_END then moveTo (toDWORD (st.bufSize + lowPart liDistanceToMove))
  else (.failed STG_E_INVALIDFUNCTION, st)

/-- The stream as an object that is called. -/
def responder : Responder CBufferStream Call Answer where
  call st
    | .read cb => st.read cb
    | .write pv => st.write pv
    | .seek liDistanceToMove dwOrigin => some (st.seek liDistanceToMove dwOrigin)

/-- The position from which a distance is counted. -/
def origin (st : CBufferStream) (dwOrigin : ℕ) : Option ℕ :=
  if dwOrigin = STREAM_SEEK_SET then some 0
  else if dwOrigin = STREAM_SEEK_CUR then some st.position
  else if dwOrigin = STREAM_SEEK_END then some st.bufSize
  else none

/-- **Where a call is right**: what makes the buffer larger stays below the limit with the 8196 bytes
more that the code asks for, and nothing is left in the block before the position; and a new position
is a `DWORD`. -/
def Ok (st : CBufferStream) : Call → Prop
  | .read _ => True
  | .write pv =>
      st.bReadOnly = true ∨ st.position + pv.length ≤ st.bufSize ∨
        (st.position + pv.length + 8196 < 0x100000000 ∧ st.memory.Hides st._pBuf st.position)
  | .seek d dwOrigin =>
      ∀ start ∈ st.origin dwOrigin, 0 ≤ (start : ℤ) + d ∧ (start : ℤ) + d < 0x100000000

/-- A stream over a buffer, from its start on. -/
def construct (s : Memory) (pBuf : ℕ) (bReadOnly : Bool) : CBufferStream where
  memory := s
  _pBuf := pBuf
  bReadOnly := bReadOnly

end CBufferStream

/-- **The stream is these bytes**, in the object `i` of a memory that holds `V` otherwise. -/
structure Represents (V : Values) (i : ℕ) (st : CBufferStream) (r : ByteStream) : Prop where
  counted : st.memory.Counted
  pBuf : st._pBuf = i
  live : ∃ v, Live V i v
  values : st.memory.values = V.set i (some r.bytes)
  size : r.bytes.length < 0x100000000
  position : st._liPosition = r.position
  position_lt : r.position < 0x100000000
  readOnly : st.bReadOnly = r.readOnly

variable {s s' : Memory} {i n : ℕ} {v w pv : Bytes} {V : Values} {st : CBufferStream} {r : ByteStream}

namespace Memory

/-- A buffer with bytes has a block. -/
theorem pData_of_pos (hs : s.Counted) (hi : Live s.values i v) (hpos : 0 < v.length) :
    s.pData i ≠ none := by
  obtain ⟨id, b, hslot, -⟩ := block_of_size hs hi (Nat.ne_of_gt hpos)
  rw [pData_of_slot hslot]
  exact Option.some_ne_none id

/-- **`GetData`** changes no contents. It makes the block of the buffer its own, by a copy where
another one shares it. -/
theorem getData_sets (hs : s.Counted) (hi : Live s.values i v) :
    ∃ s', s.getData i = some s' ∧ s.Sets i v s' ∧ (s.pData i ≠ none → s'.Owns i) := by
  unfold getData
  by_cases hdata : s.pData i = none
  · rw [if_pos hdata]
    exact ⟨s, rfl, ⟨hs, hi.set_self.symm⟩, fun h => absurd hdata h⟩
  · rw [if_neg hdata, (getBytes_eq hs hi).1]
    obtain ⟨s', v', hgrow, hsets, hresized, howns⟩ := grow_sets hs hi v.length false
    obtain rfl := hresized.eq_self
    exact ⟨s', hgrow, hsets, fun _ => howns (.inr ⟨rfl, hdata⟩)⟩

/-- **Bytes are written** to where `GetData` points. The pointer is into a block that no other
buffer has, so it is the contents of this one that change. -/
theorem putData_sets (n : ℕ) (pv : Bytes) (hs : s.Counted) (hi : Live s.values i v) (hfits : n + pv.length ≤ v.length) :
    ∃ s', s.putData i n pv = some s' ∧ s.Sets i (overwrite v n pv) s' := by
  obtain ⟨s₁, hget, hsets, howns⟩ := getData_sets hs hi
  unfold putData
  rw [hget, Option.bind_some]
  by_cases hpv : pv = []
  · subst hpv
    rw [if_pos rfl, overwrite_nil]
    exact ⟨s₁, rfl, hsets⟩
  · have hpos : 0 < v.length := by
      have := List.length_pos_iff.2 hpv
      omega
    obtain ⟨s₂, hcopy, hsets', -⟩ := copyTo_sets hsets.counted (hsets.live hi)
      (howns (pData_of_pos hs hi hpos)) hfits
    rw [if_neg hpv]
    exact ⟨s₂, hcopy, hsets.trans hsets'⟩

end Memory

namespace Represents

/-- The buffer has the bytes of the stream. -/
theorem live_bytes (h : Represents V i st r) : Live st.memory.values st._pBuf r.bytes := by
  obtain ⟨v, hv⟩ := h.live
  rw [h.values, h.pBuf]
  exact hv.set r.bytes

/-- The buffer has as many bytes as the stream. -/
theorem bufSize (h : Represents V i st r) : st.bufSize = r.bytes.length :=
  (Memory.getBytes_eq h.counted h.live_bytes).1

/-- The position of the buffer is that of the stream. -/
theorem position_eq (h : Represents V i st r) : st.position = r.position := by
  unfold CBufferStream.position
  rw [h.position]
  exact Memory.toDWORD_eq h.position_lt

/-- The memory and the position have changed, to what the reference has. -/
theorem move (h : Represents V i st r) {memory : Memory} {v : Bytes}
    (hsets : st.memory.Sets st._pBuf v memory) (hsize : v.length < 0x100000000) {k : ℕ}
    (hk : k < 0x100000000) :
    Represents V i { st with memory := memory, _liPosition := k } { r with bytes := v, position := k } where
  counted := hsets.counted
  pBuf := h.pBuf
  live := h.live
  values := by
    show memory.values = _
    rw [hsets.values, h.values, h.pBuf, List.set_set]
  size := hsize
  position := rfl
  position_lt := hk
  readOnly := h.readOnly

end Represents

/-- **`Read`** returns the bytes that are there. No more than what is left behind the position, and
the position goes on by what was read. -/
theorem read_spec (h : Represents V i st r) (cb : ℕ) :
    ∃ st', st.read cb = some ((r.call (.read cb)).1, st') ∧
      Represents V i st' (r.call (.read cb)).2 := by
  have hsize := h.size
  unfold CBufferStream.read
  rw [h.bufSize, h.position_eq]
  by_cases hpos : r.position < r.bytes.length
  · obtain ⟨memory, hget, hsets, -⟩ := Memory.getData_sets h.counted h.live_bytes
    have hbytes := (Memory.getBytes_eq hsets.counted (hsets.live h.live_bytes)).2
    have hread : (if cb > r.bytes.length - r.position then r.bytes.length - r.position else cb) =
        (slice r.bytes r.position cb).length := by
      unfold slice
      rw [List.length_take, List.length_drop]
      split_ifs <;> omega
    have hslice : slice r.bytes r.position (slice r.bytes r.position cb).length =
        slice r.bytes r.position cb := by
      unfold slice
      rw [List.length_take]
      exact List.take_eq_take_min.symm
    have hend : r.position + (slice r.bytes r.position cb).length < 0x100000000 := by
      unfold slice
      rw [List.length_take, List.length_drop]
      omega
    rw [if_pos hpos]
    dsimp only
    rw [hread, hget, Memory.toDWORD_eq hend]
    refine ⟨_, ?_, h.move hsets hsize hend⟩
    show some (_, _) = _
    rw [hbytes, hslice]
    rfl
  · have hnone : slice r.bytes r.position cb = [] := by
      unfold slice
      rw [List.drop_eq_nil_of_le (Nat.le_of_not_lt hpos), List.take_nil]
    rw [if_neg hpos]
    refine ⟨st, ?_, ?_⟩
    · show _ = some (Answer.read (slice r.bytes r.position cb), st)
      rw [hnone]
    · show Represents V i st { r with position := r.position + (slice r.bytes r.position cb).length }
      rw [hnone]
      exact h

/-- **There is room** for what is written, with zeros before it. The buffer grows only if what is
written ends behind its end, and nothing is left in its block then. -/
theorem makeRoom_spec (h : Represents V i st r) (hro : ¬st.bReadOnly = true)
    (hok : st.Ok (.write pv)) : ∃ memory w, st.makeRoom pv.length = some memory ∧
      st.memory.Sets st._pBuf w memory ∧ r.position + pv.length ≤ w.length ∧
      w.length < 0x100000000 ∧ overwrite w r.position pv = ByteStream.put r.bytes r.position pv := by
  have hsize := h.size
  have hbuf : st.memory.getBufSize st._pBuf = r.bytes.length := h.bufSize
  have hcond : r.position + pv.length ≤ r.bytes.length ∨
      (r.position + pv.length + 8196 < 0x100000000 ∧ st.memory.Hides st._pBuf r.position) := by
    have hok' := hok.resolve_left hro
    rwa [h.bufSize, h.position_eq] at hok'
  unfold CBufferStream.makeRoom ByteStream.put
  rw [h.bufSize, h.position_eq]
  by_cases hfits : r.position + pv.length ≤ r.bytes.length
  · have hzero : r.position - r.bytes.length = 0 := by omega
    rw [Memory.toDWORD_eq (by omega), if_neg (by omega), hzero, List.replicate_zero, List.append_nil]
    exact ⟨st.memory, r.bytes, rfl, ⟨h.counted, h.live_bytes.set_self.symm⟩, hfits, hsize, rfl⟩
  · obtain ⟨hlimit, hhides⟩ := hcond.resolve_left hfits
    rw [Memory.toDWORD_eq (by omega), Memory.toDWORD_eq hlimit, if_pos (by omega)]
    obtain ⟨s₁, hgrow₁, hsets₁, -⟩ := Memory.grow_exposed (n := r.position + pv.length + 8196)
      h.counted h.live_bytes (by omega)
    obtain ⟨s₂, w, hgrow₂, hsets₂, hresized, -⟩ := Memory.grow_sets hsets₁.counted
      (hsets₁.live h.live_bytes) (r.position + pv.length) false
    have hfront : w.take r.position =
        (r.bytes ++ List.replicate (r.position - r.bytes.length) 0).take r.position := by
      have hlength : (r.bytes ++ st.memory.exposed st._pBuf (r.position + pv.length + 8196)).length =
          r.position + pv.length + 8196 := by
        rw [List.length_append, Memory.length_exposed, hbuf]
        omega
      have htake := congrArg (List.take r.position) hresized.2
      rw [hlength, List.take_take, List.take_take, Nat.min_eq_left (by omega)] at htake
      rw [htake, List.take_append, List.take_append, ← hbuf, Memory.take_exposed (by omega),
        (Memory.exposed_eq_zeros_iff _ _ _).2 hhides, List.take_replicate, Nat.min_self]
    refine ⟨s₂, w, ?_, hsets₁.trans hsets₂, Nat.le_of_eq hresized.1.symm, by rw [hresized.1]; omega, ?_⟩
    · unfold Memory.setBufSize
      rw [hgrow₁, Option.bind_some, hgrow₂]
    · have hend : (r.bytes ++ List.replicate (r.position - r.bytes.length) 0).length ≤
          r.position + pv.length := by
        rw [List.length_append, List.length_replicate]
        omega
      rw [overwrite_end hresized.1, hfront, overwrite, List.drop_eq_nil_of_le hend, List.append_nil]

/-- **`Write`** changes the bytes at the position, or fails without change. A stream that is
read-only fails, as the reference does, and nothing of it changes. -/
theorem write_spec (h : Represents V i st r) (hok : st.Ok (.write pv)) :
    ∃ st', st.write pv = some ((r.call (.write pv)).1, st') ∧
      Represents V i st' (r.call (.write pv)).2 := by
  unfold CBufferStream.write ByteStream.call
  dsimp only
  by_cases hro : st.bReadOnly = true
  · rw [if_pos hro, if_pos (h.readOnly ▸ hro)]
    exact ⟨st, rfl, h⟩
  · obtain ⟨memory, w, hroom, hsets, hfits, hsize, hput⟩ := makeRoom_spec h hro hok
    obtain ⟨memory', hwrite, hsets'⟩ := Memory.putData_sets r.position pv hsets.counted
      (hsets.live h.live_bytes) hfits
    have hend : r.position + pv.length < 0x100000000 := by omega
    have hlength := length_overwrite hfits
    rw [hput] at hsets' hlength
    rw [if_neg hro, if_neg (h.readOnly ▸ hro), hroom, Option.bind_some, h.position_eq, hwrite, Option.map_some,
      Memory.toDWORD_eq hend]
    exact ⟨_, rfl, h.move (hsets.trans hsets') (by omega) hend⟩

/-- **`Seek`** goes to a position that is a `DWORD`. The distance is cut to its low part and the sum
to a `DWORD`, which changes nothing of a sum that is in range. -/
theorem seek_spec (h : Represents V i st r) {d : ℤ} {dwOrigin : ℕ} (hok : st.Ok (.seek d dwOrigin)) :
    ∃ st', st.seek d dwOrigin = ((r.call (.seek d dwOrigin)).1, st') ∧
      Represents V i st' (r.call (.seek d dwOrigin)).2 := by
  have horigin : st.origin dwOrigin = r.origin dwOrigin := by
    unfold CBufferStream.origin ByteStream.origin
    rw [h.bufSize, h.position_eq]
  have hmove : ∀ start : ℕ, r.origin dwOrigin = some start →
      st.seek d dwOrigin = (Answer.moved (toDWORD (start + CBufferStream.lowPart d)),
        { st with _liPosition := toDWORD (start + CBufferStream.lowPart d) }) →
      ∃ st', st.seek d dwOrigin = ((r.call (.seek d dwOrigin)).1, st') ∧
        Represents V i st' (r.call (.seek d dwOrigin)).2 := by
    intro start hstart hseek
    obtain ⟨hnonneg, hlt⟩ := hok start (by rw [horigin, hstart]; exact Option.mem_some_self start)
    have htarget : toDWORD (start + CBufferStream.lowPart d) = ((start : ℤ) + d).toNat := by
      unfold toDWORD CBufferStream.lowPart
      omega
    have hcall : r.call (.seek d dwOrigin) = (.moved ((start : ℤ) + d).toNat,
        { r with position := ((start : ℤ) + d).toNat }) := by
      unfold ByteStream.call
      dsimp only
      rw [hstart]
      exact if_pos ⟨hnonneg, by omega⟩
    rw [hseek, htarget, hcall]
    exact ⟨_, rfl, h.move ⟨h.counted, h.live_bytes.set_self.symm⟩ h.size (by omega)⟩
  have hlow : toDWORD (0 + CBufferStream.lowPart d) = CBufferStream.lowPart d := by
    unfold toDWORD CBufferStream.lowPart
    omega
  unfold ByteStream.origin at hmove
  by_cases hset : dwOrigin = STREAM_SEEK_SET
  · refine hmove 0 (if_pos hset) ?_
    rw [hlow]
    exact if_pos hset
  by_cases hcur : dwOrigin = STREAM_SEEK_CUR
  · refine hmove r.position ((if_neg hset).trans (if_pos hcur)) ?_
    rw [← h.position_eq]
    exact (if_neg hset).trans (if_pos hcur)
  by_cases hend : dwOrigin = STREAM_SEEK_END
  · refine hmove r.bytes.length (((if_neg hset).trans (if_neg hcur)).trans (if_pos hend)) ?_
    rw [← h.bufSize]
    exact ((if_neg hset).trans (if_neg hcur)).trans (if_pos hend)
  · have hnone : r.origin dwOrigin = none := ((if_neg hset).trans (if_neg hcur)).trans (if_neg hend)
    have hcall : r.call (.seek d dwOrigin) = (.failed STG_E_INVALIDFUNCTION, r) := by
      unfold ByteStream.call
      dsimp only
      rw [hnone]
    rw [hcall]
    exact ⟨st, ((if_neg hset).trans (if_neg hcur)).trans (if_neg hend), h⟩

/-- **One call** is answered as the reference answers it. One case for each of the calls. -/
theorem call_spec {c : Call} (h : Represents V i st r) (hok : st.Ok c) :
    ∃ st', CBufferStream.responder.call st c = some ((r.call c).1, st') ∧
      Represents V i st' (r.call c).2 := by
  cases c with
  | read cb => exact read_spec h cb
  | write pv => exact write_spec h hok
  | seek d dwOrigin =>
      obtain ⟨st', hseek, h'⟩ := seek_spec h hok
      exact ⟨st', congrArg some hseek, h'⟩

/-- A stream represents what its buffer holds. -/
theorem represents_construct (hs : s.Counted) (hi : Live s.values i v) (hsize : v.length < 0x100000000)
    (bReadOnly : Bool) :
    Represents s.values i (.construct s i bReadOnly) { bytes := v, readOnly := bReadOnly } where
  counted := hs
  pBuf := rfl
  live := ⟨v, hi⟩
  values := hi.set_self.symm
  size := hsize
  position := rfl
  position_lt := Nat.two_pow_pos 32
  readOnly := rfl

/-- **A stream over a buffer is a byte stream**: calls that are all in order are answered as the reference
answers them, and the buffer holds its bytes then; the other objects of the memory hold what they held. -/
theorem stream_is_bytes (hs : s.Counted) (hi : Live s.values i v) (hsize : v.length < 0x100000000)
    (bReadOnly : Bool) {calls : List Call}
    (hok : CBufferStream.responder.Meets CBufferStream.Ok calls (.construct s i bReadOnly)) :
    ∃ st', CBufferStream.responder.run calls (.construct s i bReadOnly) =
        some ((Responder.answers ByteStream.call calls { bytes := v, readOnly := bReadOnly }).1, st') ∧
      Represents s.values i st'
        (Responder.answers ByteStream.call calls { bytes := v, readOnly := bReadOnly }).2 :=
  Responder.run_refines (fun _ h hc => call_spec h hc) (represents_construct hs hi hsize bReadOnly) hok

/-- A byte behind two others that were never written, and a read of all of them. -/
theorem stream_is_bytes_gap : ∃ st' : CBufferStream,
    CBufferStream.responder.run [.seek 2 STREAM_SEEK_SET, .write [7], .seek 0 STREAM_SEEK_SET, .read 5]
        (.construct { slots := [some none] } 0 false) =
      some ([.moved 2, .written 1, .moved 0, .read [0, 0, 7]], st') ∧
    st'.memory.values = [some [0, 0, 7]] := by
  have hs : Memory.Counted { slots := [some none] } :=
    ⟨fun _ => by simp [Shared.sharers], fun h => absurd h (by simp), fun _ _ => rfl⟩
  have hok : CBufferStream.responder.Meets CBufferStream.Ok
      [.seek 2 STREAM_SEEK_SET, .write [7], .seek 0 STREAM_SEEK_SET, .read 5]
      (.construct { slots := [some none] } 0 false) := by
    refine ⟨?_, fun r hr => ⟨?_, fun r' _ => ⟨?_, fun _ _ => ⟨trivial, fun _ _ => trivial⟩⟩⟩⟩
    · rintro start hstart
      obtain rfl := Option.some.inj hstart
      omega
    · obtain rfl := Option.some.inj hr
      exact .inr (.inr ⟨by decide, .inr fun x hx => absurd hx List.not_mem_nil⟩)
    · rintro start hstart
      obtain rfl := Option.some.inj hstart
      omega
  have hlive : Live (Memory.values { slots := [some none] }) 0 [] := rfl
  obtain ⟨st', hrun, h⟩ := stream_is_bytes hs hlive (by decide) false hok
  exact ⟨st', hrun, h.values⟩

/-- **A seek to a position before the start** does not fail, and one to 2^32 goes to the start. A
stream as its documentation describes it would refuse both. -/
theorem seek_wraps :
    ((CBufferStream.responder.run [.seek (-1) STREAM_SEEK_SET, .seek 0x100000000 STREAM_SEEK_SET]
        (.construct { slots := [some none] } 0 false)).map Prod.fst =
      some [.moved 0xFFFFFFFF, .moved 0]) ∧
    (Responder.answers ByteStream.call
        [.seek (-1) STREAM_SEEK_SET, .seek 0x100000000 STREAM_SEEK_SET] { bytes := [] }).1 =
      [.failed STG_E_INVALIDFUNCTION, .moved 0x100000000] := by
  decide +kernel

end Buffer
end ECSUtil

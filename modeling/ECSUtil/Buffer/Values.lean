/-
# Buffers are independent values

What the operations of `CBuffer` (`ECSUtil/cbuffer.cpp`) mean for byte lists that have nothing to do
with one another (`Op.Spec`), and that the objects behave so: `buffers_independent`.  A block that
objects share is counted right and never locked.

Each operation has a lemma about the byte lists that the objects hold (`grow_sets`, `load_sets` and
the like): the object that it is called on holds other bytes then, and the others what they held
(`Sets`).  `exec_spec` puts them together for one operation, and with it the blocks are counted in
every state that operations lead to.
-/

import ECSUtil.Buffer.Block
import ECSUtil.Lib.StepSystem

namespace ECSUtil
namespace Buffer

/-- The byte lists of the objects, `none` for one that was destroyed. -/
abbrev Values := List (Option Bytes)

/-- The object is there, and holds these bytes. -/
def Live (V : Values) (i : ℕ) (v : Bytes) : Prop := V[i]? = some (some v)

/-- A byte list of another size: the bytes that both have are the same. -/
def Resized (v : Bytes) (n : ℕ) (v' : Bytes) : Prop :=
  v'.length = n ∧ v'.take (min v.length n) = v.take (min v.length n)

inductive Op
  /-- `CBuffer()`. -/
  | construct
  /-- `CBuffer(pSrc, nLen)`. -/
  | constructFrom (src : Bytes)
  /-- `CBuffer(const CBuffer& b)`. -/
  | constructCopy (b : ℕ)
  /-- `~CBuffer()`. -/
  | destroy (i : ℕ)
  /-- `operator =`. -/
  | assign (i b : ℕ)
  /-- `operator +=`. -/
  | appendBuffer (i b : ℕ)
  | load (i : ℕ) (src : Bytes)
  | append (i : ℕ) (src : Bytes)
  | setAt (i nIndex : ℕ) (newElement : UInt8)
  | setBufSize (i nNewSize : ℕ)
  | empty (i : ℕ)
  | lock (i : ℕ)
  | unlock (i : ℕ)
  | freeExtra (i : ℕ)
  /-- A byte is written through `GetData()`. -/
  | writeData (i nIndex : ℕ) (b : UInt8)
  deriving DecidableEq, Repr

namespace Op

/-- The objects are there, and the sizes and their sums fit in a `DWORD`.  What is appended with `+=`
is another object, and what is written through `GetData` is in the buffer. -/
def Ok (V : Values) : Op → Prop
  | construct => True
  | constructFrom src => src.length < 0x100000000
  | constructCopy i | destroy i | empty i | lock i | unlock i | freeExtra i => ∃ v, Live V i v
  | assign i b => (∃ v, Live V i v) ∧ ∃ w, Live V b w
  | appendBuffer i b =>
      i ≠ b ∧ ∃ v w, Live V i v ∧ Live V b w ∧ v.length + w.length < 0x100000000
  | load i src => (∃ v, Live V i v) ∧ src.length < 0x100000000
  | append i src => ∃ v, Live V i v ∧ v.length + src.length < 0x100000000
  | setAt i nIndex _ => (∃ v, Live V i v) ∧ nIndex + 1 < 0x100000000
  | setBufSize i nNewSize => (∃ v, Live V i v) ∧ nNewSize < 0x100000000
  | writeData i nIndex _ => ∃ v, Live V i v ∧ nIndex < v.length

/-- What becomes of the byte lists. -/
def Spec (V : Values) : Op → Values → Prop
  | construct, V' => V' = V ++ [some []]
  | constructFrom src, V' => V' = V ++ [some src]
  | constructCopy b, V' => ∃ w, Live V b w ∧ V' = V ++ [some w]
  | destroy i, V' => V' = V.set i none
  | assign i b, V' => ∃ w, Live V b w ∧ V' = V.set i (some w)
  | appendBuffer i b, V' => ∃ v w, Live V i v ∧ Live V b w ∧ V' = V.set i (some (v ++ w))
  | load i src, V' => V' = V.set i (some src)
  | append i src, V' => ∃ v, Live V i v ∧ V' = V.set i (some (v ++ src))
  | setAt i nIndex b, V' => ∃ v v', Live V i v ∧ Resized v (max v.length (nIndex + 1)) v' ∧
      V' = V.set i (some (v'.set nIndex b))
  | setBufSize i nNewSize, V' => ∃ v v', Live V i v ∧ Resized v nNewSize v' ∧
      V' = V.set i (some v')
  | empty i, V' => V' = V.set i (some [])
  | lock _, V' | unlock _, V' | freeExtra _, V' => V' = V
  | writeData i nIndex b, V' => ∃ v, Live V i v ∧ V' = V.set i (some (v.set nIndex b))

/-- What the code does. -/
def exec (s : Memory) : Op → Option Memory
  | construct => some s.push
  | constructFrom src =>
      let s' : Memory := s.push
      s'.load s.slots.length src
  | constructCopy b => s.copyLast b
  | destroy i => (s.empty i).map fun s => s.setSlot i none
  | assign i b => s.assign i b
  | appendBuffer i b => s.appendBuffer i b
  | load i src => s.load i src
  | append i src => s.append i src
  | setAt i nIndex newElement => s.setAt i nIndex newElement
  | setBufSize i nNewSize => s.setBufSize i nNewSize
  | empty i => s.empty i
  | lock i => s.lock i
  | unlock i => s.unlock i
  | freeExtra i => s.freeExtra i
  | writeData i nIndex b => s.writeData i nIndex b

end Op

/-- Any operations, one after the other, on no objects at first. -/
def system : StepSystem Memory Op where
  init s := s = {}
  step := Op.exec

/-- The byte lists that the objects hold. -/
def Memory.values (s : Memory) : Values := s.contents CBufferData.bytes []

/-- The blocks are counted. -/
abbrev Memory.Counted (s : Memory) : Prop := s.Inv CBufferData.refs

namespace CBufferData

variable {b : CBufferData} {n i : ℕ} {src : Bytes}

/-- A block shows as many bytes as its size says. -/
theorem length_bytes (b : CBufferData) : b.bytes.length = b.m_nSize := by
  rw [bytes, List.length_take, Nat.min_eq_left b.size_le]

/-- The counter of a block is not part of its bytes. -/
@[simp] theorem bytes_setRefs (b : CBufferData) (n : ℤ) : (b.setRefs n).bytes = b.bytes := rfl

/-- A counter above zero counts objects. -/
theorem refs_setRefs {n : ℤ} (h : 0 < n) : (b.setRefs n).refs = n.toNat :=
  if_neg (by show n ≠ -1; omega)

/-- A block without a second reference belongs to one object. -/
theorem refs_eq_one (h : 0 < b.refs) (hrefs : ¬b.m_nRefs > 1) : b.refs = 1 := by
  unfold refs at h ⊢
  split_ifs at h ⊢
  · rfl
  · omega

/-- A block with another reference is counted by `m_nRefs`. -/
theorem refs_of_shared (h : b.m_nRefs > 1) : b.refs = b.m_nRefs.toNat :=
  if_neg (by omega)

/-- Another block that begins with the same bytes. -/
theorem resized_bytes {b' : CBufferData} (hsize : b'.m_nSize = n)
    (hdata : b'.data.take (min b.m_nSize n) = b.data.take (min b.m_nSize n)) :
    Resized b.bytes n b'.bytes := by
  refine ⟨b'.length_bytes.trans hsize, ?_⟩
  rw [length_bytes, bytes, bytes, List.take_take, List.take_take, hsize,
    Nat.min_eq_left (Nat.min_le_right _ _), Nat.min_eq_left (Nat.min_le_left _ _), hdata]

/-- A block of another size shows the old bytes as far as they go. -/
theorem resized_resize (h : n ≤ b.m_nAllocSize) : Resized b.bytes n (b.resize n h).bytes :=
  resized_bytes rfl rfl

/-- A block that is reallocated shows the old bytes as far as they go. -/
theorem resized_reAlloc (b : CBufferData) (n : ℕ) : Resized b.bytes n (b.reAlloc n).bytes := by
  refine resized_bytes rfl ?_
  have hsize := b.size_le
  show (b.data.take (n + ALLOC_INCR_DEFAULT) ++ _).take (min b.m_nSize n) = _
  rw [List.take_append_of_le_length (by rw [List.length_take]; omega), List.take_take,
    Nat.min_eq_left (by omega)]

/-- A new block that the bytes are copied to shows them as far as they go. -/
theorem resized_copy (b : CBufferData) (n : ℕ) (h) :
    Resized b.bytes n
      ((createBuffer n).copy 0 (b.data.take (min b.m_nSize n)) h).bytes := by
  refine resized_bytes rfl ?_
  have hsize := b.size_le
  show (overwrite (List.replicate n 0) 0 (b.data.take (min b.m_nSize n))).take _ = _
  rw [overwrite, List.take_zero, List.nil_append,
    List.take_append_of_le_length (by rw [List.length_take]; omega), List.take_take,
    Nat.min_self]

/-- What is copied into a block overwrites its bytes. -/
theorem bytes_copy (h : i + src.length ≤ b.data.length) (hsize : i + src.length ≤ b.m_nSize) :
    (b.copy i src h).bytes = overwrite b.bytes i src :=
  take_overwrite hsize b.size_le

end CBufferData

variable {s s' : Memory} {i j n : ℕ} {v w : Bytes}

/-- An object that is set to its own value changes nothing. -/
theorem Live.set_self {V : Values} (h : Live V i v) : V.set i (some v) = V := by
  refine List.ext_getElem? fun j => ?_
  have hi : V[i]? = some (some v) := h
  obtain ⟨hlt, -⟩ := List.getElem?_eq_some_iff.1 hi
  rw [List.getElem?_set]
  split_ifs with hij
  · subst hij
    exact hi.symm
  · rfl

/-- An object that is set has the value. -/
theorem Live.set {V : Values} {i : ℕ} {v : Bytes} (h : Live V i v) (w : Bytes) :
    Live (V.set i (some w)) i w := by
  have hi : V[i]? = some (some v) := h
  obtain ⟨hlt, -⟩ := List.getElem?_eq_some_iff.1 hi
  show (V.set i (some w))[i]? = _
  rw [List.getElem?_set_self hlt]

/-- Where an object is set, all others have what they had. -/
theorem Live.set_ne {V : Values} (h : Live V j w) (hij : i ≠ j) (x : Option Bytes) :
    Live (V.set i x) j w := by
  show (V.set i x)[j]? = _
  rw [List.getElem?_set_ne hij]
  exact h

/-- An object has one value. -/
theorem Live.unique {V : Values} (h : Live V i v) (h' : Live V i w) : v = w :=
  Option.some.inj (Option.some.inj (h.symm.trans h'))

/-- What was there is there, as far as the new size goes. -/
theorem Resized.take_of_le {v' : Bytes} (h : Resized v n v') (hle : v.length ≤ n) :
    v'.take v.length = v := by
  have htake := h.2
  rwa [Nat.min_eq_left hle, List.take_length] at htake

/-- Nothing changes where the size is the same. -/
theorem Resized.eq_self {v' : Bytes} (h : Resized v v.length v') : v' = v := by
  have htake := h.take_of_le (Nat.le_refl _)
  rwa [← h.1, List.take_length] at htake

/-- What the object has for `m_pData`: nothing, or a block. -/
theorem Live.slot (hs : s.Counted) (h : Live s.values i v) :
    (s.slots[i]? = some (some none) ∧ v = []) ∨
    ∃ id b, s.slots[i]? = some (some (some id)) ∧ s.cell id = some b ∧ v = b.bytes := by
  have hget : (s.slots[i]?).map (Option.map (s.value CBufferData.bytes [])) = some (some v) := by
    rw [← List.getElem?_map]
    exact h
  obtain ⟨p, hp, hv⟩ := Option.map_eq_some_iff.1 hget
  obtain ⟨p, rfl, hvalue⟩ := Option.map_eq_some_iff.1 hv
  cases p with
  | none => exact .inl ⟨hp, hvalue.symm⟩
  | some id =>
      obtain ⟨b, hb⟩ := hs.cell_of_slot hp
      refine .inr ⟨id, b, hp, hb, ?_⟩
      rw [← hvalue, Shared.value, Option.bind_some, hb, Option.elim_some]

namespace Memory

/-- The pointer of an object is what its slot has. -/
theorem pData_of_slot {p : Option ℕ} (hi : s.slots[i]? = some (some p)) : s.pData i = p := by
  rw [pData, hi]
  rfl

/-- An object whose slot leads to a cell has the block of that cell. -/
theorem internalData_of_slot {id : ℕ} {b : CBufferData}
    (hi : s.slots[i]? = some (some (some id))) (hc : s.cell id = some b) :
    s.internalData (s.pData i) = some b := by
  rw [pData_of_slot hi]
  exact hc

/-- The size and the bytes of an object. -/
theorem getBytes_eq (hs : s.Counted) (h : Live s.values i v) :
    s.getBufSize i = v.length ∧ s.getBytes i = v := by
  unfold getBufSize getBytes
  rcases h.slot hs with ⟨hi, rfl⟩ | ⟨id, b, hi, hc, rfl⟩
  · rw [pData_of_slot hi]
    exact ⟨rfl, rfl⟩
  · rw [internalData_of_slot hi hc]
    exact ⟨b.length_bytes.symm, rfl⟩

/-- The object has a block of its own. -/
def Owns (s : Memory) (i : ℕ) : Prop :=
  ∃ id b, s.slots[i]? = some (some (some id)) ∧ s.cell id = some b ∧ b.refs = 1

/-- The object holds other bytes now, and the others what they held. -/
structure Sets (s : Memory) (i : ℕ) (v : Bytes) (s' : Memory) : Prop where
  counted : s'.Counted
  values : s'.values = s.values.set i (some v)

/-- **A block that is shared is left.** The count of the block goes down by one, and the object has
none then; whoever shares it sees the same bytes. -/
theorem release_sets (hs : s.Counted) {id : ℕ} {b : CBufferData}
    (hi : s.slots[i]? = some (some (some id))) (hc : s.cell id = some b) (hrefs : b.m_nRefs > 1) :
    s.Sets i [] (s.release i id b) ∧ (s.release i id b).slots = s.slots.set i (some none) ∧
      ∀ id' ≠ id, (s.release i id b).cell id' = s.cell id' := by
  have hcase : s.release i id b =
      (s.setCell id (some (b.setRefs (b.m_nRefs - 1)))).setSlot i (some none) :=
    if_neg (by omega)
  have hless : (b.setRefs (b.m_nRefs - 1)).refs = (b.m_nRefs - 1).toNat :=
    CBufferData.refs_setRefs (by omega)
  have hone : b.refs = b.m_nRefs.toNat := CBufferData.refs_of_shared hrefs
  rw [hcase]
  refine ⟨⟨hs.leave hi hc (by omega) (by omega), Shared.contents_leave hc rfl⟩, rfl, ?_⟩
  intro id' hne
  exact Function.update_of_ne hne _ _

/-- **The last object of a block frees it.** Its count is one, so no other object shows the bytes of
it. -/
theorem free_sets (hs : s.Counted) {id : ℕ} {b : CBufferData}
    (hi : s.slots[i]? = some (some (some id))) (hc : s.cell id = some b) (hrefs : b.refs = 1) :
    s.Sets i [] ((s.setCell id none).setSlot i (some none)) :=
  ⟨hs.free hi hc hrefs, hs.contents_free hi hc hrefs⟩

/-- The block of one object changes. -/
theorem modify_sets (hs : s.Counted) {id : ℕ} {b d : CBufferData}
    (hi : s.slots[i]? = some (some (some id))) (hc : s.cell id = some b) (hrefs : b.refs = 1)
    (hrefs' : d.refs = b.refs) :
    s.Sets i d.bytes (s.setCell id (some d)) ∧ Owns (s.setCell id (some d)) i := by
  refine ⟨⟨hs.modify hc hrefs', hs.contents_modify hi hc hrefs⟩, id, d, hi, ?_,
    hrefs'.trans hrefs⟩
  exact Function.update_self id (some d) s.cell

/-- An empty object is given a block. -/
theorem alloc_sets (hs : s.Counted) (hi : s.slots[i]? = some (some none)) {b : CBufferData}
    (hrefs : b.refs = 1) : s.Sets i b.bytes (s.alloc i b) ∧ Owns (s.alloc i b) i := by
  obtain ⟨hlt, -⟩ := List.getElem?_eq_some_iff.1 hi
  refine ⟨⟨hs.alloc hi hrefs, hs.contents_alloc⟩, s.next, b, ?_, ?_, hrefs⟩
  · exact List.getElem?_set_self hlt
  · exact Function.update_self s.next (some b) s.cell

/-- Of two changes of one object the last one counts. -/
theorem Sets.trans {s'' : Memory} (h : s.Sets i v s') (h' : s'.Sets i w s'') : s.Sets i w s'' := by
  refine ⟨h'.counted, ?_⟩
  rw [h'.values, h.values, List.set_set]

/-- **`Grow` gives the object a block of its own** of the size that is asked for. A block that is
shared, locked or too small is copied, and the old one is released; the bytes up to the smaller of
both sizes are kept. -/
theorem grow_sets (hs : s.Counted) (hi : Live s.values i v) (n : ℕ) (bForce : Bool) :
    ∃ s' v', s.grow i n bForce false = some s' ∧ s.Sets i v' s' ∧ Resized v n v' ∧
      (0 < n ∨ bForce = false ∧ s.pData i ≠ none → s'.Owns i) := by
  unfold grow
  rcases hi.slot hs with ⟨hslot, rfl⟩ | ⟨id, b, hslot, hc, rfl⟩
  · rw [hslot]
    dsimp only
    have hresized : Resized [] n (CBufferData.createBuffer n).bytes := by
      refine ⟨CBufferData.length_bytes _, ?_⟩
      rw [List.length_nil, Nat.zero_min, List.take_zero, List.take_zero]
    by_cases hn : n = 0
    · subst hn
      refine ⟨s, [], if_pos (.inr rfl), ⟨hs, hi.set_self.symm⟩, ⟨rfl, rfl⟩, ?_⟩
      rintro (h | ⟨-, h⟩)
      · exact absurd h (Nat.lt_irrefl 0)
      · exact absurd (pData_of_slot hslot) h
    · obtain ⟨hsets, howns⟩ := alloc_sets (b := .createBuffer n) hs hslot rfl
      exact ⟨_, _, if_neg (by simp [hn]), hsets, hresized, fun _ => howns⟩
  · rw [hslot]
    dsimp only
    rw [hc]
    dsimp only
    by_cases hshared : b.m_nRefs > 1
    · obtain ⟨hleft, hslots, -⟩ := release_sets hs hslot hc hshared
      have hempty : (s.release i id b).slots[i]? = some (some none) := by
        obtain ⟨hlt, -⟩ := List.getElem?_eq_some_iff.1 hslot
        rw [hslots]
        exact List.getElem?_set_self hlt
      have hcopy : (CBufferData.createBuffer n).m_nRefs = 1 := rfl
      rw [if_pos hshared, if_neg Bool.false_ne_true]
      obtain ⟨hsets, howns⟩ := alloc_sets (b := (CBufferData.createBuffer n).copy 0
        (b.data.take (min b.m_nSize n)) (CBufferData.take_le_createBuffer _ _ _))
        hleft.counted hempty rfl
      exact ⟨_, _, rfl, hleft.trans hsets, b.resized_copy n _, fun _ => howns⟩
    · have hone : b.refs = 1 := CBufferData.refs_eq_one (hs.used hc) hshared
      rw [if_neg hshared, if_neg Bool.false_ne_true]
      by_cases hfits : bForce = false ∧ n ≤ b.m_nAllocSize
      · rw [dif_pos hfits]
        obtain ⟨hsets, howns⟩ := modify_sets (d := b.resize n hfits.2) hs hslot hc hone rfl
        exact ⟨_, _, rfl, hsets, CBufferData.resized_resize hfits.2, fun _ => howns⟩
      · rw [dif_neg hfits]
        by_cases hn : n = 0
        · subst hn
          refine ⟨_, [], if_pos rfl, free_sets hs hslot hc hone, ⟨rfl, ?_⟩, ?_⟩
          · rw [Nat.min_zero, List.take_zero, List.take_zero]
          · rintro (h | ⟨h, -⟩)
            · exact absurd h (Nat.lt_irrefl 0)
            · exact absurd ⟨h, Nat.zero_le _⟩ hfits
        · obtain ⟨hsets, howns⟩ := modify_sets (d := b.reAlloc n) hs hslot hc hone rfl
          exact ⟨_, _, if_neg hn, hsets, b.resized_reAlloc n, fun _ => howns⟩

/-- **`Empty`** leaves the blocks of the others as they are. The block is released, and freed with
its last object. -/
theorem empty_sets (hs : s.Counted) (hi : Live s.values i v) :
    ∃ s', s.empty i = some s' ∧ s.Sets i [] s' ∧ s'.slots = s.slots.set i (some none) ∧
      ∀ id, s.pData i ≠ some id → s'.cell id = s.cell id := by
  unfold empty grow
  rcases hi.slot hs with ⟨hslot, rfl⟩ | ⟨id, b, hslot, hc, rfl⟩
  · rw [hslot]
    refine ⟨s, if_pos (.inl rfl), ⟨hs, hi.set_self.symm⟩, ?_, fun _ _ => rfl⟩
    refine List.ext_getElem? fun j => ?_
    obtain ⟨hlt, -⟩ := List.getElem?_eq_some_iff.1 hslot
    rw [List.getElem?_set]
    split_ifs with hij
    · subst hij
      exact hslot
    · rfl
  · rw [hslot]
    dsimp only
    rw [hc, pData_of_slot hslot]
    dsimp only
    have hother : ∀ id', some id ≠ some id' → id' ≠ id := fun id' h h' => h (congrArg some h'.symm)
    by_cases hshared : b.m_nRefs > 1
    · obtain ⟨hleft, hslots, hcells⟩ := release_sets hs hslot hc hshared
      rw [if_pos hshared, if_pos rfl]
      exact ⟨_, rfl, hleft, hslots, fun id' h => hcells id' (hother id' h)⟩
    · have hone : b.refs = 1 := CBufferData.refs_eq_one (hs.used hc) hshared
      rw [if_neg hshared, if_pos rfl]
      refine ⟨_, rfl, free_sets hs hslot hc hone, rfl, fun id' h => ?_⟩
      exact Function.update_of_ne (hother id' h) _ _

/-- **What is copied to an object that owns its block** is in no other. The contents of all other
objects stay, since none of them refers to the block. -/
theorem copyTo_sets (hs : s.Counted) (hi : Live s.values i v) (hown : s.Owns i) {q : Bytes}
    (hfits : n + q.length ≤ v.length) :
    ∃ s', s.copyTo i n q = some s' ∧ s.Sets i (overwrite v n q) s' ∧ s'.Owns i := by
  obtain ⟨id, b, hslot, hc, hone⟩ := hown
  have hv : v = b.bytes := by
    refine hi.unique ?_
    show s.values[i]? = _
    refine (Shared.contents_get hslot).trans ?_
    rw [Shared.value, Option.bind_some, hc, Option.elim_some]
  subst hv
  have hsize : n + q.length ≤ b.m_nSize := b.length_bytes ▸ hfits
  have hdata : n + q.length ≤ b.data.length := Nat.le_trans hsize b.size_le
  unfold copyTo
  rw [hslot]
  dsimp only
  rw [hc]
  dsimp only
  rw [dif_pos hdata]
  obtain ⟨hsets, howns⟩ := modify_sets (d := b.copy n q hdata) hs hslot hc hone rfl
  rw [CBufferData.bytes_copy hdata hsize] at hsets
  exact ⟨_, rfl, hsets, howns⟩

/-- The object that is changed has the new value. -/
theorem Sets.live (h : s.Sets i w s') (hi : Live s.values i v) : Live s'.values i w := by
  rw [h.values]
  exact hi.set w

/-- Where one object is changed, all others have what they had. -/
theorem Sets.live_ne (h : s.Sets i v s') (hj : Live s.values j w) (hij : i ≠ j) :
    Live s'.values j w := by
  rw [h.values]
  exact hj.set_ne hij (some v)

/-- The object grows, and bytes are copied to it. -/
theorem grow_copyTo_sets (hs : s.Counted) (hi : Live s.values i v) {k : ℕ} {q : Bytes}
    (hn : 0 < n ∨ s.pData i ≠ none) (hk : k + q.length ≤ n) {f : Memory → Bytes}
    (hf : ∀ s' v', s.Sets i v' s' → f s' = q) :
    ∃ s' v', ((s.grow i n false false).bind fun s' => s'.copyTo i k (f s')) = some s' ∧
      s.Sets i (overwrite v' k q) s' ∧ Resized v n v' := by
  obtain ⟨s₁, v', hgrow, hsets, hresized, howns⟩ := grow_sets hs hi n false
  obtain ⟨s₂, hcopy, hsets', -⟩ := copyTo_sets (n := k) (q := q) hsets.counted
    (hsets.live hi) (howns (hn.imp_right fun h => ⟨rfl, h⟩)) (by rw [hresized.1]; exact hk)
  refine ⟨s₂, v', ?_, hsets.trans hsets', hresized⟩
  rw [hgrow, Option.bind_some, hf s₁ v' hsets, hcopy]

/-- A number below 2^32 is the same as a `DWORD`. -/
theorem toDWORD_eq (h : n < 0x100000000) : toDWORD n = n := Nat.mod_eq_of_lt h

/-- **`Load`.** `Grow` gives it a block of its own of the size of the source, whose bytes are then
copied. -/
theorem load_sets (hs : s.Counted) (hi : Live s.values i v) (src : Bytes) :
    ∃ s', s.load i src = some s' ∧ s.Sets i src s' := by
  unfold load
  by_cases hsrc : src.length > 0
  · obtain ⟨s', v', hload, hsets, hresized⟩ := grow_copyTo_sets (k := 0) (q := src) hs hi
      (.inl hsrc) (by omega) (f := fun _ => src) fun _ _ _ => rfl
    rw [overwrite_all hresized.1] at hsets
    simp only [if_pos hsrc]
    exact ⟨s', hload, hsets⟩
  · obtain ⟨s', v', hgrow, hsets, hresized, -⟩ := grow_sets hs hi src.length false
    obtain rfl : src = [] := List.length_eq_zero_iff.1 (by omega)
    obtain rfl : v' = [] := List.length_eq_zero_iff.1 hresized.1
    simp only [if_neg hsrc]
    rw [hgrow]
    exact ⟨s', rfl, hsets⟩

/-- **`Append`.** The bytes are copied to the old end, in a block that is the object's own after
`Grow`. -/
theorem append_sets (hs : s.Counted) (hi : Live s.values i v) {src : Bytes}
    (hsum : v.length + src.length < 0x100000000) :
    ∃ s', s.append i src = some s' ∧ s.Sets i (v ++ src) s' := by
  unfold append
  rw [(getBytes_eq hs hi).1]
  dsimp only
  rw [toDWORD_eq (by omega)]
  obtain ⟨s₁, v', hgrow, hsets, hresized, howns⟩ := grow_sets hs hi (src.length + v.length) false
  have hsize : s₁.getBufSize i = src.length + v.length :=
    (getBytes_eq hsets.counted (hsets.live hi)).1.trans hresized.1
  have htake := hresized.take_of_le (by omega)
  rw [hgrow, Option.bind_some, hsize]
  by_cases hpos : src.length + v.length > 0
  · rw [if_pos hpos]
    obtain ⟨s₂, hcopy, hsets', -⟩ := copyTo_sets (n := v.length) (q := src) hsets.counted
      (hsets.live hi) (howns (.inl hpos)) (by rw [hresized.1]; omega)
    rw [overwrite_end (by rw [hresized.1]; omega), htake] at hsets'
    exact ⟨s₂, hcopy, hsets.trans hsets'⟩
  · rw [if_neg hpos]
    obtain rfl : src = [] := List.length_eq_zero_iff.1 (by omega)
    obtain rfl : v = [] := List.length_eq_zero_iff.1 (by omega)
    obtain rfl : v' = [] := List.length_eq_zero_iff.1 hresized.1
    exact ⟨s₁, rfl, hsets⟩

/-- **`operator +=`** with another object. The other object keeps its block and its bytes, also
where both shared one before. -/
theorem appendBuffer_sets (hs : s.Counted) (hi : Live s.values i v) (hj : Live s.values j w)
    (hij : i ≠ j) (hsum : v.length + w.length < 0x100000000) :
    ∃ s', s.appendBuffer i j = some s' ∧ s.Sets i (v ++ w) s' := by
  unfold appendBuffer
  rw [(getBytes_eq hs hi).1, (getBytes_eq hs hj).1]
  dsimp only
  rw [toDWORD_eq hsum]
  by_cases hw : w.length = 0
  · obtain rfl : w = [] := List.length_eq_zero_iff.1 hw
    rw [if_pos hw, List.append_nil]
    exact ⟨s, rfl, hs, hi.set_self.symm⟩
  · rw [if_neg hw]
    obtain ⟨s', v', hcopy, hsets, hresized⟩ := grow_copyTo_sets (k := v.length) (q := w) hs hi
      (.inl (by omega)) (Nat.le_refl (v.length + w.length)) (f := fun s' => s'.getBytes j)
      fun s' v' h => (getBytes_eq h.counted (h.live_ne hj hij)).2
    rw [overwrite_end hresized.1, hresized.take_of_le (by omega)] at hsets
    exact ⟨s', hcopy, hsets⟩

/-- **`SetAt`.** A buffer that is too short grows up to the index first. -/
theorem setAt_sets (hs : s.Counted) (hi : Live s.values i v) {nIndex : ℕ}
    (hindex : nIndex + 1 < 0x100000000) (newElement : UInt8) :
    ∃ s' v', s.setAt i nIndex newElement = some s' ∧
      Resized v (max v.length (nIndex + 1)) v' ∧ s.Sets i (v'.set nIndex newElement) s' := by
  have hsize : (if nIndex ≥ v.length then toDWORD (nIndex + 1) else v.length) =
      max v.length (nIndex + 1) := by
    rw [toDWORD_eq hindex]
    split_ifs <;> omega
  unfold setAt
  rw [(getBytes_eq hs hi).1]
  dsimp only
  rw [hsize]
  obtain ⟨s', v', hcopy, hsets, hresized⟩ := grow_copyTo_sets (k := nIndex) (q := [newElement])
    (n := max v.length (nIndex + 1)) hs hi (.inl (by omega))
    (by rw [List.length_singleton]; omega) (f := fun _ => [newElement]) fun _ _ _ => rfl
  rw [overwrite_singleton (by rw [hresized.1]; omega)] at hsets
  exact ⟨s', v', hcopy, hresized, hsets⟩

/-- **A byte is written through `GetData`.** `GetData` has made the block its own, so a copy of the
object keeps the old byte. -/
theorem writeData_sets (hs : s.Counted) (hi : Live s.values i v) {nIndex : ℕ}
    (hindex : nIndex < v.length) (b : UInt8) :
    ∃ s', s.writeData i nIndex b = some s' ∧ s.Sets i (v.set nIndex b) s' := by
  have hdata : s.pData i ≠ none := by
    rcases hi.slot hs with ⟨-, rfl⟩ | ⟨id, b', hslot, -, -⟩
    · exact absurd hindex (Nat.not_lt_zero _)
    · rw [pData_of_slot hslot]
      exact Option.some_ne_none id
  unfold writeData
  rw [if_neg hdata, (getBytes_eq hs hi).1]
  obtain ⟨s', v', hcopy, hsets, hresized⟩ := grow_copyTo_sets (k := nIndex) (q := [b])
    (n := v.length) hs hi (.inr hdata) (by rw [List.length_singleton]; omega)
    (f := fun _ => [b]) fun _ _ _ => rfl
  obtain rfl := hresized.eq_self
  rw [overwrite_singleton hindex] at hsets
  exact ⟨s', hcopy, hsets⟩

/-- Setting `m_nRefs` to what counts the same objects changes nothing that is seen. -/
theorem setRefs_values (hs : s.Counted) {id : ℕ} {b : CBufferData}
    (hslot : s.slots[i]? = some (some (some id))) (hc : s.cell id = some b) {f : ℤ → ℤ}
    (hf : (b.setRefs (f b.m_nRefs)).refs = b.refs) :
    ∃ s', s.setRefs i f = some s' ∧ s'.Counted ∧ s'.values = s.values := by
  unfold setRefs
  rw [pData_of_slot hslot]
  dsimp only
  rw [hc]
  exact ⟨_, rfl, hs.modify hc hf, Shared.contents_setCell hc rfl⟩

/-- **`Lock`.** The block becomes the object's own and is marked by a count of -1, which keeps
others from sharing it. -/
theorem lock_values (hs : s.Counted) (hi : Live s.values i v) :
    ∃ s', s.lock i = some s' ∧ s'.Counted ∧ s'.values = s.values := by
  unfold lock
  by_cases hdata : s.pData i = none
  · rw [if_pos hdata]
    exact ⟨s, rfl, hs, rfl⟩
  · rw [if_neg hdata, (getBytes_eq hs hi).1]
    obtain ⟨s₁, v', hgrow, hsets, hresized, howns⟩ := grow_sets hs hi v.length false
    obtain rfl := hresized.eq_self
    obtain ⟨id, b, hslot, hc, hone⟩ := howns (.inr ⟨rfl, hdata⟩)
    obtain ⟨s', hlock, hcounted, hvalues⟩ := setRefs_values (f := fun _ => -1) hsets.counted
      hslot hc (hone.symm ▸ if_pos rfl)
    rw [hgrow, Option.bind_some]
    exact ⟨s', hlock, hcounted, by rw [hvalues, hsets.values, hi.set_self]⟩

/-- **`Unlock`.** The count is one again, and the bytes are as they were. -/
theorem unlock_values (hs : s.Counted) (hi : Live s.values i v) :
    ∃ s', s.unlock i = some s' ∧ s'.Counted ∧ s'.values = s.values := by
  unfold unlock
  rcases hi.slot hs with ⟨hslot, -⟩ | ⟨id, b, hslot, hc, -⟩
  · rw [if_pos (pData_of_slot hslot)]
    exact ⟨s, rfl, hs, rfl⟩
  · rw [if_neg (by rw [pData_of_slot hslot]; exact Option.some_ne_none id)]
    refine setRefs_values hs hslot hc ?_
    unfold CBufferData.refs CBufferData.setRefs
    dsimp only
    split_ifs <;> simp_all

/-- **`FreeExtra`.** The block is replaced by one of just the size of the contents. -/
theorem freeExtra_values (hs : s.Counted) (hi : Live s.values i v) :
    ∃ s', s.freeExtra i = some s' ∧ s'.Counted ∧ s'.values = s.values := by
  unfold freeExtra
  rw [(getBytes_eq hs hi).1]
  obtain ⟨s', v', hgrow, hsets, hresized, -⟩ := grow_sets hs hi v.length true
  obtain rfl := hresized.eq_self
  exact ⟨s', hgrow, hsets.counted, by rw [hsets.values, hi.set_self]⟩

/-- **An empty object shares a block** that is not locked. The count of the block goes up by one,
and both objects show its bytes from then on. -/
theorem share_sets (hs : s.Counted) (hi : s.slots[i]? = some (some none)) {id : ℕ}
    {b : CBufferData} (hj : s.pData j = some id) (hc : s.cell id = some b)
    (hlocked : b.m_nRefs ≠ -1) : ∃ s', s.share i j = some s' ∧ s.Sets i b.bytes s' := by
  have hrefs : b.refs = b.m_nRefs.toNat := if_neg hlocked
  have hused := hs.used hc
  have hmore : (b.setRefs (b.m_nRefs + 1)).refs = b.refs + 1 := by
    rw [CBufferData.refs_setRefs (by omega)]
    omega
  unfold share
  rw [hj]
  dsimp only
  rw [hc]
  exact ⟨_, rfl, hs.join hi hc hmore, Shared.contents_join hc rfl⟩

/-- The block of an object that is not empty. -/
theorem block_of_size (hs : s.Counted) (hj : Live s.values j w) (hsize : w.length ≠ 0) :
    ∃ id b, s.slots[j]? = some (some (some id)) ∧ s.cell id = some b ∧ w = b.bytes ∧
      s.getRefs j = some b.m_nRefs := by
  rcases hj.slot hs with ⟨-, rfl⟩ | ⟨id, b, hslot, hc, rfl⟩
  · exact absurd rfl hsize
  · refine ⟨id, b, hslot, hc, rfl, ?_⟩
    rw [getRefs, internalData_of_slot hslot hc]
    rfl

/-- **`operator =`.** A block that is locked is copied instead of shared; an object that is assigned
to itself is left as it is. -/
theorem assign_sets (hs : s.Counted) (hi : Live s.values i v) (hj : Live s.values j w) :
    ∃ s', s.assign i j = some s' ∧ s.Sets i w s' := by
  unfold assign
  by_cases hij : j = i
  · subst hij
    obtain rfl := hi.unique hj
    rw [if_pos rfl]
    exact ⟨s, rfl, hs, hi.set_self.symm⟩
  rw [if_neg hij, (getBytes_eq hs hj).1]
  by_cases hsize : w.length = 0
  · rw [if_pos hsize]
    obtain rfl : w = [] := List.length_eq_zero_iff.1 hsize
    obtain ⟨s', hempty, hsets, -⟩ := empty_sets hs hi
    exact ⟨s', hempty, hsets⟩
  rw [if_neg hsize]
  by_cases hlocked : s.getRefs j = some (-1) ∨ s.getRefs i = some (-1)
  · rw [if_pos hlocked]
    obtain ⟨s', v', hcopy, hsets, hresized⟩ := grow_copyTo_sets (k := 0) (q := w) hs hi
      (.inl (Nat.pos_of_ne_zero hsize)) (by omega) (f := fun s' => s'.getBytes j)
      fun s' v' h => (getBytes_eq h.counted (h.live_ne hj (Ne.symm hij))).2
    rw [overwrite_all hresized.1] at hsets
    exact ⟨s', hcopy, hsets⟩
  rw [if_neg hlocked]
  obtain ⟨id, b, hslot, hc, rfl, hrefs⟩ := block_of_size hs hj hsize
  by_cases hsame : s.pData i ≠ s.pData j
  · rw [if_pos hsame]
    obtain ⟨s₁, hempty, hsets, hslots, hcells⟩ := empty_sets hs hi
    have hempty_slot : s₁.slots[i]? = some (some none) := by
      have hlive := hsets.live hi
      rw [hslots]
      refine List.getElem?_set_self ?_
      by_contra hle
      have hnone : s₁.values[i]? = none := by
        rw [Memory.values, Shared.contents, List.getElem?_map, hslots,
          List.getElem?_eq_none (by rw [List.length_set]; omega)]
        rfl
      exact absurd (hnone.symm.trans hlive) (by simp)
    have hdata : s₁.pData j = some id := by
      refine pData_of_slot ?_
      rw [hslots, List.getElem?_set_ne (Ne.symm hij)]
      exact hslot
    have hcell : s₁.cell id = some b := by
      rw [pData_of_slot hslot] at hsame
      rw [hcells id hsame, hc]
    have hopen : b.m_nRefs ≠ -1 := fun h => hlocked (.inl (hrefs.trans (congrArg some h)))
    obtain ⟨s', hshare, hsets'⟩ := share_sets hsets.counted hempty_slot hdata hcell hopen
    rw [hempty, Option.bind_some]
    exact ⟨s', hshare, hsets.trans hsets'⟩
  · rw [if_neg hsame]
    have hdata : s.pData i = some id := (not_not.1 hsame).trans (pData_of_slot hslot)
    obtain rfl : v = b.bytes := by
      rcases hi.slot hs with ⟨hnull, -⟩ | ⟨id', b', hslot', hc', rfl⟩
      · rw [pData_of_slot hnull] at hdata
        exact absurd hdata (by simp)
      · rw [pData_of_slot hslot'] at hdata
        obtain rfl := Option.some.inj hdata
        rw [Option.some.inj (hc'.symm.trans hc)]
    exact ⟨s, rfl, hs, hi.set_self.symm⟩

/-- A new object is empty. -/
theorem push_live (s : Memory) (hs : s.Counted) : Memory.Counted s.push ∧
    Memory.values s.push = s.values ++ [some []] ∧
    (s.push).slots[s.slots.length]? = some (some none) ∧
    Live (Memory.values s.push) s.slots.length [] := by
  have hvalues : Memory.values s.push = s.values ++ [some []] := Shared.contents_push
  refine ⟨hs.push, hvalues, List.getElem?_concat_length, ?_⟩
  have hlength : s.values.length = s.slots.length := List.length_map _
  show (Memory.values s.push)[s.slots.length]? = _
  rw [hvalues, ← hlength]
  exact List.getElem?_concat_length

/-- What a new object holds is behind what the others hold. -/
theorem Sets.push_values {s₀ : Memory} (h₀ : s₀ = s.push) (h : s₀.Sets s.slots.length v s') :
    s'.Counted ∧ s'.values = s.values ++ [some v] := by
  subst h₀
  refine ⟨h.counted, ?_⟩
  have hlength : s.values.length = s.slots.length := List.length_map _
  rw [h.values, show Memory.values s.push = s.values ++ [some []] from Shared.contents_push,
    ← hlength, List.set_append_right _ _ (Nat.le_refl _), Nat.sub_self]
  rfl

/-- **The copy constructor.** It is an assignment to an object that has nothing yet. -/
theorem copyLast_values (hs : s.Counted) (hj : Live s.values j w) :
    ∃ s', s.copyLast j = some s' ∧ s'.Counted ∧ s'.values = s.values ++ [some w] := by
  obtain ⟨hpush, hvalues, hslot₀, hlive₀⟩ := push_live s hs
  have hjlt : j < s.slots.length := by
    have hget : s.values[j]? = some (some w) := hj
    obtain ⟨hlt, -⟩ := List.getElem?_eq_some_iff.1 hget
    exact Nat.lt_of_lt_of_eq hlt (List.length_map _)
  have hne : s.slots.length ≠ j := Nat.ne_of_gt hjlt
  have hj₀ : Live (Memory.values s.push) j w := by
    have hlength : s.values.length = s.slots.length := List.length_map _
    show (Memory.values s.push)[j]? = _
    rw [hvalues, List.getElem?_append_left (by omega)]
    exact hj
  unfold copyLast
  dsimp only
  rw [(getBytes_eq hs hj).1]
  by_cases hsize : w.length = 0
  · obtain rfl : w = [] := List.length_eq_zero_iff.1 hsize
    rw [if_pos hsize]
    exact ⟨_, rfl, hpush, hvalues⟩
  rw [if_neg hsize]
  obtain ⟨id, b, hslot, hc, rfl, hrefs⟩ := block_of_size hs hj hsize
  by_cases hlocked : s.getRefs j = some (-1)
  · rw [if_pos hlocked]
    obtain ⟨s', v', hcopy, hsets, hresized⟩ := grow_copyTo_sets (k := 0) (q := b.bytes) hpush
      hlive₀ (.inl (Nat.pos_of_ne_zero hsize)) (Nat.le_of_eq (Nat.zero_add _))
      (f := fun s' => s'.getBytes j) fun s' v' h => (getBytes_eq h.counted (h.live_ne hj₀ hne)).2
    rw [overwrite_all hresized.1] at hsets
    exact ⟨s', hcopy, hsets.push_values rfl⟩
  · rw [if_neg hlocked]
    have hdata : Memory.pData s.push j = some id := by
      refine pData_of_slot ?_
      show (s.slots ++ [some none])[j]? = _
      rw [List.getElem?_append_left hjlt]
      exact hslot
    have hopen : b.m_nRefs ≠ -1 := fun h => hlocked (hrefs.trans (congrArg some h))
    obtain ⟨s', hshare, hsets⟩ := share_sets hpush hslot₀ hdata hc hopen
    exact ⟨s', hshare, hsets.push_values rfl⟩

/-- **The destructor.** It is `Empty`, after which the slot of the object is gone. -/
theorem destroy_values (hs : s.Counted) (hi : Live s.values i v) :
    ∃ s' : Memory, ((s.empty i).map fun s => s.setSlot i none) = some s' ∧ s'.Counted ∧
      s'.values = s.values.set i none := by
  obtain ⟨s₁, hempty, hsets, hslots, -⟩ := empty_sets hs hi
  have hlt : i < s.slots.length := by
    have hget : s.values[i]? = some (some v) := hi
    obtain ⟨hlt, -⟩ := List.getElem?_eq_some_iff.1 hget
    exact Nat.lt_of_lt_of_eq hlt (List.length_map _)
  have hslot : s₁.slots[i]? = some (some none) := by
    rw [hslots]
    exact List.getElem?_set_self hlt
  rw [hempty]
  refine ⟨_, rfl, hsets.counted.drop hslot, ?_⟩
  refine (Shared.contents_drop s₁ i).trans ?_
  rw [show s₁.contents CBufferData.bytes [] = s₁.values from rfl, hsets.values, List.set_set]

end Memory

/-- **One operation**: it is carried out, the blocks are counted after it, and the objects are
changed as independent byte lists are. -/
theorem exec_spec (hs : s.Counted) {op : Op} (hop : op.Ok s.values) :
    ∃ s', op.exec s = some s' ∧ s'.Counted ∧ op.Spec s.values s'.values := by
  cases op with
  | construct =>
      obtain ⟨hpush, hvalues, -⟩ := Memory.push_live s hs
      exact ⟨_, rfl, hpush, hvalues⟩
  | constructFrom src =>
      obtain ⟨hpush, -, -, hlive⟩ := Memory.push_live s hs
      obtain ⟨s', hload, hsets⟩ := Memory.load_sets hpush hlive src
      exact ⟨s', hload, hsets.push_values rfl⟩
  | constructCopy j =>
      obtain ⟨w, hj⟩ := hop
      obtain ⟨s', hcopy, hcounted, hvalues⟩ := Memory.copyLast_values hs hj
      exact ⟨s', hcopy, hcounted, w, hj, hvalues⟩
  | destroy i =>
      obtain ⟨v, hi⟩ := hop
      exact Memory.destroy_values hs hi
  | assign i j =>
      obtain ⟨⟨v, hi⟩, w, hj⟩ := hop
      obtain ⟨s', hassign, hsets⟩ := Memory.assign_sets hs hi hj
      exact ⟨s', hassign, hsets.counted, w, hj, hsets.values⟩
  | appendBuffer i j =>
      obtain ⟨hij, v, w, hi, hj, hsum⟩ := hop
      obtain ⟨s', happend, hsets⟩ := Memory.appendBuffer_sets hs hi hj hij hsum
      exact ⟨s', happend, hsets.counted, v, w, hi, hj, hsets.values⟩
  | load i src =>
      obtain ⟨⟨v, hi⟩, -⟩ := hop
      obtain ⟨s', hload, hsets⟩ := Memory.load_sets hs hi src
      exact ⟨s', hload, hsets.counted, hsets.values⟩
  | append i src =>
      obtain ⟨v, hi, hsum⟩ := hop
      obtain ⟨s', happend, hsets⟩ := Memory.append_sets hs hi hsum
      exact ⟨s', happend, hsets.counted, v, hi, hsets.values⟩
  | setAt i nIndex newElement =>
      obtain ⟨⟨v, hi⟩, hindex⟩ := hop
      obtain ⟨s', v', hset, hresized, hsets⟩ := Memory.setAt_sets hs hi hindex newElement
      exact ⟨s', hset, hsets.counted, v, v', hi, hresized, hsets.values⟩
  | setBufSize i nNewSize =>
      obtain ⟨⟨v, hi⟩, -⟩ := hop
      obtain ⟨s', v', hgrow, hsets, hresized, -⟩ := Memory.grow_sets hs hi nNewSize false
      exact ⟨s', hgrow, hsets.counted, v, v', hi, hresized, hsets.values⟩
  | empty i =>
      obtain ⟨v, hi⟩ := hop
      obtain ⟨s', hempty, hsets, -⟩ := Memory.empty_sets hs hi
      exact ⟨s', hempty, hsets.counted, hsets.values⟩
  | lock i =>
      obtain ⟨v, hi⟩ := hop
      exact Memory.lock_values hs hi
  | unlock i =>
      obtain ⟨v, hi⟩ := hop
      exact Memory.unlock_values hs hi
  | freeExtra i =>
      obtain ⟨v, hi⟩ := hop
      exact Memory.freeExtra_values hs hi
  | writeData i nIndex b =>
      obtain ⟨v, hi, hindex⟩ := hop
      obtain ⟨s', hwrite, hsets⟩ := Memory.writeData_sets hs hi hindex b
      exact ⟨s', hwrite, hsets.counted, v, hi, hsets.values⟩

/-- The blocks are counted in every state of the runs. -/
theorem counted_reachable (h : system.ReachableBy (fun s op => op.Ok s.values) s) : s.Counted := by
  refine h.invariant (I := Memory.Counted) ?_ ?_
  · rintro s rfl
    exact ⟨fun _ => rfl, fun h => absurd h (by simp), fun _ _ => rfl⟩
  · intro s op s' hs hop hstep
    obtain ⟨s₁, hexec, hcounted, -⟩ := exec_spec hs hop
    rw [show op.exec s = some s' from hstep] at hexec
    exact Option.some.inj hexec ▸ hcounted

/-- **Buffers are independent values.**  In every state that operations lead to, a block that is
shared has the number of its objects in `m_nRefs`, and a locked one belongs to one object; and the
next operation is carried out and changes the objects as it would change independent byte lists. -/
theorem buffers_independent (h : system.ReachableBy (fun s op => op.Ok s.values) s) :
    (∀ id b, s.cell id = some b →
      (1 < s.sharers id → b.m_nRefs = s.sharers id) ∧ (b.m_nRefs = -1 → s.sharers id = 1)) ∧
    ∀ op : Op, op.Ok s.values → ∃ s', op.exec s = some s' ∧ op.Spec s.values s'.values := by
  have hs := counted_reachable h
  refine ⟨fun id b hc => ?_, fun op hop => ?_⟩
  · have hcount : s.sharers id = b.refs := by
      have hcount := hs.count id
      rwa [hc] at hcount
    unfold CBufferData.refs at hcount
    split_ifs at hcount with hlocked
    · exact ⟨fun hmany => absurd hmany (by omega), fun _ => hcount⟩
    · exact ⟨fun hmany => by omega, fun h => absurd h hlocked⟩
  · obtain ⟨s', hexec, -, hspec⟩ := exec_spec hs hop
    exact ⟨s', hexec, hspec⟩

/-- Two bytes, a copy of them that is written to, and the first assigned the second. The copy shared
the block until it was written to, so the first one still had its own bytes then. -/
theorem buffers_independent_assign : ∃ s s' : Memory, s.values = [some [1, 2], some [9, 2]] ∧
    Op.exec s (.assign 0 1) = some s' ∧ s'.values = [some [9, 2], some [9, 2]] := by
  have hreach : ∃ s, system.ReachableBy (fun s op => op.Ok s.values) s ∧
      s.values = [some [1, 2], some [9, 2]] := by
    refine ⟨_, .step (a := .writeData 1 0 9) (.step (a := .constructCopy 0)
      (.step (a := .constructFrom [1, 2]) (.init rfl) ?_ rfl) ?_ rfl) ?_ rfl, rfl⟩
    · exact (by decide : [1, 2].length < 0x100000000)
    · exact ⟨[1, 2], rfl⟩
    · exact ⟨[1, 2], rfl, Nat.two_pos⟩
  obtain ⟨s, hreach, hvalues⟩ := hreach
  have hok : (Op.assign 0 1).Ok s.values := by
    rw [hvalues]
    exact ⟨⟨[1, 2], rfl⟩, [9, 2], rfl⟩
  obtain ⟨s', hexec, w, hw, hset⟩ := (buffers_independent hreach).2 (.assign 0 1) hok
  rw [hvalues] at hw hset
  obtain rfl : [9, 2] = w := Option.some.inj (Option.some.inj hw)
  exact ⟨s, s', hvalues, hexec, hset⟩

end Buffer
end ECSUtil

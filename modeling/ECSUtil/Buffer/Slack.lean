/-
# What a buffer shows when it grows

`SetBufSize` and `SetAt` behind the end (`ECSUtil/cbuffer.cpp`).  A block that is shared is left for a new
one, and what is allocated is zero; but a block that is used in place, or is reallocated, still has the
bytes that it had before the buffer was made smaller.  What the buffer then shows is zero where these
bytes are (`reveals_nothing`).

`slack` is what a block has behind the contents and before a position, and `exposed` what a buffer
shows of it when it grows (`grow_exposed`).  It shows zeros exactly where nothing is left in the
block, or the block is not used again (`Hides`), which is a condition on the state before the call.
-/

import ECSUtil.Buffer.Values

namespace ECSUtil
namespace Buffer

namespace Memory

/-- The block of the object is shared. -/
def shared (s : Memory) (i : ℕ) : Bool := ((s.getRefs i).map fun n => decide (n > 1)).getD false

/-- The bytes of the block that are behind the contents and before a position. -/
def slack (s : Memory) (i k : ℕ) : Bytes :=
  ((s.internalData (s.pData i)).map fun b => (b.data.take k).drop b.m_nSize).getD []

/-- **Nothing is left in the block** before a position, or the block is not used again. -/
def Hides (s : Memory) (i k : ℕ) : Prop := s.shared i = true ∨ ∀ x ∈ s.slack i k, x = 0

/-- The bytes that a buffer shows when it grows. -/
def exposed (s : Memory) (i k : ℕ) : Bytes :=
  (if s.shared i then [] else s.slack i k) ++
    List.replicate (k - s.getBufSize i - (if s.shared i then [] else s.slack i k).length) 0

end Memory

/-- What makes a buffer larger and does not say what is in it. -/
inductive Enlarge
  | setBufSize (nNewSize : ℕ)
  | setAt (nIndex : ℕ) (newElement : UInt8)
  deriving DecidableEq, Repr

namespace Enlarge

/-- The operation on an object. -/
def op (i : ℕ) : Enlarge → Op
  | setBufSize nNewSize => .setBufSize i nNewSize
  | setAt nIndex newElement => .setAt i nIndex newElement

/-- Where what is not said ends. -/
def limit : Enlarge → ℕ
  | setBufSize nNewSize => nNewSize
  | setAt nIndex _ => nIndex

/-- What is written behind it. -/
def written : Enlarge → Bytes
  | setBufSize _ => []
  | setAt _ newElement => [newElement]

/-- The buffer gets larger, and its size fits in a `DWORD`. -/
def Ok (e : Enlarge) (v : Bytes) : Prop :=
  v.length ≤ e.limit ∧ v.length < e.limit + e.written.length ∧
    e.limit + e.written.length < 0x100000000

/-- **Zeros**, and what is written. -/
def zeros (e : Enlarge) (v : Bytes) : Bytes :=
  v ++ List.replicate (e.limit - v.length) 0 ++ e.written

/-- The object shows zeros. -/
def RevealsNothing (e : Enlarge) (s : Memory) (i : ℕ) (v : Bytes) : Prop :=
  ∃ s', (e.op i).exec s = some s' ∧ Live s'.values i (e.zeros v)

end Enlarge

variable {s s' : Memory} {i n k : ℕ} {v : Bytes}

/-- A block is as it was, with zeros behind it. -/
theorem take_append_zeros {data : Bytes} {size : ℕ} (hsize : size ≤ data.length) (hn : size ≤ n) :
    data.take n ++ List.replicate (n - data.length) 0 =
      data.take size ++ ((data.take n).drop size ++
        List.replicate (n - size - ((data.take n).drop size).length) 0) := by
  have hfront : data.take size = (data.take n).take size := by
    rw [List.take_take, Nat.min_eq_left hn]
  have hlength : n - data.length = n - size - ((data.take n).drop size).length := by
    rw [List.length_drop, List.length_take]
    omega
  rw [← List.append_assoc, hfront, List.take_append_drop, hlength]

namespace Memory

/-- A block that is changed in its cell is what the buffer has then. -/
theorem internalData_setCell {id : ℕ} {d : CBufferData}
    (hi : s.slots[i]? = some (some (some id))) :
    internalData (s.setCell id (some d)) (pData (s.setCell id (some d)) i) = some d := by
  have hslot : (s.setCell id (some d)).slots[i]? = some (some (some id)) := hi
  rw [pData_of_slot hslot]
  exact Function.update_self id (some d) s.cell

/-- A new block is what the buffer has that it was made for. -/
theorem internalData_alloc {b : CBufferData} (hi : i < s.slots.length) :
    internalData (s.alloc i b) (pData (s.alloc i b) i) = some b := by
  have hslot : (s.alloc i b).slots[i]? = some (some (some s.next)) := List.getElem?_set_self hi
  rw [pData_of_slot hslot]
  exact Function.update_self s.next (some b) s.cell

/-- The bytes of a buffer are those of its block. -/
theorem getBytes_of_data {b : CBufferData} (h : s.internalData (s.pData i) = some b) :
    s.getBytes i = b.bytes := by
  rw [getBytes, h]
  rfl

/-- The bytes of the block that `Grow` gives to an object that had none. -/
theorem bytes_createBuffer (n : ℕ) : (CBufferData.createBuffer n).bytes = List.replicate n 0 := by
  unfold CBufferData.bytes CBufferData.createBuffer
  rw [List.take_replicate, Nat.min_self]

/-- **A shared block is copied**, and the copy has zeros behind it. The new block is cleared when it
is allocated, and only as many bytes are copied as the old one shows. -/
theorem bytes_copy_createBuffer (b : CBufferData) (hn : b.m_nSize ≤ n) :
    ((CBufferData.createBuffer n).copy 0 (b.data.take (min b.m_nSize n))
      (CBufferData.take_le_createBuffer _ _ _)).bytes =
        b.bytes ++ List.replicate (n - b.m_nSize) 0 := by
  have hsize := b.size_le
  have hlength : (b.data.take (min b.m_nSize n)).length = b.m_nSize := by
    rw [List.length_take]
    omega
  show (overwrite (List.replicate n 0) 0 (b.data.take (min b.m_nSize n))).take n = _
  have hfits : 0 + (b.data.take (min b.m_nSize n)).length ≤ (List.replicate n (0 : UInt8)).length := by
    rw [hlength, List.length_replicate]
    omega
  rw [List.take_of_length_le (Nat.le_of_eq (by rw [length_overwrite hfits, List.length_replicate])), overwrite,
    List.take_zero, List.nil_append, hlength, List.drop_replicate, Nat.zero_add,
    Nat.min_eq_left hn]
  rfl

/-- A block that is used in place. -/
theorem bytes_resize (b : CBufferData) (h : n ≤ b.m_nAllocSize) (hn : b.m_nSize ≤ n) :
    (b.resize n h).bytes = b.bytes ++ ((b.data.take n).drop b.m_nSize ++
      List.replicate (n - b.m_nSize - ((b.data.take n).drop b.m_nSize).length) 0) := by
  have halloc := b.alloc_le
  have hzero : n - b.data.length = 0 := by omega
  have hsplit := take_append_zeros b.size_le hn
  rw [hzero, List.replicate_zero, List.append_nil] at hsplit
  exact hsplit

/-- A block that is reallocated. -/
theorem bytes_reAlloc (b : CBufferData) (hn : b.m_nSize ≤ n) :
    (b.reAlloc n).bytes = b.bytes ++ ((b.data.take n).drop b.m_nSize ++
      List.replicate (n - b.m_nSize - ((b.data.take n).drop b.m_nSize).length) 0) := by
  refine Eq.trans ?_ (take_append_zeros b.size_le hn)
  show (b.data.take (n + ALLOC_INCR_DEFAULT) ++
    List.replicate (n + ALLOC_INCR_DEFAULT - b.data.length) 0).take n = _
  rw [List.take_append, List.take_take, Nat.min_eq_left (by omega), List.take_replicate,
    List.length_take]
  congr 2
  omega

/-- **What a buffer shows**: `Grow` puts `exposed` behind the contents. A block that the buffer owns
alone keeps what stands behind its end; a copy has zeros there. -/
theorem grow_exposed (hs : s.Counted) (hi : Live s.values i v) (hn : v.length ≤ n) :
    ∃ s', s.grow i n false false = some s' ∧ s.Sets i (v ++ s.exposed i n) s' ∧
      (0 < n ∨ s.pData i ≠ none → s'.Owns i) := by
  obtain ⟨s', v', hgrow, hsets, -, howns⟩ := grow_sets hs hi n false
  have hbytes : s'.getBytes i = v' := (getBytes_eq hsets.counted (hsets.live hi)).2
  suffices hshown : s'.getBytes i = v ++ s.exposed i n by
    rw [hbytes] at hshown
    subst hshown
    exact ⟨s', hgrow, hsets, fun h => howns (h.imp_right fun hdata => ⟨rfl, hdata⟩)⟩
  have hsize := (getBytes_eq hs hi).1
  unfold grow at hgrow
  rcases hi.slot hs with ⟨hslot, rfl⟩ | ⟨id, b, hslot, hc, rfl⟩
  · have hlt : i < s.slots.length := (List.getElem?_eq_some_iff.1 hslot).1
    have hnone : s.exposed i n = List.replicate n 0 := by
      unfold exposed shared slack getRefs
      rw [hsize, pData_of_slot hslot]
      rfl
    rw [hnone]
    rw [hslot] at hgrow
    dsimp only at hgrow
    by_cases hzero : n = 0
    · rw [if_pos (.inr hzero)] at hgrow
      obtain rfl := Option.some.inj hgrow
      rw [hzero]
      exact (getBytes_eq hs hi).2
    · rw [if_neg (by simp [hzero])] at hgrow
      obtain rfl := Option.some.inj hgrow
      rw [getBytes_of_data (internalData_alloc hlt), bytes_createBuffer]
      rfl
  · rw [b.length_bytes] at hn hsize
    have hdata := internalData_of_slot hslot hc
    rw [hslot] at hgrow
    dsimp only at hgrow
    rw [hc] at hgrow
    dsimp only at hgrow
    have hrefs : s.getRefs i = some b.m_nRefs := by
      rw [getRefs, hdata]
      rfl
    have hslack : s.slack i n = (b.data.take n).drop b.m_nSize := by
      rw [slack, hdata]
      rfl
    by_cases hshared : b.m_nRefs > 1
    · have hexposed : s.exposed i n = List.replicate (n - b.m_nSize) 0 := by
        have h : s.shared i = true := by
          rw [shared, hrefs]
          exact decide_eq_true hshared
        rw [exposed, if_pos h, hsize]
        rfl
      have hlt : i < (s.release i id b).slots.length := by
        rw [(release_sets hs hslot hc hshared).2.1, List.length_set]
        exact (List.getElem?_eq_some_iff.1 hslot).1
      rw [if_pos hshared, if_neg Bool.false_ne_true] at hgrow
      obtain rfl := Option.some.inj hgrow
      rw [hexposed, getBytes_of_data (internalData_alloc hlt), bytes_copy_createBuffer b hn]
    · have hexposed : s.exposed i n = (b.data.take n).drop b.m_nSize ++
          List.replicate (n - b.m_nSize - ((b.data.take n).drop b.m_nSize).length) 0 := by
        have h : s.shared i = false := by
          rw [shared, hrefs]
          exact decide_eq_false hshared
        rw [exposed, h, if_neg Bool.false_ne_true, hsize, hslack]
      rw [if_neg hshared, if_neg Bool.false_ne_true] at hgrow
      rw [hexposed]
      split_ifs at hgrow with hfits hzero <;> obtain rfl := Option.some.inj hgrow
      · rw [getBytes_of_data (internalData_setCell hslot), bytes_resize b hfits.2 hn]
      · exact absurd ⟨rfl, by omega⟩ hfits
      · rw [getBytes_of_data (internalData_setCell hslot), bytes_reAlloc b hn]

/-- The bytes of a block behind the contents of the buffer, up to a place. -/
theorem slack_eq (s : Memory) (i k : ℕ) : s.slack i k =
    ((s.internalData (s.pData i)).elim [] fun b => (b.data.drop b.m_nSize).take (k - b.m_nSize)) := by
  unfold slack
  cases s.internalData (s.pData i) with
  | none => rfl
  | some b => exact List.drop_take

/-- What is left in the block, as far as another position. -/
theorem take_slack (hk : k ≤ n) : (s.slack i n).take (k - s.getBufSize i) = s.slack i k := by
  rw [slack_eq, slack_eq]
  unfold getBufSize
  cases s.internalData (s.pData i) with
  | none => exact List.take_nil
  | some b =>
      show ((b.data.drop b.m_nSize).take (n - b.m_nSize)).take (k - b.m_nSize) = _
      rw [List.take_take, Nat.min_eq_left (by omega)]
      rfl

/-- There are no more of them than up to that place. -/
theorem length_slack_le (s : Memory) (i k : ℕ) : (s.slack i k).length ≤ k - s.getBufSize i := by
  rw [slack_eq]
  unfold getBufSize
  cases s.internalData (s.pData i) with
  | none => exact Nat.zero_le _
  | some b => exact List.length_take_le _ _

/-- A buffer that grows shows as many bytes as it grows by. -/
theorem length_exposed (s : Memory) (i k : ℕ) : (s.exposed i k).length = k - s.getBufSize i := by
  have hle := length_slack_le s i k
  unfold exposed
  rw [List.length_append, List.length_replicate]
  split_ifs
  · rw [List.length_nil]
    omega
  · omega

/-- A larger buffer shows the same bytes first. -/
theorem take_exposed (hk : k ≤ n) : (s.exposed i n).take (k - s.getBufSize i) = s.exposed i k := by
  have hfill : ∀ {l l' : Bytes} {m m' : ℕ}, m' ≤ m → l.take m' = l' → l.length ≤ m →
      (l ++ List.replicate (m - l.length) 0).take m' = l' ++ List.replicate (m' - l'.length) 0 := by
    intro l l' m m' hle htake hlength
    have hlength' : l'.length = min m' l.length := by
      rw [← htake, List.length_take]
    rw [List.take_append, htake, List.take_replicate, hlength']
    congr 2
    omega
  unfold exposed
  refine hfill (by omega) ?_ ?_
  · split_ifs
    · exact List.take_nil
    · exact take_slack hk
  · split_ifs
    · exact Nat.zero_le _
    · exact length_slack_le s i n

/-- **It shows zeros exactly where nothing is left in the block.** A block that is copied shows
zeros always; one that is kept shows what its buffer had when it was larger. -/
theorem exposed_eq_zeros_iff (s : Memory) (i k : ℕ) :
    s.exposed i k = List.replicate (k - s.getBufSize i) 0 ↔ s.Hides i k := by
  have hfill : ∀ l : Bytes, l.length ≤ k - s.getBufSize i →
      (l ++ List.replicate (k - s.getBufSize i - l.length) 0 =
        List.replicate (k - s.getBufSize i) 0 ↔ ∀ x ∈ l, x = 0) := by
    intro l hlength
    rw [List.eq_replicate_iff, List.length_append, List.length_replicate]
    constructor
    · rintro ⟨-, h⟩ x hx
      exact h x (List.mem_append_left _ hx)
    · intro h
      refine ⟨by omega, fun x hx => ?_⟩
      rcases List.mem_append.1 hx with hx | hx
      · exact h x hx
      · exact List.eq_of_mem_replicate hx
  unfold exposed Hides
  cases s.shared i with
  | true =>
      rw [if_pos rfl, hfill [] (Nat.zero_le _)]
      exact ⟨fun _ => .inl rfl, fun _ x hx => absurd hx List.not_mem_nil⟩
  | false =>
      rw [if_neg Bool.false_ne_true, hfill _ (length_slack_le s i k)]
      exact ⟨.inr, fun h => h.resolve_left Bool.false_ne_true⟩

end Memory

/-- **One operation that makes a buffer larger.** Each of the operations grows the buffer up to a
limit of its own, and writes the rest itself. -/
theorem enlarge_spec (hs : s.Counted) (hi : Live s.values i v) {e : Enlarge} (he : e.Ok v) :
    ∃ s', (e.op i).exec s = some s' ∧ s.Sets i (v ++ s.exposed i e.limit ++ e.written) s' := by
  obtain ⟨hlimit, hlarger, hfits⟩ := he
  have hsize := (Memory.getBytes_eq hs hi).1
  cases e with
  | setBufSize n =>
      obtain ⟨s', hgrow, hsets, -⟩ := Memory.grow_exposed hs hi hlimit
      refine ⟨s', hgrow, ?_⟩
      show s.Sets i (v ++ s.exposed i n ++ []) s'
      rwa [List.append_nil]
  | setAt k b =>
      have hk : v.length ≤ k := hlimit
      have hk' : k + 1 < 0x100000000 := hfits
      obtain ⟨s₁, hgrow, hsets, howns⟩ := Memory.grow_exposed (n := k + 1) hs hi (by omega)
      have hlength : (v ++ s.exposed i (k + 1)).length = k + [b].length := by
        rw [List.length_append, Memory.length_exposed, hsize, List.length_singleton]
        omega
      obtain ⟨s₂, hcopy, hsets', -⟩ := Memory.copyTo_sets (n := k) (q := [b]) hsets.counted
        (hsets.live hi) (howns (.inl (Nat.succ_pos k))) (Nat.le_of_eq hlength.symm)
      have hfront : (v ++ s.exposed i (k + 1)).take k = v ++ s.exposed i k := by
        rw [List.take_append, List.take_of_length_le hk, ← hsize, Memory.take_exposed (Nat.le_succ k)]
      rw [overwrite_end hlength, hfront] at hsets'
      refine ⟨s₂, ?_, hsets.trans hsets'⟩
      show s.setAt i k b = some s₂
      unfold Memory.setAt
      dsimp only
      rw [hsize, if_pos hk, Memory.toDWORD_eq hk', hgrow, Option.bind_some, hcopy]

/-- **A buffer that grows reveals nothing** exactly where nothing is left in its block. What the
operation writes is the same in every state, so it is the part that `Grow` exposes that decides. -/
theorem revealsNothing_iff (hs : s.Counted) (hi : Live s.values i v) {e : Enlarge} (he : e.Ok v) :
    e.RevealsNothing s i v ↔ s.Hides i e.limit := by
  obtain ⟨s', hexec, hsets⟩ := enlarge_spec hs hi he
  have hsize := (Memory.getBytes_eq hs hi).1
  rw [← Memory.exposed_eq_zeros_iff, hsize]
  unfold Enlarge.RevealsNothing Enlarge.zeros
  constructor
  · rintro ⟨s₁, hexec', hlive⟩
    obtain rfl := Option.some.inj (hexec.symm.trans hexec')
    exact List.append_cancel_left (List.append_cancel_right ((hsets.live hi).unique hlive))
  · intro hzeros
    rw [hzeros] at hsets
    exact ⟨s', hexec, hsets.live hi⟩

/-- **Growing reveals nothing**: after any two histories that end with the same contents, an operation
that makes the buffer larger shows zeros in both, exactly where in both nothing is left in the block before
the end of what it shows, or the block is shared. -/
theorem reveals_nothing {s₁ s₂ : Memory} (h₁ : system.ReachableBy (fun s op => op.Ok s.values) s₁)
    (h₂ : system.ReachableBy (fun s op => op.Ok s.values) s₂) {i₁ i₂ : ℕ}
    (hi₁ : Live s₁.values i₁ v) (hi₂ : Live s₂.values i₂ v) {e : Enlarge} (he : e.Ok v) :
    (e.RevealsNothing s₁ i₁ v ∧ e.RevealsNothing s₂ i₂ v) ↔
      (s₁.Hides i₁ e.limit ∧ s₂.Hides i₂ e.limit) :=
  and_congr (revealsNothing_iff (counted_reachable h₁) hi₁ he)
    (revealsNothing_iff (counted_reachable h₂) hi₂ he)

/-- One byte, in a buffer that has a copy and in one that was never larger. The first shares its
block, which is copied; and the second has a block that was cleared and never written to behind its
end. -/
theorem reveals_nothing_copy : ∃ s₁ s₂ : Memory,
    (s₁.values = [some [1], some [1]] ∧ s₂.values = [some [1]]) ∧
      (Enlarge.setBufSize 3).RevealsNothing s₁ 0 [1] ∧ (Enlarge.setBufSize 3).RevealsNothing s₂ 0 [1] := by
  have hfirst : ∃ s, system.ReachableBy (fun s op => op.Ok s.values) s ∧
      s.values = [some [1], some [1]] ∧ s.shared 0 = true := by
    refine ⟨_, .step (a := .constructCopy 0) (.step (a := .setBufSize 0 1)
      (.step (a := .constructFrom [1, 2]) (.init rfl) ?_ rfl) ?_ rfl) ?_ rfl, rfl, rfl⟩
    · exact (by decide : [1, 2].length < 0x100000000)
    · exact ⟨⟨[1, 2], rfl⟩, by decide⟩
    · exact ⟨[1], rfl⟩
  have hsecond : ∃ s, system.ReachableBy (fun s op => op.Ok s.values) s ∧
      s.values = [some [1]] ∧ s.slack 0 3 = [] := by
    refine ⟨_, .step (a := .constructFrom [1]) (.init rfl) ?_ rfl, rfl, rfl⟩
    exact (by decide : [1].length < 0x100000000)
  obtain ⟨s₁, h₁, hv₁, hshared⟩ := hfirst
  obtain ⟨s₂, h₂, hv₂, hslack⟩ := hsecond
  have hhides : s₂.Hides 0 3 := .inr fun x hx => absurd (hslack ▸ hx) List.not_mem_nil
  refine ⟨s₁, s₂, ⟨hv₁, hv₂⟩, (reveals_nothing h₁ h₂ ?_ ?_ ?_).2 ⟨.inl hshared, hhides⟩⟩
  · show s₁.values[0]? = _
    rw [hv₁]
    rfl
  · show s₂.values[0]? = _
    rw [hv₂]
    rfl
  · exact ⟨by decide, by decide, by decide⟩

/-- **A buffer that was larger** shows what it had then, and one that was not shows zero. Both show
one byte of the same value before, and are asked for a second one. -/
theorem grow_reveals : ∃ s₁ s₂ s₁' s₂' : Memory,
    (system.ReachableBy (fun s op => op.Ok s.values) s₁ ∧
      system.ReachableBy (fun s op => op.Ok s.values) s₂) ∧
    (s₁.values = [some [1]] ∧ s₂.values = [some [1]]) ∧
      (Op.exec s₁ (.setBufSize 0 2) = some s₁' ∧ s₁'.values = [some [1, 7]]) ∧
      (Op.exec s₂ (.setBufSize 0 2) = some s₂' ∧ s₂'.values = [some [1, 0]]) := by
  have hfirst : ∃ s s', system.ReachableBy (fun s op => op.Ok s.values) s ∧ s.values = [some [1]] ∧
      Op.exec s (.setBufSize 0 2) = some s' ∧ s'.values = [some [1, 7]] := by
    refine ⟨_, _, .step (a := .setBufSize 0 1) (.step (a := .constructFrom [1, 7]) (.init rfl) ?_ rfl)
      ?_ rfl, rfl, rfl, rfl⟩
    · exact (by decide : [1, 7].length < 0x100000000)
    · exact ⟨⟨[1, 7], rfl⟩, by decide⟩
  have hsecond : ∃ s s', system.ReachableBy (fun s op => op.Ok s.values) s ∧ s.values = [some [1]] ∧
      Op.exec s (.setBufSize 0 2) = some s' ∧ s'.values = [some [1, 0]] := by
    refine ⟨_, _, .step (a := .constructFrom [1]) (.init rfl) ?_ rfl, rfl, rfl, rfl⟩
    exact (by decide : [1].length < 0x100000000)
  obtain ⟨s₁, s₁', h₁, hv₁, hexec₁, hshown₁⟩ := hfirst
  obtain ⟨s₂, s₂', h₂, hv₂, hexec₂, hshown₂⟩ := hsecond
  exact ⟨s₁, s₂, s₁', s₂', ⟨h₁, h₂⟩, ⟨hv₁, hv₂⟩, ⟨hexec₁, hshown₁⟩, hexec₂, hshown₂⟩

end Buffer
end ECSUtil

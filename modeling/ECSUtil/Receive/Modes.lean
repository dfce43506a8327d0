/-
# What the two modes leave in `RetData`

After the loop of `SendRequestInternal` (`ECSUtil/ECSConnection.cpp`), `RetData` is read for the detail
of an error.  Without a stream it has the whole body behind the bytes that are reserved
(`turns_memory`).  For a stream `RetData` is assigned what `RcvBuf` holds, so what one read brought
is gone with the next one, and a read that brought less than announced leaves other bytes behind:
`same_in_both_modes`.

Two reads or more are each shorter than the body (`length_lt_received`), so behind the last of them
`RcvBuf` has a byte that no read has written or that an earlier one has; the body would have to end
with a zero to be read the same (`atOnce_of_same`).
-/

import ECSUtil.Receive.Loop

namespace ECSUtil
namespace Receive

/-- The bytes that are reserved at the start of the buffer. -/
def reserved (cfg : Config) : Bytes := (List.range' 0 cfg.dwBufOffset.toNat).map cfg.block

/-- What `RetData` holds after some reads without a stream. -/
def stored (cfg : Config) (reads : List Read) : Bytes :=
  if reads = [] then [] else reserved cfg ++ received reads

/-- No size comes close to what a `DWORD` holds. -/
def Room (cfg : Config) (reads : List Read) : Prop :=
  Past (fun front r => cfg.dwBufOffset.toNat + (received front).length + r.dwSize.toNat +
    GDReadWriteChunkMax + Buffer.ALLOC_INCR_DEFAULT < 2 ^ 32) reads

/-- The error that is returned, where `scan` is what `ScanXml` with `XmlS3ErrorCB` makes of a text. -/
def errorDetail (scan : Bytes → S3Error → S3Error) (cfg : Config) (Error : S3Error) (s : State) :
    S3Error :=
  if HTTP_STATUS_BAD_REQUEST ≤ cfg.dwHttpError ∧ s.RetData ≠ [] then scan s.RetData Error
  else Error

/-- **An error reads the same in both modes**: the same bytes, and so the same detail. -/
def SameInBothModes (cfg : Config) (reads : List Read) : Prop :=
  ∃ s t, receive false cfg reads .complete = some s ∧ receive true cfg reads .complete = some t ∧
    s.RetData = t.RetData ∧
    ∀ scan Error, errorDetail scan cfg Error s = errorDetail scan cfg Error t

/-- Nothing is read, or everything at once, as announced. -/
def AtOnce (reads : List Read) : Prop :=
  reads = [] ∨ ∃ r, reads = [r] ∧ r.data.length = r.dwSize.toNat ∧
    r.dwSize.toNat + GDReadWriteChunkMax + Buffer.ALLOC_INCR_DEFAULT < 2 ^ 32

section

variable {cfg : Config} {r : Read} {front reads : List Read} {s s' : State}
  {block : ℕ → UInt8} {v : Bytes} {m n : ℕ}

/-- What is in front of a buffer does not depend on its size. -/
theorem take_setBufSize (hv : v.length ≤ m) (h : m ≤ n) :
    (setBufSize block v n).take m = setBufSize block v m := by
  unfold setBufSize
  rw [List.take_of_length_le (Nat.le_trans hv h), List.take_of_length_le hv, List.take_append,
    List.take_of_length_le hv, ← List.map_take, List.take_range'_of_length_ge (by omega)]

/-- A buffer of its own size is as it was. -/
theorem setBufSize_self : setBufSize block v v.length = v := by
  simp [setBufSize]

/-- The bytes in front are those that are reserved. -/
theorem length_reserved : (reserved cfg).length = cfg.dwBufOffset.toNat := by
  simp [reserved]

/-- Without a stream, a read is stored behind those before it. -/
theorem stored_concat (front : List Read) (r : Read) :
    stored cfg (front ++ [r]) = reserved cfg ++ received front ++ r.data := by
  rw [stored, if_neg (by simp), received_append, received_cons, received_nil, List.append_nil,
    List.append_assoc]

/-- The bytes before the next one. -/
theorem setBufSize_stored : setBufSize cfg.block (stored cfg front)
    (cfg.dwBufOffset.toNat + (received front).length) = reserved cfg ++ received front := by
  unfold stored
  split_ifs with hnil
  · subst hnil
    simp [setBufSize, reserved]
  · rw [← length_reserved, ← List.length_append]
    exact setBufSize_self

/-- A turn without a stream stores the read. -/
theorem turn_memory : s.turn false cfg r = s.store cfg r := if_neg Bool.false_ne_true

/-- The loop after some reads without a stream. -/
structure Storing (cfg : Config) (front : List Read) (s : State) : Prop where
  dwLen : s.dwLen.toNat = cfg.dwBufOffset.toNat + (received front).length
  RetData : s.RetData = stored cfg front
  room : Room cfg front

/-- At the start nothing is stored. -/
theorem storing_start : Storing cfg [] { dwLen := cfg.dwBufOffset } := ⟨rfl, rfl, Past.nil⟩

/-- **What a read without a stream adds.** The buffer grows by the size of the read, and its bytes
come behind those before. -/
theorem Storing.store (h : Storing cfg front s) (hs : s.store cfg r = some s') :
    Storing cfg (front ++ [r]) s' := by
  unfold State.store at hs
  rw [Option.ite_none_right_eq_some, Option.some.injEq] at hs
  obtain ⟨hroom, rfl⟩ := hs
  have hle := r.length_le
  have hsize : (s.dwLen + r.dwSize).toNat = s.dwLen.toNat + r.dwSize.toNat := by
    rw [UInt32.toNat_add]
    exact Nat.mod_eq_of_lt (by omega)
  have hlen : (s.dwLen + r.dwDownloaded).toNat = s.dwLen.toNat + r.data.length := by
    rw [UInt32.toNat_add, r.toNat_dwDownloaded]
    exact Nat.mod_eq_of_lt (by omega)
  refine ⟨?_, ?_, h.room.snoc (h.dwLen ▸ hroom)⟩
  · show (s.dwLen + r.dwDownloaded).toNat = _
    rw [hlen, h.dwLen, received_append, received_cons, received_nil, List.append_nil,
      List.length_append, Nat.add_assoc]
  · have hv : s.RetData.length ≤ s.dwLen.toNat := by
      rw [h.RetData, h.dwLen, stored]
      split_ifs
      · exact Nat.zero_le _
      · exact Nat.le_of_eq (by rw [List.length_append, length_reserved])
    show (overwrite _ _ _).take _ = _
    rw [hsize, hlen, take_overwrite (Nat.le_refl _) (by rw [length_setBufSize]; omega),
      overwrite_end (by rw [List.length_take, length_setBufSize]; omega), List.take_take,
      Nat.min_eq_left (by omega), take_setBufSize hv (by omega), h.RetData, h.dwLen,
      setBufSize_stored, stored_concat]

/-- A read for which there is room. -/
theorem Storing.exists_store (h : Storing cfg front s) (hroom : Room cfg (front ++ [r])) :
    ∃ s', s.store cfg r = some s' := by
  refine ⟨_, if_pos ?_⟩
  rw [h.dwLen]
  exact hroom.last

/-- **The reads without a stream** leave the body behind the reserved bytes. The induction is on the
reads, with what `Storing` says of those that were taken. -/
theorem turns_memory (h : State.turns false cfg reads { dwLen := cfg.dwBufOffset } = some s) :
    Storing cfg reads s := by
  have hrun := State.turns_invariant
    (I := fun s rest => ∃ front, front ++ rest = reads ∧ Storing cfg front s) ?_
    ⟨[], rfl, storing_start⟩ h
  · obtain ⟨front, hfront, hs⟩ := hrun
    rw [List.append_nil] at hfront
    exact hfront ▸ hs
  · rintro s r rest s' ⟨front, hfront, hs⟩ hturn
    exact ⟨front ++ [r], by rw [List.append_assoc]; exact hfront,
      hs.store (turn_memory.symm.trans hturn)⟩

/-- With room for all of them they succeed. -/
theorem exists_turns_memory (h : Storing cfg front s) (hroom : Room cfg (front ++ reads)) :
    ∃ s', State.turns false cfg reads s = some s' := by
  induction reads generalizing front s with
  | nil => exact ⟨s, rfl⟩
  | cons r reads ih =>
      rw [List.append_cons] at hroom
      have hfirst : Room cfg (front ++ [r]) := fun pre a post heq =>
        hroom pre a (post ++ reads) (by rw [heq, List.append_assoc]; rfl)
      obtain ⟨t, ht⟩ := h.exists_store hfirst
      obtain ⟨s', hs'⟩ := ih (h.store ht) hroom
      exact ⟨s', by rw [State.turns, turn_memory, ht, Option.bind_some, hs']⟩

/-- The first byte of `RcvBuf` that no read was long enough for is a zero. -/
theorem getD_readRcvBuf {p : ℕ} (hr : r.data.length ≤ p) (hs : s.RcvBuf.getD p 0 = 0) :
    (s.readRcvBuf r).getD p 0 = 0 := by
  have hzero : ∀ v : Bytes, v.getD p 0 = 0 →
      (setBufSize (fun _ => 0) v r.dwSize.toNat).getD p 0 = 0 := by
    intro v hv
    rw [List.getD_eq_getElem?_getD] at hv ⊢
    unfold setBufSize
    rw [List.getElem?_append, List.getElem?_take, List.getElem?_map]
    split_ifs
    · exact hv
    · rfl
    · cases (List.range' v.length (r.dwSize.toNat - v.length))[p - (v.take r.dwSize.toNat).length]?
      · rfl
      · rfl
  have hdrop := hzero s.RcvBuf hs
  rw [List.getD_eq_getElem?_getD] at hdrop ⊢
  rw [State.readRcvBuf, overwrite, List.take_zero, List.nil_append, Nat.zero_add,
    List.getElem?_append_right hr, List.getElem?_drop, Nat.add_sub_cancel' hr]
  exact hdrop

/-- The error reply of a stream: `RetData` is `RcvBuf`. -/
theorem turns_error (hstatus : HTTP_STATUS_BAD_REQUEST ≤ cfg.dwHttpError) {p : ℕ}
    (hreads : ∀ r ∈ reads, r.data.length ≤ p)
    (h : State.turns true cfg reads { dwLen := cfg.dwBufOffset } = some s) :
    s.RetData.getD p 0 = 0 := by
  have hrun := State.turns_invariant (I := fun s rest => s.RetData = s.RcvBuf ∧
    s.RcvBuf.getD p 0 = 0 ∧ ∀ r ∈ rest, r.data.length ≤ p) ?_ ⟨rfl, rfl, hreads⟩ h
  · rw [hrun.1]
    exact hrun.2.1
  · rintro s r rest s' ⟨-, hs, hreads⟩ hturn
    obtain rfl : s.keep r = s' := by
      simpa [State.turn, Nat.not_lt.2 hstatus] using hturn
    exact ⟨rfl, getD_readRcvBuf (hreads r List.mem_cons_self) hs,
      fun q hq => hreads q (List.mem_cons_of_mem _ hq)⟩

/-- Without entries nothing happens behind the last read. -/
theorem receive_eq_turns {bStream : Bool} {ending : Ending}
    (h : bStream = false ∨ HTTP_STATUS_BAD_REQUEST ≤ cfg.dwHttpError) :
    receive bStream cfg reads ending = State.turns bStream cfg reads { dwLen := cfg.dwBufOffset } := by
  have hfinish : ∀ s : State, s.finish bStream cfg ending = s := by
    intro s
    cases ending with
    | complete =>
        refine if_neg fun hboth => ?_
        rcases h with hmode | hstatus
        · exact Bool.false_ne_true (hmode.symm.trans hboth.1)
        · exact Nat.not_lt.2 hstatus hboth.2
    | failed dwError => rfl
  rw [receive, funext hfinish, Option.map_id']

/-- A read brings something, for one that does not is the end. -/
theorem length_received_pos (h : reads ≠ []) : 0 < (received reads).length := by
  obtain ⟨r, rest, rfl⟩ := List.exists_cons_of_ne_nil h
  rw [received_cons, List.length_append]
  have := List.length_pos_iff.2 r.data_ne
  omega

/-- Of two reads or more, each is shorter than the body. -/
theorem length_lt_received (hr : r ∈ reads) (h : reads ≠ [r]) :
    r.data.length < (received reads).length := by
  obtain ⟨front, rest, rfl⟩ := List.append_of_mem hr
  rw [received_append, received_cons, List.length_append, List.length_append]
  by_cases hfront : front = []
  · subst hfront
    have hrest : rest ≠ [] := fun hnil => h (by rw [hnil, List.nil_append])
    have := length_received_pos hrest
    omega
  · have := length_received_pos hfront
    omega

/-- Without reserved bytes. -/
theorem stored_eq_received (hoffset : cfg.dwBufOffset = 0) : stored cfg reads = received reads := by
  unfold stored reserved
  split_ifs with hnil
  · rw [hnil, received_nil]
  · rw [hoffset]
    rfl

/-- The same bytes read the same. -/
theorem sameInBothModes_of_retData {s t : State} (hs : receive false cfg reads .complete = some s)
    (ht : receive true cfg reads .complete = some t) (h : s.RetData = t.RetData) :
    SameInBothModes cfg reads :=
  ⟨s, t, hs, ht, h, fun _ _ => by unfold errorDetail; rw [h]⟩

/-- What comes at once reads the same. -/
theorem same_of_atOnce (hstatus : HTTP_STATUS_BAD_REQUEST ≤ cfg.dwHttpError)
    (hoffset : cfg.dwBufOffset = 0) (h : AtOnce reads) : SameInBothModes cfg reads := by
  rcases h with rfl | ⟨r, rfl, hfull, hsize⟩
  · exact sameInBothModes_of_retData (receive_eq_turns (.inl rfl))
      (receive_eq_turns (.inr hstatus)) rfl
  · have hroom : Room cfg [r] := by
      refine Past.nil.snoc ?_
      rw [hoffset]
      simpa using hsize
    obtain ⟨s, hs⟩ := exists_turns_memory storing_start hroom
    have hturn : State.turns true cfg [r] { dwLen := cfg.dwBufOffset } =
        some (State.keep { dwLen := cfg.dwBufOffset } r) := by
      simp [State.turns, State.turn, Nat.not_lt.2 hstatus]
    refine sameInBothModes_of_retData ((receive_eq_turns (.inl rfl)).trans hs)
      ((receive_eq_turns (.inr hstatus)).trans hturn) ?_
    rw [(turns_memory hs).RetData, stored_eq_received hoffset, received_cons, received_nil,
      List.append_nil]
    exact (overwrite_all (length_setBufSize.trans hfull.symm)).symm

/-- What does not come at once and does not end with a zero reads otherwise. -/
theorem atOnce_of_same (hstatus : HTTP_STATUS_BAD_REQUEST ≤ cfg.dwHttpError)
    (hoffset : cfg.dwBufOffset = 0) (hlast : (received reads).getLast? ≠ some 0)
    (h : SameInBothModes cfg reads) : AtOnce reads := by
  obtain ⟨s, t, hs, ht, hsame, -⟩ := h
  rw [receive_eq_turns (.inl rfl)] at hs
  rw [receive_eq_turns (.inr hstatus)] at ht
  have hmemory := turns_memory hs
  rw [hmemory.RetData, stored_eq_received hoffset] at hsame
  by_cases hnil : reads = []
  · exact .inl hnil
  by_cases hone : ∃ r, reads = [r]
  · obtain ⟨r, rfl⟩ := hone
    obtain rfl : State.keep { dwLen := cfg.dwBufOffset } r = t := by
      simpa [State.turns, State.turn, Nat.not_lt.2 hstatus] using ht
    refine .inr ⟨r, rfl, ?_, ?_⟩
    · have hlength := congrArg List.length hsame
      change _ = (overwrite (setBufSize _ _ _) 0 r.data).length at hlength
      rw [length_overwrite (by rw [length_setBufSize, Nat.zero_add]; exact r.length_le),
        length_setBufSize, received_cons, received_nil, List.append_nil] at hlength
      exact hlength
    · have hroom := hmemory.room [] r [] rfl
      rw [hoffset] at hroom
      simpa using hroom
  · -- at the place of the last byte there is still a zero
    have hpos := length_received_pos hnil
    have hzero := turns_error (p := (received reads).length - 1) hstatus (fun r hr => by
      have := length_lt_received hr fun hr => hone ⟨r, hr⟩
      omega) ht
    rw [← hsame, List.getD_eq_getElem?_getD, ← List.getLast?_eq_getElem?] at hzero
    obtain ⟨b, hb⟩ := Option.ne_none_iff_exists'.1
      (List.getLast?_eq_none_iff.not.2 (List.length_pos_iff.1 hpos))
    rw [hb, Option.getD_some] at hzero
    exact absurd (hzero ▸ hb) hlast

end

/-- **An error reads the same in both modes** if the body comes at once, as long as announced, or there
is none; and, for a body that does not end with a zero, as no XML text does, only then. -/
theorem same_in_both_modes {cfg : Config} (hstatus : HTTP_STATUS_BAD_REQUEST ≤ cfg.dwHttpError)
    (hoffset : cfg.dwBufOffset = 0) (reads : List Read) :
    (AtOnce reads → SameInBothModes cfg reads) ∧
      ((received reads).getLast? ≠ some 0 → (SameInBothModes cfg reads ↔ AtOnce reads)) :=
  ⟨same_of_atOnce hstatus hoffset,
    fun hlast => ⟨atOnce_of_same hstatus hoffset hlast, same_of_atOnce hstatus hoffset⟩⟩

/-- Two bytes that come one by one. -/
def oneByOne : List Read :=
  [⟨1, [60], by decide, by decide⟩, ⟨1, [62], by decide, by decide⟩]

/-- Only the second one is left by a stream. The body is that of an error, of which a stream keeps
the last read, and memory keeps all of them. -/
theorem oneByOne_differs : ¬SameInBothModes { dwHttpError := 404 } oneByOne := by
  intro h
  rcases atOnce_of_same (by decide) rfl (by decide) h with hnil | ⟨r, hr, -⟩
  · exact List.cons_ne_nil _ _ hnil
  · exact absurd (congrArg List.length hr) (show 2 ≠ 1 by decide)

/-- At once they read the same. -/
theorem same_in_both_modes_once :
    SameInBothModes { dwHttpError := 404 } [⟨2, [60, 62], by decide, by decide⟩] :=
  (same_in_both_modes (by decide) rfl _).1 (.inr ⟨_, rfl, by decide, by decide⟩)

end Receive
end ECSUtil

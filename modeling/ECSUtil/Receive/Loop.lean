/-
# The receive loop

The loop of `SendRequestInternal` (`ECSUtil/ECSConnection.cpp`) that reads what the server sends, into
`RetData` or, for a stream, into entries that are pushed to `pStreamReceive`.  The reads are a
parameter: what was announced, and what then came.

The place of the next byte is `dwLen`, a `DWORD` that starts at `dwBufOffset`, in either mode, and the
offset of an entry is taken from it: `offsets_exact_iff`.

The two modes go through the same reads, and the place counts what all of them brought
(`Streaming`).  The offsets are exact as long as it does not wrap (`OffsetsWrap`), which it does
where the bytes that are reserved and those of the object exceed a `DWORD`.
-/

import Mathlib.Algebra.Group.Nat.Defs
import ECSUtil.Buffer.Values
import ECSUtil.Conn.Error
import ECSUtil.Lib.Trace

namespace ECSUtil
namespace Receive

def GDReadWriteChunkMax : ℕ := 0x100000

def HTTP_STATUS_BAD_REQUEST : ℕ := 400

/-- A read.  One that gets nothing is the end, of which zero bytes are announced. -/
structure Read where
  /-- The bytes that are announced. -/
  dwSize : UInt32
  data : Bytes
  data_ne : data ≠ []
  length_le : data.length ≤ dwSize.toNat

/-- `dwDownloaded`. -/
def Read.dwDownloaded (r : Read) : UInt32 := .ofNat r.data.length

/-- The bytes of several reads. -/
def received (reads : List Read) : Bytes := reads.flatMap Read.data

/-- What the loop depends on. -/
structure Config where
  dwHttpError : ℕ
  dwBufOffset : UInt32 := 0
  /-- The bytes of the block of `RetData` that nothing is read to. -/
  block : ℕ → UInt8 := fun _ => 0

/-- How the loop ends. -/
inductive Ending
  /-- Zero bytes are announced. -/
  | complete
  /-- A call to WinHTTP fails. -/
  | failed (dwError : DWORD)
  deriving DecidableEq, Repr

structure State where
  dwLen : UInt32
  RetData : Bytes := []
  /-- `RcvBuf.Data`. -/
  RcvBuf : Bytes := []
  /-- What was pushed. -/
  StreamData : List StreamDataEntry := []
  ullReadBytes : ℕ := 0

/-- `SetBufSize`: behind the bytes that are kept stand those of the block. -/
def setBufSize (block : ℕ → UInt8) (v : Bytes) (n : ℕ) : Bytes :=
  v.take n ++ (List.range' v.length (n - v.length)).map block

namespace State

/-- The read to `RcvBuf`, whose block comes with zeros. -/
def readRcvBuf (s : State) (r : Read) : Bytes :=
  overwrite (setBufSize (fun _ => 0) s.RcvBuf r.dwSize.toNat) 0 r.data

/-- A stream: what came is pushed. -/
def push (s : State) (r : Read) : State :=
  let Data := (s.readRcvBuf r).take r.dwDownloaded.toNat
  { s with
    dwLen := s.dwLen + r.dwDownloaded
    RcvBuf := Data
    StreamData := s.StreamData ++ [{ data := Data, ullOffset := s.dwLen.toNat }]
    ullReadBytes := s.ullReadBytes + r.dwDownloaded.toNat }

/-- A stream, for a reply with an error. -/
def keep (s : State) (r : Read) : State :=
  { s with
    dwLen := s.dwLen + r.dwDownloaded
    RcvBuf := s.readRcvBuf r
    RetData := s.readRcvBuf r }

/-- No stream.  Where a size may wrap around while the buffer is enlarged, the model says nothing. -/
def store (s : State) (cfg : Config) (r : Read) : Option State :=
  if s.dwLen.toNat + r.dwSize.toNat + GDReadWriteChunkMax + Buffer.ALLOC_INCR_DEFAULT < 2 ^ 32 then
    some { s with
      dwLen := s.dwLen + r.dwDownloaded
      RetData := (overwrite (setBufSize cfg.block s.RetData (s.dwLen + r.dwSize).toNat)
        s.dwLen.toNat r.data).take (s.dwLen + r.dwDownloaded).toNat }
  else none

/-- One turn of the loop. -/
def turn (s : State) (bStream : Bool) (cfg : Config) (r : Read) : Option State :=
  if bStream then
    some (if cfg.dwHttpError < HTTP_STATUS_BAD_REQUEST then s.push r else s.keep r)
  else s.store cfg r

/-- The turns of the loop. -/
def turns (bStream : Bool) (cfg : Config) : List Read → State → Option State
  | [], s => some s
  | r :: reads, s => (s.turn bStream cfg r).bind (turns bStream cfg reads)

/-- The last turn. -/
def finish (s : State) (bStream : Bool) (cfg : Config) : Ending → State
  | .complete =>
      if bStream ∧ cfg.dwHttpError < HTTP_STATUS_BAD_REQUEST then
        { s with
          RcvBuf := []
          StreamData := s.StreamData ++ [{ ullOffset := s.dwLen.toNat, bLast := true }] }
      else s
  | .failed _ => s

end State

/-- The loop. -/
def receive (bStream : Bool) (cfg : Config) (reads : List Read) (ending : Ending) : Option State :=
  (State.turns bStream cfg reads { dwLen := cfg.dwBufOffset }).map fun s =>
    s.finish bStream cfg ending

section

variable {bStream : Bool} {cfg : Config} {r : Read} {reads : List Read} {s s' : State}
  {block : ℕ → UInt8} {v : Bytes} {n : ℕ}

/-- No read receives nothing. -/
@[simp] theorem received_nil : received [] = [] := rfl

/-- A read receives its data, in front of those behind it. -/
@[simp] theorem received_cons : received (r :: reads) = r.data ++ received reads :=
  List.flatMap_cons

/-- Reads receive their data one after the other. -/
theorem received_append (reads more : List Read) :
    received (reads ++ more) = received reads ++ received more := List.flatMap_append

/-- The count that a read returns is that of its bytes. -/
theorem Read.toNat_dwDownloaded (r : Read) : r.dwDownloaded.toNat = r.data.length := by
  have hle := r.length_le
  have hlt := r.dwSize.toNat_lt
  rw [Read.dwDownloaded, UInt32.toNat_ofNat']
  exact Nat.mod_eq_of_lt (by omega)

/-- A buffer has the size that it is given. -/
@[simp] theorem length_setBufSize : (setBufSize block v n).length = n := by
  rw [setBufSize, List.length_append, List.length_take, List.length_map, List.length_range']
  omega

/-- What came is at the start of `RcvBuf`. -/
theorem take_readRcvBuf : (s.readRcvBuf r).take r.dwDownloaded.toNat = r.data := by
  rw [r.toNat_dwDownloaded, State.readRcvBuf, overwrite, List.take_zero, List.nil_append,
    List.take_left]

/-- **A run of the loop**: what every turn keeps holds after any number of them. The invariant
speaks of the reads that are left, which become fewer by one with each turn. -/
theorem State.turns_invariant {I : State → List Read → Prop}
    (hstep : ∀ s r reads s', I s (r :: reads) → s.turn bStream cfg r = some s' → I s' reads)
    (hs : I s reads) (h : State.turns bStream cfg reads s = some s') : I s' [] := by
  induction reads generalizing s with
  | nil => exact Option.some.inj h ▸ hs
  | cons r reads ih =>
      obtain ⟨t, ht, h⟩ := Option.bind_eq_some_iff.1 h
      exact ih (hstep s r reads t hs ht) h

/-- A stream takes every read. -/
theorem State.turns_stream_isSome (cfg : Config) (reads : List Read) (s : State) :
    (State.turns true cfg reads s).isSome = true := by
  induction reads generalizing s with
  | nil => rfl
  | cons r reads ih => exact ih _

/-- Each entry has the number of the bytes that were pushed before it as its offset. -/
def OffsetsExact (entries : List StreamDataEntry) : Prop :=
  Past (fun front e => e.ullOffset = (body front).length) entries

/-- **The offsets of the entries** are those of a `DWORD` that starts at `dwBufOffset`. -/
def OffsetsWrap (cfg : Config) (entries : List StreamDataEntry) : Prop :=
  Past (fun front e => e.ullOffset = (cfg.dwBufOffset.toNat + (body front).length) % 2 ^ 32) entries

/-- Before a turn of a stream, with the reads that are to come. -/
structure Streaming (cfg : Config) (all : List Read) (s : State) (reads : List Read) : Prop where
  dwLen : s.dwLen.toNat = (cfg.dwBufOffset.toNat + (body s.StreamData).length) % 2 ^ 32
  wrap : OffsetsWrap cfg s.StreamData
  data : s.StreamData.map StreamDataEntry.data ++ reads.map Read.data = all.map Read.data

/-- The body is the data of the entries, one behind the other. -/
theorem body_eq_flatten (entries : List StreamDataEntry) :
    body entries = (entries.map StreamDataEntry.data).flatten := List.flatMap_def ..

/-- What was received is the data of the reads, one behind the other. -/
theorem received_eq_flatten (reads : List Read) :
    received reads = (reads.map Read.data).flatten := List.flatMap_def ..

/-- The next read becomes the next entry. -/
theorem Streaming.push {all : List Read} (h : Streaming cfg all s (r :: reads)) :
    Streaming cfg all (s.push r) reads := by
  have hdata : (s.push r).StreamData =
      s.StreamData ++ [{ data := r.data, ullOffset := s.dwLen.toNat }] := by
    unfold State.push
    rw [take_readRcvBuf]
  refine ⟨?_, ?_, ?_⟩
  · show (s.dwLen + r.dwDownloaded).toNat = _
    rw [hdata, UInt32.toNat_add, h.dwLen, r.toNat_dwDownloaded, body_append, List.length_append,
      body_cons, body_nil, List.append_nil, Nat.mod_add_mod, Nat.add_assoc]
  · rw [hdata]
    exact h.wrap.snoc h.dwLen
  · rw [hdata, ← h.data, List.map_append, List.append_assoc]
    rfl

/-- What a list with such offsets has to do with the exact ones. -/
theorem offsetsExact_iff_of_wrap {entries : List StreamDataEntry} (h : OffsetsWrap cfg entries) :
    OffsetsExact entries ↔
      entries = [] ∨ cfg.dwBufOffset = 0 ∧ (body entries.dropLast).length < 2 ^ 32 := by
  constructor
  · intro hexact
    rcases List.eq_nil_or_concat entries with hnil | ⟨front, last, heq⟩
    · exact .inl hnil
    · rw [List.concat_eq_append] at heq
      refine .inr ⟨?_, ?_⟩
      · obtain ⟨e, rest, hcons⟩ := List.exists_cons_of_ne_nil (l := entries) (by simp [heq])
        have hzero := (h [] e rest hcons).symm.trans (hexact [] e rest hcons)
        rw [body_nil, List.length_nil, Nat.add_zero, Nat.mod_eq_of_lt cfg.dwBufOffset.toNat_lt] at hzero
        exact UInt32.toNat_inj.1 hzero
      · have hlast := (hexact front last [] heq).symm.trans (h front last [] heq)
        rw [heq, List.dropLast_concat, hlast]
        exact Nat.mod_lt _ (by decide)
  · rintro (rfl | ⟨hoffset, hlt⟩)
    · exact Past.nil
    · intro front e rest heq
      rw [h front e rest heq, hoffset, show (0 : UInt32).toNat = 0 from rfl, Nat.zero_add]
      refine Nat.mod_eq_of_lt (Nat.lt_of_le_of_lt ?_ hlt)
      rw [heq, List.dropLast_append_of_ne_nil (List.cons_ne_nil _ _), body_append,
        List.length_append]
      exact Nat.le_add_right _ _

/-- After the turns of a stream that gets no error. -/
theorem streaming_turns (hstatus : cfg.dwHttpError < HTTP_STATUS_BAD_REQUEST)
    (h : State.turns true cfg reads { dwLen := cfg.dwBufOffset } = some s) :
    Streaming cfg reads s [] := by
  refine State.turns_invariant (I := Streaming cfg reads) ?_ ?_ h
  · intro s r rest s' hs hturn
    obtain rfl : s.push r = s' := by
      simpa [State.turn, hstatus] using hturn
    exact hs.push
  · exact ⟨(Nat.mod_eq_of_lt cfg.dwBufOffset.toNat_lt).symm, Past.nil, rfl⟩

/-- Nothing is pushed of a reply with an error. -/
theorem streamData_turns (hstatus : ¬cfg.dwHttpError < HTTP_STATUS_BAD_REQUEST)
    (h : State.turns true cfg reads { dwLen := cfg.dwBufOffset } = some s) :
    s.StreamData = [] := by
  refine State.turns_invariant (I := fun s _ => s.StreamData = []) ?_ rfl h
  intro s r rest s' hs hturn
  obtain rfl : s.keep r = s' := by
    simpa [State.turn, hstatus] using hturn
  exact hs

/-- The entries of a stream, and the bytes before the last of them. -/
structure Entries (cfg : Config) (front : Bytes) (entries : List StreamDataEntry) : Prop where
  wrap : OffsetsWrap cfg entries
  body : body entries.dropLast = front

/-- A reply that is read to its end. -/
theorem entries_complete (cfg : Config) (reads : List Read)
    (hstatus : cfg.dwHttpError < HTTP_STATUS_BAD_REQUEST) :
    ∃ s, receive true cfg reads .complete = some s ∧ s.StreamData ≠ [] ∧
      Entries cfg (received reads) s.StreamData := by
  obtain ⟨t, ht⟩ := Option.isSome_iff_exists.1
    (State.turns_stream_isSome cfg reads { dwLen := cfg.dwBufOffset })
  have h := streaming_turns hstatus ht
  have hpushed : (t.finish true cfg .complete).StreamData =
      t.StreamData ++ [{ ullOffset := t.dwLen.toNat, bLast := true }] := by
    rw [State.finish, if_pos ⟨rfl, hstatus⟩]
  refine ⟨_, by rw [receive, ht]; rfl, by simp [hpushed], ?_, ?_⟩
  · rw [hpushed]
    exact h.wrap.snoc h.dwLen
  · rw [hpushed, List.dropLast_concat, body_eq_flatten, received_eq_flatten]
    exact congrArg List.flatten (by simpa using h.data)

/-- A reply that breaks off. -/
theorem entries_failed (cfg : Config) (reads : List Read)
    (hstatus : cfg.dwHttpError < HTTP_STATUS_BAD_REQUEST) (dwError : DWORD) :
    ∃ s, receive true cfg reads (.failed dwError) = some s ∧ (s.StreamData = [] ↔ reads = []) ∧
      Entries cfg (received reads.dropLast) s.StreamData := by
  obtain ⟨t, ht⟩ := Option.isSome_iff_exists.1
    (State.turns_stream_isSome cfg reads { dwLen := cfg.dwBufOffset })
  have h := streaming_turns hstatus ht
  have hdata : t.StreamData.map StreamDataEntry.data = reads.map Read.data := by
    simpa using h.data
  refine ⟨t, by rw [receive, ht]; rfl, ?_, h.wrap, ?_⟩
  · rw [← List.map_eq_nil_iff (f := StreamDataEntry.data), hdata, List.map_eq_nil_iff]
  · rw [body_eq_flatten, List.map_dropLast, hdata, ← List.map_dropLast, ← received_eq_flatten]

/-- A reply with an error. -/
theorem entries_error (cfg : Config) (reads : List Read)
    (hstatus : HTTP_STATUS_BAD_REQUEST ≤ cfg.dwHttpError) (ending : Ending) :
    ∃ s, receive true cfg reads ending = some s ∧ s.StreamData = [] := by
  obtain ⟨t, ht⟩ := Option.isSome_iff_exists.1
    (State.turns_stream_isSome cfg reads { dwLen := cfg.dwBufOffset })
  have hnil := streamData_turns (Nat.not_lt.2 hstatus) ht
  refine ⟨t.finish true cfg ending, by rw [receive, ht]; rfl, ?_⟩
  cases ending with
  | complete => rwa [State.finish, if_neg fun h => Nat.not_lt.2 hstatus h.2]
  | failed dwError => exact hnil

/-- When the offsets are exact. -/
def OffsetsKept (cfg : Config) (reads : List Read) : Ending → Prop
  | .complete => cfg.dwBufOffset = 0 ∧ (received reads).length < 2 ^ 32
  | .failed _ => reads = [] ∨ cfg.dwBufOffset = 0 ∧ (received reads.dropLast).length < 2 ^ 32

end

/-- **The offsets of a stream**: each entry that is pushed, the last one included, has the number of
bytes pushed before it as its offset, if and only if nothing is pushed, as of an error, or nothing
is reserved and fewer than 2^32 bytes come before the last entry. -/
theorem offsets_exact_iff (cfg : Config) (reads : List Read) (ending : Ending) :
    ∃ s, receive true cfg reads ending = some s ∧ (OffsetsExact s.StreamData ↔
      HTTP_STATUS_BAD_REQUEST ≤ cfg.dwHttpError ∨ OffsetsKept cfg reads ending) := by
  by_cases hstatus : cfg.dwHttpError < HTTP_STATUS_BAD_REQUEST
  · rw [or_iff_right (Nat.not_le.2 hstatus)]
    cases ending with
    | complete =>
        obtain ⟨s, hs, hne, h⟩ := entries_complete cfg reads hstatus
        refine ⟨s, hs, ?_⟩
        rw [offsetsExact_iff_of_wrap h.wrap, h.body]
        exact or_iff_right hne
    | failed dwError =>
        obtain ⟨s, hs, hnil, h⟩ := entries_failed cfg reads hstatus dwError
        refine ⟨s, hs, ?_⟩
        rw [offsetsExact_iff_of_wrap h.wrap, h.body, hnil]
        rfl
  · obtain ⟨s, hs, hnil⟩ := entries_error cfg reads (Nat.not_lt.1 hstatus) ending
    refine ⟨s, hs, ?_⟩
    rw [hnil]
    exact iff_of_true Past.nil (.inl (Nat.not_lt.1 hstatus))

/-- A read that brings the zeros that were announced. -/
def zeros (dwSize : UInt32) (h : dwSize ≠ 0) : Read where
  dwSize := dwSize
  data := List.replicate dwSize.toNat 0
  data_ne := by
    rw [Ne, List.replicate_eq_nil_iff]
    exact fun h0 => h (UInt32.toNat_inj.1 h0)
  length_le := Nat.le_of_eq List.length_replicate

/-- Two reads of the same length receive twice as much. -/
theorem length_received_zeros (dwSize : UInt32) (h : dwSize ≠ 0) :
    (received [zeros dwSize h, zeros dwSize h]).length = dwSize.toNat + dwSize.toNat := by
  rw [received_cons, received_cons, received_nil, List.append_nil, List.length_append, zeros,
    List.length_replicate]

/-- The last entry of a stream of 4 GiB, which comes in two reads, does not have its offset. The
length is counted in a `DWORD`, and is zero again at the end. -/
theorem offsets_wrapped : ∃ s, receive true { dwHttpError := 200 }
    [zeros 0x80000000 (by decide), zeros 0x80000000 (by decide)] .complete = some s ∧
    ¬OffsetsExact s.StreamData := by
  obtain ⟨s, hs, hne, h⟩ := entries_complete { dwHttpError := 200 }
    [zeros 0x80000000 (by decide), zeros 0x80000000 (by decide)] (show 200 < 400 by decide)
  refine ⟨s, hs, ?_⟩
  rw [offsetsExact_iff_of_wrap h.wrap, h.body, length_received_zeros]
  rintro (hnil | ⟨-, hlt⟩)
  · exact hne hnil
  · exact absurd hlt (by decide)

end Receive
end ECSUtil

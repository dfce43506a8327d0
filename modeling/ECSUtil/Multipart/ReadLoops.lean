/-
# The loops that read a file

The initial fill and the refill of `DoS3MultiPartUpload`, and the loop of `CalcUploadChecksum`
(`ECSUtil/FileSupport.cpp`), one turn at a time.  What `IStream::Read` does is a parameter
(`Source`): the result of each call, and how many bytes it delivers of those that are asked for.
Where the file was truncated, all reads behind its end deliver nothing.

The loop of `CalcUploadChecksum` ends at a read that delivers nothing.  The other two do not look at
that: `readLoops_end`.

Each loop is a turn function, and that it ends is `Loop.Ends`, with what is true of its end.  A turn
is a read, so the loops that end do so by the number of reads that are left
(`Loop.ends_of_measure`); the others are where they were, turn after turn.
-/

import Mathlib.Tactic.Common
import ECSUtil.Lib.Loop
import ECSUtil.Multipart.Upload

namespace ECSUtil
namespace Multipart

/-- What each call of `IStream::Read` returns, and the most that it delivers. -/
abbrev Source := ℕ → DWORD × ℕ

/-- A result that is thrown. -/
def readFails (dwError : DWORD) : Bool := dwError ≠ S_OK && dwError ≠ S_FALSE

/-- What a loop leaves: its error, if it threw one, and the most entries it had in the queue. -/
structure LoopEnd where
  dwError : DWORD := ERROR_SUCCESS
  queued : ℕ := 0
  deriving DecidableEq, Repr

/-- Where the initial fill is: the number of the next read, `ullPartSize` and `dwRecCount`. -/
structure FillState where
  reads : ℕ := 0
  ullPartSize : ℕ
  dwRecCount : ℕ := 0
  deriving DecidableEq, Repr

/-- One turn of the initial fill. -/
def fillTurn (cfg : Config) (read : Source) (s : FillState) : FillState ⊕ LoopEnd :=
  if State.FillGoesOn cfg s.ullPartSize s.dwRecCount then
    let dwError := (read s.reads).1
    let dwNumRead := min (read s.reads).2 (min cfg.dwBufSize s.ullPartSize)
    if readFails dwError then .inr { dwError := dwError, queued := s.dwRecCount }
    else .inl
      { reads := s.reads + 1
        ullPartSize := s.ullPartSize - dwNumRead
        dwRecCount := if s.dwRecCount < cfg.queueSize then s.dwRecCount + 1 else s.dwRecCount }
  else .inr { queued := s.dwRecCount }

/-- Where the refill of a part is: the number of the next read, `ullCursor`, and the most entries
there were in the queue. -/
structure RefillState where
  reads : ℕ := 0
  ullCursor : ℕ
  queued : ℕ := 0
  deriving DecidableEq, Repr

/-- One turn of the refill.  The workers take entries meanwhile: what `GetCount` returns at each test
is given. -/
def refillTurn (cfg : Config) (ullPartSize : ℕ) (read : Source) (getCount : ℕ → ℕ)
    (s : RefillState) : RefillState ⊕ LoopEnd :=
  if getCount s.reads < cfg.queueSize ∧ s.ullCursor < ullPartSize then
    let dwError := (read s.reads).1
    let dwNumRead := min (read s.reads).2 (min cfg.dwBufSize (ullPartSize - s.ullCursor))
    if readFails dwError then .inr { dwError := dwError, queued := s.queued }
    else .inl
      { reads := s.reads + 1
        ullCursor := s.ullCursor + dwNumRead
        queued := max s.queued (getCount s.reads + 1) }
  else .inr { queued := s.queued }

/-- Where `CalcUploadChecksum` is: the number of the next read, and `ullLength`. -/
structure ChecksumState where
  reads : ℕ := 0
  ullLength : ℕ
  deriving DecidableEq, Repr

/-- `dwBytesToRead`. -/
def bytesToRead (dwBufSize : ℕ) (bPart : Bool) (ullLength : ℕ) : ℕ :=
  if bPart then min dwBufSize ullLength else dwBufSize

/-- One turn of `CalcUploadChecksum`, with what `TestAbort` returns after each read. -/
def checksumTurn (dwBufSize : ℕ) (bPart : Bool) (read : Source) (testAbort : ℕ → Bool)
    (s : ChecksumState) : ChecksumState ⊕ LoopEnd :=
  let dwError := (read s.reads).1
  let dwNumRead := min (read s.reads).2 (bytesToRead dwBufSize bPart s.ullLength)
  if readFails dwError then .inr { dwError := dwError }
  else if dwNumRead = 0 then .inr {}
  else
    let ullLength := s.ullLength - if bPart then dwNumRead else 0
    if bPart ∧ ullLength = 0 then .inr {}
    else if testAbort s.reads then .inr { dwError := ERROR_OPERATION_ABORTED }
    else .inl { reads := s.reads + 1, ullLength := ullLength }

/-- `bPart`. -/
def isPart (ullOffset ullLength : ℕ) : Bool := ullOffset ≠ 0 || ullLength ≠ 0

/-- What the first reads deliver, with a buffer of this size. -/
def delivered (dwBufSize : ℕ) (read : Source) : ℕ → ℕ
  | 0 => 0
  | n + 1 => delivered dwBufSize read n + min (read n).2 dwBufSize

/-- The reads come to the end of a part, or to an error. -/
def Delivers (dwBufSize : ℕ) (read : Source) (size : ℕ) : Prop :=
  ∃ n, readFails (read n).1 = true ∨ size ≤ delivered dwBufSize read n

variable {cfg : Config} {read : Source} {size : ℕ}

/-- A turn of the initial fill that goes on. -/
theorem fillTurn_eq_inl {s s' : FillState} (h : fillTurn cfg read s = .inl s') :
    0 < s.ullPartSize ∧ (cfg.bChecksum = true ∨ s.dwRecCount < cfg.queueSize) ∧
      readFails (read s.reads).1 = false ∧ s'.reads = s.reads + 1 ∧
      s'.ullPartSize = s.ullPartSize - min (read s.reads).2 cfg.dwBufSize ∧
      s'.dwRecCount = if s.dwRecCount < cfg.queueSize then s.dwRecCount + 1 else s.dwRecCount := by
  unfold fillTurn at h
  by_cases hgo : State.FillGoesOn cfg s.ullPartSize s.dwRecCount
  · by_cases hfail : readFails (read s.reads).1 = true
    · simp [hgo, hfail] at h
    · rw [if_pos hgo] at h
      obtain rfl := Sum.inl.inj ((if_neg hfail).symm.trans h)
      refine ⟨hgo.1, hgo.2, Bool.eq_false_iff.2 hfail, rfl, ?_, rfl⟩
      dsimp only
      omega
  · simp [hgo] at h

/-- What the fill has queued. -/
theorem queued_of_fillTurn {s : FillState} {e : LoopEnd} (h : fillTurn cfg read s = .inr e) :
    e.queued = s.dwRecCount := by
  unfold fillTurn at h
  by_cases hgo : State.FillGoesOn cfg s.ullPartSize s.dwRecCount
  · rw [if_pos hgo] at h
    by_cases hfail : readFails (read s.reads).1 = true
    · rw [← Sum.inr.inj ((if_pos hfail).symm.trans h)]
    · exact absurd ((if_neg hfail).symm.trans h) (by simp)
  · rw [if_neg hgo] at h
    rw [← Sum.inr.inj h]

/-- The fill puts no more entries into the queue than its size. -/
theorem dwRecCount_le {s s' : FillState} (hle : s.dwRecCount ≤ cfg.queueSize)
    (h : fillTurn cfg read s = .inl s') : s'.dwRecCount ≤ cfg.queueSize := by
  obtain ⟨-, -, -, -, -, hrec⟩ := fillTurn_eq_inl h
  rw [hrec]
  split_ifs <;> omega

/-- Without a checksum the fill ends when the queue is full. -/
theorem ends_fill_of_no_checksum (hsum : cfg.bChecksum = false) :
    Loop.Ends (fillTurn cfg read) (fun e => e.queued ≤ cfg.queueSize) { ullPartSize := size } := by
  refine Loop.ends_of_measure (I := fun s => s.dwRecCount ≤ cfg.queueSize)
    (fun s => cfg.queueSize - s.dwRecCount) (fun s e hs h => Nat.le_trans (Nat.le_of_eq (queued_of_fillTurn h)) hs)
    (fun s s' hs h => ⟨dwRecCount_le hs h, ?_⟩) (Nat.zero_le _)
  obtain ⟨-, hgo, -, -, -, hrec⟩ := fillTurn_eq_inl h
  rw [hsum] at hgo
  have hlt := hgo.resolve_left Bool.false_ne_true
  rw [hrec, if_pos hlt]
  omega

/-- And otherwise when the part was read. -/
theorem ends_fill_of_delivers (h : Delivers cfg.dwBufSize read size) :
    Loop.Ends (fillTurn cfg read) (fun e => e.queued ≤ cfg.queueSize) { ullPartSize := size } := by
  obtain ⟨n, hn⟩ := h
  refine Loop.ends_of_measure (I := fun s => s.dwRecCount ≤ cfg.queueSize ∧ s.reads ≤ n ∧
      s.ullPartSize = size - delivered cfg.dwBufSize read s.reads) (fun s => n - s.reads)
    (fun s e hs h => Nat.le_trans (Nat.le_of_eq (queued_of_fillTurn h)) hs.1)
    (fun s s' hs h => ?_)
    ⟨Nat.zero_le _, Nat.zero_le _, rfl⟩
  obtain ⟨hrec, hle, hsize⟩ := hs
  obtain ⟨hpos, -, hok, hreads, hsize', -⟩ := fillTurn_eq_inl h
  have hne : s.reads ≠ n := by
    rintro rfl
    rcases hn with hfail | henough
    · exact absurd (hok.symm.trans hfail) Bool.false_ne_true
    · omega
  refine ⟨⟨dwRecCount_le hrec h, by omega, ?_⟩, by omega⟩
  rw [hsize', hreads, delivered, hsize]
  omega

/-- **The fill has no end** where it reads a part for its checksum, and the reads do not come to the
end of it. -/
theorem not_ends_fill {Q : LoopEnd → Prop} (hsum : cfg.bChecksum = true)
    (h : ¬Delivers cfg.dwBufSize read size) :
    ¬Loop.Ends (fillTurn cfg read) Q { ullPartSize := size } := by
  refine Loop.not_ends_of_invariant
    (I := fun s => s.ullPartSize = size - delivered cfg.dwBufSize read s.reads)
    (fun s hs => ?_) rfl
  obtain ⟨hok, hmore⟩ := not_or.1 (not_exists.1 h s.reads)
  refine ⟨_, (if_pos ⟨by omega, .inl hsum⟩).trans (if_neg hok), ?_⟩
  dsimp only
  rw [delivered, hs]
  omega

section

variable {getCount : ℕ → ℕ} {ullCursor : ℕ}

/-- A turn of the refill that goes on. -/
theorem refillTurn_eq_inl {s s' : RefillState}
    (h : refillTurn cfg size read getCount s = .inl s') :
    getCount s.reads < cfg.queueSize ∧ s.ullCursor < size ∧ readFails (read s.reads).1 = false ∧
      s'.reads = s.reads + 1 ∧
      s'.ullCursor = min size (s.ullCursor + min (read s.reads).2 cfg.dwBufSize) ∧
      s'.queued = max s.queued (getCount s.reads + 1) := by
  unfold refillTurn at h
  by_cases hgo : getCount s.reads < cfg.queueSize ∧ s.ullCursor < size
  · by_cases hfail : readFails (read s.reads).1 = true
    · simp [hgo, hfail] at h
    · rw [if_pos hgo] at h
      obtain rfl := Sum.inl.inj ((if_neg hfail).symm.trans h)
      refine ⟨hgo.1, hgo.2, Bool.eq_false_iff.2 hfail, rfl, ?_, rfl⟩
      dsimp only
      omega
  · simp [hgo] at h

/-- The refill ends with the entries that it had. -/
theorem queued_of_refillTurn {s : RefillState} {e : LoopEnd}
    (h : refillTurn cfg size read getCount s = .inr e) : e.queued = s.queued := by
  unfold refillTurn at h
  by_cases hgo : getCount s.reads < cfg.queueSize ∧ s.ullCursor < size
  · rw [if_pos hgo] at h
    by_cases hfail : readFails (read s.reads).1 = true
    · rw [← Sum.inr.inj ((if_pos hfail).symm.trans h)]
    · exact absurd ((if_neg hfail).symm.trans h) (by simp)
  · rw [if_neg hgo] at h
    rw [← Sum.inr.inj h]

/-- The refill comes to the end of a part, to an error, or to a full queue. -/
def Refills (cfg : Config) (read : Source) (getCount : ℕ → ℕ) (rest : ℕ) : Prop :=
  ∃ n, cfg.queueSize ≤ getCount n ∨ readFails (read n).1 = true ∨
    rest ≤ delivered cfg.dwBufSize read n

/-- The refill ends where its reads come to the end of the part, or fill the queue. -/
theorem ends_refill (h : Refills cfg read getCount (size - ullCursor)) :
    Loop.Ends (refillTurn cfg size read getCount) (fun e => e.queued ≤ cfg.queueSize)
      { ullCursor := ullCursor } := by
  obtain ⟨n, hn⟩ := h
  refine Loop.ends_of_measure (I := fun s => s.queued ≤ cfg.queueSize ∧ s.reads ≤ n ∧
      size - s.ullCursor = size - ullCursor - delivered cfg.dwBufSize read s.reads)
    (fun s => n - s.reads) (fun s e hs h => Nat.le_trans (Nat.le_of_eq (queued_of_refillTurn h)) hs.1)
    (fun s s' hs h => ?_) ⟨Nat.zero_le _, Nat.zero_le _, rfl⟩
  obtain ⟨hqueued, hle, hsize⟩ := hs
  obtain ⟨hcount, hlt, hok, hreads, hcursor, hqueued'⟩ := refillTurn_eq_inl h
  have hne : s.reads ≠ n := by
    rintro rfl
    rcases hn with hfull | hfail | henough
    · exact absurd hcount (Nat.not_lt.2 hfull)
    · exact absurd (hok.symm.trans hfail) Bool.false_ne_true
    · omega
  refine ⟨⟨by rw [hqueued']; omega, by omega, ?_⟩, by omega⟩
  rw [hcursor, hreads, delivered]
  omega

/-- **The refill has no end** where the workers keep up with the empty entries. A read that returns
nothing leaves the cursor where it is, so there is always more to read; and the count of entries,
which is the other way out, stays below its limit. -/
theorem not_ends_refill {Q : LoopEnd → Prop} (h : ¬Refills cfg read getCount (size - ullCursor)) :
    ¬Loop.Ends (refillTurn cfg size read getCount) Q { ullCursor := ullCursor } := by
  refine Loop.not_ends_of_invariant (I := fun s => size - s.ullCursor =
    size - ullCursor - delivered cfg.dwBufSize read s.reads) (fun s hs => ?_) rfl
  obtain ⟨hcount, hno⟩ := not_or.1 (not_exists.1 h s.reads)
  obtain ⟨hok, hmore⟩ := not_or.1 hno
  refine ⟨_, (if_pos ⟨by omega, by omega⟩).trans (if_neg hok), ?_⟩
  dsimp only
  rw [delivered]
  omega

end

section

variable {dwBufSize : ℕ} {bPart : Bool} {testAbort : ℕ → Bool} {ullLength : ℕ}

/-- No more is read than the buffer takes. -/
theorem bytesToRead_le (dwBufSize : ℕ) (bPart : Bool) (ullLength : ℕ) :
    bytesToRead dwBufSize bPart ullLength ≤ dwBufSize := by
  unfold bytesToRead
  split_ifs
  · exact Nat.min_le_left _ _
  · exact Nat.le_refl _

/-- A turn of the checksum that goes on. -/
theorem checksumTurn_eq_inl {s s' : ChecksumState}
    (h : checksumTurn dwBufSize bPart read testAbort s = .inl s') :
    readFails (read s.reads).1 = false ∧
      0 < min (read s.reads).2 (bytesToRead dwBufSize bPart s.ullLength) ∧
      testAbort s.reads = false ∧ s'.reads = s.reads + 1 ∧
      (bPart = true → s'.ullLength < s.ullLength) := by
  unfold checksumTurn at h
  dsimp only at h
  generalize hasked : min (read s.reads).2 (bytesToRead dwBufSize bPart s.ullLength) = n at h ⊢
  by_cases hfail : readFails (read s.reads).1 = true
  · simp [hfail] at h
  by_cases hzero : n = 0
  · simp [hfail, hzero] at h
  rw [if_neg hfail, if_neg hzero] at h
  generalize hrest : (s.ullLength - if bPart = true then n else 0) = rest at h
  by_cases hdone : bPart = true ∧ rest = 0
  · simp [hdone] at h
  by_cases habort : testAbort s.reads = true
  · simp [hdone, habort] at h
  rw [if_neg hdone, if_neg habort] at h
  obtain rfl := Sum.inl.inj h
  refine ⟨Bool.eq_false_iff.2 hfail, Nat.pos_of_ne_zero hzero, Bool.eq_false_iff.2 habort, rfl,
    fun hpart => ?_⟩
  rw [bytesToRead, if_pos hpart] at hasked
  rw [if_pos hpart] at hrest
  dsimp only
  omega

/-- The loop of the checksum queues nothing. -/
theorem queued_of_checksumTurn {s : ChecksumState} {e : LoopEnd}
    (h : checksumTurn dwBufSize bPart read testAbort s = .inr e) : e.queued = 0 := by
  unfold checksumTurn at h
  dsimp only at h
  generalize min (read s.reads).2 (bytesToRead dwBufSize bPart s.ullLength) = n at h
  generalize (s.ullLength - if bPart = true then n else 0) = rest at h
  split_ifs at h <;> rw [← Sum.inr.inj h]

/-- The checksum of a part ends in any case. -/
theorem ends_checksum_of_part : Loop.Ends (checksumTurn dwBufSize true read testAbort)
    (fun e => e.queued = 0) { ullLength := ullLength } :=
  Loop.ends_of_measure (I := fun _ => True) ChecksumState.ullLength
    (fun _ _ _ h => queued_of_checksumTurn h)
    (fun _ _ _ h => ⟨trivial, (checksumTurn_eq_inl h).2.2.2.2 rfl⟩) trivial

/-- A whole file is read until a read delivers nothing or fails, or the abort. -/
def Stops (dwBufSize : ℕ) (read : Source) (testAbort : ℕ → Bool) : Prop :=
  ∃ n, readFails (read n).1 = true ∨ min (read n).2 dwBufSize = 0 ∨ testAbort n = true

/-- The loop of the checksum ends where its reads stop. -/
theorem ends_checksum_of_stops (h : Stops dwBufSize read testAbort) :
    Loop.Ends (checksumTurn dwBufSize bPart read testAbort) (fun e => e.queued = 0)
      { ullLength := ullLength } := by
  obtain ⟨n, hn⟩ := h
  refine Loop.ends_of_measure (I := fun s => s.reads ≤ n) (fun s => n - s.reads)
    (fun _ _ _ h => queued_of_checksumTurn h) (fun s s' hs h => ?_) (Nat.zero_le _)
  obtain ⟨hok, hpos, hgo, hreads, -⟩ := checksumTurn_eq_inl h
  have hne : s.reads ≠ n := by
    rintro rfl
    rcases hn with hfail | hzero | habort
    · exact absurd (hok.symm.trans hfail) Bool.false_ne_true
    · have hle := bytesToRead_le dwBufSize bPart s.ullLength
      omega
    · exact absurd (hgo.symm.trans habort) Bool.false_ne_true
  exact ⟨by omega, by omega⟩

/-- The loop of the checksum does not end for a whole file whose reads do not stop. -/
theorem not_ends_checksum {Q : LoopEnd → Prop} (h : ¬Stops dwBufSize read testAbort) :
    ¬Loop.Ends (checksumTurn dwBufSize false read testAbort) Q { ullLength := ullLength } := by
  refine Loop.not_ends_of_invariant (I := fun _ => True) (fun s _ => ?_) trivial
  obtain ⟨hok, hno⟩ := not_or.1 (not_exists.1 h s.reads)
  obtain ⟨hpos, hgo⟩ := not_or.1 hno
  refine ⟨{ reads := s.reads + 1, ullLength := s.ullLength }, ?_, trivial⟩
  simp [checksumTurn, bytesToRead, hok, hpos, hgo]

end

/-- The three loops end, for a part of this size and a cursor that the refill starts from, and have no
more entries in a queue than it may have. -/
structure ReadLoopsEnd (cfg : Config) (fill refill checksum : Source) (getCount : ℕ → ℕ)
    (testAbort : ℕ → Bool) (ullBaseOffset ullPartSize ullCursor : ℕ) : Prop where
  fill : Loop.Ends (fillTurn cfg fill) (fun e => e.queued ≤ cfg.queueSize)
    { ullPartSize := ullPartSize }
  refill : Loop.Ends (refillTurn cfg ullPartSize refill getCount)
    (fun e => e.queued ≤ cfg.queueSize) { ullCursor := ullCursor }
  checksum : Loop.Ends
    (checksumTurn cfg.dwBufSize (isPart ullBaseOffset ullPartSize) checksum testAbort)
    (fun e => e.queued = 0) { ullLength := ullPartSize }

/-- **The loops that read a file end**, if and only if the initial fill makes no checksum or comes to
the end of the part, the refill comes to it or fills the queue, and the checksum is of a part or its
reads come to an end. -/
theorem readLoops_end (cfg : Config) (fill refill checksum : Source) (getCount : ℕ → ℕ)
    (testAbort : ℕ → Bool) (ullBaseOffset ullPartSize ullCursor : ℕ) :
    ReadLoopsEnd cfg fill refill checksum getCount testAbort ullBaseOffset ullPartSize ullCursor ↔
      (cfg.bChecksum = true → Delivers cfg.dwBufSize fill ullPartSize) ∧
        Refills cfg refill getCount (ullPartSize - ullCursor) ∧
        (ullBaseOffset = 0 ∧ ullPartSize = 0 → Stops cfg.dwBufSize checksum testAbort) := by
  refine ⟨fun h => ⟨fun hsum => ?_, ?_, fun hwhole => ?_⟩, fun ⟨hfill, hrefill, hsum⟩ => ⟨?_, ?_, ?_⟩⟩
  · by_contra hno
    exact not_ends_fill hsum hno h.fill
  · by_contra hno
    exact not_ends_refill hno h.refill
  · obtain ⟨rfl, rfl⟩ := hwhole
    by_contra hno
    exact not_ends_checksum hno h.checksum
  · cases hc : cfg.bChecksum with
    | false => exact ends_fill_of_no_checksum hc
    | true => exact ends_fill_of_delivers (hfill hc)
  · exact ends_refill hrefill
  · cases hpart : isPart ullBaseOffset ullPartSize with
    | false =>
        have hzero : ullBaseOffset = 0 ∧ ullPartSize = 0 := by simpa [isPart] using hpart
        exact ends_checksum_of_stops (hsum hzero)
    | true => exact ends_checksum_of_part

/-- **A truncated file** is read for its checksum for ever, and so is its part for an empty queue.
The part was planned with a byte that the file no longer has; each read succeeds with nothing, and
no turn of either loop takes that for the end. -/
theorem truncated_never_ends :
    ¬ReadLoopsEnd ⟨4, 2, true, 3, 0⟩ (fun _ => (S_FALSE, 0)) (fun _ => (S_FALSE, 0))
      (fun _ => (S_FALSE, 0)) (fun _ => 0) (fun _ => false) 0 1 0 := by
  intro h
  refine not_ends_fill rfl ?_ h.fill
  rintro ⟨n, hfail | henough⟩
  · exact absurd hfail (show ¬readFails S_FALSE = true by decide)
  · have hzero : ∀ n, delivered 4 (fun _ => (S_FALSE, 0)) n = 0 := by
      intro n
      induction n with
      | zero => rfl
      | succ n ih => rw [delivered, ih]; rfl
    exact absurd ((hzero n) ▸ henough) (by decide)

end Multipart
end ECSUtil

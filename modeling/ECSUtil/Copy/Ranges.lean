/-
# The parts of a large copy

The part loop of `CopyS3` and the range that `S3MultiPartUpload` asks for
(`ECSUtil/ECSConnection.cpp`), with every operation of the 64-bit arithmetic checked (`partLoop`).
It does what `copyRanges` says (`partLoop_eq`).  The ranges cover the object once and in order; the
number of a part is a `UINT`, which wraps around behind part `2 ^ 32 - 1`: `copy_ranges_exact`.

`partLoop_from` says what the turns that are left do from a part on, by induction on them, and so no
operation of the loop goes wrong (`partLoop_eq`).  That the ranges are contiguous is a fact about
multiples of the part size (`contiguous_rangeAt`), from which it follows that each byte is in
exactly one of them (`Contiguous.count`).
-/

import Mathlib.Algebra.Group.Nat.Defs
import ECSUtil.Conn.Format
import ECSUtil.Copy.Copy
import ECSUtil.Lib.Checked

namespace ECSUtil
namespace Copy

open Checked

/-- A range of bytes, with both ends, as the text of a header. -/
def rangeText (first last : ℕ) : CString :=
  "bytes=".toList ++ fmtNum 0 first ++ '-' :: fmtNum 0 last

/-- `x-amz-copy-source-range` of a part. -/
def copySourceRange (ullStartRange ullTotalLen : ℕ) : Except Stop CString := do
  let past ← bound 64 (ullStartRange + ullTotalLen)
  let last ← sub past 1
  .ok (rangeText ullStartRange last)

/-- What the request that copies a part says of it. -/
structure CopyPart where
  uPartNum : ℕ
  /-- `x-amz-copy-source-range` -/
  sRange : CString
  deriving DecidableEq, Repr

/-- The part loop, with the turns it may take; every part is copied. -/
def partLoop (ullObjSize : ℕ) : ℕ → ℕ → ℕ → Except Stop (List CopyPart)
  | 0, _, _ => .error .running
  | turns + 1, uPartNum, ullOffset => do
      let rest ← sub ullObjSize ullOffset
      let ullPartSize := if rest < MULTIPART_SIZE then rest else MULTIPART_SIZE
      if ullPartSize = 0 ∨ ullObjSize ≤ ullOffset then .ok []
      else
        let sRange ← copySourceRange ullOffset ullPartSize
        let next ← bound 64 (ullOffset + ullPartSize)
        let parts ← partLoop ullObjSize turns ((uPartNum + 1) % 0x100000000) next
        .ok ({ uPartNum := uPartNum, sRange := sRange } :: parts)

/-- Ranges with both ends, none empty and none too long, each right behind the one before. -/
def Contiguous : ℕ → List (ℕ × ℕ) → ℕ → Prop
  | start, [], stop => start = stop
  | start, r :: rest, stop =>
      r.1 = start ∧ start ≤ r.2 ∧ r.2 + 1 ≤ start + GIGABYTE ∧ Contiguous (r.2 + 1) rest stop

/-- **The parts `1, 2, ..` cover the object**: their ranges are contiguous, and each byte of the object
is in one of them, and no other byte is. -/
structure Covers (ullObjSize : ℕ) (parts : List CopyPart) : Prop where
  numbered : ∀ i, (h : i < parts.length) → parts[i].uPartNum = i + 1
  ranges : ∃ ranges : List (ℕ × ℕ), parts.map CopyPart.sRange =
      ranges.map (fun r => rangeText r.1 r.2) ∧ Contiguous 0 ranges ullObjSize ∧
    ∀ b, ranges.countP (fun r => r.1 ≤ b ∧ b ≤ r.2) = if b < ullObjSize then 1 else 0

/-- The loop ends, nothing goes wrong in it, and the parts cover the object. -/
def Covered (ullObjSize : ℕ) : Prop :=
  ∃ turns parts, partLoop ullObjSize turns 1 0 = .ok parts ∧ Covers ullObjSize parts

/-- The number of parts. -/
def partCount (ullObjSize : ℕ) : ℕ := (ullObjSize + MULTIPART_SIZE - 1) / MULTIPART_SIZE

/-- A part of `copyRanges`, as the request has it. -/
def toPart (p : ℕ × ℕ × ℕ) : CopyPart where
  uPartNum := p.1
  sRange := rangeText p.2.1 (p.2.1 + p.2.2 - 1)

/-- The part behind `k` others. -/
def partAt (ullObjSize k : ℕ) : ℕ × ℕ × ℕ :=
  ((k + 1) % 0x100000000, k * MULTIPART_SIZE,
    min (ullObjSize - k * MULTIPART_SIZE) MULTIPART_SIZE)

/-- The first and the last byte of the part behind `k` others. -/
def rangeAt (ullObjSize k : ℕ) : ℕ × ℕ :=
  (k * MULTIPART_SIZE, min ullObjSize ((k + 1) * MULTIPART_SIZE) - 1)

section

variable {ullObjSize : ℕ}

/-- The parts, each by its number. -/
theorem copyRanges_eq (ullObjSize : ℕ) :
    copyRanges ullObjSize = (List.range (partCount ullObjSize)).map (partAt ullObjSize) := rfl

/-- A part begins before the end of the object. -/
theorem lt_partCount {k : ℕ} : k < partCount ullObjSize ↔ k * MULTIPART_SIZE < ullObjSize := by
  unfold partCount MULTIPART_SIZE GIGABYTE
  omega

/-- **The turns that are left, and what they do.** The induction is on the turns; the part has the
number of the turn, which wraps around, and its range begins where the one before it ends. -/
theorem partLoop_from (hsize : ullObjSize < 2 ^ 64) (turns k d : ℕ)
    (hk : k + d = partCount ullObjSize) :
    partLoop ullObjSize turns ((k + 1) % 0x100000000) (min (k * MULTIPART_SIZE) ullObjSize) =
      if d < turns then .ok ((List.range' k d).map fun i => toPart (partAt ullObjSize i))
      else .error .running := by
  induction turns generalizing k d with
  | zero => rfl
  | succ turns ih =>
      rw [partLoop, sub_of_le (Nat.min_le_right _ _), ok_bind]
      dsimp only
      cases d with
      | zero =>
          -- all parts are behind
          have hend : ullObjSize ≤ k * MULTIPART_SIZE :=
            Nat.not_lt.1 (mt lt_partCount.2 (by omega))
          rw [Nat.min_eq_right hend, if_pos (.inr (Nat.le_refl _)), if_pos (Nat.succ_pos _)]
          rfl
      | succ d =>
          have hlt : k * MULTIPART_SIZE < ullObjSize := lt_partCount.1 (by omega)
          have hpos : 0 < MULTIPART_SIZE := by decide
          have hpart : (if ullObjSize - k * MULTIPART_SIZE < MULTIPART_SIZE then
              ullObjSize - k * MULTIPART_SIZE else MULTIPART_SIZE) =
                min (ullObjSize - k * MULTIPART_SIZE) MULTIPART_SIZE := by
            rw [Nat.min_def]
            split_ifs <;> omega
          have hnext : k * MULTIPART_SIZE + min (ullObjSize - k * MULTIPART_SIZE) MULTIPART_SIZE =
              min ((k + 1) * MULTIPART_SIZE) ullObjSize := by
            rw [Nat.succ_mul]
            omega
          rw [Nat.min_eq_left (Nat.le_of_lt hlt), hpart, if_neg (by omega), copySourceRange, hnext,
            bound_of_lt (by omega), ok_bind, sub_of_le (by rw [Nat.succ_mul]; omega), ok_bind,
            ok_bind, ok_bind, Nat.mod_add_mod, ih (k + 1) d (by omega)]
          by_cases hturns : d < turns
          · rw [if_pos hturns, if_pos (Nat.succ_lt_succ hturns), ok_bind, List.range'_succ,
              List.map_cons]
            unfold toPart partAt
            rw [hnext]
          · rw [if_neg hturns, if_neg (mt Nat.lt_of_succ_lt_succ hturns), error_bind]

/-- **The loop does what `copyRanges` says**, where it has the turns. With as many turns as there
are parts it comes to the end of the object, whatever the numbers of the parts have become. -/
theorem partLoop_eq (hsize : ullObjSize < 2 ^ 64) (turns : ℕ) :
    partLoop ullObjSize turns 1 0 =
      if partCount ullObjSize < turns then .ok ((copyRanges ullObjSize).map toPart)
      else .error .running := by
  have h := partLoop_from hsize turns 0 (partCount ullObjSize) (Nat.zero_add _)
  rw [Nat.zero_mul, Nat.zero_min, ← List.range_eq_range'] at h
  rw [copyRanges_eq, List.map_map]
  exact h

/-- Contiguous ranges have each byte between their ends once, and no other byte. -/
theorem Contiguous.count {start stop : ℕ} {ranges : List (ℕ × ℕ)}
    (h : Contiguous start ranges stop) (b : ℕ) : start ≤ stop ∧
      ranges.countP (fun r => r.1 ≤ b ∧ b ≤ r.2) = if start ≤ b ∧ b < stop then 1 else 0 := by
  induction ranges generalizing start with
  | nil =>
      obtain rfl : start = stop := h
      exact ⟨Nat.le_refl _, (if_neg (by omega)).symm⟩
  | cons r rest ih =>
      obtain ⟨rfl, hle, -, hrest⟩ := h
      obtain ⟨hstop, hcount⟩ := ih hrest
      refine ⟨by omega, ?_⟩
      rw [List.countP_cons, hcount]
      simp only [decide_eq_true_eq]
      split_ifs <;> omega

/-- The ranges of the parts from one on are contiguous, up to the end of the object. -/
theorem contiguous_rangeAt (k d : ℕ) (hk : k + d = partCount ullObjSize) :
    Contiguous (min (k * MULTIPART_SIZE) ullObjSize) ((List.range' k d).map (rangeAt ullObjSize))
      ullObjSize := by
  induction d generalizing k with
  | zero =>
      exact Nat.min_eq_right (Nat.not_lt.1 (mt lt_partCount.2 (by omega)))
  | succ d ih =>
      have hlt : k * MULTIPART_SIZE < ullObjSize := lt_partCount.1 (by omega)
      have hrest := ih (k + 1) (by omega)
      have hpos : 0 < MULTIPART_SIZE := by decide
      rw [List.range'_succ, List.map_cons, Nat.min_eq_left (Nat.le_of_lt hlt)]
      unfold rangeAt
      refine ⟨rfl, ?_, ?_, ?_⟩
      · dsimp only
        rw [Nat.succ_mul]
        omega
      · show min ullObjSize ((k + 1) * MULTIPART_SIZE) - 1 + 1 ≤ k * MULTIPART_SIZE + MULTIPART_SIZE
        rw [Nat.succ_mul]
        omega
      · have hnext : min ullObjSize ((k + 1) * MULTIPART_SIZE) - 1 + 1 =
            min ((k + 1) * MULTIPART_SIZE) ullObjSize := by
          rw [Nat.succ_mul]
          omega
        rw [hnext]
        exact hrest

/-- The range that a part asks for is that of its bytes. -/
theorem sRange_partAt {k : ℕ} (h : k * MULTIPART_SIZE < ullObjSize) :
    (toPart (partAt ullObjSize k)).sRange =
      rangeText (rangeAt ullObjSize k).1 (rangeAt ullObjSize k).2 := by
  have hend : k * MULTIPART_SIZE + min (ullObjSize - k * MULTIPART_SIZE) MULTIPART_SIZE =
      min ullObjSize ((k + 1) * MULTIPART_SIZE) := by
    rw [Nat.succ_mul]
    omega
  unfold toPart partAt rangeAt
  rw [hend]

/-- The ranges of the parts. -/
theorem sRange_copyRanges : ((copyRanges ullObjSize).map toPart).map CopyPart.sRange =
    ((List.range (partCount ullObjSize)).map (rangeAt ullObjSize)).map
      fun r => rangeText r.1 r.2 := by
  rw [copyRanges_eq, List.map_map, List.map_map, List.map_map]
  exact List.map_congr_left fun k hk => sRange_partAt (lt_partCount.1 (List.mem_range.1 hk))

/-- The number of a part, which is a `UINT`. -/
theorem uPartNum_copyRanges {k : ℕ} (h : k < ((copyRanges ullObjSize).map toPart).length) :
    ((copyRanges ullObjSize).map toPart)[k].uPartNum = (k + 1) % 0x100000000 := by
  simp only [copyRanges_eq, List.getElem_map, List.getElem_range, toPart, partAt]

/-- There are as many parts as there are to be. -/
theorem length_copyRanges :
    ((copyRanges ullObjSize).map toPart).length = partCount ullObjSize := by
  rw [List.length_map, copyRanges_eq, List.length_map, List.length_range]

/-- The parts cover the object as long as their numbers do not wrap around. -/
theorem covers_iff : Covers ullObjSize ((copyRanges ullObjSize).map toPart) ↔
    partCount ullObjSize < 0x100000000 := by
  constructor
  · intro h
    by_contra hge
    have hlt : 0xffffffff < ((copyRanges ullObjSize).map toPart).length := by
      rw [length_copyRanges]
      omega
    have hnum := h.numbered 0xffffffff hlt
    rw [uPartNum_copyRanges hlt] at hnum
    exact absurd hnum (by decide)
  · intro hlt
    have hcontiguous := contiguous_rangeAt 0 (partCount ullObjSize) (Nat.zero_add _)
    rw [Nat.zero_mul, Nat.zero_min, ← List.range_eq_range'] at hcontiguous
    refine ⟨fun k hk => ?_, _, sRange_copyRanges, hcontiguous, fun b => ?_⟩
    · rw [uPartNum_copyRanges hk]
      rw [length_copyRanges] at hk
      exact Nat.mod_eq_of_lt (by omega)
    · simpa only [Nat.zero_le, true_and] using (hcontiguous.count b).2

end

/-- **The copy of a large object is covered exactly** if and only if the object has at most
`2 ^ 32 - 1` parts. -/
theorem copy_ranges_exact {ullObjSize : ℕ} (hsize : ullObjSize < 2 ^ 64) :
    Covered ullObjSize ↔ ullObjSize ≤ (2 ^ 32 - 1) * GIGABYTE := by
  have hcount : partCount ullObjSize < 0x100000000 ↔ ullObjSize ≤ (2 ^ 32 - 1) * GIGABYTE := by
    unfold partCount MULTIPART_SIZE GIGABYTE
    omega
  rw [← hcount, ← covers_iff]
  constructor
  · rintro ⟨turns, parts, hloop, hcovers⟩
    rw [partLoop_eq hsize] at hloop
    split_ifs at hloop
    exact Except.ok.inj hloop ▸ hcovers
  · intro h
    exact ⟨partCount ullObjSize + 1, _,
      (partLoop_eq hsize _).trans (if_pos (Nat.lt_succ_self _)), h⟩

/-- Five gigabytes and a byte are copied in six parts. Five parts are full, of a gigabyte each, and
the last one is the byte. -/
theorem copy_ranges_exact_six : Covered (singleCopyLimit + 1) :=
  (copy_ranges_exact (by decide)).2 (by decide)

/-- Four exbibytes are not covered: the last part has number 0. There are 2^32 parts, and the number
is a `DWORD` that counts from one. -/
theorem copy_ranges_wrapped : singleCopyLimit ≤ 2 ^ 62 ∧ 2 ^ 62 < 2 ^ 64 ∧ ¬Covered (2 ^ 62) := by
  refine ⟨by decide, by decide, ?_⟩
  rintro ⟨turns, parts, hloop, hcovers⟩
  rw [partLoop_eq (by decide)] at hloop
  split_ifs at hloop
  obtain rfl := Except.ok.inj hloop
  exact absurd (covers_iff.1 hcovers) (by decide)

example : copySourceRange 0x40000000 0x40000000 = .ok "bytes=1073741824-2147483647".toList := by
  decide

end Copy
end ECSUtil

/-
# The parts of a multipart upload

The first half of `DoS3MultiPartUpload` (`ECSUtil/FileSupport.cpp`): from the size
of the file and the part size asked for (in megabytes) to the list of parts, or
to the decision not to upload in parts.

A `PartList` carries what the rest of the upload relies on: the parts are
numbered `1, 2, ..` in the order of the list, and none is empty.
`createPartList_tiles` says that the parts cover the file, each byte once and in
order.  The sizes stay far below `2 ^ 64`, so the 64-bit arithmetic of the source
is that of `ℕ`.
-/

import ECSUtil.Lib.Slice
import Mathlib.Tactic.Common

namespace ECSUtil
namespace Multipart

/-- The fields of `S3_UPLOAD_PART_ENTRY` that never change. -/
structure PartRange where
  uPartNum : ℕ
  ullBaseOffset : ℕ
  ullPartSize : ℕ
  deriving DecidableEq, Repr

/-- A list of parts numbered from one, none of them empty. -/
structure PartList where
  parts : List PartRange
  numbered : ∀ i, (h : i < parts.length) → parts[i].uPartNum = i + 1
  size_pos : ∀ p ∈ parts, 0 < p.ullPartSize

def MEGABYTES (x : ℕ) : ℕ := x * 0x100000

def ALIGN_ANY (size alignvalue : ℕ) : ℕ := (size + alignvalue - 1) / alignvalue * alignvalue

/-- `dwMaxParts`. -/
def dwMaxParts : ℕ := 1000

/-- The loop that creates the part list, from a file offset and the number of the
part before it on. -/
def partsFrom (cbSize ullPartLength : ℕ) (hlen : 0 < ullPartLength) (ullOffset uPartNum : ℕ) :
    List PartRange :=
  if cbSize ≤ ullOffset then []
  else
    let size := if cbSize - ullOffset < ullPartLength then cbSize - ullOffset else ullPartLength
    { uPartNum := uPartNum + 1, ullBaseOffset := ullOffset, ullPartSize := size } ::
      partsFrom cbSize ullPartLength hlen (ullOffset + size) (uPartNum + 1)
  termination_by cbSize - ullOffset
  decreasing_by split_ifs <;> omega

/-- The parts are numbered in the order of the list. -/
theorem partsFrom_numbered {cbSize len : ℕ} (hlen : 0 < len) (off num : ℕ) :
    ∀ i, (h : i < (partsFrom cbSize len hlen off num).length) →
      (partsFrom cbSize len hlen off num)[i].uPartNum = num + i + 1 := by
  fun_induction partsFrom cbSize len hlen off num with
  | case1 => intro i h; simp at h
  | case2 off num hoff size ih =>
      rintro (_ | i) h
      · rfl
      · have := ih i (by simpa using h)
        simpa [Nat.add_assoc, Nat.add_comm 1] using this

/-- None of the parts is empty. -/
theorem partsFrom_size_pos {cbSize len : ℕ} (hlen : 0 < len) (off num : ℕ) :
    ∀ p ∈ partsFrom cbSize len hlen off num, 0 < p.ullPartSize := by
  fun_induction partsFrom cbSize len hlen off num with
  | case1 => simp
  | case2 off num hoff size ih =>
      simp only [List.mem_cons, forall_eq_or_imp]
      refine ⟨?_, ih⟩
      simp only [size]
      split_ifs <;> omega

/-- **The parts cover the rest of the file.** The parts are taken one after the other from an offset
on, each as long as asked but the last; the induction is on what the file has left. -/
theorem partsFrom_tiles {α : Type*} {file : List α} {len : ℕ} (hlen : 0 < len) (off num : ℕ) :
    (partsFrom file.length len hlen off num).flatMap
      (fun p => slice file p.ullBaseOffset p.ullPartSize) = file.drop off := by
  fun_induction partsFrom file.length len hlen off num with
  | case1 off num hoff => simp [List.drop_eq_nil_of_le hoff]
  | case2 off num hoff size ih =>
      rw [List.flatMap_cons, ih, slice, ← List.drop_drop, List.take_append_drop]

/-- `ullPartLength`: the part size asked for, aligned, or as large as it takes to
stay near `dwMaxParts` parts. -/
def partLength (cbSize dwPartSize : ℕ) : ℕ :=
  let aligned := ALIGN_ANY (MEGABYTES dwPartSize) 0x10000
  if cbSize / aligned > dwMaxParts then cbSize / (dwMaxParts - 1) else aligned

/-- A length that is not too short for a part is no zero. -/
theorem pos_of_five_megabytes {n : ℕ} (h : ¬n < MEGABYTES 5) : 0 < n := by
  simp only [MEGABYTES] at h
  omega

/-- The part list of `DoS3MultiPartUpload`, `none` where it returns `false`
without an upload: the file is smaller than a part, the parts would be smaller
than five megabytes, or there would be only one. -/
def createPartList (cbSize dwPartSize : ℕ) : Option PartList :=
  if cbSize < MEGABYTES dwPartSize then none
  else if h : partLength cbSize dwPartSize < MEGABYTES 5 then none
  else if (partsFrom cbSize _ (pos_of_five_megabytes h) 0 0).length ≤ 1 then none
  else some
    { parts := partsFrom cbSize _ (pos_of_five_megabytes h) 0 0
      numbered := by simpa using partsFrom_numbered (pos_of_five_megabytes h) 0 0
      size_pos := partsFrom_size_pos (pos_of_five_megabytes h) 0 0 }

/-- What is known of a part list that was created. -/
theorem createPartList_eq_some {cbSize dwPartSize : ℕ} {P : PartList}
    (h : createPartList cbSize dwPartSize = some P) :
    ∃ hlen : 0 < partLength cbSize dwPartSize,
      P.parts = partsFrom cbSize _ hlen 0 0 ∧ 1 < P.parts.length := by
  unfold createPartList at h
  split_ifs at h with _ hlen hone
  obtain rfl := Option.some.inj h
  exact ⟨pos_of_five_megabytes hlen, rfl, by simpa using hone⟩

/-- **The parts tile the file**: their slices, in the order of the list, are the
whole of it. -/
theorem createPartList_tiles {α : Type*} {file : List α} {dwPartSize : ℕ} {P : PartList}
    (h : createPartList file.length dwPartSize = some P) :
    P.parts.flatMap (fun p => slice file p.ullBaseOffset p.ullPartSize) = file := by
  obtain ⟨hlen, hP, -⟩ := createPartList_eq_some h
  rw [hP, partsFrom_tiles hlen 0 0, List.drop_zero]

end Multipart
end ECSUtil

/-
# The plan of a multipart upload on machine integers

The first half of `DoS3MultiPartUpload` (`ECSUtil/FileSupport.cpp`) once more, with every operation
of the 64-bit and 32-bit arithmetic checked (`planner`).  For a part size that is not zero nothing
goes wrong, and the result is that of `createPartList` (`planner_eq`).

What a plan has to be is stated of its parts alone: `Tiles` says that they are the stream, each byte
of it once and in order, two parts at least, and of one size but for the last.  Whatever is planned
tiles (`tiles_of_createPartList`).

The limit is another matter (`PlanLimits`): where the size is `dwMaxParts` parts of the length asked
for and a rest, no other length is derived, and the rest is one part more (`planner_limits`,
`planner_exceeds`).
-/

import ECSUtil.Lib.Checked
import ECSUtil.Multipart.PartList

namespace ECSUtil
namespace Multipart

open Checked

/-- `ALIGN_ANY`, on 64 bits. -/
def alignAny (size alignvalue : ℕ) : Except Stop ℕ := do
  let sum ← bound 64 (size + alignvalue)
  let up ← sub sum 1
  let n ← div up alignvalue
  bound 64 (n * alignvalue)

/-- The loop that creates the part list, with the turns it may take. -/
def plannerLoop (cbSize ullPartLength : ℕ) : ℕ → ℕ → ℕ → Except Stop (List PartRange)
  | 0, _, _ => .error .running
  | turns + 1, ullOffset, uPartNum =>
      if cbSize ≤ ullOffset then .ok []
      else do
        let uPartNum ← bound 32 (uPartNum + 1)
        let rest ← sub cbSize ullOffset
        let size := if rest < ullPartLength then rest else ullPartLength
        let next ← bound 64 (ullOffset + size)
        let parts ← plannerLoop cbSize ullPartLength turns next uPartNum
        .ok ({ uPartNum := uPartNum, ullBaseOffset := ullOffset, ullPartSize := size } :: parts)

/-- Don't let the number of parts go over `dwMaxParts`. -/
def capLength (cbSize ullPartLength : ℕ) : Except Stop ℕ := do
  let n ← div cbSize ullPartLength
  if n > dwMaxParts then div cbSize (dwMaxParts - 1) else .ok ullPartLength

/-- The parts of an upload, or none where there is to be no upload in parts. -/
def planner (turns cbSize dwPartSize : ℕ) : Except Stop (Option (List PartRange)) := do
  let asked ← bound 64 (MEGABYTES dwPartSize)
  if cbSize < asked then .ok none
  else
    let aligned ← alignAny asked 0x10000
    let ullPartLength ← capLength cbSize aligned
    if ullPartLength < MEGABYTES 5 then .ok none
    else
      let parts ← plannerLoop cbSize ullPartLength turns 0 0
      .ok (if parts.length ≤ 1 then none else some parts)

/-- Parts `1, 2, ..`, two at least, that cover a stream in order, and are of the same size except for
the last, which is no larger. -/
structure Tiles (cbSize : ℕ) (parts : List PartRange) : Prop where
  two : 2 ≤ parts.length
  numbered : ∀ i, (h : i < parts.length) → parts[i].uPartNum = i + 1
  first : ∀ p ∈ parts.head?, p.ullBaseOffset = 0
  contiguous : ∀ i, (h : i + 1 < parts.length) →
    parts[i + 1].ullBaseOffset = parts[i].ullBaseOffset + parts[i].ullPartSize
  last : ∀ p ∈ parts.getLast?, p.ullBaseOffset + p.ullPartSize = cbSize
  size_pos : ∀ p ∈ parts, 0 < p.ullPartSize
  equal : ∃ ullPartLength, MEGABYTES 5 ≤ ullPartLength ∧
    (∀ i, (h : i + 1 < parts.length) → parts[i].ullPartSize = ullPartLength) ∧
    ∀ p ∈ parts.getLast?, p.ullPartSize ≤ ullPartLength

/-- The planner comes to a result, and the parts are not too many. -/
def PlanLimits (cbSize dwPartSize : ℕ) : Prop :=
  ∃ turns plan, planner turns cbSize dwPartSize = .ok plan ∧
    ∀ parts ∈ plan, parts.length ≤ dwMaxParts

section

variable {cbSize len : ℕ} (hlen : 0 < len)

/-- How many parts it takes. -/
theorem length_partsFrom_le_iff (off num : ℕ) : ∀ k,
    (partsFrom cbSize len hlen off num).length ≤ k ↔ cbSize ≤ off + k * len := by
  fun_induction partsFrom cbSize len hlen off num with
  | case1 off num hoff =>
      intro k
      exact iff_of_true (Nat.zero_le k) (by omega)
  | case2 off num hoff size ih =>
      rintro (_ | k)
      · simp only [List.length_cons, Nat.zero_mul]
        omega
      · rw [List.length_cons, Nat.add_le_add_iff_right, ih k, Nat.succ_mul]
        simp only [size]
        split_ifs <;> omega

/-- **The parts one by one**: each of the full length, as far as the stream goes. The number of a
part counts from one, its offset is the lengths of those in front of it, and the last one ends where
the stream does. -/
theorem getElem_partsFrom (off num : ℕ) :
    ∀ i, (h : i < (partsFrom cbSize len hlen off num).length) →
      (partsFrom cbSize len hlen off num)[i] =
        { uPartNum := num + i + 1, ullBaseOffset := off + i * len,
          ullPartSize := min (cbSize - (off + i * len)) len } := by
  fun_induction partsFrom cbSize len hlen off num with
  | case1 => intro i h; simp at h
  | case2 off num hoff size ih =>
      rintro (_ | i) h
      · simp only [List.getElem_cons_zero, Nat.zero_mul, Nat.add_zero, size]
        split_ifs with hlt
        · rw [Nat.min_eq_left (Nat.le_of_lt hlt)]
        · rw [Nat.min_eq_right (by omega)]
      · have hi := Nat.lt_of_succ_lt_succ h
        -- there is another part, so this one is of the full length
        have hfull : size = len := by
          by_contra hne
          have hend : cbSize ≤ off + size + i * len := by
            simp only [size] at hne ⊢
            split_ifs at hne ⊢ <;> omega
          exact absurd hi (Nat.not_lt.2 ((length_partsFrom_le_iff hlen _ _ i).2 hend))
        rw [List.getElem_cons_succ, ih i hi, hfull, Nat.succ_mul, Nat.add_right_comm num 1 i,
          Nat.add_assoc num i 1, Nat.add_assoc off len, Nat.add_comm len]

/-- The loop does what that on natural numbers does, where the part numbers stay small. -/
theorem plannerLoop_eq (hcb : cbSize < 2 ^ 64) {cap : ℕ} (hcap : cbSize ≤ cap * len)
    (hlarge : cap < 2 ^ 32) (turns off num : ℕ) (hturns : cbSize - off < turns)
    (hnum : num * len ≤ off ∨ cbSize ≤ off) :
    plannerLoop cbSize len turns off num = .ok (partsFrom cbSize len hlen off num) := by
  induction turns generalizing off num with
  | zero => exact absurd hturns (Nat.not_lt_zero _)
  | succ turns ih =>
      rw [plannerLoop, partsFrom]
      by_cases hoff : cbSize ≤ off
      · rw [if_pos hoff, if_pos hoff]
      · have hnext : num + 1 ≤ cap := by
          have hlt : num * len < cap * len := by omega
          exact Nat.lt_of_mul_lt_mul_right hlt
        rw [if_neg hoff, if_neg hoff, bound_of_lt (by omega), ok_bind, sub_of_le (by omega),
          ok_bind]
        dsimp only
        have hsize : off + (if cbSize - off < len then cbSize - off else len) ≤ cbSize := by
          split_ifs <;> omega
        rw [bound_of_lt (by omega), ok_bind, ih _ _ ?_ ?_, ok_bind]
        · split_ifs <;> omega
        · rw [Nat.succ_mul]
          split_ifs <;> omega

end

section

variable {cbSize dwPartSize : ℕ}

/-- A part size in megabytes is a multiple of what it is aligned to. -/
theorem align_megabytes (dwPartSize : ℕ) :
    ALIGN_ANY (MEGABYTES dwPartSize) 0x10000 = MEGABYTES dwPartSize := by
  unfold ALIGN_ANY MEGABYTES
  omega

/-- The checked alignment leaves a part size in megabytes as it is. -/
theorem alignAny_megabytes (hdw : dwPartSize < 2 ^ 32) :
    alignAny (MEGABYTES dwPartSize) 0x10000 = .ok (MEGABYTES dwPartSize) := by
  have halign := align_megabytes dwPartSize
  unfold ALIGN_ANY at halign
  unfold alignAny
  rw [bound_of_lt (by unfold MEGABYTES; omega), ok_bind, sub_of_le (by omega), ok_bind,
    div_of_pos (by omega), ok_bind, halign, bound_of_lt (by unfold MEGABYTES; omega)]

/-- The length of a part that is asked for. -/
theorem partLength_eq (cbSize dwPartSize : ℕ) : partLength cbSize dwPartSize =
    if cbSize / MEGABYTES dwPartSize > dwMaxParts then cbSize / (dwMaxParts - 1)
    else MEGABYTES dwPartSize := by
  unfold partLength
  rw [align_megabytes]

/-- A length that was derived from the size is long enough for `dwMaxParts` parts. -/
theorem le_of_derived (h : MEGABYTES 5 ≤ cbSize / (dwMaxParts - 1)) :
    cbSize ≤ dwMaxParts * (cbSize / (dwMaxParts - 1)) := by
  unfold MEGABYTES dwMaxParts at *
  omega

/-- Any length is long enough for one part more. -/
theorem le_of_partLength (hpos : 0 < dwPartSize) (h : MEGABYTES 5 ≤ partLength cbSize dwPartSize) :
    cbSize ≤ (dwMaxParts + 1) * partLength cbSize dwPartSize := by
  rw [partLength_eq] at h ⊢
  split_ifs at h ⊢ with hn
  · exact Nat.le_trans (le_of_derived h) (Nat.mul_le_mul_right _ (Nat.le_succ _))
  · have hmega : 0 < MEGABYTES dwPartSize := by
      unfold MEGABYTES
      omega
    exact Nat.le_of_lt
      ((Nat.div_lt_iff_lt_mul hmega).1 (Nat.lt_succ_of_le (Nat.not_lt.1 hn)))

/-- The checked length of a part is that of `partLength`. -/
theorem capLength_megabytes (cbSize : ℕ) (hpos : 0 < dwPartSize) :
    capLength cbSize (MEGABYTES dwPartSize) = .ok (partLength cbSize dwPartSize) := by
  unfold capLength
  rw [div_of_pos (by unfold MEGABYTES; omega), ok_bind, partLength_eq, div_of_pos (by decide)]
  split_ifs <;> rfl

/-- **Nothing goes wrong for a part size that is not zero.** With more turns than bytes the loops
end, and the `ULONGLONG`s do not wrap around, as no offset passes the size; so the code's plan is
the one over natural numbers. -/
theorem planner_eq (hcb : cbSize < 2 ^ 64) (hdw : dwPartSize < 2 ^ 32) (hpos : 0 < dwPartSize)
    {turns : ℕ} (hturns : cbSize < turns) :
    planner turns cbSize dwPartSize =
      .ok ((createPartList cbSize dwPartSize).map PartList.parts) := by
  unfold planner createPartList
  rw [bound_of_lt (by unfold MEGABYTES; omega), ok_bind]
  by_cases hsmall : cbSize < MEGABYTES dwPartSize
  · rw [if_pos hsmall, if_pos hsmall]
    rfl
  rw [if_neg hsmall, if_neg hsmall, alignAny_megabytes hdw, ok_bind,
    capLength_megabytes cbSize hpos, ok_bind]
  by_cases hleast : partLength cbSize dwPartSize < MEGABYTES 5
  · rw [if_pos hleast, dif_pos hleast]
    rfl
  rw [if_neg hleast, dif_neg hleast]
  have hcap := le_of_partLength hpos (Nat.not_lt.1 hleast)
  rw [plannerLoop_eq (pos_of_five_megabytes hleast) hcb hcap (by decide) turns 0 0 (by omega)
    (.inl (by omega)), ok_bind]
  split_ifs <;> rfl

/-- A part size of zero is a divisor. -/
theorem planner_zero (turns cbSize : ℕ) : planner turns cbSize 0 = .error .divideByZero := rfl

/-- **The parts tile the stream.** Every byte is in one part, in order: the offsets begin at zero,
each is the end of the part in front of it, and the last part ends with the stream. -/
theorem tiles_of_createPartList {P : PartList} (h : createPartList cbSize dwPartSize = some P) :
    Tiles cbSize P.parts := by
  have hleast : MEGABYTES 5 ≤ partLength cbSize dwPartSize := by
    unfold createPartList at h
    split_ifs at h with _ hlen
    exact Nat.not_lt.1 hlen
  obtain ⟨hlen, hP, htwo⟩ := createPartList_eq_some h
  have hget : ∀ i, (hi : i < P.parts.length) → P.parts[i] =
      { uPartNum := i + 1, ullBaseOffset := i * partLength cbSize dwPartSize,
        ullPartSize := min (cbSize - i * partLength cbSize dwPartSize)
          (partLength cbSize dwPartSize) } := by
    intro i hi
    have hi' : i < (partsFrom cbSize _ hlen 0 0).length := hP ▸ hi
    have := getElem_partsFrom hlen 0 0 i hi'
    simpa only [hP, Nat.zero_add] using this
  have hcount : ∀ i, P.parts.length ≤ i ↔ cbSize ≤ i * partLength cbSize dwPartSize := by
    intro i
    rw [hP, length_partsFrom_le_iff hlen 0 0 i, Nat.zero_add]
  -- every part but the last is followed by one that begins within the stream
  have hfull : ∀ i, (hi : i + 1 < P.parts.length) →
      (i + 1) * partLength cbSize dwPartSize < cbSize := fun i hi =>
    Nat.not_le.1 (mt (hcount (i + 1)).2 (Nat.not_le.2 hi))
  have hlast : ∀ p ∈ P.parts.getLast?, ∃ i, P.parts.length = i + 1 ∧ p =
      { uPartNum := i + 1, ullBaseOffset := i * partLength cbSize dwPartSize,
        ullPartSize := min (cbSize - i * partLength cbSize dwPartSize)
          (partLength cbSize dwPartSize) } := by
    intro p hp
    rw [Option.mem_def, List.getLast?_eq_getElem?] at hp
    obtain ⟨hi, hp⟩ := List.getElem?_eq_some_iff.1 hp
    exact ⟨P.parts.length - 1, by omega, by rw [← hp, hget _ hi]⟩
  refine ⟨htwo, P.numbered, fun p hp => ?_, fun i hi => ?_, fun p hp => ?_, P.size_pos,
    partLength cbSize dwPartSize, hleast, fun i hi => ?_, fun p hp => ?_⟩
  · rw [Option.mem_def, List.head?_eq_getElem?] at hp
    obtain ⟨hi, hp⟩ := List.getElem?_eq_some_iff.1 hp
    rw [← hp, hget 0 hi]
    exact Nat.zero_mul _
  · have := hfull i hi
    rw [hget (i + 1) hi, hget i (Nat.lt_of_succ_lt hi)]
    dsimp only
    rw [Nat.succ_mul] at this ⊢
    rw [Nat.min_eq_right (by omega)]
  · obtain ⟨i, hi, rfl⟩ := hlast p hp
    have hend := (hcount (i + 1)).1 (Nat.le_of_eq hi)
    have hin := mt (hcount i).2 (by omega)
    dsimp only
    rw [Nat.succ_mul] at hend
    rw [Nat.min_eq_left (by omega)]
    omega
  · have := hfull i hi
    rw [hget i (Nat.lt_of_succ_lt hi)]
    dsimp only
    rw [Nat.succ_mul] at this
    rw [Nat.min_eq_right (by omega)]
  · obtain ⟨i, -, rfl⟩ := hlast p hp
    exact Nat.min_le_right _ _

/-- Some whole parts, and no rest. -/
theorem le_mul_iff {a b n : ℕ} (hb : 0 < b) (h : a / b ≤ n) :
    a ≤ n * b ↔ (a / b = n → b ∣ a) := by
  have hdiv : b * (a / b) + a % b = a := Nat.div_add_mod a b
  have hmod := Nat.mod_lt a hb
  rw [Nat.dvd_iff_mod_eq_zero]
  rcases Nat.lt_or_eq_of_le h with hlt | rfl
  · refine iff_of_true ?_ fun heq => absurd heq (Nat.ne_of_lt hlt)
    have hle : b * (a / b + 1) ≤ b * n := Nat.mul_le_mul_left b hlt
    rw [Nat.mul_succ] at hle
    rw [Nat.mul_comm n b]
    omega
  · rw [Nat.mul_comm (a / b) b]
    omega

/-- The parts that are one too many. -/
theorem length_le_iff {P : PartList} (hpos : 0 < dwPartSize)
    (h : createPartList cbSize dwPartSize = some P) :
    P.parts.length ≤ dwMaxParts ↔
      (5 ≤ dwPartSize → cbSize / MEGABYTES dwPartSize = dwMaxParts →
        MEGABYTES dwPartSize ∣ cbSize) := by
  have hleast : MEGABYTES 5 ≤ partLength cbSize dwPartSize := by
    unfold createPartList at h
    split_ifs at h with _ hlen
    exact Nat.not_lt.1 hlen
  obtain ⟨hlen, hP, -⟩ := createPartList_eq_some h
  rw [hP, length_partsFrom_le_iff hlen 0 0, Nat.zero_add]
  rw [partLength_eq] at hleast ⊢
  split_ifs at hleast ⊢ with hn
  · exact iff_of_true (le_of_derived hleast) fun _ heq => absurd heq (Nat.ne_of_gt hn)
  · have hmega : 0 < MEGABYTES dwPartSize := by
      unfold MEGABYTES
      omega
    have hfive : 5 ≤ dwPartSize := by
      unfold MEGABYTES at hleast
      omega
    rw [le_mul_iff hmega (Nat.not_lt.1 hn)]
    exact ⟨fun hrest _ => hrest, fun hrest => hrest hfive⟩

/-- A stream of `dwMaxParts` parts is not declined. -/
theorem createPartList_ne_none (hfive : 5 ≤ dwPartSize)
    (hn : cbSize / MEGABYTES dwPartSize = dwMaxParts) : createPartList cbSize dwPartSize ≠ none := by
  have hmega : 0 < MEGABYTES dwPartSize := by
    unfold MEGABYTES
    omega
  have hlength : partLength cbSize dwPartSize = MEGABYTES dwPartSize := by
    rw [partLength_eq, if_neg (by omega)]
  have hle : dwMaxParts * MEGABYTES dwPartSize ≤ cbSize := hn ▸ Nat.div_mul_le_self ..
  unfold dwMaxParts at hle
  unfold createPartList
  split_ifs with hsmall hleast hone
  · omega
  · rw [hlength] at hleast
    unfold MEGABYTES at hleast
    omega
  · rw [length_partsFrom_le_iff, hlength] at hone
    omega
  · exact Option.some_ne_none _

/-- A part size of zero is within no limits, for there is no plan. -/
theorem not_planLimits_zero (cbSize : ℕ) : ¬PlanLimits cbSize 0 := by
  rintro ⟨turns, plan, hplan, -⟩
  rw [planner_zero] at hplan
  exact absurd hplan (by simp)

/-- More turns change no result. -/
theorem plannerLoop_mono {len turns turns' off num : ℕ} {parts : List PartRange}
    (h : plannerLoop cbSize len turns off num = .ok parts) (hle : turns ≤ turns') :
    plannerLoop cbSize len turns' off num = .ok parts := by
  induction turns generalizing turns' off num parts with
  | zero => exact absurd h (by simp [plannerLoop])
  | succ turns ih =>
      obtain ⟨turns', rfl⟩ : ∃ k, turns' = k + 1 := ⟨turns' - 1, by omega⟩
      rw [plannerLoop] at h ⊢
      by_cases hoff : cbSize ≤ off
      · rw [if_pos hoff] at h ⊢
        exact h
      · rw [if_neg hoff] at h ⊢
        cases hnum : bound 32 (num + 1) with
        | error e => exact absurd h (by simp [hnum])
        | ok num' =>
            rw [hnum, ok_bind] at h
            rw [ok_bind]
            cases hrest : sub cbSize off with
            | error e => exact absurd h (by simp [hrest])
            | ok rest =>
                rw [hrest, ok_bind] at h
                rw [ok_bind]
                dsimp only at h ⊢
                cases hnext : bound 64 (off + if rest < len then rest else len) with
                | error e => exact absurd h (by simp [hnext])
                | ok next =>
                    rw [hnext, ok_bind] at h
                    rw [ok_bind]
                    cases hparts : plannerLoop cbSize len turns next num' with
                    | error e => exact absurd h (by simp [hparts])
                    | ok parts' =>
                        rw [ih hparts (Nat.le_of_succ_le_succ hle)]
                        exact hparts ▸ h

/-- More turns do not change a plan. -/
theorem planner_mono {turns turns' : ℕ} {plan : Option (List PartRange)}
    (h : planner turns cbSize dwPartSize = .ok plan) (hle : turns ≤ turns') :
    planner turns' cbSize dwPartSize = .ok plan := by
  unfold planner at h ⊢
  cases hasked : bound 64 (MEGABYTES dwPartSize) with
  | error e => exact absurd h (by simp [hasked])
  | ok asked =>
      rw [hasked, ok_bind] at h
      rw [ok_bind]
      split_ifs at h ⊢
      · exact h
      · cases haligned : alignAny asked 0x10000 with
        | error e => exact absurd h (by simp [haligned])
        | ok aligned =>
            rw [haligned, ok_bind] at h
            rw [ok_bind]
            cases hlength : capLength cbSize aligned with
            | error e => exact absurd h (by simp [hlength])
            | ok ullPartLength =>
                rw [hlength, ok_bind] at h
                rw [ok_bind]
                split_ifs at h ⊢
                · exact h
                · cases hparts : plannerLoop cbSize ullPartLength turns 0 0 with
                  | error e => exact absurd h (by simp [hparts])
                  | ok parts =>
                      rw [plannerLoop_mono hparts hle]
                      exact hparts ▸ h

/-- There is one plan only, whatever the turns. -/
theorem planner_unique {turns turns' : ℕ} {plan plan' : Option (List PartRange)}
    (h : planner turns cbSize dwPartSize = .ok plan)
    (h' : planner turns' cbSize dwPartSize = .ok plan') : plan = plan' := by
  have hmore := planner_mono h (Nat.le_max_left turns turns')
  have hmore' := planner_mono h' (Nat.le_max_right turns turns')
  exact Except.ok.inj (hmore.symm.trans hmore')

/-- The limits are kept unless the length that is derived again still leaves a rest. -/
theorem planLimits_iff (hcb : cbSize < 2 ^ 64) (hdw : dwPartSize < 2 ^ 32) (hpos : 0 < dwPartSize) :
    PlanLimits cbSize dwPartSize ↔
      (5 ≤ dwPartSize → cbSize / MEGABYTES dwPartSize = dwMaxParts →
        MEGABYTES dwPartSize ∣ cbSize) := by
  have hresult : ∀ turns, cbSize < turns → planner turns cbSize dwPartSize =
      .ok ((createPartList cbSize dwPartSize).map PartList.parts) :=
    fun _ hturns => planner_eq hcb hdw hpos hturns
  refine ⟨fun ⟨turns, plan, hplan, hlimit⟩ hfive hn => ?_, fun hrest => ?_⟩
  · obtain rfl := planner_unique hplan (hresult _ (Nat.lt_succ_self _))
    obtain ⟨P, hP⟩ := Option.ne_none_iff_exists'.1 (createPartList_ne_none hfive hn)
    exact (length_le_iff hpos hP).1 (hlimit _ (by rw [hP]; rfl)) hfive hn
  · refine ⟨cbSize + 1, _, hresult _ (Nat.lt_succ_self _), fun parts hparts => ?_⟩
    obtain ⟨P, hP, rfl⟩ := Option.map_eq_some_iff.1 hparts
    exact (length_le_iff hpos hP).2 hrest

end

/-- **The plan of a multipart upload**: none, or at least two parts `1, 2, ..` that tile the stream, all
but the last of the same size, which is at least five megabytes. -/
theorem planner_tiles {cbSize dwPartSize : ℕ} (hcb : cbSize < 2 ^ 64) (hdw : dwPartSize < 2 ^ 32)
    (hpos : 1 ≤ dwPartSize) :
    ∃ turns plan, planner turns cbSize dwPartSize = .ok plan ∧
      ∀ parts ∈ plan, Tiles cbSize parts := by
  refine ⟨cbSize + 1, _, planner_eq hcb hdw hpos (Nat.lt_succ_self _), fun parts hparts => ?_⟩
  obtain ⟨P, hP, rfl⟩ := Option.map_eq_some_iff.1 hparts
  exact tiles_of_createPartList hP

/-- Eleven megabytes in parts of five. -/
def elevenParts : List PartRange :=
  [{ uPartNum := 1, ullBaseOffset := 0, ullPartSize := MEGABYTES 5 },
    { uPartNum := 2, ullBaseOffset := MEGABYTES 5, ullPartSize := MEGABYTES 5 },
    { uPartNum := 3, ullBaseOffset := MEGABYTES 10, ullPartSize := MEGABYTES 1 }]

/-- They are what is planned, and tile the stream. With parts of five megabytes there are three: two
of them full, and one of a megabyte. -/
theorem planner_tiles_eleven :
    planner 4 (MEGABYTES 11) 5 = .ok (some elevenParts) ∧ Tiles (MEGABYTES 11) elevenParts := by
  have hplan : planner 4 (MEGABYTES 11) 5 = .ok (some elevenParts) := rfl
  have htiled : ∃ turns plan, planner turns (MEGABYTES 11) 5 = .ok plan ∧
      ∀ parts ∈ plan, Tiles (MEGABYTES 11) parts :=
    planner_tiles (by decide) (by decide) (by decide)
  obtain ⟨turns, plan, hturns, htiles⟩ := htiled
  obtain rfl := planner_unique hplan hturns
  exact ⟨hplan, htiles elevenParts rfl⟩

/-- **The plan stays within its limits**, if and only if the part size is not zero, and a stream that
is `dwMaxParts` of such parts and a rest has no rest. -/
theorem planner_limits {cbSize dwPartSize : ℕ} (hcb : cbSize < 2 ^ 64) (hdw : dwPartSize < 2 ^ 32) :
    PlanLimits cbSize dwPartSize ↔
      dwPartSize ≠ 0 ∧ (5 ≤ dwPartSize → cbSize / MEGABYTES dwPartSize = dwMaxParts →
        MEGABYTES dwPartSize ∣ cbSize) := by
  by_cases hzero : dwPartSize = 0
  · subst hzero
    exact iff_of_false (not_planLimits_zero cbSize) fun h => h.1 rfl
  · rw [planLimits_iff hcb hdw (Nat.pos_of_ne_zero hzero)]
    exact ⟨fun h => ⟨hzero, h⟩, fun h => h.2⟩

/-- Eleven megabytes are within them. Two parts of five megabytes and one of a megabyte are no more
than a thousand. -/
theorem planner_limits_eleven : PlanLimits (MEGABYTES 11) 5 :=
  (planner_limits (by decide) (by decide)).2 ⟨by decide, fun _ h => absurd h (by decide)⟩

/-- A part size of zero, and one byte more than a thousand parts of five megabytes. No plan is made
with the first, and the second is planned with one part more than the limit, as the length that is
derived again is the one it was. -/
theorem planner_exceeds : ¬PlanLimits 1 0 ∧ ¬PlanLimits (MEGABYTES 5000 + 1) 5 := by
  refine ⟨not_planLimits_zero 1, fun h => ?_⟩
  rw [planLimits_iff (by decide) (by decide) (by decide)] at h
  exact absurd (h (by decide) (by decide)) (by decide)

end Multipart
end ECSUtil

/-
# How many threads a pool may have

`SetThreadRange` and the limit that `AddThreads` computes (`ECSUtil/ThreadPool.h`), on the integers of
the code: a `DWORD` has 32 bits, and what does not fit wraps around.

Inside the range of queue sizes the limit is interpolated between the two limits.  The difference of the
limits wraps around where the second one is the smaller one, and the product does where it does not fit:
`thread_limit`.

The limit is to be between the two limits that were set, with nothing wrapping around, and to go in
the direction of the range (`Limited`, `Monotone`).  It does where the second limit is not the
smaller one and the product fits (`Fits`), for there the arithmetic is that of the natural numbers
(`toNat_interpolated`).
-/

import Mathlib.Algebra.Group.Nat.Defs
import Mathlib.Data.Int.Notation
import Mathlib.Tactic.SplitIfs

namespace ECSUtil
namespace ThreadPool

/-- What limits the threads of a pool. -/
structure ThreadRange where
  dwMaxNumThreads : UInt32
  dwMaxNumThreadsRange : UInt32 := 0
  dwQueueRangeMin : UInt32 := 0
  dwQueueRangeMax : UInt32 := 0
  deriving DecidableEq, Repr

namespace ThreadRange

/-- `SetThreadRange`. -/
def setThreadRange (r : ThreadRange)
    (dwMaxNumThreadsRange dwQueueRangeMin dwQueueRangeMax : UInt32) : ThreadRange :=
  { r with
    dwMaxNumThreadsRange := dwMaxNumThreadsRange
    dwQueueRangeMin := dwQueueRangeMin
    dwQueueRangeMax := dwQueueRangeMax }

/-- `dwRealMaxThreads`, for a queue of a size. -/
def realMaxThreads (r : ThreadRange) (dwCurrentQueueSize : UInt32) : UInt32 :=
  if r.dwQueueRangeMin > 0 then
    if dwCurrentQueueSize < r.dwQueueRangeMin then r.dwMaxNumThreads
    else if dwCurrentQueueSize > r.dwQueueRangeMax then r.dwMaxNumThreadsRange
    else if r.dwQueueRangeMax > r.dwQueueRangeMin then
      (dwCurrentQueueSize - r.dwQueueRangeMin) * (r.dwMaxNumThreadsRange - r.dwMaxNumThreads) /
        (r.dwQueueRangeMax - r.dwQueueRangeMin) + r.dwMaxNumThreads
    else r.dwMaxNumThreads
  else r.dwMaxNumThreads

/-- The limit is interpolated. -/
def Interpolated (r : ThreadRange) (q : UInt32) : Prop :=
  0 < r.dwQueueRangeMin ∧ r.dwQueueRangeMin < r.dwQueueRangeMax ∧ r.dwQueueRangeMin ≤ q ∧
    q ≤ r.dwQueueRangeMax

/-- **Nothing wraps around**, and nothing is divided by zero. -/
structure Exact (r : ThreadRange) (q : UInt32) : Prop where
  queue : ((q - r.dwQueueRangeMin).toNat : ℤ) = q.toNat - r.dwQueueRangeMin.toNat
  threads : ((r.dwMaxNumThreadsRange - r.dwMaxNumThreads).toNat : ℤ) =
    r.dwMaxNumThreadsRange.toNat - r.dwMaxNumThreads.toNat
  product : ((q - r.dwQueueRangeMin) * (r.dwMaxNumThreadsRange - r.dwMaxNumThreads)).toNat =
    (q - r.dwQueueRangeMin).toNat * (r.dwMaxNumThreadsRange - r.dwMaxNumThreads).toNat
  divisor : ((r.dwQueueRangeMax - r.dwQueueRangeMin).toNat : ℤ) =
    r.dwQueueRangeMax.toNat - r.dwQueueRangeMin.toNat
  divides : r.dwQueueRangeMax - r.dwQueueRangeMin ≠ 0
  sum : (r.realMaxThreads q).toNat =
    ((q - r.dwQueueRangeMin) * (r.dwMaxNumThreadsRange - r.dwMaxNumThreads) /
      (r.dwQueueRangeMax - r.dwQueueRangeMin)).toNat + r.dwMaxNumThreads.toNat

/-- **The limit is between the two limits**, and nothing wraps around. -/
structure Limited (r : ThreadRange) (q : UInt32) : Prop where
  lower : min r.dwMaxNumThreads.toNat r.dwMaxNumThreadsRange.toNat ≤ (r.realMaxThreads q).toNat
  upper : (r.realMaxThreads q).toNat ≤ max r.dwMaxNumThreads.toNat r.dwMaxNumThreadsRange.toNat
  computed : r.Interpolated q → r.Exact q

/-- A longer queue has the limit go in the direction of the range. -/
def Monotone (r : ThreadRange) (q q' : UInt32) : Prop :=
  q ≤ q' →
    (r.dwMaxNumThreads ≤ r.dwMaxNumThreadsRange → r.realMaxThreads q ≤ r.realMaxThreads q') ∧
    (r.dwMaxNumThreadsRange ≤ r.dwMaxNumThreads → r.realMaxThreads q' ≤ r.realMaxThreads q)

/-- Where the limit is interpolated, the second limit is not the smaller one and the product is below
2^32. -/
def Fits (r : ThreadRange) (q : UInt32) : Prop :=
  r.Interpolated q → r.dwMaxNumThreads ≤ r.dwMaxNumThreadsRange ∧
    (q.toNat - r.dwQueueRangeMin.toNat) *
      (r.dwMaxNumThreadsRange.toNat - r.dwMaxNumThreads.toNat) < 4294967296

section

variable {r : ThreadRange} {q q' : UInt32}

/-- Inside the range the limit is what the code interpolates. -/
theorem realMaxThreads_interpolated (h : r.Interpolated q) : r.realMaxThreads q =
    (q - r.dwQueueRangeMin) * (r.dwMaxNumThreadsRange - r.dwMaxNumThreads) /
      (r.dwQueueRangeMax - r.dwQueueRangeMin) + r.dwMaxNumThreads := by
  obtain ⟨hmin, hlt, hle, hge⟩ := h
  unfold realMaxThreads
  rw [if_pos hmin, if_neg (UInt32.not_lt.2 hle), if_neg (UInt32.not_lt.2 hge), if_pos hlt]

/-- **Where it is not interpolated**, the limit is one of the two: the second one for the queues that are
longer than those of the range. -/
theorem realMaxThreads_of_not (h : ¬r.Interpolated q) : r.realMaxThreads q =
    if 0 < r.dwQueueRangeMin ∧ r.dwQueueRangeMin ≤ q ∧ r.dwQueueRangeMax < q then
      r.dwMaxNumThreadsRange
    else r.dwMaxNumThreads := by
  unfold realMaxThreads
  by_cases hmin : r.dwQueueRangeMin > 0
  · rw [if_pos hmin]
    by_cases hlow : q < r.dwQueueRangeMin
    · rw [if_pos hlow, if_neg fun hno => absurd hlow (UInt32.not_lt.2 hno.2.1)]
    · rw [if_neg hlow]
      by_cases hhigh : q > r.dwQueueRangeMax
      · rw [if_pos hhigh, if_pos ⟨hmin, UInt32.not_lt.1 hlow, hhigh⟩]
      · have hno : ¬r.dwQueueRangeMax > r.dwQueueRangeMin := fun hlt =>
          h ⟨hmin, hlt, UInt32.not_lt.1 hlow, UInt32.not_lt.1 hhigh⟩
        rw [if_neg hhigh, if_neg hno, if_neg fun hno => hhigh hno.2.2]
  · rw [if_neg hmin, if_neg fun hno => hmin hno.1]

/-- **The interpolated limit**, over the natural numbers. The product and the differences are those
of the natural numbers then, and the quotient is at most the second limit less the first. -/
theorem toNat_interpolated (h : r.Interpolated q) (hfits : r.Fits q) :
    (r.realMaxThreads q).toNat =
      (q.toNat - r.dwQueueRangeMin.toNat) *
        (r.dwMaxNumThreadsRange.toNat - r.dwMaxNumThreads.toNat) /
        (r.dwQueueRangeMax.toNat - r.dwQueueRangeMin.toNat) + r.dwMaxNumThreads.toNat ∧
      r.dwMaxNumThreads.toNat ≤ (r.realMaxThreads q).toNat ∧
      (r.realMaxThreads q).toNat ≤ r.dwMaxNumThreadsRange.toNat ∧ r.Exact q := by
  obtain ⟨hle, hproduct⟩ := hfits h
  have hreal := realMaxThreads_interpolated h
  obtain ⟨-, hlt, hqmin, hqmax⟩ := h
  have hqueue := UInt32.toNat_sub_of_le _ _ hqmin
  have hthreads := UInt32.toNat_sub_of_le _ _ hle
  have hdivisor := UInt32.toNat_sub_of_le _ _ (UInt32.le_of_lt hlt)
  rw [UInt32.le_iff_toNat_le] at hle hqmin hqmax
  rw [UInt32.lt_iff_toNat_lt] at hlt
  have hmul : ((q - r.dwQueueRangeMin) * (r.dwMaxNumThreadsRange - r.dwMaxNumThreads)).toNat =
      (q.toNat - r.dwQueueRangeMin.toNat) *
        (r.dwMaxNumThreadsRange.toNat - r.dwMaxNumThreads.toNat) := by
    rw [UInt32.toNat_mul, hqueue, hthreads]
    exact Nat.mod_eq_of_lt hproduct
  -- the part is never more than the whole
  have hpart : (q.toNat - r.dwQueueRangeMin.toNat) *
      (r.dwMaxNumThreadsRange.toNat - r.dwMaxNumThreads.toNat) /
      (r.dwQueueRangeMax.toNat - r.dwQueueRangeMin.toNat) ≤
        r.dwMaxNumThreadsRange.toNat - r.dwMaxNumThreads.toNat :=
    Nat.div_le_of_le_mul (Nat.mul_le_mul_right _ (by omega))
  have hrange := r.dwMaxNumThreadsRange.toNat_lt
  have hsum : (r.realMaxThreads q).toNat =
      (q.toNat - r.dwQueueRangeMin.toNat) *
        (r.dwMaxNumThreadsRange.toNat - r.dwMaxNumThreads.toNat) /
        (r.dwQueueRangeMax.toNat - r.dwQueueRangeMin.toNat) + r.dwMaxNumThreads.toNat := by
    rw [hreal, UInt32.toNat_add, UInt32.toNat_div, hmul, hdivisor]
    exact Nat.mod_eq_of_lt (by omega)
  refine ⟨hsum, hsum.symm ▸ Nat.le_add_left _ _, by omega, by omega, by omega, ?_, by omega,
    fun hzero => ?_, ?_⟩
  · rw [hmul, hqueue, hthreads]
  · rw [hzero] at hdivisor
    have hnone : (0 : UInt32).toNat = 0 := rfl
    omega
  · rw [hsum, UInt32.toNat_div, hmul, hdivisor]

/-- Where all fits, the limit is between the two. -/
theorem limited_of_fits (h : r.Fits q) : r.Limited q := by
  by_cases hin : r.Interpolated q
  · obtain ⟨-, hlower, hle, hexact⟩ := toNat_interpolated hin h
    exact ⟨Nat.le_trans (Nat.min_le_left _ _) hlower, Nat.le_trans hle (Nat.le_max_right _ _),
      fun _ => hexact⟩
  · have hreal := realMaxThreads_of_not hin
    refine ⟨?_, ?_, fun hno => absurd hno hin⟩
    · rw [hreal]
      split_ifs
      · exact Nat.min_le_right _ _
      · exact Nat.min_le_left _ _
    · rw [hreal]
      split_ifs
      · exact Nat.le_max_right _ _
      · exact Nat.le_max_left _ _

/-- **Nothing wraps around only if everything fits.** -/
theorem fits_of_limited (h : r.Limited q) : r.Fits q := by
  intro hin
  obtain ⟨hqueue, hthreads, hproduct, -, -, -⟩ := h.computed hin
  have hlt := ((q - r.dwQueueRangeMin) * (r.dwMaxNumThreadsRange - r.dwMaxNumThreads)).toNat_lt
  have hle : r.dwMaxNumThreads.toNat ≤ r.dwMaxNumThreadsRange.toNat := by omega
  refine ⟨UInt32.le_iff_toNat_le.2 hle, ?_⟩
  have hqueue' : (q - r.dwQueueRangeMin).toNat = q.toNat - r.dwQueueRangeMin.toNat := by omega
  have hthreads' : (r.dwMaxNumThreadsRange - r.dwMaxNumThreads).toNat =
      r.dwMaxNumThreadsRange.toNat - r.dwMaxNumThreads.toNat := by omega
  rw [hproduct, hqueue', hthreads'] at hlt
  exact hlt

/-- Where all fits, a longer queue has the limit go in the direction of the range. -/
theorem monotone_of_fits (h : r.Fits q) (h' : r.Fits q') : r.Monotone q q' := by
  intro hqq
  rw [UInt32.le_iff_toNat_le] at hqq
  by_cases hin : r.Interpolated q
  · obtain ⟨hvalue, hlower, hupper, -⟩ := toNat_interpolated hin h
    by_cases hin' : r.Interpolated q'
    · obtain ⟨hvalue', hlower', hupper', -⟩ := toNat_interpolated hin' h'
      have hparts : (q.toNat - r.dwQueueRangeMin.toNat) *
          (r.dwMaxNumThreadsRange.toNat - r.dwMaxNumThreads.toNat) /
          (r.dwQueueRangeMax.toNat - r.dwQueueRangeMin.toNat) ≤
          (q'.toNat - r.dwQueueRangeMin.toNat) *
          (r.dwMaxNumThreadsRange.toNat - r.dwMaxNumThreads.toNat) /
          (r.dwQueueRangeMax.toNat - r.dwQueueRangeMin.toNat) :=
        Nat.div_le_div_right (Nat.mul_le_mul_right _ (by omega))
      refine ⟨fun _ => UInt32.le_iff_toNat_le.2 (by omega), fun hdown => ?_⟩
      -- the two limits are the same
      rw [UInt32.le_iff_toNat_le] at hdown ⊢
      omega
    · -- the second queue is longer than those of the range
      obtain ⟨hmin, hlt, hlow, -⟩ := hin
      have hlow' : r.dwQueueRangeMin ≤ q' := UInt32.le_trans hlow (UInt32.le_iff_toNat_le.2 hqq)
      have hhigh' : r.dwQueueRangeMax < q' :=
        UInt32.not_le.1 fun hno => hin' ⟨hmin, hlt, hlow', hno⟩
      rw [realMaxThreads_of_not hin', if_pos ⟨hmin, hlow', hhigh'⟩]
      simp only [UInt32.le_iff_toNat_le]
      omega
  · rw [realMaxThreads_of_not hin]
    by_cases hin' : r.Interpolated q'
    · -- the first queue is shorter than those of the range
      obtain ⟨-, hlower', hupper', -⟩ := toNat_interpolated hin' h'
      have hshort : ¬(0 < r.dwQueueRangeMin ∧ r.dwQueueRangeMin ≤ q ∧ r.dwQueueRangeMax < q) := by
        rintro ⟨-, -, hhigh⟩
        have hhigh' := UInt32.le_iff_toNat_le.1 hin'.2.2.2
        rw [UInt32.lt_iff_toNat_lt] at hhigh
        omega
      rw [if_neg hshort]
      simp only [UInt32.le_iff_toNat_le]
      omega
    · rw [realMaxThreads_of_not hin']
      by_cases hlong : 0 < r.dwQueueRangeMin ∧ r.dwQueueRangeMin ≤ q ∧ r.dwQueueRangeMax < q
      · have hlong' : 0 < r.dwQueueRangeMin ∧ r.dwQueueRangeMin ≤ q' ∧ r.dwQueueRangeMax < q' := by
          obtain ⟨hmin, hlow, hhigh⟩ := hlong
          have hle := UInt32.le_iff_toNat_le.2 hqq
          exact ⟨hmin, UInt32.le_trans hlow hle, UInt32.lt_of_lt_of_le hhigh hle⟩
        rw [if_pos hlong, if_pos hlong']
        exact ⟨fun _ => UInt32.le_refl _, fun _ => UInt32.le_refl _⟩
      · rw [if_neg hlong]
        split_ifs
        · exact ⟨id, id⟩
        · exact ⟨fun _ => UInt32.le_refl _, fun _ => UInt32.le_refl _⟩

end

end ThreadRange

/-- **The limit of the threads** is between the two limits for two sizes of the queue, goes in the
direction of the range from one to the other, and is computed without a wrap-around, if and only if
everything fits for both. -/
theorem thread_limit (r : ThreadRange) (q q' : UInt32) :
    (r.Limited q ∧ r.Limited q' ∧ r.Monotone q q') ↔ r.Fits q ∧ r.Fits q' := by
  constructor
  · rintro ⟨h, h', -⟩
    exact ⟨r.fits_of_limited h, r.fits_of_limited h'⟩
  · rintro ⟨h, h'⟩
    exact ⟨r.limited_of_fits h, r.limited_of_fits h', r.monotone_of_fits h h'⟩

/-- Ten threads, and five of them for the queues of eleven messages or more. -/
def fewerThreads : ThreadRange := { dwMaxNumThreads := 10 : ThreadRange }.setThreadRange 5 1 11

/-- **A range below the limit** allows more than 429 million threads for a queue of six messages.
The second limit less the first wraps around, to a number near 2^32. -/
theorem thread_limit_wrapped : fewerThreads.realMaxThreads 6 = 429496737 ∧
    ¬(fewerThreads.Limited 6 ∧ fewerThreads.Limited 6 ∧ fewerThreads.Monotone 6 6) := by
  refine ⟨by decide, fun h => ?_⟩
  exact absurd h.1.upper (by decide)

end ThreadPool
end ECSUtil

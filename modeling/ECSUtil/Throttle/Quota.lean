/-
# What is taken off a quota

The loops of `SendRequestInternal` (`ECSUtil/ECSConnection.cpp`) that write and read, as far as they
have to do with the quota of a throttled host, by any number of threads, with the ticks of the timer
and changes of the rates in between.  A thread writes or reads some bytes, takes them off the quota,
and waits until the quota is not negative.

The loop over a stream is left at its last entry, before the bytes of that turn are taken off, and with
version 4 of the signatures the last chunks are written after it.  Where this does not happen, every
byte is taken off once, and the bytes moved are at most what was granted and one write or read for each
thread: `quota_bound`.

What is moved, granted and taken off is counted apart from the quota.  The bytes that are still to
be taken off are with the threads that have moved them (`Quotas.pending`), and these bytes and the
debt of the quota are one write or read of each busy thread at most (`Balanced`).
-/

import Mathlib.Algebra.BigOperators.Ring.Finset
import Mathlib.Algebra.Order.BigOperators.Group.Finset
import Mathlib.Data.Fintype.Basic
import Mathlib.Logic.Function.Basic
import ECSUtil.Lib.StepSystem
import ECSUtil.Throttle.Refill

namespace ECSUtil
namespace Throttle

inductive Dir
  | upload
  | download
  deriving DecidableEq, Repr

/-- How a thread moves bytes. -/
inductive Mode
  /-- `pStreamSend`. -/
  | stream (bS3AuthV4 : Bool)
  /-- `pData`. -/
  | data
  | receive
  deriving DecidableEq, Repr

def Mode.dir : Mode → Dir
  | .receive => .download
  | _ => .upload

/-- Where a thread is. -/
inductive Phase
  | idle
  /-- At the top of its loop. -/
  | ready (m : Mode)
  /-- This turn has moved so many bytes, which are to be taken off. -/
  | moved (m : Mode) (dwBytes : ℕ)
  /-- The last entry of a stream was sent, and the last chunks follow. -/
  | last
  /-- It waits for the quota. -/
  | waiting (m : Mode)
  deriving DecidableEq, Repr

/-- The bytes that are to be taken off. -/
def Phase.pending (d : Dir) : Phase → ℕ
  | .moved m n => if m.dir = d then n else 0
  | _ => 0

/-- The thread has moved bytes, or waits, and has not seen the quota since. -/
def Phase.busy (d : Dir) : Phase → ℕ
  | .moved m n => if m.dir = d ∧ n ≠ 0 then 1 else 0
  | .waiting m => if m.dir = d then 1 else 0
  | _ => 0

/-- A host, the threads that send to it and receive from it, and what was moved, taken off and granted
so far; `largest` is the largest single write or read. -/
structure Quotas (ι : Type*) where
  info : Dir → ThrottleInfo
  phase : ι → Phase := fun _ => .idle
  moved : Dir → ℕ := fun _ => 0
  deducted : Dir → ℕ := fun _ => 0
  granted : Dir → ℕ
  largest : Dir → ℕ := fun _ => 0

/-- The entry that `SetThrottle` makes. -/
def ThrottleInfo.ofRate (iThrottleRate : Int32) : ThrottleInfo where
  iBytesSec := iThrottleRate
  iBytesCurInterval := iThrottleRate

inductive Move (ι : Type*)
  | start (t : ι) (m : Mode)
  /-- `WinHttpWriteData` of `dwBytes`, and how many were written, if it succeeds. -/
  | write (t : ι) (dwBytes : ℕ) (dwBytesWritten : Option ℕ)
  /-- A turn of the loop over a stream that writes nothing. -/
  | writeNothing (t : ι)
  /-- `WinHttpReadData` returns so many bytes. -/
  | read (t : ι) (dwDownloaded : ℕ)
  /-- The turn was the last of a stream. -/
  | lastEntry (t : ι)
  /-- A chunk after the last entry. -/
  | writeLast (t : ι) (dwBytes : ℕ) (dwBytesWritten : Option ℕ)
  | deduct (t : ι)
  /-- The quota is not negative, or there is no throttle any more. -/
  | goOn (t : ι)
  /-- The loop is at its end, or an exception is thrown. -/
  | leave (t : ι)
  | tick (LastTime : UInt64)
  /-- `SetThrottle` with two rates. -/
  | setThrottle (iThrottleRate : Dir → Int32)

section Steps

variable {ι : Type*} [DecidableEq ι]

namespace Quotas

/-- `SetThrottle` for a host that had no entry. -/
def throttled (iThrottleRate : Dir → Int32) : Quotas ι where
  info d := .ofRate (iThrottleRate d)
  granted d := (iThrottleRate d).toInt.toNat

def setPhase (s : Quotas ι) (t : ι) (p : Phase) : Quotas ι :=
  { s with phase := Function.update s.phase t p }

/-- Bytes are moved. -/
def move (s : Quotas ι) (d : Dir) (dwBytes : ℕ) : Quotas ι :=
  { s with
    moved := Function.update s.moved d (s.moved d + dwBytes)
    largest := Function.update s.largest d (max (s.largest d) dwBytes) }

/-- Bytes are taken off. -/
def takeOff (s : Quotas ι) (d : Dir) (dwBytes : ℕ) : Quotas ι :=
  if (s.info d).iBytesSec ≠ 0 then
    { s with
      info := Function.update s.info d { s.info d with
        iBytesCurInterval := (s.info d).iBytesCurInterval - Int32.ofNat dwBytes }
      deducted := Function.update s.deducted d (s.deducted d + dwBytes) }
  else s

/-- The quotas are changed; what they are raised by is granted. -/
def setInfo (s : Quotas ι) (info : Dir → ThrottleInfo) : Quotas ι :=
  { s with
    info := info
    granted := fun d => s.granted d +
      ((info d).iBytesCurInterval.toInt - (s.info d).iBytesCurInterval.toInt).toNat }

/-- One step. -/
def step (s : Quotas ι) : Move ι → Option (Quotas ι)
  | .start t m => if s.phase t = .idle then some (s.setPhase t (.ready m)) else none
  | .write t n dwBytesWritten =>
      match s.phase t with
      | .ready .receive => none
      | .ready m =>
          match dwBytesWritten with
          | some w => some ((s.move m.dir n).setPhase t (.moved m w))
          | none => some ((s.move m.dir n).setPhase t .idle)
      | _ => none
  | .writeNothing t =>
      match s.phase t with
      | .ready (.stream bS3AuthV4) => some (s.setPhase t (.moved (.stream bS3AuthV4) 0))
      | _ => none
  | .read t n =>
      match s.phase t with
      | .ready .receive => some ((s.move .download n).setPhase t (.moved .receive n))
      | _ => none
  | .lastEntry t =>
      match s.phase t with
      | .moved (.stream bS3AuthV4) _ =>
          some (s.setPhase t (if bS3AuthV4 then .last else .idle))
      | _ => none
  | .writeLast t n dwBytesWritten =>
      if s.phase t = .last then
        some ((s.move .upload n).setPhase t (if dwBytesWritten.isSome then .last else .idle))
      else none
  | .deduct t =>
      match s.phase t with
      | .moved m n => some ((s.takeOff m.dir n).setPhase t (.waiting m))
      | _ => none
  | .goOn t =>
      match s.phase t with
      | .waiting m =>
          if (s.info m.dir).iBytesSec = 0 ∨ 0 ≤ (s.info m.dir).iBytesCurInterval then
            some (s.setPhase t (.ready m))
          else none
      | _ => none
  | .leave t =>
      match s.phase t with
      | .ready _ => some (s.setPhase t .idle)
      | .last => some (s.setPhase t .idle)
      | .waiting _ => some (s.setPhase t .idle)
      | _ => none
  | .tick LastTime => some (s.setInfo fun d => refill (s.info d) LastTime)
  | .setThrottle iThrottleRate =>
      if iThrottleRate .upload ≠ 0 ∧ iThrottleRate .download ≠ 0 then
        some (s.setInfo fun d => .ofRate (iThrottleRate d))
      else none

end Quotas

/-- A host whose rates stay nonzero. -/
def quotas (ι : Type*) [DecidableEq ι] : StepSystem (Quotas ι) (Move ι) where
  init s := ∃ iThrottleRate : Dir → Int32, (∀ d, 0 < (iThrottleRate d).toInt) ∧
    s = .throttled iThrottleRate
  step := Quotas.step

end Steps

/-- What the bound asks of a step: a write writes all it was given; no bytes of a stream are left at its
last entry, and nothing is written after it; nobody leaves while the quota is negative; and the integers
do for what is done to the quota. -/
def Counted {ι : Type*} (s : Quotas ι) : Move ι → Prop
  | .write _ n dwBytesWritten => dwBytesWritten = some n
  | .lastEntry t => s.phase t = .moved (.stream false) 0
  | .deduct t => ∀ m n, s.phase t = .moved m n →
      n < 2147483648 ∧ -2147483648 ≤ (s.info m.dir).iBytesCurInterval.toInt - n
  | .leave t => ∀ m, s.phase t = .waiting m → 0 ≤ (s.info m.dir).iBytesCurInterval.toInt
  | .tick LastTime => ∀ d, 0 ≤ (grant (s.info d).iBytesSec LastTime).toInt ∧
      (s.info d).iBytesCurInterval.toInt + (grant (s.info d).iBytesSec LastTime).toInt < 2147483648
  | .setThrottle iThrottleRate => ∀ d, 0 < (iThrottleRate d).toInt
  | _ => True

section Moves

variable {ι : Type*} {s : Quotas ι} {t : ι} {p : Phase} {d : Dir} {m : Mode} {n : ℕ}

/-- `iBytesCurInterval`. -/
def Quotas.quota (s : Quotas ι) (d : Dir) : ℤ := (s.info d).iBytesCurInterval.toInt

/-- A rate that throttles is not zero. -/
theorem iBytesSec_ne (hrate : 0 < (s.info d).iBytesSec.toInt) : (s.info d).iBytesSec ≠ 0 := by
  intro hzero
  rw [hzero] at hrate
  exact absurd hrate (by decide)

/-- What is taken off fits an `int`. -/
theorem quota_takeOff (hrate : 0 < (s.info m.dir).iBytesSec.toInt)
    (hfits : n < 2147483648 ∧ -2147483648 ≤ (s.info m.dir).iBytesCurInterval.toInt - n) (d : Dir) :
    (s.takeOff m.dir n).quota d = s.quota d - (if m.dir = d then n else 0 : ℕ) := by
  unfold Quotas.takeOff Quotas.quota
  rw [if_pos (iBytesSec_ne hrate)]
  dsimp only
  rcases eq_or_ne d m.dir with rfl | hne
  · rw [Function.update_self, if_pos rfl]
    dsimp only
    have hrange := toInt_range (s.info m.dir).iBytesCurInterval
    rw [Int32.toInt_sub, Int32.toInt_ofNat_of_lt (by omega), Int.bmod_def]
    omega
  · rw [Function.update_of_ne hne, if_neg hne.symm]
    simp

/-- What is taken off is counted for its direction. -/
theorem deducted_takeOff (hrate : 0 < (s.info m.dir).iBytesSec.toInt) (d : Dir) :
    (s.takeOff m.dir n).deducted d = s.deducted d + if m.dir = d then n else 0 := by
  unfold Quotas.takeOff
  rw [if_pos (iBytesSec_ne hrate)]
  dsimp only
  rcases eq_or_ne d m.dir with rfl | hne
  · rw [Function.update_self, if_pos rfl]
  · rw [Function.update_of_ne hne, if_neg hne.symm]
    rfl

/-- Nothing else is changed. -/
theorem takeOff_rest (s : Quotas ι) (d : Dir) (n : ℕ) :
    (s.takeOff d n).phase = s.phase ∧ (s.takeOff d n).moved = s.moved ∧
    (s.takeOff d n).granted = s.granted ∧ (s.takeOff d n).largest = s.largest ∧
    ∀ e, ((s.takeOff d n).info e).iBytesSec = (s.info e).iBytesSec := by
  unfold Quotas.takeOff
  split_ifs with hrate
  · refine ⟨rfl, rfl, rfl, rfl, fun e => ?_⟩
    dsimp only
    rcases eq_or_ne e d with rfl | hne
    · rw [Function.update_self]
    · rw [Function.update_of_ne hne]
  · exact ⟨rfl, rfl, rfl, rfl, fun e => rfl⟩

/-- A thread that waits is busy until the quota is not negative. -/
theorem busy_waiting (hquota : 0 ≤ s.quota m.dir) (p : Phase) (d : Dir) :
    (Phase.waiting m).busy d ≤ p.busy d ∨ 0 ≤ s.quota d := by
  rcases eq_or_ne m.dir d with rfl | hne
  · exact .inr hquota
  · refine .inl ?_
    show (if m.dir = d then 1 else 0) ≤ _
    rw [if_neg hne]
    exact Nat.zero_le _

variable [DecidableEq ι]

/-- A thread is in the phase that it is set to. -/
theorem setPhase_self (s : Quotas ι) (t : ι) (p : Phase) : (s.setPhase t p).phase t = p :=
  Function.update_self ..

/-- Where a thread is set to a phase, the others are in theirs. -/
theorem setPhase_of_ne (s : Quotas ι) {u : ι} (hne : u ≠ t) (p : Phase) :
    (s.setPhase t p).phase u = s.phase u :=
  Function.update_of_ne hne ..

/-- What is true of all phases and of the new one is true of all then. -/
theorem forall_setPhase {P : Phase → Prop} (h : ∀ u, P (s.phase u)) (ht : P p) (u : ι) :
    P ((s.setPhase t p).phase u) := by
  rcases eq_or_ne u t with rfl | hne
  · exact (setPhase_self s u p).symm ▸ ht
  · exact (setPhase_of_ne s hne p).symm ▸ h u

end Moves

section Balance

variable {ι : Type*} [Fintype ι] {s s' : Quotas ι} {t : ι} {p : Phase} {d : Dir} {m : Mode} {n : ℕ}

namespace Quotas

/-- The bytes that are to be taken off. -/
def pending (s : Quotas ι) (d : Dir) : ℕ := ∑ t, (s.phase t).pending d

/-- The threads that have not seen the quota since they moved bytes. -/
def busy (s : Quotas ι) (d : Dir) : ℕ := ∑ t, (s.phase t).busy d

end Quotas

/-- **The invariant.**  Both rates throttle, and no thread has left a stream at its last entry.  What was moved was
taken off, or is with the threads that have moved it; the quota and what was taken off are no more than what was
granted; and what is with a thread is one write or read. -/
structure Balanced (s : Quotas ι) : Prop where
  rate : ∀ d, 0 < (s.info d).iBytesSec.toInt
  noLast : ∀ t, s.phase t ≠ .last
  moved : ∀ d, s.moved d = s.deducted d + s.pending d
  granted : ∀ d, s.quota d + s.deducted d ≤ s.granted d
  small : ∀ t d, (s.phase t).pending d ≤ s.largest d * (s.phase t).busy d
  /-- What is to be taken off, and the debt, are a write or read of each busy thread. -/
  bound : ∀ d, (s.pending d : ℤ) ≤ s.quota d + (s.largest d * s.busy d : ℕ)

/-- Each thread has one write or read at most to be taken off. -/
theorem pending_le (h : ∀ t, (s.phase t).pending d ≤ s.largest d * (s.phase t).busy d) :
    s.pending d ≤ s.largest d * s.busy d := by
  unfold Quotas.pending Quotas.busy
  rw [Finset.mul_sum]
  exact Finset.sum_le_sum fun t _ => h t

/-- No more threads are busy than there are. -/
theorem busy_le (s : Quotas ι) (d : Dir) : s.busy d ≤ Fintype.card ι := by
  have hone : ∀ t ∈ Finset.univ, (s.phase t).busy d ≤ 1 := by
    intro t _
    cases s.phase t <;> simp only [Phase.busy] <;> try split_ifs
    all_goals omega
  exact (Finset.sum_le_card_nsmul _ _ 1 hone).trans (by simp)

/-- The quotas are changed, and none becomes a greater debt. -/
theorem Balanced.setInfo (h : Balanced s) {info : Dir → ThrottleInfo}
    (hrate : ∀ d, 0 < (info d).iBytesSec.toInt)
    (hquota : ∀ d, s.quota d ≤ (info d).iBytesCurInterval.toInt ∨
      0 ≤ (info d).iBytesCurInterval.toInt) : Balanced (s.setInfo info) := by
  refine ⟨hrate, h.noLast, h.moved, fun d => ?_, h.small, fun d => ?_⟩
  · have hold := h.granted d
    have hraised : (info d).iBytesCurInterval.toInt - s.quota d ≤
        (((info d).iBytesCurInterval.toInt - s.quota d).toNat : ℤ) := Int.self_le_toNat _
    show (info d).iBytesCurInterval.toInt + (s.deducted d : ℤ) ≤
      ((s.granted d + ((info d).iBytesCurInterval.toInt - s.quota d).toNat : ℕ) : ℤ)
    push_cast
    omega
  · show (s.pending d : ℤ) ≤ (info d).iBytesCurInterval.toInt + (s.largest d * s.busy d : ℕ)
    have hold := h.bound d
    have hpending := pending_le (d := d) fun t => h.small t d
    rcases hquota d with hle | hle <;> omega

/-- **A tick.** What the tick grants is added to the quota, without a wrap. -/
theorem Balanced.tick (h : Balanced s) {LastTime : UInt64}
    (hfits : ∀ d, 0 ≤ (grant (s.info d).iBytesSec LastTime).toInt ∧
      (s.info d).iBytesCurInterval.toInt + (grant (s.info d).iBytesSec LastTime).toInt <
        2147483648) :
    Balanced (s.setInfo fun d => refill (s.info d) LastTime) := by
  refine h.setInfo (fun d => ?_) fun d => ?_
  · have hrate := h.rate d
    rw [refill, if_pos (iBytesSec_ne hrate)]
    exact hrate
  · have hnew := toInt_refill LastTime (h.rate d)
    have hrange := toInt_range (s.info d).iBytesCurInterval
    obtain ⟨hgrant, hsum⟩ := hfits d
    rw [hnew]
    unfold Quotas.quota
    omega

/-- Nothing is moved at first. -/
theorem Balanced.throttled {iThrottleRate : Dir → Int32} (h : ∀ d, 0 < (iThrottleRate d).toInt) :
    Balanced (Quotas.throttled (ι := ι) iThrottleRate) := by
  have hpending : ∀ d, (Quotas.throttled (ι := ι) iThrottleRate).pending d = 0 := fun d =>
    Finset.sum_eq_zero fun t _ => rfl
  refine ⟨h, fun t hno => Phase.noConfusion hno, fun d => ?_, fun d => ?_,
    fun t d => Nat.zero_le _, fun d => ?_⟩
  · rw [hpending d]
    rfl
  · show (iThrottleRate d).toInt + ((0 : ℕ) : ℤ) ≤ ((iThrottleRate d).toInt.toNat : ℤ)
    have hrate := h d
    omega
  · rw [hpending d]
    show ((0 : ℕ) : ℤ) ≤ (iThrottleRate d).toInt + ((0 * _ : ℕ) : ℤ)
    have hrate := h d
    omega

variable [DecidableEq ι]

/-- A sum over the threads, where one goes on. -/
theorem sum_setPhase (s : Quotas ι) (t : ι) (p : Phase) (f : Phase → ℕ) :
    ∑ u, f ((s.setPhase t p).phase u) + f (s.phase t) = ∑ u, f (s.phase u) + f p := by
  have hnew := Finset.add_sum_erase Finset.univ (fun u => f ((s.setPhase t p).phase u))
    (Finset.mem_univ t)
  have hold := Finset.add_sum_erase Finset.univ (fun u => f (s.phase u)) (Finset.mem_univ t)
  have hrest : ∑ u ∈ Finset.univ.erase t, f ((s.setPhase t p).phase u) =
      ∑ u ∈ Finset.univ.erase t, f (s.phase u) := by
    refine Finset.sum_congr rfl fun u hu => ?_
    rw [setPhase_of_ne s (Finset.ne_of_mem_erase hu)]
  rw [setPhase_self] at hnew
  omega

/-- The bytes of a thread are in its phase, and go with it. -/
theorem pending_setPhase (s : Quotas ι) (t : ι) (p : Phase) (d : Dir) :
    (s.setPhase t p).pending d + (s.phase t).pending d = s.pending d + p.pending d :=
  sum_setPhase s t p fun p => p.pending d

/-- A thread is busy by its phase. -/
theorem busy_setPhase (s : Quotas ι) (t : ι) (p : Phase) (d : Dir) :
    (s.setPhase t p).busy d + (s.phase t).busy d = s.busy d + p.busy d :=
  sum_setPhase s t p fun p => p.busy d

/-- **A thread goes on**, and what it has to take off is the same; where it is not busy any more, the
quota is not negative. -/
theorem Balanced.setPhase (h : Balanced s) (hlast : p ≠ .last)
    (hpending : ∀ d, p.pending d = (s.phase t).pending d)
    (hsmall : ∀ d, p.pending d ≤ s.largest d * p.busy d)
    (hbusy : ∀ d, (s.phase t).busy d ≤ p.busy d ∨ 0 ≤ s.quota d) : Balanced (s.setPhase t p) := by
  have hsame : ∀ d, (s.setPhase t p).pending d = s.pending d := fun d => by
    have := pending_setPhase s t p d
    rw [hpending d] at this
    omega
  have hsmall' : ∀ u d, ((s.setPhase t p).phase u).pending d ≤
      s.largest d * ((s.setPhase t p).phase u).busy d := fun u d =>
    forall_setPhase (P := fun p => p.pending d ≤ s.largest d * p.busy d) (fun u => h.small u d)
      (hsmall d) u
  refine ⟨h.rate, forall_setPhase (P := fun p => p ≠ .last) h.noLast hlast, fun d => ?_, h.granted,
    hsmall', fun d => ?_⟩
  · rw [hsame d]
    exact h.moved d
  · rcases hbusy d with hle | hle
    · have hsum := busy_setPhase s t p d
      have hmul : s.largest d * s.busy d ≤ s.largest d * (s.setPhase t p).busy d :=
        Nat.mul_le_mul_left _ (by omega)
      have hold := h.bound d
      rw [hsame d]
      show (s.pending d : ℤ) ≤ s.quota d + (s.largest d * (s.setPhase t p).busy d : ℕ)
      omega
    · have hle' : (s.setPhase t p).pending d ≤ s.largest d * (s.setPhase t p).busy d :=
        pending_le (s := s.setPhase t p) fun u => hsmall' u d
      show ((s.setPhase t p).pending d : ℤ) ≤
        s.quota d + (s.largest d * (s.setPhase t p).busy d : ℕ)
      omega

/-- **A write or a read.** The bytes are counted as moved, and as those that the thread has still to
take off. -/
theorem Balanced.move (h : Balanced s) (hready : s.phase t = .ready m) (n : ℕ) :
    Balanced ((s.move m.dir n).setPhase t (.moved m n)) := by
  have hlargest : ∀ d, s.largest d ≤ (s.move m.dir n).largest d := by
    intro d
    show s.largest d ≤ Function.update s.largest m.dir (max (s.largest m.dir) n) d
    rcases eq_or_ne d m.dir with rfl | hne
    · rw [Function.update_self]
      exact Nat.le_max_left _ _
    · rw [Function.update_of_ne hne]
  have hn : n ≤ (s.move m.dir n).largest m.dir := by
    show n ≤ Function.update s.largest m.dir (max (s.largest m.dir) n) m.dir
    rw [Function.update_self]
    exact Nat.le_max_right _ _
  have hpending : ∀ d, ((s.move m.dir n).setPhase t (.moved m n)).pending d =
      s.pending d + if m.dir = d then n else 0 := by
    intro d
    have := pending_setPhase (s.move m.dir n) t (.moved m n) d
    rw [show (s.move m.dir n).phase t = .ready m from hready] at this
    exact this
  have hbusy : ∀ d, ((s.move m.dir n).setPhase t (.moved m n)).busy d =
      s.busy d + if m.dir = d ∧ n ≠ 0 then 1 else 0 := by
    intro d
    have := busy_setPhase (s.move m.dir n) t (.moved m n) d
    rw [show (s.move m.dir n).phase t = .ready m from hready] at this
    exact this
  have hsmall : ∀ u d, (s.phase u).pending d ≤ (s.move m.dir n).largest d * (s.phase u).busy d :=
    fun u d => (h.small u d).trans (Nat.mul_le_mul_right _ (hlargest d))
  have hturn : ∀ d, (if m.dir = d then n else 0) ≤
      (s.move m.dir n).largest d * if m.dir = d ∧ n ≠ 0 then 1 else 0 := by
    intro d
    split_ifs with hd hdn hdn
    · rw [Nat.mul_one]
      exact hd ▸ hn
    · have hzero : n = 0 := by
        by_contra hne
        exact hdn ⟨hd, hne⟩
      omega
    · exact Nat.zero_le _
    · exact Nat.zero_le _
  refine ⟨h.rate, ?_, fun d => ?_, h.granted, fun u d => ?_, fun d => ?_⟩
  · exact forall_setPhase (P := fun p => p ≠ .last) (s := s.move m.dir n) h.noLast
      (fun hno => Phase.noConfusion hno)
  · rw [hpending d]
    show Function.update s.moved m.dir (s.moved m.dir + n) d = s.deducted d + _
    have hmoved := h.moved d
    rcases eq_or_ne d m.dir with rfl | hne
    · rw [Function.update_self, if_pos rfl]
      omega
    · rw [Function.update_of_ne hne, if_neg hne.symm]
      omega
  · exact forall_setPhase (s := s.move m.dir n) (p := .moved m n)
      (P := fun p => p.pending d ≤ (s.move m.dir n).largest d * p.busy d) (fun u => hsmall u d)
      (hturn d) u
  · rw [hpending d, hbusy d]
    show ((s.pending d + _ : ℕ) : ℤ) ≤ s.quota d + ((s.move m.dir n).largest d * (s.busy d + _) : ℕ)
    have hold := h.bound d
    have hmul : s.largest d * s.busy d ≤ (s.move m.dir n).largest d * s.busy d :=
      Nat.mul_le_mul_right _ (hlargest d)
    have hthis := hturn d
    rw [Nat.mul_add]
    omega

/-- **The bytes of a turn are taken off.** They are taken off without a wrap, and the thread waits
with none left. -/
theorem Balanced.deduct (h : Balanced s) (hmoved : s.phase t = .moved m n)
    (hfits : n < 2147483648 ∧ -2147483648 ≤ (s.info m.dir).iBytesCurInterval.toInt - n) :
    Balanced ((s.takeOff m.dir n).setPhase t (.waiting m)) := by
  obtain ⟨hphase, hbytes, hgranted, hlargest, hsec⟩ := takeOff_rest s m.dir n
  have hquota := quota_takeOff (h.rate m.dir) hfits
  have hdeducted := deducted_takeOff (n := n) (h.rate m.dir)
  have hpending : ∀ d, ((s.takeOff m.dir n).setPhase t (.waiting m)).pending d +
      (if m.dir = d then n else 0) = s.pending d := by
    intro d
    have hsum := pending_setPhase (s.takeOff m.dir n) t (.waiting m) d
    unfold Quotas.pending at hsum ⊢
    rw [hphase, hmoved] at hsum
    exact hsum
  have hbusy : ∀ d, s.busy d ≤ ((s.takeOff m.dir n).setPhase t (.waiting m)).busy d := by
    intro d
    have hsum := busy_setPhase (s.takeOff m.dir n) t (.waiting m) d
    unfold Quotas.busy at hsum ⊢
    rw [hphase, hmoved] at hsum
    have hle : (Phase.moved m n).busy d ≤ (Phase.waiting m).busy d := by
      simp only [Phase.busy]
      split_ifs with hturn hd hd
      · exact Nat.le_refl _
      · exact absurd hturn.1 hd
      · exact Nat.zero_le _
      · exact Nat.le_refl _
    omega
  refine ⟨fun d => ?_, ?_, fun d => ?_, fun d => ?_, fun u d => ?_, fun d => ?_⟩
  · show 0 < ((s.takeOff m.dir n).info d).iBytesSec.toInt
    rw [hsec d]
    exact h.rate d
  · exact forall_setPhase (P := fun p => p ≠ .last) (s := s.takeOff m.dir n)
      (fun u => hphase.symm ▸ h.noLast u) (fun hno => Phase.noConfusion hno)
  · show (s.takeOff m.dir n).moved d = (s.takeOff m.dir n).deducted d + _
    have hold := h.moved d
    have hthis := hpending d
    rw [hbytes, hdeducted d]
    omega
  · show (s.takeOff m.dir n).quota d + ((s.takeOff m.dir n).deducted d : ℤ) ≤
      ((s.takeOff m.dir n).granted d : ℤ)
    have hold := h.granted d
    rw [hquota d, hdeducted d, hgranted]
    push_cast
    omega
  · exact forall_setPhase (s := s.takeOff m.dir n) (p := .waiting m)
      (P := fun p => p.pending d ≤ (s.takeOff m.dir n).largest d * p.busy d)
      (fun u => hphase.symm ▸ hlargest.symm ▸ h.small u d) (Nat.zero_le _) u
  · show (_ : ℤ) ≤ (s.takeOff m.dir n).quota d + ((s.takeOff m.dir n).largest d * _ : ℕ)
    have hold := h.bound d
    have hthis := hpending d
    have hmul : s.largest d * s.busy d ≤
        s.largest d * ((s.takeOff m.dir n).setPhase t (.waiting m)).busy d :=
      Nat.mul_le_mul_left _ (hbusy d)
    rw [hquota d, hlargest]
    omega

/-- A thread that is not to take anything off goes on. -/
theorem Balanced.goOn (h : Balanced s) (hlast : p ≠ .last)
    (hnone : ∀ d, p.pending d = 0 ∧ (s.phase t).pending d = 0)
    (hbusy : ∀ d, (s.phase t).busy d ≤ p.busy d ∨ 0 ≤ s.quota d) : Balanced (s.setPhase t p) :=
  h.setPhase hlast (fun d => (hnone d).1.trans (hnone d).2.symm)
    (fun d => (hnone d).1.symm ▸ Nat.zero_le _) hbusy

/-- **Every step keeps the balance**, where the bytes are counted. All other steps change neither
the quota nor what was moved. -/
theorem Balanced.step {a : Move ι} (h : Balanced s) (hC : Counted s a) (hs : s.step a = some s') :
    Balanced s' := by
  cases a with
  | start t m =>
      obtain ⟨hidle, rfl⟩ := Option.ite_none_right_eq_some.1 hs |>.imp_right Option.some.inj
      refine h.goOn (fun hno => Phase.noConfusion hno) (fun d => ?_) fun d => .inl ?_
      · exact ⟨rfl, by rw [hidle]; rfl⟩
      · rw [hidle]
        exact Nat.zero_le _
  | write t n dwBytesWritten =>
      obtain rfl : dwBytesWritten = some n := hC
      simp only [Quotas.step] at hs
      split at hs
      · exact absurd hs (by simp)
      · next m hm hready =>
        obtain rfl := Option.some.inj hs
        exact h.move hready n
      · exact absurd hs (by simp)
  | writeNothing t =>
      simp only [Quotas.step] at hs
      split at hs
      · next bS3AuthV4 hready =>
        obtain rfl := Option.some.inj hs
        refine h.goOn (fun hno => Phase.noConfusion hno) (fun d => ⟨?_, ?_⟩) fun d => .inl ?_
        · exact ite_self 0
        · rw [hready]
          rfl
        · rw [hready]
          exact Nat.zero_le _
      · exact absurd hs (by simp)
  | read t n =>
      simp only [Quotas.step] at hs
      split at hs
      · next hready =>
        obtain rfl := Option.some.inj hs
        exact h.move hready n
      · exact absurd hs (by simp)
  | lastEntry t =>
      have hmoved : s.phase t = .moved (.stream false) 0 := hC
      simp only [Quotas.step, hmoved] at hs
      obtain rfl := Option.some.inj hs
      refine h.goOn (fun hno => Phase.noConfusion hno) (fun d => ⟨rfl, ?_⟩) fun d => .inl ?_
      · rw [hmoved]
        exact ite_self 0
      · rw [hmoved]
        simp [Phase.busy]
  | writeLast t n dwBytesWritten =>
      exact absurd (Option.ite_none_right_eq_some.1 hs).1 (h.noLast t)
  | deduct t =>
      simp only [Quotas.step] at hs
      split at hs
      · next m n hmoved =>
        obtain rfl := Option.some.inj hs
        exact h.deduct hmoved (hC m n hmoved)
      · exact absurd hs (by simp)
  | goOn t =>
      simp only [Quotas.step] at hs
      split at hs
      · next m hwaiting =>
        obtain ⟨hquota, rfl⟩ := Option.ite_none_right_eq_some.1 hs |>.imp_right Option.some.inj
        have hnonneg : 0 ≤ s.quota m.dir :=
          Int32.le_iff_toInt_le.1 (hquota.resolve_left (iBytesSec_ne (h.rate m.dir)))
        refine h.goOn (fun hno => Phase.noConfusion hno) (fun d => ⟨rfl, ?_⟩) ?_
        · rw [hwaiting]
          rfl
        · rw [hwaiting]
          exact busy_waiting hnonneg _
      · exact absurd hs (by simp)
  | leave t =>
      simp only [Quotas.step] at hs
      split at hs
      · next m hready =>
        obtain rfl := Option.some.inj hs
        refine h.goOn (fun hno => Phase.noConfusion hno) (fun d => ⟨rfl, ?_⟩) fun d => .inl ?_
        · rw [hready]
          rfl
        · rw [hready]
          exact Nat.zero_le _
      · next hlast => exact absurd hlast (h.noLast t)
      · next m hwaiting =>
        obtain rfl := Option.some.inj hs
        refine h.goOn (fun hno => Phase.noConfusion hno) (fun d => ⟨rfl, ?_⟩) ?_
        · rw [hwaiting]
          rfl
        · rw [hwaiting]
          exact busy_waiting (hC m hwaiting) _
      · exact absurd hs (by simp)
  | tick LastTime =>
      obtain rfl := Option.some.inj hs
      exact h.tick hC
  | setThrottle iThrottleRate =>
      obtain ⟨-, rfl⟩ := Option.ite_none_right_eq_some.1 hs |>.imp_right Option.some.inj
      exact h.setInfo (fun d => hC d) fun d => .inr (Int.le_of_lt (hC d))

end Balance

/-- **The bytes that are moved** are taken off once each, but for those of the turns that are not done,
and are never more than what was granted and the largest write or read for each thread, in the runs
where the bytes are counted. -/
theorem quota_bound {ι : Type*} [DecidableEq ι] [Fintype ι] {s : Quotas ι}
    (h : (quotas ι).ReachableBy Counted s) (d : Dir) :
    s.moved d = s.deducted d + ∑ t, (s.phase t).pending d ∧
      s.moved d ≤ s.granted d + Fintype.card ι * s.largest d := by
  have hbalanced : Balanced s := by
    refine h.invariant ?_ fun _ _ _ hI hC hs => hI.step hC hs
    rintro _ ⟨iThrottleRate, hrate, rfl⟩
    exact .throttled hrate
  refine ⟨hbalanced.moved d, ?_⟩
  have hmoved := hbalanced.moved d
  have hgranted := hbalanced.granted d
  have hbound := hbalanced.bound d
  have hcard : s.largest d * s.busy d ≤ s.largest d * Fintype.card ι :=
    Nat.mul_le_mul_left _ (busy_le s d)
  rw [Nat.mul_comm]
  omega

/-- The rates of a host are 4 bytes a second. -/
def fourBytes : Dir → Int32 := fun _ => 4

/-- Four bytes a second are a rate that throttles. -/
theorem fourBytes_pos (d : Dir) : 0 < (fourBytes d).toInt := show 0 < (4 : Int32).toInt by decide

/-- A stream of six bytes is sent in one write, which is then waited for. -/
theorem quota_bound_stream : ∃ s : Quotas Unit, (quotas Unit).ReachableBy Counted s ∧
    s.phase () = .idle ∧ s.moved .upload = 6 ∧
    s.moved .upload = s.deducted .upload + ∑ t, (s.phase t).pending .upload ∧
      s.moved .upload ≤ s.granted .upload + Fintype.card Unit * s.largest .upload := by
  have hinit : (quotas Unit).ReachableBy Counted (.throttled fourBytes) :=
    .init ⟨fourBytes, fourBytes_pos, rfl⟩
  have hstart := hinit.step (a := Move.start () (.stream false)) trivial rfl
  have hwrite := hstart.step (a := Move.write () 6 (some 6)) rfl rfl
  have hdeduct := hwrite.step (a := Move.deduct ()) (by rintro m n ⟨⟩; decide) rfl
  have htick := hdeduct.step (a := Move.tick 10000000) (by rintro ⟨⟩ <;> decide) rfl
  have hgoOn := htick.step (a := Move.goOn ()) trivial rfl
  have hnothing := hgoOn.step (a := Move.writeNothing ()) trivial rfl
  have hlast := hnothing.step (a := Move.lastEntry ()) rfl rfl
  exact ⟨_, hlast, rfl, rfl, quota_bound hlast .upload⟩

/-- Three streams of one entry are sent, one after the other. -/
def threeStreams : List (Move Unit) :=
  [.start () (.stream false), .write () 5 (some 5), .lastEntry (),
    .start () (.stream false), .write () 5 (some 5), .lastEntry (),
    .start () (.stream false), .write () 5 (some 5), .lastEntry ()]

/-- **The bytes of the last entries are not taken off**, and the bound is passed. -/
theorem quota_passed : ∃ s : Quotas Unit, (quotas Unit).Reachable s ∧
    (∀ t, s.phase t = .idle) ∧ s.deducted .upload < s.moved .upload ∧
    s.granted .upload + Fintype.card Unit * s.largest .upload < s.moved .upload := by
  have hinit : (quotas Unit).Reachable (.throttled fourBytes) := .init ⟨fourBytes, fourBytes_pos, rfl⟩
  exact ⟨_, hinit.run threeStreams rfl, fun _ => rfl, by decide, by decide⟩

end Throttle
end ECSUtil

/-
# The quota that a tick grants

`CThrottleTimerThread::DoWork` and `InitInstance` (`ECSUtil/ECSConnection.cpp`), with `THROTTLE_INFO`
and `THROTTLE_REC` (`ECSUtil/ECSConnection.h`), on the integers of the code: a rate and a quota are an
`int`, a difference of times is an unsigned integer of 64 bits, and a sum that does not fit wraps
around.

A tick does what it is to do as long as the clock is not set back and the grant, and the quota
with it, fit an `int`: `refill_exact`.

The conversions between the signed and the unsigned integers are those of the source, one after the
other, and each has its value as a number; what the tick is to grant is said in numbers.
-/

import Mathlib.Data.Int.Notation
import Mathlib.Data.List.Forall2
import ECSUtil.Conn.Text

namespace ECSUtil
namespace Throttle

/-- `THROTTLE_INFO`. -/
structure ThrottleInfo where
  iBytesSec : Int32 := 0
  iBytesCurInterval : Int32 := 0
  deriving DecidableEq, Repr

/-- `THROTTLE_REC`. -/
structure ThrottleRec where
  Upload : ThrottleInfo := {}
  Download : ThrottleInfo := {}
  deriving DecidableEq, Repr

/-- `CThrottleTimerThread`, with the records that it refills. -/
structure TimerThread where
  ftLast : UInt64 := 0
  ThrottleMap : List (CString × ThrottleRec) := []
  deriving DecidableEq, Repr

/-- `FT_SECONDS(1)`. -/
def FT_SECOND : UInt64 := 10000000

/-- `LastTime`: the time since the tick before. -/
def lastTime (ftLast ftNow : UInt64) : UInt64 := if ftLast = 0 then FT_SECOND else ftNow - ftLast

/-- What a rate grants for a time. -/
def grant (iBytesSec : Int32) (LastTime : UInt64) : Int32 :=
  (iBytesSec.toInt64.toUInt64 * LastTime / FT_SECOND).toUInt32.toInt32

/-- One direction of one host. -/
def refill (info : ThrottleInfo) (LastTime : UInt64) : ThrottleInfo :=
  if info.iBytesSec ≠ 0 then
    let iBytesSec := grant info.iBytesSec LastTime
    let iBytesCurInterval := info.iBytesCurInterval + iBytesSec
    { info with
      iBytesCurInterval := if iBytesCurInterval > iBytesSec then iBytesSec else iBytesCurInterval }
  else { info with iBytesCurInterval := 0 }

namespace TimerThread

/-- `DoWork` after a timeout. -/
def doWork (t : TimerThread) (ftNow : UInt64) : TimerThread :=
  let LastTime := lastTime t.ftLast ftNow
  { ftLast := ftNow
    ThrottleMap := t.ThrottleMap.map fun e =>
      (e.1, { Upload := refill e.2.Upload LastTime, Download := refill e.2.Download LastTime }) }

/-- What happens in the course of time. -/
inductive Event
  /-- The thread is started: `InitInstance`. -/
  | start
  | tick (ftNow : UInt64)
  /-- Senders use their quotas up, and rates are set. -/
  | change (ThrottleMap : List (CString × ThrottleRec))

def after (t : TimerThread) : Event → TimerThread
  | .start => { t with ftLast := 0 }
  | .tick ftNow => t.doWork ftNow
  | .change ThrottleMap => { t with ThrottleMap := ThrottleMap }

/-- The ticks, each with the state that it finds and the clock reading. -/
def ticks : TimerThread → List Event → List (TimerThread × UInt64)
  | _, [] => []
  | t, .tick ftNow :: events => (t, ftNow) :: ticks (t.after (.tick ftNow)) events
  | t, e :: events => ticks (t.after e) events

/-- The time since the tick before, which is a second for the first one. -/
def elapsed (t : TimerThread) (ftNow : UInt64) : ℤ :=
  if t.ftLast = 0 then 10000000 else ftNow.toNat - t.ftLast.toNat

end TimerThread

/-- What is to be granted for a time. -/
def due (info : ThrottleInfo) (dt : ℤ) : ℤ := info.iBytesSec.toInt * dt / 10000000

/-- **The refill of a quota**: the grant and the new quota are what they are over the integers, no
debt grows, and there is none where there was none. -/
structure Refilled (dt : ℤ) (LastTime : UInt64) (info info' : ThrottleInfo) : Prop where
  grant : (Throttle.grant info.iBytesSec LastTime).toInt = due info dt
  quota : info'.iBytesCurInterval.toInt =
    min (info.iBytesCurInterval.toInt + due info dt) (due info dt)
  debt : info.iBytesCurInterval.toInt < 0 →
    info.iBytesCurInterval.toInt ≤ info'.iBytesCurInterval.toInt
  nonneg : 0 ≤ info.iBytesCurInterval.toInt → 0 ≤ info'.iBytesCurInterval.toInt

/-- The clock was not set back, and the grant and its sum with the quota are below 2 GB. -/
def Fits (dt : ℤ) (info : ThrottleInfo) : Prop :=
  0 ≤ dt ∧ due info dt < 2147483648 ∧ info.iBytesCurInterval.toInt + due info dt < 2147483648

namespace TimerThread

/-- A tick refills every quota that has a positive rate. -/
def Exact (t : TimerThread) (ftNow : UInt64) : Prop :=
  List.Forall₂ (fun e e' => e'.1 = e.1 ∧
      (0 < e.2.Upload.iBytesSec.toInt →
        Refilled (t.elapsed ftNow) (lastTime t.ftLast ftNow) e.2.Upload e'.2.Upload) ∧
      (0 < e.2.Download.iBytesSec.toInt →
        Refilled (t.elapsed ftNow) (lastTime t.ftLast ftNow) e.2.Download e'.2.Download))
    t.ThrottleMap (t.doWork ftNow).ThrottleMap

/-- Everything fits for every positive rate. -/
def Measured (t : TimerThread) (ftNow : UInt64) : Prop :=
  ∀ e ∈ t.ThrottleMap,
    (0 < e.2.Upload.iBytesSec.toInt → Fits (t.elapsed ftNow) e.2.Upload) ∧
    (0 < e.2.Download.iBytesSec.toInt → Fits (t.elapsed ftNow) e.2.Download)

end TimerThread

section

variable {info : ThrottleInfo} {LastTime : UInt64} {dt : ℤ}

/-- A positive rate is the same number as an unsigned one. -/
theorem toNat_toUInt64 {x : Int32} (h : 0 < x.toInt) :
    x.toInt64.toUInt64.toNat = x.toInt.toNat := by
  have hsame : x.toInt64.toUInt64.toBitVec = x.toInt64.toBitVec := rfl
  have hint := Int64.toInt_toBitVec x.toInt64
  have hlt := x.toInt64.toBitVec.isLt
  rw [BitVec.toInt_eq_toNat_bmod, Int32.toInt_toInt64, Int.bmod_def] at hint
  rw [← UInt64.toNat_toBitVec, hsame]
  omega

/-- An unsigned number that is cut to an `int` wraps around. -/
theorem toInt_narrow (u : UInt64) : u.toUInt32.toInt32.toInt =
    ((u.toNat : ℤ) + 2147483648) % 4294967296 - 2147483648 := by
  have hsame : u.toUInt32.toInt32.toBitVec = u.toUInt32.toBitVec := rfl
  rw [← Int32.toInt_toBitVec, hsame, BitVec.toInt_eq_toNat_bmod, UInt32.toNat_toBitVec,
    UInt64.toNat_toUInt32, Int.bmod_def]
  omega

/-- A sum of two `int`s wraps around. -/
theorem toInt_add (a b : Int32) :
    (a + b).toInt = (a.toInt + b.toInt + 2147483648) % 4294967296 - 2147483648 := by
  rw [Int32.toInt_add, Int.bmod_def]
  omega

/-- An `int` is in its range. -/
theorem toInt_range (a : Int32) : -2147483648 ≤ a.toInt ∧ a.toInt < 2147483648 :=
  ⟨a.le_toInt, a.toInt_lt⟩

/-- The quota after a tick, by what was granted. -/
theorem toInt_refill (LastTime : UInt64) (hrate : 0 < info.iBytesSec.toInt) :
    (refill info LastTime).iBytesCurInterval.toInt =
      min ((info.iBytesCurInterval.toInt + (grant info.iBytesSec LastTime).toInt + 2147483648) %
        4294967296 - 2147483648) (grant info.iBytesSec LastTime).toInt := by
  have hne : info.iBytesSec ≠ 0 := by
    intro h
    rw [h] at hrate
    exact absurd hrate (by decide)
  rw [refill, if_pos hne]
  dsimp only
  rw [← toInt_add]
  by_cases h : info.iBytesCurInterval + grant info.iBytesSec LastTime >
      grant info.iBytesSec LastTime
  · rw [if_pos h]
    exact (Int.min_eq_right (Int.le_of_lt (Int32.lt_iff_toInt_lt.1 h))).symm
  · rw [if_neg h]
    exact (Int.min_eq_left (Int.not_lt.1 (mt Int32.lt_iff_toInt_lt.2 h))).symm

/-- A grant that fits is computed exactly. -/
theorem toInt_grant (hrate : 0 < info.iBytesSec.toInt) (hdt : (LastTime.toNat : ℤ) = dt)
    (hfits : due info dt < 2147483648) :
    (grant info.iBytesSec LastTime).toInt = due info dt := by
  subst hdt
  obtain ⟨n, hn⟩ : ∃ n : ℕ, info.iBytesSec.toInt = n := ⟨_, (Int.toNat_of_nonneg (by omega)).symm⟩
  have hdue : due info LastTime.toNat = ((n * LastTime.toNat / 10000000 : ℕ) : ℤ) := by
    unfold due
    rw [hn, Int.natCast_ediv, Int.natCast_mul]
    rfl
  have hsecond : FT_SECOND.toNat = 10000000 := rfl
  rw [hdue] at hfits ⊢
  have hproduct : n * LastTime.toNat < 2 ^ 64 := by omega
  rw [grant, toInt_narrow, UInt64.toNat_div, UInt64.toNat_mul, toNat_toUInt64 hrate, hn,
    Int.toNat_natCast, Nat.mod_eq_of_lt hproduct, hsecond]
  omega

/-- **One quota is refilled as it should be** if and only if everything fits. The grant and its sum
with the quota are kept in an `int`, and the time in an unsigned number. -/
theorem refilled_iff (hrate : 0 < info.iBytesSec.toInt)
    (hdt : 0 ≤ dt → (LastTime.toNat : ℤ) = dt) :
    Refilled dt LastTime info (refill info LastTime) ↔ Fits dt info := by
  have hold := toInt_range info.iBytesCurInterval
  constructor
  · rintro ⟨hgrant, hquota, hdebt, hnonneg⟩
    have hrange := toInt_range (grant info.iBytesSec LastTime)
    have hnew := toInt_refill LastTime hrate
    rw [hgrant] at hrange hnew
    -- no debt grows, so the grant is not negative
    have hdue : 0 ≤ due info dt := by omega
    refine ⟨?_, hrange.2, by omega⟩
    by_contra hneg
    have hproduct : info.iBytesSec.toInt * dt < 0 := Int.mul_neg_of_pos_of_neg hrate (by omega)
    unfold due at hdue
    omega
  · rintro ⟨hpos, hfits, hsum⟩
    have hgrant := toInt_grant hrate (hdt hpos) hfits
    have hdue : 0 ≤ due info dt :=
      Int.ediv_nonneg (Int.mul_nonneg (Int.le_of_lt hrate) hpos) (by decide)
    have hquota : (refill info LastTime).iBytesCurInterval.toInt =
        min (info.iBytesCurInterval.toInt + due info dt) (due info dt) := by
      rw [toInt_refill LastTime hrate, hgrant]
      omega
    exact ⟨hgrant, hquota, by omega, by omega⟩

end

namespace TimerThread

variable {t : TimerThread} {ftNow : UInt64}

/-- The difference of the clock readings, where the clock was not set back. -/
theorem toNat_lastTime (h : 0 ≤ t.elapsed ftNow) :
    ((lastTime t.ftLast ftNow).toNat : ℤ) = t.elapsed ftNow := by
  unfold elapsed at h ⊢
  unfold lastTime
  split_ifs at h ⊢ with hfirst
  · rfl
  · rw [UInt64.toNat_sub_of_le _ _ (UInt64.le_iff_toNat_le.2 (by omega))]
    omega

/-- **A tick is exact** if and only if everything fits. A tick refills all of the quotas, each for
itself. -/
theorem exact_iff : t.Exact ftNow ↔ t.Measured ftNow := by
  unfold Exact Measured doWork
  rw [List.forall₂_map_right_iff, List.forall₂_same]
  refine forall₂_congr fun e he => ?_
  rw [and_iff_right rfl]
  exact and_congr (forall_congr' fun h => refilled_iff h toNat_lastTime)
    (forall_congr' fun h => refilled_iff h toNat_lastTime)

end TimerThread

/-- **Every tick of a run is exact** if and only if everything fits at every tick. The time between
two ticks is that of the events, so the condition is one on each tick. -/
theorem refill_exact (t : TimerThread) (events : List TimerThread.Event) :
    (∀ tick ∈ t.ticks events, tick.1.Exact tick.2) ↔
      ∀ tick ∈ t.ticks events, tick.1.Measured tick.2 :=
  forall₂_congr fun _ _ => TimerThread.exact_iff

/-- A thread that has ticked, and a host with a rate of 1 MB a second. -/
def ticked : TimerThread where
  ftLast := 132539328000000000
  ThrottleMap := [("h".toList, { Upload := { iBytesSec := 1048576 } })]

/-- The next tick comes after 2048 seconds, and leaves a debt of 2 GB. -/
theorem refill_long_gap :
    ¬∀ tick ∈ ticked.ticks [.tick (132539328000000000 + 2048 * FT_SECOND)],
      tick.1.Exact tick.2 := by
  intro h
  have hexact := h _ List.mem_cons_self
  rw [TimerThread.exact_iff] at hexact
  exact absurd ((hexact _ List.mem_cons_self).1 (by decide)).2.1 (by decide)

/-- One and a half seconds grant one and a half times the rate. -/
example : refill { iBytesSec := 1000, iBytesCurInterval := -200 } 15000000 =
    { iBytesSec := 1000, iBytesCurInterval := 1300 } := by
  decide

end Throttle
end ECSUtil

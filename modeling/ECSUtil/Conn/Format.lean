/-
# Numbers and times as texts

`FmtNum` (`ECSUtil/fmtnum.h`), `_ttoi`, `FileTimeToSystemTime` as Windows documents it, and
`FormatISO8601Date` (`ECSUtil/ECSConnection.cpp`) for times that are not local.

A number is read back (`ttoi_fmtNum`), and so is a time in whole milliseconds before the year 30828,
which is the last that Windows makes a `FILETIME` of (`parseISO8601Date_format`).

Windows counts days, which the model takes apart by the year and then by the month
(`yearOfDay_spec`, `monthOfDay_spec`).  A time before the end is so taken apart and put together
again, up to what is below a millisecond (`systemTime_of_lt`), and every time that is made is before
the end.
-/

import Mathlib.Algebra.Group.Int.Defs
import Mathlib.Algebra.Group.Nat.Defs
import ECSUtil.Conn.Time

namespace ECSUtil

/-- `FmtNum`, with zeros in front up to a width. -/
def fmtNum (width n : ℕ) : CString :=
  List.replicate (width - (Nat.toDigits 10 n).length) '0' ++ Nat.toDigits 10 n

/-- `_ttoi`, stored in a `DWORD`. -/
def ttoi (s : CString) : ℕ :=
  match scanNumber none s with
  | some (n, _) => (max (-2 ^ 31) (min n (2 ^ 31 - 1)) % 2 ^ 32).toNat
  | none => 0

/-- The days of a year. -/
def daysOfYear (y : ℕ) : ℕ := if isLeapYear y then 366 else 365

/-- The year of a day, counted from the start of a year, and the days of that year before it. -/
def yearOfDay : ℕ → ℕ → ℕ → ℕ × ℕ
  | 0, y, d => (y, d)
  | fuel + 1, y, d => if d < daysOfYear y then (y, d) else yearOfDay fuel (y + 1) (d - daysOfYear y)

/-- The month of a day, counted from the start of a month, and the days of that month before it. -/
def monthOfDay (y : ℕ) : ℕ → ℕ → ℕ → ℕ × ℕ
  | 0, m, d => (m, d)
  | fuel + 1, m, d =>
      if d < daysOfMonth y m then (m, d) else monthOfDay y fuel (m + 1) (d - daysOfMonth y m)

/-- The tenths of a microsecond of a day. -/
def ticksOfDay : ℕ := 24 * 60 * 60 * 1000 * 10000

/-- `FileTimeToSystemTime`, which refuses what has its highest bit set. -/
def fileTimeToSystemTime (ft : FileTime) : Option SystemTime :=
  if ft < 2 ^ 63 then
    let days := ft / ticksOfDay
    let (y, dayOfYear) := yearOfDay days 1601 days
    let (m, day) := monthOfDay y 11 1 dayOfYear
    some
      { wYear := y
        wMonth := m
        wDay := day + 1
        wHour := ft / (60 * 60 * 1000 * 10000) % 24
        wMinute := ft / (60 * 1000 * 10000) % 60
        wSecond := ft / (1000 * 10000) % 60
        wMilliseconds := ft / 10000 % 1000 }
  else none

/-- `FormatISO8601Date` of a `SYSTEMTIME`. -/
def formatSystemTime (stDate : SystemTime) (bMilliSec bBasicFormat : Bool) : CString :=
  let sDateSep := if bBasicFormat then [] else ['-']
  let sTimeSep := if bBasicFormat then [] else [':']
  fmtNum 4 stDate.wYear ++ sDateSep ++ fmtNum 2 stDate.wMonth ++ sDateSep ++
    fmtNum 2 stDate.wDay ++ ['T'] ++ fmtNum 2 stDate.wHour ++ sTimeSep ++
    fmtNum 2 stDate.wMinute ++ sTimeSep ++ fmtNum 2 stDate.wSecond ++
    (if bMilliSec then '.' :: fmtNum 3 stDate.wMilliseconds else []) ++ ['Z']

/-- `FormatISO8601Date` of a `FILETIME`. -/
def formatISO8601Date (ftDate : FileTime) (bMilliSec bBasicFormat : Bool) : CString :=
  match fileTimeToSystemTime ftDate with
  | some stDate => formatSystemTime stDate bMilliSec bBasicFormat
  | none => []

/-- A number is written with digits. -/
theorem isDigit_of_mem_fmtNum {width n : ℕ} {c : Char} (h : c ∈ fmtNum width n) :
    c.isDigit = true := by
  rcases List.mem_append.1 h with h | h
  · rw [List.eq_of_mem_replicate h]
    decide
  · exact Nat.isDigit_of_mem_toDigits (by decide) (by decide) h

/-- A number is written with at least one digit. -/
theorem fmtNum_ne_nil (width n : ℕ) : fmtNum width n ≠ [] :=
  fun h => Nat.toDigits_ne_nil (List.append_eq_nil_iff.1 h).2

/-- A digit is no white space, and no sign. -/
theorem isWhitespace_of_isDigit {c : Char} (h : c.isDigit = true) :
    c.isWhitespace = false ∧ c ≠ '-' ∧ c ≠ '+' := by
  have hne : ∀ d : Char, d.isDigit = false → c ≠ d := fun d hd h0 =>
    absurd (hd.symm.trans (h0 ▸ h)) (by decide)
  refine ⟨?_, hne _ (by decide), hne _ (by decide)⟩
  simp [Char.isWhitespace, hne ' ' (by decide), hne '\t' (by decide), hne '\r' (by decide),
    hne '\n' (by decide)]

/-- **A number is read back**, up to what is no digit. The zeros in front of it are digits as well,
and do not change the value. -/
theorem scanNumber_fmtNum (width n : ℕ) {rest : CString}
    (h : ∀ c ∈ rest.head?, c.isDigit = false) :
    scanNumber none (fmtNum width n ++ rest) = some ((n : ℤ), rest) := by
  obtain ⟨c, digits, hd⟩ := List.exists_cons_of_ne_nil (fmtNum_ne_nil width n)
  have hall : ∀ c ∈ fmtNum width n, c.isDigit = true := fun c => isDigit_of_mem_fmtNum
  obtain ⟨hspace, hminus, hplus⟩ :=
    isWhitespace_of_isDigit (hall c (hd ▸ List.mem_cons_self ..))
  have htake : (fmtNum width n ++ rest).takeWhile Char.isDigit = fmtNum width n := by
    rw [List.takeWhile_append_of_pos hall]
    cases rest with
    | nil => simp
    | cons c' rest => simp [h c' (by simp)]
  have hvalue : (fmtNum width n).foldl (fun m c => 10 * m + (c.toNat - '0'.toNat)) 0 = n := by
    rw [← Nat.ofDigitChars_eq_foldl, fmtNum, Nat.ofDigitChars_append,
      Nat.ofDigitChars_replicate_zero, Nat.mul_zero, Nat.ofDigitChars_ten_toDigits]
  have hdrop : (fmtNum width n ++ rest).dropWhile Char.isWhitespace = fmtNum width n ++ rest := by
    rw [hd, List.cons_append, List.dropWhile_cons_of_neg (by simp [hspace])]
  have hhead : (fmtNum width n ++ rest).head? = some c := by rw [hd]; rfl
  unfold scanNumber
  simp only [hdrop, hhead, Option.some.injEq, hminus, hplus, or_self, if_false, List.drop_zero,
    htake, fmtNum_ne_nil width n, hvalue, List.drop_left]

/-- **A number is read back.** It is below 2^31, so it is an `int` of the same value. -/
theorem ttoi_fmtNum {n : ℕ} (h : n < 2 ^ 31) (width : ℕ) : ttoi (fmtNum width n) = n := by
  have hscan := scanNumber_fmtNum width n
    (show ∀ c ∈ ([] : CString).head?, c.isDigit = false by simp)
  rw [List.append_nil] at hscan
  unfold ttoi
  rw [hscan]
  dsimp only
  omega

/-- Whether a number divides another, as a number. -/
def divides (a b : ℕ) : ℕ := if a ∣ b then 1 else 0

/-- What is divided by a multiple is divided by the number. -/
theorem divides_anti {a b c : ℕ} (h : a ∣ b) : divides b c ≤ divides a c := by
  unfold divides
  split_ifs with hb ha
  · exact Nat.le_refl 1
  · exact absurd (Nat.dvd_trans h hb) ha
  · exact Nat.zero_le _
  · exact Nat.le_refl 0

/-- The days of a year: 365 and one more in a leap year, by the rule of 4, 100 and 400. -/
theorem daysOfYear_eq (y : ℕ) :
    daysOfYear y + divides 100 y = 365 + divides 4 y + divides 400 y := by
  simp only [daysOfYear, isLeapYear, divides, Bool.and_eq_true, Bool.or_eq_true, decide_eq_true_eq]
  split_ifs <;> omega

/-- The days before a year. -/
theorem daysSince1601_succ {y : ℕ} (h : 1601 ≤ y) :
    daysSince1601 (y + 1) 1 1 = daysSince1601 y 1 1 + daysOfYear y := by
  obtain ⟨k, rfl⟩ := Nat.exists_eq_add_of_le h
  have hdiv : ∀ b, (1600 + k + 1) / b = (1600 + k) / b + divides b (1600 + k + 1) :=
    fun b => Nat.succ_div
  have hle : (1600 + k) / 100 ≤ (1600 + k) / 4 := Nat.div_le_div_left (by omega) (by omega)
  have hstart : 388 ≤ (1600 + k) / 4 - (1600 + k) / 100 + (1600 + k) / 400 := by
    have hk : k / 100 ≤ k / 4 := Nat.div_le_div_left (by omega) (by omega)
    rw [show 1600 + k = k + 4 * 400 by omega, Nat.add_mul_div_left _ _ (by omega),
      show k + 4 * 400 = k + 100 * 16 by omega, Nat.add_mul_div_left _ _ (by omega),
      show k + 100 * 16 = k + 400 * 4 by omega, Nat.add_mul_div_left _ _ (by omega)]
    omega
  have hyear := daysOfYear_eq (1600 + k + 1)
  have hanti := divides_anti (a := 4) (b := 100) (c := 1600 + k + 1) (by decide)
  simp only [daysSince1601, Nat.sub_self, List.range_zero, List.foldl_nil, Nat.add_zero]
  rw [show 1601 + k + 1 - 1 = 1600 + k + 1 by omega, show 1601 + k - 1 = 1600 + k by omega,
    show 1601 + k = 1600 + k + 1 by omega, hdiv 4, hdiv 100, hdiv 400]
  omega

/-- The days before a month. -/
theorem daysSince1601_month_succ {y m : ℕ} (h : 1 ≤ m) :
    daysSince1601 y (m + 1) 1 = daysSince1601 y m 1 + daysOfMonth y m := by
  obtain ⟨k, rfl⟩ := Nat.exists_eq_add_of_le h
  simp only [daysSince1601, Nat.add_sub_cancel_left, Nat.sub_self, Nat.add_zero]
  rw [show 1 + k + 1 - 1 = k + 1 by omega, List.range_succ, List.foldl_append, List.foldl_cons,
    List.foldl_nil, Nat.add_comm k 1]
  omega

/-- The days of a month follow one another. -/
theorem daysSince1601_add (y m d : ℕ) :
    daysSince1601 y m (d + 1) = daysSince1601 y m 1 + d := by
  simp [daysSince1601]

/-- **The year of a day.** The induction is on the fuel: a year is counted off as long as the days
are enough for one. -/
theorem yearOfDay_spec {fuel y d : ℕ} (hy : 1601 ≤ y) (hfuel : d ≤ fuel) :
    1601 ≤ (yearOfDay fuel y d).1 ∧
      (yearOfDay fuel y d).2 < daysOfYear (yearOfDay fuel y d).1 ∧
      daysSince1601 (yearOfDay fuel y d).1 1 1 + (yearOfDay fuel y d).2 =
        daysSince1601 y 1 1 + d := by
  have hpos : ∀ y, 365 ≤ daysOfYear y := fun y => by
    unfold daysOfYear
    split_ifs <;> omega
  induction fuel generalizing y d with
  | zero =>
      have := hpos y
      exact ⟨hy, by simp only [yearOfDay]; omega, rfl⟩
  | succ fuel ih =>
      unfold yearOfDay
      split_ifs with hlt
      · exact ⟨hy, hlt, rfl⟩
      · have := hpos y
        obtain ⟨h₁, h₂, h₃⟩ := ih (y := y + 1) (d := d - daysOfYear y) (by omega) (by omega)
        refine ⟨h₁, h₂, h₃.trans ?_⟩
        rw [daysSince1601_succ hy]
        omega

/-- **The month of a day.** The months are counted off like the years, and the fuel is what is left
of them up to December. -/
theorem monthOfDay_spec {y fuel m d : ℕ} (hm : 1 ≤ m) (hfuel : m + fuel = 12)
    (hd : daysSince1601 y m 1 + d < daysSince1601 y 13 1) :
    1 ≤ (monthOfDay y fuel m d).1 ∧ (monthOfDay y fuel m d).1 ≤ 12 ∧
      (monthOfDay y fuel m d).2 < daysOfMonth y (monthOfDay y fuel m d).1 ∧
      daysSince1601 y (monthOfDay y fuel m d).1 1 + (monthOfDay y fuel m d).2 =
        daysSince1601 y m 1 + d := by
  induction fuel generalizing m d with
  | zero =>
      obtain rfl : m = 12 := by omega
      rw [daysSince1601_month_succ (m := 12) (by omega)] at hd
      exact ⟨by simp only [monthOfDay]; omega, by simp only [monthOfDay]; omega,
        by simp only [monthOfDay]; omega, rfl⟩
  | succ fuel ih =>
      unfold monthOfDay
      split_ifs with hlt
      · exact ⟨hm, by omega, hlt, rfl⟩
      · have hsucc := daysSince1601_month_succ (y := y) hm
        obtain ⟨h₁, h₂, h₃, h₄⟩ := ih (m := m + 1) (d := d - daysOfMonth y m) (by omega) (by omega)
          (by omega)
        exact ⟨h₁, h₂, h₃, h₄.trans (by omega)⟩

/-- The months make the year. -/
theorem daysSince1601_months (y : ℕ) :
    daysSince1601 y 13 1 = daysSince1601 y 1 1 + daysOfYear y := by
  have hmonths : (List.range 12).foldl (fun n i => n + daysOfMonth y (i + 1)) 0 = daysOfYear y := by
    cases hleap : isLeapYear y <;> simp [List.range_succ, daysOfMonth, daysOfYear, hleap]
  simp only [daysSince1601]
  rw [show (13 : ℕ) - 1 = 12 from rfl, hmonths]
  simp

/-- The start of the first year that no `FILETIME` is made of. -/
def endOfTime : FileTime := daysSince1601 30828 1 1 * ticksOfDay

/-- Years are in order. -/
theorem daysSince1601_mono {y y' : ℕ} (hy : 1601 ≤ y) (h : y ≤ y') :
    daysSince1601 y 1 1 ≤ daysSince1601 y' 1 1 := by
  obtain ⟨k, rfl⟩ := Nat.exists_eq_add_of_le h
  induction k with
  | zero => exact Nat.le_refl _
  | succ k ih =>
      rw [← Nat.add_assoc, daysSince1601_succ (by omega)]
      exact Nat.le_trans (ih (by omega)) (Nat.le_add_right _ _)

/-- The hours and what is below them make a time of the day. -/
theorem ticks_eq (ft : ℕ) :
    ((((ft / ticksOfDay * 24 + ft / (60 * 60 * 1000 * 10000) % 24) * 60 +
      ft / (60 * 1000 * 10000) % 60) * 60 + ft / (1000 * 10000) % 60) * 1000 +
        ft / 10000 % 1000) * 10000 = ft / 10000 * 10000 := by
  have hdiv : ∀ a b, ft / (a * b) = ft / b / a := fun a b => by
    rw [Nat.div_div_eq_div_mul, Nat.mul_comm]
  rw [show ticksOfDay = 24 * (60 * (60 * (1000 * 10000))) from rfl,
    show 60 * 60 * 1000 * 10000 = 60 * (60 * (1000 * 10000)) from rfl,
    show 60 * 1000 * 10000 = 60 * (1000 * 10000) from rfl]
  simp only [hdiv, Nat.div_add_mod']

/-- **A time before the end is taken apart and put together**, up to what is below a
millisecond. -/
theorem systemTime_of_lt {ft : FileTime} (h : ft < endOfTime) :
    ∃ st, fileTimeToSystemTime ft = some st ∧
      systemTimeToFileTime st = some (ft / 10000 * 10000) := by
  have hbits : endOfTime < 2 ^ 63 := by decide +kernel
  obtain ⟨hy, hdoy, hdays⟩ :=
    yearOfDay_spec (d := ft / ticksOfDay) (Nat.le_refl 1601) (Nat.le_refl _)
  cases hyear : yearOfDay (ft / ticksOfDay) 1601 (ft / ticksOfDay) with
  | mk y doy =>
  rw [hyear] at hy hdoy hdays
  dsimp only at hy hdoy hdays
  rw [show daysSince1601 1601 1 1 = 0 from rfl, Nat.zero_add] at hdays
  obtain ⟨hm, hm', hday, hmonth⟩ := monthOfDay_spec (y := y) (d := doy) (Nat.le_refl 1)
    (show 1 + 11 = 12 from rfl) (by rw [daysSince1601_months]; omega)
  cases hmonthOf : monthOfDay y 11 1 doy with
  | mk m day =>
  rw [hmonthOf] at hm hm' hday hmonth
  dsimp only at hm hm' hday hmonth
  have hend : y ≤ 30827 := by
    by_contra hlt
    have hle := daysSince1601_mono (y := 30828) (by omega) (show 30828 ≤ y by omega)
    have hticks : daysSince1601 30828 1 1 * ticksOfDay ≤ ft :=
      (Nat.le_div_iff_mul_le (by decide)).1 (by omega)
    exact absurd h (Nat.not_lt.2 hticks)
  have hst : fileTimeToSystemTime ft = some
      { wYear := y
        wMonth := m
        wDay := day + 1
        wHour := ft / (60 * 60 * 1000 * 10000) % 24
        wMinute := ft / (60 * 1000 * 10000) % 60
        wSecond := ft / (1000 * 10000) % 60
        wMilliseconds := ft / 10000 % 1000 } := by
    unfold fileTimeToSystemTime
    rw [if_pos (Nat.lt_trans h hbits)]
    dsimp only
    rw [hyear]
    dsimp only
    rw [hmonthOf]
  have hlt : ∀ a b, 0 < b → a % b < b := fun a b => Nat.mod_lt a
  refine ⟨_, hst, ?_⟩
  unfold systemTimeToFileTime
  rw [if_pos ⟨hy, hend, hm, hm', Nat.succ_pos _, hday, hlt _ _ (by decide), hlt _ _ (by decide),
    hlt _ _ (by decide), hlt _ _ (by decide)⟩]
  dsimp only
  rw [daysSince1601_add, hmonth, hdays, ticks_eq]

/-- A number is read, and the character behind it. -/
theorem scanf_fmtNum (width n : ℕ) {c : Char} (hc : c.isDigit = false) (fmt : List Directive)
    (rest : CString) :
    scanf (.num none :: .lit c :: fmt) (fmtNum width n ++ c :: rest) = (n : ℤ) :: scanf fmt rest := by
  simp [scanf, scanNumber_fmtNum width n (show ∀ d ∈ (c :: rest).head?, d.isDigit = false by
    simpa using hc)]

/-- What is read of a `WORD`. -/
theorem wordField_eq {fields : List ℤ} {i n : ℕ} (h : fields.getD i 0 = n) (hn : n < 0x10000) :
    wordField fields i = n := by
  unfold wordField
  rw [h]
  omega

/-- **A time is read back** up to what is below a millisecond. The date is the one that the days
since 1601 determine, and the fields of it are scanned as they were written. -/
theorem parseISO8601Date_format {ft : FileTime} (h : ft < endOfTime) :
    parseISO8601Date (formatISO8601Date ft true false) = (ERROR_SUCCESS, ft / 10000 * 10000) := by
  obtain ⟨st, hst, hft⟩ := systemTime_of_lt h
  have hvalid := hft
  unfold systemTimeToFileTime at hvalid
  split_ifs at hvalid with hv
  have hmonth : daysOfMonth st.wYear st.wMonth ≤ 31 := by
    unfold daysOfMonth
    split_ifs <;> omega
  have hscan : scanf extendedFormat (formatSystemTime st true false) =
      [(st.wYear : ℤ), st.wMonth, st.wDay, st.wHour, st.wMinute, st.wSecond, st.wMilliseconds] := by
    have hlast := scanNumber_fmtNum 3 st.wMilliseconds
      (show ∀ d ∈ ['Z'].head?, d.isDigit = false by simp)
    unfold formatSystemTime extendedFormat
    simp only [Bool.false_eq_true, if_false, if_true, List.append_assoc, List.cons_append,
      List.nil_append]
    rw [scanf_fmtNum _ _ (by decide), scanf_fmtNum _ _ (by decide), scanf_fmtNum _ _ (by decide),
      scanf_fmtNum _ _ (by decide), scanf_fmtNum _ _ (by decide), scanf_fmtNum _ _ (by decide)]
    simp [scanf, hlast]
  unfold formatISO8601Date parseISO8601Date
  rw [hst]
  dsimp only
  have hlen : ∀ a b c d e f g : ℤ, ¬[a, b, c, d, e, f, g].length < 3 := by simp
  rw [hscan, if_neg (hlen _ _ _ _ _ _ _), if_neg (hlen _ _ _ _ _ _ _),
    wordField_eq (n := st.wYear) rfl (by omega),
    wordField_eq (n := st.wMonth) rfl (by omega), wordField_eq (n := st.wDay) rfl (by omega),
    wordField_eq (n := st.wHour) rfl (by omega), wordField_eq (n := st.wMinute) rfl (by omega),
    wordField_eq (n := st.wSecond) rfl (by omega),
    wordField_eq (n := st.wMilliseconds) rfl (by omega), hft]

/-- Months are in order. -/
theorem daysSince1601_month_mono {y m m' : ℕ} (hm : 1 ≤ m) (h : m ≤ m') :
    daysSince1601 y m 1 ≤ daysSince1601 y m' 1 := by
  obtain ⟨k, rfl⟩ := Nat.exists_eq_add_of_le h
  induction k with
  | zero => exact Nat.le_refl _
  | succ k ih =>
      rw [← Nat.add_assoc, daysSince1601_month_succ (by omega)]
      exact Nat.le_trans (ih (by omega)) (Nat.le_add_right _ _)

/-- **Every time that is made is before the end.** The year is at most 30827, and all of the other
fields are in their ranges. -/
theorem systemTimeToFileTime_lt {st : SystemTime} {ft : FileTime}
    (h : systemTimeToFileTime st = some ft) : ft < endOfTime := by
  unfold systemTimeToFileTime at h
  split_ifs at h with hv
  obtain ⟨hy, hend, hm, hm', hd, hday, hhour, hminute, hsecond, hms⟩ := hv
  have hdays : daysSince1601 st.wYear st.wMonth st.wDay < daysSince1601 30828 1 1 := by
    obtain ⟨d, hd⟩ := Nat.exists_eq_add_of_le' hd
    have hsum := daysSince1601_add st.wYear st.wMonth d
    have hmonth := daysSince1601_month_succ (y := st.wYear) hm
    have hle := daysSince1601_month_mono (y := st.wYear) (show 1 ≤ st.wMonth + 1 by omega)
      (show st.wMonth + 1 ≤ 13 by omega)
    have hyear := daysSince1601_months st.wYear
    have hnext := daysSince1601_succ hy
    have hlast := daysSince1601_mono (show 1601 ≤ st.wYear + 1 by omega)
      (show st.wYear + 1 ≤ 30828 by omega)
    rw [hd] at hday ⊢
    omega
  have hticks : (daysSince1601 st.wYear st.wMonth st.wDay + 1) * ticksOfDay ≤ endOfTime :=
    Nat.mul_le_mul_right _ hdays
  rw [← Option.some.inj h]
  refine Nat.lt_of_lt_of_le ?_ hticks
  rw [show ticksOfDay = 24 * 60 * 60 * 1000 * 10000 from rfl]
  omega

/-- What is read as a time is before the end, too. -/
theorem parseISO8601Date_lt (s : CString) : (parseISO8601Date s).2 < endOfTime := by
  have hpos : 0 < endOfTime := by decide +kernel
  simp only [parseISO8601Date]
  split_ifs
  · exact hpos
  all_goals
    split
    · exact systemTimeToFileTime_lt ‹_›
    · exact hpos

end ECSUtil

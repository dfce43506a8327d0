/-
# Times

`SYSTEMTIME`, `FILETIME` and the conversion between them as Windows documents it,
and `ParseISO8601Date` (`ECSUtil/ECSConnection.cpp`) for times that are not local.

A `FILETIME` is a number, and a date is counted in days from the start of 1601, so no calendar has
to be known beyond the lengths of the months.  `ParseISO8601Date` reads the fields of a time by the
form with separators (`extendedFormat`), and where that gives fewer than three by the one without
(`basicFormat`); a field that is not read is zero.  A text that is no time has a Win32 code for its
result (`parseISO8601Date_not_FAILED`).
-/

import ECSUtil.Conn.Error
import ECSUtil.Conn.Text

namespace ECSUtil

/-- `SYSTEMTIME`; the day of the week is not used. -/
structure SystemTime where
  wYear : ℕ
  wMonth : ℕ
  wDay : ℕ
  wHour : ℕ := 0
  wMinute : ℕ := 0
  wSecond : ℕ := 0
  wMilliseconds : ℕ := 0
  deriving DecidableEq, Repr

/-- `FILETIME`: tenths of a microsecond since the start of 1601. -/
abbrev FileTime := ℕ

namespace SystemTime

/-- The time of a `FILETIME` of zero. -/
def zeroFT : SystemTime := { wYear := 1601, wMonth := 1, wDay := 1 }

/-- Two times of one day. -/
def SameDay (st st' : SystemTime) : Prop :=
  st.wYear = st'.wYear ∧ st.wMonth = st'.wMonth ∧ st.wDay = st'.wDay

instance (st st' : SystemTime) : Decidable (SameDay st st') :=
  inferInstanceAs (Decidable (_ ∧ _ ∧ _))

end SystemTime

def isLeapYear (y : ℕ) : Bool := y % 4 = 0 && (y % 100 ≠ 0 || y % 400 = 0)

/-- The days of a month. -/
def daysOfMonth (y m : ℕ) : ℕ :=
  if m = 2 then (if isLeapYear y then 29 else 28)
  else if m = 4 ∨ m = 6 ∨ m = 9 ∨ m = 11 then 30
  else 31

/-- The days from the start of 1601 to a date. -/
def daysSince1601 (y m d : ℕ) : ℕ :=
  365 * (y - 1601) + ((y - 1) / 4 - (y - 1) / 100 + (y - 1) / 400 - 388) +
    (List.range (m - 1)).foldl (fun n i => n + daysOfMonth y (i + 1)) 0 + (d - 1)

/-- `SystemTimeToFileTime`, which refuses what is no time. -/
def systemTimeToFileTime (st : SystemTime) : Option FileTime :=
  if 1601 ≤ st.wYear ∧ st.wYear ≤ 30827 ∧ 1 ≤ st.wMonth ∧ st.wMonth ≤ 12 ∧ 1 ≤ st.wDay ∧
      st.wDay ≤ daysOfMonth st.wYear st.wMonth ∧ st.wHour < 24 ∧ st.wMinute < 60 ∧
      st.wSecond < 60 ∧ st.wMilliseconds < 1000 then
    some (((((daysSince1601 st.wYear st.wMonth st.wDay * 24 + st.wHour) * 60 + st.wMinute) * 60 +
      st.wSecond) * 1000 + st.wMilliseconds) * 10000)
  else none

/-- `%hd-%hd-%hdT%hd:%hd:%hd.%hd`. -/
def extendedFormat : List Directive :=
  [.num none, .lit '-', .num none, .lit '-', .num none, .lit 'T', .num none, .lit ':', .num none,
    .lit ':', .num none, .lit '.', .num none]

/-- `%4hd%2hd%2hdT%2hd%2hd%2hd%3hd`. -/
def basicFormat : List Directive :=
  [.num (some 4), .num (some 2), .num (some 2), .lit 'T', .num (some 2), .num (some 2),
    .num (some 2), .num (some 3)]

/-- What `%hd` leaves in a `WORD` that was zero. -/
def wordField (fields : List ℤ) (i : ℕ) : ℕ := ((fields.getD i 0) % 0x10000).toNat

/-- `ParseISO8601Date`, of a time that is not local: its result, and `ftDate`. -/
def parseISO8601Date (pszDate : CString) : DWORD × FileTime :=
  let extended := scanf extendedFormat pszDate
  let fields := if extended.length < 3 then scanf basicFormat pszDate else extended
  if fields.length < 3 then (ERROR_INVALID_DATA, 0)
  else
    let stDate : SystemTime :=
      { wYear := wordField fields 0
        wMonth := wordField fields 1
        wDay := wordField fields 2
        wHour := wordField fields 3
        wMinute := wordField fields 4
        wSecond := wordField fields 5
        wMilliseconds := wordField fields 6 }
    match systemTimeToFileTime stDate with
    | some ftDate => (ERROR_SUCCESS, ftDate)
    -- What `GetLastError` returns then.
    | none => (ERROR_INVALID_PARAMETER, 0)

/-- Its result is a Win32 error code, and so never a failing `HRESULT`. -/
theorem parseISO8601Date_not_FAILED (s : CString) : FAILED (parseISO8601Date s).1 = false := by
  simp only [parseISO8601Date]
  split_ifs
  · rfl
  all_goals split <;> rfl

/-- A time as S3 writes it. -/
example : parseISO8601Date "1601-01-02T00:00:01.000Z".toList = (ERROR_SUCCESS, 864010000000) := by
  decide +kernel

end ECSUtil

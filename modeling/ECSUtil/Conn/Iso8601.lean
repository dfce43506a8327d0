/-
# Times as ISO 8601 texts

`ParseISO8601Date` of what `FormatISO8601Date` makes of a time (`ECSUtil/ECSConnection.cpp`), in its
four forms: with and without separators, and with and without milliseconds.

The second pattern has no point before the milliseconds, so without separators they are not read:
`iso8601_roundTrip`.

A number of a width is read back whatever follows it (`scanNumber_width`), so `scannedDate` is known
for each form, and with it what is parsed of the fields (`parseISO8601Date_of_fields`).  Without
separators the first pattern stops behind the first number, and the second one behind the seconds
(`scannedDate_basic`).
-/

import Mathlib.Data.List.TakeWhile
import ECSUtil.Conn.Format

namespace ECSUtil

/-- The end of the year 9999. -/
def endOfFourDigits : ℕ := daysSince1601 10000 1 1 * ticksOfDay

/-- A time without what is below a millisecond, or a second. -/
def truncateTime (ft : ℕ) (bMilliSec : Bool) : ℕ :=
  if bMilliSec then ft / 10000 * 10000 else ft / 10000000 * 10000000

/-- What `ParseISO8601Date` scans. -/
def scannedDate (s : CString) : List ℤ :=
  if (scanf extendedFormat s).length < 3 then scanf basicFormat s else scanf extendedFormat s

/-- The fields of a time up to the second. -/
def SystemTime.fields (st : SystemTime) : List ℤ :=
  [(st.wYear : ℤ), st.wMonth, st.wDay, st.wHour, st.wMinute, st.wSecond]

/-- A number has the width it is to have, where it fits. -/
theorem length_fmtNum {width n : ℕ} (hwidth : 0 < width) (h : n < 10 ^ width) :
    (fmtNum width n).length = width := by
  have hle := (Nat.length_toDigits_le_iff (by decide) hwidth).2 h
  rw [fmtNum, List.length_append, List.length_replicate]
  omega

/-- Digits are read, up to what is no digit. -/
theorem scanNumber_digits {digits rest : CString} (hall : ∀ c ∈ digits, c.isDigit = true)
    (hne : digits ≠ []) (h : ∀ c ∈ rest.head?, c.isDigit = false) :
    ∃ n, scanNumber none (digits ++ rest) = some (n, rest) := by
  obtain ⟨c, cs, rfl⟩ := List.exists_cons_of_ne_nil hne
  obtain ⟨hspace, hminus, hplus⟩ := isWhitespace_of_isDigit (hall c List.mem_cons_self)
  have htake : (c :: cs ++ rest).takeWhile Char.isDigit = c :: cs := by
    rw [List.takeWhile_append_of_pos hall]
    cases rest with
    | nil => simp
    | cons c' rest => simp [h c' (by simp)]
  have hdrop : (c :: cs ++ rest).dropWhile Char.isWhitespace = c :: cs ++ rest := by
    rw [List.cons_append, List.dropWhile_cons_of_neg (by simp [hspace])]
  have hhead : (c :: cs ++ rest).head? = some c := rfl
  unfold scanNumber
  simp only [hdrop, hhead, Option.some.injEq, hminus, hplus, or_self, if_false, List.drop_zero,
    htake, List.drop_left]
  exact ⟨_, rfl⟩

/-- **A number of a width is read back**, whatever follows. The width ends the scan, so the digits
of the next field may follow at once, as they do in the form without separators. -/
theorem scanNumber_width {width n : ℕ} (hwidth : 0 < width) (h : n < 10 ^ width) (rest : CString) :
    scanNumber (some width) (fmtNum width n ++ rest) = some ((n : ℤ), rest) := by
  have hread := scanNumber_fmtNum width n
    (show ∀ c ∈ ([] : CString).head?, c.isDigit = false by simp)
  rw [List.append_nil] at hread
  obtain ⟨c, digits, hd⟩ := List.exists_cons_of_ne_nil (fmtNum_ne_nil width n)
  obtain ⟨hspace, hminus, hplus⟩ :=
    isWhitespace_of_isDigit (isDigit_of_mem_fmtNum (hd ▸ List.mem_cons_self : c ∈ fmtNum width n))
  have htake : (fmtNum width n ++ rest).take width = fmtNum width n :=
    List.take_left' (length_fmtNum hwidth h)
  have hall : (fmtNum width n).takeWhile Char.isDigit = fmtNum width n :=
    List.takeWhile_eq_self_iff.2 fun c => isDigit_of_mem_fmtNum
  have hdrop : ∀ rest : CString,
      (fmtNum width n ++ rest).dropWhile Char.isWhitespace = fmtNum width n ++ rest := by
    intro rest
    rw [hd, List.cons_append, List.dropWhile_cons_of_neg (by simp [hspace])]
  have hhead : ∀ rest : CString, (fmtNum width n ++ rest).head? = some c := by
    intro rest
    rw [hd]
    rfl
  have hvalue : (fmtNum width n).foldl (fun m c => 10 * m + (c.toNat - '0'.toNat)) 0 = n := by
    rw [← Nat.ofDigitChars_eq_foldl, fmtNum, Nat.ofDigitChars_append,
      Nat.ofDigitChars_replicate_zero, Nat.mul_zero, Nat.ofDigitChars_ten_toDigits]
  unfold scanNumber
  simp only [hdrop, hhead, Option.some.injEq, hminus, hplus, or_self, if_false, List.drop_zero,
    Nat.sub_zero, htake, hall, fmtNum_ne_nil width n, hvalue, List.drop_left]

/-- A number of a width is read, and the format goes on behind it. -/
theorem scanf_width {width n : ℕ} (hwidth : 0 < width) (h : n < 10 ^ width) (fmt : List Directive)
    (rest : CString) :
    scanf (.num (some width) :: fmt) (fmtNum width n ++ rest) = (n : ℤ) :: scanf fmt rest := by
  simp only [scanf, scanNumber_width hwidth h]

/-- A literal of a format takes the same character of the text. -/
theorem scanf_lit (c : Char) (fmt : List Directive) (rest : CString) :
    scanf (.lit c :: fmt) (c :: rest) = scanf fmt rest := by
  simp [scanf]

/-- A text without a number at its start. -/
theorem scanf_num_of_not {width : Option ℕ} {c : Char} (hspace : c.isWhitespace = false)
    (hdigit : c.isDigit = false) (hsign : c ≠ '-' ∧ c ≠ '+') (fmt : List Directive)
    (rest : CString) : scanf (.num width :: fmt) (c :: rest) = [] := by
  have hnone : scanNumber width (c :: rest) = none := by
    unfold scanNumber
    rw [List.dropWhile_cons_of_neg (by simp [hspace])]
    simp only [List.head?_cons, Option.some.injEq, hsign.1, hsign.2, or_self, if_false,
      List.drop_zero, Nat.sub_zero]
    cases width with
    | none => rw [if_pos (List.takeWhile_cons_of_neg (by simp [hdigit]))]
    | some w =>
        cases w with
        | zero => rfl
        | succ w =>
            have hdigits : ((c :: rest).take (w + 1)).takeWhile Char.isDigit = [] :=
              List.takeWhile_cons_of_neg (by simp [hdigit])
            exact if_pos hdigits
  simp only [scanf, hnone]

/-- What is a time, as Windows has it. -/
theorem SystemTime.valid {st : SystemTime} {ft : ℕ} (h : systemTimeToFileTime st = some ft) :
    (1601 ≤ st.wYear ∧ st.wYear ≤ 30827 ∧ 1 ≤ st.wMonth ∧ st.wMonth ≤ 12 ∧ 1 ≤ st.wDay ∧
      st.wDay ≤ 31 ∧ st.wHour < 24 ∧ st.wMinute < 60 ∧ st.wSecond < 60 ∧ st.wMilliseconds < 1000) ∧
    (((((daysSince1601 st.wYear st.wMonth st.wDay * 24 + st.wHour) * 60 + st.wMinute) * 60 +
      st.wSecond) * 1000 + st.wMilliseconds) * 10000) = ft := by
  have hday : daysOfMonth st.wYear st.wMonth ≤ 31 := by
    unfold daysOfMonth
    split_ifs <;> omega
  unfold systemTimeToFileTime at h
  split_ifs at h with hv
  obtain ⟨h₁, h₂, h₃, h₄, h₅, h₆, h₇⟩ := hv
  exact ⟨⟨h₁, h₂, h₃, h₄, h₅, by omega, h₇⟩, Option.some.inj h⟩

/-- The milliseconds of a time, and the time without them. -/
theorem SystemTime.truncated {st : SystemTime} {ft : ℕ}
    (h : systemTimeToFileTime st = some (ft / 10000 * 10000)) :
    st.wMilliseconds = ft / 10000 % 1000 ∧
      systemTimeToFileTime { st with wMilliseconds := 0 } = some (truncateTime ft false) := by
  have hwhole := h
  obtain ⟨⟨-, -, -, -, -, -, -, -, -, hms⟩, hvalue⟩ := st.valid h
  refine ⟨by omega, ?_⟩
  unfold systemTimeToFileTime at hwhole ⊢
  split_ifs at hwhole with hv
  obtain ⟨h₁, h₂, h₃, h₄, h₅, h₆, h₇, h₈, h₉, -⟩ := hv
  have hzero : 0 < 1000 := by decide
  rw [if_pos ⟨h₁, h₂, h₃, h₄, h₅, h₆, h₇, h₈, h₉, hzero⟩]
  unfold truncateTime
  rw [if_neg Bool.false_ne_true]
  refine congrArg some ?_
  show ((((daysSince1601 st.wYear st.wMonth st.wDay * 24 + st.wHour) * 60 + st.wMinute) * 60 +
    st.wSecond) * 1000 + 0) * 10000 = ft / 10000000 * 10000000
  generalize ((daysSince1601 st.wYear st.wMonth st.wDay * 24 + st.wHour) * 60 + st.wMinute) * 60 +
    st.wSecond = seconds at hvalue ⊢
  have hseconds : seconds = ft / 10000000 := by omega
  rw [hseconds, Nat.add_zero, Nat.mul_assoc]

/-- A time of these years has a year of four digits. -/
theorem SystemTime.year_lt {st : SystemTime} {ft : ℕ} (hlt : ft < endOfFourDigits)
    (h : systemTimeToFileTime st = some (ft / 10000 * 10000)) : st.wYear < 10000 := by
  obtain ⟨⟨-, -, hm, -, hd, -⟩, hvalue⟩ := st.valid h
  by_contra hno
  obtain ⟨d, hday⟩ := Nat.exists_eq_add_of_le' hd
  have hyear := daysSince1601_mono (y := 10000) (by decide) (Nat.not_lt.1 hno)
  have hmonth := daysSince1601_month_mono (y := st.wYear) (Nat.le_refl 1) hm
  have hadd := daysSince1601_add st.wYear st.wMonth d
  rw [← hday] at hadd
  have hticks : daysSince1601 10000 1 1 * ticksOfDay ≤
      daysSince1601 st.wYear st.wMonth st.wDay * ticksOfDay := Nat.mul_le_mul_right _ (by omega)
  have hday' : ticksOfDay = 864000000000 := rfl
  unfold endOfFourDigits at hlt
  rw [hday'] at hticks hlt
  omega

/-- **What is parsed of the fields of a time**, where the milliseconds are not read. The fields up
to the second are all that counts for it. -/
theorem parseISO8601Date_of_fields {s : CString} {st : SystemTime} {ft : ℕ}
    (hscan : scannedDate s = st.fields)
    (h : systemTimeToFileTime { st with wMilliseconds := 0 } = some ft) :
    parseISO8601Date s = (ERROR_SUCCESS, ft) := by
  obtain ⟨⟨-, hy, -, hm, -, hd, hhour, hminute, hsecond, -⟩, -⟩ := SystemTime.valid h
  dsimp only at hy hm hd hhour hminute hsecond
  have hfields : (if (scanf extendedFormat s).length < 3 then scanf basicFormat s
      else scanf extendedFormat s) = st.fields := hscan
  have hlen : ¬st.fields.length < 3 := by simp [SystemTime.fields]
  unfold parseISO8601Date
  simp only [hfields, if_neg hlen]
  rw [wordField_eq (n := st.wYear) rfl (by omega), wordField_eq (n := st.wMonth) rfl (by omega),
    wordField_eq (n := st.wDay) rfl (by omega), wordField_eq (n := st.wHour) rfl (by omega),
    wordField_eq (n := st.wMinute) rfl (by omega), wordField_eq (n := st.wSecond) rfl (by omega),
    wordField_eq (i := 6) (n := 0) rfl (by omega), h]

/-- With separators, and without milliseconds. -/
theorem scannedDate_extended (st : SystemTime) :
    scannedDate (formatSystemTime st false false) = st.fields := by
  have hscan : scanf extendedFormat (formatSystemTime st false false) = st.fields := by
    have hlast := scanNumber_fmtNum 2 st.wSecond
      (show ∀ d ∈ ['Z'].head?, d.isDigit = false by simp)
    unfold formatSystemTime extendedFormat
    simp only [Bool.false_eq_true, if_false, List.append_assoc, List.cons_append, List.nil_append]
    rw [scanf_fmtNum _ _ (by decide), scanf_fmtNum _ _ (by decide), scanf_fmtNum _ _ (by decide),
      scanf_fmtNum _ _ (by decide), scanf_fmtNum _ _ (by decide)]
    simp [scanf, hlast, SystemTime.fields]
  unfold scannedDate
  rw [hscan, if_neg (by simp [SystemTime.fields])]

/-- **Without separators**: the first pattern stops behind the first number, and the second one behind the
seconds. -/
theorem scannedDate_basic {st : SystemTime} {ft : ℕ} (h : systemTimeToFileTime st = some ft)
    (hy : st.wYear < 10000) (bMilliSec : Bool) :
    scannedDate (formatSystemTime st bMilliSec true) = st.fields := by
  obtain ⟨⟨-, -, -, hm, -, hd, hhour, hminute, hsecond, -⟩, -⟩ := st.valid h
  obtain ⟨c, rest, hrest, hspace, hdigit, hsign⟩ : ∃ (c : Char) (rest : CString),
      (if bMilliSec then '.' :: fmtNum 3 st.wMilliseconds else []) ++ ['Z'] = c :: rest ∧
      c.isWhitespace = false ∧ c.isDigit = false ∧ c ≠ '-' ∧ c ≠ '+' := by
    cases bMilliSec with
    | false => exact ⟨'Z', [], rfl, by decide, by decide, by decide, by decide⟩
    | true => exact ⟨'.', _, rfl, by decide, by decide, by decide, by decide⟩
  have hformat : formatSystemTime st bMilliSec true =
      fmtNum 4 st.wYear ++ (fmtNum 2 st.wMonth ++ (fmtNum 2 st.wDay ++ ('T' ::
        (fmtNum 2 st.wHour ++ (fmtNum 2 st.wMinute ++ (fmtNum 2 st.wSecond ++ c :: rest)))))) := by
    unfold formatSystemTime
    simp only [if_true, List.append_nil, List.append_assoc, List.cons_append, List.nil_append,
      hrest]
  have hbasic : scanf basicFormat (formatSystemTime st bMilliSec true) = st.fields := by
    rw [hformat]
    unfold basicFormat
    rw [scanf_width (by decide) hy, scanf_width (by decide) (by omega),
      scanf_width (by decide) (by omega)]
    rw [scanf_lit, scanf_width (by decide) (by omega), scanf_width (by decide) (by omega),
      scanf_width (by decide) (by omega), scanf_num_of_not hspace hdigit hsign]
    rfl
  -- the digits in front of the T are read as one number
  have hextended : (scanf extendedFormat (formatSystemTime st bMilliSec true)).length < 3 := by
    rw [hformat, ← List.append_assoc, ← List.append_assoc]
    set digits := fmtNum 4 st.wYear ++ fmtNum 2 st.wMonth ++ fmtNum 2 st.wDay with hdigits
    set behind := fmtNum 2 st.wHour ++ (fmtNum 2 st.wMinute ++ (fmtNum 2 st.wSecond ++ c :: rest))
    have hall : ∀ c ∈ digits, c.isDigit = true := by
      intro c hc
      rcases List.mem_append.1 hc with hc | hc
      · rcases List.mem_append.1 hc with hc | hc <;> exact isDigit_of_mem_fmtNum hc
      · exact isDigit_of_mem_fmtNum hc
    have hne : digits ≠ [] := by simp [hdigits, fmtNum_ne_nil]
    obtain ⟨n, hn⟩ : ∃ n, scanNumber none (digits ++ 'T' :: behind) = some (n, 'T' :: behind) :=
      scanNumber_digits hall hne (by simp)
    unfold extendedFormat
    rw [scanf, hn]
    simp [scanf]
  unfold scannedDate
  rw [if_pos hextended, hbasic]

/-- **The round trip of a time** of the years up to 9999 gives it back, without what its form leaves out,
if and only if it has no milliseconds to lose where the form has them but no separators. -/
theorem iso8601_roundTrip {ft : ℕ} (h : ft < endOfFourDigits) (bMilliSec bBasicFormat : Bool) :
    parseISO8601Date (formatISO8601Date ft bMilliSec bBasicFormat) =
        (ERROR_SUCCESS, truncateTime ft bMilliSec) ↔
      (bMilliSec = true → bBasicFormat = true → ft / 10000 % 1000 = 0) := by
  have hend : ft < endOfTime := by
    have hyears : daysSince1601 10000 1 1 ≤ daysSince1601 30828 1 1 :=
      daysSince1601_mono (by decide) (by decide)
    exact Nat.lt_of_lt_of_le h (Nat.mul_le_mul_right _ hyears)
  obtain ⟨st, hst, hft⟩ := systemTime_of_lt hend
  obtain ⟨hms, hzero⟩ := st.truncated hft
  have hformat : ∀ b b', formatISO8601Date ft b b' = formatSystemTime st b b' := by
    intro b b'
    unfold formatISO8601Date
    rw [hst]
  have hbasic : ∀ b, parseISO8601Date (formatISO8601Date ft b true) =
      (ERROR_SUCCESS, truncateTime ft false) := by
    intro b
    rw [hformat]
    exact parseISO8601Date_of_fields (scannedDate_basic hft (st.year_lt h hft) b) hzero
  cases bMilliSec with
  | false =>
      refine iff_of_true ?_ fun hno => absurd hno Bool.false_ne_true
      cases bBasicFormat with
      | false =>
          rw [hformat]
          exact parseISO8601Date_of_fields (scannedDate_extended st) hzero
      | true => exact hbasic false
  | true =>
      cases bBasicFormat with
      | false =>
          exact iff_of_true (parseISO8601Date_format hend) fun _ hno => absurd hno Bool.false_ne_true
      | true =>
          rw [hbasic true, Prod.mk.injEq, and_iff_right rfl]
          unfold truncateTime
          rw [if_neg Bool.false_ne_true, if_pos rfl]
          exact ⟨fun heq _ _ => by omega, fun heq => by have := heq rfl rfl; omega⟩

/-- The first day, a second and 500 milliseconds after midnight. -/
def halfSecond : ℕ := 15000000

/-- With separators and milliseconds, half a second comes back as it was. -/
theorem iso8601_roundTrip_extended :
    parseISO8601Date (formatISO8601Date halfSecond true false) =
      (ERROR_SUCCESS, truncateTime halfSecond true) := by
  have hyears : halfSecond < endOfFourDigits := by decide +kernel
  exact (iso8601_roundTrip hyears true false).2 fun _ hno => absurd hno Bool.false_ne_true

/-- **The milliseconds are lost** in the form without separators. They are written, and the format
that this form is scanned with has no field for them. -/
theorem iso8601_milliseconds_lost :
    parseISO8601Date (formatISO8601Date halfSecond true true) = (ERROR_SUCCESS, 10000000) ∧
      truncateTime halfSecond true = 15000000 := by
  decide +kernel

end ECSUtil

/-
# Operations that parse a reply

`ProcessXmlTextField` (`ECSUtil/XmlLiteUtil.cpp`), and `XmlS3VersioningCB` and `XmlECSBucketInfoCB`
with the operations that scan with them, `S3GetBucketVersioning` and `ECSAdminBucketInfo`
(`ECSUtil/ECSConnection.cpp`).

All of their errors are Win32 codes, so none of them is reported: a callback of this kind has its errors
reported if and only if it has none (`reported_of_harmless`), and an operation that scans a document to its
last node returns none (`s3GetBucketVersioning_error` and the like).

The information on a bucket is what a reply set of it, by the names of the fields; the others
have their defaults.
-/

import Mathlib.Algebra.Group.Int.Defs
import Mathlib.Algebra.Group.Nat.Defs
import ECSUtil.Conn.Time
import ECSUtil.Xml.Errors

namespace ECSUtil
namespace Xml

/-- `E_XML_FIELD_TYPE`. -/
inductive FieldType
  | string
  | time
  | u32
  | u64
  | s32
  | s64
  | bool
  deriving DecidableEq, Repr

/-- The value of a field. -/
inductive FieldValue
  | string (s : CString)
  | time (t : FileTime)
  | int (n : ℤ)
  | bool (b : Bool)
  deriving DecidableEq, Repr

/-- The digit of a character. -/
def digitOf (c : Char) : ℕ :=
  if c.isDigit then c.toNat - '0'.toNat
  else if c.isLower then c.toNat - 'a'.toNat + 10
  else if c.isUpper then c.toNat - 'A'.toNat + 10
  else 36

/-- The base that `wcstoul` and its like take from a text, and the text behind its mark. -/
def baseOf : CString → ℕ × CString
  | '0' :: x :: d :: s =>
      if (x = 'x' ∨ x = 'X') ∧ digitOf d < 16 then (16, d :: s) else (8, '0' :: x :: d :: s)
  | '0' :: s => (8, '0' :: s)
  | s => (10, s)

/-- `wcstoul(s, &pEnd, 0)` and its like: the number, not yet brought into its range, with its sign,
and the text from `pEnd` on. -/
def wcstol (s : CString) : Bool × ℕ × CString :=
  let t := s.dropWhile Char.isWhitespace
  let bNegative := t.head? = some '-'
  let t := if t.head? = some '-' ∨ t.head? = some '+' then t.drop 1 else t
  let (base, t) := baseOf t
  let digits := t.takeWhile fun c => digitOf c < base
  if digits = [] then (false, 0, s)
  else (bNegative, digits.foldl (fun n c => base * n + digitOf c) 0, t.drop digits.length)

/-- An unsigned number of some bits. -/
def unsigned (bits : ℕ) (bNegative : Bool) (n : ℕ) : ℤ :=
  if 2 ^ bits ≤ n then 2 ^ bits - 1 else if bNegative then ((2 ^ bits - n) % 2 ^ bits : ℕ) else n

/-- A signed number of some bits. -/
def signed (bits : ℕ) (bNegative : Bool) (n : ℕ) : ℤ :=
  if bNegative then -(min n (2 ^ (bits - 1)) : ℕ) else (min n (2 ^ (bits - 1) - 1) : ℕ)

/-- A number that takes up all of a text. -/
def wholeNumber (f : Bool → ℕ → ℤ) (s : CString) : DWORD × FieldValue :=
  let (bNegative, n, pEnd) := wcstol s
  (if pEnd = [] then ERROR_SUCCESS else ERROR_XML_PARSE_ERROR, .int (f bNegative n))

/-- The value of a text, with the error that it is not one; `none` where nothing is
stored. -/
def fieldValue (s : CString) : FieldType → DWORD × Option FieldValue
  | .bool =>
      if compareNoCase s "false".toList then (ERROR_SUCCESS, some (.bool false))
      else if compareNoCase s "true".toList then (ERROR_SUCCESS, some (.bool true))
      else (ERROR_XML_PARSE_ERROR, none)
  | .string => (ERROR_SUCCESS, some (.string s))
  | .time => ((parseISO8601Date s).1, some (.time (parseISO8601Date s).2))
  | .u32 => (wholeNumber (unsigned 32) s).map id some
  | .u64 => (wholeNumber (unsigned 64) s).map id some
  | .s32 => (wholeNumber (signed 32) s).map id some
  -- The field is an unsigned one.
  | .s64 => (wholeNumber (signed 64) s).map id some

/-- What a reply set of a structure, by the names of its fields, the latest first. -/
abbrev FieldValues := List (CString × FieldValue)

/-- `ProcessXmlTextField`. -/
def processXmlTextField (fieldMap : List (CString × FieldType)) (sPathRoot sXmlPath : CString)
    (pContext : FieldValues) (value : CString) : DWORD × FieldValues :=
  if sPathRoot ≠ sXmlPath.take sPathRoot.length then (ERROR_INVALID_DATA, pContext)
  else
    let sField := sXmlPath.drop sPathRoot.length
    let sField := if sField.head? = some '/' then sField.drop 1 else sField
    match fieldMap.lookup sField with
    | none => (ERROR_SUCCESS, pContext)
    | some type =>
        let (hr, v) := fieldValue value type
        (hr, match v with
          | some v => (sField, v) :: pContext
          | none => pContext)

/-- `BucketInfoMap`. -/
def bucketInfoMap : List (CString × FieldType) :=
  [("name", .string), ("id", .string), ("link", .string), ("created", .time), ("softquota", .s32),
    ("fs_access_enabled", .bool), ("locked", .bool), ("vpool", .string), ("namespace", .string),
    ("owner", .string), ("is_stale_allowed", .bool), ("is_tso_read_only", .bool),
    ("is_object_lock_enabled", .bool), ("default_object_lock_retention_mode", .bool),
    ("default_object_lock_retention_years", .u32), ("default_object_lock_retention_days", .u32),
    ("is_encryption_enabled", .bool), ("default_retention", .u32), ("block_size", .s32),
    ("auto_commit_period", .u32), ("notification_size", .s32), ("api_type", .string),
    ("retention", .u32), ("default_group_file_read_permission", .bool),
    ("default_group_file_write_permission", .bool),
    ("default_group_file_execute_permission", .bool),
    ("default_group_dir_read_permission", .bool), ("default_group_dir_write_permission", .bool),
    ("default_group_dir_execute_permission", .bool), ("default_group", .string),
    ("datatype", .string), ("isEnabled", .bool), ("mdTokens", .bool), ("maxKeys", .u32),
    ("blockSizeInCount", .s32), ("notificationSizeInCount", .s32),
    ("audit_delete_expiration", .s32)].map fun f => (f.1.toList, f.2)

/-- `XmlECSBucketInfoCB`. -/
def xmlECSBucketInfoCB : Callback FieldValues := fun sXmlPath e pContext =>
  match e with
  | .text value => processXmlTextField bucketInfoMap "//bucket_info/".toList sXmlPath pContext value
  | _ => (0, pContext)

/-- `ECSAdminBucketInfo`, after its request. -/
def ecsAdminBucketInfo (reply : Reply) : S3Error × FieldValues :=
  if reply.error.ifError then (reply.error, [])
  else
    let r := scanXmlStream xmlECSBucketInfoCB reply.reading []
    ((Test.nonzero.leaves r.1).getD reply.error, r.2)

/-- `E_S3_VERSIONING`. -/
inductive Versioning
  | off
  | on
  | suspended
  deriving DecidableEq, Repr

/-- `XmlS3VersioningCB`. -/
def xmlS3VersioningCB : Callback Versioning := fun sXmlPath e c =>
  match e with
  | .text value =>
      if value ≠ [] ∧ compareNoCase sXmlPath "//VersioningConfiguration/Status".toList then
        if compareNoCase value "Suspended".toList then (0, .suspended)
        else if compareNoCase value "Enabled".toList then (0, .on)
        else (ERROR_INVALID_DATA, c)
      else (0, c)
  | _ => (0, c)

/-- `S3GetBucketVersioning`, after its request: its error, and `Versioning` where it is set. -/
def s3GetBucketVersioning (reply : Reply) : S3Error × Option Versioning :=
  if reply.error.ifError then (reply.error, none)
  else if 5 < reply.dwSize ∧ reply.bXml then
    let r := scanXmlStream xmlS3VersioningCB reply.reading .off
    match Test.nonzero.leaves r.1 with
    | some Error => (Error, none)
    | none => (reply.error, some r.2)
  else
    ({ reply.error with dwHttpError := HTTP_STATUS_SERVER_ERROR, s3Error := .malformedXML }, none)

/-- A field is read without a failure, whatever the text. -/
theorem fieldValue_not_FAILED (s : CString) (type : FieldType) :
    FAILED (fieldValue s type).1 = false := by
  have hnumber : ∀ f, FAILED (wholeNumber f s).1 = false := fun f => by
    unfold wholeNumber
    dsimp only
    split_ifs <;> rfl
  have hmap : ∀ f, FAILED ((wholeNumber f s).map id some).1 = false := hnumber
  cases type with
  | string => rfl
  | time => exact parseISO8601Date_not_FAILED s
  | u32 => exact hmap _
  | u64 => exact hmap _
  | s32 => exact hmap _
  | s64 => exact hmap _
  | bool =>
      unfold fieldValue
      dsimp only
      split_ifs <;> rfl

/-- The errors of `XmlECSBucketInfoCB` are no failing `HRESULT`s. -/
theorem xmlECSBucketInfoCB_harmless : Callback.Harmless xmlECSBucketInfoCB := by
  intro p e c
  cases e with
  | text value =>
      simp only [xmlECSBucketInfoCB, processXmlTextField]
      split_ifs
      · rfl
      all_goals
        split
        · rfl
        · exact fieldValue_not_FAILED _ _
  | _ => rfl

/-- Nor are those of `XmlS3VersioningCB`. -/
theorem xmlS3VersioningCB_harmless : Callback.Harmless xmlS3VersioningCB := by
  intro p e c
  cases e with
  | text value =>
      simp only [xmlS3VersioningCB]
      split_ifs <;> rfl
  | _ => rfl

/-- **A callback whose errors are Win32 codes** has its errors reported if and only if it returns
none. The scan compares with `FAILED`, which no Win32 code is; so an error that the callback returns
stops nothing and is not seen again. -/
theorem reported_of_harmless {σ : Type} {cb : Callback σ} (hcb : cb.Harmless) (rd : Reading)
    (c : σ) : Reported cb rd c ↔ ∀ code ∈ codes cb rd c, code = 0 := by
  have hkeeps : cb.logged.Keeps (fun c => Passed c.2) fun e => Passed e.2.2 :=
    { fails := fun p e c _ h => absurd ((hcb p e c.1).symm.trans h) (by decide)
      keeps := logged_keeps.keeps }
  have hpassed : Passed (codes cb rd c) :=
    (hkeeps.scanXmlStream (c := (c, [])) rd (fun _ _ _ _ hc => hc)
      fun _ h => absurd h List.not_mem_nil).elim (fun h => h.2.1) fun h => h
  rw [errors_reported]
  refine ⟨fun h code hm => ?_, fun h code hm hne => absurd (h code hm) hne⟩
  by_contra hne
  exact absurd ((h code hm hne).symm.trans (hpassed code hm)) (by decide)

/-- **An operation that scans a document to its last node returns no error**, whatever its callback
returned. -/
theorem s3GetBucketVersioning_error {reply : Reply} (he : reply.error.ifError = false)
    (hx : 5 < reply.dwSize ∧ reply.bXml = true) (hf : reply.reading.fails = false) :
    (s3GetBucketVersioning reply).1 = reply.error := by
  have hzero := (xmlS3VersioningCB_harmless.scanXmlStream (c := .off) reply.reading).2 hf
  simp [s3GetBucketVersioning, he, hx, hzero]

@[inherit_doc s3GetBucketVersioning_error]
theorem ecsAdminBucketInfo_error {reply : Reply} (he : reply.error.ifError = false)
    (hf : reply.reading.fails = false) : (ecsAdminBucketInfo reply).1 = reply.error := by
  have hzero := (xmlECSBucketInfoCB_harmless.scanXmlStream (c := []) reply.reading).2 hf
  simp [ecsAdminBucketInfo, he, hzero]

/-- A reply to `?versioning` with a status that is none. -/
def badStatus : Reading where
  nodes := [.other, element "VersioningConfiguration".toList] ++
    leaf "Status".toList "Disabled".toList ++ [.endElement]
  last := S_FALSE
  last_ne := S_FALSE_ne_S_OK

/-- **An error that is not reported**: the callback refuses the status, and `S3GetBucketVersioning`
returns no error, and that versioning is off. -/
theorem errors_unreported : ERROR_INVALID_DATA ∈ codes xmlS3VersioningCB badStatus .off ∧
    ¬Reported xmlS3VersioningCB badStatus .off ∧
      s3GetBucketVersioning { reading := badStatus } = ({}, some .off) := by
  have hm : ERROR_INVALID_DATA ∈ codes xmlS3VersioningCB badStatus .off := by decide +kernel
  refine ⟨hm, fun h => ?_, by decide +kernel⟩
  exact absurd ((reported_of_harmless xmlS3VersioningCB_harmless _ _).1 h _ hm) (by decide)

end Xml
end ECSUtil

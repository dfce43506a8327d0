/-
# Error codes

`S3_ERROR_BASE` and `S3_ERROR` (`ECSUtil/ECSConnection.h`) carry a Win32 error, an
HTTP status and an S3 error code; `IfError` tells whether any of them is one.
Copying an `S3_ERROR` runs `SetError` (`ECSUtil/ECSConnection.cpp`), which fills
in a Win32 code for an error that has none.

The texts an `S3_ERROR` carries for its reader (`sS3Code`, `sDetails`, the
certificate) are left out where no modelled function reads them.

Copying keeps the verdict (`ifError_setError`): `SetError` makes no error of a success and no
success of an error, so the model can pass errors on as they are.
-/

import Mathlib.Data.List.Basic

namespace ECSUtil

/-- A Win32 error code; also an `HRESULT`, the 32 bits being the same. -/
abbrev DWORD := UInt32

/-- `FAILED(hr)`: the sign bit of the `HRESULT` is set. -/
def FAILED (hr : DWORD) : Bool := 0x80000000 ≤ hr

def ERROR_SUCCESS : DWORD := 0
def S_OK : DWORD := 0
def S_FALSE : DWORD := 1
def ERROR_INVALID_DATA : DWORD := 13
def ERROR_BAD_LENGTH : DWORD := 24
def ERROR_INVALID_PARAMETER : DWORD := 87
def ERROR_INVALID_NAME : DWORD := 123
def ERROR_OPERATION_ABORTED : DWORD := 995
def HTTP_E_STATUS_UNEXPECTED : DWORD := 0x80190001
def HTTP_E_STATUS_NOT_FOUND : DWORD := 0x80190194

def HTTP_STATUS_NOT_FOUND : ℕ := 404
def HTTP_STATUS_SERVER_ERROR : ℕ := 500

/-- `E_S3_ERROR_TYPE`: the codes that modelled functions name, and the others by
their number. -/
inductive S3ErrorType
  | success
  | unknown
  | malformedXML
  | noSuchKey
  | other (code : ℕ)
  deriving DecidableEq, Repr

/-- The statuses of `HttpErrorInitArray`; the code of status `n` is
`0x80190000 + n`. -/
def httpErrorStatuses : List ℕ :=
  [300, 301, 302, 303, 304, 305, 307, 400, 401, 402, 403, 404, 405, 406, 407, 408, 409, 410, 411,
    412, 413, 414, 415, 500, 501, 502, 503, 504, 505]

/-- `HttpErrorMap`, with the code for a status that is not in it. -/
def httpErrorCode (status : ℕ) : DWORD :=
  if status ∈ httpErrorStatuses then 0x80190000 + UInt32.ofNat status
  else HTTP_E_STATUS_UNEXPECTED

/-- `S3_ERROR`. -/
structure S3Error where
  dwError : DWORD := ERROR_SUCCESS
  dwHttpError : ℕ := 0
  s3Error : S3ErrorType := .success
  deriving DecidableEq, Repr

namespace S3Error

/-- `S3_ERROR(dwErrorParam)`. -/
def ofWin32 (dwErrorParam : DWORD) : S3Error := { dwError := dwErrorParam }

/-- `S3_ERROR_BASE::IfError`. -/
def ifError (e : S3Error) : Bool :=
  e.dwError ≠ ERROR_SUCCESS || 400 ≤ e.dwHttpError || e.s3Error ≠ .success

/-- `S3_ERROR_BASE::IfNotFound`. -/
def ifNotFound (e : S3Error) : Bool :=
  e.dwError = HTTP_E_STATUS_NOT_FOUND || e.s3Error = .noSuchKey ||
    e.dwHttpError = HTTP_STATUS_NOT_FOUND

/-- `S3_ERROR::SetError`, run by the copy constructor and the assignment. -/
def setError (e : S3Error) : S3Error :=
  if e.dwError ≠ ERROR_SUCCESS || !e.ifError then e
  else { e with dwError := httpErrorCode e.dwHttpError }

/-- An `S3_ERROR` as it is made is none. -/
@[simp] theorem ifError_default : ({} : S3Error).ifError = false := rfl

/-- A Win32 error is one. -/
theorem ifError_of_dwError {e : S3Error} (h : e.dwError ≠ ERROR_SUCCESS) : e.ifError = true := by
  simp [ifError, h]

/-- An `S3_ERROR` that is made of a code is an error unless that is `ERROR_SUCCESS`. -/
@[simp] theorem ifError_ofWin32 (c : DWORD) :
    (ofWin32 c).ifError = !decide (c = ERROR_SUCCESS) := by
  unfold ifError ofWin32
  by_cases h : c = ERROR_SUCCESS <;> simp [h]

/-- **Copying keeps the verdict.**  `SetError` makes no error of a success and
no success of an error. -/
@[simp] theorem ifError_setError (e : S3Error) : e.setError.ifError = e.ifError := by
  unfold setError
  split_ifs with h
  · rfl
  · have he : e.ifError = true := by
      simp only [Bool.or_eq_true, not_or, Bool.not_eq_true'] at h
      simpa using h.2
    have hc : httpErrorCode e.dwHttpError ≠ ERROR_SUCCESS := by
      unfold httpErrorCode
      split_ifs with hm
      · simp only [httpErrorStatuses, List.mem_cons, List.not_mem_nil, or_false] at hm
        rcases hm with h | h | h | h | h | h | h | h | h | h | h | h | h | h | h | h | h | h | h |
          h | h | h | h | h | h | h | h | h | h <;> rw [h] <;> decide
      · decide
    rw [he]
    exact ifError_of_dwError hc

end S3Error

end ECSUtil

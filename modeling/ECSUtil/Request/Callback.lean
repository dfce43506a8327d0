/-
# Asynchronous calls

`HTTP_CALLBACK_CONTEXT` (`ECSUtil/ECSConnection.h`), `HttpStatusCallback`,
`PrepareCmd`, `CleanupCmd` and the loop of `WaitComplete` (`ECSUtil/ECSConnection.cpp`).

WinHTTP calls the callback on threads of its own.  What it does under the lock of the
context is one step, the setting of the exit flag behind it another.  A pending operation ends
with its completion or with an error; a handle that was closed is closing until its
last callback.  Callbacks know of the context only once it was set on the handle.

The fields of the context that nothing reads (`bHeadersAvail`, `bComplete`, `pReadData`
and the like) are left out, as are `evExit`, with which the wait for the flag is only
woken up early, and the security errors.
-/

import ECSUtil.Conn.Error

namespace ECSUtil
namespace Request

/-- `WINHTTP_CALLBACK_STATUS_...`. -/
inductive Status
  | secureFailure
  | dataAvailable
  | headersAvailable
  | readComplete
  | sendRequestComplete
  | writeComplete
  | requestError
  | handleClosing
  deriving DecidableEq, Repr

/-- `HTTP_CALLBACK_CONTEXT`. -/
structure CallbackContext where
  evCmd : Bool := false
  /-- `Result.dwError`. -/
  dwResultError : ℕ := 0
  CallbacksReceived : List Status := []
  dwReadLength : ℕ := 0
  dwBytesWritten : ℕ := 0
  bFailed : Bool := false
  lExitFlag : Bool := false
  deriving DecidableEq, Repr

namespace CallbackContext

/-- `Reset`, which does not touch the exit flag. -/
def reset (c : CallbackContext) : CallbackContext := { lExitFlag := c.lExitFlag }

/-- `HttpStatusCallback`, the part under the lock; `info` is the number that comes with
the status. -/
def httpStatusCallback (c : CallbackContext) (dwInternetStatus : Status) (info : ℕ) :
    CallbackContext :=
  let c := { c with
    lExitFlag := false
    CallbacksReceived := c.CallbacksReceived ++ [dwInternetStatus] }
  match dwInternetStatus with
  | .secureFailure => c
  | .dataAvailable => { c with dwReadLength := info, evCmd := true }
  | .readComplete => { c with dwReadLength := info, evCmd := true }
  | .writeComplete => { c with dwBytesWritten := info, evCmd := true }
  | .requestError => { c with bFailed := true, dwResultError := info, evCmd := true }
  | _ => { c with evCmd := true }

end CallbackContext

/-- The buffers of a request: those of the caller, that of the function, and that of the block
whose exceptions it handles. -/
inductive Buffer
  | pData
  | streamSendFront
  | retData
  | s3AuthV4SendBuf
  | rcvBuf
  deriving DecidableEq, Repr

/-- What is written to the server: a part of the data, and for a signed stream what is left of it
and the empty chunk at its end. -/
inductive Write
  | part
  | rest
  | final
  deriving DecidableEq, Repr

/-- The asynchronous calls, with the buffers they work on. -/
inductive Cmd
  | sendRequest
  | writeData (b : Buffer) (w : Write)
  | receiveResponse
  | queryDataAvailable
  | readData (b : Buffer)
  deriving DecidableEq, Repr

/-- The callback that tells of the success of a call. -/
def Cmd.expected : Cmd → Status
  | .sendRequest => .sendRequestComplete
  | .writeData _ _ => .writeComplete
  | .receiveResponse => .headersAvailable
  | .queryDataAvailable => .dataAvailable
  | .readData _ => .readComplete

/-- The buffer whose address the call was given. -/
def Cmd.buffer : Cmd → Option Buffer
  | .writeData b _ => some b
  | .readData b => some b
  | _ => none

/-- An operation that WinHTTP has not completed, with the number of the request that
called for it. -/
structure Pending where
  request : ℕ
  cmd : Cmd
  deriving DecidableEq, Repr

/-- A request handle. -/
structure Handle where
  id : ℕ
  /-- The context was set: the callback is called with it. -/
  bContext : Bool := false
  pending : Option Pending := none
  bClosing : Bool := false
  deriving DecidableEq, Repr

/-- The callbacks WinHTTP may make for a handle. -/
def Handle.mayCall (h : Handle) (st : Status) : Bool :=
  h.bContext && match st with
    | .handleClosing => h.bClosing
    | .secureFailure => !h.bClosing && h.pending.isSome
    | .requestError => h.pending.isSome
    | st => h.pending.any fun o => o.cmd.expected = st

/-- The handle after a callback, `none` after its last. -/
def Handle.called (h : Handle) : Status → Option Handle
  | .handleClosing => none
  | .secureFailure => some h
  | _ => some { h with pending := none }

/-- What is called back for a handle with nothing pending is its last callback. -/
theorem Handle.eq_handleClosing {h : Handle} {st : Status} (hc : h.mayCall st = true)
    (hp : h.pending = none) : st = .handleClosing := by
  cases st <;> first | rfl | simp [Handle.mayCall, hp] at hc

/-- What `WaitForSingleObject` returns. -/
inductive WaitResult
  | object
  | timeout
  | failed
  deriving DecidableEq, Repr

/-- `iTimeoutMax`. -/
def iTimeoutMax (dwLongestTimeout : ℕ) : ℕ := max dwLongestTimeout 90000 / 5000 + 2

/-- One turn of the loop of `WaitComplete`: what it returns, `none` where it goes on waiting,
the context and the number of timeouts then. -/
def waitTurn (dwLongestTimeout : ℕ) (c : CallbackContext) (iTimeout : ℕ) (expected : Status)
    (r : WaitResult) (bAbort : Bool) : Option Bool × CallbackContext × ℕ :=
  if expected ≠ .handleClosing ∧ bAbort then
    (some false, { c with dwResultError := ERROR_OPERATION_ABORTED.toNat }, iTimeout)
  else
    match r with
    | .object =>
        let bGotIt := decide (expected ∈ c.CallbacksReceived)
        let c := { c with CallbacksReceived := [] }
        if (expected ≠ .handleClosing ∨ bGotIt) ∧ (bGotIt ∨ c.bFailed) then
          (some (!c.bFailed), c, iTimeout)
        else (none, c, iTimeout)
    | .timeout =>
        if iTimeoutMax dwLongestTimeout < iTimeout + 1 then
          (some false, { c with dwResultError := 258 }, iTimeout + 1)
        else (none, c, iTimeout + 1)
    | .failed => (some false, c, iTimeout)

/-- The turn ends the wait although the callback has not come: on an abort, on the last
timeout, or on a failed wait. -/
def givesUp (dwLongestTimeout iTimeout : ℕ) (expected : Status) (r : WaitResult)
    (bAbort : Bool) : Bool :=
  (expected ≠ .handleClosing && bAbort) || r = .failed ||
    (r = .timeout && iTimeoutMax dwLongestTimeout < iTimeout + 1)

variable {dwLongestTimeout iTimeout : ℕ} {c : CallbackContext} {expected : Status}
  {r : WaitResult} {bAbort : Bool}

/-- **A wait that ends has its callback, or an error, or is given up.** A turn looks at the
callbacks first, then at the error that was recorded, at the abort and at the time; the last two are
what is meant by giving up. -/
theorem waitTurn_ends {b : Bool}
    (h : (waitTurn dwLongestTimeout c iTimeout expected r bAbort).1 = some b) :
    givesUp dwLongestTimeout iTimeout expected r bAbort = true ∨
      expected ∈ c.CallbacksReceived ∨ (expected ≠ .handleClosing ∧ c.bFailed = true) := by
  unfold waitTurn at h
  unfold givesUp
  by_cases ha : expected ≠ .handleClosing ∧ bAbort = true
  · exact .inl (by simp [ha])
  rw [if_neg ha] at h
  cases r with
  | object =>
      right
      simp only [Option.ite_none_right_eq_some, apply_ite Prod.fst] at h
      obtain ⟨⟨hx, hg⟩, -⟩ := h
      by_cases hin : expected ∈ c.CallbacksReceived
      · exact .inl hin
      · simp only [hin, decide_false, Bool.false_eq_true, or_false, false_or] at hx hg
        exact .inr ⟨hx, hg⟩
  | timeout =>
      simp only [Option.ite_none_right_eq_some, apply_ite Prod.fst] at h
      exact .inl (by simp [h.1])
  | failed => exact .inl (by simp)

/-- A wait that is given up fails. -/
theorem waitTurn_of_givesUp
    (h : givesUp dwLongestTimeout iTimeout expected r bAbort = true) :
    (waitTurn dwLongestTimeout c iTimeout expected r bAbort).1 = some false := by
  unfold waitTurn
  by_cases ha : expected ≠ .handleClosing ∧ bAbort = true
  · rw [if_pos ha]
  rw [if_neg ha]
  have ha' : (decide (expected ≠ .handleClosing) && bAbort) = false := by
    simpa [Bool.and_eq_false_iff] using ha
  rw [givesUp, ha', Bool.false_or] at h
  cases r with
  | object => simp at h
  | timeout =>
      simp only [reduceCtorEq, decide_false, decide_true, Bool.false_or, Bool.true_and,
        decide_eq_true_eq] at h
      dsimp only
      rw [if_pos h]
  | failed => rfl

/-- A wait succeeds only with its callback. -/
theorem waitTurn_true
    (h : (waitTurn dwLongestTimeout c iTimeout expected r bAbort).1 = some true) :
    expected ∈ c.CallbacksReceived := by
  unfold waitTurn at h
  by_cases ha : expected ≠ .handleClosing ∧ bAbort = true
  · simp [if_pos ha] at h
  rw [if_neg ha] at h
  cases r with
  | object =>
      simp only [Option.ite_none_right_eq_some, apply_ite Prod.fst, Option.some.injEq,
        Bool.not_eq_true'] at h
      obtain ⟨⟨-, hg⟩, hf⟩ := h
      simpa [hf] using hg
  | timeout => simp [apply_ite Prod.fst] at h
  | failed => simp at h

/-- A wait that goes on at most forgets the callbacks received. -/
theorem waitTurn_none
    (h : (waitTurn dwLongestTimeout c iTimeout expected r bAbort).1 = none) :
    (waitTurn dwLongestTimeout c iTimeout expected r bAbort).2.1 = c ∨
      (waitTurn dwLongestTimeout c iTimeout expected r bAbort).2.1 =
        { c with CallbacksReceived := [] } := by
  unfold waitTurn at h ⊢
  by_cases ha : expected ≠ .handleClosing ∧ bAbort = true
  · simp [if_pos ha] at h
  rw [if_neg ha] at h ⊢
  cases r with
  | object =>
      right
      dsimp only at h ⊢
      split_ifs at h ⊢
      rfl
  | timeout =>
      left
      dsimp only at h ⊢
      split_ifs at h ⊢
      rfl
  | failed => simp at h

/-- The errors a wait comes to by itself. -/
theorem waitTurn_error :
    (waitTurn dwLongestTimeout c iTimeout expected r bAbort).2.1.dwResultError ∈
      [c.dwResultError, ERROR_OPERATION_ABORTED.toNat, 258] := by
  unfold waitTurn
  by_cases ha : expected ≠ .handleClosing ∧ bAbort = true
  · simp [if_pos ha]
  · rw [if_neg ha]
    cases r <;> dsimp only <;> (try split_ifs) <;> simp

end Request
end ECSUtil

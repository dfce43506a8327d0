/-
# The attempts of a request

`SendRequest` and `SetRetries` (`ECSUtil/ECSConnection.cpp`): a request is attempted until an attempt
succeeds or fails for good, the addresses run out, or there were `dwMaxRetryCount` attempts.
What `SendRequestInternal` returns of each attempt is a parameter, as are the times at which addresses
are selected.  The callback that is told of a disconnection changes nothing here and is left out.

All attempts are kept, each with its address (`Course.made`), and the policy is a statement about them:
`retry_policy`.

The loop is by the attempts that are left (`retryLoop`), and each is judged on its own (`judge`): it
succeeded, it failed for good, or there may be another one.
-/

import ECSUtil.Retry.Addresses

namespace ECSUtil
namespace Retry

def ERROR_WINHTTP_TIMEOUT : DWORD := 12002
def ERROR_WINHTTP_SECURE_FAILURE : DWORD := 12175
def ERROR_HOST_UNREACHABLE : DWORD := 1232
def SEC_E_NO_IP_ADDRESSES : DWORD := 0x80090335

def HTTP_STATUS_OK : ℕ := 200
def HTTP_STATUS_AMBIGUOUS : ℕ := 300

/-- What a request depends on.  `SetRetries` does not take zero. -/
structure Config where
  host : Host
  IPListHost : List CString
  bInitialized : Bool := true
  /-- The request sends or receives a stream. -/
  bStream : Bool := false
  dwMaxRetryCount : ℕ
  dwMaxRetryCount_pos : 0 < dwMaxRetryCount

/-- The limit of the loop, which a test connection lowers. -/
def Config.limit (cfg : Config) : ℕ :=
  if cfg.host.bTestConnection then min 2 cfg.dwMaxRetryCount else cfg.dwMaxRetryCount

/-- What comes of an attempt, and the time when it is over. -/
structure Attempt where
  Error : S3Error := {}
  bGotServerResponse : Bool := true
  ftNow : UInt64 := 0
  deriving DecidableEq, Repr

/-- What comes from outside. -/
structure Environment where
  /-- The attempts, by their number. -/
  outcome : ℕ → Attempt
  /-- The times of the first two calls to `GetNextECSIP`. -/
  ftFirst : UInt64 := 0
  ftSecond : UInt64 := 0
  /-- The time at which bad addresses are logged. -/
  ftLog : UInt64 := 0

/-- What is done after an attempt. -/
inductive Verdict
  | succeeded
  | failed
  | again
  deriving DecidableEq, Repr

/-- The status is that of a success. -/
def goodStatus (dwHttpError : ℕ) : Bool :=
  dwHttpError = 0 || (HTTP_STATUS_OK ≤ dwHttpError && dwHttpError < HTTP_STATUS_AMBIGUOUS)

/-- The attempt got to the server, which has no complaint. -/
def Attempt.good (a : Attempt) : Bool :=
  !a.Error.setError.ifError && a.bGotServerResponse && goodStatus a.Error.setError.dwHttpError

/-- `Error` of an attempt that is not good. -/
def Attempt.error (a : Attempt) : S3Error :=
  if a.Error.setError.ifError then a.Error.setError
  else if !a.bGotServerResponse then { a.Error.setError with dwError := ERROR_HOST_UNREACHABLE }
  else { a.Error.setError with dwError := HTTP_E_STATUS_UNEXPECTED }

/-- The checks after attempt `i`. -/
def judge (cfg : Config) (i : ℕ) (a : Attempt) : Verdict :=
  if a.good then .succeeded
  -- the data of a stream would have to be reset
  else if cfg.bStream then .failed
  else if a.error.dwHttpError < HTTP_STATUS_SERVER_ERROR ∧
      (a.bGotServerResponse = true ∨ a.error.dwError = ERROR_WINHTTP_SECURE_FAILURE) then .failed
  else if a.error.dwError = ERROR_WINHTTP_TIMEOUT ∧ 1 < i then .failed
  else if (cfg.bInitialized = false ∨ cfg.host.bTestConnection = true) ∧
      a.error.dwError = ERROR_WINHTTP_TIMEOUT then .failed
  else if a.error.dwError = ERROR_OPERATION_ABORTED then .failed
  else .again

/-- The attempts, and what they left: `IPUsed` holds the addresses that failed. -/
structure Course where
  Error : S3Error
  selection : Selection
  IPUsed : List CString := []
  made : List (CString × Attempt) := []

def Course.prepend (r : Course) (p : CString × Attempt) : Course := { r with made := p :: r.made }

/-- `IPUsed.insert`. -/
def used (cfg : Config) (IPUsed : List CString) (sIP : CString) (a : Attempt) : List CString :=
  if cfg.host.ifMarkIPBad a.error.dwError && !IPUsed.contains sIP then sIP :: IPUsed else IPUsed

/-- The loop, with the turns that are left to it. -/
def retryLoop (cfg : Config) (outcome : ℕ → Attempt) :
    ℕ → ℕ → Selection → List CString → S3Error → Course
  | 0, _, s, IPUsed, Error => { Error := Error, selection := s, IPUsed := IPUsed }
  | left + 1, i, s, IPUsed, _ =>
      let a := outcome i
      let sIP := s.currentServerIP cfg.IPListHost
      match judge cfg i a with
      | .succeeded =>
          { Error := a.Error.setError, selection := s, IPUsed := IPUsed, made := [(sIP, a)] }
      | .failed => { Error := a.error, selection := s, IPUsed := IPUsed, made := [(sIP, a)] }
      | .again =>
          let r := s.getNextECSIP cfg.host cfg.IPListHost a.ftNow
          if r.2 then
            (retryLoop cfg outcome left (i + 1) r.1 (used cfg IPUsed sIP a) a.error).prepend
              (sIP, a)
          else
            { Error := a.error
              selection := r.1
              IPUsed := used cfg IPUsed sIP a
              made := [(sIP, a)] }

/-- The request up to the log of the bad addresses. -/
def course (cfg : Config) (env : Environment) (s : Selection) : Course :=
  let r := s.getNextECSIP cfg.host cfg.IPListHost env.ftFirst
  if r.2 then retryLoop cfg env.outcome cfg.limit 0 r.1 [] {}
  else
    -- it could be that all of them are marked bad
    let r := (r.1.testAllIPBad cfg.host cfg.IPListHost).getNextECSIP cfg.host cfg.IPListHost
      env.ftSecond
    if r.2 then retryLoop cfg env.outcome cfg.limit 0 r.1 [] {}
    else { Error := .ofWin32 SEC_E_NO_IP_ADDRESSES, selection := r.1 }

/-- `SendRequest`: the error, the maps, and the attempts that were made. -/
def sendRequest (cfg : Config) (env : Environment) (s : Selection) : Course :=
  let r := course cfg env s
  { r with
    Error := r.Error.setError
    selection :=
      if !r.Error.ifError && !r.IPUsed.isEmpty then
        r.selection.logBadIPAddr cfg.host cfg.IPListHost r.IPUsed env.ftLog
      else r.selection }

section

variable {cfg : Config} {outcome : ℕ → Attempt} {i left : ℕ} {a : Attempt} {s : Selection}
  {IPUsed : List CString} {Error : S3Error}

/-- At least one attempt is made. -/
theorem Config.limit_pos (cfg : Config) : 0 < cfg.limit := by
  have hpos := cfg.dwMaxRetryCount_pos
  unfold Config.limit
  split_ifs <;> omega

/-- No more attempts are made than the limit. -/
theorem Config.limit_le (cfg : Config) : cfg.limit ≤ cfg.dwMaxRetryCount := by
  unfold Config.limit
  split_ifs <;> omega

/-- An attempt that succeeds is a good one. -/
theorem judge_succeeded : judge cfg i a = .succeeded ↔ a.good = true := by
  unfold judge
  split_ifs <;> simp_all

/-- It is an error. -/
theorem ifError_error (a : Attempt) : a.error.ifError = true := by
  unfold Attempt.error
  split_ifs with herror hserver
  · exact herror
  · exact S3Error.ifError_of_dwError (show ERROR_HOST_UNREACHABLE ≠ ERROR_SUCCESS by decide)
  · exact S3Error.ifError_of_dwError (show HTTP_E_STATUS_UNEXPECTED ≠ ERROR_SUCCESS by decide)

/-- **When there is another attempt.** The conditions are those of the loop: no success, no stream,
an error that another attempt might not have, and no abort. -/
theorem judge_again (h : judge cfg i a = .again) : a.good = false ∧ cfg.bStream = false ∧
    (a.bGotServerResponse = false ∧ a.error.dwError ≠ ERROR_WINHTTP_SECURE_FAILURE ∨
      HTTP_STATUS_SERVER_ERROR ≤ a.error.dwHttpError) ∧
    (a.error.dwError = ERROR_WINHTTP_TIMEOUT → i ≤ 1) ∧
    a.error.dwError ≠ ERROR_OPERATION_ABORTED := by
  unfold judge at h
  split_ifs at h with hgood hstream hserver htimeout hearly habort
  refine ⟨Bool.eq_false_iff.2 hgood, Bool.eq_false_iff.2 hstream, ?_, fun h => ?_, habort⟩
  · by_cases hstatus : a.error.dwHttpError < HTTP_STATUS_SERVER_ERROR
    · obtain ⟨hgot, hsecure⟩ := not_or.1 (not_and.1 hserver hstatus)
      exact .inl ⟨Bool.eq_false_iff.2 hgot, hsecure⟩
    · exact .inr (Nat.not_lt.1 hstatus)
  · exact Nat.not_lt.1 (not_and.1 htimeout h)

/-- What is written to the error changes nothing of its status. -/
theorem dwHttpError_setError (e : S3Error) : e.setError.dwHttpError = e.dwHttpError := by
  unfold S3Error.setError
  split_ifs <;> rfl

/-- An attempt has the status that the server gave. -/
theorem dwHttpError_error (a : Attempt) : a.error.dwHttpError = a.Error.dwHttpError := by
  unfold Attempt.error
  split_ifs <;> exact dwHttpError_setError a.Error

/-- A code that was set stays. -/
theorem dwError_error (h : a.Error.dwError ≠ ERROR_SUCCESS) :
    a.error.dwError = a.Error.dwError := by
  have hset : a.Error.setError = a.Error := if_pos (by simp [h])
  rw [Attempt.error, hset, if_pos (S3Error.ifError_of_dwError h)]

/-- **The policy**, for the attempts from number `i` on, of which there are at most `left`. -/
structure Policy (cfg : Config) (left i : ℕ) (r : Course) : Prop where
  success : r.Error.ifError = false → ∃ p ∈ r.made.getLast?, p.2.bGotServerResponse = true ∧
    (p.2.Error.dwHttpError = 0 ∨ 200 ≤ p.2.Error.dwHttpError ∧ p.2.Error.dwHttpError ≤ 299)
  again : ∀ p ∈ r.made.dropLast, cfg.bStream = false ∧
    (p.2.bGotServerResponse = false ∧ p.2.Error.dwError ≠ ERROR_WINHTTP_SECURE_FAILURE ∨
      500 ≤ p.2.Error.dwHttpError) ∧ p.2.Error.dwError ≠ ERROR_OPERATION_ABORTED
  count : r.made.length ≤ left
  timeouts : r.made.countP (fun p => p.2.Error.dwError = ERROR_WINHTTP_TIMEOUT) ≤ max 1 (3 - i)

/-- A good attempt got to the server, and its status is good. -/
theorem good_status (h : a.good = true) : a.Error.ifError = false ∧ a.bGotServerResponse = true ∧
    (a.Error.dwHttpError = 0 ∨ 200 ≤ a.Error.dwHttpError ∧ a.Error.dwHttpError ≤ 299) := by
  simp only [Attempt.good, goodStatus, HTTP_STATUS_OK, HTTP_STATUS_AMBIGUOUS,
    S3Error.ifError_setError, dwHttpError_setError, Bool.and_eq_true, Bool.or_eq_true,
    Bool.not_eq_true', decide_eq_true_eq] at h
  obtain ⟨⟨herror, hgot⟩, hstatus⟩ := h
  exact ⟨herror, hgot, by omega⟩

/-- The last attempt. -/
theorem Policy.last {r : Course} {p : CString × Attempt} (hmade : r.made = [p])
    (hsuccess : r.Error.ifError = false → p.2.good = true) : Policy cfg (left + 1) i r := by
  refine ⟨fun h => ⟨p, by simp [hmade], (good_status (hsuccess h)).2⟩, ?_, ?_, ?_⟩
  · rw [hmade]
    exact fun q hq => absurd hq List.not_mem_nil
  · rw [hmade, List.length_singleton]
    omega
  · rw [hmade]
    refine Nat.le_trans List.countP_le_length ?_
    rw [List.length_singleton]
    omega

/-- An attempt with others behind it. -/
theorem Policy.prepend {r : Course} (h : Policy cfg left (i + 1) r)
    (hjudge : judge cfg i a = .again) (sIP : CString) :
    Policy cfg (left + 1) i (r.prepend (sIP, a)) := by
  obtain ⟨-, hstream, hserver, htimeout, habort⟩ := judge_again hjudge
  obtain ⟨made, hmade⟩ : ∃ made, r.made = made := ⟨_, rfl⟩
  refine ⟨fun hsuccess => ?_, fun p hp => ?_, Nat.succ_le_succ h.count, ?_⟩
  · obtain ⟨p, hp, hgood⟩ := h.success hsuccess
    refine ⟨p, ?_, hgood⟩
    show p ∈ ((sIP, a) :: r.made).getLast?
    rw [List.getLast?_cons, hp]
    rfl
  · change p ∈ ((sIP, a) :: r.made).dropLast at hp
    rw [hmade] at hp
    cases made with
    | nil => exact absurd hp List.not_mem_nil
    | cons q rest =>
        rcases List.mem_cons.1 hp with rfl | hp
        · refine ⟨hstream, ?_, fun hcode => habort ?_⟩
          · rw [dwHttpError_error] at hserver
            refine hserver.imp_left fun ⟨hgot, hsecure⟩ => ⟨hgot, fun hcode => hsecure ?_⟩
            rw [dwError_error (hcode ▸ by decide), hcode]
          · rw [dwError_error (hcode ▸ by decide), hcode]
        · exact h.again p (hmade ▸ hp)
  · have hrest := h.timeouts
    show ((sIP, a) :: r.made).countP _ ≤ _
    rw [List.countP_cons]
    split_ifs with hcode
    · have hearly := htimeout (by
        have := of_decide_eq_true hcode
        rw [dwError_error (this ▸ by decide), this])
      omega
    · omega

/-- **Every turn of the loop keeps to the policy.** The induction is on the attempts that are left,
and the error that the loop has is that of the last one. -/
theorem policy_retryLoop (hleft : left = 0 → Error.ifError = true) :
    Policy cfg left i (retryLoop cfg outcome left i s IPUsed Error) := by
  induction left generalizing i s IPUsed Error with
  | zero =>
      refine ⟨fun h => absurd (h.symm.trans (hleft rfl)) (by simp), fun p hp => ?_, Nat.le_refl _,
        Nat.zero_le _⟩
      exact absurd hp List.not_mem_nil
  | succ left ih =>
      unfold retryLoop
      dsimp only
      cases hjudge : judge cfg i (outcome i) with
      | succeeded => exact .last rfl fun _ => judge_succeeded.1 hjudge
      | failed =>
          exact .last rfl fun h => absurd (h.symm.trans (ifError_error (outcome i))) (by simp)
      | again =>
          have herror := ifError_error (outcome i)
          dsimp only
          split_ifs with hfound
          · exact (ih fun _ => herror).prepend hjudge _
          · exact .last rfl fun h => absurd (h.symm.trans herror) (by simp)

end

/-- **The retry policy**: no error is returned only after a last attempt that got to the server and a
status of 0 or 2xx; there is another attempt only where there is no stream, the one before did not
get to the server, and not for a certificate, or had a status of the server's failure, and was not
aborted; and there are no more than `dwMaxRetryCount` attempts, and no more than three
timeouts. -/
theorem retry_policy (cfg : Config) (env : Environment) (s : Selection) :
    Policy cfg cfg.dwMaxRetryCount 0 (sendRequest cfg env s) := by
  have hcourse : Policy cfg cfg.limit 0 (course cfg env s) := by
    unfold course
    dsimp only
    split_ifs
    · exact policy_retryLoop fun h => absurd h (Nat.pos_iff_ne_zero.1 cfg.limit_pos)
    · exact policy_retryLoop fun h => absurd h (Nat.pos_iff_ne_zero.1 cfg.limit_pos)
    · refine ⟨fun h => absurd h (by simp; decide), fun p hp => ?_, Nat.zero_le _, Nat.zero_le _⟩
      exact absurd hp List.not_mem_nil
  exact ⟨fun h => hcourse.success ((S3Error.ifError_setError _).symm.trans h), hcourse.again,
    Nat.le_trans hcourse.count cfg.limit_le, hcourse.timeouts⟩

/-- A host with two addresses. -/
def twoAddresses : Config where
  host := { sHost := "h".toList }
  IPListHost := ["10.0.0.1".toList, "10.0.0.2".toList]
  dwMaxRetryCount := 5
  dwMaxRetryCount_pos := by decide

/-- Three timeouts are the last of a request. -/
example : (sendRequest twoAddresses { outcome := fun _ =>
    { Error := .ofWin32 ERROR_WINHTTP_TIMEOUT, bGotServerResponse := false } } {}).made.length =
      3 := by
  decide

end Retry
end ECSUtil

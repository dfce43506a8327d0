/-
# The progress of a send that failed

`SendRequestInternal` (`ECSUtil/ECSConnection.cpp`) around the loop that sends a stream: the
challenges of the server or a proxy, the response, and the two ways to return an error.  The
exception handler cancels the progress that was reported.  A response that is an error without a
body is returned past it: `failed_progress`.

The progress that was reported and the count that is kept of it go together, up to the wrapping of
an `int` (`Counted`).  So the cancelling report makes up for all that was reported, wherever it is
made.
-/

import Mathlib.Tactic.NormNum
import ECSUtil.Conn.Error
import ECSUtil.Stream.Send

namespace ECSUtil
namespace Stream

def HTTP_STATUS_DENIED : ℕ := 401
def HTTP_STATUS_PROXY_AUTH_REQ : ℕ := 407

/-- What the calls for one pass of the request return. -/
structure Pass where
  /-- The error that is thrown before the stream is sent. -/
  setup : Option DWORD := none
  turns : List Outcome
  /-- The status of the response, or the error of waiting for it. -/
  response : Except DWORD ℕ
  /-- The error of `WinHttpQueryAuthSchemes`. -/
  authSchemes : Option DWORD := none

/-- How the request is left: to the exception handler, or to its end. -/
inductive Exit
  | threw (Error : S3Error)
  | returned (Error : S3Error)
  deriving DecidableEq, Repr

/-- The request is sent again when it needs authorization, as often as it may be; `none` where it is
still running. -/
def sendPasses (cfg : Config) (iRetryAuth : ℕ) : List Pass → State → Option (State × Except DWORD ℕ)
  | [], _ => none
  | p :: passes, s =>
      match p.setup with
      | some dwError => some (s, .error dwError)
      | none =>
          match s.sendLoop cfg p.turns with
          | (_, .running) => none
          | (s, .threw dwError) => some (s, .error dwError)
          | (s, .finished) =>
              match p.response with
              | .error dwError => some (s, .error dwError)
              | .ok dwHttpError =>
                  if dwHttpError ≠ HTTP_STATUS_DENIED ∧ dwHttpError ≠ HTTP_STATUS_PROXY_AUTH_REQ then
                    some (s, .ok dwHttpError)
                  else
                    match p.authSchemes with
                    | some dwError => some (s, .error dwError)
                    | none =>
                        if iRetryAuth + 1 < 3 then sendPasses cfg (iRetryAuth + 1) passes s
                        else some (s, .ok dwHttpError)

/-- How the passes end is how it is left: with the error that was thrown, or after the response is
read, which is an error of reading it, or the size of the data.  An error with a body takes the body
into it (`errorBody`) and is thrown. -/
def exitOf (ended : Except DWORD ℕ) (body : Except S3Error ℕ) (errorBody : S3Error → S3Error) :
    Exit :=
  match ended, body with
  | .error dwError, _ => .threw (.ofWin32 dwError)
  | .ok _, .error Error => .threw Error
  | .ok dwHttpError, .ok dwLen =>
      let Error : S3Error := { dwHttpError := dwHttpError }
      if dwHttpError ≥ 400 ∧ dwLen ≠ 0 then .threw (errorBody Error) else .returned Error

/-- What is done where it is left: if the progress has been incremented, an exception cancels it out. -/
def State.leave (s : State) (cfg : Config) : Exit → State × S3Error
  | .threw Error =>
      (if cfg.bProgress ∧ s.iAccProgress ≠ 0 then
          { s.log (.progress (toInt (-s.iAccProgress))) with iAccProgress := 0 }
        else s, Error.setError)
  | .returned Error => (s, Error.setError)

/-- `SendRequestInternal`: the state it leaves, and the error it returns. -/
def sendStream (cfg : Config) (passes : List Pass) (body : Except S3Error ℕ)
    (errorBody : S3Error → S3Error) (queue : List StreamDataEntry) : Option (State × S3Error) :=
  (sendPasses cfg 0 passes { queue := queue }).map fun r =>
    r.1.leave cfg (exitOf r.2 body errorBody)

/-- What was reported, in all. -/
def reported (events : List Event) : ℤ :=
  (events.map fun
    | .progress i => i
    | _ => 0).sum

/-- Nothing is reported, in the end. -/
def NoProgress (s : State) : Prop := reported s.events = 0 ∧ s.iAccProgress = 0

/-- The response is an error without a body. -/
def EmptyError (ended : Except DWORD ℕ) (body : Except S3Error ℕ) : Prop :=
  ∃ dwHttpError ≥ 400, ended = .ok dwHttpError ∧ body = .ok 0

/-- `iAccProgress` is what was reported, as far as an `int` goes. -/
def Counted (s : State) : Prop := s.iAccProgress = toInt (reported s.events)

/-- What is reported is the sum of the reports. -/
theorem reported_append (l l' : List Event) : reported (l ++ l') = reported l + reported l' := by
  simp [reported]

/-- A report is reported once. -/
theorem reported_progress (i : ℤ) : reported [.progress i] = i := by
  simp [reported]

/-- Of a sum the wrapping may be done at the end. -/
theorem toInt_toInt_add (a b : ℤ) : toInt (toInt a + b) = toInt (a + b) := by
  unfold toInt
  omega

/-- Of a negative the wrapping may be done at the end. -/
theorem toInt_neg_toInt (a : ℤ) : toInt (-toInt a) = toInt (-a) := by
  unfold toInt
  omega

/-- A count that is in the range of an `int` is cancelled by its negative. -/
theorem toInt_neg_eq_iff {a : ℤ} : a + toInt (-a) = 0 ↔ -0x80000000 < a ∧ a ≤ 0x80000000 := by
  unfold toInt
  omega

variable {cfg : Config} {s s' : State}

/-- A report adds to the count what it reports. -/
theorem report_eq (hcb : cfg.bProgress = true) (n : ℕ) : s.report cfg n =
    { s with
      iAccProgress := toInt (s.iAccProgress + toInt n)
      events := s.events ++ [.progress (toInt n)] } :=
  if_pos hcb

/-- The count and the reports go together while neither changes. -/
theorem Counted.of_eq (h : Counted s) (hacc : s'.iAccProgress = s.iAccProgress)
    (hevents : s'.events = s.events) : Counted s' := by
  unfold Counted at h ⊢
  rw [hacc, hevents, h]

/-- The count and the reports go together while something else is noted down. -/
theorem Counted.log (h : Counted s) {e : Event} (he : reported [e] = 0) : Counted (s.log e) := by
  unfold Counted at h ⊢
  rw [State.log, reported_append, he, add_zero, h]

/-- The count and the reports go together over a report. -/
theorem Counted.report (hcb : cfg.bProgress = true) (h : Counted s) (n : ℕ) :
    Counted (s.report cfg n) := by
  have hacc : s.iAccProgress = toInt (reported s.events) := h
  rw [report_eq hcb]
  generalize toInt n = i
  show toInt (s.iAccProgress + i) = toInt (reported (s.events ++ [.progress i]))
  rw [reported_append, reported_progress, hacc, toInt_toInt_add]

/-- **Progress is counted**, by whatever the loop does. Each report of progress adds the same to the
sum that was reported and to the count that is kept; and nothing else changes either of them. -/
theorem kept_counted (hcb : cfg.bProgress = true) : Kept cfg Counted where
  frame := Counted.of_eq
  write h _ _ := h.log rfl
  report h n := h.report hcb n
  deduct h _ := h.log rfl

/-- The count and the reports go together over all passes of a send. -/
theorem Counted.sendPasses (hcb : cfg.bProgress = true) (h : Counted s) {passes : List Pass}
    {n : ℕ} {r : Except DWORD ℕ} (hs : sendPasses cfg n passes s = some (s', r)) : Counted s' := by
  induction passes generalizing n s with
  | nil => exact absurd hs (by simp [Stream.sendPasses])
  | cons p passes ih =>
      have hloop : Counted (s.sendLoop cfg p.turns).1 := (kept_counted hcb).sendLoop h p.turns
      -- the request is left in a state where progress is counted
      have hleft : ∀ {t : State} {x : Except DWORD ℕ}, Counted t → some (t, x) = some (s', r) →
          Counted s' := by
        rintro t x ht hx
        obtain ⟨rfl, -⟩ := Prod.mk.inj (Option.some.inj hx)
        exact ht
      unfold Stream.sendPasses at hs
      cases hsetup : p.setup with
      | some dwError =>
          rw [hsetup] at hs
          exact hleft h hs
      | none =>
          rw [hsetup] at hs
          dsimp only at hs
          cases hrun : s.sendLoop cfg p.turns with
          | mk s₁ status =>
              rw [hrun] at hs hloop
              cases status with
              | running => exact absurd hs (by simp)
              | threw dwError => exact hleft hloop hs
              | finished =>
                  dsimp only at hs
                  cases hresponse : p.response with
                  | error dwError =>
                      rw [hresponse] at hs
                      exact hleft hloop hs
                  | ok dwHttpError =>
                      rw [hresponse] at hs
                      dsimp only at hs
                      by_cases hauth : dwHttpError ≠ HTTP_STATUS_DENIED ∧
                          dwHttpError ≠ HTTP_STATUS_PROXY_AUTH_REQ
                      · rw [if_pos hauth] at hs
                        exact hleft hloop hs
                      rw [if_neg hauth] at hs
                      cases hschemes : p.authSchemes with
                      | some dwError =>
                          rw [hschemes] at hs
                          exact hleft hloop hs
                      | none =>
                          rw [hschemes] at hs
                          dsimp only at hs
                          by_cases hretry : n + 1 < 3
                          · rw [if_pos hretry] at hs
                            exact ih hloop hs
                          · rw [if_neg hretry] at hs
                            exact hleft hloop hs

/-- The handler cancels what was counted, as far as an `int` goes. -/
theorem leave_threw (hcb : cfg.bProgress = true) (h : Counted s) (Error : S3Error) :
    NoProgress (s.leave cfg (.threw Error)).1 ↔
      (-0x80000000 < reported s.events ∧ reported s.events ≤ 0x80000000) := by
  have hacc : s.iAccProgress = toInt (reported s.events) := h
  unfold State.leave NoProgress
  dsimp only
  by_cases hzero : s.iAccProgress = 0
  · rw [if_neg fun hc => hc.2 hzero]
    rw [hacc] at hzero
    constructor
    · rintro ⟨hsum, -⟩
      omega
    · rintro hrange
      refine ⟨?_, hacc.trans hzero⟩
      unfold toInt at hzero
      omega
  · rw [if_pos ⟨hcb, hzero⟩]
    show reported (s.events ++ [.progress (toInt (-s.iAccProgress))]) = 0 ∧ (0 : ℤ) = 0 ↔ _
    rw [reported_append, reported_progress, hacc, toInt_neg_toInt]
    constructor
    · rintro ⟨hsum, -⟩
      exact toInt_neg_eq_iff.mp hsum
    · intro hrange
      exact ⟨toInt_neg_eq_iff.mpr hrange, rfl⟩

/-- Where the handler is not run, what was reported stays. -/
theorem leave_returned (h : Counted s) (Error : S3Error) :
    NoProgress (s.leave cfg (.returned Error)).1 ↔ reported s.events = 0 := by
  have hacc : s.iAccProgress = toInt (reported s.events) := h
  unfold State.leave NoProgress
  constructor
  · exact And.left
  · intro hsum
    refine ⟨hsum, ?_⟩
    rw [hacc, hsum]
    rfl

/-- An error is thrown, except for one without a body. -/
theorem exitOf_threw {ended : Except DWORD ℕ} {body : Except S3Error ℕ}
    {errorBody : S3Error → S3Error} (herr : (s.leave cfg (exitOf ended body errorBody)).2.ifError)
    (hbody : ¬ EmptyError ended body) : ∃ Error, exitOf ended body errorBody = .threw Error := by
  cases ended with
  | error dwError => exact ⟨_, rfl⟩
  | ok dwHttpError =>
      cases body with
      | error Error => exact ⟨_, rfl⟩
      | ok dwLen =>
          by_cases hthrown : dwHttpError ≥ 400 ∧ dwLen ≠ 0
          · exact ⟨_, if_pos hthrown⟩
          · have hret : exitOf (.ok dwHttpError) (.ok dwLen) errorBody =
                .returned { dwHttpError := dwHttpError } := if_neg hthrown
            rw [hret] at herr
            have hstatus : dwHttpError ≥ 400 := by
              by_contra hlow
              have hok : S3Error.ifError { dwHttpError := dwHttpError } = false := by
                simp [S3Error.ifError, ERROR_SUCCESS]
                omega
              have hno := S3Error.ifError_setError { dwHttpError := dwHttpError }
              exact absurd (hno.symm.trans herr) (by rw [hok]; exact Bool.false_ne_true)
            have hlen : dwLen = 0 := by
              by_contra hlen
              exact hthrown ⟨hstatus, hlen⟩
            exact absurd ⟨dwHttpError, hstatus, rfl, by rw [hlen]⟩ hbody

/-- **A send that fails reports no progress, exactly when** the progress it had reported fits in
`iAccProgress`, with the sign changed, and the error is not one without a body, **or** it had reported
none. -/
theorem failed_progress (hcb : cfg.bProgress = true) (passes : List Pass) (body : Except S3Error ℕ)
    (errorBody : S3Error → S3Error) (queue : List StreamDataEntry) {ended : Except DWORD ℕ}
    {left : State × S3Error} (hended : sendPasses cfg 0 passes { queue := queue } = some (s, ended))
    (hleft : sendStream cfg passes body errorBody queue = some left)
    (herr : left.2.ifError = true) :
    NoProgress left.1 ↔
      (¬ EmptyError ended body ∧
        -0x80000000 < reported s.events ∧ reported s.events ≤ 0x80000000) ∨
      reported s.events = 0 := by
  unfold sendStream at hleft
  rw [hended] at hleft
  obtain rfl : s.leave cfg (exitOf ended body errorBody) = left := Option.some.inj hleft
  have hcounted : Counted s := by
    have hstart : Counted { queue := queue } := rfl
    exact hstart.sendPasses hcb hended
  by_cases hbody : EmptyError ended body
  · obtain ⟨dwHttpError, hstatus, rfl, rfl⟩ := hbody
    have hret : exitOf (.ok dwHttpError) (.ok 0) errorBody =
        .returned { dwHttpError := dwHttpError } := if_neg fun h => h.2 rfl
    rw [hret, leave_returned hcounted]
    exact ⟨.inr, fun h => h.resolve_left fun hno => hno.1 ⟨dwHttpError, hstatus, rfl, rfl⟩⟩
  · obtain ⟨Error, hthrew⟩ := exitOf_threw herr hbody
    rw [hthrew, leave_threw hcb hcounted]
    constructor
    · intro hrange
      exact .inl ⟨hbody, hrange⟩
    · rintro (⟨-, hrange⟩ | hzero)
      · exact hrange
      · omega

/-- Three bytes are written, and the send is aborted before more come. -/
def abortedPass : Pass where
  turns :=
    [{ write := fun data => .ok data.length },
      { wait := some ERROR_OPERATION_ABORTED, write := fun data => .ok data.length }]
  response := .ok 200

/-- A send that is aborted after three bytes. The exception handler reports minus three, so the
progress adds up to nothing. -/
theorem failed_progress_aborted : ∃ left,
    sendStream {} [abortedPass] (.ok 0) id [{ data := [1, 2, 3] }] = some left ∧
    left.1.events = [.write [1, 2, 3] (some 3), .progress 3, .progress (-3)] ∧
    NoProgress left.1 := by
  let s : State :=
    { ullCurDataSent := 3, iAccProgress := 3, events := [.write [1, 2, 3] (some 3), .progress 3] }
  have hended : sendPasses {} 0 [abortedPass] { queue := [{ data := [1, 2, 3] }] } =
      some (s, .error ERROR_OPERATION_ABORTED) := rfl
  refine ⟨_, rfl, by decide, ?_⟩
  refine (failed_progress rfl [abortedPass] (.ok 0) id _ hended rfl (by decide)).mpr (.inl ⟨?_, ?_⟩)
  · rintro ⟨dwHttpError, -, hok, -⟩
    exact absurd hok (by simp)
  · decide

/-- A status of 503 without a body keeps the progress of the three bytes that were sent. The error
is returned past the handler, so the three bytes are never taken back. -/
theorem failed_progress_kept : ∃ left,
    sendStream {} [{ turns := [{ write := fun data => .ok data.length }], response := .ok 503 }]
      (.ok 0) id [{ data := [1, 2, 3], bLast := true }] = some left ∧
    left.2.ifError = true ∧ reported left.1.events = 3 ∧ left.1.iAccProgress = 3 ∧
    ¬ NoProgress left.1 := by
  refine ⟨_, rfl, by decide, by decide, by decide, ?_⟩
  rintro ⟨hsum, -⟩
  exact absurd hsum (by decide)

end Stream
end ECSUtil

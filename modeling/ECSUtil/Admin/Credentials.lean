/-
# The credentials of the admin calls

`ECSAdminLogin`, `ECSAdminLogout`, the other admin calls and the ordinary requests of one thread
(`ECSUtil/ECSConnection.cpp`): the loop of `SendRequestInternal` that sends a request again when it
was answered by an authentication challenge, `ChooseAuthScheme`, and the fields of
`CECSConnectionState` (`ECSUtil/ECSConnection.h`) that it uses.

The scheme, the user and the password stay in the state of the thread, and the loop does not look at
the kind of the request.  What it does for ordinary requests does not depend on who logged in if and
only if none of them comes to the credentials after a login while the state knows a scheme:
`data_independent_iff`.

The proof compares two states that differ in the user and the password alone, and in nothing before
a login (`Agree`).  Each function of the loop keeps this, from the answer to one request
(`Agree.answered`) over the tries of an exchange to the retries of a request (`Agree.sent`), and
makes the same calls where it does not come to the credentials; so all ordinary requests of a thread
make the same calls (`dataCalls_eq`).  For the other direction, a request that is not quiet shows
the user of the login (`shows_send`), so another user would have made other calls.
-/

import Mathlib.Data.Fintype.EquivFin
import Mathlib.Data.List.Forall2
import Mathlib.Data.Nat.Notation
import ECSUtil.Conn.Error
import ECSUtil.Conn.Text

namespace ECSUtil
namespace Credentials

def WINHTTP_AUTH_SCHEME_BASIC : DWORD := 1
def WINHTTP_AUTH_SCHEME_NTLM : DWORD := 2
def WINHTTP_AUTH_SCHEME_PASSPORT : DWORD := 4
def WINHTTP_AUTH_SCHEME_DIGEST : DWORD := 8
def WINHTTP_AUTH_SCHEME_NEGOTIATE : DWORD := 16

def HTTP_STATUS_DENIED : ℕ := 401
def HTTP_STATUS_PROXY_AUTH_REQ : ℕ := 407

/-- `ChooseAuthScheme`. -/
def chooseAuthScheme (dwSupportedSchemes : DWORD) : DWORD :=
  if dwSupportedSchemes &&& WINHTTP_AUTH_SCHEME_NEGOTIATE ≠ 0 then WINHTTP_AUTH_SCHEME_NEGOTIATE
  else if dwSupportedSchemes &&& WINHTTP_AUTH_SCHEME_NTLM ≠ 0 then WINHTTP_AUTH_SCHEME_NTLM
  else if dwSupportedSchemes &&& WINHTTP_AUTH_SCHEME_PASSPORT ≠ 0 then WINHTTP_AUTH_SCHEME_PASSPORT
  else if dwSupportedSchemes &&& WINHTTP_AUTH_SCHEME_DIGEST ≠ 0 then WINHTTP_AUTH_SCHEME_DIGEST
  else if dwSupportedSchemes &&& WINHTTP_AUTH_SCHEME_BASIC ≠ 0 then WINHTTP_AUTH_SCHEME_BASIC
  else 0

/-- The proxy of the connection. -/
structure Proxy where
  sProxyUser : CString := []
  sProxyPassword : CString := []
  deriving DecidableEq, Repr

/-- `CECSConnectionState`, as far as it has to do with authentication. -/
structure Auth where
  dwProxyAuthScheme : DWORD := 0
  dwAuthScheme : DWORD := 0
  sHTTPUser : CString := []
  sHTTPPassword : CString := []
  sX_SDS_AUTH_TOKEN : CString := []
  deriving DecidableEq, Repr

inductive Target
  | server
  | proxy
  deriving DecidableEq, Repr

/-- The calls that hand over credentials or headers. -/
inductive WinHttp
  /-- `WinHttpSetOption` with the user and the password of the proxy. -/
  | setProxyOption (sProxyUser sProxyPassword : CString)
  | setCredentials (target : Target) (scheme : DWORD) (sUser sPassword : CString)
  | sendRequest (sHeaders : CString)
  deriving DecidableEq, Repr

/-- What becomes of an attempt. -/
inductive Answer
  /-- The last of so many calls fails, or what comes after them. -/
  | failed (calls : ℕ)
  /-- The status, and what `WinHttpQueryAuthSchemes` tells if it has to be asked. -/
  | status (dwHttpError : ℕ) (dwSupportedSchemes : Option DWORD)
  deriving DecidableEq, Repr

/-- The request is sent again. -/
def Answer.denied : Answer → Bool
  | .status n (some _) => n = HTTP_STATUS_DENIED || n = HTTP_STATUS_PROXY_AUTH_REQ
  | _ => false

/-- The calls that are made of those that an attempt consists of. -/
def Answer.made (a : Answer) (calls : List WinHttp) : List WinHttp :=
  match a with
  | .failed n => calls.take n
  | .status _ _ => calls

/-- More than `n` calls are made. -/
def Answer.reaches (n : ℕ) : Answer → Bool
  | .failed k => n < k
  | .status _ _ => true

namespace Auth

/-- The authorization of the proxy, if it is known to be necessary. -/
def proxyCalls (s : Auth) (proxy : Proxy) : List WinHttp :=
  if s.dwProxyAuthScheme ≠ 0 ∧ proxy.sProxyUser ≠ [] then
    if s.dwProxyAuthScheme = WINHTTP_AUTH_SCHEME_PASSPORT then
      [.setProxyOption proxy.sProxyUser proxy.sProxyPassword]
    else [.setCredentials .proxy s.dwProxyAuthScheme proxy.sProxyUser proxy.sProxyPassword]
  else []

/-- The authorization of the server. -/
def serverCalls (s : Auth) : List WinHttp :=
  if s.dwAuthScheme ≠ 0 ∧ s.sHTTPUser ≠ [] then
    [.setCredentials .server s.dwAuthScheme s.sHTTPUser s.sHTTPPassword]
  else []

/-- One attempt. -/
def attempt (s : Auth) (proxy : Proxy) (sHeaders : CString) (a : Answer) : List WinHttp :=
  a.made (s.proxyCalls proxy ++ (s.serverCalls ++ [.sendRequest sHeaders]))

/-- The state after the answer. -/
def answered (s : Auth) : Answer → Auth
  | .status n (some dwSupportedSchemes) =>
      if n = HTTP_STATUS_PROXY_AUTH_REQ then
        { s with dwProxyAuthScheme := chooseAuthScheme dwSupportedSchemes }
      else if n = HTTP_STATUS_DENIED then
        { s with dwAuthScheme := chooseAuthScheme dwSupportedSchemes }
      else s
  | _ => s

/-- The loop over the attempts, of which there are at most so many: the calls. -/
def exchange (proxy : Proxy) (sHeaders : CString) : ℕ → List Answer → Auth → List WinHttp
  | 0, _, _ => []
  | _ + 1, [], _ => []
  | n + 1, a :: as, s =>
      s.attempt proxy sHeaders a ++
        if a.denied then exchange proxy sHeaders n as (s.answered a) else []

/-- The loop over the attempts: the state. -/
def exchanged : ℕ → List Answer → Auth → Auth
  | 0, _, s => s
  | _ + 1, [], s => s
  | n + 1, a :: as, s => if a.denied then exchanged n as (s.answered a) else s.answered a

end Auth

/-- One run of `SendRequestInternal`: the headers in the order of their map, the signature, and the
answers to the attempts. -/
structure Try where
  Headers : List (CString × CString)
  sSignature : CString := []
  answers : List Answer
  deriving DecidableEq, Repr

/-- The lines of the headers. -/
def headerLines (Headers : List (CString × CString)) : CString :=
  Headers.flatMap fun h => h.1 ++ ':' :: h.2 ++ ['\r', '\n']

/-- The text of the headers of an ordinary request. -/
def Try.signed (t : Try) : CString :=
  headerLines t.Headers ++ "Authorization: ".toList ++ t.sSignature ++ ['\r', '\n']

/-- That of an admin call, with the token as the last header if it has one. -/
def Try.unsigned (t : Try) (token : List CString) : CString :=
  headerLines (t.Headers ++ token.map fun sToken => ("X-SDS-AUTH-TOKEN".toList, sToken))

/-- What the thread does.  `SendRequest` runs `SendRequestInternal` once for each of the tries. -/
inductive Act
  /-- `ECSAdminLogin`; `sToken` is the token that a successful one was answered with. -/
  | login (pszUser pszPassword : CString) (tries : List Try) (sToken : Option CString)
  /-- `ECSAdminLogout`. -/
  | logout (tries : List Try) (bOk : Bool)
  /-- Another admin call. -/
  | admin (tries : List Try)
  /-- An ordinary request. -/
  | request (tries : List Try)
  deriving DecidableEq, Repr

namespace Auth

/-- The calls of the tries, each with its own headers. -/
def send (proxy : Proxy) (text : Try → CString) : List Try → Auth → List WinHttp
  | [], _ => []
  | t :: ts, s =>
      exchange proxy (text t) 3 t.answers s ++ send proxy text ts (exchanged 3 t.answers s)

/-- The state after the tries. -/
def sent : List Try → Auth → Auth
  | [], s => s
  | t :: ts, s => sent ts (exchanged 3 t.answers s)

/-- `ECSAdminLogin` writes the user and the password. -/
def setUser (s : Auth) (pszUser pszPassword : CString) : Auth :=
  { s with sHTTPUser := pszUser, sHTTPPassword := pszPassword }

/-- The calls that are made. -/
def calls (s : Auth) (proxy : Proxy) : Act → List WinHttp
  | .login pszUser pszPassword tries _ =>
      send proxy (fun t => t.unsigned []) tries (s.setUser pszUser pszPassword)
  | .logout tries _ => send proxy (fun t => t.unsigned [s.sX_SDS_AUTH_TOKEN]) tries s
  | .admin tries => send proxy (fun t => t.unsigned [s.sX_SDS_AUTH_TOKEN]) tries s
  | .request tries => send proxy Try.signed tries s

/-- The state afterwards. -/
def next (s : Auth) : Act → Auth
  | .login pszUser pszPassword tries sToken =>
      let s' := sent tries (s.setUser pszUser pszPassword)
      { s' with sX_SDS_AUTH_TOKEN := sToken.getD s'.sX_SDS_AUTH_TOKEN }
  | .logout tries bOk =>
      let s' := sent tries s
      { s' with sX_SDS_AUTH_TOKEN := if bOk then [] else s'.sX_SDS_AUTH_TOKEN }
  | .admin tries => sent tries s
  | .request tries => sent tries s

end Auth

/-- The request is an ordinary one. -/
def Act.ordinary : Act → Bool
  | .request _ => true
  | _ => false

def Act.logsIn : Act → Bool
  | .login _ _ _ _ => true
  | _ => false

/-- The calls of each ordinary request of a run. -/
def dataCalls (proxy : Proxy) : Auth → List Act → List (List WinHttp)
  | _, [] => []
  | s, a :: acts =>
      if a.ordinary then s.calls proxy a :: dataCalls proxy (s.next a) acts
      else dataCalls proxy (s.next a) acts

/-- Two runs differ in the user names and the passwords alone. -/
inductive Same : Act → Act → Prop
  | refl (a : Act) : Same a a
  | login (pszUser pszPassword pszUser' pszPassword' : CString) (tries : List Try)
      (sToken : Option CString) :
      Same (.login pszUser pszPassword tries sToken) (.login pszUser' pszPassword' tries sToken)

/-- No attempt comes to the credentials of the server while there is a scheme. -/
def QuietExchange (proxy : Proxy) : ℕ → List Answer → Auth → Prop
  | 0, _, _ => True
  | _ + 1, [], _ => True
  | n + 1, a :: as, s =>
      (s.dwAuthScheme ≠ 0 → a.reaches (s.proxyCalls proxy).length = false) ∧
        (a.denied = true → QuietExchange proxy n as (s.answered a))

/-- No try does. -/
def QuietSend (proxy : Proxy) : List Try → Auth → Prop
  | [], _ => True
  | t :: ts, s => QuietExchange proxy 3 t.answers s ∧ QuietSend proxy ts (Auth.exchanged 3 t.answers s)

/-- No ordinary request does after a login. -/
def Quiet (proxy : Proxy) : Bool → Auth → List Act → Prop
  | _, _, [] => True
  | bLogin, s, a :: acts =>
      (bLogin = true → ∀ tries, a = .request tries → QuietSend proxy tries s) ∧
        Quiet proxy (bLogin || a.logsIn) (s.next a) acts

/-! ## Two runs -/

/-- Two states differ in the user and the password alone, and in nothing before a login. -/
structure Agree (bLogin : Bool) (s s' : Auth) : Prop where
  dwProxyAuthScheme : s.dwProxyAuthScheme = s'.dwProxyAuthScheme
  dwAuthScheme : s.dwAuthScheme = s'.dwAuthScheme
  sX_SDS_AUTH_TOKEN : s.sX_SDS_AUTH_TOKEN = s'.sX_SDS_AUTH_TOKEN
  sHTTPUser : bLogin = false → s.sHTTPUser = [] ∧ s'.sHTTPUser = []

section

variable {proxy : Proxy} {bLogin : Bool} {s s' : Auth} {a : Answer} {n : ℕ} {as : List Answer}
  {sHeaders sUser : CString} {text : Try → CString} {tries : List Try} {acts acts' : List Act}

/-- What a state does for a proxy does not depend on a login. -/
theorem Agree.proxyCalls (h : Agree bLogin s s') (proxy : Proxy) :
    s.proxyCalls proxy = s'.proxyCalls proxy := by
  unfold Auth.proxyCalls
  rw [h.dwProxyAuthScheme]

/-- An answer changes the schemes alone. -/
theorem Auth.answered_user (s : Auth) (a : Answer) : (s.answered a).sHTTPUser = s.sHTTPUser := by
  unfold Auth.answered
  split
  · split_ifs <;> rfl
  · rfl

/-- An answer leaves states alike that were alike before it. -/
theorem Agree.answered (h : Agree bLogin s s') (a : Answer) :
    Agree bLogin (s.answered a) (s'.answered a) := by
  obtain ⟨hproxy, hscheme, htoken, huser⟩ := h
  refine ⟨?_, ?_, ?_, ?_⟩
  · unfold Auth.answered
    split
    · split_ifs
      · rfl
      · exact hproxy
      · exact hproxy
    · exact hproxy
  · unfold Auth.answered
    split
    · split_ifs
      · exact hscheme
      · rfl
      · exact hscheme
    · exact hscheme
  · unfold Auth.answered
    split
    · split_ifs <;> exact htoken
    · exact htoken
  · rwa [Auth.answered_user, Auth.answered_user]

/-- An exchange does not touch the user, whatever the answers are. -/
theorem Auth.exchanged_user (n : ℕ) (as : List Answer) (s : Auth) :
    (Auth.exchanged n as s).sHTTPUser = s.sHTTPUser := by
  induction n generalizing as s with
  | zero => rfl
  | succ n ih =>
      cases as with
      | nil => rfl
      | cons a as =>
          unfold Auth.exchanged
          split_ifs
          · exact (ih as _).trans (s.answered_user a)
          · exact s.answered_user a

/-- States that are alike are so after an exchange, by induction on the tries that are left. -/
theorem Agree.exchanged (h : Agree bLogin s s') (n : ℕ) (as : List Answer) :
    Agree bLogin (Auth.exchanged n as s) (Auth.exchanged n as s') := by
  induction n generalizing as s s' with
  | zero => exact h
  | succ n ih =>
      cases as with
      | nil => exact h
      | cons a as =>
          unfold Auth.exchanged
          split_ifs
          · exact ih (h.answered a) as
          · exact h.answered a

/-- Nor do the retries of a request touch the user. -/
theorem Auth.sent_user (tries : List Try) (s : Auth) :
    (Auth.sent tries s).sHTTPUser = s.sHTTPUser := by
  induction tries generalizing s with
  | nil => rfl
  | cons t ts ih => exact (ih _).trans (Auth.exchanged_user 3 t.answers s)

/-- States that are alike are so after all retries of a request. -/
theorem Agree.sent (h : Agree bLogin s s') (tries : List Try) :
    Agree bLogin (Auth.sent tries s) (Auth.sent tries s') := by
  induction tries generalizing s s' with
  | nil => exact h
  | cons t ts ih => exact ih (h.exchanged 3 t.answers)

/-- **The states after two runs** that differ in who logs in. After a login the users may differ,
and the other settings are the same in both. -/
theorem Agree.next {a a' : Act} (h : Agree bLogin s s') (hsame : Same a a') :
    Agree (bLogin || a.logsIn) (s.next a) (s'.next a') := by
  have hlogin : ∀ u p u' p' tries (sToken : Option CString),
      Agree true (s.next (.login u p tries sToken)) (s'.next (.login u' p' tries sToken)) := by
    intro u p u' p' tries sToken
    have hset : Agree true (s.setUser u p) (s'.setUser u' p') :=
      ⟨h.1, h.2, h.3, fun hno => Bool.noConfusion hno⟩
    obtain ⟨hproxy, hscheme, htoken, -⟩ := hset.sent tries
    exact ⟨hproxy, hscheme, congrArg sToken.getD htoken, fun hno => Bool.noConfusion hno⟩
  cases hsame with
  | login u p u' p' tries sToken =>
      show Agree (bLogin || true) _ _
      rw [Bool.or_true]
      exact hlogin u p u' p' tries sToken
  | refl =>
      cases a with
      | login u p tries sToken =>
          show Agree (bLogin || true) _ _
          rw [Bool.or_true]
          exact hlogin u p u p tries sToken
      | logout tries bOk =>
          obtain ⟨hproxy, hscheme, htoken, huser⟩ := h.sent tries
          show Agree (bLogin || false) _ _
          rw [Bool.or_false]
          refine ⟨hproxy, hscheme, ?_, huser⟩
          show (if bOk then [] else _) = if bOk then [] else _
          rw [htoken]
      | admin tries => exact (Bool.or_false bLogin).symm ▸ h.sent tries
      | request tries => exact (Bool.or_false bLogin).symm ▸ h.sent tries

/-! ## Quiet runs -/

/-- Without a scheme no credentials are set. -/
theorem serverCalls_of_scheme (h : s.dwAuthScheme = 0) : s.serverCalls = [] :=
  if_neg fun hno => hno.1 h

/-- Without a user no credentials are set, either. -/
theorem serverCalls_of_user (h : s.sHTTPUser = []) : s.serverCalls = [] :=
  if_neg fun hno => hno.2 h

/-- The calls up to those of the proxy. -/
theorem made_of_not_reaches {l l' : List WinHttp} (h : a.reaches l.length = false) :
    a.made (l ++ l') = a.made l := by
  cases a with
  | failed k =>
      have hle : k ≤ l.length := Nat.le_of_not_lt (of_decide_eq_false h)
      exact List.take_append_of_le_length hle
  | status => exact absurd h (by simp [Answer.reaches])

/-- **An attempt** of a quiet request does not depend on the user. The user is given to WinHttp only
by a call that a quiet request does not reach. -/
theorem Agree.attempt (h : Agree bLogin s s')
    (hq : bLogin = true → s.dwAuthScheme ≠ 0 → a.reaches (s.proxyCalls proxy).length = false) :
    s.attempt proxy sHeaders a = s'.attempt proxy sHeaders a := by
  unfold Auth.attempt
  rw [← h.proxyCalls proxy]
  by_cases hscheme : s.dwAuthScheme = 0
  · rw [serverCalls_of_scheme hscheme, serverCalls_of_scheme (h.dwAuthScheme ▸ hscheme)]
  · cases bLogin with
    | false =>
        obtain ⟨huser, huser'⟩ := h.sHTTPUser rfl
        rw [serverCalls_of_user huser, serverCalls_of_user huser']
    | true => rw [made_of_not_reaches (hq rfl hscheme), made_of_not_reaches (hq rfl hscheme)]

/-- States that are alike make the same calls in an exchange; after a login it has to be a quiet
one, in which the credentials are not looked at. -/
theorem Agree.exchange (h : Agree bLogin s s') (hq : bLogin = true → QuietExchange proxy n as s) :
    Auth.exchange proxy sHeaders n as s = Auth.exchange proxy sHeaders n as s' := by
  induction n generalizing as s s' with
  | zero => rfl
  | succ n ih =>
      cases as with
      | nil => rfl
      | cons a as =>
          unfold Auth.exchange
          rw [h.attempt fun hl => (hq hl).1]
          cases hd : a.denied with
          | false => rfl
          | true => rw [ih (h.answered a) fun hl => (hq hl).2 hd]

/-- States that are alike make the same calls for a request and its retries. -/
theorem Agree.send (h : Agree bLogin s s') (hq : bLogin = true → QuietSend proxy tries s) :
    Auth.send proxy text tries s = Auth.send proxy text tries s' := by
  induction tries generalizing s s' with
  | nil => rfl
  | cons t ts ih =>
      unfold Auth.send
      rw [h.exchange fun hl => (hq hl).1, ih (h.exchanged 3 t.answers) fun hl => (hq hl).2]

/-- **States that are alike make the same calls for ordinary requests** in all acts of a thread, if
these are quiet. -/
theorem dataCalls_eq (h : Agree bLogin s s') (hq : Quiet proxy bLogin s acts)
    (hsame : List.Forall₂ Same acts acts') : dataCalls proxy s acts = dataCalls proxy s' acts' := by
  induction hsame generalizing bLogin s s' with
  | nil => rfl
  | @cons a a' acts acts' ha _ ih =>
      have hrest := ih (h.next ha) hq.2
      cases ha with
      | login => exact hrest
      | refl =>
          cases a with
          | request tries =>
              have hcalls : s.calls proxy (.request tries) = s'.calls proxy (.request tries) :=
                h.send fun hl => hq.1 hl tries rfl
              show s.calls proxy _ :: dataCalls proxy _ _ = s'.calls proxy _ :: dataCalls proxy _ _
              rw [hcalls, hrest]
          | _ => exact hrest

/-! ## Runs that are not quiet -/

/-- The credentials of a user go to the server. -/
def Shows (sUser : CString) (calls : List WinHttp) : Prop :=
  ∃ scheme sPassword, WinHttp.setCredentials .server scheme sUser sPassword ∈ calls

/-- What a list of calls shows, a longer one does. -/
theorem Shows.mono {l l' : List WinHttp} (h : Shows sUser l) (hsub : l ⊆ l') : Shows sUser l' := by
  obtain ⟨scheme, sPassword, hmem⟩ := h
  exact ⟨scheme, sPassword, hsub hmem⟩

/-- An attempt that comes to the credentials of the server. -/
theorem shows_attempt (hscheme : s.dwAuthScheme ≠ 0) (huser : s.sHTTPUser ≠ [])
    (hr : a.reaches (s.proxyCalls proxy).length = true) :
    Shows s.sHTTPUser (s.attempt proxy sHeaders a) := by
  refine ⟨s.dwAuthScheme, s.sHTTPPassword, ?_⟩
  have hserver : s.serverCalls =
      [.setCredentials .server s.dwAuthScheme s.sHTTPUser s.sHTTPPassword] :=
    if_pos ⟨hscheme, huser⟩
  unfold Auth.attempt
  rw [hserver]
  cases a with
  | failed k =>
      have hlt : (s.proxyCalls proxy).length < k := of_decide_eq_true hr
      obtain ⟨d, rfl⟩ : ∃ d, k = (s.proxyCalls proxy).length + (d + 1) :=
        ⟨k - (s.proxyCalls proxy).length - 1, by omega⟩
      show _ ∈ List.take _ _
      rw [List.take_length_add_append]
      exact List.mem_append_right _ List.mem_cons_self
  | status => exact List.mem_append_right _ List.mem_cons_self

/-- An exchange that is not quiet shows the user: it comes to the credentials with a scheme. -/
theorem shows_exchange (huser : s.sHTTPUser ≠ []) (hq : ¬QuietExchange proxy n as s) :
    Shows s.sHTTPUser (Auth.exchange proxy sHeaders n as s) := by
  induction n generalizing as s with
  | zero => exact absurd trivial hq
  | succ n ih =>
      cases as with
      | nil => exact absurd trivial hq
      | cons a as =>
          unfold Auth.exchange
          rcases not_and_or.1 hq with hno | hno
          · obtain ⟨hscheme, hr⟩ := Classical.not_imp.1 hno
            exact (shows_attempt hscheme huser (Bool.eq_true_of_not_eq_false hr)).mono
              (List.subset_append_left _ _)
          · obtain ⟨hd, hrest⟩ := Classical.not_imp.1 hno
            have hshow := ih (s.answered_user a ▸ huser) hrest
            rw [s.answered_user a] at hshow
            rw [if_pos hd]
            exact hshow.mono (List.subset_append_right _ _)

/-- So does a request that is not quiet, in the try that is not. -/
theorem shows_send (huser : s.sHTTPUser ≠ []) (hq : ¬QuietSend proxy tries s) :
    Shows s.sHTTPUser (Auth.send proxy text tries s) := by
  induction tries generalizing s with
  | nil => exact absurd trivial hq
  | cons t ts ih =>
      unfold Auth.send
      rcases not_and_or.1 hq with hno | hno
      · exact (shows_exchange huser hno).mono (List.subset_append_left _ _)
      · have hshow := ih ((Auth.exchanged_user 3 t.answers s).symm ▸ huser) hno
        rw [Auth.exchanged_user 3 t.answers s] at hshow
        exact hshow.mono (List.subset_append_right _ _)

/-- What the requests of two states that agree come to. -/
theorem Agree.quietExchange (h : Agree bLogin s s') (hq : QuietExchange proxy n as s') :
    QuietExchange proxy n as s := by
  induction n generalizing as s s' with
  | zero => trivial
  | succ n ih =>
      cases as with
      | nil => trivial
      | cons a as =>
          obtain ⟨hfirst, hrest⟩ := hq
          rw [← h.dwAuthScheme, ← h.proxyCalls proxy] at hfirst
          exact ⟨hfirst, fun hd => ih (h.answered a) (hrest hd)⟩

/-- Whether a request is quiet depends on what is alike. -/
theorem Agree.quietSend (h : Agree bLogin s s') (hq : QuietSend proxy tries s') :
    QuietSend proxy tries s := by
  induction tries generalizing s s' with
  | nil => trivial
  | cons t ts ih => exact ⟨h.quietExchange hq.1, ih (h.exchanged 3 t.answers) hq.2⟩

/-- Another user logs in. -/
def Act.withUser (sUser : CString) : Act → Act
  | .login _ pszPassword tries sToken => .login sUser pszPassword tries sToken
  | a => a

/-- An act with another user is the same to the ordinary requests. -/
theorem same_withUser (sUser : CString) (a : Act) : Same a (a.withUser sUser) := by
  cases a with
  | login => exact .login ..
  | _ => exact .refl _

/-- The user of a state after an action. -/
theorem next_withUser (hu : bLogin = true → s'.sHTTPUser = sUser) (a : Act)
    (hl : (bLogin || a.logsIn) = true) : (s'.next (a.withUser sUser)).sHTTPUser = sUser := by
  cases a with
  | login u p tries sToken => exact Auth.sent_user tries (s'.setUser sUser p)
  | logout tries bOk => exact (Auth.sent_user tries s').trans (hu ((Bool.or_false _).symm.trans hl))
  | admin tries => exact (Auth.sent_user tries s').trans (hu ((Bool.or_false _).symm.trans hl))
  | request tries => exact (Auth.sent_user tries s').trans (hu ((Bool.or_false _).symm.trans hl))

/-- **A run that is not quiet** shows who logged in. The step that is not quiet is one request whose
server asks for a user, and the calls of its attempt name the one that logged in. -/
theorem shows_dataCalls (h : Agree bLogin s s') (huser : sUser ≠ [])
    (hu : bLogin = true → s'.sHTTPUser = sUser) (hq : ¬Quiet proxy bLogin s acts) :
    ∃ l ∈ dataCalls proxy s' (acts.map (Act.withUser sUser)), Shows sUser l := by
  induction acts generalizing bLogin s s' with
  | nil => exact absurd trivial hq
  | cons a acts ih =>
      have hrest := ih (h.next (same_withUser sUser a)) fun hl => next_withUser hu a hl
      have hlater : ∀ l ∈ dataCalls proxy (s'.next (a.withUser sUser))
          (acts.map (Act.withUser sUser)),
          l ∈ dataCalls proxy s' ((a :: acts).map (Act.withUser sUser)) := by
        intro l hl
        show l ∈ if (a.withUser sUser).ordinary then _ :: _ else _
        split_ifs
        · exact List.mem_cons_of_mem _ hl
        · exact hl
      rcases not_and_or.1 hq with hno | hno
      · -- it is this request
        obtain ⟨hl, hno⟩ := Classical.not_imp.1 hno
        obtain ⟨tries, hno⟩ := not_forall.1 hno
        obtain ⟨rfl, hno⟩ := Classical.not_imp.1 hno
        refine ⟨_, List.mem_cons_self, ?_⟩
        have hshow : Shows s'.sHTTPUser (Auth.send proxy Try.signed tries s') :=
          shows_send (hu hl ▸ huser) fun hq' => hno fun _ => h.quietSend hq'
        rwa [hu hl] at hshow
      · obtain ⟨l, hl, hshow⟩ := hrest hno
        exact ⟨l, hlater l hl, hshow⟩

end

/-- The users in some calls. -/
def users (calls : List WinHttp) : List CString :=
  calls.filterMap fun c => match c with
    | .setCredentials _ _ sUser _ => some sUser
    | _ => none

/-- At first there is nothing to differ in. -/
theorem agree_init : Agree false {} {} := ⟨rfl, rfl, rfl, fun _ => ⟨rfl, rfl⟩⟩

/-- **The credentials of the admin calls and the ordinary requests.**  In a run of logins, admin calls,
logouts and ordinary requests of a thread, with any answers, the credentials and the headers of the
ordinary requests do not depend on the user names and passwords of the logins if and only if no ordinary
request comes to the credentials of the server, after a login, while there is a scheme. -/
theorem data_independent_iff (proxy : Proxy) (acts : List Act) :
    (∀ acts', List.Forall₂ Same acts acts' → dataCalls proxy {} acts' = dataCalls proxy {} acts) ↔
      Quiet proxy false {} acts := by
  refine ⟨fun hind => ?_, fun hq acts' hsame => (dataCalls_eq agree_init hq hsame).symm⟩
  by_contra hq
  -- somebody logs in who does not occur
  obtain ⟨sUser, hfresh⟩ := Infinite.exists_notMem_finset
    ([] :: users (dataCalls proxy {} acts).flatten).toFinset
  rw [List.mem_toFinset, List.mem_cons, not_or] at hfresh
  have hshows : ∃ l ∈ dataCalls proxy {} (acts.map (Act.withUser sUser)), Shows sUser l :=
    shows_dataCalls agree_init hfresh.1 (fun hno => Bool.noConfusion hno) hq
  obtain ⟨l, hl, scheme, sPassword, hmem⟩ := hshows
  have hsame : List.Forall₂ Same acts (acts.map (Act.withUser sUser)) :=
    List.forall₂_map_right_iff.2 (List.forall₂_same.2 fun a _ => same_withUser sUser a)
  rw [hind _ hsame] at hl
  exact hfresh.2 (List.mem_filterMap.2 ⟨_, List.mem_flatten.2 ⟨l, hl, hmem⟩, rfl⟩)

/-- A login that is answered by a challenge, and then a request. -/
def challenged (pszUser : CString) : List Act :=
  [.login pszUser ['p'] [{ Headers := [], answers := [.status 401 (some 1), .status 200 none] }]
      (some ['t']),
    .request [{ Headers := [], answers := [.status 200 none] }]]

/-- **The ordinary request authenticates as the administrator.** The two runs differ in who logged
in and in nothing else, and the second request is not one of the administrator. -/
theorem data_dependent : List.Forall₂ Same (challenged ['r']) (challenged ['s']) ∧
    (∃ l ∈ dataCalls {} {} (challenged ['r']), WinHttp.setCredentials .server 1 ['r'] ['p'] ∈ l) ∧
    dataCalls {} {} (challenged ['r']) ≠ dataCalls {} {} (challenged ['s']) := by
  refine ⟨.cons (.login ..) (.cons (.refl _) .nil), ?_, by decide⟩
  exact ⟨_, List.mem_cons_self, by decide⟩

end Credentials
end ECSUtil

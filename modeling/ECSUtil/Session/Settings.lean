/-
# Which settings a session was opened with

`InitSession` and the setters of `CECSConnection` (`ECSUtil/ECSConnection.cpp`), called by
any number of threads on any number of connection objects that share the `SessionMap`.

A request takes a session from the map by the host name and the address alone, and opens
its handles only where they are not open yet.  `InitSession` holds no lock over this: the
host name, the user agent, the proxy, its port, the default-proxy choice, the protocols
and the port are read one after the other (`Phase`).  Nor do the setters: each compares
what it is given with what is there, setting by setting, then writes, setting by setting,
and calls `KillHostSessions` in the end (`Setter.tests`, `Setter.writes`).  `SetUserAgent`,
`SetHttpsProtocol` and `SetGlobalHttpsProtocol` do not compare and do not call it.

A request is recorded, when `WinHttpOpenRequest` is called, with what its handles were
opened with and what its object asks for at that time (`Use`).  The two are the same in
every run whose setters and requests keep to `Agreed`: `requests_match`.  The invariant
that carries it is `Matched`: a session that may still be handed out was opened as some
object of its host name asks, or a `KillHostSessions` is still to come.
-/

import ECSUtil.Session.Entries

namespace ECSUtil
namespace Session

/-- The settings of a `CECSConnection` that the handles depend on, or that the setters
compare. -/
structure Settings where
  sHost : CString := []
  IPListHost : List CString := []
  Port : ℕ := 80
  bSSL : Bool := false
  bUseDefaultProxy : Bool := true
  sProxy : CString := []
  dwProxyPort : ℕ := 0
  sProxyUser : CString := []
  sProxyPassword : CString := []
  dwHttpsProtocol : DWORD := 0
  sUserAgent : CString := []
  deriving DecidableEq, Repr

namespace Settings

/-- The handles that `InitSession` opens: the user agent has a default, a proxy that is
named takes precedence over the default proxy, and the protocols of the connection over
those of all connections. -/
def handles (c : Settings) (dwGlobalHttpsProtocol : DWORD) (pszIP : CString) : Handles :=
  ({ pszAgent := if c.sUserAgent = [] then "Test/1.0".toList else c.sUserAgent
     dwAccessType :=
       if c.sProxy ≠ [] then .namedProxy
       else if c.bUseDefaultProxy then .defaultProxy
       else .noProxy
     pszProxy :=
       if c.sProxy ≠ [] ∧ c.dwProxyPort ≠ 0 then c.sProxy ++ ':' :: Nat.toDigits 10 c.dwProxyPort
       else c.sProxy
     dwProtocols := if c.dwHttpsProtocol = 0 then dwGlobalHttpsProtocol else c.dwHttpsProtocol },
   { pswzServerName := pszIP, nServerPort := c.Port })

/-- What a connection asks for: the user agent, the proxy and the protocols of a session handle,
and the port. -/
def asked (c : Settings) (dwGlobalHttpsProtocol : DWORD) : SessionHandle × ℕ :=
  ((c.handles dwGlobalHttpsProtocol []).1, c.Port)

/-- The settings that `InitSession` opens handles with; the others are left blank. -/
def read (c : Settings) : Settings :=
  { c with sHost := [], IPListHost := [], bSSL := false, sProxyUser := [], sProxyPassword := [] }

end Settings

/-- What a pair of handles was opened with. -/
def openedWith (h : Handles) : SessionHandle × ℕ := (h.1, h.2.nServerPort)

/-- A request: what its handles were opened with, and what its object asks for. -/
structure Use where
  opened : SessionHandle × ℕ
  asked : SessionHandle × ℕ
  deriving DecidableEq, Repr

/-! ## The setters -/

/-- What a setter does at one time: write one setting, or call `KillHostSessions`. -/
inductive Write
  | host (sHost : CString)
  | ipList (IPListHost : List CString)
  | port (Port : ℕ)
  | ssl (bSSL : Bool)
  | useDefaultProxy (bUseDefaultProxy : Bool)
  | proxy (sProxy : CString)
  | proxyPort (dwProxyPort : ℕ)
  | proxyUser (sProxyUser : CString)
  | proxyPassword (sProxyPassword : CString)
  | httpsProtocol (dwHttpsProtocol : DWORD)
  | userAgent (sUserAgent : CString)
  | globalHttpsProtocol (dwGlobalHttpsProtocol : DWORD)
  | killHostSessions
  deriving DecidableEq, Repr

/-- The settings of the object after a write. -/
def Write.apply (x : Settings) : Write → Settings
  | .host sHost => { x with sHost := sHost }
  | .ipList IPListHost => { x with IPListHost := IPListHost }
  | .port Port => { x with Port := Port }
  | .ssl bSSL => { x with bSSL := bSSL }
  | .useDefaultProxy bUseDefaultProxy => { x with bUseDefaultProxy := bUseDefaultProxy }
  | .proxy sProxy => { x with sProxy := sProxy }
  | .proxyPort dwProxyPort => { x with dwProxyPort := dwProxyPort }
  | .proxyUser sProxyUser => { x with sProxyUser := sProxyUser }
  | .proxyPassword sProxyPassword => { x with sProxyPassword := sProxyPassword }
  | .httpsProtocol dwHttpsProtocol => { x with dwHttpsProtocol := dwHttpsProtocol }
  | .userAgent sUserAgent => { x with sUserAgent := sUserAgent }
  | .globalHttpsProtocol _ => x
  | .killHostSessions => x

/-- A call of a setter. -/
inductive Setter
  | setHost (pszHost : CString)
  | setIPList (IPListParam : List CString)
  | setSSL (bSSLParam : Bool)
  | setPort (PortParam : ℕ)
  | setProxy (bUseDefaultProxy : Bool) (sProxy : CString) (dwPort : ℕ)
      (sProxyUser sProxyPassword : CString)
  | setHttpsProtocol (dwParam : DWORD)
  | setGlobalHttpsProtocol (dwParam : DWORD)
  | setUserAgent (pszUserAgent : CString)
  /-- `SetUser` or `SetSecret`, with another value; no session depends on it. -/
  | setUser
  deriving DecidableEq, Repr

namespace Setter

/-- `INTERNET_DEFAULT_HTTPS_PORT` or `INTERNET_DEFAULT_HTTP_PORT`. -/
def defaultPort (bSSLParam : Bool) : ℕ := if bSSLParam then 443 else 80

/-- The settings that the setter compares, as it would write them, in the order of the comparison.
`SetIPList` compares and writes under its lock; here another thread may come in between. -/
def tests : Setter → List Write
  | setHost pszHost => [.host pszHost]
  | setIPList IPListParam => [.ipList IPListParam]
  | setSSL bSSLParam => [.ssl bSSLParam, .port (defaultPort bSSLParam)]
  | setPort PortParam => [.port PortParam]
  | setProxy bUseDefaultProxy sProxy dwPort sProxyUser sProxyPassword =>
      [.proxy sProxy, .proxyPort dwPort, .proxyUser sProxyUser, .proxyPassword sProxyPassword,
        .useDefaultProxy bUseDefaultProxy]
  | _ => []

/-- What the setter does where one of the settings it compares is another one, or where it compares
none.  `SetHost` invalidates the sessions before and after. -/
def writes : Setter → List Write
  | setHost pszHost => [.killHostSessions, .host pszHost, .killHostSessions]
  | setIPList IPListParam => [.ipList IPListParam, .killHostSessions]
  | setSSL bSSLParam => [.ssl bSSLParam, .port (defaultPort bSSLParam), .killHostSessions]
  | setPort PortParam => [.port PortParam, .killHostSessions]
  | setProxy bUseDefaultProxy sProxy dwPort sProxyUser sProxyPassword =>
      [.useDefaultProxy bUseDefaultProxy, .proxy sProxy, .proxyPort dwPort, .proxyUser sProxyUser,
        .proxyPassword sProxyPassword, .killHostSessions]
  | setHttpsProtocol dwParam => [.httpsProtocol dwParam]
  | setGlobalHttpsProtocol dwParam => [.globalHttpsProtocol dwParam]
  | setUserAgent pszUserAgent => [.userAgent pszUserAgent]
  | setUser => [.killHostSessions]

end Setter

/-! ## The requests -/

/-- Where a request is. -/
inductive Phase
  | start
  /-- The arguments of `AllocSession` were read. -/
  | args (pszHost pszIP : CString)
  /-- `AllocSession` was run. -/
  | alloc
  /-- The user agent was read. -/
  | ver (sVer : CString)
  /-- The handles were not open, and what there was of them is closed. -/
  | closed (sVer : CString)
  /-- `sProxy` was read. -/
  | proxy (sVer sProxyString : CString)
  /-- A proxy is named, and `dwProxyPort` was not zero. -/
  | proxyPort (sVer sProxyString : CString)
  /-- `WinHttpOpen` is next. -/
  | winHttpOpen (sVer : CString) (dwAccessType : AccessType) (pszProxy : CString)
  /-- There is a session handle. -/
  | session
  /-- `dwHttpsProtocol` was zero. -/
  | globalProtocol
  /-- `WinHttpSetOption` is next, if there are protocols to set. -/
  | setOption (dwTempProtocol : DWORD)
  /-- `WinHttpConnect` is next. -/
  | connect
  /-- `InitSession` is done, and `WinHttpOpenRequest` is next. -/
  | ready
  /-- The request was sent, or could not be. -/
  | done
  deriving DecidableEq, Repr

/-- What a step does not decide itself: what `GetCurrentServerIP` returns, the time, whether a call of
WinHTTP (or the request) succeeds, and whether another request follows. -/
structure Env where
  pszIP : CString := ['1']
  ftNow : FileTime := 0
  ok : Bool := true
  bAgain : Bool := false
  deriving DecidableEq, Repr

namespace Phase

/-- The request has a session, and is about to use its handles. -/
def opening : Phase → Bool
  | start => false
  | args _ _ => false
  | done => false
  | _ => true

/-- One step of `InitSession`, after `AllocSession`: what becomes of the value of the session, and what
is next.  Each step reads one setting at most. -/
def initSession (x : Settings) (dwGlobalHttpsProtocol : DWORD) (env : Env) (v : SessionMapValue) :
    Phase → SessionMapValue × Phase
  | alloc => (v, ver (if x.sUserAgent = [] then "Test/1.0".toList else x.sUserAgent))
  | ver sVer => if v.handles.isSome then (v, ready) else (v.closeAll, closed sVer)
  | closed sVer => (v, proxy sVer x.sProxy)
  | proxy sVer sProxyString =>
      if sProxyString ≠ [] then
        (v, if x.dwProxyPort ≠ 0 then proxyPort sVer sProxyString
          else winHttpOpen sVer .namedProxy sProxyString)
      else (v, winHttpOpen sVer (if x.bUseDefaultProxy then .defaultProxy else .noProxy) [])
  | proxyPort sVer sProxyString =>
      (v, winHttpOpen sVer .namedProxy (sProxyString ++ ':' :: Nat.toDigits 10 x.dwProxyPort))
  | winHttpOpen sVer dwAccessType pszProxy =>
      if env.ok then
        ({ v with hSession := some ⟨sVer, dwAccessType, pszProxy, 0⟩ }, session)
      else ({ v with hSession := none }, done)
  | session =>
      (v, if x.dwHttpsProtocol = 0 then globalProtocol else setOption x.dwHttpsProtocol)
  | globalProtocol => (v, setOption dwGlobalHttpsProtocol)
  | setOption dwTempProtocol =>
      if dwTempProtocol = 0 then (v, connect)
      else if env.ok then
        ({ v with hSession := v.hSession.map fun h => { h with dwProtocols := dwTempProtocol } },
          connect)
      else (v.closeAll, done)
  | connect =>
      if env.ok then
        ({ v with hConnect := some { pswzServerName := env.pszIP, nServerPort := x.Port } }, ready)
      else (v.closeAll, done)
  | start => (v, start)
  | args pszHost pszIP => (v, args pszHost pszIP)
  | ready => (v, ready)
  | done => (v, done)

end Phase

/-- What a thread does, and on which object. -/
inductive Op (γ : Type)
  | idle
  /-- A setter compares; `writes` is what it does if something is to be changed. -/
  | testing (c : γ) (tests writes : List Write)
  /-- A setter has this still to do. -/
  | writing (c : γ) (writes : List Write)
  | request (c : γ) (p : Phase)
  deriving DecidableEq, Repr

namespace Op

variable {γ : Type}

/-- What a setter does, or may do. -/
def writes : Op γ → List Write
  | testing _ _ writes => writes
  | writing _ writes => writes
  | _ => []

/-- A setter has changed something, or is about to, and `KillHostSessions` is still to come. -/
def kills : Op γ → Bool
  | writing _ writes => decide (Write.killHostSessions ∈ writes)
  | _ => false

/-- The object whose request has a session and is about to use its handles. -/
def opening : Op γ → Option γ
  | request c p => if p.opening then some c else none
  | _ => none

end Op

/-- The connection objects `γ`, the sessions of their threads `τ`, what the threads do, and the requests
that were made. -/
structure Connections (γ τ : Type) where
  cache : State (γ × τ) := {}
  conn : γ → Settings := fun _ => {}
  dwGlobalHttpsProtocol : DWORD := 0
  op : τ → Op γ := fun _ => .idle
  requests : List Use := []

/-- What the threads `t` do. -/
inductive Act (γ τ : Type)
  | call (t : τ) (c : γ) (a : Setter)
  | request (t : τ) (c : γ)
  /-- The next step of what the thread does. -/
  | run (t : τ) (env : Env)
  | garbageCollect (ftNow : FileTime)
  deriving Repr

namespace Connections

variable {γ τ : Type}

/-- What an object asks for. -/
def asked (s : Connections γ τ) (c : γ) : SessionHandle × ℕ := (s.conn c).asked s.dwGlobalHttpsProtocol

/-- A setter under way has `KillHostSessions` still to call. -/
def Pending (s : Connections γ τ) : Prop := ∃ t, (s.op t).kills = true

def setOp [DecidableEq τ] (s : Connections γ τ) (t : τ) (op : Op γ) : Connections γ τ :=
  { s with op := Function.update s.op t op }

variable [DecidableEq γ]

/-- A write of a setter of the object `c`. -/
def write (s : Connections γ τ) (c : γ) : Write → Connections γ τ
  | .globalHttpsProtocol dwParam => { s with dwGlobalHttpsProtocol := dwParam }
  | .killHostSessions => { s with cache := s.cache.killHostSessions }
  | w => { s with conn := Function.update s.conn c (w.apply (s.conn c)) }

variable [DecidableEq τ]

/-- A step of a request of a thread.  At the end of it the session of a failed one is marked, and the
session is released. -/
def runRequest (s : Connections γ τ) (t : τ) (c : γ) (env : Env) : Phase → Option (Connections γ τ)
  | .start => some (s.setOp t (.request c (.args (s.conn c).sHost env.pszIP)))
  | .args pszHost pszIP =>
      some ({ s with cache := s.cache.allocSession (c, t) pszHost pszIP env.ftNow }.setOp t
        (.request c .alloc))
  | .ready =>
      (s.cache.pointee (c, t)).map fun v =>
        { s with requests := s.requests ++
            (v.handles.map fun h => Use.mk (openedWith h) (s.asked c)).toList }.setOp t
          (.request c .done)
  | .done =>
      (s.cache.pointee (c, t)).map fun _ =>
        let cache := if env.ok then s.cache
          else s.cache.writeValue (c, t) fun v => { v with bKillWhenDone := true }
        { s with cache := (cache.releaseLocked (c, t) env.ftNow).releaseClear (c, t) }.setOp t
          (if env.bAgain then .request c .start else .idle)
  | p =>
      (s.cache.pointee (c, t)).map fun v =>
        { s with cache := s.cache.writeValue (c, t) fun v =>
            (p.initSession (s.conn c) s.dwGlobalHttpsProtocol env v).1 }.setOp t
          (.request c (p.initSession (s.conn c) s.dwGlobalHttpsProtocol env v).2)

/-- The next step of what a thread does. -/
def run (s : Connections γ τ) (t : τ) (env : Env) : Option (Connections γ τ) :=
  match s.op t with
  | .idle => none
  | .testing _ [] _ => some (s.setOp t .idle)
  | .testing c (w :: tests) writes =>
      some (s.setOp t
        (if w.apply (s.conn c) ≠ s.conn c then .writing c writes else .testing c tests writes))
  | .writing _ [] => some (s.setOp t .idle)
  | .writing c (w :: writes) => some ((s.write c w).setOp t (.writing c writes))
  | .request c p => s.runRequest t c env p

/-- One step. -/
def step (s : Connections γ τ) : Act γ τ → Option (Connections γ τ)
  | .call t c a =>
      if s.op t = .idle then
        some (s.setOp t
          (if a.tests = [] then .writing c a.writes else .testing c a.tests a.writes))
      else none
  | .request t c => if s.op t = .idle then some (s.setOp t (.request c .start)) else none
  | .run t env => s.run t env
  | .garbageCollect ftNow => some { s with cache := s.cache.garbageCollect ftNow }

end Connections

/-- Connection objects that share the session map, which is empty at first. -/
def connections (γ τ : Type) [DecidableEq γ] [DecidableEq τ] :
    StepSystem (Connections γ τ) (Act γ τ) where
  init s := s = {}
  step := Connections.step

/-- A write of a setter, `writes` still to come after it, keeps the sessions and the settings together.
A setting that `InitSession` reads is not changed while a request of the object has a session and is
about to use it; and where no `KillHostSessions` follows, what an object asks for is changed only while
every session of its host name is marked. -/
def Connections.WriteAgrees {γ τ : Type} [DecidableEq γ] (s : Connections γ τ) (c : γ) (w : Write)
    (writes : List Write) : Prop :=
  (∀ u, ∀ d ∈ (s.op u).opening, ((s.write c w).conn d).read = (s.conn d).read ∧
    (s.write c w).dwGlobalHttpsProtocol = s.dwGlobalHttpsProtocol) ∧
  (.killHostSessions ∉ writes → ∀ d, (s.write c w).asked d ≠ s.asked d →
    ∀ e ∈ s.cache.sessionMap.entries, e.1.sHostEntry = (s.conn d).sHost → e.2.bKillWhenDone = true)

/-- `AllocSession` keeps them together: it is run under the host name that the object has, while all
objects of that name ask for the same and no `KillHostSessions` is to come; and it makes one of fewer
than `2 ^ 32` sessions. -/
def Connections.AllocAgrees {γ τ : Type} (s : Connections γ τ) (c : γ) (pszHost : CString) : Prop :=
  (s.conn c).sHost = pszHost ∧ (∀ d, (s.conn d).sHost = pszHost → s.asked d = s.asked c) ∧
    (∀ u, (s.op u).kills = false) ∧ s.cache.created + 1 < 4294967296

/-- What is asked of the next step of a thread. -/
def Connections.RunAgrees {γ τ : Type} [DecidableEq γ] (s : Connections γ τ) : Op γ → Prop
  | .writing c (w :: writes) => s.WriteAgrees c w writes
  | .request c (.args pszHost _) => s.AllocAgrees c pszHost
  | _ => True

/-- **The condition** on the setters and the requests, read off the state before each step: what a setter
writes, and where a request looks for a session, keeps the sessions and the settings together. -/
def Agreed {γ τ : Type} [DecidableEq γ] (s : Connections γ τ) : Act γ τ → Prop
  | .run t _ => s.RunAgrees (s.op t)
  | _ => True

/-! ## One step of `InitSession` -/

section Phases

variable {x : Settings} {dwGlobalHttpsProtocol : DWORD} {v w : SessionMapValue} {p : Phase}

/-- The access that is asked for depends on the proxy alone. -/
theorem Settings.dwAccessType_asked (x : Settings) (dwGlobalHttpsProtocol : DWORD) :
    (x.asked dwGlobalHttpsProtocol).1.dwAccessType =
      if x.sProxy ≠ [] then .namedProxy else if x.bUseDefaultProxy then .defaultProxy else .noProxy :=
  rfl

/-- The name of the proxy that is asked for has its port behind it, if there is one. -/
theorem Settings.pszProxy_asked (x : Settings) (dwGlobalHttpsProtocol : DWORD) :
    (x.asked dwGlobalHttpsProtocol).1.pszProxy =
      if x.sProxy ≠ [] ∧ x.dwProxyPort ≠ 0 then x.sProxy ++ ':' :: Nat.toDigits 10 x.dwProxyPort
      else x.sProxy := rfl

/-- The protocols that are asked for are those of the object, or those of all objects. -/
theorem Settings.dwProtocols_asked (x : Settings) (dwGlobalHttpsProtocol : DWORD) :
    (x.asked dwGlobalHttpsProtocol).1.dwProtocols =
      if x.dwHttpsProtocol = 0 then dwGlobalHttpsProtocol else x.dwHttpsProtocol := rfl

/-- What a request has read, and what it has opened, is what the settings say; the connection handle is
not open before it is opened last. -/
def Phase.Fits (x : Settings) (dwGlobalHttpsProtocol : DWORD) (v : SessionMapValue) : Phase → Prop
  | alloc => ∀ h ∈ v.handles, openedWith h = x.asked dwGlobalHttpsProtocol
  | ready => ∀ h ∈ v.handles, openedWith h = x.asked dwGlobalHttpsProtocol
  | ver sVer =>
      sVer = (x.asked dwGlobalHttpsProtocol).1.pszAgent ∧
        ∀ h ∈ v.handles, openedWith h = x.asked dwGlobalHttpsProtocol
  | closed sVer => v.hConnect = none ∧ sVer = (x.asked dwGlobalHttpsProtocol).1.pszAgent
  | proxy sVer sProxyString =>
      v.hConnect = none ∧ sVer = (x.asked dwGlobalHttpsProtocol).1.pszAgent ∧ sProxyString = x.sProxy
  | proxyPort sVer sProxyString =>
      v.hConnect = none ∧ sVer = (x.asked dwGlobalHttpsProtocol).1.pszAgent ∧
        sProxyString = x.sProxy ∧ x.sProxy ≠ [] ∧ x.dwProxyPort ≠ 0
  | winHttpOpen sVer dwAccessType pszProxy =>
      v.hConnect = none ∧ sVer = (x.asked dwGlobalHttpsProtocol).1.pszAgent ∧
        dwAccessType = (x.asked dwGlobalHttpsProtocol).1.dwAccessType ∧
        pszProxy = (x.asked dwGlobalHttpsProtocol).1.pszProxy
  | session =>
      v.hConnect = none ∧
        ∀ h ∈ v.hSession, h = { (x.asked dwGlobalHttpsProtocol).1 with dwProtocols := 0 }
  | globalProtocol =>
      v.hConnect = none ∧ x.dwHttpsProtocol = 0 ∧
        ∀ h ∈ v.hSession, h = { (x.asked dwGlobalHttpsProtocol).1 with dwProtocols := 0 }
  | setOption dwTempProtocol =>
      v.hConnect = none ∧ dwTempProtocol = (x.asked dwGlobalHttpsProtocol).1.dwProtocols ∧
        ∀ h ∈ v.hSession, h = { (x.asked dwGlobalHttpsProtocol).1 with dwProtocols := 0 }
  | connect => v.hConnect = none ∧ ∀ h ∈ v.hSession, h = (x.asked dwGlobalHttpsProtocol).1
  | start => True
  | args _ _ => True
  | done => True

/-- A phase in which nothing is being opened has read nothing yet. -/
theorem Phase.fits_of_not_opening (hp : p.opening = false) : p.Fits x dwGlobalHttpsProtocol v := by
  cases p with
  | start => trivial
  | args => trivial
  | done => trivial
  | _ => exact absurd hp (by simp [Phase.opening])

/-- Only the settings that `InitSession` reads are looked at. -/
theorem Phase.fits_read : p.Fits x.read dwGlobalHttpsProtocol v ↔ p.Fits x dwGlobalHttpsProtocol v := by
  cases p <;> rfl

/-- Handles that are closed are not wrong, and nothing else of the session is looked at. -/
theorem Phase.Fits.of_was (h : p.Fits x dwGlobalHttpsProtocol v) (hw : v.Was w) :
    p.Fits x dwGlobalHttpsProtocol w := by
  rcases hw.opened with ⟨hs, hc⟩ | ⟨hs, hc⟩
  · have hh := SessionMapValue.handles_of_hConnect hc
    cases p <;> simp_all [Phase.Fits]
  · have hh : v.handles = w.handles := by rw [SessionMapValue.handles, hs, hc]; rfl
    cases p <;> simp only [Phase.Fits, ← hh, ← hs, ← hc] at h ⊢ <;> exact h

/-- Whatever handles a request has, once both are open they are as the settings say. -/
theorem Phase.Fits.handles (h : p.Fits x dwGlobalHttpsProtocol v) (hp : p.opening = true) :
    ∀ y ∈ v.handles, openedWith y = x.asked dwGlobalHttpsProtocol := by
  have hclosed : v.hConnect = none → ∀ y ∈ v.handles, openedWith y = x.asked dwGlobalHttpsProtocol :=
    fun hc y hy => absurd ((SessionMapValue.handles_of_hConnect hc).symm.trans hy) (by simp)
  cases p with
  | start => exact absurd hp (by simp [Phase.opening])
  | args => exact absurd hp (by simp [Phase.opening])
  | done => exact absurd hp (by simp [Phase.opening])
  | alloc => exact h
  | ready => exact h
  | ver => exact h.2
  | _ => exact hclosed h.1

/-- Handles that are both open after a step of `InitSession` are as the settings say. -/
theorem Phase.handles_initSession (h : p.Fits x dwGlobalHttpsProtocol v) (hp : p.opening = true)
    (env : Env) : ∀ y ∈ (p.initSession x dwGlobalHttpsProtocol env v).1.handles,
      openedWith y = x.asked dwGlobalHttpsProtocol := by
  have hnone : ∀ {w : SessionMapValue}, w.hConnect = none →
      ∀ y ∈ w.handles, openedWith y = x.asked dwGlobalHttpsProtocol :=
    fun hc y hy => absurd ((SessionMapValue.handles_of_hConnect hc).symm.trans hy) (by simp)
  cases p with
  | ver sVer =>
      simp only [Phase.initSession]
      split_ifs
      · exact h.2
      · exact hnone rfl
  | proxy sVer sProxyString =>
      simp only [Phase.initSession]
      split_ifs <;> exact hnone h.1
  | winHttpOpen sVer dwAccessType pszProxy =>
      simp only [Phase.initSession]
      split_ifs
      · exact hnone h.1
      · exact hnone h.1
  | setOption dwTempProtocol =>
      simp only [Phase.initSession]
      split_ifs
      · exact hnone h.1
      · exact hnone h.1
      · exact hnone rfl
  | connect =>
      simp only [Phase.initSession]
      split_ifs
      · -- the session handle was opened before, and now the connection handle with `Port`
        intro y hy
        cases hopen : v.hSession with
        | none => exact absurd hy (by simp [SessionMapValue.handles, hopen])
        | some z =>
            obtain rfl : (z, ConnectHandle.mk env.pszIP x.Port) = y :=
              Option.some.inj (by rw [← hy]; simp only [SessionMapValue.handles, hopen])
            exact congrArg (·, x.Port) (h.2 z hopen)
      · exact hnone rfl
  | _ => exact h.handles hp

/-- **A step of `InitSession`** reads what the settings say, and what it opens is opened so. What
was read is compared with the settings as they are now, which is right as long as no setter changes
one of them in between; each phase adds one thing that was read, or opens one handle. -/
theorem Phase.fits_initSession (h : p.Fits x dwGlobalHttpsProtocol v) (hp : p.opening = true)
    (env : Env) : (p.initSession x dwGlobalHttpsProtocol env v).2.Fits x dwGlobalHttpsProtocol
      (p.initSession x dwGlobalHttpsProtocol env v).1 := by
  have hhandles := Phase.handles_initSession h hp env
  cases p with
  | alloc => exact ⟨rfl, h⟩
  | ver sVer =>
      simp only [Phase.initSession]
      split_ifs
      · exact h.2
      · exact ⟨rfl, h.1⟩
  | closed sVer => exact ⟨h.1, h.2, rfl⟩
  | proxy sVer sProxyString =>
      obtain ⟨hc, hver, rfl⟩ := h
      simp only [Phase.initSession]
      split_ifs with hproxy hport hdefault
      · exact ⟨hc, hver, rfl, hproxy, hport⟩
      · rw [not_not] at hport
        exact ⟨hc, hver, by rw [Settings.dwAccessType_asked, if_pos hproxy],
          by rw [Settings.pszProxy_asked, if_neg fun hp => hp.2 hport]⟩
      · rw [not_not] at hproxy
        exact ⟨hc, hver,
          by rw [Settings.dwAccessType_asked, if_neg (not_not.2 hproxy), if_pos hdefault],
          by rw [Settings.pszProxy_asked, if_neg fun hp => hp.1 hproxy, hproxy]⟩
      · rw [not_not] at hproxy
        exact ⟨hc, hver,
          by rw [Settings.dwAccessType_asked, if_neg (not_not.2 hproxy), if_neg hdefault],
          by rw [Settings.pszProxy_asked, if_neg fun hp => hp.1 hproxy, hproxy]⟩
  | proxyPort sVer sProxyString =>
      obtain ⟨hc, hver, rfl, hproxy, hport⟩ := h
      exact ⟨hc, hver, by rw [Settings.dwAccessType_asked, if_pos hproxy],
        by rw [Settings.pszProxy_asked, if_pos ⟨hproxy, hport⟩]⟩
  | winHttpOpen sVer dwAccessType pszProxy =>
      obtain ⟨hc, rfl, rfl, rfl⟩ := h
      simp only [Phase.initSession]
      split_ifs
      · exact ⟨hc, fun y hy => (Option.some.inj hy).symm⟩
      · trivial
  | session =>
      simp only [Phase.initSession]
      split_ifs with hprotocol
      · exact ⟨h.1, hprotocol, h.2⟩
      · exact ⟨h.1, by rw [Settings.dwProtocols_asked, if_neg hprotocol], h.2⟩
  | globalProtocol =>
      obtain ⟨hc, hprotocol, hs⟩ := h
      exact ⟨hc, by rw [Settings.dwProtocols_asked, if_pos hprotocol], hs⟩
  | setOption dwTempProtocol =>
      obtain ⟨hc, rfl, hs⟩ := h
      simp only [Phase.initSession]
      split_ifs with hzero
      · refine ⟨hc, fun y hy => (hs y hy).trans ?_⟩
        rw [← hzero]
      · refine ⟨hc, fun y hy => ?_⟩
        obtain ⟨z, hz, rfl⟩ := Option.map_eq_some_iff.1 hy
        rw [hs z hz]
      · trivial
  | connect =>
      simp only [Phase.initSession] at hhandles ⊢
      split_ifs at hhandles ⊢
      · exact hhandles
      · trivial
  | _ => exact h

/-- The address, the use and the mark of a session are left alone. -/
theorem Phase.kept_initSession (p : Phase) (x : Settings) (dwGlobalHttpsProtocol : DWORD) (env : Env)
    (v : SessionMapValue) :
    (p.initSession x dwGlobalHttpsProtocol env v).1.addr = v.addr ∧
      (p.initSession x dwGlobalHttpsProtocol env v).1.bInUse = v.bInUse ∧
      (p.initSession x dwGlobalHttpsProtocol env v).1.bKillWhenDone = v.bKillWhenDone := by
  cases p with
  | ver => simp only [Phase.initSession]; split_ifs <;> exact ⟨rfl, rfl, rfl⟩
  | proxy => simp only [Phase.initSession]; split_ifs <;> exact ⟨rfl, rfl, rfl⟩
  | winHttpOpen => simp only [Phase.initSession]; split_ifs <;> exact ⟨rfl, rfl, rfl⟩
  | setOption => simp only [Phase.initSession]; split_ifs <;> exact ⟨rfl, rfl, rfl⟩
  | connect => simp only [Phase.initSession]; split_ifs <;> exact ⟨rfl, rfl, rfl⟩
  | _ => exact ⟨rfl, rfl, rfl⟩

end Phases

/-! ## The connections -/

section Matched

variable {γ τ : Type} {s : Connections γ τ} {t : τ} {c : γ} {op : Op γ}

/-- **The invariant.**  The sessions have their owners; a session that may still be handed out was opened
as some object of its host name asks, or a `KillHostSessions` is to come; what a request has read and
opened is what its object asks for, and so is what the requests made used. -/
structure Matched (s : Connections γ τ) : Prop where
  inv : Inv s.cache
  quiet : ∀ i, s.cache.releasing i = false
  writes : ∀ t, ∃ a : Setter, (s.op t).writes <:+ a.writes
  entry : ∀ e ∈ s.cache.sessionMap, e.2.bKillWhenDone = false → ∀ h ∈ e.2.handles,
    (∃ c, (s.conn c).sHost = e.1.sHostEntry ∧ openedWith h = s.asked c) ∨ s.Pending
  request : ∀ t c p, s.op t = .request c p → ∀ e ∈ s.cache.sessionMap,
    (s.cache.session (c, t)).pValue = some e.2.addr →
      p.Fits (s.conn c) s.dwGlobalHttpsProtocol e.2 ∧
        (p.opening = true → e.2.bKillWhenDone = false →
          (s.conn c).sHost = e.1.sHostEntry ∨ s.Pending)
  used : ∀ r ∈ s.requests, r.opened = r.asked

/-- The invariant holds before the first call. -/
theorem matched_init : Matched ({} : Connections γ τ) where
  inv := inv_init
  quiet _ := rfl
  writes _ := ⟨.setUser, List.nil_suffix⟩
  entry _ he := absurd he SortedMap.not_mem_empty
  request _ _ _ h := absurd h (by simp)
  used _ hr := absurd hr List.not_mem_nil

/-- The sessions change, as far as they may without a request noticing. -/
theorem Matched.cache (h : Matched s) {cache : State (γ × τ)} (hinv : Inv cache)
    (hquiet : ∀ i, cache.releasing i = false) (hfrom : Survives s.cache cache)
    (hsession : ∀ u c p, s.op u = .request c p →
      cache.session (c, u) = s.cache.session (c, u) ∨ p.opening = false) :
    Matched { s with cache := cache } := by
  refine ⟨hinv, hquiet, h.writes, fun e he hk y hy => ?_, fun u c p hop e he hp => ?_, h.used⟩
  · obtain ⟨v, hv, -, hvy, hvk⟩ := hfrom.handles he hy
    exact h.entry _ hv (hvk hk) y hvy
  · rcases hsession u c p hop with hsame | hopening
    · have hp' : (cache.session (c, u)).pValue = some e.2.addr := hp
      rw [hsame] at hp'
      rcases hfrom.entry e he with ⟨v, hv, hwas⟩ | ⟨hnew, -⟩
      · rw [← hwas.addr] at hp'
        obtain ⟨hfits, hhost⟩ := h.request u c p hop _ hv hp'
        exact ⟨hfits.of_was hwas, fun ho hk => hhost ho (hwas.unmarked hk)⟩
      · -- what it points at was there before
        obtain ⟨v, hv, hva, -⟩ := h.inv.live (c, u) e.2.addr ⟨hp', h.quiet (c, u)⟩
        exact absurd (hva ▸ h.inv.addr_lt _ hv) (Nat.not_lt.2 hnew)
    · exact ⟨Phase.fits_of_not_opening hopening,
        fun ho => absurd (hopening.symm.trans ho) Bool.false_ne_true⟩

/-- A request under way owns the session that it points at. -/
theorem Matched.owns (h : Matched s) {i : γ × τ} {v : SessionMapValue} (hv : s.cache.pointee i = some v) :
    ∃ a, Owns s.cache i a := ⟨v.addr, (pointee_spec hv).1, h.quiet i⟩

/-- A setter that writes the host name has `KillHostSessions` still to call. -/
theorem Setter.kill_of_host {a : Setter} {sHost : CString} {writes : List Write}
    (h : (Write.host sHost :: writes) <:+ a.writes) : Write.killHostSessions ∈ writes := by
  cases a <;> simp_all [Setter.writes, List.suffix_cons_iff]

section Write

variable [DecidableEq γ] {w : Write}

/-- What a write of a setting leaves alone. -/
theorem Connections.write_kept (s : Connections γ τ) (c : γ) (hw : w ≠ .killHostSessions) :
    (s.write c w).cache = s.cache ∧ (s.write c w).op = s.op ∧
      (s.write c w).requests = s.requests := by
  cases w with
  | killHostSessions => exact absurd rfl hw
  | _ => exact ⟨rfl, rfl, rfl⟩

/-- The host names stay, where no host name is written. -/
theorem Connections.sHost_write (s : Connections γ τ) (c : γ) (hw : ∀ sHost, w ≠ .host sHost) (d : γ) :
    ((s.write c w).conn d).sHost = (s.conn d).sHost := by
  have hset : ∀ x : Settings, x.sHost = (s.conn c).sHost →
      (Function.update s.conn c x d).sHost = (s.conn d).sHost := by
    intro x hx
    rcases eq_or_ne d c with rfl | hne
    · rw [Function.update_self, hx]
    · rw [Function.update_of_ne hne]
  cases w with
  | host sHost => exact absurd rfl (hw sHost)
  | globalHttpsProtocol => rfl
  | killHostSessions => rfl
  | _ => exact hset _ rfl

end Write

section Threads

variable [DecidableEq τ]

/-- A thread does what it is set to. -/
theorem Connections.setOp_self (s : Connections γ τ) (t : τ) (op : Op γ) : (s.setOp t op).op t = op :=
  Function.update_self ..

/-- Where a thread is set to something, the others do what they did. -/
theorem Connections.setOp_of_ne (s : Connections γ τ) {t u : τ} (hne : u ≠ t) (op : Op γ) :
    (s.setOp t op).op u = s.op u := Function.update_of_ne hne ..

/-- `KillHostSessions` is still to come, where the thread has not just called it. -/
theorem Connections.Pending.setOp (h : s.Pending) (ht : (s.op t).kills = true → op.kills = true) :
    (s.setOp t op).Pending := by
  obtain ⟨u, hu⟩ := h
  rcases eq_or_ne u t with rfl | hne
  · exact ⟨u, (s.setOp_self u op).symm ▸ ht hu⟩
  · exact ⟨u, (s.setOp_of_ne hne op).symm ▸ hu⟩

/-- A thread goes on. -/
theorem Matched.setOp (h : Matched s) (t : τ) (op : Op γ)
    (hwrites : ∃ a : Setter, op.writes <:+ a.writes)
    (hkills : (s.op t).kills = true → op.kills = true ∨
      ∀ e ∈ s.cache.sessionMap, e.2.bKillWhenDone = true)
    (hrequest : ∀ c p, op = .request c p → ∀ e ∈ s.cache.sessionMap,
      (s.cache.session (c, t)).pValue = some e.2.addr →
        p.Fits (s.conn c) s.dwGlobalHttpsProtocol e.2 ∧
          (p.opening = true → e.2.bKillWhenDone = false →
            (s.conn c).sHost = e.1.sHostEntry ∨ s.Pending)) : Matched (s.setOp t op) := by
  have hpending : ∀ e ∈ s.cache.sessionMap, e.2.bKillWhenDone = false → s.Pending →
      (s.setOp t op).Pending := by
    intro e he hk hp
    refine hp.setOp fun ht => (hkills ht).resolve_right fun hall => ?_
    exact absurd (hk.symm.trans (hall e he)) Bool.false_ne_true
  have hrequest' : ∀ u c p, (s.setOp t op).op u = .request c p → ∀ e ∈ s.cache.sessionMap,
      (s.cache.session (c, u)).pValue = some e.2.addr →
        p.Fits (s.conn c) s.dwGlobalHttpsProtocol e.2 ∧
          (p.opening = true → e.2.bKillWhenDone = false →
            (s.conn c).sHost = e.1.sHostEntry ∨ s.Pending) := by
    intro u
    rcases eq_or_ne u t with rfl | hne
    · rw [Connections.setOp_self]
      exact hrequest
    · rw [Connections.setOp_of_ne s hne]
      exact h.request u
  refine ⟨h.inv, h.quiet, fun u => ?_, fun e he hk y hy => ?_, fun u c p hop e he hp => ?_, h.used⟩
  · rcases eq_or_ne u t with rfl | hne
    · rw [Connections.setOp_self]
      exact hwrites
    · rw [Connections.setOp_of_ne s hne]
      exact h.writes u
  · exact (h.entry e he hk y hy).imp_right (hpending e he hk)
  · obtain ⟨hfits, hhost⟩ := hrequest' u c p hop e he hp
    exact ⟨hfits, fun ho hk => (hhost ho hk).imp_right (hpending e he hk)⟩

/-- A thread goes on, and has no session that it is about to use. -/
theorem Matched.goto (h : Matched s) (t : τ) (op : Op γ) (hwrites : ∃ a : Setter, op.writes <:+ a.writes)
    (hkills : (s.op t).kills = true → op.kills = true ∨
      ∀ e ∈ s.cache.sessionMap, e.2.bKillWhenDone = true)
    (hopening : ∀ c p, op = .request c p → p.opening = false) : Matched (s.setOp t op) := by
  refine h.setOp t op hwrites hkills fun c p hop e _ _ => ?_
  refine ⟨Phase.fits_of_not_opening (hopening c p hop), fun ho => ?_⟩
  exact absurd ((hopening c p hop).symm.trans ho) Bool.false_ne_true

/-- **The rest of `InitSession`**, step by step: the session is that of the thread, and what is opened is
what its object asks for. -/
theorem Matched.initSession (h : Matched s) {p : Phase} (hop : s.op t = .request c p)
    (hopening : p.opening = true) {v : SessionMapValue} (hv : s.cache.pointee (c, t) = some v)
    (env : Env) :
    Matched ({ s with cache := s.cache.writeValue (c, t) fun v =>
        (p.initSession (s.conn c) s.dwGlobalHttpsProtocol env v).1 }.setOp t
      (.request c (p.initSession (s.conn c) s.dwGlobalHttpsProtocol env v).2)) := by
  obtain ⟨hpv, k, hk⟩ := pointee_spec hv
  obtain ⟨hfits, hhost⟩ := h.request t c p hop (k, v) hk hpv
  obtain ⟨haddr, -, hkill⟩ := p.kept_initSession (s.conn c) s.dwGlobalHttpsProtocol env v
  have hpending : s.Pending → ∀ p', Connections.Pending ({ s with
      cache := s.cache.writeValue (c, t) fun v =>
        (p.initSession (s.conn c) s.dwGlobalHttpsProtocol env v).1 }.setOp t (.request c p')) := by
    rintro ⟨u, hu⟩ p'
    exact Connections.Pending.setOp ⟨u, hu⟩ fun ht => by rw [hop] at ht; exact ht
  -- every entry is the one written, or one that was there
  have hmem : ∀ e ∈ (s.cache.writeValue (c, t) fun v =>
      (p.initSession (s.conn c) s.dwGlobalHttpsProtocol env v).1).sessionMap,
      e = (k, (p.initSession (s.conn c) s.dwGlobalHttpsProtocol env v).1) ∨
        (e ∈ s.cache.sessionMap ∧ e.2.addr ≠ v.addr) := by
    intro e he
    obtain ⟨d, hd, rfl⟩ := SortedMap.mem_mapValues.1 he
    dsimp only
    split_ifs with hat
    · obtain rfl := h.inv.addr_inj d hd (k, v) hk (Option.some.inj (hat.trans hpv))
      exact .inl rfl
    · exact .inr ⟨hd, fun heq => hat (by rw [hpv, heq])⟩
  have hinv := h.inv.writeValue (h.owns hv)
    (f := fun v => (p.initSession (s.conn c) s.dwGlobalHttpsProtocol env v).1) fun w => by
      obtain ⟨ha, hu, -⟩ := p.kept_initSession (s.conn c) s.dwGlobalHttpsProtocol env w
      exact ⟨ha, hu⟩
  refine ⟨hinv, h.quiet, fun u => ?_, fun e he hunmarked y hy => ?_,
    fun u d q hopu e he hp => ?_, h.used⟩
  · rcases eq_or_ne u t with rfl | hne
    · rw [Connections.setOp_self]
      exact ⟨.setUser, List.nil_suffix⟩
    · rw [Connections.setOp_of_ne _ hne]
      exact h.writes u
  · rcases hmem e he with rfl | ⟨he, -⟩
    · have hy' := Phase.handles_initSession hfits hopening env y hy
      exact (hhost hopening (hkill.symm.trans hunmarked)).imp (fun hd => ⟨c, hd, hy'⟩)
        fun hp => hpending hp _
    · exact (h.entry e he hunmarked y hy).imp_right fun hp => hpending hp _
  · rcases eq_or_ne u t with rfl | hne
    · rw [Connections.setOp_self] at hopu
      obtain ⟨rfl, rfl⟩ := Op.request.inj hopu
      rcases hmem e he with rfl | ⟨-, hne⟩
      · refine ⟨Phase.fits_initSession hfits hopening env, fun _ hunmarked => ?_⟩
        exact (hhost hopening (hkill.symm.trans hunmarked)).imp_right fun hp => hpending hp _
      · exact absurd (Option.some.inj (Eq.trans (Eq.symm hp) hpv)) hne
    · rw [Connections.setOp_of_ne _ hne] at hopu
      rcases hmem e he with rfl | ⟨he, -⟩
      · -- an entry has one owner
        have hother : Owns s.cache (d, u) v.addr := ⟨hp.trans (congrArg some haddr), h.quiet (d, u)⟩
        have hsame := h.inv.owner (d, u) (c, t) v.addr hother ⟨hpv, h.quiet (c, t)⟩
        exact absurd (Prod.mk.inj hsame).2 hne
      · obtain ⟨hfitsu, hhostu⟩ := h.request u d q hopu e he hp
        exact ⟨hfitsu, fun ho hunmarked => (hhostu ho hunmarked).imp_right fun hp => hpending hp _⟩

/-- **`WinHttpOpenRequest`.** The handles that the request uses are those of its session, and the
invariant says of an open session that they are as the settings say. -/
theorem Matched.use (h : Matched s) (hop : s.op t = .request c .ready) {v : SessionMapValue}
    (hv : s.cache.pointee (c, t) = some v) :
    Matched ({ s with requests := s.requests ++
        (v.handles.map fun y => Use.mk (openedWith y) (s.asked c)).toList }.setOp t
      (.request c .done)) := by
  obtain ⟨hpv, k, hk⟩ := pointee_spec hv
  have hfits := (h.request t c .ready hop (k, v) hk hpv).1
  have h' : Matched { s with requests := s.requests ++
      (v.handles.map fun y => Use.mk (openedWith y) (s.asked c)).toList } := by
    refine ⟨h.inv, h.quiet, h.writes, h.entry, h.request, fun r hr => ?_⟩
    rcases List.mem_append.1 hr with hr | hr
    · exact h.used r hr
    · obtain ⟨y, hy, rfl⟩ := Option.map_eq_some_iff.1 (Option.mem_toList.1 hr)
      exact hfits y hy
  refine h'.goto t _ ⟨.setUser, List.nil_suffix⟩ (fun hk => ?_) fun d p hopd => ?_
  · rw [show s.op t = _ from hop] at hk
    exact absurd hk (by simp [Op.kills])
  · obtain ⟨-, rfl⟩ := Op.request.inj hopd
    rfl

variable [DecidableEq γ]

/-- **A write of a setter.**  What it makes wrong of the sessions is invalidated, now or later. A
setting that the requests under way have read is not changed, by the condition; the sessions of the
host name are marked by `KillHostSessions` behind the write, or were marked before it. -/
theorem Matched.write (h : Matched s) {w : Write} {writes : List Write}
    (hop : s.op t = .writing c (w :: writes))
    (hC : s.WriteAgrees c w writes) :
    Matched ((s.write c w).setOp t (.writing c writes)) := by
  obtain ⟨hread, hasked⟩ := hC
  obtain ⟨a, ha⟩ := h.writes t
  rw [hop] at ha
  have hwrites : ∃ a : Setter, writes <:+ a.writes := ⟨a, (List.suffix_cons w writes).trans ha⟩
  by_cases hw : w = .killHostSessions
  · subst hw
    have h' := h.cache h.inv.killHostSessions h.quiet (survives_killHostSessions s.cache)
      fun u c p _ => .inl rfl
    exact h'.goto t _ hwrites (fun _ => .inr (marked_killHostSessions s.cache)) fun c p hp => by simp at hp
  obtain ⟨hcache, hops, hrequests⟩ := s.write_kept c hw
  -- either `KillHostSessions` is to come, or what the objects ask for and their host names stay
  have hpending : s.Pending → ((s.write c w).setOp t (.writing c writes)).Pending := by
    rintro ⟨u, hu⟩
    refine Connections.Pending.setOp ⟨u, hops ▸ hu⟩ fun ht => ?_
    rw [hops, hop] at ht
    simpa [Op.kills, Ne.symm hw] using ht
  have hhost : ∀ {d : γ} {sHostEntry : CString}, (s.conn d).sHost = sHostEntry →
      ((s.write c w).conn d).sHost = sHostEntry ∨
        ((s.write c w).setOp t (.writing c writes)).Pending := by
    rintro d _ rfl
    by_cases hkill : .killHostSessions ∈ writes
    · exact .inr ⟨t, by rw [Connections.setOp_self]; exact decide_eq_true hkill⟩
    · refine .inl (s.sHost_write c (fun sHost hw => ?_) d)
      subst hw
      exact hkill (Setter.kill_of_host ha)
  have hmap : ((s.write c w).setOp t (.writing c writes)).cache = s.cache := hcache
  refine ⟨hmap.symm ▸ h.inv, fun i => by rw [hmap]; exact h.quiet i, fun u => ?_,
    fun e he hk y hy => ?_, fun u d p hopu e he hp => ?_, fun r hr => h.used r (hrequests ▸ hr)⟩
  · rcases eq_or_ne u t with rfl | hne
    · rw [Connections.setOp_self]
      exact hwrites
    · rw [Connections.setOp_of_ne _ hne, hops]
      exact h.writes u
  · rw [hmap] at he
    rcases h.entry e he hk y hy with ⟨d, hd, hyd⟩ | hp
    · rcases hhost hd with hd' | hp'
      · by_cases hkill : .killHostSessions ∈ writes
        · exact .inr ⟨t, by rw [Connections.setOp_self]; exact decide_eq_true hkill⟩
        · refine .inl ⟨d, hd', hyd.trans ?_⟩
          by_contra hne
          have hmarked := hasked hkill d (fun heq => hne heq.symm) e he hd.symm
          exact Bool.false_ne_true (hk.symm.trans hmarked)
      · exact .inr hp'
    · exact .inr (hpending hp)
  · have hne : u ≠ t := by
      rintro rfl
      rw [Connections.setOp_self] at hopu
      exact absurd hopu (by simp)
    rw [Connections.setOp_of_ne _ hne, hops] at hopu
    rw [hmap] at he hp
    obtain ⟨hfits, hhostu⟩ := h.request u d p hopu e he hp
    refine ⟨?_, fun ho hk => (hhostu ho hk).elim (fun hd => hhost hd) fun hp => .inr (hpending hp)⟩
    cases ho : p.opening with
    | false => exact Phase.fits_of_not_opening ho
    | true =>
        obtain ⟨hreadd, hglobal⟩ := hread u d (by rw [hopu]; exact if_pos ho)
        show p.Fits ((s.write c w).conn d) (s.write c w).dwGlobalHttpsProtocol e.2
        rw [← Phase.fits_read, hreadd, hglobal, Phase.fits_read]
        exact hfits

/-- **`AllocSession`.**  Where the objects of the host name ask for the same and no `KillHostSessions` is
to come, the session that is handed out has no other handles than those asked for. -/
theorem Matched.allocSession (h : Matched s) {pszHost pszIP : CString}
    (hop : s.op t = .request c (.args pszHost pszIP)) (ftNow : FileTime) (hC : s.AllocAgrees c pszHost) :
    Matched ({ s with cache := s.cache.allocSession (c, t) pszHost pszIP ftNow }.setOp t
      (.request c .alloc)) := by
  obtain ⟨hhost, hsame, hkills, hc⟩ := hC
  have hcr : (s.cache.allocSession (c, t) pszHost pszIP ftNow).created < 4294967296 :=
    (created_allocSession s.cache (c, t) pszHost pszIP ftNow).2.trans_lt hc
  have hinv := h.inv.allocSession (h.quiet (c, t)) pszHost pszIP ftNow hcr
  have hrelease := (h.inv.releaseLocked (h.quiet (c, t)) ftNow).releaseClear
    (not_owns_releaseLocked ftNow)
  obtain ⟨hclaim, e, he, hunmarked, hkey, hpe⟩ := survives_claim hrelease pszHost pszIP ftNow hcr
    (i := (c, t))
  have h' : Matched { s with cache := s.cache.allocSession (c, t) pszHost pszIP ftNow } := by
    refine h.cache hinv (releasing_allocSession h.quiet (c, t) pszHost pszIP ftNow)
      ((survives_release s.cache (c, t) ftNow).trans hclaim) fun u d p hopu => ?_
    by_cases hsameThread : (d, u) = (c, t)
    · obtain ⟨rfl, rfl⟩ := Prod.mk.inj hsameThread
      obtain ⟨-, rfl⟩ := Op.request.inj (hop.symm.trans hopu)
      exact .inr rfl
    · exact .inl (session_allocSession s.cache hsameThread pszHost pszIP ftNow)
  refine h'.setOp t _ ⟨.setUser, List.nil_suffix⟩ (fun hk => ?_) fun d p hopd f hf hpf => ?_
  · exact absurd ((hkills t).symm.trans hk) Bool.false_ne_true
  · obtain ⟨rfl, rfl⟩ := Op.request.inj hopd
    obtain rfl : e = f := hinv.addr_inj e he f hf (Option.some.inj (hpe.symm.trans hpf))
    refine ⟨fun y hy => ?_, fun _ _ => .inl (hhost.trans hkey.symm)⟩
    rcases h'.entry e he hunmarked y hy with ⟨d, hd, hyd⟩ | ⟨u, hu⟩
    · exact hyd.trans (hsame d (Eq.trans hd hkey))
    · exact absurd ((hkills u).symm.trans hu) Bool.false_ne_true

/-- **The end of a request.** The session of a request that failed is marked, which takes it out of
what the invariant speaks of; then it is released, and may be handed out or goes. -/
theorem Matched.requestDone (h : Matched s) (hop : s.op t = .request c .done) {v : SessionMapValue}
    (hv : s.cache.pointee (c, t) = some v) (env : Env) {cache : State (γ × τ)}
    (hcache : cache = if env.ok then s.cache
      else s.cache.writeValue (c, t) fun v => { v with bKillWhenDone := true }) :
    Matched ({ s with cache := (cache.releaseLocked (c, t) env.ftNow).releaseClear (c, t) }.setOp t
      (if env.bAgain then .request c .start else .idle)) := by
  have hmark : Matched { s with cache := cache } := by
    subst hcache
    split_ifs
    · exact h
    · have hinv := h.inv.writeValue (h.owns hv)
        (f := fun v => { v with bKillWhenDone := true }) fun v => ⟨rfl, rfl⟩
      refine h.cache hinv h.quiet (survives_writeValue
        (f := fun v => { v with bKillWhenDone := true }) fun v => ⟨rfl, ?_, .inr ⟨rfl, rfl⟩⟩)
        fun u d p _ => .inl rfl
      exact fun hk => absurd hk (by simp)
  have h' := hmark.cache ((hmark.inv.releaseLocked (hmark.quiet (c, t)) env.ftNow).releaseClear
    (not_owns_releaseLocked env.ftNow)) (releasing_release hmark.quiet (c, t) env.ftNow)
    (survives_release cache (c, t) env.ftNow) fun u d p hopu => by
      by_cases hsame : (d, u) = (c, t)
      · obtain ⟨rfl, rfl⟩ := Prod.mk.inj hsame
        obtain ⟨-, rfl⟩ := Op.request.inj (hop.symm.trans hopu)
        exact .inr rfl
      · exact .inl (session_release cache hsame env.ftNow)
  refine h'.goto t _ ?_ (fun hk => ?_) fun d p hopd => ?_
  · split_ifs <;> exact ⟨.setUser, List.nil_suffix⟩
  · rw [show s.op t = _ from hop] at hk
    exact absurd hk (by simp [Op.kills])
  · split_ifs at hopd
    · obtain ⟨-, rfl⟩ := Op.request.inj hopd
      rfl

/-- **A step of a request.** The phases are `AllocSession`, those of `InitSession`, the use and the
end; what the other threads are doing is left alone by each of them. -/
theorem Matched.runRequest (h : Matched s) {p : Phase} {env : Env} {s' : Connections γ τ}
    (hop : s.op t = .request c p)
    (hC : s.RunAgrees (.request c p)) (hs : s.runRequest t c env p = some s') : Matched s' := by
  have hinit : p.opening = true → ∀ s' : Connections γ τ, (s.cache.pointee (c, t)).map (fun v =>
      { s with cache := s.cache.writeValue (c, t) fun v =>
          (p.initSession (s.conn c) s.dwGlobalHttpsProtocol env v).1 }.setOp t
        (.request c (p.initSession (s.conn c) s.dwGlobalHttpsProtocol env v).2)) = some s' →
      Matched s' := by
    intro hopening s' hs
    obtain ⟨v, hv, rfl⟩ := Option.map_eq_some_iff.1 hs
    exact h.initSession hop hopening hv env
  cases p with
  | start =>
      obtain rfl := Option.some.inj hs
      refine h.goto t _ ⟨.setUser, List.nil_suffix⟩ (fun hk => ?_) fun d q hopd => ?_
      · rw [hop] at hk
        exact absurd hk (by simp [Op.kills])
      · obtain ⟨-, rfl⟩ := Op.request.inj hopd
        rfl
  | args pszHost pszIP =>
      obtain rfl := Option.some.inj hs
      exact h.allocSession hop env.ftNow hC
  | ready =>
      obtain ⟨v, hv, rfl⟩ := Option.map_eq_some_iff.1 hs
      exact h.use hop hv
  | done =>
      obtain ⟨v, hv, rfl⟩ := Option.map_eq_some_iff.1 hs
      exact h.requestDone hop hv env rfl
  | _ => exact hinit rfl s' hs

/-- **Every step keeps the invariant**, where the setters and the requests keep to `Agreed`. A step
begins a setter or a request, or is the next one of a thread; or it is a collection, which takes
sessions away and changes none. -/
theorem Matched.step (h : Matched s) {a : Act γ τ} {s' : Connections γ τ} (hC : Agreed s a)
    (hs : s.step a = some s') : Matched s' := by
  have hidle : ∀ {t}, s.op t = .idle → (s.op t).kills = true → False := by
    intro t hop hk
    rw [hop] at hk
    exact absurd hk (by simp [Op.kills])
  cases a with
  | call t c a =>
      obtain ⟨hop, rfl⟩ := Option.ite_none_right_eq_some.1 hs |>.imp_right Option.some.inj
      refine h.goto t _ ⟨a, ?_⟩ (fun hk => (hidle hop hk).elim) fun d p hopd => ?_
      · split_ifs <;> exact List.suffix_rfl
      · split_ifs at hopd
  | request t c =>
      obtain ⟨hop, rfl⟩ := Option.ite_none_right_eq_some.1 hs |>.imp_right Option.some.inj
      refine h.goto t _ ⟨.setUser, List.nil_suffix⟩ (fun hk => (hidle hop hk).elim) fun d p hopd => ?_
      obtain ⟨-, rfl⟩ := Op.request.inj hopd
      rfl
  | run t env =>
      cases hop : s.op t with
      | idle => simp [Connections.step, Connections.run, hop] at hs
      | testing c tests writes =>
          obtain ⟨a, ha⟩ := h.writes t
          rw [hop] at ha
          have hgoto : ∀ op : Op γ, (∃ a : Setter, op.writes <:+ a.writes) →
              (∀ d p, op ≠ .request d p) → Matched (s.setOp t op) := fun op hw hno =>
            h.goto t op hw (fun hk => by rw [hop] at hk; exact absurd hk (by simp [Op.kills]))
              fun d p heq => absurd heq (hno d p)
          cases tests with
          | nil =>
              simp only [Connections.step, Connections.run, hop, Option.some.injEq] at hs
              exact hs ▸ hgoto _ ⟨a, List.nil_suffix⟩ fun d p => by simp
          | cons w tests =>
              simp only [Connections.step, Connections.run, hop, Option.some.injEq] at hs
              refine hs ▸ hgoto _ ⟨a, ?_⟩ fun d p => ?_
              · split_ifs <;> exact ha
              · split_ifs <;> simp
      | writing c writes =>
          cases writes with
          | nil =>
              simp only [Connections.step, Connections.run, hop, Option.some.injEq] at hs
              refine hs ▸ h.goto t _ ⟨.setUser, List.nil_suffix⟩ (fun hk => ?_) fun d p => by simp
              rw [hop] at hk
              exact absurd hk (by simp [Op.kills])
          | cons w writes =>
              simp only [Connections.step, Connections.run, hop, Option.some.injEq] at hs
              simp only [Agreed, hop] at hC
              exact hs ▸ h.write hop hC
      | request c p =>
          simp only [Connections.step, Connections.run, hop] at hs
          simp only [Agreed, hop] at hC
          exact h.runRequest hop hC hs
  | garbageCollect ftNow =>
      obtain rfl := Option.some.inj hs
      exact h.cache (h.inv.garbageCollect ftNow) h.quiet (survives_garbageCollect s.cache ftNow)
        fun u c p _ => .inl rfl

end Threads

end Matched

/-- **The settings of a cached session.**  In every run of setters and requests, by any threads on any
objects, that keeps to `Agreed`, every request uses handles that were opened with the port, the proxy,
the protocols and the user agent that its object has at that time. -/
theorem requests_match {γ τ : Type} [DecidableEq γ] [DecidableEq τ] {s : Connections γ τ}
    (h : (connections γ τ).ReachableBy Agreed s) : ∀ r ∈ s.requests, r.opened = r.asked := by
  have hmatched : Matched s := by
    refine h.invariant ?_ fun _ _ _ hm hC hs => hm.step hC hs
    rintro _ rfl
    exact matched_init
  exact hmatched.used

instance (s : Connections Bool Bool) (op : Op Bool) : Decidable (s.RunAgrees op) := by
  unfold Connections.RunAgrees Connections.WriteAgrees Connections.AllocAgrees
  split <;> infer_instance

instance (s : Connections Bool Bool) (a : Act Bool Bool) : Decidable (Agreed s a) := by
  cases a <;> unfold Agreed <;> infer_instance

/-- A call and the next steps of the thread. -/
def called (t : Bool) (a : Act Bool Bool) (n : ℕ) : List (Act Bool Bool) :=
  a :: List.replicate n (.run t {})

/-- Two objects are given one port, and each sends a request, the second on the session of the
first. The second object asks for the same as the first one, so the session that it takes over was
opened with the port that it has itself. -/
theorem requests_match_shared : ∃ s : Connections Bool Bool,
    (connections Bool Bool).ReachableBy Agreed s ∧ s.cache.created = 1 ∧
      s.requests.map (fun r => r.opened.2) = [9020, 9020] ∧ ∀ r ∈ s.requests, r.opened = r.asked := by
  have hrun : (((connections Bool Bool).restrict Agreed).run
      (called false (.call false false (.setPort 9020)) 4 ++
        called true (.call true true (.setPort 9020)) 4 ++
        called false (.request false false) 13 ++ called true (.request true true) 6) {}).map (fun s =>
        (s.cache.created, s.requests.map fun r => r.opened.2)) = some (1, [9020, 9020]) := by
    decide +kernel
  obtain ⟨s, hs, heq⟩ := Option.map_eq_some_iff.1 hrun
  obtain ⟨hc, hports⟩ := Prod.mk.inj heq
  have hr : (connections Bool Bool).ReachableBy Agreed s := .run_restrict _ (.init rfl) hs
  exact ⟨s, hr, hc, hports, requests_match hr⟩

/-- Runs that do not keep to `Agreed`: `SetUserAgent` between two requests; two objects of one host with
two ports; `SetPort` after the handles were opened, and before they are used; and a request between the
write of `SetPort` and its `KillHostSessions`. -/
def disagreeing : List (List (Act Bool Bool)) :=
  [called false (.request false false) 13 ++ called false (.call false false (.setUserAgent ['B'])) 2 ++
      called false (.request false false) 6,
    called false (.call false false (.setPort 9020)) 4 ++ called true (.call true true (.setPort 9021)) 4 ++
      called false (.request false false) 13 ++ called true (.request true true) 6,
    called false (.request false false) 11 ++ called true (.call true false (.setPort 9020)) 4 ++
      [.run false {}],
    called false (.request false false) 13 ++ called true (.call true false (.setPort 9020)) 2 ++
      called false (.request false false) 5]

/-- A run ends with a request whose handles were opened with other settings than its object asks for. -/
def Mismatches (l : List (Act Bool Bool)) : Prop :=
  ∃ s : Connections Bool Bool, (connections Bool Bool).Reachable s ∧
    (connections Bool Bool).run l {} = some s ∧ ∃ r ∈ s.requests, r.opened ≠ r.asked

/-- A run can be computed for it. -/
theorem mismatches_of_any {l : List (Act Bool Bool)}
    (h : ((connections Bool Bool).run l {}).any (fun s =>
      s.requests.any fun r => decide (r.opened ≠ r.asked)) = true) : Mismatches l := by
  cases hrun : (connections Bool Bool).run l {} with
  | none => rw [hrun] at h; exact absurd h (by simp)
  | some s =>
      rw [hrun] at h
      obtain ⟨r, hr, hne⟩ := List.any_eq_true.1 h
      exact ⟨s, .run l (.init rfl) hrun, hrun, r, hr, of_decide_eq_true hne⟩

/-- **A request with other settings**, in each of these runs. In the first the user agent changes
between two requests of one object; in the second the objects have different ports; in the third a
port changes while a request is under way; and in the last a request comes between the write of a
port and its `KillHostSessions`. -/
theorem requests_mismatch : disagreeing.Forall Mismatches := by
  have hruns : ∀ l ∈ disagreeing, ((connections Bool Bool).run l {}).any (fun s =>
      s.requests.any fun r => decide (r.opened ≠ r.asked)) = true := by decide +kernel
  exact List.forall_iff_forall_mem.2 fun l hl => mismatches_of_any (hruns l hl)

end Session
end ECSUtil

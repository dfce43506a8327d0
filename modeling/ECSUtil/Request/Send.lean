/-
# The course of a request

`SendRequestInternal` (`ECSUtil/ECSConnection.cpp`) with all its exits, and
`CECSConnectionState::CloseRequest` and `WaitForCallbackDone`, for the requests of one thread on
one connection.  The steps are the calls to WinHTTP and to the hash provider with any
outcome, the turns of the waits, and the callbacks of WinHTTP at any time.

What is sent and received is left out here: which way a loop goes that depends on it is
chosen by the action.  Set-up calls that fail in the same way and have nothing between them are
one call: the options after the callback context with the timeouts, and the credentials.
A failed call throws a `CS3ErrorInfo`, which the function handles; the hash provider throws
a `CErrorInfo`, its base class, which it does not.
-/

import ECSUtil.Lib.StepSystem
import ECSUtil.Request.Callback

namespace ECSUtil
namespace Request

/-- Why `CloseRequest` runs: for the handle of an earlier request, in the exception handler, or at the
end. -/
inductive Closing
  | current
  | failed
  | done
  deriving DecidableEq, Repr

/-- Where the thread is. -/
inductive Pc
  /-- Outside `SendRequestInternal`. -/
  | idle
  | createHash
  | initSession
  | openRequest
  | setStatusCallback
  | setContext
  | setOptions
  | credentials
  | sendRequest
  | sendData
  | signChunk (w : Write)
  | writeData (w : Write)
  /-- After a turn of the loop that sends the data. -/
  | sent
  | sendThrottle
  | receiveResponse
  | queryHeaders
  | queryDataAvailable
  | readData
  | receiveThrottle
  /-- The reply is complete. -/
  | received
  /-- In the exception handler, the block it belongs to being left. -/
  | handler
  | callbackDone
  /-- In `WaitComplete`, after a call. -/
  | wait (c : Cmd)
  /-- In `WaitComplete`, in `CloseRequest`. -/
  | closing (k : Closing)
  deriving DecidableEq, Repr

/-- What kind of request it is. -/
structure Config where
  streamSend : Bool := false
  streamReceive : Bool := false
  bS3AuthV4 : Bool := false
  dwLongestTimeout : ℕ := 0
  deriving DecidableEq, Repr

/-- The buffer that data are written from. -/
def Config.writeBuffer (cfg : Config) : Buffer :=
  if !cfg.streamSend then .pData
  else if cfg.bS3AuthV4 then .s3AuthV4SendBuf
  else .streamSendFront

/-- The buffer that data are read into. -/
def Config.readBuffer (cfg : Config) : Buffer := if cfg.streamReceive then .rcvBuf else .retData

/-- The outcomes of a call. -/
inductive Result
  | ok
  /-- The call fails, and a `CS3ErrorInfo` is thrown. -/
  | failed
  /-- The call fails and is made again. -/
  | resend
  /-- The hash provider fails, and a `CErrorInfo` is thrown. -/
  | hashFailed
  deriving DecidableEq, Repr

/-- What a turn of the loop that sends the data comes to: there is nothing more to send, no data came
in time, nothing is written, data are written; and then whether there is more, or whether
this was the last entry of the stream, with some of its data yet to be sent. -/
inductive SendTurn
  | finish
  | noData
  | skip
  | write
  | more
  | last (bRest : Bool)
  deriving DecidableEq, Repr

/-- What a turn of a loop that waits for the throttle comes to. -/
inductive ThrottleTurn
  | go
  | again
  | failed
  deriving DecidableEq, Repr

def ERROR_WINHTTP_RESEND_REQUEST : ℕ := 12032

/-- How a request was left: by return, with or without success and with the mark of
the session that was released, or by an exception. -/
inductive Exit
  | returned (bSuccess : Bool) (bKillWhenDone : Option Bool)
  | thrown
  deriving DecidableEq, Repr

/-- The state of one thread on one connection, and of WinHTTP as far as it concerns it. -/
structure State where
  pc : Pc := .idle
  cfg : Config := {}
  iRetryAuth : ℕ := 0
  iTimeout : ℕ := 0
  /-- A command is outstanding. -/
  dwCurrentThread : Bool := false
  hRequest : Option ℕ := none
  bCallbackRegistered : Bool := false
  /-- The session in use, with its `bKillWhenDone`. -/
  session : Option Bool := none
  context : CallbackContext := {}
  /-- The handles WinHTTP knows of. -/
  handles : List Handle := []
  opened : ℕ := 0
  /-- The callbacks that are between the lock and the exit flag. -/
  inCallback : ℕ := 0
  /-- The number of the request. -/
  request : ℕ := 0
  prepared : ℕ := 0
  cleaned : ℕ := 0
  left : Option Exit := none
  /-- A request got as far as to register its callback context. -/
  registered : Bool := false
  /-- A buffer was released or reallocated while an operation on it was pending. -/
  spoiled : Bool := false
  deriving Repr

namespace State

/-- `PrepareCmd`. -/
def prepareCmd (s : State) : State :=
  { s with dwCurrentThread := true, prepared := s.prepared + 1, context := s.context.reset }

/-- `CleanupCmd`. -/
def cleanupCmd (s : State) : State :=
  { s with dwCurrentThread := false, cleaned := s.cleaned + 1 }

/-- An operation on one of some buffers of this request is pending. -/
def inUse (s : State) (p : Buffer → Bool) : Bool :=
  s.handles.any fun h => h.pending.any fun o => o.request = s.request && o.cmd.buffer.any p

/-- Some buffers of this request are released or reallocated. -/
def giveUp (s : State) (p : Buffer → Bool) : State :=
  { s with spoiled := s.spoiled || s.inUse p }

/-- A `CS3ErrorInfo` is thrown: the block is left, and with it what is local to it. -/
def throwS3 (s : State) : State := { s.giveUp fun b => b = .rcvBuf with pc := .handler }

/-- A `CErrorInfo` is thrown: the function is left, and with it all of its buffers, the
caller's too. -/
def escape (s : State) : State :=
  { s.giveUp fun _ => true with pc := .idle, left := some .thrown }

/-- The current handle is changed. -/
def modifyHandle (s : State) (f : Handle → Handle) : State :=
  { s with handles := s.handles.map fun h => if some h.id = s.hRequest then f h else h }

/-- A call has succeeded, and the thread waits for its completion. -/
def issue (s : State) (c : Cmd) : State :=
  { s.modifyHandle fun h => { h with pending := some ⟨s.request, c⟩ } with
    pc := .wait c, iTimeout := 0 }

/-- What follows on `CloseRequest`: the session is released, in the handler with the mark. -/
def closed (s : State) : Closing → State
  | .current => { s with pc := .openRequest }
  | .failed =>
      { s with pc := .callbackDone, session := none
               left := some (.returned false (s.session.map fun _ => true)) }
  | .done => { s with pc := .callbackDone, session := none, left := some (.returned true s.session) }

/-- `CloseRequest`, up to the wait for the last callback. -/
def closeRequest (s : State) (k : Closing) : State :=
  match s.hRequest with
  | none => s.closed k
  | some id =>
      if s.bCallbackRegistered then
        { s.prepareCmd.modifyHandle fun h => { h with bClosing := true } with
          hRequest := none, pc := .closing k, iTimeout := 0 }
      else
        { s with hRequest := none, handles := s.handles.filter fun h => h.id ≠ id }.closed k

/-- A call that goes through a command: it is prepared, and cleaned up where the call fails. -/
def command (s : State) (c : Cmd) : Result → Option State
  | .ok => some (s.prepareCmd.issue c)
  | .failed => some s.prepareCmd.cleanupCmd.throwS3
  | .resend => if c = .sendRequest then some s.prepareCmd.cleanupCmd else none
  | .hashFailed => none

/-- The next call of the function, with its outcome. -/
def call (s : State) (r : Result) : Option State :=
  match s.pc, r with
  | .createHash, .ok => some { s with pc := .initSession }
  | .createHash, .hashFailed => some s.escape
  | .initSession, .ok => some ({ s with session := some false }.closeRequest .current)
  | .initSession, .failed => some { s with session := some false }.throwS3
  | .openRequest, .ok =>
      some { s with
        bCallbackRegistered := false
        hRequest := some s.opened
        handles := s.handles ++ [{ id := s.opened }]
        opened := s.opened + 1
        pc := .setStatusCallback }
  | .openRequest, .failed => some { s with bCallbackRegistered := false }.throwS3
  | .setStatusCallback, .ok => some { s with pc := .setContext }
  | .setStatusCallback, .failed => some s.throwS3
  | .setContext, .ok =>
      some { s.modifyHandle fun h => { h with bContext := true } with
        bCallbackRegistered := true, registered := true, pc := .setOptions }
  | .setContext, .failed => some s.throwS3
  | .setOptions, .ok => some { s with iRetryAuth := 0, pc := .credentials }
  | .setOptions, .failed => some s.throwS3
  | .credentials, .ok => some { s with pc := .sendRequest }
  | .credentials, .failed => some s.throwS3
  | .sendRequest, r => s.command .sendRequest r
  | .signChunk w, .ok => some { s with pc := .writeData w }
  | .signChunk _, .hashFailed => some s.escape
  | .writeData w, r => s.command (.writeData s.cfg.writeBuffer w) r
  | .receiveResponse, r => s.command .receiveResponse r
  | .queryDataAvailable, r => s.command .queryDataAvailable r
  -- The buffer is made as large as the data that are there.
  | .readData, r => (s.giveUp fun b => b = s.cfg.readBuffer).command (.readData s.cfg.readBuffer) r
  -- The reply is terminated, and the block left; an error document throws.
  | .received, .ok => some ((s.giveUp fun b => b = .retData || b = .rcvBuf).closeRequest .done)
  | .received, .failed => some (s.giveUp fun b => b = .retData).throwS3
  | .handler, .ok => some (s.closeRequest .failed)
  | _, _ => none

/-- A turn of the loop that sends the data. -/
def send (s : State) (t : SendTurn) : Option State :=
  match s.pc, t with
  | .sendData, .finish => if s.cfg.streamSend then none else some { s with pc := .receiveResponse }
  | .sendData, .noData => if s.cfg.streamSend then some s.throwS3 else none
  | .sendData, .skip => if s.cfg.streamSend then some { s with pc := .sent } else none
  | .sendData, .write =>
      some { s with
        pc := if s.cfg.streamSend && s.cfg.bS3AuthV4 then .signChunk .part else .writeData .part }
  -- The front of the queue may be done with.
  | .sent, .more => some { s.giveUp fun b => b = .streamSendFront with pc := .sendThrottle }
  | .sent, .last bRest =>
      if s.cfg.streamSend then
        some { s.giveUp fun b => b = .streamSendFront with
          pc :=
            if s.cfg.bS3AuthV4 then .signChunk (if bRest then .rest else .final)
            else .receiveResponse }
      else none
  | _, _ => none

/-- A turn of a loop that waits for the throttle. -/
def throttle (s : State) (t : ThrottleTurn) : Option State :=
  match s.pc, t with
  | .sendThrottle, .go => some { s with pc := .sendData }
  | .receiveThrottle, .go => some { s with pc := .queryDataAvailable }
  | .sendThrottle, .again => some s
  | .receiveThrottle, .again => some s
  | .sendThrottle, .failed => some s.throwS3
  | .receiveThrottle, .failed => some s.throwS3
  | _, _ => none

/-- The headers of the reply, with the status and whether the queries succeed: the request is
sent again with credentials, up to three times. -/
def headers (s : State) (dwHttpError : ℕ) (bQueried bSchemes : Bool) : Option State :=
  if s.pc ≠ .queryHeaders then none
  else if !bQueried then some s.throwS3
  else if dwHttpError ≠ 401 ∧ dwHttpError ≠ 407 then some { s with pc := .queryDataAvailable }
  else if !bSchemes then some s.throwS3
  else if s.iRetryAuth + 1 < 3 then
    some { s with iRetryAuth := s.iRetryAuth + 1, pc := .credentials }
  else some { s with pc := .queryDataAvailable }

/-- A command has succeeded. -/
def succeeded (s : State) : Cmd → State
  | .sendRequest => { s with pc := .sendData }
  | .writeData _ .part => { s with pc := .sent }
  | .writeData _ .rest => { s with pc := .signChunk .final }
  | .writeData _ .final => { s with pc := .receiveResponse }
  | .receiveResponse => { s with pc := .queryHeaders }
  | .queryDataAvailable =>
      { s with pc := if s.context.dwReadLength = 0 then .received else .readData }
  | .readData _ => { s with pc := .receiveThrottle }

/-- A command has failed, or the wait for it was given up. -/
def commandFailed (s : State) (c : Cmd) : State :=
  if c = .sendRequest ∧ s.context.dwResultError = ERROR_WINHTTP_RESEND_REQUEST then
    { s with pc := .sendRequest }
  else s.throwS3

/-- A turn of `WaitComplete`. -/
def waitComplete (s : State) (r : WaitResult) (bAbort : Bool) : Option State :=
  -- The event is signaled, or it is not.
  if (r = .object ∧ !s.context.evCmd) ∨ (r = .timeout ∧ s.context.evCmd) then none
  else
    match s.pc with
    | .wait c =>
        let t := waitTurn s.cfg.dwLongestTimeout s.context s.iTimeout c.expected r bAbort
        let s' := { s with context := t.2.1, iTimeout := t.2.2 }
        match t.1 with
        | none => some s'
        | some true => some (s'.cleanupCmd.succeeded c)
        | some false => some (s'.cleanupCmd.commandFailed c)
    | .closing k =>
        let t := waitTurn s.cfg.dwLongestTimeout s.context s.iTimeout .handleClosing r bAbort
        let s' := { s with context := t.2.1, iTimeout := t.2.2 }
        match t.1 with
        | none => some s'
        | some _ => some ({ s'.cleanupCmd with bCallbackRegistered := false }.closed k)
    | _ => none

/-- A turn of `WaitForCallbackDone`; when it is over the function returns. -/
def exitFlag (s : State) : Option State :=
  if s.pc ≠ .callbackDone then none
  else if s.context.lExitFlag then some { s.giveUp fun _ => true with pc := .idle }
  else some s

/-- WinHTTP calls back. -/
def callback (s : State) (id : ℕ) (st : Status) (info : ℕ) : Option State :=
  match s.handles.find? fun h => h.id = id with
  | some h =>
      if h.mayCall st then
        some { s with
          context := s.context.httpStatusCallback st info
          handles := s.handles.filterMap fun h => if h.id = id then h.called st else some h
          inCallback := s.inCallback + 1 }
      else none
  | none => none

/-- A callback is done. -/
def callbackEnd (s : State) : Option State :=
  if s.inCallback = 0 then none
  else some { s with
    context := { s.context with lExitFlag := true }, inCallback := s.inCallback - 1 }

end State

/-- The steps. -/
inductive Action
  | sendRequestInternal (cfg : Config)
  | call (r : Result)
  | send (t : SendTurn)
  | throttle (t : ThrottleTurn)
  | headers (dwHttpError : ℕ) (bQueried bSchemes : Bool)
  | waitComplete (r : WaitResult) (bAbort : Bool)
  | exitFlag
  | callback (id : ℕ) (st : Status) (info : ℕ)
  | callbackEnd
  deriving Repr

/-- One step. -/
def step (s : State) : Action → Option State
  | .sendRequestInternal cfg =>
      if s.pc = .idle then
        some { s with
          pc := if cfg.bS3AuthV4 then .createHash else .initSession
          cfg := cfg
          request := s.request + 1
          left := none }
      else none
  | .call r => s.call r
  | .send t => s.send t
  | .throttle t => s.throttle t
  | .headers dwHttpError bQueried bSchemes => s.headers dwHttpError bQueried bSchemes
  | .waitComplete r bAbort => s.waitComplete r bAbort
  | .exitFlag => s.exitFlag
  | .callback id st info => s.callback id st info
  | .callbackEnd => s.callbackEnd

/-- The requests of one thread on one connection, from a fresh state on. -/
def system : StepSystem State Action where
  init s := s = {}
  step := step

/-- A callback begins, by what it does under the lock. -/
theorem callback_eq {s s' : State} {id : ℕ} {st : Status} {info : ℕ} (hs : s.callback id st info = some s') :
    ∃ g ∈ s.handles, g.id = id ∧ g.mayCall st = true ∧
      s' = { s with
        context := s.context.httpStatusCallback st info
        handles := s.handles.filterMap fun h => if h.id = id then h.called st else some h
        inCallback := s.inCallback + 1 } := by
  unfold State.callback at hs
  split at hs
  · rename_i g hfind
    split_ifs at hs with hmay
    exact ⟨g, List.mem_of_find?_eq_some hfind, by simpa using List.find?_some hfind, hmay,
      (Option.some.inj hs).symm⟩
  · exact absurd hs (by simp)

end Request
end ECSUtil

/-
# `S3Write`: the caller feeds the queue, a worker thread sends it

`S3Write` and `CS3WriteThread::DoWork` (`ECSUtil/FileSupport.cpp`), with what
`Create`, `SendRequest` and the send loop of `SendRequestInternal`
(`ECSUtil/ECSConnection.cpp`) do with the queue: the send loop pops entries until
it has popped one marked `bLast`, then waits for the response; a response that
asks for authorization starts the loop again, three times in all; `SendRequest`
reports success only for a request that got a response.

The state is in two halves, one for each thread (`Main`, `Worker`), with the
queue between them.  Each access to something shared is a step of its own.  The
file may be rewritten by somebody else at any time, and what `IStream::Read`
delivers is cut from what the file then holds.

The checksum pass is left to the actions (an error, or some position of the
stream), as is the progress callback; neither reaches the queue.
-/

import ECSUtil.Conn.Error
import ECSUtil.Conn.Stream
import ECSUtil.Lib.StepSystem
import Mathlib.Tactic.Common

namespace ECSUtil
namespace S3Write

/-- The parameters of `S3Write` that matter here. -/
structure Config where
  dwBufSize : ℕ
  bChecksum : Bool
  dwMaxQueueSize : ℕ
  deriving DecidableEq, Repr

/-- Where the thread that called `S3Write` is.  `terminate` and `join` are the
two halves of `KillThreadWait`, `catchTerminate` and `catchJoin` the same in the
handler. -/
inductive Pc
  | stat
  | checksum
  | seek
  | testWorkerDone
  | testAbort
  | read
  | push
  | waitTest
  | waitEvent
  | checkSize
  | terminate
  | join
  | catchTerminate
  | catchJoin
  | returned (result : S3Error)
  deriving DecidableEq, Repr

/-- The feeding loop, after the `Seek`. -/
def Pc.feeding : Pc → Bool
  | .testWorkerDone | .testAbort | .read | .push => true
  | _ => false

/-- Nothing was read yet. -/
def Pc.early : Pc → Bool
  | .stat | .checksum | .seek => true
  | _ => false

/-- Before the end of the file was met. -/
def Pc.looping : Pc → Bool
  | .stat | .checksum | .seek | .testWorkerDone | .testAbort | .read => true
  | _ => false

/-- The wait for the worker has ended without a throw. -/
def Pc.waited : Pc → Bool
  | .checkSize | .terminate | .join => true
  | _ => false

/-- The locals of `S3Write`, the stream it reads, and what it has read. -/
structure Main where
  pc : Pc := .stat
  /-- What the file holds. -/
  file : Bytes := []
  /-- The file was rewritten after the `Stat`. -/
  rewritten : Bool := false
  /-- The seek pointer of `pStream`. -/
  position : ℕ := 0
  fileSize : ℕ := 0
  /-- The worker thread was created. -/
  started : Bool := false
  writeRec : StreamDataEntry := {}
  liOffset : ℕ := 0
  bDone : Bool := false
  /-- The code of the `CErrorInfo` that was thrown. -/
  dwThrown : DWORD := ERROR_SUCCESS
  /-- All that `Read` has delivered after the `Seek`. -/
  delivered : Bytes := []
  deriving DecidableEq

/-- Where the worker thread is: not yet in `DoWork`, in the send loop of a
request (or on the way to it), behind the send loop, with a response, after
`Error = pConn->Create(..)`, after `SetEvent`, after `bWorkerDone = true`, or
ended. -/
inductive WorkerPc
  | idle
  | sending
  | sent
  | responded
  | returned
  | signaled
  | done
  | ended
  deriving DecidableEq, Repr

/-- The worker thread. -/
structure Worker where
  pc : WorkerPc := .idle
  error : S3Error := {}
  bWorkerDone : Bool := false
  evWriteComplete : Bool := false
  bGotServerResponse : Bool := false
  iRetryAuth : ℕ := 0
  deriving DecidableEq

/-- The two threads and the queue between them. -/
structure State where
  main : Main := {}
  worker : Worker := {}
  streamData : StreamData := .empty
  bTerminate : Bool := false
  deriving DecidableEq

/-- What one of the threads, or somebody else, does next. -/
inductive Action
  /-- The file is rewritten, cut or extended. -/
  | rewrite (file : Bytes)
  /-- `pStream->Stat`. -/
  | stat (hr : DWORD)
  /-- `CalcUploadChecksum`, where one is asked for, and the start of the worker. -/
  | checksum (dwError : DWORD) (position : ℕ)
  /-- `pStream->Seek` to the start. -/
  | seek (hr : DWORD)
  | testWorkerDone
  /-- `Conn.TestAbort()` in the feeding loop. -/
  | testAbort (abort : Bool)
  /-- `pStream->Read`, with room for `n` bytes. -/
  | read (hr : DWORD) (n : ℕ)
  | push
  | waitTest
  /-- `WaitForSingleObject` finds `evWriteComplete` set. -/
  | waitSignaled
  /-- It times out; then `Conn.TestAbort()`. -/
  | waitTimeout (abort : Bool)
  /-- It fails. -/
  | waitFailed (dwError : DWORD)
  | checkSize
  | terminate
  | join
  | catchTerminate
  | catchJoin
  /-- The worker enters `DoWork`. -/
  | workStart
  /-- The send loop pops an entry it has sent. -/
  | pop
  /-- The server answers. -/
  | respond
  /-- The request is sent again, with the credentials asked for. -/
  | resend
  /-- `Error = pConn->Create(..)`. -/
  | createReturn (e : S3Error)
  | signal
  | storeWorkerDone
  /-- The worker leaves its thread procedure. -/
  | threadEnd
  /-- Another thread calls `KillThread` on the worker. -/
  | killWorker
  deriving Repr

/-- A `throw CErrorInfo(.., dwError)` in the `try` block. -/
def Main.raiseError (m : Main) (dwError : DWORD) : Main :=
  { m with dwThrown := dwError, pc := .catchTerminate }

/-- A return before the worker was started. -/
def Main.returnError (m : Main) (dwError : DWORD) : Main :=
  { m with pc := .returned (.ofWin32 dwError) }

/-- The loop body from `pStream->Read`, which delivered `data`, to the push. -/
def Main.loaded (m : Main) (hr : DWORD) (data : Bytes) : Main :=
  let last := m.writeRec.bLast || decide (hr = S_FALSE) || decide (data = [])
  { m with
    bDone := m.bDone || decide (hr = S_FALSE) || decide (data = [])
    writeRec := { data := data, ullOffset := m.liOffset, bLast := last }
    liOffset := m.liOffset + data.length
    position := m.position + data.length
    delivered := m.delivered ++ data
    pc := .push }

namespace State

/-- One step of the thread that called `S3Write`. -/
def mainStep (cfg : Config) (s : State) : Action → Option Main
  | .stat hr =>
      if s.main.pc = .stat then
        some (if hr ≠ S_OK then s.main.returnError hr
          else { s.main with fileSize := s.main.file.length, rewritten := false, pc := .checksum })
      else none
  | .checksum dwError position =>
      if s.main.pc = .checksum then
        some (if cfg.bChecksum ∧ dwError ≠ ERROR_SUCCESS then s.main.returnError dwError
          else { s.main with
            position := if cfg.bChecksum then position else s.main.position
            started := true
            pc := .seek })
      else none
  | .seek hr =>
      if s.main.pc = .seek then
        some (if hr ≠ S_OK then s.main.raiseError hr
          else { s.main with position := 0, pc := .testWorkerDone })
      else none
  | .testWorkerDone =>
      if s.main.pc = .testWorkerDone then
        some { s.main with pc := if s.worker.bWorkerDone then .waitTest else .testAbort }
      else none
  | .testAbort abort =>
      if s.main.pc = .testAbort then
        some { s.main with pc := if abort then .waitTest else .read }
      else none
  | .read hr n =>
      if s.main.pc = .read ∧ n ≤ cfg.dwBufSize then
        some (if hr ≠ S_OK ∧ hr ≠ S_FALSE then s.main.raiseError hr
          else s.main.loaded hr ((s.main.file.drop s.main.position).take n))
      else none
  | .waitTest =>
      if s.main.pc = .waitTest then
        some { s.main with pc := if s.worker.bWorkerDone then .checkSize else .waitEvent }
      else none
  | .waitSignaled =>
      if s.main.pc = .waitEvent ∧ s.worker.evWriteComplete then
        some { s.main with pc := .checkSize }
      else none
  | .waitTimeout abort =>
      if s.main.pc = .waitEvent then
        some (if abort then s.main.raiseError ERROR_OPERATION_ABORTED
          else { s.main with pc := .waitTest })
      else none
  | .waitFailed dwError =>
      if s.main.pc = .waitEvent ∧ dwError ≠ ERROR_SUCCESS then some (s.main.raiseError dwError)
      else none
  | .checkSize =>
      if s.main.pc = .checkSize then
        some (if s.main.fileSize ≠ s.main.liOffset then s.main.raiseError ERROR_BAD_LENGTH
          else { s.main with pc := .terminate })
      else none
  | .join =>
      if s.main.pc = .join ∧ s.worker.pc = .ended then
        some { s.main with pc := .returned s.worker.error }
      else none
  | .catchJoin =>
      if s.main.pc = .catchJoin ∧ s.worker.pc = .ended then
        some { s.main with
          pc := .returned (if s.worker.error.ifError then s.worker.error
            else .ofWin32 s.main.dwThrown) }
      else none
  | _ => none

/-- One step of the worker thread, pops apart. -/
def workerStep (s : State) : Action → Option Worker
  | .workStart =>
      if s.worker.pc = .idle ∧ s.main.started then some { s.worker with pc := .sending } else none
  | .respond =>
      if s.worker.pc = .sent then
        some { s.worker with pc := .responded, bGotServerResponse := true }
      else none
  | .resend =>
      if s.worker.pc = .responded ∧ s.worker.iRetryAuth + 1 < 3 then
        some { s.worker with pc := .sending, iRetryAuth := s.worker.iRetryAuth + 1 }
      else none
  | .createReturn e =>
      if (s.worker.pc = .sending ∨ s.worker.pc = .sent ∨ s.worker.pc = .responded) ∧
          (e.ifError ∨ s.worker.bGotServerResponse) then
        some { s.worker with pc := .returned, error := e }
      else none
  | .signal =>
      if s.worker.pc = .returned then
        some { s.worker with pc := .signaled, evWriteComplete := true }
      else none
  | .storeWorkerDone =>
      if s.worker.pc = .signaled then some { s.worker with pc := .done, bWorkerDone := true }
      else none
  | .threadEnd =>
      if s.main.started ∧ s.bTerminate ∧ (s.worker.pc = .idle ∨ s.worker.pc = .done) then
        some { s.worker with pc := .ended }
      else none
  | _ => none

/-- One step of one of the threads. -/
def step (cfg : Config) (s : State) : Action → Option State
  | .rewrite file => some { s with main := { s.main with file := file, rewritten := true } }
  | .push =>
      -- `WaitForQueue` holds the push back while the queue is too long and the worker is busy.
      if s.main.pc = .push ∧ (cfg.dwMaxQueueSize = 0 ∨
          s.streamData.queue.length ≤ cfg.dwMaxQueueSize ∨ s.worker.bWorkerDone ∨ s.bTerminate) then
        some { s with
          streamData := s.streamData.push s.main.writeRec
          main := { s.main with pc := if s.main.bDone then .waitTest else .testWorkerDone } }
      else none
  | .pop =>
      if s.worker.pc = .sending then
        s.streamData.pop.map fun (entry, q) =>
          { s with
            streamData := q
            worker := { s.worker with pc := if entry.bLast then .sent else .sending } }
      else none
  | .terminate =>
      if s.main.pc = .terminate then
        some { s with bTerminate := true, main := { s.main with pc := .join } }
      else none
  | .catchTerminate =>
      if s.main.pc = .catchTerminate then
        some { s with bTerminate := true, main := { s.main with pc := .catchJoin } }
      else none
  | .killWorker => some { s with bTerminate := true }
  | a =>
      match s.mainStep cfg a with
      | some m => some { s with main := m }
      | none => (s.workerStep a).map fun w => { s with worker := w }

end State

/-- The two threads of a call of `S3Write` on a file. -/
def system (cfg : Config) : StepSystem State Action where
  init s := ∃ file, s = { main := { file := file } }
  step := State.step cfg

/-- The entry that was read and not yet pushed. -/
def Main.inHand (m : Main) : Bytes := if m.pc = .push then m.writeRec.data else []

/-- What the feeding thread keeps true of its locals and of what it pushed. -/
structure Feed (m : Main) (pushed : List StreamDataEntry) : Prop where
  delivered_eq : m.delivered = body pushed ++ m.inHand
  offset : m.liOffset = m.delivered.length
  unread : m.pc.early → m.liOffset = 0
  position : m.pc.feeding → m.position = m.liOffset
  /-- `FileSize` is the size of the file that was never rewritten. -/
  size : m.pc = .checksum ∨ m.started → m.rewritten = false → m.fileSize = m.file.length
  /-- What was read is the start of the file that was never rewritten. -/
  content : m.rewritten = false → m.delivered = m.file.take m.liOffset
  last : m.writeRec.bLast = m.bDone
  looping : m.pc.looping → m.bDone = false
  unclosed : m.bDone = false ∨ m.pc = .push → Open pushed
  marks : Marked pushed
  thrown : m.pc = .catchTerminate ∨ m.pc = .catchJoin → m.dwThrown ≠ ERROR_SUCCESS
  sized : m.pc = .terminate ∨ m.pc = .join → m.fileSize = m.liOffset

/-- At first the feeding thread has read nothing and pushed nothing. -/
theorem Feed.init (file : Bytes) : Feed { file := file } [] where
  delivered_eq := rfl
  offset := rfl
  unread _ := rfl
  position h := by simp [Pc.feeding] at h
  size h := by simp at h
  content _ := rfl
  last := rfl
  looping _ := rfl
  unclosed _ := open_nil
  marks := .inl open_nil
  thrown h := by simp at h
  sized h := by simp at h

/-- The feeding thread moves on to a place where nothing is in hand. -/
theorem Feed.goto {m : Main} {pushed : List StreamDataEntry} (hf : Feed m pushed) {pc : Pc}
    (hold : m.pc ≠ .push) (hnew : pc ≠ .push) (he : pc.early → m.liOffset = 0)
    (hp : pc.feeding → m.position = m.liOffset) (hl : pc.looping → m.bDone = false) (hc : pc = .checksum → m.started)
    (ht : pc = .catchTerminate ∨ pc = .catchJoin → m.dwThrown ≠ ERROR_SUCCESS)
    (hs : pc = .terminate ∨ pc = .join → m.fileSize = m.liOffset) :
    Feed { m with pc := pc } pushed where
  delivered_eq := by simpa [Main.inHand, hold, hnew] using hf.delivered_eq
  offset := hf.offset
  unread := he
  position := hp
  size h := hf.size (.inr (h.elim hc id))
  content := hf.content
  last := hf.last
  looping := hl
  unclosed h := hf.unclosed (.inl (h.resolve_right hnew))
  marks := hf.marks
  thrown := ht
  sized := hs

/-- A throw keeps what is true. -/
theorem Feed.raiseError {m : Main} {pushed : List StreamDataEntry} (hf : Feed m pushed)
    (hold : m.pc ≠ .push) {dwError : DWORD} (he : dwError ≠ ERROR_SUCCESS) :
    Feed (m.raiseError dwError) pushed where
  delivered_eq := by simpa [Main.inHand, hold, Main.raiseError] using hf.delivered_eq
  offset := hf.offset
  unread h := by simp [Main.raiseError, Pc.early] at h
  position h := by simp [Main.raiseError, Pc.feeding] at h
  size h := hf.size (.inr (by simpa [Main.raiseError] using h))
  content := hf.content
  last := hf.last
  looping h := by simp [Main.raiseError, Pc.looping] at h
  unclosed h := hf.unclosed (.inl (by simpa [Main.raiseError] using h))
  marks := hf.marks
  thrown _ := he
  sized h := by simp [Main.raiseError] at h

/-- So does a return before the worker was started. -/
theorem Feed.returnError {m : Main} {pushed : List StreamDataEntry} (hf : Feed m pushed)
    (hold : m.pc ≠ .push) (dwError : DWORD) : Feed (m.returnError dwError) pushed where
  delivered_eq := by simpa [Main.inHand, hold, Main.returnError] using hf.delivered_eq
  offset := hf.offset
  unread h := by simp [Main.returnError, Pc.early] at h
  position h := by simp [Main.returnError, Pc.feeding] at h
  size h := hf.size (.inr (by simpa [Main.returnError] using h))
  content := hf.content
  last := hf.last
  looping h := by simp [Main.returnError, Pc.looping] at h
  unclosed h := hf.unclosed (.inl (by simpa [Main.returnError] using h))
  marks := hf.marks
  thrown h := by simp [Main.returnError] at h
  sized h := by simp [Main.returnError] at h

/-- **A read adds the next bytes.**  What it delivers continues what was
delivered, and it is marked `bLast` exactly when the loop is to end. -/
theorem Feed.loaded {m : Main} {pushed : List StreamDataEntry} (hf : Feed m pushed)
    (hpc : m.pc = .read) (hr : DWORD) (n : ℕ) :
    Feed (m.loaded hr ((m.file.drop m.position).take n)) pushed where
  delivered_eq := by
    have := hf.delivered_eq
    simp only [Main.inHand, hpc, reduceCtorEq, if_false, List.append_nil] at this
    simp [Main.loaded, Main.inHand, this]
  offset := by simp [Main.loaded, hf.offset]
  unread h := by simp [Main.loaded, Pc.early] at h
  position _ := by
    have hp : m.position = m.liOffset := hf.position (by rw [hpc]; rfl)
    simp [Main.loaded, hp]
  size h := hf.size (.inr (by simpa [Main.loaded] using h))
  content h := by
    have hp : m.position = m.liOffset := hf.position (by rw [hpc]; rfl)
    have hd : m.delivered = m.file.take m.liOffset := hf.content h
    simp only [Main.loaded, hp, hd, List.take_add, List.append_cancel_left_eq]
    rw [List.length_take]
    exact List.take_eq_take_min
  last := by simp [Main.loaded, hf.last]
  looping h := by simp [Main.loaded, Pc.looping] at h
  unclosed _ := hf.unclosed (.inl (hf.looping (by rw [hpc]; rfl)))
  marks := hf.marks
  thrown h := by simp [Main.loaded] at h
  sized h := by simp [Main.loaded] at h

/-- **The push hands over what was read.** The entry in hand goes behind those pushed before, so
nothing is lost or doubled between the read and the push, and its mark is `bDone`. -/
theorem Feed.push {m : Main} {pushed : List StreamDataEntry} (hf : Feed m pushed)
    (hpc : m.pc = .push) :
    Feed { m with pc := if m.bDone then .waitTest else .testWorkerDone }
      (pushed ++ [m.writeRec]) := by
  have ho : Open pushed := hf.unclosed (.inr hpc)
  have hst : m.pc = .checksum ∨ m.started ↔ m.started := by simp [hpc]
  have hsize := hf.size
  rw [hst] at hsize
  have hd : m.delivered = body pushed ++ m.writeRec.data := by
    simpa [Main.inHand, hpc] using hf.delivered_eq
  have hp : m.position = m.liOffset := hf.position (by rw [hpc]; rfl)
  split_ifs with hb
  · have hc : Closed (pushed ++ [m.writeRec]) := ho.closed (by rw [hf.last, hb])
    exact ⟨by simp [Main.inHand, hd], hf.offset, by simp [Pc.early], by simp [Pc.feeding],
      by simpa using hsize, hf.content, hf.last, by simp [Pc.looping], by simp [hb], .inr hc,
      by simp, by simp⟩
  · have hb : m.bDone = false := by simpa using hb
    have ho' : Open (pushed ++ [m.writeRec]) := ho.append (by simp [Open, hf.last, hb])
    exact ⟨by simp [Main.inHand, hd], hf.offset, by simp [Pc.early], fun _ => hp,
      by simpa using hsize, hf.content, hf.last, fun _ => hb, fun _ => ho', .inl ho', by simp,
      by simp⟩

/-- **Every step of the feeding thread keeps what it promises.** What is promised is that the
entries pushed, with the one in hand, are what was delivered of the file, and that the last one and
no other is marked. -/
theorem Feed.mainStep {cfg : Config} {s : State} {a : Action} {m : Main}
    {pushed : List StreamDataEntry} (hf : Feed s.main pushed)
    (hs : s.mainStep cfg a = some m) : Feed m pushed := by
  cases a with
  | stat hr =>
      simp only [State.mainStep, Option.ite_none_right_eq_some, Option.some.injEq] at hs
      obtain ⟨hpc, rfl⟩ := hs
      have h0 : s.main.liOffset = 0 := hf.unread (by rw [hpc]; rfl)
      have hd : s.main.delivered = [] := List.eq_nil_of_length_eq_zero (hf.offset ▸ h0)
      split_ifs
      · exact hf.returnError (by rw [hpc]; simp) hr
      · exact ⟨by simpa [Main.inHand, hpc] using hf.delivered_eq, hf.offset, fun _ => h0,
          by simp [Pc.feeding], fun _ _ => rfl, fun _ => by simp [h0, hd], hf.last,
          fun _ => hf.looping (by rw [hpc]; rfl),
          fun _ => hf.unclosed (.inl (hf.looping (by rw [hpc]; rfl))), hf.marks, by simp, by simp⟩
  | checksum dwError position =>
      simp only [State.mainStep, Option.ite_none_right_eq_some, Option.some.injEq] at hs
      obtain ⟨hpc, rfl⟩ := hs
      split_ifs
      · exact hf.returnError (by rw [hpc]; simp) dwError
      all_goals
        exact ⟨by simpa [Main.inHand, hpc] using hf.delivered_eq, hf.offset,
          fun _ => hf.unread (by rw [hpc]; rfl), by simp [Pc.feeding], fun _ => hf.size (.inl hpc),
          hf.content, hf.last, fun _ => hf.looping (by rw [hpc]; rfl),
          fun _ => hf.unclosed (.inl (hf.looping (by rw [hpc]; rfl))), hf.marks, by simp, by simp⟩
  | seek hr =>
      simp only [State.mainStep, Option.ite_none_right_eq_some, Option.some.injEq] at hs
      obtain ⟨hpc, rfl⟩ := hs
      split_ifs with h
      · exact hf.raiseError (by rw [hpc]; simp) h
      · exact ⟨by simpa [Main.inHand, hpc] using hf.delivered_eq, hf.offset, by simp [Pc.early],
          fun _ => (hf.unread (by rw [hpc]; rfl)).symm, fun h => hf.size (.inr (by simpa using h)),
          hf.content, hf.last, fun _ => hf.looping (by rw [hpc]; rfl),
          fun _ => hf.unclosed (.inl (hf.looping (by rw [hpc]; rfl))), hf.marks, by simp, by simp⟩
  | testWorkerDone =>
      simp only [State.mainStep, Option.ite_none_right_eq_some, Option.some.injEq] at hs
      obtain ⟨hpc, rfl⟩ := hs
      have hp : s.main.position = s.main.liOffset := hf.position (by rw [hpc]; rfl)
      have hl : s.main.bDone = false := hf.looping (by rw [hpc]; rfl)
      split_ifs <;> exact hf.goto (by simp [hpc]) (by simp) (by simp [Pc.early]) (fun _ => hp)
        (fun _ => hl) (by simp) (by simp) (by simp)
  | testAbort abort =>
      simp only [State.mainStep, Option.ite_none_right_eq_some, Option.some.injEq] at hs
      obtain ⟨hpc, rfl⟩ := hs
      have hp : s.main.position = s.main.liOffset := hf.position (by rw [hpc]; rfl)
      have hl : s.main.bDone = false := hf.looping (by rw [hpc]; rfl)
      split_ifs <;> exact hf.goto (by simp [hpc]) (by simp) (by simp [Pc.early]) (fun _ => hp)
        (fun _ => hl) (by simp) (by simp) (by simp)
  | read hr n =>
      simp only [State.mainStep, Option.ite_none_right_eq_some, Option.some.injEq] at hs
      obtain ⟨⟨hpc, -⟩, rfl⟩ := hs
      split_ifs with h
      · exact hf.raiseError (by rw [hpc]; simp) h.1
      · exact hf.loaded hpc hr n
  | waitTest =>
      simp only [State.mainStep, Option.ite_none_right_eq_some, Option.some.injEq] at hs
      obtain ⟨hpc, rfl⟩ := hs
      split_ifs <;> exact hf.goto (by simp [hpc]) (by simp) (by simp [Pc.early])
        (by simp [Pc.feeding]) (by simp [Pc.looping]) (by simp) (by simp) (by simp)
  | waitSignaled =>
      simp only [State.mainStep, Option.ite_none_right_eq_some, Option.some.injEq] at hs
      obtain ⟨⟨hpc, -⟩, rfl⟩ := hs
      exact hf.goto (by simp [hpc]) (by simp) (by simp [Pc.early]) (by simp [Pc.feeding])
        (by simp [Pc.looping]) (by simp) (by simp) (by simp)
  | waitTimeout abort =>
      simp only [State.mainStep, Option.ite_none_right_eq_some, Option.some.injEq] at hs
      obtain ⟨hpc, rfl⟩ := hs
      split_ifs
      · exact hf.raiseError (by rw [hpc]; simp) (by simp [ERROR_OPERATION_ABORTED, ERROR_SUCCESS])
      · exact hf.goto (by simp [hpc]) (by simp) (by simp [Pc.early]) (by simp [Pc.feeding])
          (by simp [Pc.looping]) (by simp) (by simp) (by simp)
  | waitFailed dwError =>
      simp only [State.mainStep, Option.ite_none_right_eq_some, Option.some.injEq] at hs
      obtain ⟨⟨hpc, he⟩, rfl⟩ := hs
      exact hf.raiseError (by rw [hpc]; simp) he
  | checkSize =>
      simp only [State.mainStep, Option.ite_none_right_eq_some, Option.some.injEq] at hs
      obtain ⟨hpc, rfl⟩ := hs
      split_ifs with h
      · exact hf.raiseError (by rw [hpc]; simp) (by simp [ERROR_BAD_LENGTH, ERROR_SUCCESS])
      · exact hf.goto (by simp [hpc]) (by simp) (by simp [Pc.early]) (by simp [Pc.feeding])
          (by simp [Pc.looping]) (by simp) (by simp) (fun _ => not_not.1 h)
  | join =>
      simp only [State.mainStep, Option.ite_none_right_eq_some, Option.some.injEq] at hs
      obtain ⟨⟨hpc, -⟩, rfl⟩ := hs
      exact hf.goto (by simp [hpc]) (by simp) (by simp [Pc.early]) (by simp [Pc.feeding])
        (by simp [Pc.looping]) (by simp) (by simp) (by simp)
  | catchJoin =>
      simp only [State.mainStep, Option.ite_none_right_eq_some, Option.some.injEq] at hs
      obtain ⟨⟨hpc, -⟩, rfl⟩ := hs
      exact hf.goto (by simp [hpc]) (by simp) (by simp [Pc.early]) (by simp [Pc.feeding])
        (by simp [Pc.looping]) (by simp) (by simp) (by simp)
  | _ => simp [State.mainStep] at hs

/-- `Create` has returned, and the thread has not ended. -/
def WorkerPc.hasResult : WorkerPc → Bool
  | .returned | .signaled | .done => true
  | _ => false

/-- What the worker keeps true: it calls its work a success only after it has
popped the `bLast` entry. -/
structure Sent (w : Worker) (popped : List StreamDataEntry) : Prop where
  taken : w.pc = .sent ∨ w.pc = .responded ∨ w.bGotServerResponse → Closed popped
  result : w.pc.hasResult → w.error.ifError ∨ Closed popped
  signaled : w.bWorkerDone ∨ w.evWriteComplete →
    (w.pc = .signaled ∨ w.pc = .done ∨ w.pc = .ended) ∧ (w.error.ifError ∨ Closed popped)

/-- At first the worker has taken nothing. -/
theorem Sent.init : Sent {} [] := ⟨by simp, by simp [WorkerPc.hasResult], by simp⟩

/-- **Every step of the worker, pops apart, keeps what it promises.** The worker leaves its send
loop only behind the entry marked as the last, so a success that it reports is one of the whole
file. -/
theorem Sent.workerStep {s : State} {a : Action} {w : Worker} {popped : List StreamDataEntry}
    (hw : Sent s.worker popped) (hs : s.workerStep a = some w) : Sent w popped := by
  have quiet : s.worker.pc = .idle ∨ s.worker.pc = .sent ∨ s.worker.pc = .responded ∨
      s.worker.pc = .sending ∨ s.worker.pc = .returned →
      ¬(s.worker.bWorkerDone ∨ s.worker.evWriteComplete) := by
    intro h h'
    rcases (hw.signaled h').1 with hpc | hpc | hpc <;> simp [hpc] at h
  cases a with
  | workStart =>
      simp only [State.workerStep, Option.ite_none_right_eq_some, Option.some.injEq] at hs
      obtain ⟨⟨hpc, -⟩, rfl⟩ := hs
      exact ⟨fun h => hw.taken (.inr (.inr (by simpa using h))), by simp [WorkerPc.hasResult],
        fun h => absurd h (quiet (.inl hpc))⟩
  | respond =>
      simp only [State.workerStep, Option.ite_none_right_eq_some, Option.some.injEq] at hs
      obtain ⟨hpc, rfl⟩ := hs
      exact ⟨fun _ => hw.taken (.inl hpc), by simp [WorkerPc.hasResult],
        fun h => absurd h (quiet (.inr (.inl hpc)))⟩
  | resend =>
      simp only [State.workerStep, Option.ite_none_right_eq_some, Option.some.injEq] at hs
      obtain ⟨⟨hpc, -⟩, rfl⟩ := hs
      exact ⟨fun _ => hw.taken (.inr (.inl hpc)), by simp [WorkerPc.hasResult],
        fun h => absurd h (quiet (.inr (.inr (.inl hpc))))⟩
  | createReturn e =>
      simp only [State.workerStep, Option.ite_none_right_eq_some, Option.some.injEq] at hs
      obtain ⟨⟨hpc, he⟩, rfl⟩ := hs
      refine ⟨fun h => hw.taken (.inr (.inr (by simpa using h))), fun _ => ?_,
        fun h => absurd h (quiet (by tauto))⟩
      exact he.imp id fun h => hw.taken (.inr (.inr h))
  | signal =>
      simp only [State.workerStep, Option.ite_none_right_eq_some, Option.some.injEq] at hs
      obtain ⟨hpc, rfl⟩ := hs
      have hres := hw.result (by rw [hpc]; rfl)
      exact ⟨fun h => hw.taken (.inr (.inr (by simpa using h))), fun _ => hres,
        fun _ => ⟨.inl rfl, hres⟩⟩
  | storeWorkerDone =>
      simp only [State.workerStep, Option.ite_none_right_eq_some, Option.some.injEq] at hs
      obtain ⟨hpc, rfl⟩ := hs
      have hres := hw.result (by rw [hpc]; rfl)
      exact ⟨fun h => hw.taken (.inr (.inr (by simpa using h))), fun _ => hres,
        fun _ => ⟨.inr (.inl rfl), hres⟩⟩
  | threadEnd =>
      simp only [State.workerStep, Option.ite_none_right_eq_some, Option.some.injEq] at hs
      obtain ⟨-, rfl⟩ := hs
      exact ⟨fun h => hw.taken (.inr (.inr (by simpa using h))), by simp [WorkerPc.hasResult],
        fun h => ⟨.inr (.inr rfl), (hw.signaled h).2⟩⟩
  | _ => simp [State.workerStep] at hs

/-- **What a step can do.**  It is a step of one half of the state, a rewrite of
the file, a push, a pop, or a call of `KillThread`. -/
theorem State.step_cases {cfg : Config} {s s' : State} {a : Action}
    (hs : s.step cfg a = some s') :
    (∃ m, s.mainStep cfg a = some m ∧ s' = { s with main := m }) ∨
    (∃ w, s.workerStep a = some w ∧ s' = { s with worker := w }) ∨
    (∃ file, s' = { s with main := { s.main with file := file, rewritten := true } }) ∨
    (s.main.pc = .push ∧ s' = { s with
      streamData := s.streamData.push s.main.writeRec
      main := { s.main with pc := if s.main.bDone then .waitTest else .testWorkerDone } }) ∨
    (∃ entry q, s.worker.pc = .sending ∧ s.streamData.pop = some (entry, q) ∧ s' = { s with
      streamData := q
      worker := { s.worker with pc := if entry.bLast then .sent else .sending } }) ∨
    (∃ pc, (s.main.pc = .terminate ∧ pc = .join ∨ s.main.pc = .catchTerminate ∧ pc = .catchJoin ∨
        pc = s.main.pc) ∧
      s' = { s with bTerminate := true, main := { s.main with pc := pc } }) := by
  cases a with
  | rewrite file => exact .inr (.inr (.inl ⟨file, (Option.some.inj hs).symm⟩))
  | push =>
      simp only [State.step, Option.ite_none_right_eq_some, Option.some.injEq] at hs
      exact .inr (.inr (.inr (.inl ⟨hs.1.1, hs.2.symm⟩)))
  | pop =>
      simp only [State.step, Option.ite_none_right_eq_some, Option.map_eq_some_iff] at hs
      obtain ⟨hpc, ⟨entry, q⟩, hpop, rfl⟩ := hs
      exact .inr (.inr (.inr (.inr (.inl ⟨entry, q, hpc, hpop, rfl⟩))))
  | terminate =>
      simp only [State.step, Option.ite_none_right_eq_some, Option.some.injEq] at hs
      exact .inr (.inr (.inr (.inr (.inr ⟨_, .inl ⟨hs.1, rfl⟩, hs.2.symm⟩))))
  | catchTerminate =>
      simp only [State.step, Option.ite_none_right_eq_some, Option.some.injEq] at hs
      exact .inr (.inr (.inr (.inr (.inr ⟨_, .inr (.inl ⟨hs.1, rfl⟩), hs.2.symm⟩))))
  | killWorker =>
      exact .inr (.inr (.inr (.inr (.inr ⟨_, .inr (.inr rfl), (Option.some.inj hs).symm⟩))))
  | _ =>
      simp only [State.step] at hs
      split at hs
      · exact .inl ⟨_, ‹_›, (Option.some.inj hs).symm⟩
      · obtain ⟨w, hw, rfl⟩ := Option.map_eq_some_iff.1 hs
        exact .inr (.inl ⟨w, hw, rfl⟩)

/-- The worker is created once and for all. -/
theorem State.mainStep_started {cfg : Config} {s : State} {a : Action} {m : Main}
    (hs : s.mainStep cfg a = some m) (h : s.main.started = true) : m.started = true := by
  cases a <;> simp only [State.mainStep, reduceCtorEq, Option.ite_none_right_eq_some,
    Option.some.injEq] at hs
  all_goals
    obtain ⟨-, rfl⟩ := hs
    try split_ifs
    all_goals first | exact h | rfl

/-- The feeding thread waits until `bWorkerDone` or `evWriteComplete` is set. -/
theorem State.mainStep_waited {cfg : Config} {s : State} {a : Action} {m : Main}
    (hs : s.mainStep cfg a = some m) (h : m.pc.waited = true) :
    s.main.pc.waited ∨ s.worker.bWorkerDone ∨ s.worker.evWriteComplete := by
  cases a with
  | waitTest =>
      simp only [State.mainStep, Option.ite_none_right_eq_some, Option.some.injEq] at hs
      obtain ⟨-, rfl⟩ := hs
      split_ifs at h with hw
      · exact .inr (.inl hw)
      · simp [Pc.waited] at h
  | waitSignaled =>
      simp only [State.mainStep, Option.ite_none_right_eq_some, Option.some.injEq] at hs
      exact .inr (.inr hs.1.2)
  | checkSize =>
      simp only [State.mainStep, Option.ite_none_right_eq_some, Option.some.injEq] at hs
      exact .inl (by rw [hs.1]; rfl)
  | _ =>
      simp only [State.mainStep, reduceCtorEq, Option.ite_none_right_eq_some,
        Option.some.injEq] at hs
      all_goals
        obtain ⟨-, rfl⟩ := hs
        try split_ifs at h
        all_goals simp [Pc.waited, Main.raiseError, Main.returnError, Main.loaded] at h

/-- **How `S3Write` returns**: with an error, or with the worker's result. Every other way out has
an error, which was thrown or returned by a read; without one it has waited for the worker, and
hands on its error. -/
theorem State.mainStep_returned {cfg : Config} {s : State} {a : Action} {m : Main} {r : S3Error}
    {pushed : List StreamDataEntry} (hf : Feed s.main pushed) (hs : s.mainStep cfg a = some m)
    (h : m.pc = .returned r) :
    r.ifError ∨ s.main.pc = .join ∧ m = { s.main with pc := .returned s.worker.error } := by
  cases a with
  | stat hr =>
      simp only [State.mainStep, Option.ite_none_right_eq_some, Option.some.injEq] at hs
      obtain ⟨-, rfl⟩ := hs
      split_ifs at h with he
      · obtain rfl := Pc.returned.inj h
        exact .inl (S3Error.ifError_of_dwError he)
  | checksum dwError position =>
      simp only [State.mainStep, Option.ite_none_right_eq_some, Option.some.injEq] at hs
      obtain ⟨-, rfl⟩ := hs
      split_ifs at h with he
      · obtain rfl := Pc.returned.inj h
        exact .inl (S3Error.ifError_of_dwError he.2)
  | join =>
      simp only [State.mainStep, Option.ite_none_right_eq_some, Option.some.injEq] at hs
      exact .inr ⟨hs.1.1, hs.2.symm⟩
  | catchJoin =>
      simp only [State.mainStep, Option.ite_none_right_eq_some, Option.some.injEq] at hs
      obtain ⟨⟨hpc, -⟩, rfl⟩ := hs
      obtain rfl := Pc.returned.inj h
      split_ifs with he
      · exact .inl he
      · exact .inl (S3Error.ifError_of_dwError (hf.thrown (.inr hpc)))
  | _ =>
      simp only [State.mainStep, reduceCtorEq, Option.ite_none_right_eq_some,
        Option.some.injEq] at hs
      all_goals
        obtain ⟨-, rfl⟩ := hs
        try split_ifs at h
        all_goals simp [Main.raiseError, Main.loaded] at h

/-- What holds in every state of the two threads. -/
structure Inv (s : State) : Prop where
  feed : Feed s.main s.streamData.pushed
  sent : Sent s.worker s.streamData.popped
  started : s.worker.pc ≠ .idle → s.main.started
  waited : s.main.pc.waited → s.worker.bWorkerDone ∨ s.worker.evWriteComplete
  outcome : ∀ r, s.main.pc = .returned r → r.ifError ∨
    Closed s.streamData.popped ∧ s.main.fileSize = s.main.liOffset ∧ s.main.started

/-- Once the `bLast` entry was popped the queue is empty. -/
theorem Inv.queue_eq_nil {s : State} (hi : Inv s) (h : Closed s.streamData.popped) :
    s.streamData.queue = [] := hi.feed.marks.queue_eq_nil h

/-- A step of the feeding thread that pushes nothing keeps the invariant. -/
theorem Inv.main {cfg : Config} {s : State} {a : Action} {m : Main} (hi : Inv s)
    (hs : s.mainStep cfg a = some m) : Inv { s with main := m } where
  feed := hi.feed.mainStep hs
  sent := hi.sent
  started h := State.mainStep_started hs (hi.started h)
  waited h := (State.mainStep_waited hs h).elim hi.waited id
  outcome r h := by
    rcases State.mainStep_returned hi.feed hs h with he | ⟨hpc, rfl⟩
    · exact .inl he
    · have hres := hi.sent.signaled (hi.waited (by rw [hpc]; rfl))
      obtain rfl := Pc.returned.inj h
      refine hres.2.imp id fun hc => ⟨hc, hi.feed.sized (.inr hpc), hi.started ?_⟩
      rcases hres.1 with h | h | h <;> simp [h]

/-- A step of the worker that takes nothing keeps the invariant. -/
theorem Inv.worker {s : State} {a : Action} {w : Worker} (hi : Inv s)
    (hs : s.workerStep a = some w) : Inv { s with worker := w } := by
  refine ⟨hi.feed, hi.sent.workerStep hs, fun h => ?_, fun h => ?_, hi.outcome⟩
  · cases a <;> simp only [State.workerStep, reduceCtorEq, Option.ite_none_right_eq_some,
      Option.some.injEq] at hs
    case workStart => exact hs.1.2
    case threadEnd => exact hs.1.1
    all_goals
      refine hi.started fun hpc => ?_
      simp [hpc] at hs
  · have hw := hi.waited h
    cases a <;> simp only [State.workerStep, reduceCtorEq, Option.ite_none_right_eq_some,
      Option.some.injEq] at hs
    all_goals
      obtain ⟨-, rfl⟩ := hs
      first | exact hw | exact .inr rfl | exact .inl rfl

/-- A step in which the worker takes an entry keeps the invariant. -/
theorem Inv.pop {s : State} {entry : StreamDataEntry} {q : StreamData} (hi : Inv s)
    (hpc : s.worker.pc = .sending) (hpop : s.streamData.pop = some (entry, q)) :
    Inv { s with
      streamData := q
      worker := { s.worker with pc := if entry.bLast then .sent else .sending } } := by
  obtain ⟨hq, -, hpushed⟩ := Channel.pop_eq_some hpop
  have hnot : ¬Closed s.streamData.popped := fun h => by simp [hi.queue_eq_nil h] at hq
  have hsig : ¬(s.worker.bWorkerDone ∨ s.worker.evWriteComplete) := fun h => by
    rcases (hi.sent.signaled h).1 with h | h | h <;> simp [hpc] at h
  have hlast : entry.bLast = true → Closed q.popped := fun hl =>
    (hi.feed.marks.pop_last hpop hl).2.2
  refine ⟨by simpa only [hpushed] using hi.feed, ⟨fun h => ?_, fun h => ?_, fun h => absurd h hsig⟩,
    fun _ => hi.started (by simp [hpc]), fun h => absurd (hi.waited h) hsig, fun r h => ?_⟩
  · rcases h with h | h | h
    · refine hlast ?_
      by_contra hl
      simp [hl] at h
    · split_ifs at h
    · exact absurd (hi.sent.taken (.inr (.inr h))) hnot
  · exfalso
    split_ifs at h <;> simp [WorkerPc.hasResult] at h
  · exact (hi.outcome r h).imp id fun hc => absurd hc.1 hnot

/-- **Every step keeps the invariant.** The two threads share nothing but the queue: a push adds to
what is pushed, a pop to what is popped, and each step of either thread leaves the promises of the
other alone. -/
theorem Inv.step {cfg : Config} {s s' : State} {a : Action} (hi : Inv s)
    (hs : s.step cfg a = some s') : Inv s' := by
  rcases State.step_cases hs with ⟨m, hm, rfl⟩ | ⟨w, hw, rfl⟩ | ⟨file, rfl⟩ | ⟨hpc, rfl⟩ |
    ⟨entry, q, hpc, hpop, rfl⟩ | ⟨pc, hpc, rfl⟩
  · exact hi.main hm
  · exact hi.worker hw
  · obtain ⟨h1, h2, h3, h4, -, -, h7, h8, h9, h10, h11, h12⟩ := hi.feed
    exact ⟨⟨h1, h2, h3, h4, by simp, by simp, h7, h8, h9, h10, h11, h12⟩, hi.sent, hi.started,
      hi.waited, hi.outcome⟩
  · refine ⟨hi.feed.push hpc, hi.sent, hi.started, fun h => ?_, fun r h => ?_⟩
    · split_ifs at h <;> simp [Pc.waited] at h
    · split_ifs at h
  · exact hi.pop hpc hpop
  · rcases hpc with ⟨hpc, rfl⟩ | ⟨hpc, rfl⟩ | rfl
    · exact ⟨hi.feed.goto (by simp [hpc]) (by simp) (by simp [Pc.early]) (by simp [Pc.feeding])
        (by simp [Pc.looping]) (by simp) (by simp) (fun _ => hi.feed.sized (.inl hpc)), hi.sent,
        hi.started, fun _ => hi.waited (by rw [hpc]; rfl), by simp⟩
    · exact ⟨hi.feed.goto (by simp [hpc]) (by simp) (by simp [Pc.early]) (by simp [Pc.feeding])
        (by simp [Pc.looping]) (by simp) (fun _ => hi.feed.thrown (.inl hpc)) (by simp), hi.sent,
        hi.started, by simp [Pc.waited], by simp⟩
    · exact ⟨hi.feed, hi.sent, hi.started, hi.waited, hi.outcome⟩

/-- The invariant in every state of the two threads. -/
theorem inv_of_reachable {cfg : Config} {s : State} (h : (system cfg).Reachable s) : Inv s :=
  h.invariant_reachable
    (fun _ ⟨file, h⟩ => h ▸ ⟨.init file, .init, by simp, by simp [Pc.waited], by simp⟩)
    fun _ _ _ _ hi _ hs => hi.step hs

/-- **An `S3Write` that returns no error has sent the file.**  The entries the
worker took end in the one marked `bLast`, they carry all that was read from the
stream, in order, and that is as many bytes as the `Stat` promised; if nobody
rewrote the file since, it is the file. -/
theorem s3Write_complete {cfg : Config} {s : State} {r : S3Error}
    (h : (system cfg).Reachable s) (hr : s.main.pc = .returned r) (hok : r.ifError = false) :
    Closed s.streamData.popped ∧ body s.streamData.popped = s.main.delivered ∧
      s.main.delivered.length = s.main.fileSize ∧
      (s.main.rewritten = false → body s.streamData.popped = s.main.file) := by
  have hi := inv_of_reachable h
  obtain ⟨hc, hsize, hst⟩ := (hi.outcome r hr).resolve_left (by simp [hok])
  have hbody : body s.streamData.popped = s.main.delivered := by
    rw [hi.feed.marks.popped_eq hc, hi.feed.delivered_eq]
    simp [Main.inHand, hr]
  refine ⟨hc, hbody, by rw [hsize, hi.feed.offset], fun hrw => ?_⟩
  rw [hbody, hi.feed.content hrw, ← hsize, hi.feed.size (.inr hst) hrw, List.take_length]

/-- A file of three bytes, read by two, while the worker takes the entries. -/
def completeRun : List Action :=
  [.stat S_OK, .checksum ERROR_SUCCESS 0, .workStart, .seek S_OK, .testWorkerDone, .testAbort false,
    .read S_OK 2, .push, .testWorkerDone, .pop, .testAbort false, .read S_FALSE 2, .push, .pop,
    .waitTest, .respond, .createReturn { dwHttpError := 200 }, .signal, .waitSignaled, .checkSize,
    .terminate, .storeWorkerDone, .threadEnd, .join]

/-- `s3Write_complete` on that run: the three bytes were taken, and they are the
file. -/
theorem s3Write_complete_run : ∃ s : State, s.main.pc = .returned { dwHttpError := 200 } ∧
    s.main.file = [1, 2, 3] ∧ Closed s.streamData.popped ∧
    body s.streamData.popped = s.main.file := by
  let cfg : Config := { dwBufSize := 2, bChecksum := false, dwMaxQueueSize := 1 }
  obtain ⟨s, hs⟩ : ∃ s, (system cfg).run completeRun { main := { file := [1, 2, 3] } } = some s :=
    ⟨_, rfl⟩
  have h : (system cfg).Reachable s := .run _ (.init ⟨_, rfl⟩) hs
  have hr : s.main.pc = .returned { dwHttpError := 200 } := by obtain rfl := Option.some.inj hs; rfl
  have hfile : s.main.file = [1, 2, 3] ∧ s.main.rewritten = false := by
    obtain rfl := Option.some.inj hs; exact ⟨rfl, rfl⟩
  obtain ⟨hc, -, -, hbody⟩ := s3Write_complete h hr rfl
  exact ⟨s, hr, hfile.1, hc, hbody hfile.2⟩

end S3Write
end ECSUtil

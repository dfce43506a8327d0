/-
# `DoS3MultiPartUpload`: the coordinating thread and the pool

`DoS3MultiPartUpload`, `CMPUPool::DoProcess` and the destructors of `CMPUPool` and
`CMPUPoolList` (`ECSUtil/FileSupport.cpp`), `CThreadWork::DoWork` and
`CThreadPool::Terminate` (`ECSUtil/ThreadPool.h`), and what `S3MultiPartUpload`,
`S3MultiPartComplete` and `S3MultiPartAbort` (`ECSUtil/ECSConnection.cpp`) do with
the parts.  The upload starts with a part list (`PartList`).

The coordinating thread runs through its program counter (`Pc`); a worker is the
phase of the message it holds, so any number of workers is covered.  A step
touches what threads share once; the test of a queue's length, the read of the
file and the push of one turn of a feeding loop are one step, for the workers
only shorten the queue and only the push is seen by them.  What a read of the
file delivers and what the server answers is carried by the actions.

The waits for events and the count of handles in `EventArray` decide only when a
step is made, and are left out.
-/

import ECSUtil.Conn.Stream
import ECSUtil.Lib.StepSystem
import ECSUtil.Multipart.PartList
import ECSUtil.Multipart.Pending

namespace ECSUtil
namespace Multipart

/-- The parameters of `DoS3MultiPartUpload` that matter here. -/
structure Config where
  dwBufSize : ℕ
  dwMaxThreads : ℕ
  bChecksum : Bool
  dwMaxQueueSize : ℕ
  dwMaxRetries : ℕ
  deriving DecidableEq, Repr

/-- `dwMaxQueueSize`, with its default. -/
def Config.queueSize (cfg : Config) : ℕ := if cfg.dwMaxQueueSize = 0 then 10 else cfg.dwMaxQueueSize

/-- The part at a position of the list. -/
def PartList.part (P : PartList) (i : ℕ) : PartRange :=
  P.parts.getD i { uPartNum := 0, ullBaseOffset := 0, ullPartSize := 0 }

/-- The part at a position has the number behind it. -/
theorem PartList.part_uPartNum (P : PartList) {i : ℕ} (h : i < P.parts.length) :
    (P.part i).uPartNum = i + 1 := by
  simp [part, h, P.numbered i h]

/-- No part of the list is empty. -/
theorem PartList.part_size_pos (P : PartList) {i : ℕ} (h : i < P.parts.length) :
    0 < (P.part i).ullPartSize := by
  simp only [part, List.getD_eq_getElem?_getD, List.getElem?_eq_getElem h, Option.getD_some]
  exact P.size_pos _ (List.getElem_mem h)

/-- The data side of a part: its queue, the entries pushed since the queue was
last cleared, the cursor, and the bytes its checksum is of. -/
structure PartFeed where
  streamData : StreamData := .empty
  ullCursor : ℕ := 0
  checksum : Bytes := []

/-- Where the coordinating thread is: about to initiate the upload; in the scan
of the part list at position `i`; in the initial fill of part `i` for message
`m` (at its `Seek`, with `ullPartSize` bytes to go, at `SendMessageToPool`); at
the wait for events; in the pass over the pending list at position `k` (at the
test of `bComplete`, at the `Seek` of the refill, in the refill); about to
complete the upload; in a handler with the error caught; returned; in the
destructor of the pool, and behind it. -/
inductive Pc
  | initiate
  | scan (i : ℕ) (bS3PartListEmpty : Bool)
  | seek (i m : ℕ)
  | fill (i m ullPartSize dwRecCount : ℕ)
  | send (i m : ℕ)
  | wait
  | collect (k : ℕ) (bDeletedAtLeastOneEntry : Bool)
  | seekRefill (k m : ℕ) (bDeletedAtLeastOneEntry : Bool)
  | refill (k m : ℕ) (bDeletedAtLeastOneEntry : Bool)
  | complete
  | caught (e : S3Error)
  | returned (ok : Bool) (error : S3Error)
  | destroying
  | destroyed
  deriving DecidableEq, Repr

/-- The state of an upload. -/
structure State where
  book : Book := {}
  feed : ℕ → PartFeed := fun _ => {}
  /-- The seek pointer of `pStream`. -/
  position : ℕ := 0
  /-- The bytes `MsgHash` has been given. -/
  msgHash : Bytes := []
  pc : Pc := .initiate

/-- What a thread does next. -/
inductive Action
  /-- `S3MultiPartInitiate` returns. -/
  | initiate (e : S3Error)
  /-- One turn of the scan; the last argument is what `TestAbort` returns. -/
  | scan (abort : Bool)
  | seek (hr : DWORD)
  | fillRead (hr : DWORD) (data : Bytes)
  | fillDone
  | send
  | wait (abort : Bool)
  /-- The test of one entry of the pending list, or of its end. -/
  | collect
  | seekRefill (hr : DWORD)
  | refillRead (hr : DWORD) (data : Bytes)
  | refillDone
  /-- `S3MultiPartComplete` sends its request, which is answered so. -/
  | complete (e : S3Error)
  /-- `S3MultiPartComplete` throws before it sends anything. -/
  | completeFails (e : S3Error)
  /-- The handler calls `S3MultiPartAbort`. -/
  | abort
  /-- `CThreadPool::Terminate`, up to its wait for the threads. -/
  | terminate
  /-- The threads have ended; the pending list is destroyed. -/
  | destroy
  /-- A worker takes the first message that is not being processed. -/
  | take (m : ℕ)
  /-- The worker tests whether its message was aborted, and starts its request. -/
  | begin (m : ℕ)
  /-- The send loop pops an entry it has sent. -/
  | pop (m : ℕ)
  | respond (m : ℕ)
  | resend (m : ℕ)
  /-- `S3MultiPartUpload` returns, on this error and these `ETag` headers. -/
  | upload (m : ℕ) (e : S3Error) (etags : List String)
  | finish (m : ℕ)
  | remove (m : ℕ)
  deriving Repr

namespace State

variable (cfg : Config) (P : PartList)

/-- A `throw` with this error. -/
def raiseError (s : State) (e : S3Error) : State := { s with pc := .caught e }

def setFeed (s : State) (i : ℕ) (f : PartFeed) : State :=
  { s with feed := Function.update s.feed i f }

/-- An entry of a part is pushed, and the cursor moved. -/
def pushEntry (s : State) (i : ℕ) (data : Bytes) (bLast : Bool) : State :=
  s.setFeed i { s.feed i with
    streamData := (s.feed i).streamData.push { data := data, bLast := bLast }
    ullCursor := (s.feed i).ullCursor + data.length }

/-- The scan at a part that is neither complete nor in process, the pool having
room for it: a message is made. -/
def makeMsg (s : State) (i : ℕ) : State :=
  { s.setFeed i { s.feed i with streamData := .empty } with
    book := s.book.create i
    msgHash := if cfg.bChecksum then [] else s.msgHash
    pc := .seek i s.book.nextMsg }

/-- One turn of the scan of the part list. -/
def scanStep (s : State) (i : ℕ) (bS3PartListEmpty abort : Bool) : State :=
  if i < P.parts.length then
    if (s.book.status i).bComplete then { s with pc := .scan (i + 1) bS3PartListEmpty }
    else if (s.book.status i).bInProcess then { s with pc := .scan (i + 1) false }
    else if s.book.msgQueue.length ≥ cfg.dwMaxThreads + 4 then { s with pc := .wait }
    else if abort then s.raiseError (.ofWin32 ERROR_OPERATION_ABORTED)
    else s.makeMsg cfg i
  else { s with pc := if bS3PartListEmpty then .complete else .wait }

/-- The initial fill goes on. -/
def FillGoesOn (ullPartSize dwRecCount : ℕ) : Prop :=
  0 < ullPartSize ∧ (cfg.bChecksum = true ∨ dwRecCount < cfg.queueSize)

instance (ullPartSize dwRecCount : ℕ) : Decidable (FillGoesOn cfg ullPartSize dwRecCount) :=
  inferInstanceAs (Decidable (_ ∧ _))

/-- One turn of the initial fill, which has read `data`. -/
def fillStep (s : State) (i m ullPartSize dwRecCount : ℕ) (data : Bytes) : State :=
  let s' := { s with
    msgHash := if cfg.bChecksum then s.msgHash ++ data else s.msgHash
    position := s.position + data.length }
  if dwRecCount < cfg.queueSize then
    { s'.pushEntry i data (decide (ullPartSize = data.length)) with
      pc := .fill i m (ullPartSize - data.length) (dwRecCount + 1) }
  else { s' with pc := .fill i m (ullPartSize - data.length) dwRecCount }

/-- The refill of a part goes on. -/
def RefillGoesOn (s : State) (i : ℕ) : Prop :=
  (s.feed i).streamData.queue.length < cfg.queueSize ∧ (s.feed i).ullCursor < (P.part i).ullPartSize

instance (s : State) (i : ℕ) : Decidable (s.RefillGoesOn cfg P i) :=
  inferInstanceAs (Decidable (_ ∧ _))

/-- One turn of the refill of a part, which has read `data`. -/
def refillStep (s : State) (i : ℕ) (data : Bytes) : State :=
  { s.pushEntry i data
      (decide ((P.part i).ullPartSize ≤ (s.feed i).ullCursor + data.length)) with
    position := s.position + data.length }

/-- The test of the entry at position `k` of the pending list. -/
def collectStep (s : State) (k m : ℕ) (bDeletedAtLeastOneEntry : Bool) : State :=
  let msg := s.book.msg m
  if msg.bComplete then
    if msg.error.ifError then
      if (s.book.status msg.part).dwRetryNum ≥ cfg.dwMaxRetries then s.raiseError msg.error
      else { s.setFeed msg.part {} with book := s.book.retry k m, pc := .collect k true }
    else { s with book := s.book.collect k m, pc := .collect k true }
  else { s with pc := .seekRefill k m bDeletedAtLeastOneEntry }

/-- The part numbers and ETags `S3MultiPartComplete` sends. -/
def completeList (s : State) : List (ℕ × String) :=
  (List.range P.parts.length).map fun i => ((P.part i).uPartNum, (s.book.status i).sETag)

/-- A worker is busy with the message. -/
def busy (s : State) (m : ℕ) : Bool :=
  match (s.book.msg m).phase with
  | .taken | .sending | .sent | .responded | .uploaded | .finished => true
  | _ => false

/-- One step of the coordinating thread. -/
def mainStep (s : State) : Action → Option State
  | .initiate e =>
      if s.pc = .initiate then
        some (if cfg.dwMaxThreads = 0 then
            { s with pc := .returned false (.ofWin32 ERROR_INVALID_PARAMETER) }
          else if e.ifError then { s with pc := .returned false e }
          else { s with pc := .scan 0 true })
      else none
  | .scan abort =>
      match s.pc with
      | .scan i bS3PartListEmpty => some (s.scanStep cfg P i bS3PartListEmpty abort)
      | _ => none
  | .seek hr =>
      match s.pc with
      | .seek i m =>
          some (if hr ≠ S_OK then s.raiseError (.ofWin32 hr)
            else { s with
              position := (P.part i).ullBaseOffset
              pc := .fill i m (P.part i).ullPartSize 0 })
      | _ => none
  | .fillRead hr data =>
      match s.pc with
      | .fill i m ullPartSize dwRecCount =>
          if FillGoesOn cfg ullPartSize dwRecCount ∧ data.length ≤ min cfg.dwBufSize ullPartSize then
            some (if hr ≠ S_OK ∧ hr ≠ S_FALSE then s.raiseError (.ofWin32 hr)
              else s.fillStep cfg i m ullPartSize dwRecCount data)
          else none
      | _ => none
  | .fillDone =>
      match s.pc with
      | .fill i m ullPartSize dwRecCount =>
          if FillGoesOn cfg ullPartSize dwRecCount then none
          else some { s.setFeed i { s.feed i with
              checksum := if cfg.bChecksum then s.msgHash else (s.feed i).checksum } with
            pc := .send i m }
      | _ => none
  | .send =>
      match s.pc with
      | .send i m => some { s with book := s.book.send m, pc := .scan (i + 1) false }
      | _ => none
  | .wait abort =>
      if s.pc = .wait then
        some (if abort then s.raiseError (.ofWin32 ERROR_OPERATION_ABORTED)
          else { s with pc := .collect 0 false })
      else none
  | .collect =>
      match s.pc with
      | .collect k bDeletedAtLeastOneEntry =>
          some (match s.book.pendingList[k]? with
            | some m => s.collectStep cfg k m bDeletedAtLeastOneEntry
            | none => { s with pc := if bDeletedAtLeastOneEntry then .scan 0 true else .wait })
      | _ => none
  | .seekRefill hr =>
      match s.pc with
      | .seekRefill k m bDeletedAtLeastOneEntry =>
          let i := (s.book.msg m).part
          some (if hr ≠ S_OK then s.raiseError (.ofWin32 hr)
            else { s with
              position := (P.part i).ullBaseOffset + (s.feed i).ullCursor
              pc := .refill k m bDeletedAtLeastOneEntry })
      | _ => none
  | .refillRead hr data =>
      match s.pc with
      | .refill _ m _ =>
          let i := (s.book.msg m).part
          if s.RefillGoesOn cfg P i ∧
              data.length ≤ min cfg.dwBufSize ((P.part i).ullPartSize - (s.feed i).ullCursor) then
            some (if hr ≠ S_OK ∧ hr ≠ S_FALSE then s.raiseError (.ofWin32 hr)
              else s.refillStep P i data)
          else none
      | _ => none
  | .refillDone =>
      match s.pc with
      | .refill k m bDeletedAtLeastOneEntry =>
          if s.RefillGoesOn cfg P (s.book.msg m).part then none
          else some { s with pc := .collect (k + 1) bDeletedAtLeastOneEntry }
      | _ => none
  | .complete e =>
      if s.pc = .complete then
        some { s with
          book := s.book.log (.complete (s.completeList P))
          pc := if e.ifError then .caught e else .returned true e }
      else none
  | .completeFails e =>
      if s.pc = .complete ∧ e.ifError then some (s.raiseError e) else none
  | .abort =>
      match s.pc with
      | .caught e => some { s with book := s.book.log .abort, pc := .returned false e }
      | _ => none
  | .terminate =>
      match s.pc with
      | .returned _ _ => some { s with book := { s.book with bDisable := true }, pc := .destroying }
      | _ => none
  | .destroy =>
      if s.pc = .destroying ∧ ∀ m < s.book.nextMsg, s.busy m = false then
        some { s with book := s.book.destroy, pc := .destroyed }
      else none
  | _ => none

/-- One step of a worker on the books. -/
def workerStep (s : State) : Action → Option Book
  | .take m =>
      if s.book.bDisable = false ∧
          s.book.msgQueue.find? (fun m => (s.book.msg m).phase = .queued) = some m then
        some (s.book.take m)
      else none
  | .begin m =>
      if (s.book.msg m).phase = .taken then
        some (if (s.book.msg m).pevMsg then
            s.book.start m (P.part (s.book.msg m).part).uPartNum
          else s.book.skip m)
      else none
  | .respond m => if (s.book.msg m).phase = .sent then some (s.book.respond m) else none
  | .resend m =>
      if (s.book.msg m).phase = .responded ∧ (s.book.msg m).iRetryAuth + 1 < 3 then
        some (s.book.resend m)
      else none
  | .upload m e etags =>
      -- `SendRequest` makes an error of a request that got no response.
      if (s.book.msg m).phase.inFlight ∧ (e.ifError ∨ (s.book.msg m).bGotServerResponse) then
        some (s.book.upload m (P.part (s.book.msg m).part).uPartNum e etags)
      else none
  | .finish m => if (s.book.msg m).phase = .uploaded then some (s.book.finish m) else none
  | .remove m => if (s.book.msg m).phase = .finished then some (s.book.remove m) else none
  | _ => none

/-- One step of a thread. -/
def step (s : State) : Action → Option State
  | .pop m =>
      if (s.book.msg m).phase = .sending then
        (s.feed (s.book.msg m).part).streamData.pop.map fun (entry, q) =>
          { s.setFeed (s.book.msg m).part { s.feed (s.book.msg m).part with streamData := q } with
            book := if entry.bLast then s.book.sent m else s.book }
      else none
  | a =>
      match s.mainStep cfg P a with
      | some s' => some s'
      | none => (s.workerStep P a).map fun b => { s with book := b }

end State

/-- The threads of a multipart upload of the parts `P`. -/
def system (cfg : Config) (P : PartList) : StepSystem State Action where
  init s := s = {}
  step := State.step cfg P

end Multipart
end ECSUtil

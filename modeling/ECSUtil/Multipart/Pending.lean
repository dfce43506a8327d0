/-
# The books of a multipart upload: parts, messages, pending list

What the coordinating thread and the pool workers of `DoS3MultiPartUpload`
(`ECSUtil/FileSupport.cpp`) share apart from the data itself: the flags and the
ETag of each part (`S3_UPLOAD_PART_ENTRY`), the messages (`CMPUPoolMsg`), the
pending list, the queue of the thread pool, and what was exchanged with the
server.  Parts and messages are shared pointers in the source; here they are numbers, a
part its position in `S3PartList`, a message the order of its creation.

Each operation on the books is a function of its own (`Book.create` ..
`Book.finish`), and `Core` is what they all keep: a message is pending until its
result was collected, two pending messages are of different parts, a part has
been sent at most once more often than it was retried, and a part is complete
only with the ETag of an attempt that succeeded.
-/

import ECSUtil.Conn.Error
import Mathlib.Logic.Function.Basic
import Mathlib.Data.List.Nodup
import Mathlib.Tactic.Common

namespace ECSUtil
namespace Multipart

/-- How far a message has come: made, in `MsgQueue`, taken by a worker, in the
send loop of its `UploadPart` request, behind the send loop, with a response,
with the result in `Msg->Error`, with `bComplete` set, out of `MsgQueue`; or
passed over in `DoProcess` because the pending list is gone. -/
inductive Phase
  | created
  | queued
  | taken
  | sending
  | sent
  | responded
  | uploaded
  | finished
  | gone
  | skipped
  deriving DecidableEq, Repr

namespace Phase

/-- The `UploadPart` request was not started. -/
def unsent : Phase → Bool
  | .created | .queued | .taken => true
  | _ => false

/-- The `UploadPart` request is in flight. -/
def inFlight : Phase → Bool
  | .sending | .sent | .responded => true
  | _ => false

/-- The message has the result of its `UploadPart` request. -/
def hasResult : Phase → Bool
  | .uploaded | .finished | .gone => true
  | _ => false

/-- The worker is through with the message. -/
def ended : Phase → Bool
  | .finished | .gone => true
  | _ => false

/-- A message that ended has a result. -/
theorem hasResult_of_ended {p : Phase} (h : p.ended = true) : p.hasResult = true := by
  cases p <;> simp_all [ended, hasResult]

end Phase

/-- `CMPUPoolMsg`. -/
structure Msg where
  /-- `pUploadPartEntry`. -/
  part : ℕ := 0
  error : S3Error := {}
  bComplete : Bool := false
  /-- `pevMsg` and `pMsgList` are not null. -/
  pevMsg : Bool := true
  phase : Phase := .created
  bGotServerResponse : Bool := false
  iRetryAuth : ℕ := 0
  deriving DecidableEq, Repr

/-- The fields of `S3_UPLOAD_PART_ENTRY` that say how far a part has come. -/
structure PartStatus where
  sETag : String := ""
  bInProcess : Bool := false
  bComplete : Bool := false
  dwRetryNum : ℕ := 0
  deriving DecidableEq, Repr

/-- What is exchanged with the server once the upload is initiated. -/
inductive Event
  /-- An `UploadPart` request is started. -/
  | uploadPart (uPartNum : ℕ)
  /-- An attempt to upload a part succeeded, and this is the ETag the server
  returned. -/
  | uploaded (uPartNum : ℕ) (sETag : String)
  /-- `CompleteMultipartUpload` is sent, with these part numbers and ETags. -/
  | complete (parts : List (ℕ × String))
  /-- `AbortMultipartUpload` is sent. -/
  | abort
  deriving DecidableEq, Repr

/-- The books of a multipart upload. -/
structure Book where
  status : ℕ → PartStatus := fun _ => {}
  msg : ℕ → Msg := fun _ => {}
  nextMsg : ℕ := 0
  pendingList : List ℕ := []
  msgQueue : List ℕ := []
  bDisable : Bool := false
  events : List Event := []

/-- What `S3MultiPartUpload` makes of the result of its request and of the
contents of the `ETag` header: its own result, and the ETag of the part. -/
def s3MultiPartUpload (error : S3Error) (etags : List String) : S3Error × String :=
  if error.ifError then (error, "")
  else match etags with
    | [sETag] => if sETag = "" then (.ofWin32 ERROR_INVALID_DATA, "") else (error, sETag)
    | _ => (.ofWin32 ERROR_INVALID_DATA, "")

namespace Book

/-- The number of `UploadPart` requests sent for a part. -/
def attempts (b : Book) (i : ℕ) : ℕ := b.events.count (.uploadPart (i + 1))

def log (b : Book) (e : Event) : Book := { b with events := b.events ++ [e] }

def setMsg (b : Book) (m : ℕ) (msg : Msg) : Book :=
  { b with msg := Function.update b.msg m msg }

def setStatus (b : Book) (i : ℕ) (st : PartStatus) : Book :=
  { b with status := Function.update b.status i st }

/-- An event that is noted down changes no message. -/
@[simp] theorem log_msg (b : Book) (e : Event) : (b.log e).msg = b.msg := rfl

/-- An event that is noted down changes no part. -/
@[simp] theorem log_status (b : Book) (e : Event) : (b.log e).status = b.status := rfl

/-- An event that is noted down changes nothing of the pending list. -/
@[simp] theorem log_pendingList (b : Book) (e : Event) :
    (b.log e).pendingList = b.pendingList := rfl

/-- A message that changes leaves the parts alone. -/
@[simp] theorem setMsg_status (b : Book) (m : ℕ) (msg : Msg) :
    (b.setMsg m msg).status = b.status := rfl

/-- A message that changes leaves the pending list alone. -/
@[simp] theorem setMsg_pendingList (b : Book) (m : ℕ) (msg : Msg) :
    (b.setMsg m msg).pendingList = b.pendingList := rfl

/-- A message that changes leaves the count of the attempts alone. -/
@[simp] theorem setMsg_attempts (b : Book) (m : ℕ) (msg : Msg) :
    (b.setMsg m msg).attempts = b.attempts := rfl

/-- A message is what it is set to. -/
@[simp] theorem setMsg_self (b : Book) (m : ℕ) (msg : Msg) : (b.setMsg m msg).msg m = msg :=
  Function.update_self ..

/-- Where a message is set, the others are as before. -/
theorem setMsg_of_ne (b : Book) {m m' : ℕ} (h : m' ≠ m) (msg : Msg) :
    (b.setMsg m msg).msg m' = b.msg m' := Function.update_of_ne h ..

/-- A part that changes leaves the messages alone. -/
@[simp] theorem setStatus_msg (b : Book) (i : ℕ) (st : PartStatus) :
    (b.setStatus i st).msg = b.msg := rfl

/-- A part that changes leaves the pending list alone. -/
@[simp] theorem setStatus_pendingList (b : Book) (i : ℕ) (st : PartStatus) :
    (b.setStatus i st).pendingList = b.pendingList := rfl

/-- A part that changes leaves the count of the attempts alone. -/
@[simp] theorem setStatus_attempts (b : Book) (i : ℕ) (st : PartStatus) :
    (b.setStatus i st).attempts = b.attempts := rfl

/-- A part is what it is set to. -/
@[simp] theorem setStatus_self (b : Book) (i : ℕ) (st : PartStatus) :
    (b.setStatus i st).status i = st := Function.update_self ..

/-- Where a part is set, the others are as before. -/
theorem setStatus_of_ne (b : Book) {i j : ℕ} (h : j ≠ i) (st : PartStatus) :
    (b.setStatus i st).status j = b.status j := Function.update_of_ne h ..

/-- A message for a part is made and pended, the part marked as in process. -/
def create (b : Book) (i : ℕ) : Book :=
  { b with
    status := Function.update b.status i { b.status i with bInProcess := true }
    msg := Function.update b.msg b.nextMsg { part := i }
    nextMsg := b.nextMsg + 1
    pendingList := b.pendingList ++ [b.nextMsg] }

/-- `SendMessageToPool`. -/
def send (b : Book) (m : ℕ) : Book :=
  { b.setMsg m { b.msg m with phase := .queued } with msgQueue := b.msgQueue ++ [m] }

/-- The entry at a position of the pending list failed and is to be retried. -/
def retry (b : Book) (k m : ℕ) : Book :=
  let st := b.status (b.msg m).part
  { (b.setMsg m { b.msg m with bComplete := false }).setStatus (b.msg m).part
      { st with bInProcess := false, bComplete := false, dwRetryNum := st.dwRetryNum + 1 } with
    pendingList := b.pendingList.eraseIdx k }

/-- The entry at a position of the pending list succeeded. -/
def collect (b : Book) (k m : ℕ) : Book :=
  { b.setStatus (b.msg m).part { b.status (b.msg m).part with bComplete := true } with
    pendingList := b.pendingList.eraseIdx k }

/-- A worker takes a message. -/
def take (b : Book) (m : ℕ) : Book := b.setMsg m { b.msg m with phase := .taken }

/-- The worker starts the `UploadPart` request of its message. -/
def start (b : Book) (m uPartNum : ℕ) : Book :=
  ((b.setStatus (b.msg m).part { b.status (b.msg m).part with sETag := "" }).setMsg m
    { b.msg m with phase := .sending }).log (.uploadPart uPartNum)

/-- The worker passes its message over. -/
def skip (b : Book) (m : ℕ) : Book := b.setMsg m { b.msg m with phase := .skipped }

/-- The send loop has sent the entry marked `bLast`. -/
def sent (b : Book) (m : ℕ) : Book := b.setMsg m { b.msg m with phase := .sent }

/-- The server answers. -/
def respond (b : Book) (m : ℕ) : Book :=
  b.setMsg m { b.msg m with phase := .responded, bGotServerResponse := true }

/-- The request is sent again, with the credentials the server asked for. -/
def resend (b : Book) (m : ℕ) : Book :=
  b.setMsg m { b.msg m with phase := .sending, iRetryAuth := (b.msg m).iRetryAuth + 1 }

/-- `Msg->Error = Msg->Conn.S3MultiPartUpload(..)`. -/
def upload (b : Book) (m uPartNum : ℕ) (error : S3Error) (etags : List String) : Book :=
  let (result, sETag) := s3MultiPartUpload error etags
  let b' := (b.setStatus (b.msg m).part { b.status (b.msg m).part with sETag := sETag }).setMsg m
    { b.msg m with phase := .uploaded, error := result }
  if result.ifError then b' else b'.log (.uploaded uPartNum sETag)

/-- `Msg->Events.bComplete = true`. -/
def finish (b : Book) (m : ℕ) : Book :=
  b.setMsg m { b.msg m with phase := .finished, bComplete := true }

/-- The worker removes the message from `MsgQueue`. -/
def remove (b : Book) (m : ℕ) : Book :=
  { b.setMsg m { b.msg m with phase := .gone } with msgQueue := b.msgQueue.erase m }

/-- The destructor of `CMPUPoolList`. -/
def destroy (b : Book) : Book :=
  { b with
    msg := fun m => if m ∈ b.pendingList then { b.msg m with pevMsg := false } else b.msg m }

end Book

/-- What the books of an upload of `n` parts keep, a part being retried `R` times
at most. -/
structure Core (n R : ℕ) (b : Book) : Prop where
  nodup : b.pendingList.Nodup
  pending_lt : ∀ m ∈ b.pendingList, m < b.nextMsg
  /-- Pending messages are of different parts. -/
  distinct : ∀ m ∈ b.pendingList, ∀ m' ∈ b.pendingList, (b.msg m).part = (b.msg m').part → m = m'
  /-- The part of a pending message is in process, and not complete. -/
  current : ∀ m ∈ b.pendingList, (b.msg m).part < n ∧
    (b.status (b.msg m).part).bInProcess = true ∧ (b.status (b.msg m).part).bComplete = false
  fresh : ∀ m, b.nextMsg ≤ m → (b.msg m).phase = .created
  /-- The workers are through with a message that is no longer pending. -/
  ended : ∀ m, m < b.nextMsg → m ∉ b.pendingList → (b.msg m).phase.ended = true
  finished : ∀ m, (b.msg m).bComplete = true → (b.msg m).phase.ended = true
  /-- A part in process has been sent once more than it was retried, at most. -/
  attempts_le : ∀ i, b.attempts i ≤
    (b.status i).dwRetryNum + if (b.status i).bInProcess then 1 else 0
  /-- No more often than it was retried while its message waits. -/
  unsent : ∀ m ∈ b.pendingList, (b.msg m).phase.unsent = true →
    b.attempts (b.msg m).part ≤ (b.status (b.msg m).part).dwRetryNum
  retries : ∀ i, (b.status i).dwRetryNum ≤ R
  /-- The part of a pending message without an error has the ETag returned for it. -/
  etag : ∀ m ∈ b.pendingList, (b.msg m).phase.hasResult = true →
    (b.msg m).error.ifError = false →
    .uploaded ((b.msg m).part + 1) (b.status (b.msg m).part).sETag ∈ b.events
  /-- A complete part has the ETag of an attempt that succeeded. -/
  whole : ∀ i, (b.status i).bComplete = true →
    .uploaded (i + 1) (b.status i).sETag ∈ b.events

namespace Core

variable {n R : ℕ} {b : Book}

/-- Empty books are kept. -/
theorem init : Core n R {} where
  nodup := List.nodup_nil
  pending_lt := by simp
  distinct := by simp
  current := by simp
  fresh _ _ := rfl
  ended m h := by simp at h
  finished m h := by simp at h
  attempts_le := by simp [Book.attempts]
  unsent := by simp
  retries := by simp
  etag := by simp
  whole i h := by simp at h

/-- A message that a worker holds is pending. -/
theorem pending (hc : Core n R b) {m : ℕ} (h1 : (b.msg m).phase ≠ .created)
    (h2 : (b.msg m).phase.ended = false) : m ∈ b.pendingList := by
  by_contra hm
  rcases Nat.lt_or_ge m b.nextMsg with h | h
  · simp [hc.ended m h hm] at h2
  · exact h1 (hc.fresh m h)

/-- A message moves on. -/
theorem setMsg (hc : Core n R b) {m : ℕ} {v : Msg} (hm : m < b.nextMsg)
    (hpart : v.part = (b.msg m).part)
    (hover : (b.msg m).phase.ended = true → v.phase.ended = true)
    (hfin : v.bComplete = true → v.phase.ended = true)
    (hun : v.phase.unsent = true → (b.msg m).phase.unsent = true)
    (hetag : m ∈ b.pendingList → v.phase.hasResult = true → v.error.ifError = false →
      .uploaded ((b.msg m).part + 1) (b.status (b.msg m).part).sETag ∈ b.events) :
    Core n R (b.setMsg m v) := by
  have part : ∀ m', ((b.setMsg m v).msg m').part = (b.msg m').part := by
    intro m'
    by_cases h : m' = m
    · subst h; simpa using hpart
    · rw [Book.setMsg_of_ne b h]
  refine ⟨hc.nodup, hc.pending_lt, fun m₁ h₁ m₂ h₂ h => hc.distinct m₁ h₁ m₂ h₂ ?_,
    fun m' h => ?_, fun m' h => ?_, fun m' h h' => ?_, fun m' h => ?_, hc.attempts_le,
    fun m' h hu => ?_, hc.retries, fun m' h hr he => ?_, hc.whole⟩
  · simpa only [part] using h
  · simpa only [part, Book.setMsg_status] using hc.current m' h
  · have h : b.nextMsg ≤ m' := h
    rw [Book.setMsg_of_ne b (by omega)]
    exact hc.fresh m' h
  · by_cases hmm : m' = m
    · subst hmm; simpa using hover (hc.ended m' h h')
    · rw [Book.setMsg_of_ne b hmm]; exact hc.ended m' h h'
  · by_cases hmm : m' = m
    · subst hmm; simp only [Book.setMsg_self] at h ⊢; exact hfin h
    · rw [Book.setMsg_of_ne b hmm] at h ⊢; exact hc.finished m' h
  · rw [part, Book.setMsg_attempts, Book.setMsg_status]
    refine hc.unsent m' h ?_
    by_cases hmm : m' = m
    · subst hmm; simp only [Book.setMsg_self] at hu; exact hun hu
    · rwa [Book.setMsg_of_ne b hmm] at hu
  · rw [part, Book.setMsg_status]
    by_cases hmm : m' = m
    · subst hmm; simp only [Book.setMsg_self] at hr he ⊢; exact hetag h hr he
    · rw [Book.setMsg_of_ne b hmm] at hr he; exact hc.etag m' h hr he

/-- The worker that holds a message sets the ETag of its part. -/
theorem setETag (hc : Core n R b) {m : ℕ} (hm : m ∈ b.pendingList)
    (hres : (b.msg m).phase.hasResult = false) (sETag : String) :
    Core n R (b.setStatus (b.msg m).part { b.status (b.msg m).part with sETag := sETag }) := by
  generalize hst : { b.status (b.msg m).part with sETag := sETag } = st
  have flags : ∀ i, ((b.setStatus (b.msg m).part st).status i).bInProcess =
        (b.status i).bInProcess ∧
      ((b.setStatus (b.msg m).part st).status i).bComplete = (b.status i).bComplete ∧
      ((b.setStatus (b.msg m).part st).status i).dwRetryNum = (b.status i).dwRetryNum := by
    intro i
    by_cases h : i = (b.msg m).part
    · subst h; rw [Book.setStatus_self, ← hst]; exact ⟨rfl, rfl, rfl⟩
    · rw [Book.setStatus_of_ne b h]; exact ⟨rfl, rfl, rfl⟩
  refine ⟨hc.nodup, hc.pending_lt, hc.distinct, fun m' h => ?_, hc.fresh, hc.ended, hc.finished,
    fun i => ?_, fun m' h hu => ?_, fun i => ?_, fun m' h hr he => ?_, fun i h => ?_⟩
  · rw [(flags _).1, (flags _).2.1]; exact hc.current m' h
  · rw [(flags _).1, (flags _).2.2]; exact hc.attempts_le i
  · rw [(flags _).2.2]; exact hc.unsent m' h hu
  · rw [(flags _).2.2]; exact hc.retries i
  · simp only [Book.setStatus_msg] at hr he ⊢
    have hne : (b.msg m').part ≠ (b.msg m).part := by
      intro hp
      rw [hc.distinct m' h m hm hp, hres] at hr
      simp at hr
    rw [Book.setStatus_of_ne b hne]
    exact hc.etag m' h hr he
  · rw [(flags _).2.1] at h
    have hne : i ≠ (b.msg m).part := by
      rintro rfl
      rw [(hc.current m hm).2.2] at h
      simp at h
    rw [Book.setStatus_of_ne b hne]
    exact hc.whole i h

/-- Something other than the start of an `UploadPart` happens. -/
theorem log (hc : Core n R b) {e : Event} (he : ∀ k, e ≠ .uploadPart k) :
    Core n R (b.log e) := by
  have hat : ∀ i, (b.log e).attempts i = b.attempts i := by
    intro i
    have : ¬e = .uploadPart (i + 1) := he _
    simp [Book.attempts, Book.log, this]
  refine ⟨hc.nodup, hc.pending_lt, hc.distinct, hc.current, hc.fresh, hc.ended, hc.finished,
    fun i => ?_, fun m h hu => ?_, hc.retries, fun m h hr he => ?_, fun i h => ?_⟩
  · rw [hat]; exact hc.attempts_le i
  · rw [hat]; exact hc.unsent m h hu
  · exact List.mem_append_left _ (hc.etag m h hr he)
  · exact List.mem_append_left _ (hc.whole i h)

/-- The `UploadPart` request of a pending message is sent. -/
theorem logUpload (hc : Core n R b) {m : ℕ} (hm : m ∈ b.pendingList)
    (hun : (b.msg m).phase.unsent = false)
    (hle : b.attempts (b.msg m).part ≤ (b.status (b.msg m).part).dwRetryNum) :
    Core n R (b.log (.uploadPart ((b.msg m).part + 1))) := by
  have here : (b.log (.uploadPart ((b.msg m).part + 1))).attempts (b.msg m).part =
      b.attempts (b.msg m).part + 1 := by
    simp [Book.attempts, Book.log]
  have other : ∀ {i}, i ≠ (b.msg m).part →
      (b.log (.uploadPart ((b.msg m).part + 1))).attempts i = b.attempts i := by
    intro i h
    simp [Book.attempts, Book.log, Ne.symm h]
  refine ⟨hc.nodup, hc.pending_lt, hc.distinct, hc.current, hc.fresh, hc.ended, hc.finished,
    fun i => ?_, fun m' h hu => ?_, hc.retries, fun m' h hr he => ?_, fun i h => ?_⟩
  · by_cases h : i = (b.msg m).part
    · subst h
      rw [here]
      have := (hc.current m hm).2.1
      simp only [Book.log, this, if_true]
      omega
    · rw [other h]; exact hc.attempts_le i
  · by_cases h' : (b.msg m').part = (b.msg m).part
    · rw [Book.log_msg, hc.distinct m' h m hm h', hun] at hu
      simp at hu
    · rw [Book.log_msg, other h']
      exact hc.unsent m' h hu
  · exact List.mem_append_left _ (hc.etag m' h hr he)
  · exact List.mem_append_left _ (hc.whole i h)

/-- **A message is made for a part that is neither in process nor complete.** It is the only pending
message of its part, as those of the list have parts in process, and its part is in process from
here on. -/
theorem create (hc : Core n R b) {i : ℕ} (hi : i < n) (hp : (b.status i).bInProcess = false)
    (hcomp : (b.status i).bComplete = false) : Core n R (b.create i) := by
  have hnew : b.nextMsg ∉ b.pendingList := fun h => absurd (hc.pending_lt _ h) (by omega)
  have mem : ∀ {m}, m ∈ (b.create i).pendingList → m = b.nextMsg ∨ m ∈ b.pendingList := by
    intro m h
    rcases List.mem_append.1 h with h | h
    · exact .inr h
    · exact .inl (by simpa using h)
  have here : (b.create i).msg b.nextMsg = { part := i } := by simp [Book.create]
  have old : ∀ {m}, m ≠ b.nextMsg → (b.create i).msg m = b.msg m := by
    intro m h
    simp [Book.create, h]
  have ne : ∀ {m}, m ∈ b.pendingList → m ≠ b.nextMsg := fun h => by
    have := hc.pending_lt _ h; omega
  have nopart : ∀ {m}, m ∈ b.pendingList → (b.msg m).part ≠ i := by
    rintro m h rfl
    simp [(hc.current m h).2.1] at hp
  have status_i : (b.create i).status i = { b.status i with bInProcess := true } := by
    simp [Book.create]
  have status_ne : ∀ {j}, j ≠ i → (b.create i).status j = b.status j := by
    intro j h
    simp [Book.create, h]
  have hat : (b.create i).attempts = b.attempts := rfl
  have hle : b.attempts i ≤ (b.status i).dwRetryNum := by simpa [hp] using hc.attempts_le i
  refine ⟨?_, fun m h => ?_, fun m₁ h₁ m₂ h₂ h => ?_, fun m h => ?_, fun m h => ?_, fun m h h' => ?_,
    fun m h => ?_, fun j => ?_, fun m h hu => ?_, fun j => ?_, fun m h hr he => ?_, fun j h => ?_⟩
  · exact List.nodup_append.2 ⟨hc.nodup, by simp, by simpa using fun m h => ne h⟩
  · show m < b.nextMsg + 1
    rcases mem h with rfl | h
    · omega
    · have := hc.pending_lt m h; omega
  · rcases mem h₁ with rfl | h₁ <;> rcases mem h₂ with rfl | h₂
    · rfl
    · rw [here, old (ne h₂)] at h; exact absurd h.symm (nopart h₂)
    · rw [here, old (ne h₁)] at h; exact absurd h (nopart h₁)
    · rw [old (ne h₁), old (ne h₂)] at h; exact hc.distinct m₁ h₁ m₂ h₂ h
  · rcases mem h with rfl | h
    · rw [here]; exact ⟨hi, by simp [status_i], by simpa [status_i] using hcomp⟩
    · rw [old (ne h), status_ne (nopart h)]; exact hc.current m h
  · have h : b.nextMsg + 1 ≤ m := h
    rw [old (by omega)]
    exact hc.fresh m (by omega)
  · have h : m < b.nextMsg + 1 := h
    have hne : m ≠ b.nextMsg := by
      rintro rfl
      exact h' (by simp [Book.create])
    rw [old hne]
    exact hc.ended m (by omega) fun hm => h' (by simp [Book.create, hm])
  · by_cases hne : m = b.nextMsg
    · subst hne; simp [here] at h
    · rw [old hne] at h ⊢; exact hc.finished m h
  · rw [hat]
    by_cases hj : j = i
    · subst hj; simp only [status_i, if_true]; omega
    · rw [status_ne hj]; exact hc.attempts_le j
  · rw [hat]
    rcases mem h with rfl | h
    · rw [here]; simpa [status_i] using hle
    · rw [old (ne h)] at hu ⊢
      rw [status_ne (nopart h)]; exact hc.unsent m h hu
  · by_cases hj : j = i
    · subst hj; rw [status_i]; exact hc.retries j
    · rw [status_ne hj]; exact hc.retries j
  · rcases mem h with rfl | h
    · simp [here, Phase.hasResult] at hr
    · rw [old (ne h)] at hr he ⊢
      rw [status_ne (nopart h)]; exact hc.etag m h hr he
  · have hji : j ≠ i := by
      rintro rfl
      rw [status_i] at h
      simp [hcomp] at h
    rw [status_ne hji] at h ⊢
    exact hc.whole j h

/-- What is left of the pending list once an entry was erased. -/
theorem mem_eraseIdx (hc : Core n R b) {k m : ℕ} (hk : b.pendingList[k]? = some m) {m' : ℕ} :
    m' ∈ b.pendingList.eraseIdx k ↔ m' ≠ m ∧ m' ∈ b.pendingList := by
  obtain ⟨hlt, rfl⟩ := List.getElem?_eq_some_iff.1 hk
  rw [← hc.nodup.erase_getElem, hc.nodup.mem_erase_iff]

/-- **An attempt that succeeded completes its part.** The ETag is the one that the worker has stored
for the part; and as no other message of the part is pending, none replaces it. -/
theorem collect (hc : Core n R b) {k m : ℕ} (hk : b.pendingList[k]? = some m)
    (hfin : (b.msg m).phase.ended = true) (hok : (b.msg m).error.ifError = false) :
    Core n R (b.collect k m) := by
  have hm : m ∈ b.pendingList := List.mem_of_getElem? hk
  have mem : ∀ {m'}, m' ∈ (b.collect k m).pendingList ↔ m' ≠ m ∧ m' ∈ b.pendingList :=
    hc.mem_eraseIdx hk
  have hmsg : (b.collect k m).msg = b.msg := rfl
  have here : (b.collect k m).status (b.msg m).part =
      { b.status (b.msg m).part with bComplete := true } := by simp [Book.collect]
  have other : ∀ {i}, i ≠ (b.msg m).part → (b.collect k m).status i = b.status i := by
    intro i h
    simp [Book.collect, Book.setStatus_of_ne b h]
  have same : ∀ i, ((b.collect k m).status i).bInProcess = (b.status i).bInProcess ∧
      ((b.collect k m).status i).dwRetryNum = (b.status i).dwRetryNum := by
    intro i
    by_cases h : i = (b.msg m).part
    · subst h; rw [here]; exact ⟨rfl, rfl⟩
    · rw [other h]; exact ⟨rfl, rfl⟩
  have nopart : ∀ {m'}, m' ∈ (b.collect k m).pendingList → (b.msg m').part ≠ (b.msg m).part :=
    fun h hp => (mem.1 h).1 (hc.distinct _ (mem.1 h).2 m hm hp)
  refine ⟨hc.nodup.sublist (List.eraseIdx_sublist ..), fun m' h => hc.pending_lt m' (mem.1 h).2,
    fun m₁ h₁ m₂ h₂ h => hc.distinct m₁ (mem.1 h₁).2 m₂ (mem.1 h₂).2 h, fun m' h => ?_, hc.fresh,
    fun m' h h' => ?_, hc.finished, fun i => ?_, fun m' h hu => ?_, fun i => ?_,
    fun m' h hr he => ?_, fun i h => ?_⟩
  · rw [hmsg, other (nopart h)]; exact hc.current m' (mem.1 h).2
  · rw [mem, not_and_or, not_not] at h'
    rcases h' with rfl | h'
    · exact hfin
    · exact hc.ended m' h h'
  · rw [(same i).1, (same i).2]; exact hc.attempts_le i
  · rw [(same _).2]; exact hc.unsent m' (mem.1 h).2 hu
  · rw [(same i).2]; exact hc.retries i
  · rw [hmsg, other (nopart h)]; exact hc.etag m' (mem.1 h).2 hr he
  · by_cases hi : i = (b.msg m).part
    · subst hi
      rw [here]
      exact hc.etag m hm (Phase.hasResult_of_ended hfin) hok
    · rw [other hi] at h ⊢; exact hc.whole i h

/-- **An attempt that failed gives its part back**, to be sent again, as long as
there are retries left. -/
theorem retry (hc : Core n R b) {k m : ℕ} (hk : b.pendingList[k]? = some m)
    (hfin : (b.msg m).phase.ended = true) (herr : (b.msg m).error.ifError = true)
    (hr : (b.status (b.msg m).part).dwRetryNum < R) : Core n R (b.retry k m) := by
  have hm : m ∈ b.pendingList := List.mem_of_getElem? hk
  have mem : ∀ {m'}, m' ∈ (b.retry k m).pendingList ↔ m' ≠ m ∧ m' ∈ b.pendingList :=
    hc.mem_eraseIdx hk
  have hphase : ∀ m', ((b.retry k m).msg m').phase = (b.msg m').phase ∧
      ((b.retry k m).msg m').part = (b.msg m').part ∧
      ((b.retry k m).msg m').error = (b.msg m').error ∧
      (((b.retry k m).msg m').bComplete = true → (b.msg m').bComplete = true) := by
    intro m'
    by_cases h : m' = m
    · subst h; simp [Book.retry]
    · simp [Book.retry, Book.setMsg_of_ne b h]
  have hat : (b.retry k m).attempts = b.attempts := rfl
  have here : (b.retry k m).status (b.msg m).part = { b.status (b.msg m).part with
      bInProcess := false, bComplete := false,
      dwRetryNum := (b.status (b.msg m).part).dwRetryNum + 1 } := by
    simp [Book.retry]
  have other : ∀ {i}, i ≠ (b.msg m).part → (b.retry k m).status i = b.status i := by
    intro i h
    simp [Book.retry, Book.setStatus_of_ne _ h]
  have nopart : ∀ {m'}, m' ∈ (b.retry k m).pendingList → (b.msg m').part ≠ (b.msg m).part :=
    fun h hp => (mem.1 h).1 (hc.distinct _ (mem.1 h).2 m hm hp)
  refine ⟨hc.nodup.sublist (List.eraseIdx_sublist ..), fun m' h => hc.pending_lt m' (mem.1 h).2,
    fun m₁ h₁ m₂ h₂ h => ?_, fun m' h => ?_, fun m' h => ?_, fun m' h h' => ?_, fun m' h => ?_,
    fun i => ?_, fun m' h hu => ?_, fun i => ?_, fun m' h hr he => ?_, fun i h => ?_⟩
  · rw [(hphase m₁).2.1, (hphase m₂).2.1] at h
    exact hc.distinct m₁ (mem.1 h₁).2 m₂ (mem.1 h₂).2 h
  · rw [(hphase m').2.1, other (nopart h)]; exact hc.current m' (mem.1 h).2
  · rw [(hphase m').1]; exact hc.fresh m' h
  · rw [(hphase m').1]
    rw [mem, not_and_or, not_not] at h'
    rcases h' with rfl | h'
    · exact hfin
    · exact hc.ended m' h h'
  · rw [(hphase m').1]; exact hc.finished m' ((hphase m').2.2.2 h)
  · rw [hat]
    by_cases hi : i = (b.msg m).part
    · subst hi
      have h1 := hc.attempts_le (b.msg m).part
      have h2 := (hc.current m hm).2.1
      simp only [h2, if_true] at h1
      rw [here]
      simpa using h1
    · rw [other hi]; exact hc.attempts_le i
  · rw [(hphase m').1] at hu
    rw [hat, (hphase m').2.1, other (nopart h)]
    exact hc.unsent m' (mem.1 h).2 hu
  · by_cases hi : i = (b.msg m).part
    · subst hi; rw [here]; exact hr
    · rw [other hi]; exact hc.retries i
  · rw [(hphase m').1] at hr
    rw [(hphase m').2.2.1] at he
    rw [(hphase m').2.1, other (nopart h)]
    exact hc.etag m' (mem.1 h).2 hr he
  · have hi : i ≠ (b.msg m).part := by
      rintro rfl
      rw [here] at h
      simp at h
    rw [other hi] at h ⊢
    exact hc.whole i h

/-- A message whose worker holds it moves to another phase of the worker's, before
the result. -/
theorem setPhase (hc : Core n R b) {m : ℕ} {v : Msg} (hm : m ∈ b.pendingList)
    (hover : (b.msg m).phase.ended = false) (hpart : v.part = (b.msg m).part)
    (hfin : v.bComplete = (b.msg m).bComplete)
    (hun : v.phase.unsent = true → (b.msg m).phase.unsent = true)
    (hres : v.phase.hasResult = false) : Core n R (b.setMsg m v) := by
  refine hc.setMsg (hc.pending_lt m hm) hpart (by simp [hover]) (fun h => ?_) hun
    (fun _ h => by simp [hres] at h)
  rw [hfin] at h
  simp [hc.finished m h] at hover

/-- The books are kept when a message is given to the pool. -/
theorem send (hc : Core n R b) {m : ℕ} (hm : m ∈ b.pendingList)
    (hp : (b.msg m).phase = .created) : Core n R (b.send m) := by
  have h := hc.setPhase (v := { b.msg m with phase := .queued }) hm (by simp [hp, Phase.ended]) rfl
    rfl (by simp [hp, Phase.unsent]) rfl
  exact ⟨h.1, h.2, h.3, h.4, h.5, h.6, h.7, h.8, h.9, h.10, h.11, h.12⟩

/-- The books are kept when a worker takes a message from the queue. -/
theorem take (hc : Core n R b) {m : ℕ} (hp : (b.msg m).phase = .queued) : Core n R (b.take m) :=
  hc.setPhase (hc.pending (by simp [hp]) (by simp [hp, Phase.ended])) (by simp [hp, Phase.ended]) rfl
    rfl (by simp [hp, Phase.unsent]) rfl

/-- The books are kept when a worker finds the upload aborted and leaves its message alone. -/
theorem skip (hc : Core n R b) {m : ℕ} (hp : (b.msg m).phase = .taken) : Core n R (b.skip m) :=
  hc.setPhase (hc.pending (by simp [hp]) (by simp [hp, Phase.ended])) (by simp [hp, Phase.ended]) rfl
    rfl (by simp [Phase.unsent]) rfl

/-- The books are kept when a part is sent. -/
theorem sent (hc : Core n R b) {m : ℕ} (hp : (b.msg m).phase = .sending) : Core n R (b.sent m) :=
  hc.setPhase (hc.pending (by simp [hp]) (by simp [hp, Phase.ended])) (by simp [hp, Phase.ended]) rfl
    rfl (by simp [Phase.unsent]) rfl

/-- The books are kept when a part is answered. -/
theorem respond (hc : Core n R b) {m : ℕ} (hp : (b.msg m).phase = .sent) : Core n R (b.respond m) :=
  hc.setPhase (hc.pending (by simp [hp]) (by simp [hp, Phase.ended])) (by simp [hp, Phase.ended]) rfl
    rfl (by simp [Phase.unsent]) rfl

/-- The books are kept when a part is sent again. -/
theorem resend (hc : Core n R b) {m : ℕ} (hp : (b.msg m).phase = .responded) :
    Core n R (b.resend m) :=
  hc.setPhase (hc.pending (by simp [hp]) (by simp [hp, Phase.ended])) (by simp [hp, Phase.ended]) rfl
    rfl (by simp [Phase.unsent]) rfl

/-- **The worker starts an attempt of the part of its message.** It is one attempt more, which was
not counted yet while the message waited; the ETag of an attempt before it is cleared. -/
theorem start (hc : Core n R b) {m : ℕ} (hp : (b.msg m).phase = .taken) :
    Core n R (b.start m ((b.msg m).part + 1)) := by
  have hm : m ∈ b.pendingList := hc.pending (by simp [hp]) (by simp [hp, Phase.ended])
  have h1 := hc.setETag hm (by simp [hp, Phase.hasResult]) ""
  have h2 := h1.setPhase (v := { b.msg m with phase := .sending }) hm
    (by simp [hp, Phase.ended]) rfl rfl (by simp [Phase.unsent]) rfl
  have hle : b.attempts (b.msg m).part ≤ (b.status (b.msg m).part).dwRetryNum :=
    hc.unsent m hm (by simp [hp, Phase.unsent])
  have h3 := h2.logUpload hm (by simp [Phase.unsent]) (by simpa using hle)
  simpa [Book.start] using h3

/-- **The worker has the result of its request.** Its ETag is stored in the part before the
coordinating thread looks at the message, and where there was no error the event that the server
answered with it is recorded. -/
theorem upload (hc : Core n R b) {m : ℕ} (hp : (b.msg m).phase.inFlight = true) (error : S3Error)
    (etags : List String) : Core n R (b.upload m ((b.msg m).part + 1) error etags) := by
  have hph : (b.msg m).phase ≠ .created ∧ (b.msg m).phase.ended = false ∧
      (b.msg m).phase.hasResult = false := by
    cases h : (b.msg m).phase <;> simp_all [Phase.inFlight, Phase.ended, Phase.hasResult]
  have hm : m ∈ b.pendingList := hc.pending hph.1 hph.2.1
  have h1 := hc.setETag hm hph.2.2 (s3MultiPartUpload error etags).2
  have hfin : (b.msg m).bComplete ≠ true := fun h => by
    have := hc.finished m h
    simp [hph.2.1] at this
  unfold Book.upload
  cases hres : (s3MultiPartUpload error etags).1.ifError with
  | true =>
      simp only [hres, if_true]
      exact h1.setMsg (hc.pending_lt m hm) rfl (by simp [hph.2.1]) (fun h => absurd h hfin)
        (by simp [Phase.unsent]) (fun _ _ h => by simp [hres] at h)
  | false =>
      simp only [hres, Bool.false_eq_true, if_false]
      -- The event is logged first: a message without an error needs it.
      have h2 := (h1.log (e := .uploaded ((b.msg m).part + 1) (s3MultiPartUpload error etags).2)
        (by simp)).setMsg (m := m)
        (v := { b.msg m with phase := .uploaded, error := (s3MultiPartUpload error etags).1 })
        (hc.pending_lt m hm) rfl (by simp [hph.2.1]) (fun h => absurd h hfin)
        (by simp [Phase.unsent]) (fun _ _ _ => by simp [Book.log])
      exact h2

/-- The books are kept when a worker finishes its message. -/
theorem finish (hc : Core n R b) {m : ℕ} (hp : (b.msg m).phase = .uploaded) :
    Core n R (b.finish m) := by
  have hm : m ∈ b.pendingList := hc.pending (by simp [hp]) (by simp [hp, Phase.ended])
  exact hc.setMsg (hc.pending_lt m hm) rfl (fun _ => rfl) (fun _ => rfl) (by simp [Phase.unsent])
    (fun _ _ he => hc.etag m hm (by simp [hp, Phase.hasResult]) he)

/-- The books are kept when the coordinating thread drops a message that is finished. -/
theorem remove (hc : Core n R b) {m : ℕ} (hp : (b.msg m).phase = .finished) :
    Core n R (b.remove m) := by
  have hlt : m < b.nextMsg := by
    by_contra h
    have := hc.fresh m (by omega)
    simp [hp] at this
  have h := hc.setMsg (v := { b.msg m with phase := .gone }) hlt rfl (fun _ => rfl) (fun _ => rfl)
    (by simp [Phase.unsent]) (fun hm _ he => hc.etag m hm (by simp [hp, Phase.hasResult]) he)
  exact ⟨h.1, h.2, h.3, h.4, h.5, h.6, h.7, h.8, h.9, h.10, h.11, h.12⟩

/-- The pool is disabled. -/
theorem disable (hc : Core n R b) : Core n R { b with bDisable := true } :=
  ⟨hc.1, hc.2, hc.3, hc.4, hc.5, hc.6, hc.7, hc.8, hc.9, hc.10, hc.11, hc.12⟩

/-- The books are kept when the pool is destroyed with what is in its queue. -/
theorem destroy (hc : Core n R b) : Core n R b.destroy := by
  have same : ∀ m, (b.destroy.msg m).part = (b.msg m).part ∧
      (b.destroy.msg m).phase = (b.msg m).phase ∧ (b.destroy.msg m).error = (b.msg m).error ∧
      (b.destroy.msg m).bComplete = (b.msg m).bComplete := by
    intro m
    simp only [Book.destroy]
    split_ifs <;> exact ⟨rfl, rfl, rfl, rfl⟩
  have hat : b.destroy.attempts = b.attempts := rfl
  have hst : b.destroy.status = b.status := rfl
  refine ⟨hc.nodup, hc.pending_lt, fun m h m' h' hp => ?_, fun m h => ?_, fun m h => ?_,
    fun m h h' => ?_, fun m h => ?_, hc.attempts_le, fun m h hu => ?_, hc.retries,
    fun m h hr he => ?_, hc.whole⟩
  · rw [(same m).1, (same m').1] at hp; exact hc.distinct m h m' h' hp
  · rw [(same m).1, hst]; exact hc.current m h
  · rw [(same m).2.1]; exact hc.fresh m h
  · rw [(same m).2.1]; exact hc.ended m h h'
  · rw [(same m).2.2.2] at h
    rw [(same m).2.1]; exact hc.finished m h
  · rw [(same m).2.1] at hu
    rw [(same m).1, hat, hst]; exact hc.unsent m h hu
  · rw [(same m).2.1] at hr
    rw [(same m).2.2.1] at he
    rw [(same m).1, hst]; exact hc.etag m h hr he

end Core

end Multipart
end ECSUtil

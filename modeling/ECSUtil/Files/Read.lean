/-
# `S3Read`: a reader thread fills the queue, the drain loop empties it

`S3Read` and `CS3ReadThread::DoWork` (`ECSUtil/FileSupport.cpp`), with the receive
loop of `SendRequestInternal` (`ECSUtil/ECSConnection.cpp`) that pushes what the
server sends and, when `WinHttpQueryDataAvailable` reports no more, one empty
entry marked `bLast`.

The two threads run side by side.  Each access to something they share (the
queue, `bTerminate`, `bWorkerDone`, `Error`, whether the thread still runs) is a
step of its own; what a thread does with its locals between two of them belongs
to the step before.  The lengths and errors that come from outside (the data
received, the result of `IStream::Write`, the error `Read` ends with) are carried
by the actions.  A push never fails and, once `TestAbort` holds, does not wait
either, so the bound of the queue does not restrict the steps.

The progress callback, `pullReturnedLength` and the header list decide nothing
here and are left out.
-/

import ECSUtil.Conn.Error
import ECSUtil.Conn.Stream
import ECSUtil.Lib.StepSystem
import Mathlib.Tactic.Common

namespace ECSUtil
namespace S3Read

/-- Where the reader thread is: not yet in `DoWork`, in the receive loop, after
the push of the `bLast` entry, after `Error = pConn->Read(..)`, after
`bWorkerDone = true`, or ended. -/
inductive Reader
  | idle
  | receiving
  | sentLast
  | returned
  | done
  | ended
  deriving DecidableEq, Repr

/-- The reader may still push entries. -/
def Reader.pushes : Reader → Bool
  | .idle | .receiving => true
  | _ => false

/-- The reader has stored what `Read` returned. -/
def Reader.hasError : Reader → Bool
  | .returned | .done | .ended => true
  | _ => false

/-- Where the thread that called `S3Read` is: before each access to what it
shares with the reader, with the entry it holds, or at the end with the error it
returns. -/
inductive Drain
  | wait
  | testEmpty
  | pop
  | writing (entry : StreamDataEntry)
  | testExitFlag
  | testWorkerDone
  | testActive
  | killThread
  | join
  | returned (result : S3Error)
  deriving DecidableEq, Repr

/-- The loop has been left. -/
def Drain.left : Drain → Bool
  | .killThread | .join | .returned _ => true
  | _ => false

/-- The data the drain loop has popped and not yet written. -/
def Drain.inHand : Drain → Bytes
  | .writing entry => entry.data
  | _ => []

/-- The state of the two threads: the members of `CS3ReadThread`, the locals of
`S3Read`, and the bytes `pStream` has taken. -/
structure State where
  streamData : StreamData := .empty
  error : S3Error := {}
  bWorkerDone : Bool := false
  bTerminate : Bool := false
  reader : Reader := .idle
  dwLen : DWORD := 0
  bDone : Bool := false
  dwMainThreadError : DWORD := ERROR_SUCCESS
  drain : Drain := .wait
  stream : Bytes := []
  deriving DecidableEq

/-- What one of the threads does next, with what the step gets from outside. -/
inductive Action
  /-- The reader enters `DoWork`. -/
  | readStart
  /-- The receive loop pushes what `WinHttpReadData` delivered. -/
  | pushData (data : Bytes)
  /-- The receive loop pushes the `bLast` entry. -/
  | pushLast
  /-- `Error = pConn->Read(..)`. -/
  | readReturn (e : S3Error)
  /-- `bWorkerDone = true`. -/
  | storeWorkerDone
  /-- The reader leaves its thread procedure. -/
  | threadEnd
  /-- Another thread calls `KillThread` on the reader. -/
  | killReader
  /-- The wait for the queue event ends, `TestAbort` being `false`. -/
  | waited
  /-- The wait ends, `TestAbort` being `true`. -/
  | waitAborted
  /-- The wait fails with this error. -/
  | waitFailed (dwError : DWORD)
  | testEmpty
  | pop
  /-- `pStream->Write`; a failing one may have written the first `n` bytes. -/
  | write (hr : DWORD) (n : ℕ)
  | testExitFlag
  | testWorkerDone
  | testActive
  /-- `ReadThread.KillThreadWait()`, up to its wait for the thread to end. -/
  | killThread
  /-- `KillThreadWait` returns, and then `S3Read`. -/
  | join
  deriving Repr

namespace State

/-- The rest of the inner loop's body after the entry was written. -/
def entryWritten (s : State) (entry : StreamDataEntry) : State :=
  if entry.bLast then { s with bDone := true, drain := .testExitFlag }
  else { s with drain := .testEmpty }

/-- The error `S3Read` returns. -/
def result (s : State) : S3Error :=
  if s.dwMainThreadError = ERROR_SUCCESS ∨ s.error.ifError then s.error
  else .ofWin32 s.dwMainThreadError

/-- One step of one of the threads. -/
def step (s : State) : Action → Option State
  | .readStart => if s.reader = .idle then some { s with reader := .receiving } else none
  | .pushData data =>
      if s.reader = .receiving then
        some { s with
          streamData := s.streamData.push { data := data, ullOffset := s.dwLen.toNat }
          dwLen := s.dwLen + UInt32.ofNat data.length }
      else none
  | .pushLast =>
      if s.reader = .receiving then
        some { s with
          streamData := s.streamData.push { ullOffset := s.dwLen.toNat, bLast := true }
          reader := .sentLast }
      else none
  | .readReturn e =>
      -- Without the `bLast` entry the receive loop was left by a throw, or never entered.
      if s.reader = .sentLast ∨ s.reader = .receiving ∧ e.ifError then
        some { s with error := e, reader := .returned }
      else none
  | .storeWorkerDone =>
      if s.reader = .returned then some { s with bWorkerDone := true, reader := .done } else none
  | .threadEnd =>
      if s.bTerminate ∧ (s.reader = .idle ∨ s.reader = .done) then
        some { s with reader := .ended }
      else none
  | .killReader => some { s with bTerminate := true }
  | .waited => if s.drain = .wait then some { s with drain := .testEmpty } else none
  | .waitAborted =>
      if s.drain = .wait then
        some { s with dwMainThreadError := ERROR_OPERATION_ABORTED, drain := .killThread }
      else none
  | .waitFailed dwError =>
      if s.drain = .wait ∧ dwError ≠ ERROR_SUCCESS then
        some { s with dwMainThreadError := dwError, drain := .killThread }
      else none
  | .testEmpty =>
      if s.drain = .testEmpty then
        some { s with drain := if s.streamData.queue = [] then .testExitFlag else .pop }
      else none
  | .pop =>
      if s.drain = .pop then
        s.streamData.pop.map fun (entry, q) =>
          if entry.data = [] then { s with streamData := q }.entryWritten entry
          else { s with streamData := q, drain := .writing entry }
      else none
  | .write hr n =>
      match s.drain with
      | .writing entry =>
          if hr = S_OK then some ({ s with stream := s.stream ++ entry.data }.entryWritten entry)
          else some { s with
            stream := s.stream ++ entry.data.take n
            dwMainThreadError := hr
            drain := .testExitFlag }
      | _ => none
  | .testExitFlag =>
      if s.drain = .testExitFlag then
        some (if s.bTerminate then
            { s with dwMainThreadError := ERROR_OPERATION_ABORTED, drain := .killThread }
          else if s.dwMainThreadError ≠ ERROR_SUCCESS then { s with drain := .killThread }
          else { s with drain := .testWorkerDone })
      else none
  | .testWorkerDone =>
      if s.drain = .testWorkerDone then
        some { s with drain := if s.bWorkerDone then .killThread else .testActive }
      else none
  | .testActive =>
      if s.drain = .testActive then
        some { s with
          drain :=
            if s.reader = .ended ∧ s.error.ifError then .killThread
            else if s.bDone then .killThread
            else .wait }
      else none
  | .killThread =>
      if s.drain = .killThread then some { s with bTerminate := true, drain := .join } else none
  | .join =>
      if s.drain = .join ∧ s.reader = .ended then some { s with drain := .returned s.result }
      else none

end State

/-- The two threads of a call of `S3Read`. -/
def system : StepSystem State Action where
  init s := s = {}
  step := State.step

/-- **The worker is done and so is the queue.**  When the drain loop finds
`bWorkerDone` set, either the worker ended with an error, or the entries still
queued carry no bytes. -/
def Drained (s : State) : Action → Prop
  | .testWorkerDone => s.bWorkerDone → s.error.ifError ∨ body s.streamData.queue = []
  | _ => True

instance (s : State) (a : Action) : Decidable (Drained s a) := by
  cases a <;> unfold Drained <;> infer_instance

/-- What holds in every state of the two threads. -/
structure Inv (s : State) : Prop where
  /-- What was popped is what was written and what is in hand, until a write fails. -/
  written : s.dwMainThreadError = ERROR_SUCCESS →
    body s.streamData.popped = s.stream ++ s.drain.inHand
  /-- While the reader may push, nothing it pushed is marked `bLast`. -/
  pushing : s.reader.pushes → Open s.streamData.pushed
  /-- At most the last entry pushed is marked `bLast`. -/
  marks : Marked s.streamData.pushed
  /-- Holding the `bLast` entry, the loop has emptied the queue for good. -/
  inHand : ∀ e, s.drain = .writing e → e.bLast → s.streamData.queue = [] ∧ ¬s.reader.pushes
  /-- So it has once `bDone` is set. -/
  done : s.bDone → s.streamData.queue = [] ∧ ¬s.reader.pushes
  workerDone : s.bWorkerDone → s.reader = .done ∨ s.reader = .ended

/-- The two threads begin with nothing read and nothing written. -/
theorem Inv.init : Inv {} where
  written _ := rfl
  pushing _ := open_nil
  marks := .inl open_nil
  inHand _ h := by simp at h
  done h := by simp at h
  workerDone h := by simp at h

/-- A pop of the `bLast` entry empties the queue, and ends the pushes. -/
theorem Inv.pop_last {s : State} (hi : Inv s) {e : StreamDataEntry} {q : StreamData}
    (hp : s.streamData.pop = some (e, q)) (he : e.bLast = true) :
    q.queue = [] ∧ ¬s.reader.pushes := by
  obtain ⟨hq, hc, -⟩ := hi.marks.pop_last hp he
  exact ⟨hq, fun h => hc.not_open (hi.pushing h)⟩

/-- A push by the reader in its receive loop keeps the invariant. -/
theorem Inv.push {s : State} (hi : Inv s) (hr : s.reader = .receiving) {e : StreamDataEntry}
    {r : Reader} (hpush : r.pushes → e.bLast = false) {n : DWORD} :
    Inv { s with streamData := s.streamData.push e, reader := r, dwLen := n } := by
  have hp : s.reader.pushes = true := by rw [hr]; rfl
  have ho : Open s.streamData.pushed := hi.pushing hp
  refine ⟨hi.written, fun h => ?_, ho.push_marked e, fun e' h hl => ?_, fun h => ?_, fun h => ?_⟩
  · exact ho.append (by simpa [Open] using hpush h)
  · exact absurd hp (hi.inHand e' h hl).2
  · exact absurd hp (hi.done h).2
  · rcases hi.workerDone h with h | h <;> rw [hr] at h <;> simp at h

/-- The reader's steps after its last push keep the invariant. -/
theorem Inv.reader {s : State} (hi : Inv s) {r : Reader} (hr : r.pushes → s.reader.pushes)
    {b : Bool} (hb : b = true → r = .done ∨ r = .ended) {e : S3Error} :
    Inv { s with reader := r, bWorkerDone := b, error := e } where
  written := hi.written
  pushing h := hi.pushing (hr h)
  marks := hi.marks
  inHand e' h hl := ⟨(hi.inHand e' h hl).1, fun h' => (hi.inHand e' h hl).2 (hr h')⟩
  done h := ⟨(hi.done h).1, fun h' => (hi.done h).2 (hr h')⟩
  workerDone := hb

/-- A step of the drain loop that holds no entry before or after it keeps the
invariant. -/
theorem Inv.drain {s : State} (hi : Inv s) (hd : s.drain.inHand = []) {d : Drain}
    (hd' : ∀ e, d ≠ .writing e) {err : DWORD}
    (herr : err = ERROR_SUCCESS → s.dwMainThreadError = ERROR_SUCCESS) {b : Bool} :
    Inv { s with drain := d, dwMainThreadError := err, bTerminate := b } where
  written h := by
    have hh : d.inHand = [] := by
      cases d <;> first | rfl | exact absurd rfl (hd' _)
    have := hi.written (herr h)
    simp only [hd, List.append_nil] at this
    simp [hh, this]
  pushing := hi.pushing
  marks := hi.marks
  inHand e h := absurd h (hd' e)
  done := hi.done
  workerDone := hi.workerDone

/-- The end of the inner loop's body keeps the invariant, the entry's data being
in the stream. -/
theorem Inv.entryWritten {s : State} {e : StreamDataEntry}
    (hw : s.dwMainThreadError = ERROR_SUCCESS → body s.streamData.popped = s.stream)
    (hp : s.reader.pushes → Open s.streamData.pushed)
    (hm : Marked s.streamData.pushed)
    (hl : e.bLast → s.streamData.queue = [] ∧ ¬s.reader.pushes)
    (hd : s.bDone → s.streamData.queue = [] ∧ ¬s.reader.pushes)
    (hk : s.bWorkerDone → s.reader = .done ∨ s.reader = .ended) : Inv (s.entryWritten e) := by
  unfold State.entryWritten
  split_ifs with he
  · exact ⟨by simpa [Drain.inHand] using hw, hp, hm, fun _ h => by simp at h, fun _ => hl he, hk⟩
  · exact ⟨by simpa [Drain.inHand] using hw, hp, hm, fun _ h => by simp at h, hd, hk⟩

/-- **Every step keeps the invariant.** A step is one of the caller's or of the worker's, and what
it does to the stream and to the two queues is said by the lemmas above; the cases are those of
`State.step`. -/
theorem Inv.step {s s' : State} {a : Action} (hi : Inv s) (hs : s.step a = some s') : Inv s' := by
  cases a with
  | readStart =>
      simp only [State.step, Option.ite_none_right_eq_some, Option.some.injEq] at hs
      obtain ⟨hr, rfl⟩ := hs
      refine hi.reader (fun _ => by rw [hr]; rfl) fun h => ?_
      rcases hi.workerDone h with h | h <;> rw [hr] at h <;> simp at h
  | pushData data =>
      simp only [State.step, Option.ite_none_right_eq_some, Option.some.injEq] at hs
      obtain ⟨hr, rfl⟩ := hs
      simpa [hr] using hi.push hr (r := .receiving) fun _ => rfl
  | pushLast =>
      simp only [State.step, Option.ite_none_right_eq_some, Option.some.injEq] at hs
      obtain ⟨hr, rfl⟩ := hs
      exact hi.push hr fun h => by simp [Reader.pushes] at h
  | readReturn e =>
      simp only [State.step, Option.ite_none_right_eq_some, Option.some.injEq] at hs
      obtain ⟨hr, rfl⟩ := hs
      refine hi.reader (fun h => by simp [Reader.pushes] at h) fun h => ?_
      rcases hi.workerDone h with h | h <;> rw [h] at hr <;> simp at hr
  | storeWorkerDone =>
      simp only [State.step, Option.ite_none_right_eq_some, Option.some.injEq] at hs
      obtain ⟨-, rfl⟩ := hs
      exact hi.reader (fun h => by simp [Reader.pushes] at h) fun _ => .inl rfl
  | threadEnd =>
      simp only [State.step, Option.ite_none_right_eq_some, Option.some.injEq] at hs
      obtain ⟨-, rfl⟩ := hs
      exact hi.reader (fun h => by simp [Reader.pushes] at h) fun _ => .inr rfl
  | killReader =>
      obtain rfl := Option.some.inj hs
      exact ⟨hi.written, hi.pushing, hi.marks, hi.inHand, hi.done, hi.workerDone⟩
  | waited =>
      simp only [State.step, Option.ite_none_right_eq_some, Option.some.injEq] at hs
      obtain ⟨hd, rfl⟩ := hs
      exact hi.drain (by rw [hd]; rfl) (by simp) id
  | waitAborted =>
      simp only [State.step, Option.ite_none_right_eq_some, Option.some.injEq] at hs
      obtain ⟨hd, rfl⟩ := hs
      exact hi.drain (by rw [hd]; rfl) (by simp) fun h => by simp [ERROR_OPERATION_ABORTED,
        ERROR_SUCCESS] at h
  | waitFailed dwError =>
      simp only [State.step, Option.ite_none_right_eq_some, Option.some.injEq] at hs
      obtain ⟨⟨hd, he⟩, rfl⟩ := hs
      exact hi.drain (by rw [hd]; rfl) (by simp) fun h => absurd h he
  | testEmpty =>
      simp only [State.step, Option.ite_none_right_eq_some, Option.some.injEq] at hs
      obtain ⟨hd, rfl⟩ := hs
      exact hi.drain (by rw [hd]; rfl) (by intro e; split_ifs <;> simp) id
  | pop =>
      simp only [State.step, Option.ite_none_right_eq_some, Option.map_eq_some_iff] at hs
      obtain ⟨hd, ⟨e, q⟩, hpop, rfl⟩ := hs
      obtain ⟨hq, hpopped, hpushed⟩ := Channel.pop_eq_some hpop
      have hw : s.dwMainThreadError = ERROR_SUCCESS → body q.popped = s.stream ++ e.data := by
        intro h
        have := hi.written h
        rw [hd] at this
        simp [hpopped, this, Drain.inHand]
      have hdone : ¬s.bDone := fun h => by simp [(hi.done h).1] at hq
      split_ifs with hempty
      · have hempty : e.data = [] := hempty
        refine .entryWritten ?_ ?_ ?_ (hi.pop_last hpop) (fun h => absurd h hdone) hi.workerDone
        · simpa [hempty] using hw
        · simpa only [hpushed] using hi.pushing
        · simpa only [hpushed] using hi.marks
      · refine ⟨hw, ?_, ?_, ?_, fun h => absurd h hdone, hi.workerDone⟩
        · simpa only [hpushed] using hi.pushing
        · simpa only [hpushed] using hi.marks
        · rintro e' h hl
          obtain rfl := Drain.writing.inj h
          exact hi.pop_last hpop hl
  | write hr n =>
      simp only [State.step] at hs
      split at hs
      · rename_i e hd
        have hw := hi.written
        rw [hd] at hw
        split_ifs at hs with hok <;> obtain rfl := Option.some.inj hs
        · exact .entryWritten hw hi.pushing hi.marks (hi.inHand e hd) hi.done hi.workerDone
        · exact ⟨fun h => absurd h hok, hi.pushing, hi.marks, fun _ h => by simp at h, hi.done,
            hi.workerDone⟩
      · simp at hs
  | testExitFlag =>
      simp only [State.step, Option.ite_none_right_eq_some, Option.some.injEq] at hs
      obtain ⟨hd, rfl⟩ := hs
      split_ifs
      · exact hi.drain (by rw [hd]; rfl) (by simp) fun h => by simp [ERROR_OPERATION_ABORTED,
          ERROR_SUCCESS] at h
      · exact hi.drain (by rw [hd]; rfl) (by simp) id
      · exact hi.drain (by rw [hd]; rfl) (by simp) id
  | testWorkerDone =>
      simp only [State.step, Option.ite_none_right_eq_some, Option.some.injEq] at hs
      obtain ⟨hd, rfl⟩ := hs
      exact hi.drain (by rw [hd]; rfl) (by intro e; split_ifs <;> simp) id
  | testActive =>
      simp only [State.step, Option.ite_none_right_eq_some, Option.some.injEq] at hs
      obtain ⟨hd, rfl⟩ := hs
      exact hi.drain (by rw [hd]; rfl) (by intro e; split_ifs <;> simp) id
  | killThread =>
      simp only [State.step, Option.ite_none_right_eq_some, Option.some.injEq] at hs
      obtain ⟨hd, rfl⟩ := hs
      exact hi.drain (by rw [hd]; rfl) (by simp) id
  | join =>
      simp only [State.step, Option.ite_none_right_eq_some, Option.some.injEq] at hs
      obtain ⟨⟨hd, -⟩, rfl⟩ := hs
      exact hi.drain (by rw [hd]; rfl) (by simp) id

/-- Why the loop was left: an error of the main thread, an error of the reader
that can no longer change, or all bytes popped. -/
def Left (s : State) : Prop :=
  s.dwMainThreadError ≠ ERROR_SUCCESS ∨ s.error.ifError ∧ s.reader.hasError ∨
    body s.streamData.queue = [] ∧ ¬s.reader.pushes

/-- What is known once the loop is left: why, and that the error returned is the
one found when the reader has ended. -/
structure Outcome (s : State) : Prop where
  left : s.drain.left → Left s
  returned : ∀ r, s.drain = .returned r → s.reader = .ended ∧ r = s.result

/-- A loop that has written an entry was not left. -/
@[simp] theorem left_entryWritten (s : State) (e : StreamDataEntry) :
    (s.entryWritten e).drain.left = false := by
  unfold State.entryWritten
  split_ifs <;> rfl

/-- While the reader may push, only an error of the main thread ends the loop. -/
theorem Outcome.pushing {s t : State} (ho : Outcome s) (hp : s.reader.pushes = true)
    (hd : t.drain = s.drain) (he : t.dwMainThreadError = s.dwMainThreadError) : Outcome t := by
  refine ⟨fun h => ?_, fun r h => ?_⟩
  · rw [hd] at h
    rcases ho.left h with h | ⟨-, h⟩ | ⟨-, h⟩
    · exact .inl (by rwa [he])
    · cases hr : s.reader <;> simp [hr, Reader.pushes, Reader.hasError] at hp h
    · exact absurd hp h
  · rw [hd] at h
    simp [(ho.returned r h).1, Reader.pushes] at hp

/-- **Every drained step keeps the outcome.**  The reader's steps cannot undo
what the loop was left for, and the loop is left for one of the reasons of
`Left`. -/
theorem Outcome.step {s s' : State} {a : Action} (hi : Inv s) (ho : Outcome s)
    (hC : Drained s a) (hs : s.step a = some s') : Outcome s' := by
  have reader : ∀ {r : Reader}, ¬r.pushes → r.hasError = true → ∀ {b : Bool}, s.reader ≠ .ended →
      Outcome { s with reader := r, bWorkerDone := b } := by
    intro r hr hr' b hend
    refine ⟨fun h => ?_, fun r h => absurd (ho.returned r h).1 hend⟩
    rcases ho.left h with h | ⟨h, -⟩ | ⟨h, -⟩
    · exact .inl h
    · exact .inr (.inl ⟨h, hr'⟩)
    · exact .inr (.inr ⟨h, hr⟩)
  have inside : ∀ {d : Drain} {t : State}, t.drain = d → d.left = false → Outcome t := by
    intro d t hd hl
    refine ⟨fun h => by simp [hd, hl] at h, fun r h => ?_⟩
    rw [hd] at h
    simp [h, Drain.left] at hl
  cases a with
  | readStart =>
      simp only [State.step, Option.ite_none_right_eq_some, Option.some.injEq] at hs
      obtain ⟨hr, rfl⟩ := hs
      exact ho.pushing (by rw [hr]; rfl) rfl rfl
  | pushData data =>
      simp only [State.step, Option.ite_none_right_eq_some, Option.some.injEq] at hs
      obtain ⟨hr, rfl⟩ := hs
      exact ho.pushing (by rw [hr]; rfl) rfl rfl
  | pushLast =>
      simp only [State.step, Option.ite_none_right_eq_some, Option.some.injEq] at hs
      obtain ⟨hr, rfl⟩ := hs
      exact ho.pushing (by rw [hr]; rfl) rfl rfl
  | readReturn e =>
      simp only [State.step, Option.ite_none_right_eq_some, Option.some.injEq] at hs
      obtain ⟨hr, rfl⟩ := hs
      have hend : s.reader ≠ .ended := by
        rcases hr with hr | ⟨hr, -⟩ <;> rw [hr] <;> simp
      refine ⟨fun h => ?_, fun r h => absurd (ho.returned r h).1 hend⟩
      rcases ho.left h with h | ⟨-, h⟩ | ⟨h, hp⟩
      · exact .inl h
      · rcases hr with hr | ⟨hr, -⟩ <;> rw [hr] at h <;> simp [Reader.hasError] at h
      · exact .inr (.inr ⟨h, by simp [Reader.pushes]⟩)
  | storeWorkerDone =>
      simp only [State.step, Option.ite_none_right_eq_some, Option.some.injEq] at hs
      obtain ⟨hr, rfl⟩ := hs
      exact reader (by simp [Reader.pushes]) rfl (by simp [hr])
  | threadEnd =>
      simp only [State.step, Option.ite_none_right_eq_some, Option.some.injEq] at hs
      obtain ⟨⟨-, hr⟩, rfl⟩ := hs
      exact reader (by simp [Reader.pushes]) rfl (by rcases hr with hr | hr <;> simp [hr])
  | killReader =>
      obtain rfl := Option.some.inj hs
      exact ⟨ho.left, ho.returned⟩
  | waited =>
      simp only [State.step, Option.ite_none_right_eq_some, Option.some.injEq] at hs
      obtain ⟨-, rfl⟩ := hs
      exact inside rfl rfl
  | waitAborted =>
      simp only [State.step, Option.ite_none_right_eq_some, Option.some.injEq] at hs
      obtain ⟨-, rfl⟩ := hs
      exact ⟨fun _ => .inl (by simp [ERROR_OPERATION_ABORTED, ERROR_SUCCESS]), by simp⟩
  | waitFailed dwError =>
      simp only [State.step, Option.ite_none_right_eq_some, Option.some.injEq] at hs
      obtain ⟨⟨-, he⟩, rfl⟩ := hs
      exact ⟨fun _ => .inl he, by simp⟩
  | testEmpty =>
      simp only [State.step, Option.ite_none_right_eq_some, Option.some.injEq] at hs
      obtain ⟨-, rfl⟩ := hs
      refine inside rfl ?_
      split_ifs <;> rfl
  | pop =>
      simp only [State.step, Option.ite_none_right_eq_some, Option.map_eq_some_iff] at hs
      obtain ⟨-, ⟨e, q⟩, -, rfl⟩ := hs
      split_ifs
      · exact inside rfl (by simp)
      · exact inside rfl rfl
  | write hr n =>
      simp only [State.step] at hs
      split at hs
      · split_ifs at hs <;> obtain rfl := Option.some.inj hs
        · exact inside rfl (by simp)
        · exact inside rfl rfl
      · simp at hs
  | testExitFlag =>
      simp only [State.step, Option.ite_none_right_eq_some, Option.some.injEq] at hs
      obtain ⟨-, rfl⟩ := hs
      split_ifs with ht he
      · exact ⟨fun _ => .inl (by simp [ERROR_OPERATION_ABORTED, ERROR_SUCCESS]), by simp⟩
      · exact ⟨fun _ => .inl he, by simp⟩
      · exact inside rfl rfl
  | testWorkerDone =>
      simp only [State.step, Option.ite_none_right_eq_some, Option.some.injEq] at hs
      obtain ⟨hd, rfl⟩ := hs
      split_ifs with hw
      · refine ⟨fun _ => .inr ?_, by simp⟩
        have hr : s.reader.hasError = true ∧ ¬s.reader.pushes := by
          rcases hi.workerDone hw with h | h <;> rw [h] <;> simp [Reader.hasError, Reader.pushes]
        exact (hC hw).imp (⟨·, hr.1⟩) (⟨·, hr.2⟩)
      · exact inside rfl rfl
  | testActive =>
      simp only [State.step, Option.ite_none_right_eq_some, Option.some.injEq] at hs
      obtain ⟨hd, rfl⟩ := hs
      split_ifs with he hb
      · exact ⟨fun _ => .inr (.inl ⟨he.2, by simp [he.1, Reader.hasError]⟩), by simp⟩
      · refine ⟨fun _ => .inr (.inr ⟨?_, (hi.done hb).2⟩), by simp⟩
        simp [(hi.done hb).1]
      · exact inside rfl rfl
  | killThread =>
      simp only [State.step, Option.ite_none_right_eq_some, Option.some.injEq] at hs
      obtain ⟨hd, rfl⟩ := hs
      exact ⟨fun _ => ho.left (by rw [hd]; rfl), by simp⟩
  | join =>
      simp only [State.step, Option.ite_none_right_eq_some, Option.some.injEq] at hs
      obtain ⟨⟨hd, hr⟩, rfl⟩ := hs
      refine ⟨fun _ => ho.left (by rw [hd]; rfl), fun r h => ⟨hr, ?_⟩⟩
      exact (Drain.returned.inj h).symm

/-- The invariant in every state of the two threads. -/
theorem inv_of_reachable {C : State → Action → Prop} {s : State} (h : system.ReachableBy C s) :
    Inv s :=
  h.invariant (fun _ h => h ▸ Inv.init) fun _ _ _ hi _ hs => hi.step hs

/-- The outcome in every state of the runs whose steps are drained. -/
theorem outcome_of_reachable {s : State} (h : system.ReachableBy Drained s) : Outcome s :=
  h.invariant_reachable (fun _ h => h ▸ ⟨by simp [Drain.left], by simp⟩)
    fun _ _ _ hr ho hC hs => ho.step (inv_of_reachable hr) hC hs

/-- **`S3Read` loses no data while its steps are drained.**  If it returns no
error, then `pStream` took exactly the bytes the reader pushed, in their
order. -/
theorem s3Read_delivers {s : State} {r : S3Error} (h : system.ReachableBy Drained s)
    (hr : s.drain = .returned r) (hok : r.ifError = false) :
    s.stream = body s.streamData.pushed := by
  have hi := inv_of_reachable h
  have ho := outcome_of_reachable h
  obtain ⟨-, rfl⟩ := ho.returned r hr
  have herr : s.dwMainThreadError = ERROR_SUCCESS ∧ s.error.ifError = false := by
    unfold State.result at hok
    split_ifs at hok with hc
    · exact ⟨hc.resolve_right (by simp [hok]), hok⟩
    · exact absurd hok (by simpa [S3Error.ifError_ofWin32] using fun h => hc (.inl h))
  have hqueue : body s.streamData.queue = [] := by
    rcases ho.left (by rw [hr]; rfl) with h | ⟨h, -⟩ | ⟨h, -⟩
    · exact absurd herr.1 h
    · simp [herr.2] at h
    · exact h
  have hw := hi.written herr.1
  rw [hr] at hw
  rw [body_pushed, hqueue, hw]
  simp [Drain.inHand]

/-- A run in which the reader is done before the drain loop looks at the queue. -/
def deliveringRun : List Action :=
  [.readStart, .pushData [1, 2], .pushData [3], .pushLast, .readReturn {}, .storeWorkerDone,
    .waited, .testEmpty, .pop, .write S_OK 0, .testEmpty, .pop, .write S_OK 0, .testEmpty, .pop,
    .testExitFlag, .testWorkerDone, .killThread, .threadEnd, .join]

/-- `s3Read_delivers` on that run: both data entries are in the stream. The worker pushes two
entries and the mark of the end before the caller drains, so the condition is met at each drain and
nothing is lost. -/
theorem s3Read_delivers_run : ∃ s : State, s.drain = .returned {} ∧ s.stream = [1, 2, 3] ∧
    s.stream = body s.streamData.pushed := by
  obtain ⟨s, hs⟩ : ∃ s, (system.restrict Drained).run deliveringRun {} = some s := ⟨_, rfl⟩
  have h : system.ReachableBy Drained s := .run_restrict _ (.init rfl) hs
  have hd : s.drain = .returned {} := by obtain rfl := Option.some.inj hs; rfl
  have hw : s.stream = [1, 2, 3] := by obtain rfl := Option.some.inj hs; rfl
  exact ⟨s, hd, hw, s3Read_delivers h hd rfl⟩

/-- A run in which the reader pushes its data and finishes between the test of
the empty queue and the test of `bWorkerDone`. -/
def losingRun : List Action :=
  [.waited, .testEmpty, .readStart, .pushData [1], .pushLast, .readReturn {}, .storeWorkerDone,
    .testExitFlag, .testWorkerDone, .killThread, .threadEnd, .join]

/-- **`S3Read` can lose data and report success.**  In `losingRun` one byte was
pushed, none was written, and the error returned is none. -/
theorem s3Read_loses : ¬∀ s r, system.Reachable s → s.drain = .returned r → r.ifError = false →
    s.stream = body s.streamData.pushed := by
  intro h
  obtain ⟨s, hs⟩ : ∃ s, system.run losingRun {} = some s := ⟨_, rfl⟩
  have hd : s.drain = .returned {} := by obtain rfl := Option.some.inj hs; rfl
  have hloss := h s {} (.run _ (.init rfl) hs) hd rfl
  obtain rfl := Option.some.inj hs
  exact absurd hloss (by decide)

/-- **Every undrained test loses data.**  From a state in which the drain loop is
about to find `bWorkerDone` set with bytes still queued, the two threads can go
on to a return without error and without these bytes. -/
theorem loses_of_not_drained {s : State} (h : system.Reachable s) (hd : s.drain = .testWorkerDone)
    (herr : s.dwMainThreadError = ERROR_SUCCESS) (hC : ¬Drained s .testWorkerDone) :
    ∃ t r, system.Reachable t ∧ t.drain = .returned r ∧ r.ifError = false ∧
      t.stream ≠ body t.streamData.pushed := by
  have hi := inv_of_reachable h
  simp only [Drained, not_forall, not_or, Bool.not_eq_true] at hC
  obtain ⟨hw, he, hq⟩ := hC
  have hstream : s.stream ≠ body s.streamData.pushed := by
    have := hi.written herr
    rw [hd] at this
    rw [body_pushed, this]
    simpa [Drain.inHand] using hq
  let left : State := { s with bTerminate := true, drain := .join, reader := .ended }
  have hret : ∃ as, system.run as s = some { left with drain := .returned left.result } := by
    rcases hi.workerDone hw with hr | hr
    · refine ⟨[.testWorkerDone, .killThread, .threadEnd, .join], ?_⟩
      simp [StepSystem.run, system, State.step, hd, hw, hr, left, State.result]
    · refine ⟨[.testWorkerDone, .killThread, .join], ?_⟩
      simp [StepSystem.run, system, State.step, hd, hw, hr, left, State.result]
  obtain ⟨as, has⟩ := hret
  refine ⟨_, _, h.run as has, rfl, ?_, hstream⟩
  simp [State.result, left, herr, he]

end S3Read
end ECSUtil

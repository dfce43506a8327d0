/-
# A multipart upload is completed only when it is whole

The invariant of `DoS3MultiPartUpload` and its pool (`Inv`): the books are kept
(`Core`), the coordinating thread's program counter tells the truth about them
(`PcOk`), and each `CompleteMultipartUpload` that was sent names every part, in
order, with an ETag that an earlier attempt of that part had returned
(`NamesWhole`).

The books are kept by any run of the upload, so are the two other parts of `Inv`, one step lemma for
each program counter of the coordinating thread.  `complete_whole` reads the request off the
invariant: at the time it is sent, no part is pending, and each is complete with an ETag.
-/

import ECSUtil.Lib.Trace
import ECSUtil.Multipart.Upload

namespace ECSUtil
namespace Multipart

/-- `CompleteMultipartUpload` names the parts `1 .. n` once each, in ascending
order, each with an ETag returned before for it. -/
def NamesWhole (n : ℕ) (past : List Event) : Event → Prop
  | .complete parts =>
      parts.map Prod.fst = (List.range n).map (· + 1) ∧ ∀ p ∈ parts, .uploaded p.1 p.2 ∈ past
  | _ => True

/-- What the program counter of the coordinating thread says about the books. -/
def PcOk (n : ℕ) (b : Book) : Pc → Prop
  | .scan i true => ∀ j < i, j < n → (b.status j).bComplete = true
  | .seek i m | .fill i m _ _ | .send i m =>
      i < n ∧ m ∈ b.pendingList ∧ (b.msg m).part = i ∧ (b.msg m).phase = .created
  | .seekRefill _ m _ | .refill _ m _ => m ∈ b.pendingList
  | .complete => ∀ j < n, (b.status j).bComplete = true
  | _ => True

/-- What holds in every state of an upload of the parts `P`. -/
structure Inv (cfg : Config) (P : PartList) (s : State) : Prop where
  core : Core P.parts.length cfg.dwMaxRetries s.book
  pcOk : PcOk P.parts.length s.book s.pc
  names : Past (NamesWhole P.parts.length) s.book.events

variable {cfg : Config} {P : PartList} {s s' : State} {a : Action}

/-- The invariant holds before the first step. -/
theorem Inv.init : Inv cfg P {} := ⟨.init, trivial, .nil⟩

/-- What a worker leaves alone, and what it adds to the trace. -/
structure Frame (b b' : Book) : Prop where
  pendingList : b'.pendingList = b.pendingList
  bComplete : ∀ i, (b'.status i).bComplete = (b.status i).bComplete
  bInProcess : ∀ i, (b'.status i).bInProcess = (b.status i).bInProcess
  created : ∀ m, (b.msg m).phase = .created → b'.msg m = b.msg m
  part : ∀ m, (b'.msg m).part = (b.msg m).part
  events : b'.events = b.events ∨ (∃ k, b'.events = b.events ++ [.uploadPart k]) ∨
    ∃ k t, b'.events = b.events ++ [.uploaded k t]

/-- A worker moves its message on. -/
theorem Frame.setMsg {b : Book} {m : ℕ} {v : Msg} (h : (b.msg m).phase ≠ .created)
    (hp : v.part = (b.msg m).part) : Frame b (b.setMsg m v) where
  pendingList := rfl
  bComplete _ := rfl
  bInProcess _ := rfl
  created m' h' := by
    have hne : m' ≠ m := by rintro rfl; exact h h'
    exact Book.setMsg_of_ne b hne v
  part m' := by
    by_cases hne : m' = m
    · subst hne; simpa using hp
    · rw [Book.setMsg_of_ne b hne]
  events := .inl rfl

/-- A worker sets the ETag of a part. -/
theorem Frame.setETag (b : Book) (i : ℕ) (t : String) :
    Frame b (b.setStatus i { b.status i with sETag := t }) where
  pendingList := rfl
  bComplete j := by
    by_cases h : j = i
    · subst h; simp
    · rw [Book.setStatus_of_ne b h]
  bInProcess j := by
    by_cases h : j = i
    · subst h; simp
    · rw [Book.setStatus_of_ne b h]
  created _ _ := rfl
  part _ := rfl
  events := .inl rfl

/-- Two changes of which the first adds nothing to the trace. -/
theorem Frame.trans {b c d : Book} (h : Frame b c) (he : c.events = b.events) (h' : Frame c d) :
    Frame b d where
  pendingList := h'.pendingList.trans h.pendingList
  bComplete i := (h'.bComplete i).trans (h.bComplete i)
  bInProcess i := (h'.bInProcess i).trans (h.bInProcess i)
  created m hm := by
    rw [h'.created m (by rw [h.created m hm, hm]), h.created m hm]
  part m := (h'.part m).trans (h.part m)
  events := by rw [← he]; exact h'.events

/-- A worker adds an event of its own to the trace. -/
theorem Frame.log (b : Book) {e : Event}
    (he : (∃ k, e = .uploadPart k) ∨ ∃ k t, e = .uploaded k t) : Frame b (b.log e) where
  pendingList := rfl
  bComplete _ := rfl
  bInProcess _ := rfl
  created _ _ := rfl
  part _ := rfl
  events := by
    rcases he with ⟨k, rfl⟩ | ⟨k, t, rfl⟩
    · exact .inr (.inl ⟨k, rfl⟩)
    · exact .inr (.inr ⟨k, t, rfl⟩)

/-- **A step of a worker keeps the books**, and leaves the coordinating thread's
part of them alone. -/
theorem Core.workerStep {n : ℕ} (hn : n = P.parts.length) {R : ℕ} {b : Book}
    (hc : Core n R s.book) (hs : s.workerStep P a = some b) :
    Core n R b ∧ Frame s.book b := by
  have num : ∀ {m}, m ∈ s.book.pendingList →
      (P.part (s.book.msg m).part).uPartNum = (s.book.msg m).part + 1 := fun h =>
    P.part_uPartNum (hn ▸ (hc.current _ h).1)
  cases a with
  | take m =>
      simp only [State.workerStep, Option.ite_none_right_eq_some, Option.some.injEq] at hs
      obtain ⟨⟨-, hfind⟩, rfl⟩ := hs
      have hp : (s.book.msg m).phase = .queued := by simpa using List.find?_some hfind
      exact ⟨hc.take hp, .setMsg (by simp [hp]) rfl⟩
  | begin m =>
      simp only [State.workerStep, Option.ite_none_right_eq_some, Option.some.injEq] at hs
      obtain ⟨hp, rfl⟩ := hs
      have hm : m ∈ s.book.pendingList := hc.pending (by simp [hp]) (by simp [hp, Phase.ended])
      split_ifs
      · rw [num hm]
        have hframe := (Frame.setETag s.book (s.book.msg m).part "").trans rfl
          (.setMsg (m := m) (v := { s.book.msg m with phase := .sending }) (by simp [hp]) rfl)
        exact ⟨hc.start hp, hframe.trans rfl (.log _ (.inl ⟨_, rfl⟩))⟩
      · exact ⟨hc.skip hp, .setMsg (by simp [hp]) rfl⟩
  | respond m =>
      simp only [State.workerStep, Option.ite_none_right_eq_some, Option.some.injEq] at hs
      obtain ⟨hp, rfl⟩ := hs
      exact ⟨hc.respond hp, .setMsg (by simp [hp]) rfl⟩
  | resend m =>
      simp only [State.workerStep, Option.ite_none_right_eq_some, Option.some.injEq] at hs
      obtain ⟨⟨hp, -⟩, rfl⟩ := hs
      exact ⟨hc.resend hp, .setMsg (by simp [hp]) rfl⟩
  | upload m e etags =>
      simp only [State.workerStep, Option.ite_none_right_eq_some, Option.some.injEq] at hs
      obtain ⟨⟨hp, -⟩, rfl⟩ := hs
      have hph : (s.book.msg m).phase ≠ .created ∧ (s.book.msg m).phase.ended = false := by
        cases h : (s.book.msg m).phase <;> simp_all [Phase.inFlight, Phase.ended]
      rw [num (hc.pending hph.1 hph.2)]
      refine ⟨hc.upload hp e etags, ?_⟩
      have hframe := (Frame.setETag s.book (s.book.msg m).part (s3MultiPartUpload e etags).2).trans
        rfl (.setMsg (m := m) (v := { s.book.msg m with
          phase := .uploaded, error := (s3MultiPartUpload e etags).1 }) hph.1 rfl)
      unfold Book.upload
      cases hres : (s3MultiPartUpload e etags).1.ifError with
      | true => simpa only [hres, if_true] using hframe
      | false =>
          simp only [hres, Bool.false_eq_true, if_false]
          exact hframe.trans rfl (.log _ (.inr ⟨_, _, rfl⟩))
  | finish m =>
      simp only [State.workerStep, Option.ite_none_right_eq_some, Option.some.injEq] at hs
      obtain ⟨hp, rfl⟩ := hs
      exact ⟨hc.finish hp, .setMsg (by simp [hp]) rfl⟩
  | remove m =>
      simp only [State.workerStep, Option.ite_none_right_eq_some, Option.some.injEq] at hs
      obtain ⟨hp, rfl⟩ := hs
      have h := Frame.setMsg (b := s.book) (m := m) (v := { s.book.msg m with phase := .gone })
        (by simp [hp]) rfl
      exact ⟨hc.remove hp, ⟨h.1, h.2, h.3, h.4, h.5, h.6⟩⟩
  | _ => simp [State.workerStep] at hs

/-- The program counter stays right when a worker moves. -/
theorem PcOk.frame {n : ℕ} {b b' : Book} {pc : Pc} (h : PcOk n b pc) (hf : Frame b b') :
    PcOk n b' pc := by
  cases pc with
  | scan i e =>
      cases e with
      | true => exact fun j hj hn => (hf.bComplete j).trans (h j hj hn)
      | false => trivial
  | seek i m | fill i m _ _ | send i m =>
      obtain ⟨hi, hm, hp, hph⟩ := h
      have hmsg := hf.created m hph
      exact ⟨hi, by rw [hf.pendingList]; exact hm, by rw [hmsg]; exact hp,
        by rw [hmsg]; exact hph⟩
  | seekRefill _ m _ | refill _ m _ =>
      have h : m ∈ b.pendingList := h
      show m ∈ b'.pendingList
      rwa [hf.pendingList]
  | complete => exact fun j hj => (hf.bComplete j).trans (h j hj)
  | _ => trivial

/-- The trace stays right when a worker moves. -/
theorem names_frame {n : ℕ} {b b' : Book} (h : Past (NamesWhole n) b.events) (hf : Frame b b') :
    Past (NamesWhole n) b'.events := by
  rcases hf.events with he | ⟨k, he⟩ | ⟨k, t, he⟩ <;> rw [he]
  · exact h
  · exact h.snoc trivial
  · exact h.snoc trivial

/-- A step that leaves the books alone. -/
theorem Inv.sameBook (hi : Inv cfg P s) (hb : s'.book = s.book)
    (hpc : PcOk P.parts.length s.book s'.pc) : Inv cfg P s' :=
  ⟨hb ▸ hi.core, by rw [hb]; exact hpc, hb ▸ hi.names⟩

/-- **The scan keeps the invariant**, and it ends with all parts complete or with
one that is not. -/
theorem Inv.scanStep (hi : Inv cfg P s) {i : ℕ} {e : Bool} (hpc : s.pc = .scan i e) (abort : Bool) :
    Inv cfg P (s.scanStep cfg P i e abort) := by
  have hok := hi.pcOk
  rw [hpc] at hok
  unfold State.scanStep
  split_ifs with hlt hcomp hproc hroom habort
  · refine hi.sameBook rfl ?_
    cases e with
    | false => trivial
    | true =>
        intro j hj hn
        rcases Nat.lt_succ_iff_lt_or_eq.1 hj with hj | rfl
        · exact hok j hj hn
        · exact hcomp
  · exact hi.sameBook rfl trivial
  · exact hi.sameBook rfl trivial
  · exact hi.sameBook rfl trivial
  · refine ⟨hi.core.create hlt (by simpa using hproc) (by simpa using hcomp), ?_, hi.names⟩
    exact ⟨hlt, by simp [State.makeMsg, Book.create], by simp [State.makeMsg, Book.create],
      by simp [State.makeMsg, Book.create]⟩
  · refine hi.sameBook rfl fun j hj => ?_
    rename_i he
    subst he
    exact hok j (by omega) hj
  · exact hi.sameBook rfl trivial

/-- **The pass over the pending list keeps the invariant.** An entry that is complete leaves the
list: its part is complete where it succeeded, free to be made again where it failed and was not
retried too often; and where it was, the upload has failed. -/
theorem Inv.collectStep (hi : Inv cfg P s) {k m : ℕ} (hk : s.book.pendingList[k]? = some m)
    (del : Bool) : Inv cfg P (s.collectStep cfg k m del) := by
  unfold State.collectStep
  simp only
  split_ifs with hfin herr hret
  · exact hi.sameBook rfl trivial
  · refine ⟨hi.core.retry hk (hi.core.finished m hfin) herr (by omega), trivial, hi.names⟩
  · refine ⟨hi.core.collect hk (hi.core.finished m hfin) (by simpa using herr), trivial, hi.names⟩
  · exact hi.sameBook rfl (List.mem_of_getElem? hk)

/-- **Every step of the coordinating thread keeps the invariant.** The cases are the places of the
coordinating thread; of the book it changes only what the lemmas of `Core` speak of, and it
completes the upload only behind the loop in which every part was found complete. -/
theorem Inv.mainStep (hi : Inv cfg P s) (hs : s.mainStep cfg P a = some s') : Inv cfg P s' := by
  have hok := hi.pcOk
  cases a with
  | initiate e =>
      simp only [State.mainStep, Option.ite_none_right_eq_some, Option.some.injEq] at hs
      obtain ⟨-, rfl⟩ := hs
      split_ifs
      · exact hi.sameBook rfl trivial
      · exact hi.sameBook rfl trivial
      · exact hi.sameBook rfl fun j hj => by omega
  | scan abort =>
      simp only [State.mainStep] at hs
      split at hs
      · obtain rfl := Option.some.inj hs
        exact hi.scanStep ‹_› abort
      · simp at hs
  | seek hr =>
      simp only [State.mainStep] at hs
      split at hs
      · rename_i i m hpc
        rw [hpc] at hok
        obtain rfl := Option.some.inj hs
        split_ifs
        · exact hi.sameBook rfl trivial
        · exact hi.sameBook rfl hok
      · simp at hs
  | fillRead hr data =>
      simp only [State.mainStep] at hs
      split at hs
      · rename_i i m rest rec hpc
        rw [hpc] at hok
        simp only [Option.ite_none_right_eq_some, Option.some.injEq] at hs
        obtain ⟨-, rfl⟩ := hs
        unfold State.fillStep
        split_ifs
        · exact hi.sameBook rfl trivial
        all_goals exact hi.sameBook rfl hok
      · simp at hs
  | fillDone =>
      simp only [State.mainStep] at hs
      split at hs
      · rename_i i m rest rec hpc
        rw [hpc] at hok
        split_ifs at hs
        all_goals
          obtain rfl := Option.some.inj hs
          exact hi.sameBook rfl hok
      · simp at hs
  | send =>
      simp only [State.mainStep] at hs
      split at hs
      · rename_i i m hpc
        rw [hpc] at hok
        obtain rfl := Option.some.inj hs
        exact ⟨hi.core.send hok.2.1 hok.2.2.2, trivial, hi.names⟩
      · simp at hs
  | wait abort =>
      simp only [State.mainStep, Option.ite_none_right_eq_some, Option.some.injEq] at hs
      obtain ⟨-, rfl⟩ := hs
      split_ifs <;> exact hi.sameBook rfl trivial
  | collect =>
      simp only [State.mainStep] at hs
      split at hs
      · obtain rfl := Option.some.inj hs
        split
        · exact hi.collectStep ‹_› _
        · refine hi.sameBook rfl ?_
          split_ifs
          · exact fun j hj => by omega
          · trivial
      · simp at hs
  | seekRefill hr =>
      simp only [State.mainStep] at hs
      split at hs
      · rename_i k m del hpc
        rw [hpc] at hok
        obtain rfl := Option.some.inj hs
        split_ifs
        · exact hi.sameBook rfl trivial
        · exact hi.sameBook rfl hok
      · simp at hs
  | refillRead hr data =>
      simp only [State.mainStep] at hs
      split at hs
      · simp only [Option.ite_none_right_eq_some, Option.some.injEq] at hs
        obtain ⟨-, rfl⟩ := hs
        split_ifs
        · exact hi.sameBook rfl trivial
        · exact hi.sameBook rfl hok
      · simp at hs
  | refillDone =>
      simp only [State.mainStep] at hs
      split at hs
      · split_ifs at hs
        obtain rfl := Option.some.inj hs
        exact hi.sameBook rfl trivial
      · simp at hs
  | complete e =>
      simp only [State.mainStep, Option.ite_none_right_eq_some, Option.some.injEq] at hs
      obtain ⟨hpc, rfl⟩ := hs
      rw [hpc] at hok
      refine ⟨hi.core.log (by simp), by split_ifs <;> trivial, hi.names.snoc ⟨?_, ?_⟩⟩
      · simp only [State.completeList, List.map_map]
        exact List.map_congr_left fun i hi => P.part_uPartNum (List.mem_range.1 hi)
      · intro p hp
        obtain ⟨i, hi', rfl⟩ := List.mem_map.1 hp
        rw [List.mem_range] at hi'
        simp only [P.part_uPartNum hi']
        exact hi.core.whole i (hok i hi')
  | completeFails e =>
      simp only [State.mainStep, Option.ite_none_right_eq_some, Option.some.injEq] at hs
      obtain ⟨-, rfl⟩ := hs
      exact hi.sameBook rfl trivial
  | abort =>
      simp only [State.mainStep] at hs
      split at hs
      · obtain rfl := Option.some.inj hs
        exact ⟨hi.core.log (by simp), trivial, hi.names.snoc trivial⟩
      · simp at hs
  | terminate =>
      simp only [State.mainStep] at hs
      split at hs
      · obtain rfl := Option.some.inj hs
        exact ⟨hi.core.disable, trivial, hi.names⟩
      · simp at hs
  | destroy =>
      simp only [State.mainStep, Option.ite_none_right_eq_some, Option.some.injEq] at hs
      obtain ⟨-, rfl⟩ := hs
      exact ⟨hi.core.destroy, trivial, hi.names⟩
  | _ => simp [State.mainStep] at hs

/-- **What a step can do**: a pop, a step of the coordinating thread, or a step of
a worker on the books. -/
theorem State.step_cases (hs : s.step cfg P a = some s') :
    (∃ m entry q, a = .pop m ∧ (s.book.msg m).phase = .sending ∧
      (s.feed (s.book.msg m).part).streamData.pop = some (entry, q) ∧
      s' = { s.setFeed (s.book.msg m).part
          { s.feed (s.book.msg m).part with streamData := q } with
        book := if entry.bLast then s.book.sent m else s.book }) ∨
    s.mainStep cfg P a = some s' ∨
    ∃ b, s.workerStep P a = some b ∧ s' = { s with book := b } := by
  cases a with
  | pop m =>
      simp only [State.step, Option.ite_none_right_eq_some, Option.map_eq_some_iff] at hs
      obtain ⟨hp, ⟨entry, q⟩, hpop, rfl⟩ := hs
      exact .inl ⟨m, entry, q, rfl, hp, hpop, rfl⟩
  | _ =>
      simp only [State.step] at hs
      split at hs
      · obtain rfl := Option.some.inj hs
        exact .inr (.inl ‹_›)
      · obtain ⟨b, hb, rfl⟩ := Option.map_eq_some_iff.1 hs
        exact .inr (.inr ⟨b, hb, rfl⟩)

/-- **Every step keeps the invariant.** A step of the coordinating thread is `Inv.mainStep`; a
worker's changes one message and the events of its own part, which `Core.start` and `Core.upload`
are about. -/
theorem Inv.step (hi : Inv cfg P s) (hs : s.step cfg P a = some s') : Inv cfg P s' := by
  rcases State.step_cases hs with ⟨m, entry, q, -, hp, -, rfl⟩ | hs | ⟨b, hb, rfl⟩
  · split_ifs
    · have hf : Frame s.book (s.book.sent m) := .setMsg (by simp [hp]) rfl
      exact ⟨hi.core.sent hp, hi.pcOk.frame hf, names_frame hi.names hf⟩
    · exact ⟨hi.core, hi.pcOk, hi.names⟩
  · exact hi.mainStep hs
  · obtain ⟨hc, hf⟩ := hi.core.workerStep rfl hb
    exact ⟨hc, hi.pcOk.frame hf, names_frame hi.names hf⟩

/-- The invariant in every state of an upload. -/
theorem inv_of_reachable {C : State → Action → Prop} (h : (system cfg P).ReachableBy C s) :
    Inv cfg P s :=
  h.invariant (fun _ h => h ▸ Inv.init) fun _ _ _ hi _ hs => hi.step hs

/-- Two parts of one byte each. -/
def twoParts : PartList where
  parts := [⟨1, 0, 1⟩, ⟨2, 1, 1⟩]
  numbered i h := by
    match i, h with
    | 0, _ => rfl
    | 1, _ => rfl
  size_pos := by simp

/-- Two workers, and one retry for each part. -/
def oneRetry : Config :=
  { dwBufSize := 4, dwMaxThreads := 2, bChecksum := false, dwMaxQueueSize := 2, dwMaxRetries := 1 }

/-- The two parts are made and sent to the pool. -/
def fillRun : List Action :=
  [.initiate {}, .scan false, .seek S_OK, .fillRead S_OK [10], .fillDone, .send,
    .scan false, .seek S_OK, .fillRead S_OK [11], .fillDone, .send, .scan false]

/-- The first part is uploaded, the second fails, is retried and uploaded, and
the upload is completed. -/
def completeRun : List Action :=
  fillRun ++
  [.take 0, .take 1, .begin 0, .begin 1, .pop 0, .respond 0, .upload 0 {} ["a"], .finish 0,
    .upload 1 (.ofWin32 ERROR_OPERATION_ABORTED) [], .finish 1, .wait false, .collect, .collect,
    .collect, .remove 0, .remove 1, .scan false, .scan false, .seek S_OK, .fillRead S_OK [11],
    .fillDone, .send, .scan false, .take 2, .begin 2, .pop 2, .respond 2, .upload 2 {} ["b"],
    .finish 2, .wait false, .collect, .collect, .scan false, .scan false, .scan false,
    .complete {}]

end Multipart
end ECSUtil

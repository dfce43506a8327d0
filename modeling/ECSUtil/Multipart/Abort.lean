/-
# What `AbortMultipartUpload` finds running

The handlers of `DoS3MultiPartUpload` send `AbortMultipartUpload` and return; the
pool is stopped only afterwards, by the destructor of `CMPUPool`.  Whether the
abort is final depends on what the pool still holds when it is sent: it is, in
the runs in which every message given to the pool has been through its
`UploadPart` request by then (`abort_final`), and it is not as soon as one
message has not (`late_part_of_not_quiet`).

The first result is an invariant of what the handlers leave (`Quiet`): no message can be sent once
the abort is, for none is waiting and none is made.  The second one is a run of its own: the pool is
at work until the coordinating thread destroys it (`Alive`), so a worker can take up what is left
before it does.
-/

import ECSUtil.Multipart.Complete

namespace ECSUtil
namespace Multipart

/-- A worker may still start the `UploadPart` request of the message, or is in it. -/
def Phase.live : Phase → Bool
  | .queued | .taken | .sending | .sent | .responded => true
  | _ => false

/-- **Nothing is left to upload.**  When the abort is sent, every message given to
the pool has been through its `UploadPart` request. -/
def AbortQuiet (s : State) : Action → Prop
  | .abort => ∀ m < s.book.nextMsg, (s.book.msg m).phase.live = false
  | _ => True

instance (s : State) (a : Action) : Decidable (AbortQuiet s a) := by
  cases a <;> unfold AbortQuiet <;> infer_instance

/-- **The abort is final**: once it is sent, no `UploadPart` is in flight, and none
is started after it. -/
def AbortFinal (s : State) : Prop :=
  (.abort ∈ s.book.events → ∀ m, (s.book.msg m).phase.inFlight = false) ∧
    ∀ pre post, s.book.events = pre ++ .abort :: post → ∀ k, .uploadPart k ∉ post

/-- No `UploadPart` is started after an abort. -/
def NotAfterAbort (past : List Event) : Event → Prop
  | .uploadPart _ => .abort ∉ past
  | _ => True

/-- Behind an abort that nothing follows there is no request for a part. -/
theorem not_mem_of_notAfterAbort {events pre post : List Event}
    (h : Past NotAfterAbort events) (heq : events = pre ++ .abort :: post) (k : ℕ) :
    .uploadPart k ∉ post := by
  intro hk
  obtain ⟨p, q, rfl⟩ := List.append_of_mem hk
  have := h (pre ++ .abort :: p) (.uploadPart k) q (by simp [heq])
  exact this (by simp)

/-- The coordinating thread is behind its handlers. -/
def Pc.after : Pc → Bool
  | .returned _ _ | .destroying | .destroyed => true
  | _ => false

/-- What holds once the abort was sent with nothing left to upload. -/
structure Quiet (s : State) : Prop where
  after : .abort ∈ s.book.events → s.pc.after = true
  live : .abort ∈ s.book.events → ∀ m, (s.book.msg m).phase.live = false
  past : Past NotAfterAbort s.book.events

variable {cfg : Config} {P : PartList} {s s' : State} {a : Action}

/-- A run starts quiet. -/
theorem Quiet.init : Quiet {} := ⟨by simp, by simp, .nil⟩

/-- What the coordinating thread does to the books before its handlers. -/
inductive Before (b : Book) : Book → Prop
  | same : Before b b
  | create (i : ℕ) : Before b (b.create i)
  | send (m : ℕ) : Before b (b.send m)
  | retry (k m : ℕ) : Before b (b.retry k m)
  | collect (k m : ℕ) : Before b (b.collect k m)
  | complete (parts : List (ℕ × String)) : Before b (b.log (.complete parts))

/-- A turn over the parts makes a message, or leaves the books alone. -/
theorem Before.scanStep (i : ℕ) (e abort : Bool) :
    Before s.book (s.scanStep cfg P i e abort).book ∧
      (s.scanStep cfg P i e abort).pc.after = false := by
  unfold State.scanStep
  split_ifs <;> first | exact ⟨.same, rfl⟩ | exact ⟨.create i, rfl⟩

/-- The collecting of a result retries or completes a part, or leaves the books alone. -/
theorem Before.collectStep (k m : ℕ) (del : Bool) :
    Before s.book (s.collectStep cfg k m del).book ∧
      (s.collectStep cfg k m del).pc.after = false := by
  unfold State.collectStep
  simp only
  split_ifs <;> first | exact ⟨.same, rfl⟩ | exact ⟨.retry k m, rfl⟩ | exact ⟨.collect k m, rfl⟩

/-- A turn of a feeding loop leaves the books alone. -/
theorem fillStep_book (i m rest rec : ℕ) (data : Bytes) :
    (s.fillStep cfg i m rest rec data).book = s.book ∧
      (s.fillStep cfg i m rest rec data).pc.after = false := by
  unfold State.fillStep
  split_ifs <;> exact ⟨rfl, rfl⟩

/-- **What the coordinating thread does to the books**: its work before the
handlers, the abort, and the destruction of the pool afterwards. -/
theorem mainStep_cases (hs : s.mainStep cfg P a = some s') :
    (s.pc.after = false ∧ Before s.book s'.book ∧ s'.pc ≠ .destroying ∧ s'.pc ≠ .destroyed) ∨
    (a = .abort ∧ s.pc.after = false ∧ s'.book = s.book.log .abort ∧ ∃ e, s'.pc = .returned false e) ∨
    (s.pc.after = true ∧ s'.book = { s.book with bDisable := true } ∧ s'.pc = .destroying) ∨
    (s.pc.after = true ∧ s'.book = s.book.destroy ∧ s'.pc = .destroyed) := by
  have stay : ∀ {t : State}, s.pc.after = false → Before s.book t.book → t.pc.after = false →
      s.pc.after = false ∧ Before s.book t.book ∧ t.pc ≠ .destroying ∧ t.pc ≠ .destroyed := by
    intro t h1 h2 h3
    exact ⟨h1, h2, by rintro h; simp [h, Pc.after] at h3, by rintro h; simp [h, Pc.after] at h3⟩
  cases a with
  | initiate e =>
      simp only [State.mainStep, Option.ite_none_right_eq_some, Option.some.injEq] at hs
      obtain ⟨hpc, rfl⟩ := hs
      refine .inl ⟨by rw [hpc]; rfl, ?_⟩
      split_ifs <;> exact ⟨.same, by simp, by simp⟩
  | wait abort =>
      simp only [State.mainStep, Option.ite_none_right_eq_some, Option.some.injEq] at hs
      obtain ⟨hpc, rfl⟩ := hs
      split_ifs <;> exact .inl (stay (by rw [hpc]; rfl) .same rfl)
  | completeFails e =>
      simp only [State.mainStep, Option.ite_none_right_eq_some, Option.some.injEq] at hs
      obtain ⟨⟨hpc, -⟩, rfl⟩ := hs
      exact .inl (stay (by rw [hpc]; rfl) .same rfl)
  | complete e =>
      simp only [State.mainStep, Option.ite_none_right_eq_some, Option.some.injEq] at hs
      obtain ⟨hpc, rfl⟩ := hs
      refine .inl ⟨by rw [hpc]; rfl, .complete _, ?_⟩
      split_ifs <;> exact ⟨by simp, by simp⟩
  | scan abort =>
      simp only [State.mainStep] at hs
      split at hs
      · rename_i hpc
        obtain rfl := Option.some.inj hs
        exact .inl (stay (by rw [hpc]; rfl) (Before.scanStep ..).1 (Before.scanStep ..).2)
      · simp at hs
  | fillRead hr data =>
      simp only [State.mainStep] at hs
      split at hs
      · rename_i hpc
        simp only [Option.ite_none_right_eq_some, Option.some.injEq] at hs
        obtain ⟨-, rfl⟩ := hs
        refine .inl (stay (by rw [hpc]; rfl) ?_ ?_)
        · by_cases hbad : hr ≠ S_OK ∧ hr ≠ S_FALSE
          · rw [if_pos hbad]; exact .same
          · rw [if_neg hbad, (fillStep_book ..).1]; exact .same
        · by_cases hbad : hr ≠ S_OK ∧ hr ≠ S_FALSE
          · rw [if_pos hbad]; rfl
          · rw [if_neg hbad]; exact (fillStep_book ..).2
      · simp at hs
  | collect =>
      simp only [State.mainStep] at hs
      split at hs
      · rename_i hpc
        obtain rfl := Option.some.inj hs
        refine .inl (stay (by rw [hpc]; rfl) ?_ ?_)
        · split
          · exact (Before.collectStep ..).1
          · exact .same
        · split
          · exact (Before.collectStep ..).2
          · split_ifs <;> rfl
      · simp at hs
  | refillRead hr data =>
      simp only [State.mainStep] at hs
      split at hs
      · rename_i hpc
        simp only [Option.ite_none_right_eq_some, Option.some.injEq] at hs
        obtain ⟨-, rfl⟩ := hs
        have hafter : s.pc.after = false := by rw [hpc]; rfl
        split_ifs
        · exact .inl (stay hafter .same rfl)
        · exact .inl (stay hafter .same hafter)
      · simp at hs
  | send =>
      simp only [State.mainStep] at hs
      split at hs
      · rename_i hpc
        obtain rfl := Option.some.inj hs
        exact .inl (stay (by rw [hpc]; rfl) (.send _) rfl)
      · simp at hs
  | seek hr | fillDone | seekRefill hr | refillDone =>
      simp only [State.mainStep] at hs
      split at hs
      · rename_i hpc
        try split_ifs at hs
        all_goals
          obtain rfl := Option.some.inj hs
          try split_ifs
          all_goals exact .inl (stay (by rw [hpc]; rfl) .same rfl)
      · simp at hs
  | abort =>
      simp only [State.mainStep] at hs
      split at hs
      · rename_i hpc
        obtain rfl := Option.some.inj hs
        exact .inr (.inl ⟨rfl, by rw [hpc]; rfl, rfl, _, rfl⟩)
      · simp at hs
  | terminate =>
      simp only [State.mainStep] at hs
      split at hs
      · rename_i hpc
        obtain rfl := Option.some.inj hs
        exact .inr (.inr (.inl ⟨by rw [hpc]; rfl, rfl, rfl⟩))
      · simp at hs
  | destroy =>
      simp only [State.mainStep, Option.ite_none_right_eq_some, Option.some.injEq] at hs
      obtain ⟨⟨hpc, -⟩, rfl⟩ := hs
      exact .inr (.inr (.inr ⟨by rw [hpc]; rfl, rfl, rfl⟩))
  | _ => simp [State.mainStep] at hs

/-- Before its handlers the coordinating thread adds to the trace only by its
completion. -/
theorem Before.events {b b' : Book} (h : Before b b') :
    b'.events = b.events ∨ ∃ l, b'.events = b.events ++ [.complete l] := by
  cases h with
  | complete parts => exact .inr ⟨parts, rfl⟩
  | _ => exact .inl rfl

/-- With nothing left to upload, a worker only reports the end of its message and
drops it. -/
theorem workerStep_quiet (hlive : ∀ m, (s.book.msg m).phase.live = false) {b : Book}
    (hs : s.workerStep P a = some b) :
    b.events = s.book.events ∧ ∀ m, (b.msg m).phase.live = false := by
  have set : ∀ {m : ℕ} {v : Msg}, v.phase.live = false →
      ∀ m', ((s.book.setMsg m v).msg m').phase.live = false := by
    intro m v h m'
    by_cases hne : m' = m
    · subst hne; simpa using h
    · rw [Book.setMsg_of_ne _ hne]; exact hlive m'
  cases a with
  | finish m =>
      simp only [State.workerStep, Option.ite_none_right_eq_some, Option.some.injEq] at hs
      obtain ⟨-, rfl⟩ := hs
      exact ⟨rfl, set rfl⟩
  | remove m =>
      simp only [State.workerStep, Option.ite_none_right_eq_some, Option.some.injEq] at hs
      obtain ⟨-, rfl⟩ := hs
      exact ⟨rfl, set (v := { s.book.msg m with phase := .gone }) rfl⟩
  | take m =>
      simp only [State.workerStep, Option.ite_none_right_eq_some] at hs
      have hp : (s.book.msg m).phase = .queued := by simpa using List.find?_some hs.1.2
      simpa [hp, Phase.live] using hlive m
  | begin m | respond m =>
      simp only [State.workerStep, Option.ite_none_right_eq_some] at hs
      simpa [hs.1, Phase.live] using hlive m
  | resend m =>
      simp only [State.workerStep, Option.ite_none_right_eq_some] at hs
      simpa [hs.1.1, Phase.live] using hlive m
  | upload m e etags =>
      simp only [State.workerStep, Option.ite_none_right_eq_some] at hs
      have h := hs.1.1
      have hl := hlive m
      cases hp : (s.book.msg m).phase <;> simp [hp, Phase.inFlight, Phase.live] at h hl
  | _ => simp [State.workerStep] at hs

/-- **Every step keeps what holds once the abort was sent with nothing left to
upload.** -/
theorem Quiet.step (hi : Inv cfg P s) (hq : Quiet s) (hC : AbortQuiet s a)
    (hs : s.step cfg P a = some s') : Quiet s' := by
  have stuck : ∀ {m}, (s.book.msg m).phase.live = true → .abort ∉ s.book.events := by
    intro m h habort
    simp [hq.live habort m] at h
  rcases State.step_cases hs with ⟨m, entry, q, -, hp, -, rfl⟩ | hs | ⟨b, hb, rfl⟩
  · have habort := stuck (m := m) (by simp [hp, Phase.live])
    have hev : (if entry.bLast then s.book.sent m else s.book).events = s.book.events := by
      split_ifs <;> rfl
    exact ⟨fun h => absurd (hev ▸ h) habort, fun h => absurd (hev ▸ h) habort, hev ▸ hq.past⟩
  · rcases mainStep_cases hs with ⟨hafter, hb, -⟩ | ⟨rfl, -, hb, e, hpc⟩ | ⟨-, hb, hpc⟩ |
      ⟨-, hb, hpc⟩
    · have habort : .abort ∉ s.book.events := fun h => by simp [hq.after h] at hafter
      have : .abort ∉ s'.book.events ∧ Past NotAfterAbort s'.book.events := by
        rcases hb.events with hev | ⟨l, hev⟩ <;> rw [hev]
        · exact ⟨habort, hq.past⟩
        · exact ⟨by simp [habort], hq.past.snoc trivial⟩
      exact ⟨fun h => absurd h this.1, fun h => absurd h this.1, this.2⟩
    · refine ⟨fun _ => by rw [hpc]; rfl, fun _ m => ?_, by rw [hb]; exact hq.past.snoc trivial⟩
      rw [hb]
      rcases Nat.lt_or_ge m s.book.nextMsg with h | h
      · exact hC m h
      · simp [hi.core.fresh m h, Phase.live]
    · exact ⟨fun _ => by rw [hpc]; rfl, fun h m => by rw [hb] at h ⊢; exact hq.live h m,
        by rw [hb]; exact hq.past⟩
    · refine ⟨fun _ => by rw [hpc]; rfl, fun h m => ?_, by rw [hb]; exact hq.past⟩
      rw [hb] at h ⊢
      have := hq.live h m
      simp only [Book.destroy]
      split_ifs <;> exact this
  · by_cases habort : .abort ∈ s.book.events
    · obtain ⟨hev, hlive⟩ := workerStep_quiet (hq.live habort) hb
      exact ⟨fun _ => hq.after habort, fun _ => hlive, by rw [hev]; exact hq.past⟩
    · obtain ⟨-, hf⟩ := hi.core.workerStep rfl hb
      rcases hf.events with hev | ⟨k, hev⟩ | ⟨k, t, hev⟩
      · exact ⟨fun h => absurd (hev ▸ h) habort, fun h => absurd (hev ▸ h) habort, hev ▸ hq.past⟩
      · have : .abort ∉ b.events := by simp [hev, habort]
        exact ⟨fun h => absurd h this, fun h => absurd h this,
          by rw [hev]; exact hq.past.snoc habort⟩
      · have : .abort ∉ b.events := by simp [hev, habort]
        exact ⟨fun h => absurd h this, fun h => absurd h this,
          by rw [hev]; exact hq.past.snoc trivial⟩

/-- **The abort is final when nothing is left to upload.**  In the runs in which
each abort finds every message of the pool through its request, no `UploadPart`
is in flight once the abort is sent, and none is started after it. -/
theorem abort_final (h : (system cfg P).ReachableBy AbortQuiet s) : AbortFinal s := by
  have hq : Quiet s := h.invariant_reachable (fun _ h => h ▸ Quiet.init)
    fun _ _ _ hr hq hC hs => hq.step (inv_of_reachable hr) hC hs
  refine ⟨fun habort m => ?_, fun pre post heq k => not_mem_of_notAfterAbort hq.past heq k⟩
  have := hq.live habort m
  cases hp : (s.book.msg m).phase <;> simp [hp, Phase.live, Phase.inFlight] at this ⊢

/-- Both parts fail as often as they may, and the upload is aborted. -/
def failedRun : List Action :=
  fillRun ++
  [.take 0, .begin 0, .upload 0 (.ofWin32 ERROR_OPERATION_ABORTED) [], .finish 0, .remove 0,
    .take 1, .begin 1, .upload 1 (.ofWin32 ERROR_OPERATION_ABORTED) [], .finish 1, .remove 1,
    .wait true, .abort]

/-- `abort_final` on that run. Both parts have failed as often as they may when
`AbortMultipartUpload` is sent, so no message is left that a worker could take up. -/
theorem abort_final_run : ∃ s : State, .abort ∈ s.book.events ∧
    (∀ m, (s.book.msg m).phase.inFlight = false) ∧ AbortFinal s := by
  have hrun : (((system oneRetry twoParts).restrict AbortQuiet).run failedRun {}).map
      (fun s => s.book.events) = some [.uploadPart 1, .uploadPart 2, .abort] := by decide +kernel
  obtain ⟨s, hs, hev⟩ := Option.map_eq_some_iff.1 hrun
  have h := abort_final (.run_restrict _ (.init rfl) hs)
  have habort : .abort ∈ s.book.events := by simp [hev]
  exact ⟨s, habort, h.1 habort, h⟩

/-- The abort request of the caller is met while one part is being uploaded and
the other waits in the queue of the pool, which takes it up afterwards. -/
def lateRun : List Action :=
  fillRun ++ [.take 0, .begin 0, .wait true, .abort, .take 1, .begin 1]

/-- **The abort is not final.**  In `lateRun` the first part is in flight when the
abort is sent, and the second is started after it. -/
theorem not_abort_final : ¬∀ s, (system oneRetry twoParts).Reachable s → AbortFinal s := by
  intro h
  have hrun : ((system oneRetry twoParts).run lateRun {}).map (fun s => s.book.events) =
      some ([.uploadPart 1] ++ .abort :: [.uploadPart 2]) := by decide +kernel
  obtain ⟨s, hs, hev⟩ := Option.map_eq_some_iff.1 hrun
  exact (h s (.run _ (.init rfl) hs)).2 _ _ hev 2 (by simp)

/-- A message that waits for a worker is in the queue of the pool. -/
def Queued (b : Book) : Prop := ∀ m, (b.msg m).phase = .queued → m ∈ b.msgQueue

/-- The pool is at work until the coordinating thread destroys it. -/
structure Alive (s : State) : Prop where
  enabled : s.pc ≠ .destroying → s.pc ≠ .destroyed → s.book.bDisable = false
  linked : s.pc ≠ .destroyed → ∀ m, (s.book.msg m).pevMsg = true
  queued : Queued s.book

/-- What a change of the books keeps of that. -/
structure KeepsAlive (b b' : Book) : Prop where
  queued : Queued b → Queued b'
  bDisable : b'.bDisable = b.bDisable
  linked : (∀ m, (b.msg m).pevMsg = true) → ∀ m, (b'.msg m).pevMsg = true

/-- A message that has left the queue may change, with its entry in the pool the same. -/
theorem KeepsAlive.setMsg {b : Book} {m : ℕ} {v : Msg} (hp : v.phase ≠ .queued)
    (hl : v.pevMsg = (b.msg m).pevMsg) : KeepsAlive b (b.setMsg m v) where
  queued h m' hm' := by
    by_cases hne : m' = m
    · subst hne; simp [hp] at hm'
    · rw [Book.setMsg_of_ne _ hne] at hm'; exact h m' hm'
  bDisable := rfl
  linked h m' := by
    by_cases hne : m' = m
    · subst hne; simpa [hl] using h m'
    · rw [Book.setMsg_of_ne _ hne]; exact h m'

/-- A step before the end keeps what is queued in the pool. -/
theorem Before.keepsAlive {b b' : Book} (h : Before b b') : KeepsAlive b b' := by
  cases h with
  | same | collect | complete => exact ⟨id, rfl, id⟩
  | create i =>
      refine ⟨fun hq m hm => ?_, rfl, fun h m => ?_⟩ <;> by_cases hne : m = b.nextMsg
      · subst hne; simp [Book.create] at hm
      · simp only [Book.create, Function.update_of_ne hne] at hm; exact hq m hm
      · subst hne; simp [Book.create]
      · simpa [Book.create, Function.update_of_ne hne] using h m
  | send m' =>
      refine ⟨fun hq m hm => ?_, rfl, fun h m => ?_⟩ <;> by_cases hne : m = m'
      · subst hne; simp [Book.send]
      · simp only [Book.send, Book.setMsg_of_ne _ hne] at hm
        exact List.mem_append_left _ (hq m hm)
      · subst hne; simpa [Book.send] using h m
      · simpa [Book.send, Book.setMsg_of_ne _ hne] using h m
  | retry k m' =>
      refine ⟨fun hq m hm => ?_, rfl, fun h m => ?_⟩ <;> by_cases hne : m = m'
      · subst hne; exact hq m (by simpa [Book.retry] using hm)
      · exact hq m (by simpa [Book.retry, Book.setMsg_of_ne _ hne] using hm)
      · subst hne; simpa [Book.retry] using h m
      · simpa [Book.retry, Book.setMsg_of_ne _ hne] using h m

/-- A step of a worker keeps what is queued in the pool. -/
theorem workerStep_keepsAlive {b : Book} (hs : s.workerStep P a = some b) :
    KeepsAlive s.book b := by
  cases a with
  | take m =>
      simp only [State.workerStep, Option.ite_none_right_eq_some, Option.some.injEq] at hs
      obtain ⟨-, rfl⟩ := hs
      exact .setMsg (by simp) rfl
  | begin m =>
      simp only [State.workerStep, Option.ite_none_right_eq_some, Option.some.injEq] at hs
      obtain ⟨-, rfl⟩ := hs
      have h : KeepsAlive s.book (s.book.setMsg m { s.book.msg m with phase := .sending }) :=
        .setMsg (by simp) rfl
      split_ifs
      · exact ⟨h.queued, h.bDisable, h.linked⟩
      · exact .setMsg (by simp) rfl
  | respond m =>
      simp only [State.workerStep, Option.ite_none_right_eq_some, Option.some.injEq] at hs
      obtain ⟨-, rfl⟩ := hs
      exact .setMsg (by simp) rfl
  | resend m =>
      simp only [State.workerStep, Option.ite_none_right_eq_some, Option.some.injEq] at hs
      obtain ⟨-, rfl⟩ := hs
      exact .setMsg (by simp) rfl
  | upload m e etags =>
      simp only [State.workerStep, Option.ite_none_right_eq_some, Option.some.injEq] at hs
      obtain ⟨-, rfl⟩ := hs
      have h : KeepsAlive s.book (s.book.setMsg m { s.book.msg m with
          phase := .uploaded, error := (s3MultiPartUpload e etags).1 }) := .setMsg (by simp) rfl
      unfold Book.upload
      simp only
      split_ifs <;> exact ⟨h.queued, h.bDisable, h.linked⟩
  | finish m =>
      simp only [State.workerStep, Option.ite_none_right_eq_some, Option.some.injEq] at hs
      obtain ⟨-, rfl⟩ := hs
      exact .setMsg (by simp) rfl
  | remove m =>
      simp only [State.workerStep, Option.ite_none_right_eq_some, Option.some.injEq] at hs
      obtain ⟨hp, rfl⟩ := hs
      have h : KeepsAlive s.book (s.book.setMsg m { s.book.msg m with phase := .gone }) :=
        .setMsg (by simp) rfl
      refine ⟨fun hq m' hm' => ?_, h.bDisable, h.linked⟩
      have hne : m' ≠ m := by
        rintro rfl
        simp [Book.remove] at hm'
      simp only [Book.remove, Book.setMsg_of_ne _ hne] at hm'
      exact (List.mem_erase_of_ne hne).2 (hq m' hm')
  | _ => simp [State.workerStep] at hs

/-- **Every step keeps the pool at work**, but its destruction. A message stays in the queue until a
worker takes it; and `bDisable` is set, and the `pevMsg` of the messages cleared, by nothing but the
destructor of the pool. -/
theorem Alive.step (ha : Alive s) (hs : s.step cfg P a = some s') : Alive s' := by
  rcases State.step_cases hs with ⟨m, entry, q, -, hp, -, rfl⟩ | hs | ⟨b, hb, rfl⟩
  · have h : KeepsAlive s.book (if entry.bLast then s.book.sent m else s.book) := by
      split_ifs
      · exact .setMsg (by simp) rfl
      · exact ⟨id, rfl, id⟩
    exact ⟨fun h1 h2 => h.bDisable.trans (ha.enabled h1 h2), fun h1 => h.linked (ha.linked h1),
      h.queued ha.queued⟩
  · rcases mainStep_cases hs with ⟨hafter, hb, hpc⟩ | ⟨rfl, hafter, hb, e, hpc⟩ | ⟨hafter, hb, hpc⟩ |
      ⟨-, hb, hpc⟩
    · have hne : s.pc ≠ .destroying ∧ s.pc ≠ .destroyed := by
        constructor <;> intro h <;> simp [h, Pc.after] at hafter
      have h := hb.keepsAlive
      exact ⟨fun _ _ => h.bDisable.trans (ha.enabled hne.1 hne.2),
        fun _ => h.linked (ha.linked hne.2), h.queued ha.queued⟩
    · have hne : s.pc ≠ .destroying ∧ s.pc ≠ .destroyed := by
        constructor <;> intro h <;> simp [h, Pc.after] at hafter
      exact ⟨fun _ _ => by rw [hb]; exact ha.enabled hne.1 hne.2,
        fun _ => by rw [hb]; exact ha.linked hne.2, by rw [hb]; exact ha.queued⟩
    · refine ⟨fun h => absurd hpc h, fun _ => ?_, by rw [hb]; exact ha.queued⟩
      rw [hb]
      refine ha.linked fun h => ?_
      cases a <;> simp [h, State.mainStep] at hs
    · refine ⟨fun _ h => absurd hpc h, fun h => absurd hpc h, fun m hm => ?_⟩
      rw [hb] at hm ⊢
      refine ha.queued m ?_
      simp only [Book.destroy] at hm
      split_ifs at hm <;> exact hm
  · have h := workerStep_keepsAlive hb
    exact ⟨fun h1 h2 => h.bDisable.trans (ha.enabled h1 h2), fun h1 => h.linked (ha.linked h1),
      h.queued ha.queued⟩

/-- **An abort that finds something left to upload is not final.**  From a state
in which the handler is about to send the abort while the pool holds a message
that has not been through its request, the threads can go on to a state in which
the abort was not final. -/
theorem late_part_of_not_quiet (h : (system cfg P).Reachable s) {e : S3Error}
    (hpc : s.pc = .caught e) (hC : ¬AbortQuiet s .abort) :
    ∃ t, (system cfg P).Reachable t ∧ ¬AbortFinal t := by
  have ha : Alive s := h.invariant (fun _ h => h ▸ ⟨fun _ _ => rfl, fun _ _ => rfl, by simp [Queued]⟩)
    fun _ _ _ ha _ hs => ha.step hs
  let t : State := { s with book := s.book.log .abort, pc := .returned false e }
  have ht : (system cfg P).Reachable t := h.step (a := .abort) trivial (by
    simp [system, State.step, State.mainStep, hpc, t])
  have hlinked : ∀ m, (s.book.msg m).pevMsg = true := ha.linked (by simp [hpc])
  have started : ∀ {u : State} {m : ℕ}, (system cfg P).Reachable u → .abort ∈ u.book.events →
      (u.book.msg m).phase = .taken → (u.book.msg m).pevMsg = true →
      ∃ t, (system cfg P).Reachable t ∧ ¬AbortFinal t := by
    intro u m hu habort hp hl
    refine ⟨{ u with book := u.book.start m (P.part (u.book.msg m).part).uPartNum },
      hu.step (a := .begin m) trivial ?_, fun hf => ?_⟩
    · simp [system, State.step, State.mainStep, State.workerStep, hp, hl]
    · have := hf.1 (by simp [Book.start, Book.log, Book.setMsg, Book.setStatus, habort]) m
      simp [Book.start, Phase.inFlight] at this
  simp only [AbortQuiet, not_forall, Bool.not_eq_false] at hC
  obtain ⟨m, -, hlive⟩ := hC
  cases hp : (s.book.msg m).phase with
  | queued =>
      -- The pool takes up the first message in its queue, which may be another one.
      have hm : m ∈ s.book.msgQueue := ha.queued m hp
      obtain ⟨m', hfind⟩ : ∃ m', s.book.msgQueue.find?
          (fun m => (s.book.msg m).phase = .queued) = some m' :=
        Option.isSome_iff_exists.1 (List.find?_isSome.2 ⟨m, hm, by simp [hp]⟩)
      have hd : s.book.bDisable = false := ha.enabled (by simp [hpc]) (by simp [hpc])
      refine started (u := { t with book := t.book.take m' }) (m := m')
        (ht.step (a := .take m') trivial ?_) ?_ ?_ ?_
      · simp [system, State.step, State.mainStep, State.workerStep, t, Book.log, hd, hfind]
      · simp [t, Book.take, Book.setMsg, Book.log]
      · simp [Book.take]
      · simp [Book.take, t, hlinked]
  | taken => exact started ht (by simp [t, Book.log]) (m := m) hp (hlinked m)
  | sending | sent | responded =>
      refine ⟨t, ht, fun hf => ?_⟩
      have := hf.1 (by simp [t, Book.log]) m
      simp [t, hp, Phase.inFlight] at this
  | _ => simp [hp, Phase.live] at hlive

end Multipart
end ECSUtil

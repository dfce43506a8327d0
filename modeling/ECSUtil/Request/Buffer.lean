/-
# The buffers of a request

WinHTTP works on the buffer of a `WinHttpReadData` or `WinHttpWriteData` until the call
completes or the last callback of the handle comes.  `SendRequestInternal` gives a buffer up
where it is reallocated, where the block it is local to is left, and where the function
returns; `State.spoiled` records that this was done to a buffer that was still in use.

A wait that is given up, on an abort, a timeout or an error, ends with the operation still
pending.  The exception handler then closes the handle and waits for its last
callback before the function returns, which is in time for every buffer but `RcvBuf`: that one
is local to the block that the exception leaves (`rcvBuf_spoiled`).  If no wait for a
read into `RcvBuf` is given up, nor the wait for the last callback, no buffer is given up
while it is in use (`buffers_kept`).
-/

import ECSUtil.Request.Send

namespace ECSUtil
namespace Request

/-- No operation is pending. -/
def Quiet (s : State) : Prop := ∀ h ∈ s.handles, h.pending = none

instance (s : State) : Decidable (Quiet s) := inferInstanceAs (Decidable (∀ h ∈ s.handles, _))

/-- **No wait that protects a buffer ends too early.**  While an operation is pending, the wait for a
read into `RcvBuf` is not given up, and the wait of `CloseRequest` ends neither because it is given up
nor on the last callback of an earlier handle. -/
def Patient (s : State) : Action → Prop
  | .waitComplete r bAbort =>
      match s.pc with
      | .wait c =>
          c.buffer = some .rcvBuf →
            givesUp s.cfg.dwLongestTimeout s.iTimeout c.expected r bAbort = true → Quiet s
      | .closing _ =>
          givesUp s.cfg.dwLongestTimeout s.iTimeout .handleClosing r bAbort = true ∨
            .handleClosing ∈ s.context.CallbacksReceived → Quiet s
      | _ => True
  | _ => True

instance (s : State) (a : Action) : Decidable (Patient s a) := by
  unfold Patient
  split
  · split <;> infer_instance
  · infer_instance

/-- Places where an operation may be pending. -/
def Pc.busy : Pc → Bool
  | .handler => true
  | .wait _ => true
  | .closing _ => true
  | _ => false

/-- `CloseRequest` waits. -/
def Pc.isClosing : Pc → Bool
  | .closing _ => true
  | _ => false

/-- **The invariant.**  A pending operation is that of the current handle, or the handle is being
closed; while the thread waits for it, it is the one waited for, and neither its callback nor
an error has come. -/
structure Kept (s : State) : Prop where
  unspoiled : s.spoiled = false
  quiet : s.pc.busy = false → Quiet s
  current : s.pc.isClosing = false → ∀ h ∈ s.handles, h.pending.isSome = true →
    s.hRequest = some h.id
  waiting : ∀ c, s.pc = .wait c → ∀ h ∈ s.handles, ∀ o, h.pending = some o →
    o = ⟨s.request, c⟩ ∧ c.expected ∉ s.context.CallbacksReceived ∧ s.context.bFailed = false ∧
      s.context.dwResultError = 0

variable {s s' : State}

/-- No operation is pending, and none was when its buffer was given up. -/
structure Ready (s : State) : Prop where
  quiet : Quiet s
  unspoiled : s.spoiled = false

/-- A state in which nothing is pending keeps its buffers. -/
theorem Ready.kept (h : Ready s) : Kept s where
  unspoiled := h.unspoiled
  quiet _ := h.quiet
  current _ h' hm hp := absurd hp (by simp [h.quiet h' hm])
  waiting _ _ h' hm o ho := absurd (h.quiet h' hm ▸ ho) (by simp)

/-- Where no wait is going on nothing is pending. -/
theorem Kept.ready (h : Kept s) (hpc : s.pc.busy = false) : Ready s := ⟨h.quiet hpc, h.unspoiled⟩

/-- Neither the handles nor the buffers are touched. -/
theorem Ready.keep (h : Ready s) (hh : s'.handles = s.handles) (hs : s'.spoiled = s.spoiled) :
    Ready s' :=
  ⟨fun h' hm => h.quiet h' (hh ▸ hm), hs.trans h.unspoiled⟩

/-- A buffer may be given up where nothing is pending. -/
theorem Ready.giveUp (h : Ready s) (p : Buffer → Bool) : Ready (s.giveUp p) where
  quiet := h.quiet
  unspoiled := by
    have hno : s.inUse p = false := by
      rw [State.inUse, List.any_eq_false]
      exact fun h' hm => by simp [h.quiet h' hm]
    rw [State.giveUp, hno, Bool.or_false, h.unspoiled]

/-- Nothing is pending behind an exception that is handled, if nothing was. -/
theorem Ready.throwS3 (h : Ready s) : Ready s.throwS3 := (h.giveUp _).keep rfl rfl

/-- Nothing is pending behind an exception that is not handled, if nothing was. -/
theorem Ready.escape (h : Ready s) : Ready s.escape := (h.giveUp _).keep rfl rfl

/-- The current handle is changed, but not its operation. -/
theorem Ready.modifyHandle (h : Ready s) {f : Handle → Handle}
    (hf : ∀ h, (f h).pending = h.pending) : Ready (s.modifyHandle f) where
  quiet h' hm := by
    obtain ⟨g, hg, rfl⟩ := List.mem_map.1 hm
    split_ifs
    · exact (hf g).trans (h.quiet g hg)
    · exact h.quiet g hg
  unspoiled := h.unspoiled

/-- Nothing is pending behind the last wait of a request. -/
theorem Ready.closed {k : Closing} (h : Ready s) : Ready (s.closed k) := by
  cases k <;> exact h.keep rfl rfl

/-- Nothing is pending where the request is closed. -/
theorem Ready.closeRequest {k : Closing} (h : Ready s) : Ready (s.closeRequest k) := by
  unfold State.closeRequest
  split
  · exact h.closed
  · split_ifs
    · have hprep : Ready s.prepareCmd := h.keep rfl rfl
      exact Ready.keep (hprep.modifyHandle (f := fun h => { h with bClosing := true })
        fun _ => rfl) rfl rfl
    · exact Ready.closed (s := { s with hRequest := none, handles := _ })
        ⟨fun g hg => h.quiet g (List.mem_filter.1 hg).1, h.unspoiled⟩

/-- **An operation is begun**: it is the only one. The one operation that is pending then is the one
that is waited for, on the current handle, and its callback has not come. -/
theorem Ready.issue (h : Ready s) (c : Cmd) : Kept (s.prepareCmd.issue c) := by
  have hpend : ∀ g ∈ (s.prepareCmd.issue c).handles, ∀ o, g.pending = some o →
      s.hRequest = some g.id ∧ o = ⟨s.request, c⟩ := by
    intro g hg o ho
    obtain ⟨g', hg', rfl⟩ := List.mem_map.1 hg
    split_ifs at ho ⊢ with hid
    · exact ⟨hid.symm, (Option.some.inj ho).symm⟩
    · exact absurd (h.quiet g' hg' ▸ ho) (by simp)
  refine ⟨h.unspoiled, fun hb => absurd hb (by simp [State.issue, Pc.busy]), fun _ g hg hp => ?_,
    fun c' hc g hg o ho => ?_⟩
  · obtain ⟨o, ho⟩ := Option.isSome_iff_exists.1 hp
    exact (hpend g hg o ho).1
  · obtain rfl := Pc.wait.inj hc
    exact ⟨(hpend g hg o ho).2, List.not_mem_nil, rfl, rfl⟩

/-- A call may leave an operation pending, and keeps the buffers. -/
theorem Ready.command (h : Ready s) {c : Cmd} {r : Result} (hs : s.command c r = some s') :
    Kept s' := by
  cases r with
  | ok => exact Option.some.inj hs ▸ h.issue c
  | failed =>
      obtain rfl := Option.some.inj hs
      exact Ready.kept (Ready.throwS3 (Ready.keep h rfl rfl))
  | resend =>
      obtain ⟨-, hs⟩ := Option.ite_none_right_eq_some.1 hs
      obtain rfl := Option.some.inj hs
      exact Ready.kept (h.keep rfl rfl)
  | hashFailed => exact absurd hs (by simp [State.command])

/-- The handle is closed while an operation may be pending on it. -/
theorem Kept.closeRequest (h : Kept s) (hpc : s.pc.isClosing = false) (k : Closing) :
    Kept (s.closeRequest k) := by
  unfold State.closeRequest
  split
  · rename_i hnone
    refine (Ready.closed ⟨fun g hg => ?_, h.unspoiled⟩).kept
    have := h.current hpc g hg
    rw [hnone] at this
    simpa using this
  · rename_i id hid
    split_ifs
    · exact ⟨h.unspoiled, fun hb => absurd hb (by simp [Pc.busy]),
        fun hc => absurd hc (by simp [Pc.isClosing]), fun c hc => absurd hc (by simp)⟩
    · refine (Ready.closed (s := { s with hRequest := none, handles := _ })
        ⟨fun g hg => ?_, h.unspoiled⟩).kept
      obtain ⟨hg, hne⟩ := List.mem_filter.1 hg
      have := h.current hpc g hg
      rw [hid] at this
      simpa [Ne.symm (by simpa using hne : g.id ≠ id)] using this

/-- **The calls.** A call is made with nothing pending; where it succeeds an operation begins, and
where it fails the thread goes on without one. -/
theorem Kept.call (h : Kept s) {r : Result} (hs : s.call r = some s') : Kept s' := by
  have ready : ∀ {p}, s.pc = p → p.busy = false → Ready s := fun hp hb => h.ready (hp ▸ hb)
  cases hpc : s.pc with
  | createHash =>
      have hr := ready hpc rfl
      cases r <;> simp only [State.call, hpc, Option.some.injEq, reduceCtorEq] at hs <;> subst hs
      · exact Ready.kept (Ready.keep hr rfl rfl)
      · exact hr.escape.kept
  | initSession =>
      have hr := ready hpc rfl
      cases r <;> simp only [State.call, hpc, Option.some.injEq, reduceCtorEq] at hs <;> subst hs
      · exact Ready.kept (Ready.closeRequest (Ready.keep hr rfl rfl))
      · exact Ready.kept (Ready.throwS3 (Ready.keep hr rfl rfl))
  | openRequest =>
      have hr := ready hpc rfl
      cases r <;> simp only [State.call, hpc, Option.some.injEq, reduceCtorEq] at hs <;> subst hs
      · refine Ready.kept ⟨fun g hg => ?_, h.unspoiled⟩
        rcases List.mem_append.1 hg with hg | hg
        · exact hr.quiet g hg
        · rw [List.mem_singleton.1 hg]
      · exact Ready.kept (Ready.throwS3 (Ready.keep hr rfl rfl))
  | setStatusCallback =>
      have hr := ready hpc rfl
      cases r <;> simp only [State.call, hpc, Option.some.injEq, reduceCtorEq] at hs <;> subst hs
      · exact Ready.kept (Ready.keep hr rfl rfl)
      · exact hr.throwS3.kept
  | setContext =>
      have hr := ready hpc rfl
      cases r <;> simp only [State.call, hpc, Option.some.injEq, reduceCtorEq] at hs <;> subst hs
      · exact Ready.kept (Ready.keep (hr.modifyHandle (f := fun h => { h with bContext := true })
          fun _ => rfl) rfl rfl)
      · exact hr.throwS3.kept
  | setOptions =>
      have hr := ready hpc rfl
      cases r <;> simp only [State.call, hpc, Option.some.injEq, reduceCtorEq] at hs <;> subst hs
      · exact Ready.kept (Ready.keep hr rfl rfl)
      · exact hr.throwS3.kept
  | credentials =>
      have hr := ready hpc rfl
      cases r <;> simp only [State.call, hpc, Option.some.injEq, reduceCtorEq] at hs <;> subst hs
      · exact Ready.kept (Ready.keep hr rfl rfl)
      · exact hr.throwS3.kept
  | signChunk w =>
      have hr := ready hpc rfl
      cases r <;> simp only [State.call, hpc, Option.some.injEq, reduceCtorEq] at hs <;> subst hs
      · exact Ready.kept (Ready.keep hr rfl rfl)
      · exact hr.escape.kept
  | received =>
      have hr := ready hpc rfl
      cases r <;> simp only [State.call, hpc, Option.some.injEq, reduceCtorEq] at hs <;> subst hs
      · exact Ready.kept (Ready.closeRequest (hr.giveUp _))
      · exact (hr.giveUp _).throwS3.kept
  | handler =>
      cases r <;> simp only [State.call, hpc, Option.some.injEq, reduceCtorEq] at hs
      exact hs ▸ h.closeRequest (hpc ▸ rfl) .failed
  | sendRequest =>
      simp only [State.call, hpc] at hs
      exact (ready hpc rfl).command hs
  | writeData w =>
      simp only [State.call, hpc] at hs
      exact (ready hpc rfl).command hs
  | receiveResponse =>
      simp only [State.call, hpc] at hs
      exact (ready hpc rfl).command hs
  | queryDataAvailable =>
      simp only [State.call, hpc] at hs
      exact (ready hpc rfl).command hs
  | readData =>
      simp only [State.call, hpc] at hs
      exact ((ready hpc rfl).giveUp _).command hs
  | _ => simp [State.call, hpc] at hs

/-- A turn of the loop that sends keeps the buffers. -/
theorem Kept.send (h : Kept s) {t : SendTurn} (hs : s.send t = some s') : Kept s' := by
  cases hpc : s.pc with
  | sendData =>
      have hr := h.ready (hpc ▸ rfl)
      cases t <;> simp only [State.send, hpc, Option.some.injEq, reduceCtorEq,
        Option.ite_none_left_eq_some, Option.ite_none_right_eq_some] at hs
      · exact hs.2 ▸ Ready.kept (Ready.keep hr rfl rfl)
      · exact hs.2 ▸ hr.throwS3.kept
      · exact hs.2 ▸ Ready.kept (Ready.keep hr rfl rfl)
      · exact hs ▸ Ready.kept (Ready.keep hr rfl rfl)
  | sent =>
      have hr := (h.ready (hpc ▸ rfl)).giveUp fun b => b = .streamSendFront
      cases t <;> simp only [State.send, hpc, Option.some.injEq, reduceCtorEq,
        Option.ite_none_right_eq_some] at hs
      · exact hs ▸ Ready.kept (Ready.keep hr rfl rfl)
      · exact hs.2 ▸ Ready.kept (Ready.keep hr rfl rfl)
  | _ => simp [State.send, hpc] at hs

/-- A turn of the wait for the throttle keeps the buffers. -/
theorem Kept.throttle (h : Kept s) {t : ThrottleTurn} (hs : s.throttle t = some s') :
    Kept s' := by
  cases hpc : s.pc with
  | sendThrottle =>
      have hr := h.ready (hpc ▸ rfl)
      cases t <;> simp only [State.throttle, hpc, Option.some.injEq] at hs <;> subst hs
      · exact Ready.kept (Ready.keep hr rfl rfl)
      · exact h
      · exact hr.throwS3.kept
  | receiveThrottle =>
      have hr := h.ready (hpc ▸ rfl)
      cases t <;> simp only [State.throttle, hpc, Option.some.injEq] at hs <;> subst hs
      · exact Ready.kept (Ready.keep hr rfl rfl)
      · exact h
      · exact hr.throwS3.kept
  | _ => simp [State.throttle, hpc] at hs

/-- The reading of the headers keeps the buffers. -/
theorem Kept.headers (h : Kept s) {n : ℕ} {b c : Bool} (hs : s.headers n b c = some s') :
    Kept s' := by
  unfold State.headers at hs
  split_ifs at hs with hpc _ _ _ _ <;> obtain rfl := Option.some.inj hs <;>
    have hr := h.ready (not_not.1 hpc ▸ rfl)
  · exact hr.throwS3.kept
  · exact Ready.kept (Ready.keep hr rfl rfl)
  · exact hr.throwS3.kept
  · exact Ready.kept (Ready.keep hr rfl rfl)
  · exact Ready.kept (Ready.keep hr rfl rfl)

/-- Nothing is pending where a call that succeeded goes on to. -/
theorem Ready.succeeded {c : Cmd} (h : Ready s) : Ready (s.succeeded c) := by
  unfold State.succeeded
  split <;> exact h.keep rfl rfl

/-- Nothing is pending where a call fails. -/
theorem Ready.commandFailed {c : Cmd} (h : Ready s) : Ready (s.commandFailed c) := by
  unfold State.commandFailed
  split_ifs
  · exact h.keep rfl rfl
  · exact h.throwS3

/-- **A wait is given up** while the operation is still pending: it is not on `RcvBuf`, the buffer
that the exception gives up. -/
theorem Kept.commandFailed (h : Kept s) {c : Cmd} (hpc : s.pc = .wait c)
    (hb : c.buffer ≠ some .rcvBuf) {x : CallbackContext} {n : ℕ}
    (hx : x.dwResultError ≠ ERROR_WINHTTP_RESEND_REQUEST) :
    Kept ({ s with context := x, iTimeout := n }.cleanupCmd.commandFailed c) := by
  have hno : s.inUse (fun b => b = .rcvBuf) = false := by
    rw [State.inUse, List.any_eq_false]
    intro g hg hp
    obtain ⟨o, ho, hu⟩ := (Option.any_eq_true _ _).1 hp
    obtain ⟨-, hu⟩ := Bool.and_eq_true_iff.1 hu
    obtain ⟨b, hob, hrcv⟩ := (Option.any_eq_true _ _).1 hu
    obtain rfl := of_decide_eq_true hrcv
    obtain rfl := (h.waiting c hpc g hg o ho).1
    exact hb hob
  rw [State.commandFailed, if_neg fun hc => hx hc.2]
  refine ⟨?_, fun hb => absurd hb (by simp [State.throwS3, Pc.busy]), fun _ => ?_,
    fun c hc => absurd hc (by simp [State.throwS3])⟩
  · exact (Bool.or_eq_false_iff.2 ⟨h.unspoiled, hno⟩)
  · exact h.current (hpc ▸ rfl)

/-- The operation that is waited for is done. -/
theorem Kept.quiet_of (h : Kept s) {c : Cmd} (hpc : s.pc = .wait c)
    (hd : c.expected ∈ s.context.CallbacksReceived ∨ s.context.bFailed = true ∨
      s.context.dwResultError ≠ 0) : Quiet s := by
  intro g hg
  by_contra hne
  obtain ⟨o, ho⟩ := Option.ne_none_iff_exists'.1 hne
  obtain ⟨-, hexp, hfail, herr⟩ := h.waiting c hpc g hg o ho
  rcases hd with hd | hd | hd
  · exact hexp hd
  · exact absurd (hfail.symm.trans hd) (by decide)
  · exact hd herr

/-- **The wait for a read into `RcvBuf` is given up** while the read is pending: the exception gives
the buffer up as well. -/
theorem Kept.spoiled (h : Kept s) {c : Cmd} (hpc : s.pc = .wait c)
    (hb : c.buffer = some .rcvBuf) {r : WaitResult} {bAbort : Bool}
    (hg : givesUp s.cfg.dwLongestTimeout s.iTimeout c.expected r bAbort = true) (hq : ¬Quiet s)
    (hs : s.waitComplete r bAbort = some s') : s'.spoiled = true := by
  obtain ⟨g, hgm, hne⟩ : ∃ g ∈ s.handles, g.pending ≠ none := by simpa [Quiet] using hq
  obtain ⟨o, ho⟩ := Option.ne_none_iff_exists'.1 hne
  obtain rfl := (h.waiting c hpc g hgm o ho).1
  have huse : s.inUse (fun b => b = .rcvBuf) = true :=
    List.any_eq_true.2 ⟨g, hgm, by simp [ho, hb]⟩
  have hsend : c ≠ .sendRequest := fun hc => by simp [hc, Cmd.buffer] at hb
  have hturn := waitTurn_of_givesUp (c := s.context) hg
  unfold State.waitComplete at hs
  split_ifs at hs
  simp only [hpc, hturn, Option.some.injEq] at hs
  rw [State.commandFailed, if_neg fun hc => hsend hc.1] at hs
  rw [← hs]
  exact Bool.or_eq_true_iff.2 (.inr huse)

/-- **The turns of a wait.** A wait that ends with the callback ends with nothing pending.  One that
is given up leaves the operation pending, and the handler then closes the handle, whose last
callback it waits for. -/
theorem Kept.waitComplete (h : Kept s) {r : WaitResult} {bAbort : Bool}
    (hc : Patient s (.waitComplete r bAbort)) (hs : s.waitComplete r bAbort = some s') :
    Kept s' := by
  unfold State.waitComplete at hs
  split_ifs at hs
  split at hs
  · rename_i c hpc
    simp only [Patient, hpc] at hc
    dsimp only at hs
    split at hs <;> obtain rfl := Option.some.inj hs <;> rename_i hturn
    · refine ⟨h.unspoiled, fun hb => absurd hb (by simp [hpc, Pc.busy]), h.current,
        fun c' hc' g hg o ho => ?_⟩
      obtain rfl := Pc.wait.inj (hpc.symm.trans hc')
      obtain ⟨ho, hexp, hfail, herr⟩ := h.waiting c hpc g hg o ho
      dsimp only
      rcases waitTurn_none hturn with hx | hx <;> rw [hx]
      · exact ⟨ho, hexp, hfail, herr⟩
      · exact ⟨ho, List.not_mem_nil, hfail, herr⟩
    · have hr : Ready s := ⟨h.quiet_of hpc (.inl (waitTurn_true hturn)), h.unspoiled⟩
      exact Ready.kept (Ready.succeeded (Ready.keep hr rfl rfl))
    · by_cases hq : Quiet s
      · exact Ready.kept (Ready.commandFailed (Ready.keep ⟨hq, h.unspoiled⟩ rfl rfl))
      · refine h.commandFailed hpc (fun hb => hq ?_) fun hx => hq (h.quiet_of hpc ?_)
        · rcases waitTurn_ends hturn with hg | hg | ⟨-, hg⟩
          · exact hc hb hg
          · exact h.quiet_of hpc (.inl hg)
          · exact h.quiet_of hpc (.inr (.inl hg))
        · have hmem := @waitTurn_error s.cfg.dwLongestTimeout s.iTimeout s.context c.expected r bAbort
          rw [hx] at hmem
          refine .inr (.inr fun h0 => ?_)
          rw [h0] at hmem
          exact absurd hmem (by decide)
  · rename_i k hpc
    simp only [Patient, hpc] at hc
    dsimp only at hs
    split at hs <;> obtain rfl := Option.some.inj hs <;> rename_i hturn
    · exact ⟨h.unspoiled, fun hb => absurd hb (by simp [hpc, Pc.busy]),
        fun hb => absurd hb (by simp [hpc, Pc.isClosing]), fun c hb => absurd hb (by simp [hpc])⟩
    · have hq : Quiet s := by
        rcases waitTurn_ends hturn with hg | hg | hg
        · exact hc (.inl hg)
        · exact hc (.inr hg)
        · exact absurd rfl hg.1
      exact Ready.kept (Ready.closed (Ready.keep ⟨hq, h.unspoiled⟩ rfl rfl))
  · exact absurd hs (by simp)

/-- What a callback leaves pending. -/
theorem mem_called {id : ℕ} {st : Status} {g : Handle}
    (hg : g ∈ s.handles.filterMap fun h => if h.id = id then h.called st else some h)
    (hp : g.pending.isSome = true) : g ∈ s.handles ∧ (g.id = id → st = .secureFailure) := by
  obtain ⟨g', hg', heq⟩ := List.mem_filterMap.1 hg
  split_ifs at heq with hid
  · cases st <;> simp only [Handle.called, Option.some.injEq, reduceCtorEq] at heq <;> subst heq
    · exact ⟨hg', fun _ => rfl⟩
    all_goals exact absurd hp (by simp)
  · obtain rfl := Option.some.inj heq
    exact ⟨hg', fun h => absurd h hid⟩

/-- **A callback**: while the thread waits for an operation, its end is that of the operation. A
handle has one operation at most, so the callback that the thread waits for is the end of that one,
and nothing is pending on the handle from here on. -/
theorem Kept.callback (h : Kept s) {id : ℕ} {st : Status} {info : ℕ}
    (hs : s.callback id st info = some s') : Kept s' := by
  obtain ⟨g₀, hmem₀, hid, hmay, rfl⟩ := callback_eq hs
  refine ⟨h.unspoiled, fun hb g hg => ?_, fun hb g hg hp => h.current hb g (mem_called hg hp).1 hp,
    fun c hpc g hg o ho => ?_⟩
  · by_contra hne
    have hp := Option.isSome_iff_ne_none.2 hne
    exact hne (h.quiet hb g (mem_called hg hp).1)
  · have hp : g.pending.isSome = true := by simp [ho]
    obtain ⟨hg, hst⟩ := mem_called hg hp
    obtain ⟨ho, hexp, hfail, herr⟩ := h.waiting c hpc g hg o ho
    -- The callback is not the end of the operation, which is still pending.
    have hst : st = .secureFailure ∨ st = .handleClosing := by
      by_cases hp₀ : g₀.pending = none
      · exact .inr (g₀.eq_handleClosing hmay hp₀)
      · left
        have h₀ := h.current (hpc ▸ rfl) g₀ hmem₀ (Option.isSome_iff_ne_none.2 hp₀)
        have h₁ := h.current (hpc ▸ rfl) g hg hp
        exact hst (Option.some.inj (h₁.symm.trans h₀) ▸ hid)
    refine ⟨ho, ?_⟩
    rcases hst with rfl | rfl
    · refine ⟨fun hm => ?_, hfail, herr⟩
      rcases List.mem_append.1 hm with hm | hm
      · exact hexp hm
      · cases c <;> simp [Cmd.expected] at hm
    · refine ⟨fun hm => ?_, hfail, herr⟩
      rcases List.mem_append.1 hm with hm | hm
      · exact hexp hm
      · cases c <;> simp [Cmd.expected] at hm

/-- **Every step keeps the buffers**, if no wait that protects one ends too early. The steps are the
calls, the turns of the waits and the callbacks of WinHTTP, in any order; the condition is on the
waits alone. -/
theorem Kept.step (h : Kept s) {a : Action} (hc : Patient s a) (hs : step s a = some s') :
    Kept s' := by
  cases a with
  | sendRequestInternal cfg =>
      obtain ⟨hpc, hs⟩ := Option.ite_none_right_eq_some.1 hs
      obtain rfl := Option.some.inj hs
      exact Ready.kept (Ready.keep (h.ready (hpc ▸ rfl)) rfl rfl)
  | call r => exact h.call hs
  | send t => exact h.send hs
  | throttle t => exact h.throttle hs
  | headers n b c => exact h.headers hs
  | waitComplete r bAbort => exact h.waitComplete hc hs
  | exitFlag =>
      simp only [Request.step, State.exitFlag] at hs
      split_ifs at hs with hpc _ <;> obtain rfl := Option.some.inj hs
      · have hr := (h.ready (not_not.1 hpc ▸ rfl)).giveUp fun _ => true
        exact Ready.kept (Ready.keep hr rfl rfl)
      · exact h
  | callback id st info => exact h.callback hs
  | callbackEnd =>
      simp only [Request.step, State.callbackEnd] at hs
      split_ifs at hs
      obtain rfl := Option.some.inj hs
      exact ⟨h.unspoiled, h.quiet, h.current, h.waiting⟩

/-- **No buffer is given up while WinHTTP may use it**, in every run in which no wait that protects
one ends too early: a buffer with a pending operation is neither released nor reallocated. -/
theorem buffers_kept (h : system.ReachableBy Patient s) : s.spoiled = false := by
  refine (h.invariant (I := Kept) ?_ fun s a s' hi hc hs => hi.step hc hs).unspoiled
  rintro _ rfl
  exact Ready.kept ⟨fun g hg => absurd hg List.not_mem_nil, rfl⟩

/-- A request is made, up to the wait for its first write. -/
def opened : List Action :=
  [.call .ok, .call .ok, .call .ok, .call .ok, .call .ok, .call .ok, .call .ok,
    .callback 0 .sendRequestComplete 0, .callbackEnd, .waitComplete .object false]

/-- An upload that is aborted while a write is pending keeps its buffers: the handle is closed before
the function returns. -/
theorem buffers_kept_upload : ∃ s, system.ReachableBy Patient s ∧
    s.left = some (.returned false (some true)) ∧ s.pc = .idle ∧ s.spoiled = false := by
  have hrun : ((system.restrict Patient).run (.sendRequestInternal { streamSend := true } :: opened ++
      [.send .write, .call .ok, .waitComplete .timeout true, .call .ok,
        .callback 0 .handleClosing 0, .callbackEnd, .waitComplete .object true, .exitFlag]) {}).map
      (fun s => (s.left, s.pc)) = some (some (.returned false (some true)), .idle) := by
    decide +kernel
  obtain ⟨s, hs, heq⟩ := Option.map_eq_some_iff.1 hrun
  obtain ⟨hl, hpc⟩ := Prod.mk.inj heq
  have hr : system.ReachableBy Patient s := .run_restrict _ (.init rfl) hs
  exact ⟨s, hr, hl, hpc, buffers_kept hr⟩

/-- **A buffer that is given up while it is in use**: a download is aborted while a read into
`RcvBuf` is pending. -/
theorem rcvBuf_spoiled : ¬∀ s, system.Reachable s → s.spoiled = false := by
  have hrun : (system.run (.sendRequestInternal { streamReceive := true } :: opened ++
      [.send .finish, .call .ok, .callback 0 .headersAvailable 0, .callbackEnd,
        .waitComplete .object false, .headers 200 true true, .call .ok,
        .callback 0 .dataAvailable 1, .callbackEnd, .waitComplete .object false, .call .ok,
        .waitComplete .timeout true]) {}).map (fun s => s.spoiled) = some true := by
    decide +kernel
  obtain ⟨s, hs, heq⟩ := Option.map_eq_some_iff.1 hrun
  intro hall
  exact absurd (heq.symm.trans (hall s (.run _ (.init rfl) hs))) (by decide)

end Request
end ECSUtil

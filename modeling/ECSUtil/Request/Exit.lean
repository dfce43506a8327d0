/-
# How a request is left

When `SendRequestInternal` returns, the request handle is closed, the session is
released, marked where the exchange did not succeed, and no command is outstanding
(`left_clean`): all of its exceptions are handled in one place.  The hash provider throws
another one.  Where it fails while a chunk is signed, the function is left with the
handle open and the session in use (`left_unclean`).

The invariant (`Held`) says of each place in the request what is to be cleaned up there: the handle,
the session, and the bracket of `PrepareCmd` and `CleanupCmd` around a command.  An exception of a
`CS3ErrorInfo` goes where all of it is done (`Calm.throwS3`).
-/

import ECSUtil.Request.Send

namespace ECSUtil
namespace Request

/-- The thread waits for a callback. -/
def Pc.inWait : Pc → Bool
  | .wait _ => true
  | .closing _ => true
  | _ => false

/-- The thread has a session. -/
def Pc.hasSession : Pc → Bool
  | .idle => false
  | .createHash => false
  | .initSession => false
  | .callbackDone => false
  | _ => true

/-- The thread may have a request handle. -/
def Pc.hasHandle : Pc → Bool
  | .idle => false
  | .createHash => false
  | .initSession => false
  | .openRequest => false
  | .closing _ => false
  | .callbackDone => false
  | _ => true

/-- **Clean.**  The handle is closed, the session is released, with the mark where the request
did not succeed, and every command was cleaned up. -/
def Clean (s : State) : Prop :=
  s.hRequest = none ∧ s.session = none ∧ s.dwCurrentThread = false ∧ s.prepared = s.cleaned ∧
    ∀ k, s.left = some (.returned false k) → k = some true

/-- **The invariant.**  What the thread holds, by where it is. -/
structure Held (s : State) : Prop where
  bracket : s.dwCurrentThread = s.pc.inWait
  matched : s.prepared = s.cleaned + if s.pc.inWait then 1 else 0
  session : s.session.isSome = s.pc.hasSession
  handle : s.hRequest.isSome = true → s.pc.hasHandle = true
  left : ∀ k, s.left = some (.returned false k) → k = some true

/-- The hash provider fails while a chunk is signed. -/
def chunkFails (s : State) : Action → Bool
  | .call .hashFailed => match s.pc with
    | .signChunk _ => true
    | _ => false
  | _ => false

/-- The step is not a failure of the hash provider while a chunk is signed. -/
def ChunkSigned (s : State) (a : Action) : Prop := chunkFails s a = false

instance (s : State) (a : Action) : Decidable (ChunkSigned s a) :=
  inferInstanceAs (Decidable (_ = _))

/-- The invariant holds before the first request. -/
theorem held_init : Held {} where
  bracket := rfl
  matched := rfl
  session := rfl
  handle h := absurd h (by simp)
  left k h := absurd h (by simp)

variable {s s' : State}

/-- Between requests the invariant says that all is clean. -/
theorem Held.clean (h : Held s) (hpc : s.pc = .idle) : Clean s := by
  obtain ⟨hb, hm, hs, hh, hl⟩ := h
  rw [hpc] at hb hm hs hh
  refine ⟨?_, ?_, hb, hm, hl⟩
  · simpa [Pc.hasHandle] using hh
  · simpa [Pc.hasSession] using hs

/-- The thread has a session, and no command is outstanding. -/
structure Calm (s : State) : Prop where
  bracket : s.dwCurrentThread = false
  matched : s.prepared = s.cleaned
  session : s.session.isSome = true
  left : ∀ k, s.left = some (.returned false k) → k = some true

/-- Outside the waits of a request no command is outstanding. -/
theorem Held.calm (h : Held s) (hw : s.pc.inWait = false) (hs : s.pc.hasSession = true) :
    Calm s where
  bracket := h.bracket.trans hw
  matched := by simpa [hw] using h.matched
  session := h.session.trans hs
  left := h.left

/-- What the thread holds is not changed. -/
theorem Calm.keep (h : Calm s) (hd : s'.dwCurrentThread = s.dwCurrentThread)
    (hp : s'.prepared = s.prepared) (hc : s'.cleaned = s.cleaned) (hs : s'.session = s.session)
    (hl : s'.left = s.left) : Calm s' :=
  ⟨hd.trans h.bracket, by rw [hp, hc, h.matched], hs ▸ h.session, hl ▸ h.left⟩

/-- A calm thread goes on to any place without a wait. -/
theorem Calm.held (h : Calm s) (hw : s.pc.inWait = false) (hs : s.pc.hasSession = true)
    (hh : s.hRequest.isSome = true → s.pc.hasHandle = true) : Held s where
  bracket := h.bracket.trans hw.symm
  matched := by simp [h.matched, hw]
  session := h.session.trans hs.symm
  handle := hh
  left := h.left

/-- No command is outstanding when the callback is taken away. -/
theorem Calm.unregister (h : Calm s) : Calm { s with bCallbackRegistered := false } :=
  ⟨h.bracket, h.matched, h.session, h.left⟩

/-- An exception that is handled may come where no command is outstanding. -/
theorem Calm.throwS3 (h : Calm s) : Held s.throwS3 :=
  ⟨h.bracket, h.matched, h.session, fun _ => rfl, h.left⟩

/-- **The session is released.** It is marked where the exchange did not succeed, and the fields of
the session are cleared, so nothing of it is left with the thread. -/
theorem Calm.closed (h : Calm s) (hr : s.hRequest = none) (k : Closing) : Held (s.closed k) := by
  have hh : s.hRequest.isSome = true → ∀ b : Bool, b = true := by simp [hr]
  cases k with
  | current => exact ⟨h.bracket, h.matched, h.session, fun h' => hh h' _, h.left⟩
  | failed =>
      refine ⟨h.bracket, h.matched, rfl, fun h' => hh h' _, fun k hk => ?_⟩
      obtain ⟨b, hb⟩ := Option.isSome_iff_exists.1 h.session
      simpa [State.closed, hb, eq_comm] using hk
  | done =>
      refine ⟨h.bracket, h.matched, rfl, fun h' => hh h' _, fun k hk => ?_⟩
      simp [State.closed] at hk

/-- **The handle is closed.** There is a wait for the last callback where one is to come; the
session is released at the end of it, or at once. -/
theorem Calm.closeRequest (h : Calm s) (k : Closing) : Held (s.closeRequest k) := by
  unfold State.closeRequest
  split
  · exact h.closed ‹_› k
  · split_ifs
    · exact ⟨rfl, congrArg (· + 1) h.matched, h.session, fun h' => absurd h' (by simp), h.left⟩
    · exact Calm.closed (s := { s with hRequest := none, handles := _ })
        ⟨h.bracket, h.matched, h.session, h.left⟩ rfl k

/-- **A command is prepared**, and cleaned up where its call fails. A call that fails throws, and
the bracket is closed before the exception goes on; one that succeeds leaves it to the wait. -/
theorem Calm.command (h : Calm s) {c : Cmd} {r : Result} (hs : s.command c r = some s')
    (hw : s.pc.inWait = false) (hpc : s.pc.hasSession = true)
    (hh : s.pc.hasHandle = true) : Held s' := by
  have hclean : Calm s.prepareCmd.cleanupCmd :=
    ⟨rfl, congrArg (· + 1) h.matched, h.session, h.left⟩
  cases r with
  | ok =>
      obtain rfl := Option.some.inj hs
      exact ⟨rfl, congrArg (· + 1) h.matched, h.session, fun _ => rfl, h.left⟩
  | failed =>
      obtain rfl := Option.some.inj hs
      exact hclean.throwS3
  | resend =>
      obtain ⟨-, hs⟩ := Option.ite_none_right_eq_some.1 hs
      obtain rfl := Option.some.inj hs
      exact hclean.held hw hpc fun _ => hh
  | hashFailed => exact absurd hs (by simp [State.command])

/-- What a thread holds that has no session. -/
theorem Held.hRequest (h : Held s) (hpc : s.pc.hasHandle = false) : s.hRequest = none := by
  have := h.handle
  rw [hpc] at this
  simpa using this

/-- **The calls.** The call of the hash provider is the one exception that nobody cleans up after,
and only while a chunk is signed; the condition rules it out. -/
theorem Held.call (h : Held s) {r : Result} (hc : ChunkSigned s (.call r))
    (hs : s.call r = some s') : Held s' := by
  have calm : ∀ {p}, s.pc = p → p.inWait = false → p.hasSession = true → Calm s :=
    fun hp hw hses => h.calm (hp ▸ hw) (hp ▸ hses)
  cases hpc : s.pc with
  | createHash =>
      have hnone := h.hRequest (by rw [hpc]; rfl)
      have hb : s.dwCurrentThread = false := h.bracket.trans (by rw [hpc]; rfl)
      have hm : s.prepared = s.cleaned := by simpa [hpc, Pc.inWait] using h.matched
      have hses : s.session.isSome = false := h.session.trans (by rw [hpc]; rfl)
      cases r <;> simp only [State.call, hpc, Option.some.injEq, reduceCtorEq] at hs
      · subst hs
        exact ⟨hb, hm, hses, fun h' => absurd h' (by simp [hnone]), h.left⟩
      · subst hs
        exact ⟨hb, hm, hses, fun h' => absurd h' (by simp [State.escape, State.giveUp, hnone]),
          fun k hk => absurd hk (by simp [State.escape])⟩
  | initSession =>
      have hcalm : Calm { s with session := some false } :=
        ⟨h.bracket.trans (by rw [hpc]; rfl), by simpa [hpc, Pc.inWait] using h.matched, rfl, h.left⟩
      cases r <;> simp only [State.call, hpc, Option.some.injEq, reduceCtorEq] at hs
      · subst hs
        exact hcalm.closeRequest .current
      · subst hs
        exact hcalm.throwS3
  | openRequest =>
      have hcalm := calm hpc rfl rfl
      cases r <;> simp only [State.call, hpc, Option.some.injEq, reduceCtorEq] at hs
      · subst hs
        exact Calm.held (Calm.keep hcalm rfl rfl rfl rfl rfl) rfl rfl fun _ => rfl
      · subst hs
        exact Calm.throwS3 (Calm.keep hcalm rfl rfl rfl rfl rfl)
  | setStatusCallback =>
      have hcalm := calm hpc rfl rfl
      cases r <;> simp only [State.call, hpc, Option.some.injEq, reduceCtorEq] at hs
      · subst hs
        exact Calm.held (Calm.keep hcalm rfl rfl rfl rfl rfl) rfl rfl fun _ => rfl
      · subst hs
        exact hcalm.throwS3
  | setContext =>
      have hcalm := calm hpc rfl rfl
      cases r <;> simp only [State.call, hpc, Option.some.injEq, reduceCtorEq] at hs
      · subst hs
        exact Calm.held (Calm.keep hcalm rfl rfl rfl rfl rfl) rfl rfl fun _ => rfl
      · subst hs
        exact hcalm.throwS3
  | setOptions =>
      have hcalm := calm hpc rfl rfl
      cases r <;> simp only [State.call, hpc, Option.some.injEq, reduceCtorEq] at hs
      · subst hs
        exact Calm.held (Calm.keep hcalm rfl rfl rfl rfl rfl) rfl rfl fun _ => rfl
      · subst hs
        exact hcalm.throwS3
  | credentials =>
      have hcalm := calm hpc rfl rfl
      cases r <;> simp only [State.call, hpc, Option.some.injEq, reduceCtorEq] at hs
      · subst hs
        exact Calm.held (Calm.keep hcalm rfl rfl rfl rfl rfl) rfl rfl fun _ => rfl
      · subst hs
        exact hcalm.throwS3
  | signChunk w =>
      have hcalm := calm hpc rfl rfl
      cases r <;> simp only [State.call, hpc, Option.some.injEq, reduceCtorEq] at hs
      · subst hs
        exact Calm.held (Calm.keep hcalm rfl rfl rfl rfl rfl) rfl rfl fun _ => rfl
      · exact absurd hc (by simp [ChunkSigned, chunkFails, hpc])
  | received =>
      have hcalm := calm hpc rfl rfl
      cases r <;> simp only [State.call, hpc, Option.some.injEq, reduceCtorEq] at hs
      · subst hs
        exact Calm.closeRequest (s := s.giveUp _) (Calm.keep hcalm rfl rfl rfl rfl rfl) .done
      · subst hs
        exact Calm.throwS3 (Calm.keep hcalm rfl rfl rfl rfl rfl)
  | handler =>
      cases r <;> simp only [State.call, hpc, Option.some.injEq, reduceCtorEq] at hs
      subst hs
      exact (calm hpc rfl rfl).closeRequest .failed
  | sendRequest =>
      simp only [State.call, hpc] at hs
      exact (calm hpc rfl rfl).command hs (by rw [hpc]; rfl) (by rw [hpc]; rfl) (by rw [hpc]; rfl)
  | writeData w =>
      simp only [State.call, hpc] at hs
      exact (calm hpc rfl rfl).command hs (by rw [hpc]; rfl) (by rw [hpc]; rfl) (by rw [hpc]; rfl)
  | receiveResponse =>
      simp only [State.call, hpc] at hs
      exact (calm hpc rfl rfl).command hs (by rw [hpc]; rfl) (by rw [hpc]; rfl) (by rw [hpc]; rfl)
  | queryDataAvailable =>
      simp only [State.call, hpc] at hs
      exact (calm hpc rfl rfl).command hs (by rw [hpc]; rfl) (by rw [hpc]; rfl) (by rw [hpc]; rfl)
  | readData =>
      have hcalm := calm hpc rfl rfl
      simp only [State.call, hpc] at hs
      refine Calm.command (s := s.giveUp _) (Calm.keep hcalm rfl rfl rfl rfl rfl) hs ?_ ?_ ?_
      · exact hpc ▸ rfl
      · exact hpc ▸ rfl
      · exact hpc ▸ rfl
  | _ => simp [State.call, hpc] at hs

/-- A turn of the loop that sends keeps the invariant. -/
theorem Held.send (h : Held s) {t : SendTurn} (hs : s.send t = some s') : Held s' := by
  cases hpc : s.pc with
  | sendData =>
      have hcalm := h.calm (hpc ▸ rfl) (hpc ▸ rfl)
      cases t <;> simp only [State.send, hpc, Option.some.injEq, reduceCtorEq,
        Option.ite_none_left_eq_some, Option.ite_none_right_eq_some] at hs
      · obtain ⟨-, rfl⟩ := hs
        exact Calm.held (Calm.keep hcalm rfl rfl rfl rfl rfl) rfl rfl fun _ => rfl
      · exact hs.2 ▸ hcalm.throwS3
      · obtain ⟨-, rfl⟩ := hs
        exact Calm.held (Calm.keep hcalm rfl rfl rfl rfl rfl) rfl rfl fun _ => rfl
      · subst hs
        refine Calm.held (Calm.keep hcalm rfl rfl rfl rfl rfl) ?_ ?_ fun _ => ?_ <;>
          dsimp only <;> split_ifs <;> rfl
  | sent =>
      have hcalm := h.calm (hpc ▸ rfl) (hpc ▸ rfl)
      cases t <;> simp only [State.send, hpc, Option.some.injEq, reduceCtorEq,
        Option.ite_none_right_eq_some] at hs
      · subst hs
        exact Calm.held (Calm.keep hcalm rfl rfl rfl rfl rfl) rfl rfl fun _ => rfl
      · obtain ⟨-, rfl⟩ := hs
        refine Calm.held (Calm.keep hcalm rfl rfl rfl rfl rfl) ?_ ?_ fun _ => ?_ <;>
          dsimp only <;> split_ifs <;> rfl
  | _ => simp [State.send, hpc] at hs

/-- A turn of the wait for the throttle keeps the invariant. -/
theorem Held.throttle (h : Held s) {t : ThrottleTurn} (hs : s.throttle t = some s') : Held s' := by
  cases hpc : s.pc with
  | sendThrottle =>
      have hcalm := h.calm (hpc ▸ rfl) (hpc ▸ rfl)
      cases t <;> simp only [State.throttle, hpc, Option.some.injEq] at hs <;> subst hs
      · exact Calm.held (Calm.keep hcalm rfl rfl rfl rfl rfl) rfl rfl fun _ => rfl
      · exact h
      · exact hcalm.throwS3
  | receiveThrottle =>
      have hcalm := h.calm (hpc ▸ rfl) (hpc ▸ rfl)
      cases t <;> simp only [State.throttle, hpc, Option.some.injEq] at hs <;> subst hs
      · exact Calm.held (Calm.keep hcalm rfl rfl rfl rfl rfl) rfl rfl fun _ => rfl
      · exact h
      · exact hcalm.throwS3
  | _ => simp [State.throttle, hpc] at hs

/-- The reading of the headers keeps the invariant. -/
theorem Held.headers (h : Held s) {n : ℕ} {b c : Bool} (hs : s.headers n b c = some s') :
    Held s' := by
  unfold State.headers at hs
  split_ifs at hs with hpc _ _ _ _ <;> obtain rfl := Option.some.inj hs <;>
    have hcalm := h.calm (not_not.1 hpc ▸ rfl) (not_not.1 hpc ▸ rfl)
  · exact hcalm.throwS3
  · exact Calm.held (Calm.keep hcalm rfl rfl rfl rfl rfl) rfl rfl fun _ => rfl
  · exact hcalm.throwS3
  · exact Calm.held (Calm.keep hcalm rfl rfl rfl rfl rfl) rfl rfl fun _ => rfl
  · exact Calm.held (Calm.keep hcalm rfl rfl rfl rfl rfl) rfl rfl fun _ => rfl

/-- **A wait that is over**, with its command cleaned up. The bracket is closed again, and what the
thread holds besides is what it held before the command. -/
theorem Held.cleanupCmd (h : Held s) (hw : s.pc.inWait = true) {c : CallbackContext} {n : ℕ} :
    Calm { s with context := c, iTimeout := n }.cleanupCmd := by
  have hm := h.matched
  rw [hw] at hm
  have hses : s.pc.hasSession = true := by
    cases hpc : s.pc <;> rw [hpc] at hw <;> first | rfl | exact absurd hw (by decide)
  exact ⟨rfl, hm, h.session.trans hses, h.left⟩

/-- A turn of the wait for a completion keeps the invariant. -/
theorem Held.waitComplete (h : Held s) {r : WaitResult} {bAbort : Bool}
    (hs : s.waitComplete r bAbort = some s') : Held s' := by
  unfold State.waitComplete at hs
  split_ifs at hs
  split at hs
  · rename_i c hpc
    have hcalm := fun {x n} => h.cleanupCmd (hpc ▸ rfl) (c := x) (n := n)
    dsimp only at hs
    split at hs <;> obtain rfl := Option.some.inj hs
    · exact ⟨h.bracket, h.matched, h.session, h.handle, h.left⟩
    · unfold State.succeeded
      split <;> refine Calm.held (Calm.keep hcalm rfl rfl rfl rfl rfl) ?_ ?_ fun _ => ?_ <;>
        dsimp only <;> (try split_ifs) <;> rfl
    · unfold State.commandFailed
      split_ifs
      · exact Calm.held (Calm.keep hcalm rfl rfl rfl rfl rfl) rfl rfl fun _ => rfl
      · exact hcalm.throwS3
  · rename_i k hpc
    have hnone := h.hRequest (hpc ▸ rfl)
    have hcalm := fun {x n} => h.cleanupCmd (hpc ▸ rfl) (c := x) (n := n)
    dsimp only at hs
    split at hs <;> obtain rfl := Option.some.inj hs
    · exact ⟨h.bracket, h.matched, h.session, h.handle, h.left⟩
    · exact Calm.closed (Calm.unregister hcalm) hnone k
  · exact absurd hs (by simp)

/-- **Every step keeps what the thread holds** in order, if no chunk fails to be signed. The cases
are the calls, the turns of the waits, and the callbacks, which take nothing from the thread and
give it nothing. -/
theorem Held.step (h : Held s) {a : Action} (hc : ChunkSigned s a) (hs : step s a = some s') :
    Held s' := by
  cases a with
  | sendRequestInternal cfg =>
      obtain ⟨hpc, hs⟩ := Option.ite_none_right_eq_some.1 hs
      obtain rfl := Option.some.inj hs
      obtain ⟨hr, hses, hb, hm, -⟩ := h.clean hpc
      cases cfg.bS3AuthV4 <;>
        exact ⟨by simp [hb, Pc.inWait], by simp [hm, Pc.inWait], by simp [hses, Pc.hasSession],
          fun h' => absurd h' (by simp [hr]), fun k hk => absurd hk (by simp)⟩
  | call r => exact h.call hc hs
  | send t => exact h.send hs
  | throttle t => exact h.throttle hs
  | headers n b c => exact h.headers hs
  | waitComplete r bAbort => exact h.waitComplete hs
  | exitFlag =>
      simp only [Request.step, State.exitFlag] at hs
      split_ifs at hs with hpc _ <;> obtain rfl := Option.some.inj hs
      · have hpc := not_not.1 hpc
        have hm : s.prepared = s.cleaned := by simpa [hpc, Pc.inWait] using h.matched
        exact ⟨h.bracket.trans (hpc ▸ rfl), hm, h.session.trans (hpc ▸ rfl),
          fun h' => by simpa [hpc, Pc.hasHandle] using h.handle h', h.left⟩
      · exact h
  | callback id st info =>
      simp only [Request.step, State.callback] at hs
      split at hs
      · split_ifs at hs
        obtain rfl := Option.some.inj hs
        exact ⟨h.bracket, h.matched, h.session, h.handle, h.left⟩
      · exact absurd hs (by simp)
  | callbackEnd =>
      simp only [Request.step, State.callbackEnd] at hs
      split_ifs at hs
      obtain rfl := Option.some.inj hs
      exact ⟨h.bracket, h.matched, h.session, h.handle, h.left⟩

/-- The invariant holds of all runs in which no chunk fails to be signed. -/
theorem held_of_reachable (h : system.ReachableBy ChunkSigned s) : Held s := by
  refine h.invariant ?_ fun s a s' hi hc hs => hi.step hc hs
  rintro _ rfl
  exact held_init

/-- **Every exit leaves the state of the thread clean**, in every run in which no chunk fails to be
signed: whenever the function was left, by return or by an exception, the handle is closed, the
session is released, with the mark where the request did not succeed, and every command that
was prepared was cleaned up once. -/
theorem left_clean (h : system.ReachableBy ChunkSigned s) (hpc : s.pc = .idle) : Clean s :=
  (held_of_reachable h).clean hpc

/-- A streamed upload that is signed, up to the write of its last chunk. -/
def signedUpload : List Action :=
  [.sendRequestInternal { streamSend := true, bS3AuthV4 := true }, .call .ok, .call .ok, .call .ok,
    .call .ok, .call .ok, .call .ok, .call .ok, .call .ok, .callback 0 .sendRequestComplete 0,
    .callbackEnd, .waitComplete .object false, .send .write]

/-- The upload goes through: it is signed and written, the reply is empty. -/
def signedReply : List Action :=
  [.call .ok, .call .ok, .callback 0 .writeComplete 1, .callbackEnd, .waitComplete .object false,
    .send (.last false), .call .ok, .call .ok, .callback 0 .writeComplete 1, .callbackEnd,
    .waitComplete .object false, .call .ok, .callback 0 .headersAvailable 0, .callbackEnd,
    .waitComplete .object false, .headers 200 true true, .call .ok, .callback 0 .dataAvailable 0,
    .callbackEnd, .waitComplete .object false, .call .ok, .callback 0 .handleClosing 0,
    .callbackEnd, .waitComplete .object false, .exitFlag]

/-- An upload that succeeds leaves the state clean. It goes through the stream, the response and the
end of the request, and returns with the handle closed and the session free. -/
theorem left_clean_upload : ∃ s, system.ReachableBy ChunkSigned s ∧
    s.left = some (.returned true (some false)) ∧ Clean s := by
  have hrun : ((system.restrict ChunkSigned).run (signedUpload ++ signedReply) {}).map
      (fun s => (s.pc, s.left)) = some (.idle, some (.returned true (some false))) := by
    decide +kernel
  obtain ⟨s, hs, heq⟩ := Option.map_eq_some_iff.1 hrun
  obtain ⟨hpc, hl⟩ := Prod.mk.inj heq
  have hr : system.ReachableBy ChunkSigned s := .run_restrict _ (.init rfl) hs
  exact ⟨s, hr, hl, left_clean hr hpc⟩

/-- **The hash provider fails while a chunk is signed**: the function is left with the session in
use, whatever came before. -/
theorem not_clean_of_chunkFails (h : system.ReachableBy ChunkSigned s) {a : Action}
    (hc : ¬ChunkSigned s a) (hs : step s a = some s') : s'.pc = .idle ∧ ¬Clean s' := by
  have hheld := held_of_reachable h
  unfold ChunkSigned chunkFails at hc
  split at hc
  · split at hc
    · rename_i w hpc
      simp only [step, State.call, hpc, Option.some.injEq] at hs
      subst hs
      refine ⟨rfl, fun hclean => ?_⟩
      have hsome : s.session.isSome = true := hheld.session.trans (hpc ▸ rfl)
      have hnone : s.session = none := hclean.2.1
      simp [hnone] at hsome
    · exact absurd rfl hc
  · exact absurd rfl hc

/-- **A request that is not cleaned up after**: the first chunk of an upload is not signed, and the
thread keeps the handle and the session. -/
theorem left_unclean : ∃ s, system.Reachable s ∧ s.pc = .idle ∧ s.left = some .thrown ∧
    s.hRequest = some 0 ∧ s.session = some false ∧ ¬Clean s := by
  have hrun : (system.run (signedUpload ++ [.call .hashFailed]) {}).map
      (fun s => (s.pc, s.left, s.hRequest, s.session)) =
        some (.idle, some .thrown, some 0, some false) := by
    decide +kernel
  obtain ⟨s, hs, heq⟩ := Option.map_eq_some_iff.1 hrun
  simp only [Prod.mk.injEq] at heq
  obtain ⟨hpc, hl, hh, hses⟩ := heq
  exact ⟨s, .run _ (.init rfl) hs, hpc, hl, hh, hses, fun hclean => by simp [hclean.1] at hh⟩

end Request
end ECSUtil

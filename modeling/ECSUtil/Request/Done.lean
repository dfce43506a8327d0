/-
# The wait for the last callback

`WaitForCallbackDone`, with which every request ends, waits for the exit flag of the callback
context.  The flag starts cleared, a callback clears it, and sets it as the last thing it
does; `Reset` does not touch it.

Once the context was registered for a handle, in this request or in an earlier one, the flag is
set, or a callback is in progress, or a handle is there whose last callback is to come
(`Wiring.Sound`), so the wait ends.  Before that there is no callback that could set
it: a request that fails so early on a fresh state waits for ever (`ends_iff_registered`).
-/

import ECSUtil.Lib.Execution
import ECSUtil.Request.Send

namespace ECSUtil
namespace Request

/-- What of the state decides about callbacks. -/
structure Wiring where
  handles : List Handle
  opened : ℕ
  hRequest : Option ℕ
  bCallbackRegistered : Bool
  registered : Bool
  lExitFlag : Bool
  inCallback : ℕ

/-- The wiring of a state. -/
def State.wiring (s : State) : Wiring :=
  ⟨s.handles, s.opened, s.hRequest, s.bCallbackRegistered, s.registered, s.context.lExitFlag,
    s.inCallback⟩

/-- **The invariant.**  A handle with the context is being closed, or is the current one and known to
be registered; once the context was registered, the exit flag is set, or will be. -/
structure Wiring.Sound (w : Wiring) : Prop where
  fresh : ∀ h ∈ w.handles, h.id < w.opened
  present : ∀ id, w.hRequest = some id → ∃ h ∈ w.handles, h.id = id
  current : ∀ h ∈ w.handles, w.hRequest = some h.id → h.bClosing = false
  context : ∀ h ∈ w.handles, h.bContext = true →
    h.bClosing = true ∨ (w.hRequest = some h.id ∧ w.bCallbackRegistered = true)
  registered : w.registered = true →
    w.lExitFlag = true ∨ 0 < w.inCallback ∨ ∃ h ∈ w.handles, h.bContext = true
  unregistered : w.registered = false →
    w.lExitFlag = false ∧ w.inCallback = 0 ∧ ∀ h ∈ w.handles, h.bContext = false

/-- Places where the thread has closed its handle. -/
def Pc.noHandle : Pc → Bool
  | .openRequest => true
  | .closing _ => true
  | .callbackDone => true
  | _ => false

/-- Places where the thread has just opened it. -/
def Pc.newHandle : Pc → Bool
  | .setStatusCallback => true
  | .setContext => true
  | _ => false

/-- The wiring is sound, and the handle closed or open where it should be. -/
structure Wired (s : State) : Prop where
  sound : s.wiring.Sound
  closed : s.pc.noHandle = true → s.hRequest = none
  opened : s.pc.newHandle = true → s.hRequest.isSome = true

variable {s s' : State}

/-- The invariant holds before the first request. -/
theorem wired_init : Wired {} := by
  refine ⟨⟨?_, ?_, ?_, ?_, ?_, ?_⟩, fun _ => rfl, fun h => absurd h (by decide)⟩ <;>
    simp [State.wiring]

/-- The thread is at a place that asks nothing of the handle. -/
theorem Wired.of_sound (h : s.wiring.Sound) (hp : s.pc.noHandle = false)
    (hn : s.pc.newHandle = false) : Wired s :=
  ⟨h, fun h' => absurd (hp.symm.trans h') (by decide),
    fun h' => absurd (hn.symm.trans h') (by decide)⟩

/-- The wiring is not touched. -/
theorem Wired.keep (h : Wired s) (hw : s'.wiring = s.wiring) (hp : s'.pc.noHandle = false)
    (hn : s'.pc.newHandle = false) : Wired s' := .of_sound (hw ▸ h.sound) hp hn

/-- The thread goes on without a handle. -/
theorem Wired.closeDone {k : Closing} (h : s.wiring.Sound) (hr : s.hRequest = none) :
    Wired (s.closed k) := by
  cases k <;> exact ⟨h, fun _ => hr, fun h' => absurd h' (by simp [State.closed, Pc.newHandle])⟩

/-- The handles are changed, but neither which they are nor who is called back for them. -/
theorem Wiring.Sound.map {w : Wiring} (h : w.Sound) {f : Handle → Handle}
    (hid : ∀ g, (f g).id = g.id) (hctx : ∀ g, (f g).bContext = g.bContext)
    (hcl : ∀ g, (f g).bClosing = g.bClosing) : { w with handles := w.handles.map f }.Sound where
  fresh g hg := by
    obtain ⟨g', hg', rfl⟩ := List.mem_map.1 hg
    exact hid g' ▸ h.fresh g' hg'
  present id hr := by
    obtain ⟨g, hg, rfl⟩ := h.present id hr
    exact ⟨f g, List.mem_map_of_mem hg, hid g⟩
  current g hg hr := by
    obtain ⟨g', hg', rfl⟩ := List.mem_map.1 hg
    exact (hcl g').trans (h.current g' hg' (hid g' ▸ hr))
  context g hg hc := by
    obtain ⟨g', hg', rfl⟩ := List.mem_map.1 hg
    rw [hcl, hid]
    exact h.context g' hg' (hctx g' ▸ hc)
  registered hr := by
    rcases h.registered hr with h | h | ⟨g, hg, hc⟩
    · exact .inl h
    · exact .inr (.inl h)
    · exact .inr (.inr ⟨f g, List.mem_map_of_mem hg, (hctx g).trans hc⟩)
  unregistered hr := by
    obtain ⟨hf, hi, hc⟩ := h.unregistered hr
    refine ⟨hf, hi, fun g hg => ?_⟩
    obtain ⟨g', hg', rfl⟩ := List.mem_map.1 hg
    exact (hctx g').trans (hc g' hg')

/-- **A handle is opened.** It has no context yet, so no callback of it is to come that would set
the flag; the flag is as an earlier request has left it. -/
theorem Wiring.Sound.open {w : Wiring} (h : w.Sound) (hr : w.hRequest = none) :
    { w with
      bCallbackRegistered := false
      hRequest := some w.opened
      handles := w.handles ++ [({ id := w.opened } : Handle)]
      opened := w.opened + 1 }.Sound where
  fresh g hg := by
    rcases List.mem_append.1 hg with hg | hg
    · exact (h.fresh g hg).trans (Nat.lt_succ_self _)
    · rw [List.mem_singleton.1 hg]
      exact Nat.lt_succ_self _
  present id hid := ⟨{ id := w.opened }, by simp, Option.some.inj hid⟩
  current g hg hid := by
    rcases List.mem_append.1 hg with hg | hg
    · exact absurd (Option.some.inj hid) (h.fresh g hg).ne'
    · rw [List.mem_singleton.1 hg]
  context g hg hc := by
    rcases List.mem_append.1 hg with hg | hg
    · exact (h.context g hg hc).imp_right fun hid => absurd (hr.symm.trans hid.1) (by simp)
    · rw [List.mem_singleton.1 hg] at hc
      exact absurd hc (by simp)
  registered hg := by
    rcases h.registered hg with h | h | ⟨g, hg, hc⟩
    · exact .inl h
    · exact .inr (.inl h)
    · exact .inr (.inr ⟨g, List.mem_append_left _ hg, hc⟩)
  unregistered hg := by
    obtain ⟨hf, hi, hc⟩ := h.unregistered hg
    refine ⟨hf, hi, fun g hg => ?_⟩
    rcases List.mem_append.1 hg with hg | hg
    · exact hc g hg
    · rw [List.mem_singleton.1 hg]

/-- **The context is registered.** From here on the handle has a last callback, which comes when it
was closed, and sets the exit flag behind the others. -/
theorem Wiring.Sound.setContext {w : Wiring} (h : w.Sound) {id : ℕ} (hr : w.hRequest = some id) :
    { w with
      handles := w.handles.map fun g : Handle =>
        if some g.id = w.hRequest then { g with bContext := true } else g
      bCallbackRegistered := true
      registered := true }.Sound where
  fresh g hg := by
    obtain ⟨g', hg', rfl⟩ := List.mem_map.1 hg
    split_ifs <;> exact h.fresh g' hg'
  present id hr := by
    obtain ⟨g, hg, rfl⟩ := h.present id hr
    refine ⟨_, List.mem_map_of_mem hg, ?_⟩
    split_ifs <;> rfl
  current g hg hr := by
    obtain ⟨g', hg', rfl⟩ := List.mem_map.1 hg
    split_ifs at hr ⊢ <;> exact h.current g' hg' hr
  context g hg hc := by
    obtain ⟨g', hg', rfl⟩ := List.mem_map.1 hg
    split_ifs at hc ⊢ with hid
    · exact .inr ⟨hid.symm, rfl⟩
    · exact (h.context g' hg' hc).imp_right fun hcur => ⟨hcur.1, rfl⟩
  registered _ := by
    obtain ⟨g, hg, rfl⟩ := h.present id hr
    refine .inr (.inr ⟨_, List.mem_map_of_mem hg, ?_⟩)
    rw [if_pos hr.symm]
  unregistered hg := absurd hg (by simp)

/-- **The handle is closed**, with the last callback to come. The handle stays there until that
callback has come, so there is something to set the flag. -/
theorem Wiring.Sound.closing {w : Wiring} (h : w.Sound) :
    { w with
      handles := w.handles.map fun g : Handle =>
        if some g.id = w.hRequest then { g with bClosing := true } else g
      hRequest := none }.Sound where
  fresh g hg := by
    obtain ⟨g', hg', rfl⟩ := List.mem_map.1 hg
    split_ifs <;> exact h.fresh g' hg'
  present id hr := absurd hr (by simp)
  current g hg hr := absurd hr (by simp)
  context g hg hc := by
    obtain ⟨g', hg', rfl⟩ := List.mem_map.1 hg
    split_ifs at hc ⊢ with hid
    · exact .inl rfl
    · exact (h.context g' hg' hc).imp_right fun hcur => absurd hcur.1.symm hid
  registered hg := by
    rcases h.registered hg with h | h | ⟨g, hg, hc⟩
    · exact .inl h
    · exact .inr (.inl h)
    · refine .inr (.inr ⟨_, List.mem_map_of_mem hg, ?_⟩)
      split_ifs <;> exact hc
  unregistered hg := by
    obtain ⟨hf, hi, hc⟩ := h.unregistered hg
    refine ⟨hf, hi, fun g hg => ?_⟩
    obtain ⟨g', hg', rfl⟩ := List.mem_map.1 hg
    split_ifs <;> exact hc g' hg'

/-- **The handle is closed** that has no callback. Without a context WinHTTP calls nothing back for
it, so it is gone at once; no flag depends on it. -/
theorem Wiring.Sound.drop {w : Wiring} (h : w.Sound) {id : ℕ} (hr : w.hRequest = some id)
    (hb : w.bCallbackRegistered = false) :
    { w with handles := w.handles.filter fun g : Handle => g.id ≠ id, hRequest := none }.Sound where
  fresh g hg := h.fresh g (List.mem_filter.1 hg).1
  present id hr := absurd hr (by simp)
  current g hg hr := absurd hr (by simp)
  context g hg hc := by
    refine (h.context g (List.mem_filter.1 hg).1 hc).imp_right fun hcur => ?_
    exact absurd (hb.symm.trans hcur.2) (by simp)
  registered hg := by
    rcases h.registered hg with h | h | ⟨g, hg, hc⟩
    · exact .inl h
    · exact .inr (.inl h)
    · refine .inr (.inr ⟨g, List.mem_filter.2 ⟨hg, ?_⟩, hc⟩)
      have hcl := (h.context g hg hc).resolve_right fun hcur =>
        absurd (hb.symm.trans hcur.2) (by simp)
      have hne : g.id ≠ id := fun hid => by
        simpa [hcl] using h.current g hg (hid ▸ hr)
      simpa using hne
  unregistered hg := by
    obtain ⟨hf, hi, hc⟩ := h.unregistered hg
    exact ⟨hf, hi, fun g hg => hc g (List.mem_filter.1 hg).1⟩

/-- Which handles are registered does not matter without a current one. -/
theorem Wiring.Sound.unregister {w : Wiring} (h : w.Sound) (hr : w.hRequest = none) :
    { w with bCallbackRegistered := false }.Sound where
  fresh := h.fresh
  present := h.present
  current := h.current
  context g hg hc :=
    (h.context g hg hc).imp_right fun hcur => absurd (hr.symm.trans hcur.1) (by simp)
  registered := h.registered
  unregistered := h.unregistered

/-- **`CloseRequest`.** `WinHttpCloseHandle` is called for the request handle, if there is one, with
or without a callback to wait for. -/
theorem Wired.closeRequest {k : Closing} (h : s.wiring.Sound) : Wired (s.closeRequest k) := by
  unfold State.closeRequest
  split
  · exact Wired.closeDone h ‹_›
  · rename_i id hid
    split_ifs with hb
    · exact ⟨h.closing, fun _ => rfl, fun h' => absurd h' (by simp [Pc.newHandle])⟩
    · exact Wired.closeDone (s := { s with hRequest := none, handles := _ })
        (h.drop hid (Bool.eq_false_iff.2 hb)) rfl

/-- A command is prepared, and cleaned up where its call fails. -/
theorem Wired.command (h : Wired s) (hp : s.pc.noHandle = false) (hn : s.pc.newHandle = false)
    {c : Cmd} {r : Result} (hs : s.command c r = some s') : Wired s' := by
  cases r with
  | ok =>
      obtain rfl := Option.some.inj hs
      refine Wired.of_sound (h.sound.map (f := fun g => if some g.id = s.hRequest then
        { g with pending := some ⟨s.request, c⟩ } else g) ?_ ?_ ?_) rfl rfl <;>
        intro g <;> split_ifs <;> rfl
  | failed =>
      obtain rfl := Option.some.inj hs
      exact h.keep rfl rfl rfl
  | resend =>
      obtain ⟨-, hs⟩ := Option.ite_none_right_eq_some.1 hs
      obtain rfl := Option.some.inj hs
      exact h.keep rfl hp hn
  | hashFailed => exact absurd hs (by simp [State.command])

/-- **The calls.** The calls that open a handle or set the context change the wiring; the others
change what is pending and where the thread is. -/
theorem Wired.call (h : Wired s) {r : Result} (hs : s.call r = some s') : Wired s' := by
  cases hpc : s.pc with
  | initSession =>
      cases r <;> simp only [State.call, hpc, Option.some.injEq, reduceCtorEq] at hs <;> subst hs
      · exact Wired.closeRequest h.sound
      · exact h.keep rfl rfl rfl
  | openRequest =>
      have hr := h.closed (hpc ▸ rfl)
      cases r <;> simp only [State.call, hpc, Option.some.injEq, reduceCtorEq] at hs <;> subst hs
      · exact ⟨h.sound.open hr, fun h' => absurd h' (by simp [Pc.noHandle]), fun _ => rfl⟩
      · exact Wired.of_sound (h.sound.unregister hr) rfl rfl
  | setStatusCallback =>
      have hr := h.opened (hpc ▸ rfl)
      cases r <;> simp only [State.call, hpc, Option.some.injEq, reduceCtorEq] at hs <;> subst hs
      · exact ⟨h.sound, fun h' => absurd h' (by simp [Pc.noHandle]), fun _ => hr⟩
      · exact h.keep rfl rfl rfl
  | setContext =>
      obtain ⟨id, hr⟩ := Option.isSome_iff_exists.1 (h.opened (hpc ▸ rfl))
      cases r <;> simp only [State.call, hpc, Option.some.injEq, reduceCtorEq] at hs <;> subst hs
      · exact Wired.of_sound (h.sound.setContext hr) rfl rfl
      · exact h.keep rfl rfl rfl
  | handler =>
      cases r <;> simp only [State.call, hpc, Option.some.injEq, reduceCtorEq] at hs
      exact hs ▸ Wired.closeRequest h.sound
  | received =>
      cases r <;> simp only [State.call, hpc, Option.some.injEq, reduceCtorEq] at hs <;> subst hs
      · exact Wired.closeRequest h.sound
      · exact h.keep rfl rfl rfl
  | sendRequest =>
      simp only [State.call, hpc] at hs
      exact h.command (hpc ▸ rfl) (hpc ▸ rfl) hs
  | writeData w =>
      simp only [State.call, hpc] at hs
      exact h.command (hpc ▸ rfl) (hpc ▸ rfl) hs
  | receiveResponse =>
      simp only [State.call, hpc] at hs
      exact h.command (hpc ▸ rfl) (hpc ▸ rfl) hs
  | queryDataAvailable =>
      simp only [State.call, hpc] at hs
      exact h.command (hpc ▸ rfl) (hpc ▸ rfl) hs
  | readData =>
      simp only [State.call, hpc] at hs
      exact Wired.command (s := s.giveUp _) ⟨h.sound, h.closed, h.opened⟩ (hpc ▸ rfl) (hpc ▸ rfl) hs
  | createHash | setOptions | credentials | signChunk w =>
      cases r <;> simp only [State.call, hpc, Option.some.injEq, reduceCtorEq] at hs <;>
        exact hs ▸ h.keep rfl rfl rfl
  | _ => simp [State.call, hpc] at hs

/-- A turn of the loop that sends keeps the invariant. -/
theorem Wired.send (h : Wired s) {t : SendTurn} (hs : s.send t = some s') : Wired s' := by
  cases hpc : s.pc with
  | sendData =>
      cases t <;> simp only [State.send, hpc, Option.some.injEq, reduceCtorEq,
        Option.ite_none_left_eq_some, Option.ite_none_right_eq_some] at hs
      · exact hs.2 ▸ h.keep rfl rfl rfl
      · exact hs.2 ▸ h.keep rfl rfl rfl
      · exact hs.2 ▸ h.keep rfl rfl rfl
      · subst hs
        refine h.keep rfl ?_ ?_ <;> dsimp only <;> split_ifs <;> rfl
  | sent =>
      cases t <;> simp only [State.send, hpc, Option.some.injEq, reduceCtorEq,
        Option.ite_none_right_eq_some] at hs
      · exact hs ▸ h.keep rfl rfl rfl
      · obtain ⟨-, rfl⟩ := hs
        refine h.keep rfl ?_ ?_ <;> dsimp only <;> split_ifs <;> rfl
  | _ => simp [State.send, hpc] at hs

/-- A turn of the wait for the throttle keeps the invariant. -/
theorem Wired.throttle (h : Wired s) {t : ThrottleTurn} (hs : s.throttle t = some s') :
    Wired s' := by
  cases hpc : s.pc with
  | sendThrottle | receiveThrottle =>
      cases t <;> simp only [State.throttle, hpc, Option.some.injEq] at hs <;> subst hs
      · exact h.keep rfl rfl rfl
      · exact h
      · exact h.keep rfl rfl rfl
  | _ => simp [State.throttle, hpc] at hs

/-- The reading of the headers keeps the invariant. -/
theorem Wired.headers (h : Wired s) {n : ℕ} {b c : Bool} (hs : s.headers n b c = some s') :
    Wired s' := by
  unfold State.headers at hs
  split_ifs at hs <;> exact Option.some.inj hs ▸ h.keep rfl rfl rfl

/-- A turn of a wait does not touch the exit flag. -/
theorem waitTurn_lExitFlag {n i : ℕ} {c : CallbackContext} {st : Status} {r : WaitResult}
    {b : Bool} : (waitTurn n c i st r b).2.1.lExitFlag = c.lExitFlag := by
  unfold waitTurn
  by_cases ha : st ≠ .handleClosing ∧ b = true
  · rw [if_pos ha]
  · rw [if_neg ha]
    cases r <;> dsimp only <;> (try split_ifs) <;> rfl

/-- A turn of the wait for a completion keeps the invariant. -/
theorem Wired.waitComplete (h : Wired s) {r : WaitResult} {bAbort : Bool}
    (hs : s.waitComplete r bAbort = some s') : Wired s' := by
  have hsound : ∀ st n, { s.wiring with
      lExitFlag := (waitTurn n s.context s.iTimeout st r bAbort).2.1.lExitFlag }.Sound :=
    fun st n => waitTurn_lExitFlag.symm ▸ h.sound
  unfold State.waitComplete at hs
  split_ifs at hs
  split at hs
  · rename_i c hpc
    dsimp only at hs
    split at hs <;> obtain rfl := Option.some.inj hs
    · exact Wired.of_sound (hsound _ _) (hpc ▸ rfl) (hpc ▸ rfl)
    · unfold State.succeeded
      split <;> refine Wired.of_sound (hsound _ _) ?_ ?_ <;> dsimp only <;> (try split_ifs) <;> rfl
    · unfold State.commandFailed
      split_ifs
      · exact Wired.of_sound (hsound _ _) rfl rfl
      · exact Wired.of_sound (hsound _ _) rfl rfl
  · rename_i k hpc
    have hr := h.closed (hpc ▸ rfl)
    dsimp only at hs
    split at hs <;> obtain rfl := Option.some.inj hs
    · exact ⟨hsound _ _, fun _ => hr, fun h' => absurd h' (by simp [hpc, Pc.newHandle])⟩
    · exact Wired.closeDone (Wiring.Sound.unregister (hsound _ _) hr) hr
  · exact absurd hs (by simp)

/-- A callback changes no more of a handle than its operation. -/
theorem Handle.called_eq {h g : Handle} {st : Status} (hc : h.called st = some g) :
    g.id = h.id ∧ g.bContext = h.bContext ∧ g.bClosing = h.bClosing := by
  cases st <;> simp only [Handle.called, Option.some.injEq, reduceCtorEq] at hc <;> subst hc <;>
    exact ⟨rfl, rfl, rfl⟩

/-- The handle a handle was before a callback. -/
theorem exists_of_mem_called {l : List Handle} {id : ℕ} {st : Status} {g : Handle}
    (hg : g ∈ l.filterMap fun h => if h.id = id then h.called st else some h) :
    ∃ h ∈ l, g.id = h.id ∧ g.bContext = h.bContext ∧ g.bClosing = h.bClosing := by
  obtain ⟨h, hh, heq⟩ := List.mem_filterMap.1 hg
  split_ifs at heq with hid
  · exact ⟨h, hh, Handle.called_eq heq⟩
  · obtain rfl := Option.some.inj heq
    exact ⟨h, hh, rfl, rfl, rfl⟩

/-- **A callback** is for a handle with the context, and the last one for a handle that is being
closed. -/
theorem Wiring.Sound.callback {w : Wiring} (h : w.Sound) {g₀ : Handle} {st : Status}
    (hg₀ : g₀ ∈ w.handles) (hmay : g₀.mayCall st = true) :
    { w with
      handles := w.handles.filterMap fun g : Handle => if g.id = g₀.id then g.called st else some g
      lExitFlag := false
      inCallback := w.inCallback + 1 }.Sound where
  fresh g hg := by
    obtain ⟨g', hg', hid, -⟩ := exists_of_mem_called hg
    exact hid ▸ h.fresh g' hg'
  present id hr := by
    obtain ⟨g, hg, rfl⟩ := h.present id hr
    cases hcall : (if g.id = g₀.id then g.called st else some g) with
    | none =>
        split_ifs at hcall with hid
        have hst : st = .handleClosing := by
          cases st <;> first | rfl | simp [Handle.called] at hcall
        subst hst
        have hcl := h.current g₀ hg₀ (hid ▸ hr)
        simp [Handle.mayCall, hcl] at hmay
    | some g' =>
        refine ⟨g', List.mem_filterMap.2 ⟨g, hg, hcall⟩, ?_⟩
        split_ifs at hcall with hid
        · exact (Handle.called_eq hcall).1
        · exact congrArg Handle.id (Option.some.inj hcall).symm
  current g hg hr := by
    obtain ⟨g', hg', hid, -, hcl⟩ := exists_of_mem_called hg
    exact hcl.trans (h.current g' hg' (hid ▸ hr))
  context g hg hc := by
    obtain ⟨g', hg', hid, hctx, hcl⟩ := exists_of_mem_called hg
    rw [hid, hcl]
    exact h.context g' hg' (hctx ▸ hc)
  registered _ := .inr (.inl (Nat.succ_pos _))
  unregistered hr := by
    have hc := (h.unregistered hr).2.2 g₀ hg₀
    simp [Handle.mayCall, hc] at hmay

/-- A callback clears the exit flag first. -/
theorem httpStatusCallback_lExitFlag (c : CallbackContext) (st : Status) (info : ℕ) :
    (c.httpStatusCallback st info).lExitFlag = false := by
  cases st <;> rfl

/-- **Every step keeps the wiring sound.** A callback clears the flag when it begins and sets it
when it ends, and in between it is counted as being in progress. -/
theorem Wired.step (h : Wired s) {a : Action} (hs : step s a = some s') : Wired s' := by
  cases a with
  | sendRequestInternal cfg =>
      obtain ⟨hpc, hs⟩ := Option.ite_none_right_eq_some.1 hs
      obtain rfl := Option.some.inj hs
      refine h.keep rfl ?_ ?_ <;> dsimp only <;> split_ifs <;> rfl
  | call r => exact h.call hs
  | send t => exact h.send hs
  | throttle t => exact h.throttle hs
  | headers n b c => exact h.headers hs
  | waitComplete r bAbort => exact h.waitComplete hs
  | exitFlag =>
      simp only [Request.step, State.exitFlag] at hs
      split_ifs at hs <;> obtain rfl := Option.some.inj hs
      · exact h.keep rfl rfl rfl
      · exact h
  | callback id st info =>
      obtain ⟨g, hg, rfl, hmay, rfl⟩ := callback_eq hs
      have hsound := h.sound.callback hg hmay
      rw [← httpStatusCallback_lExitFlag s.context st info] at hsound
      exact ⟨hsound, h.closed, h.opened⟩
  | callbackEnd =>
      simp only [Request.step, State.callbackEnd] at hs
      split_ifs at hs with hi
      obtain rfl := Option.some.inj hs
      have hsound := h.sound
      refine ⟨⟨hsound.fresh, hsound.present, hsound.current, hsound.context, fun _ => .inl rfl,
        fun hr => ?_⟩, h.closed, h.opened⟩
      exact absurd (hsound.unregistered hr).2.1 hi

/-- The invariant holds of all runs. -/
theorem wired_of_reachable (h : system.Reachable s) : Wired s := by
  refine h.invariant ?_ fun s a s' hi _ hs => hi.step hs
  rintro _ rfl
  exact wired_init

/-- What can happen while the thread waits for the exit flag. -/
theorem step_callbackDone {a : Action} (hpc : s.pc = .callbackDone) (hs : step s a = some s') :
    (a = .exitFlag ∧ (s.context.lExitFlag = true ∧ s'.pc = .idle ∨
        s.context.lExitFlag = false ∧ s' = s)) ∨
      (∃ id st info, a = .callback id st info ∧ s.callback id st info = some s') ∨
      (a = .callbackEnd ∧ s.callbackEnd = some s') := by
  cases a with
  | exitFlag =>
      refine .inl ⟨rfl, ?_⟩
      simp only [step, State.exitFlag, hpc, ne_eq, not_true_eq_false, if_false] at hs
      split_ifs at hs with hf <;> obtain rfl := Option.some.inj hs
      · exact .inl ⟨hf, rfl⟩
      · exact .inr ⟨Bool.eq_false_iff.2 hf, rfl⟩
  | callback id st info => exact .inr (.inl ⟨id, st, info, rfl, hs⟩)
  | callbackEnd => exact .inr (.inr ⟨rfl, hs⟩)
  | sendRequestInternal cfg => simp [step, hpc] at hs
  | call r => simp [step, State.call, hpc] at hs
  | send t => simp [step, State.send, hpc] at hs
  | throttle t => simp [step, State.throttle, hpc] at hs
  | headers n b c => simp [step, State.headers, hpc] at hs
  | waitComplete r bAbort => simp [step, State.waitComplete, hpc] at hs

/-- The handles and their operations, counted. -/
def weight (l : List Handle) : ℕ := l.length + l.countP fun h => h.pending.isSome

/-- The callbacks that may begin, and those that are to end. -/
def State.rest (s : State) : ℕ := 2 * weight s.handles + s.inCallback

/-- What is to come from handles is the sum over them. -/
theorem weight_cons (h : Handle) (l : List Handle) :
    weight (h :: l) = weight l + 1 + if h.pending.isSome then 1 else 0 := by
  simp only [weight, List.length_cons, List.countP_cons]
  omega

variable {id : ℕ} {st : Status}

/-- A callback adds nothing. -/
theorem weight_called_le (l : List Handle) :
    weight (l.filterMap fun h => if h.id = id then h.called st else some h) ≤ weight l := by
  induction l with
  | nil => exact le_rfl
  | cons h l ih =>
      rw [weight_cons, List.filterMap_cons]
      split
      · omega
      · rename_i g heq
        have hp : g.pending.isSome = true → h.pending.isSome = true := by
          split_ifs at heq
          · cases st <;> simp only [Handle.called, Option.some.injEq, reduceCtorEq] at heq <;>
              subst heq <;> simp
          · exact Option.some.inj heq ▸ fun h => h
        rw [weight_cons]
        split_ifs with h₁ h₂
        · omega
        · exact absurd (hp h₁) h₂
        · omega
        · omega

/-- **A callback for a handle that is being closed** ends its operation, or the handle. The callback
of an operation leaves the handle without one, and the last callback takes the handle off the list. -/
theorem weight_called_lt {l : List Handle} {g : Handle} (hg : g ∈ l) (hid : g.id = id)
    (hmay : g.mayCall st = true) (hcl : g.bClosing = true) :
    weight (l.filterMap fun h => if h.id = id then h.called st else some h) < weight l := by
  induction l with
  | nil => exact absurd hg List.not_mem_nil
  | cons h l ih =>
      have hle := @weight_called_le id st l
      rw [weight_cons]
      rcases List.mem_cons.1 hg with rfl | hg
      · rw [List.filterMap_cons, if_pos hid]
        by_cases hst : st = .handleClosing
        · subst hst
          simp only [Handle.called] at hle ⊢
          omega
        · have hp : g.pending.isSome = true := by
            cases hp : g.pending with
            | some o => rfl
            | none => exact absurd (g.eq_handleClosing hmay hp) hst
          have hcall : g.called st = some { g with pending := none } := by
            cases st <;> first | rfl | exact absurd rfl hst | simp [Handle.mayCall, hcl] at hmay
          simp only [hcall, weight_cons, hp, Option.isSome_none, if_true]
          simp only [Bool.false_eq_true, if_false]
          omega
      · have hlt := ih hg
        rw [List.filterMap_cons]
        split
        · omega
        · rename_i g' heq
          have hle' := @weight_called_le id st [h]
          simp only [List.filterMap_cons, heq, List.filterMap_nil, weight_cons] at hle'
          rw [weight_cons]
          omega

/-- **While the thread waits, callbacks come to an end.** A callback that begins counts for the one
that ends it, so the measure goes down with both; no new operation is begun while the thread waits. -/
theorem rest_lt (h : Wired s) (hpc : s.pc = .callbackDone) {a : Action}
    (hs : step s a = some s') (ha : a ≠ .exitFlag) : s'.rest < s.rest := by
  rcases step_callbackDone hpc hs with ⟨rfl, -⟩ | ⟨id, st, info, -, hs⟩ | ⟨-, hs⟩
  · exact absurd rfl ha
  · obtain ⟨g, hg, hid, hmay, rfl⟩ := callback_eq hs
    have hr := h.closed (hpc ▸ rfl)
    have hctx : g.bContext = true := (Bool.and_eq_true_iff.1 hmay).1
    have hcl := (h.sound.context g hg hctx).resolve_right fun hcur =>
      absurd (hr.symm.trans hcur.1) (by simp)
    have hlt := weight_called_lt hg hid hmay hcl
    simp only [State.rest]
    omega
  · unfold State.callbackEnd at hs
    split_ifs at hs with hi
    obtain rfl := Option.some.inj hs
    simp only [State.rest]
    omega

/-- **Fairness.**  A callback that is in progress comes to its end, the last callback of a handle that
is being closed comes, and a thread that waits for the exit flag tests it. -/
structure Fair (e : system.Execution) : Prop where
  callbackEnd : ∀ n, 0 < (e.state n).inCallback → ∃ m, n ≤ m ∧ e.act m = some .callbackEnd
  handleClosing : ∀ n, ∀ h ∈ (e.state n).handles, h.bContext = true → h.bClosing = true →
    ∃ m info, n ≤ m ∧ e.act m = some (.callback h.id .handleClosing info)
  exitFlag : ∀ n, (e.state n).pc = .callbackDone → ∃ m, n ≤ m ∧ e.act m = some .exitFlag

variable {e : system.Execution} {n : ℕ}

/-- **The wait ends** once a context was registered. By `rest_lt` the callbacks come to an end, and
the last thing that any of them does is to set the flag; the thread tests it after that. -/
theorem Fair.ends (hf : Fair e) (hpc : (e.state n).pc = .callbackDone)
    (hreg : (e.state n).registered = true) : ∃ m, n < m ∧ (e.state m).pc ≠ .callbackDone := by
  by_contra hno
  push Not at hno
  have hpc : ∀ m, n ≤ m → (e.state m).pc = .callbackDone := fun m hm =>
    (Nat.eq_or_lt_of_le hm).elim (fun h => h ▸ hpc) (hno m)
  have hwired : ∀ m, Wired (e.state m) := fun m => wired_of_reachable (e.reachable m)
  -- Only the test of the exit flag does not bring the callbacks nearer to their end.
  have hstep : ∀ m a, n ≤ m → e.act m = some a →
      (a = .exitFlag ∧ (e.state m).context.lExitFlag = false ∧ e.state (m + 1) = e.state m) ∨
        (e.state (m + 1)).rest < (e.state m).rest := by
    intro m a hm ha
    have hs := e.step m a ha
    by_cases hex : a = .exitFlag
    · rcases step_callbackDone (hpc m hm) hs with ⟨-, h⟩ | ⟨_, _, _, h, -⟩ | ⟨h, -⟩
      · rcases h with ⟨-, h⟩ | h
        · exact absurd (h.symm.trans (hpc _ (hm.trans (Nat.le_succ m)))) (by decide)
        · exact .inl ⟨hex, h⟩
      · exact absurd (hex.symm.trans h) (by simp)
      · exact absurd (hex.symm.trans h) (by simp)
    · exact .inr (rest_lt (hwired m) (hpc m hm) hs hex)
  obtain ⟨k, hk, hrest⟩ := e.comes_to_rest State.rest fun m a hm ha =>
    (hstep m a hm ha).elim (fun h => by rw [h.2.2]) le_of_lt
  have hstill : ∀ m a, k ≤ m → e.act m = some a →
      a = .exitFlag ∧ (e.state m).context.lExitFlag = false ∧ e.state (m + 1) = e.state m := by
    intro m a hm ha
    refine (hstep m a (hk.trans hm) ha).resolve_right ?_
    rw [hrest m hm, hrest (m + 1) (hm.trans (Nat.le_succ m))]
    exact lt_irrefl _
  have hconst : ∀ m, k ≤ m → e.state m = e.state k :=
    e.always (I := fun s => s = e.state k) rfl fun m a hm ha h => (hstill m a hm ha).2.2.trans h
  have hreg : (e.state k).registered = true := by
    refine e.always (I := fun s => s.registered = true) hreg (fun m a hm ha h => ?_) k hk
    rcases step_callbackDone (hpc m hm) (e.step m a ha) with
      ⟨-, ⟨-, h'⟩ | ⟨-, h'⟩⟩ | ⟨_, _, _, -, hs⟩ | ⟨-, hs⟩
    · exact absurd (h'.symm.trans (hpc _ (hm.trans (Nat.le_succ m)))) (by decide)
    · exact h' ▸ h
    · obtain ⟨_, _, _, _, hs⟩ := callback_eq hs
      exact hs ▸ h
    · unfold State.callbackEnd at hs
      split_ifs at hs
      exact Option.some.inj hs ▸ h
  rcases (hwired k).sound.registered hreg with hflag | hin | ⟨g, hg, hctx⟩
  · obtain ⟨m, hm, ha⟩ := hf.exitFlag k (hpc k hk)
    have hoff := (hstill m _ hm ha).2.1
    rw [hconst m hm] at hoff
    exact absurd (hoff.symm.trans hflag) (by decide)
  · obtain ⟨m, hm, ha⟩ := hf.callbackEnd k hin
    exact absurd (hstill m _ hm ha).1 (by simp)
  · have hr := (hwired k).closed (hpc k hk ▸ rfl)
    have hcl := ((hwired k).sound.context g hg hctx).resolve_right fun hcur =>
      absurd (hr.symm.trans hcur.1) (by simp)
    obtain ⟨m, info, hm, ha⟩ := hf.handleClosing k g hg hctx hcl
    exact absurd (hstill m _ hm ha).1 (by simp)

/-- **The wait has no end** as long as no context was registered: there is no callback. Nothing but
a callback sets the flag, no handle has the context, and the thread that would register it is the
one that waits. -/
theorem never_ends (hpc : (e.state n).pc = .callbackDone)
    (hreg : (e.state n).registered = false) : ∀ m, n ≤ m → (e.state m).pc = .callbackDone := by
  refine fun m hm => (e.always
    (I := fun s => s.pc = .callbackDone ∧ s.registered = false) ⟨hpc, hreg⟩ ?_ m hm).1
  intro m a _ ha ⟨hpc, hreg⟩
  obtain ⟨hflag, hin, hctx⟩ := (wired_of_reachable (e.reachable m)).sound.unregistered hreg
  rcases step_callbackDone hpc (e.step m a ha) with
    ⟨-, ⟨h, -⟩ | ⟨-, h⟩⟩ | ⟨_, _, _, -, hs⟩ | ⟨-, hs⟩
  · exact absurd (hflag.symm.trans h) (by decide)
  · exact h ▸ ⟨hpc, hreg⟩
  · obtain ⟨g, hg, -, hmay, -⟩ := callback_eq hs
    simp [Handle.mayCall, hctx g hg] at hmay
  · unfold State.callbackEnd at hs
    split_ifs at hs with hi
    exact absurd hin hi

/-- **The wait for the last callback ends** in every fair execution if and only if some request up
to then got as far as to register the callback context on its handle. -/
theorem ends_iff_registered (hf : Fair e) (hpc : (e.state n).pc = .callbackDone) :
    (∃ m, n < m ∧ (e.state m).pc ≠ .callbackDone) ↔ (e.state n).registered = true := by
  refine ⟨fun ⟨m, hm, hne⟩ => ?_, hf.ends hpc⟩
  by_contra hreg
  exact hne (never_ends hpc (Bool.eq_false_iff.2 hreg) m hm.le)

/-- A request fails after its context was registered: it waits for the last callback, which ends
while it tests the exit flag. -/
def lateFailure (n : ℕ) : Option Action :=
  [.sendRequestInternal {}, .call .ok, .call .ok, .call .ok, .call .ok, .call .failed, .call .ok,
    .callback 0 .handleClosing 0, .waitComplete .object false, .exitFlag, .callbackEnd, .exitFlag][n]?

/-- The run of a request that fails late takes each of its steps. -/
theorem lateFailure_enabled (n : ℕ) (a : Action) (ha : lateFailure n = some a) :
    (system.step (system.follow lateFailure {} n) a).isSome = true := by
  have hstep : ∀ n < 12, ((lateFailure n).all fun a =>
      (system.step (system.follow lateFailure {} n) a).isSome) = true := by
    decide +kernel
  obtain ⟨hn, -⟩ := List.getElem?_eq_some_iff.1 ha
  have h := hstep n hn
  rw [ha] at h
  exact h

/-- The run of a request that fails late is fair. -/
theorem lateFailure_fair :
    Fair (system.execution lateFailure {} rfl lateFailure_enabled) := by
  -- What fairness asks about is over after the last action.
  have hfin : ∀ n < 13, (0 < (system.follow lateFailure {} n).inCallback → n ≤ 10) ∧
      (∀ h ∈ (system.follow lateFailure {} n).handles, h.id = 0 ∧ n ≤ 7) ∧
        ((system.follow lateFailure {} n).pc = .callbackDone → n ≤ 11) := by
    decide +kernel
  have hlate : ∀ n, ∃ k < 13, (n ≤ k ∨ k = 12) ∧
      system.follow lateFailure {} n = system.follow lateFailure {} k := fun n =>
    (Nat.lt_or_ge n 12).elim (fun h => ⟨n, by omega, .inl le_rfl, rfl⟩) fun h =>
      ⟨12, by omega, .inr rfl, system.follow_eq_of_le (fun _ => List.getElem?_eq_none) n h⟩
  refine ⟨fun n hn => ?_, fun n h hm _ _ => ?_, fun n hn => ?_⟩ <;>
    obtain ⟨k, hk, hle, heq⟩ := hlate n <;> obtain ⟨hin, hcl, hpc⟩ := hfin k hk
  · have := hin (heq ▸ hn)
    exact ⟨10, by omega, rfl⟩
  · obtain ⟨hid, h7⟩ := hcl h (heq ▸ hm)
    exact ⟨7, 0, by omega, by rw [hid]; rfl⟩
  · have := hpc (heq ▸ hn)
    exact ⟨11, by omega, rfl⟩

/-- The wait of a request that fails after its context was registered ends. The handle is closed
with its context set, so its last callback comes, and the thread finds the flag behind it. -/
theorem ends_iff_registered_late : ∃ e : system.Execution, Fair e ∧
    (e.state 9).pc = .callbackDone ∧ ∃ m, 9 < m ∧ (e.state m).pc ≠ .callbackDone := by
  have hpc : (system.follow lateFailure {} 9).pc = .callbackDone := by decide +kernel
  have hreg : (system.follow lateFailure {} 9).registered = true := by decide +kernel
  exact ⟨_, lateFailure_fair, hpc, (ends_iff_registered lateFailure_fair hpc).2 hreg⟩

/-- The session of a first request cannot be opened. -/
def earlyFailure : ℕ → Option Action
  | 0 => some (.sendRequestInternal {})
  | 1 => some (.call .failed)
  | 2 => some (.call .ok)
  | _ => some .exitFlag

/-- The run of a request that fails early stands still after three steps. -/
theorem earlyFailure_late (n : ℕ) :
    system.follow earlyFailure {} (n + 3) = system.follow earlyFailure {} 3 := by
  induction n with
  | zero => rfl
  | succ n ih =>
      change ((system.step (system.follow earlyFailure {} (n + 3)) .exitFlag).getD _) = _
      rw [ih]
      rfl

/-- The run of a request that fails early takes each of its steps. -/
theorem earlyFailure_enabled (n : ℕ) (a : Action) (ha : earlyFailure n = some a) :
    (system.step (system.follow earlyFailure {} n) a).isSome = true := by
  match n, ha with
  | 0, ha => exact Option.some.inj ha ▸ rfl
  | 1, ha => exact Option.some.inj ha ▸ rfl
  | 2, ha => exact Option.some.inj ha ▸ rfl
  | n + 3, ha =>
      rw [earlyFailure_late n, ← Option.some.inj ha]
      rfl

/-- The run of a request that fails early never has a callback or a handle. -/
theorem earlyFailure_quiet : ∀ n, (system.follow earlyFailure {} n).inCallback = 0 ∧
    (system.follow earlyFailure {} n).handles = []
  | 0 => ⟨rfl, rfl⟩
  | 1 => ⟨rfl, rfl⟩
  | 2 => ⟨rfl, rfl⟩
  | n + 3 => by
      rw [earlyFailure_late n]
      exact ⟨rfl, rfl⟩

/-- **A wait without an end**: on a fresh state the session cannot be opened. `WinHttpOpen` fails in
the first request of a thread; the handler waits for a callback before there is a handle that could
have one. -/
theorem not_ends : ∃ e : system.Execution, Fair e ∧ (e.state 3).pc = .callbackDone ∧
    ∀ m, 3 ≤ m → (e.state m).pc = .callbackDone := by
  refine ⟨system.execution earlyFailure {} rfl earlyFailure_enabled, ⟨fun n hn => ?_,
    fun n h hm => ?_, fun n _ => ⟨n + 3, by omega, rfl⟩⟩, rfl, never_ends rfl rfl⟩
  · exact absurd (earlyFailure_quiet n).1 hn.ne'
  · exact absurd ((earlyFailure_quiet n).2 ▸ hm) List.not_mem_nil

end Request
end ECSUtil

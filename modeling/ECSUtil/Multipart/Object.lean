/-
# The object a multipart upload leaves behind

The server's side of `DoS3MultiPartUpload` (`ECSUtil/FileSupport.cpp`): what the
bodies sent by `CMPUPool::DoProcess` through `S3MultiPartUpload`, and the list sent
by `S3MultiPartComplete` (`ECSUtil/ECSConnection.cpp`), make of the object.  The
server keeps the body of an `UploadPart` request under its part number and ETag,
if it is as long as the `Content-Length` announced (`ullPartSize`), the last one in
the place of those before it; it answers `CompleteMultipartUpload` without an error
only if it holds each part named under the ETag named, and then the object is their
bodies in the order of the list.  A request of which the client hears that it
failed may have been carried out all the same.

The server runs beside the threads of the upload (`exchange`), so the result is
about each interleaving of the workers and the coordinating thread, with retries
and with requests sent again.
-/

import ECSUtil.Multipart.Feeder

namespace ECSUtil
namespace Multipart

/-- The server of an upload. -/
structure Server where
  /-- The body received so far of the request that a message makes. -/
  received : ℕ → Bytes := fun _ => []
  /-- The parts it holds, by their numbers, with their ETags. -/
  parts : ℕ → Option (String × Bytes) := fun _ => none
  /-- The object, once the upload is completed. -/
  object : Option Bytes := none

namespace Server

/-- The bodies of the parts named, `none` where one is not held under its ETag. -/
def join (srv : Server) : List (ℕ × String) → Option Bytes
  | [] => some []
  | (uPartNum, sETag) :: named =>
      match srv.parts uPartNum with
      | some (held, data) => if held = sETag then (srv.join named).map (data ++ ·) else none
      | none => none

def receive (srv : Server) (m : ℕ) (data : Bytes) : Server :=
  { srv with received := Function.update srv.received m data }

def keep (srv : Server) (uPartNum : ℕ) (sETag : String) (data : Bytes) : Server :=
  { srv with parts := Function.update srv.parts uPartNum (some (sETag, data)) }

/-- What the server does at a step of the client, `none` where it does not answer
so.  The last argument says what it did with a request of which the client hears
that it failed: the ETag under which it kept the part, or that it made the object. -/
def step (P : PartList) (s : State) (srv : Server) (kept : Option String) : Action → Option Server
  | .begin m | .resend m => some (srv.receive m [])
  | .pop m =>
      (s.feed (s.book.msg m).part).streamData.pop.map fun (entry, _) =>
        srv.receive m (srv.received m ++ entry.data)
  | .upload m e etags =>
      let part := P.part (s.book.msg m).part
      match if (s3MultiPartUpload e etags).1.ifError then kept else some (s3MultiPartUpload e etags).2 with
      | some sETag =>
          if (srv.received m).length = part.ullPartSize then
            some (srv.keep part.uPartNum sETag (srv.received m))
          else none
      | none => some srv
  | .complete e =>
      if e.ifError = false ∨ kept.isSome = true then
        (srv.join (s.completeList P)).map fun data => { srv with object := some data }
      else some srv
  | _ => some srv

/-- Bytes that are received are no part yet. -/
@[simp] theorem receive_parts (srv : Server) (m : ℕ) (data : Bytes) : (srv.receive m data).parts = srv.parts := rfl

/-- Bytes that are received are no object. -/
@[simp] theorem receive_object (srv : Server) (m : ℕ) (data : Bytes) :
    (srv.receive m data).object = srv.object := rfl

/-- Bytes that are received stand behind those received for the same message before. -/
@[simp] theorem receive_self (srv : Server) (m : ℕ) (data : Bytes) : (srv.receive m data).received m = data :=
  Function.update_self ..

/-- What was received for other messages stays as it was. -/
theorem receive_of_ne (srv : Server) {m m' : ℕ} (h : m' ≠ m) (data : Bytes) :
    (srv.receive m data).received m' = srv.received m' := Function.update_of_ne h ..

/-- A part that is kept changes nothing of what is being received. -/
@[simp] theorem keep_received (srv : Server) (n : ℕ) (t : String) (data : Bytes) :
    (srv.keep n t data).received = srv.received := rfl

/-- A part that is kept changes nothing of the object. -/
@[simp] theorem keep_object (srv : Server) (n : ℕ) (t : String) (data : Bytes) :
    (srv.keep n t data).object = srv.object := rfl

/-- A part that is kept is there under its number. -/
@[simp] theorem keep_self (srv : Server) (n : ℕ) (t : String) (data : Bytes) :
    (srv.keep n t data).parts n = some (t, data) := Function.update_self ..

/-- The parts of other numbers stay as they were. -/
theorem keep_of_ne (srv : Server) {n n' : ℕ} (h : n' ≠ n) (t : String) (data : Bytes) :
    (srv.keep n t data).parts n' = srv.parts n' := Function.update_of_ne h ..

/-- **Parts that are all held under their ETags are joined in the order they are
named.** -/
theorem join_eq {srv : Server} {ι : Type*} {num : ι → ℕ} {sETag : ι → String} {data : ι → Bytes} {is : List ι}
    (h : ∀ i ∈ is, srv.parts (num i) = some (sETag i, data i)) :
    srv.join (is.map fun i => (num i, sETag i)) = some (is.flatMap data) := by
  induction is with
  | nil => rfl
  | cons i is ih =>
      obtain ⟨hi, his⟩ := List.forall_mem_cons.1 h
      simp only [List.map_cons, join, hi, if_true, ih his, Option.map_some, List.flatMap_cons]

end Server

/-- An upload and its server. -/
def exchange (cfg : Config) (P : PartList) : StepSystem (State × Server) (Action × Option String) where
  init x := x = ({}, {})
  step x a := (x.1.step cfg P a.1).bind fun s => (x.2.step P x.1 a.2 a.1).map fun srv => (s, srv)

variable {file : Bytes} {cfg : Config} {P : PartList} {s s' : State} {a : Action}

/-- What the upload does beside its server is what it does. -/
theorem reachable_of_exchange {x : State × Server}
    (h : (exchange cfg P).ReachableBy (fun x a => ReadsFile file x.1 a.1) x) :
    (system cfg P).ReachableBy (ReadsFile file) x.1 := by
  refine h.map Prod.fst Prod.fst (fun _ h => congrArg Prod.fst h) (fun _ _ => id) fun x a y hs => ?_
  obtain ⟨s, hstep, h⟩ := Option.bind_eq_some_iff.1 hs
  obtain ⟨srv, -, rfl⟩ := Option.map_eq_some_iff.1 h
  exact hstep

/-- The parts of the file, in the order of the list. -/
def PartList.whole (P : PartList) (file : Bytes) : Bytes :=
  P.parts.flatMap fun p => slice file p.ullBaseOffset p.ullPartSize

/-- To go over the parts by number is to go over the list of them. -/
theorem PartList.flatMap_part {β : Type*} (P : PartList) (f : PartRange → List β) :
    (List.range P.parts.length).flatMap (fun i => f (P.part i)) = P.parts.flatMap f := by
  have h : (List.range P.parts.length).map P.part = P.parts := by
    refine List.ext_getElem (by simp) fun i h₁ h₂ => ?_
    simp [PartList.part, h₂]
  conv_rhs => rw [← h, List.flatMap_map]

/-- What a step of the coordinating thread leaves alone when it neither makes a
message nor collects one: what the workers see of the books and have popped. -/
structure Still (s s' : State) : Prop where
  pendingList : s'.book.pendingList = s.book.pendingList
  status : s'.book.status = s.book.status
  part : ∀ m, (s'.book.msg m).part = (s.book.msg m).part
  unsent : ∀ m, (s'.book.msg m).phase.unsent = (s.book.msg m).phase.unsent
  inFlight : ∀ m, (s'.book.msg m).phase.inFlight = (s.book.msg m).phase.inFlight
  hasResult : ∀ m, (s'.book.msg m).phase.hasResult = (s.book.msg m).phase.hasResult
  error : ∀ m, (s'.book.msg m).error = (s.book.msg m).error
  popped : ∀ i, (s'.feed i).streamData.popped = (s.feed i).streamData.popped

/-- The parts, the messages and the data stay as they are. -/
theorem Still.same (hl : s'.book.pendingList = s.book.pendingList) (hst : s'.book.status = s.book.status)
    (hm : s'.book.msg = s.book.msg) (hf : s'.feed = s.feed) : Still s s' := by
  constructor <;> simp [hl, hst, hm, hf]

/-- The data of one part change, but not what was popped of it. -/
theorem Still.setFeed {i : ℕ} {f : PartFeed} (hb : s'.book = s.book) (hf : s'.feed = Function.update s.feed i f)
    (hpop : f.streamData.popped = (s.feed i).streamData.popped) : Still s s' := by
  refine ⟨by rw [hb], by rw [hb], ?_, ?_, ?_, ?_, ?_, fun j => ?_⟩
  iterate 5 exact fun m => by rw [hb]
  rw [hf]
  by_cases h : j = i
  · subst h; rw [Function.update_self, hpop]
  · rw [Function.update_of_ne h]

/-- A turn of a feeding loop leaves alone what the workers see of the books. -/
theorem Still.fillStep (s : State) (i m rest rec : ℕ) (data : Bytes) :
    Still s (s.fillStep cfg i m rest rec data) := by
  unfold State.fillStep
  by_cases hroom : rec < cfg.queueSize
  · simp only [hroom, if_true]
    exact .setFeed rfl rfl rfl
  · simp only [hroom, if_false]
    exact .same rfl rfl rfl rfl

/-- A message moves on, to where it is as far from a result as before. -/
theorem Still.moved {m : ℕ} {v : Msg} (hl : s'.book.pendingList = s.book.pendingList)
    (hst : s'.book.status = s.book.status) (hm : s'.book.msg = Function.update s.book.msg m v)
    (hf : s'.feed = s.feed) (hpart : v.part = (s.book.msg m).part)
    (hun : v.phase.unsent = (s.book.msg m).phase.unsent) (hin : v.phase.inFlight = (s.book.msg m).phase.inFlight)
    (hres : v.phase.hasResult = (s.book.msg m).phase.hasResult) (herr : v.error = (s.book.msg m).error) :
    Still s s' := by
  have msg : ∀ m', s'.book.msg m' = s.book.msg m' ∨ m' = m ∧ s'.book.msg m' = v := by
    intro m'
    rw [hm]
    by_cases h : m' = m
    · subst h; exact .inr ⟨rfl, Function.update_self ..⟩
    · exact .inl (Function.update_of_ne h ..)
  refine ⟨hl, hst, ?_, ?_, ?_, ?_, ?_, fun i => by rw [hf]⟩
  all_goals
    intro m'
    rcases msg m' with h | ⟨rfl, h⟩ <;> simp only [h, hpart, hun, hin, hres, herr]

/-- A message goes to the queue of the pool. -/
theorem Still.send {m : ℕ} (hp : (s.book.msg m).phase = .created) (pc : Pc) :
    Still s { s with book := s.book.send m, pc := pc } :=
  .moved rfl rfl rfl rfl rfl (by rw [hp]; rfl) (by rw [hp]; rfl) (by rw [hp]; rfl) rfl

/-- The messages lose their way back to the coordinating thread. -/
theorem Still.destroy (s : State) : Still s { s with book := s.book.destroy, pc := .destroyed } := by
  constructor <;> try exact fun _ => rfl
  · rfl
  · rfl
  all_goals
    intro m
    simp only [Book.destroy]
    split_ifs <;> rfl

/-- **What a step of the coordinating thread can do**: make a message, give a part
back, mark one as complete, complete the upload, or leave alone what the workers
see. -/
theorem State.mainStep_cases (hv : Inv cfg P s) (hs : s.mainStep cfg P a = some s') :
    (∃ i abort, a = .scan abort ∧ (s.book.status i).bInProcess = false ∧ s' = s.makeMsg cfg i) ∨
    (∃ k m del, a = .collect ∧ s.book.pendingList[k]? = some m ∧
      s' = { s.setFeed (s.book.msg m).part {} with book := s.book.retry k m, pc := .collect k del }) ∨
    (∃ k m del, a = .collect ∧ s.book.pendingList[k]? = some m ∧ (s.book.msg m).bComplete = true ∧
      (s.book.msg m).error.ifError = false ∧ s' = { s with book := s.book.collect k m, pc := .collect k del }) ∨
    (∃ e, a = .complete e ∧ s.pc = .complete ∧ s' = { s with
      book := s.book.log (.complete (s.completeList P))
      pc := if e.ifError then .caught e else .returned true e }) ∨
    (Still s s' ∧ (∀ e, s'.pc ≠ .returned true e) ∧ ∀ srv kept, Server.step P s srv kept a = some srv) := by
  cases a with
  | scan abort =>
      simp only [State.mainStep] at hs
      split at hs
      · rename_i i e hpc
        obtain rfl := Option.some.inj hs
        unfold State.scanStep
        split_ifs with hlt hcomp hproc hroom habort
        all_goals first
          | exact .inl ⟨i, abort, rfl, by simpa using hproc, rfl⟩
          | exact .inr (.inr (.inr (.inr ⟨.same rfl rfl rfl rfl, by simp [State.raiseError], fun _ _ => rfl⟩)))
      · simp at hs
  | fillRead hr data =>
      simp only [State.mainStep] at hs
      split at hs
      · simp only [Option.ite_none_right_eq_some, Option.some.injEq] at hs
        obtain ⟨-, rfl⟩ := hs
        refine .inr (.inr (.inr (.inr ⟨?_, ?_, fun _ _ => rfl⟩)))
        · split_ifs
          · exact .same rfl rfl rfl rfl
          · exact .fillStep s _ _ _ _ data
        · unfold State.fillStep
          split_ifs <;> simp [State.raiseError]
      · simp at hs
  | fillDone =>
      simp only [State.mainStep] at hs
      split at hs
      · simp only [Option.ite_none_left_eq_some, Option.some.injEq] at hs
        obtain ⟨-, rfl⟩ := hs
        exact .inr (.inr (.inr (.inr ⟨.setFeed rfl rfl rfl, by simp, fun _ _ => rfl⟩)))
      · simp at hs
  | send =>
      simp only [State.mainStep] at hs
      split at hs
      · rename_i i m hpc
        obtain rfl := Option.some.inj hs
        have hok := hv.pcOk
        rw [hpc] at hok
        exact .inr (.inr (.inr (.inr ⟨.send hok.2.2.2 _, by simp, fun _ _ => rfl⟩)))
      · simp at hs
  | collect =>
      simp only [State.mainStep] at hs
      split at hs
      · obtain rfl := Option.some.inj hs
        split
        · rename_i k del _ _ m hk
          unfold State.collectStep
          simp only
          split_ifs with hfin herr
          · exact .inr (.inr (.inr (.inr ⟨.same rfl rfl rfl rfl, by simp [State.raiseError], fun _ _ => rfl⟩)))
          · exact .inr (.inl ⟨k, m, true, trivial, hk, rfl⟩)
          · exact .inr (.inr (.inl ⟨k, m, true, trivial, hk, hfin, by simpa using herr, rfl⟩))
          · exact .inr (.inr (.inr (.inr ⟨.same rfl rfl rfl rfl, by simp, fun _ _ => rfl⟩)))
        · refine .inr (.inr (.inr (.inr ⟨.same rfl rfl rfl rfl, ?_, fun _ _ => rfl⟩)))
          split_ifs <;> simp
      · simp at hs
  | refillRead hr data =>
      simp only [State.mainStep] at hs
      split at hs
      · rename_i k m del hpc
        simp only [Option.ite_none_right_eq_some, Option.some.injEq] at hs
        obtain ⟨-, rfl⟩ := hs
        refine .inr (.inr (.inr (.inr ⟨?_, ?_, fun _ _ => rfl⟩)))
        · split_ifs
          · exact .same rfl rfl rfl rfl
          · exact .setFeed rfl rfl rfl
        · split_ifs
          · simp [State.raiseError]
          · simp [State.refillStep, State.pushEntry, State.setFeed, hpc]
      · simp at hs
  | complete e =>
      simp only [State.mainStep, Option.ite_none_right_eq_some, Option.some.injEq] at hs
      obtain ⟨hpc, rfl⟩ := hs
      exact .inr (.inr (.inr (.inl ⟨e, rfl, hpc, rfl⟩)))
  | destroy =>
      simp only [State.mainStep, Option.ite_none_right_eq_some, Option.some.injEq] at hs
      obtain ⟨-, rfl⟩ := hs
      exact .inr (.inr (.inr (.inr ⟨.destroy s, by simp, fun _ _ => rfl⟩)))
  | initiate e | wait e =>
      simp only [State.mainStep, Option.ite_none_right_eq_some, Option.some.injEq] at hs
      obtain ⟨-, rfl⟩ := hs
      refine .inr (.inr (.inr (.inr ⟨?_, ?_, fun _ _ => rfl⟩)))
      · split_ifs <;> exact .same rfl rfl rfl rfl
      · split_ifs <;> simp [State.raiseError]
  | completeFails e =>
      simp only [State.mainStep, Option.ite_none_right_eq_some, Option.some.injEq] at hs
      obtain ⟨-, rfl⟩ := hs
      exact .inr (.inr (.inr (.inr ⟨.same rfl rfl rfl rfl, by simp [State.raiseError], fun _ _ => rfl⟩)))
  | seek hr | seekRefill hr =>
      simp only [State.mainStep] at hs
      split at hs
      · obtain rfl := Option.some.inj hs
        refine .inr (.inr (.inr (.inr ⟨?_, ?_, fun _ _ => rfl⟩)))
        · split_ifs <;> exact .same rfl rfl rfl rfl
        · split_ifs <;> simp [State.raiseError]
      · simp at hs
  | refillDone =>
      simp only [State.mainStep] at hs
      split at hs
      · simp only [Option.ite_none_left_eq_some, Option.some.injEq] at hs
        obtain ⟨-, rfl⟩ := hs
        exact .inr (.inr (.inr (.inr ⟨.same rfl rfl rfl rfl, by simp, fun _ _ => rfl⟩)))
      · simp at hs
  | abort =>
      simp only [State.mainStep] at hs
      split at hs
      · obtain rfl := Option.some.inj hs
        exact .inr (.inr (.inr (.inr ⟨.same rfl rfl rfl rfl, by simp, fun _ _ => rfl⟩)))
      · simp at hs
  | terminate =>
      simp only [State.mainStep] at hs
      split at hs
      · obtain rfl := Option.some.inj hs
        exact .inr (.inr (.inr (.inr ⟨.same rfl rfl rfl rfl, by simp, fun _ _ => rfl⟩)))
      · simp at hs
  | _ => simp [State.mainStep] at hs

/-- The server holds a part of the file under this ETag. -/
def Server.HoldsPart (file : Bytes) (P : PartList) (srv : Server) (i : ℕ) (sETag : String) : Prop :=
  srv.parts (i + 1) = some (sETag, slice file (P.part i).ullBaseOffset (P.part i).ullPartSize)

/-- What the server holds of an upload that reads `file`. -/
structure Held (file : Bytes) (P : PartList) (s : State) (srv : Server) : Prop where
  /-- Nothing is popped for a request that was not started. -/
  unsent : ∀ m ∈ s.book.pendingList, (s.book.msg m).phase.unsent = true →
    (s.feed (s.book.msg m).part).streamData.popped = []
  /-- What was popped for a request is what was received of it, or, once it was
  sent again, nothing. -/
  received : ∀ m ∈ s.book.pendingList, (s.book.msg m).phase.inFlight = true →
    srv.received m = body (s.feed (s.book.msg m).part).streamData.popped ∨
      Closed (s.feed (s.book.msg m).part).streamData.popped ∧ srv.received m = []
  /-- An attempt that succeeded was kept. -/
  success : ∀ m ∈ s.book.pendingList, (s.book.msg m).phase.hasResult = true →
    (s.book.msg m).error.ifError = false →
    srv.HoldsPart file P (s.book.msg m).part (s.book.status (s.book.msg m).part).sETag
  /-- A complete part is held. -/
  complete : ∀ i, (s.book.status i).bComplete = true → srv.HoldsPart file P i (s.book.status i).sETag
  /-- There is no other object than the file. -/
  object : ∀ data, srv.object = some data → data = P.whole file
  returned : ∀ e, s.pc = .returned true e → srv.object = some (P.whole file)

variable {srv srv' : Server}

/-- The invariant holds before the first step. -/
theorem Held.init : Held file P {} {} := by
  constructor <;> simp

/-- A step that leaves alone what the workers see. -/
theorem Held.still (h : Held file P s srv) (hs : Still s s')
    (hpc : ∀ e, s'.pc = .returned true e → s.pc = .returned true e) : Held file P s' srv where
  unsent m hm := by
    rw [hs.pendingList] at hm
    rw [hs.unsent, hs.part, hs.popped]
    exact h.unsent m hm
  received m hm := by
    rw [hs.pendingList] at hm
    rw [hs.inFlight, hs.part, hs.popped]
    exact h.received m hm
  success m hm := by
    rw [hs.pendingList] at hm
    rw [hs.hasResult, hs.error, hs.part, hs.status]
    exact h.success m hm
  complete i := by
    rw [hs.status]
    exact h.complete i
  object := h.object
  returned e he := h.returned e (hpc e he)

/-- A step of the worker that holds a pending message: of what the server holds
only what concerns that message has to be looked at. -/
theorem Held.worker (h : Held file P s srv) (hc : Core P.parts.length cfg.dwMaxRetries s.book) {m : ℕ}
    (hm : m ∈ s.book.pendingList) (hl : s'.book.pendingList = s.book.pendingList) (hpc : s'.pc = s.pc)
    (hstatus : ∀ i, i ≠ (s.book.msg m).part → s'.book.status i = s.book.status i)
    (hcomp : (s'.book.status (s.book.msg m).part).bComplete = false)
    (hmsg : ∀ m', m' ≠ m → s'.book.msg m' = s.book.msg m') (hpart : (s'.book.msg m).part = (s.book.msg m).part)
    (hfeed : ∀ i, i ≠ (s.book.msg m).part → s'.feed i = s.feed i)
    (hrec : ∀ m', m' ≠ m → srv'.received m' = srv.received m')
    (hparts : ∀ i, i ≠ (s.book.msg m).part → srv'.parts (i + 1) = srv.parts (i + 1))
    (hobject : srv'.object = srv.object)
    (hun : (s'.book.msg m).phase.unsent = true → (s'.feed (s.book.msg m).part).streamData.popped = [])
    (hreceived : (s'.book.msg m).phase.inFlight = true →
      srv'.received m = body (s'.feed (s.book.msg m).part).streamData.popped ∨
        Closed (s'.feed (s.book.msg m).part).streamData.popped ∧ srv'.received m = [])
    (hsuccess : (s'.book.msg m).phase.hasResult = true → (s'.book.msg m).error.ifError = false →
      srv'.HoldsPart file P (s.book.msg m).part (s'.book.status (s.book.msg m).part).sETag) :
    Held file P s' srv' := by
  have other : ∀ {m'}, m' ∈ s.book.pendingList → m' ≠ m → (s.book.msg m').part ≠ (s.book.msg m).part :=
    fun hm' hne hp => hne (hc.distinct _ hm' m hm hp)
  refine ⟨fun m' hm' => ?_, fun m' hm' => ?_, fun m' hm' => ?_, fun i hi => ?_, ?_, fun e he => ?_⟩
  · rw [hl] at hm'
    by_cases hne : m' = m
    · subst hne; rwa [hpart]
    · rw [hmsg m' hne, hfeed _ (other hm' hne)]
      exact h.unsent m' hm'
  · rw [hl] at hm'
    by_cases hne : m' = m
    · subst hne; rwa [hpart]
    · rw [hmsg m' hne, hfeed _ (other hm' hne), hrec m' hne]
      exact h.received m' hm'
  · rw [hl] at hm'
    by_cases hne : m' = m
    · subst hne; rwa [hpart]
    · rw [hmsg m' hne, hstatus _ (other hm' hne), Server.HoldsPart, hparts _ (other hm' hne)]
      exact h.success m' hm'
  · have hne : i ≠ (s.book.msg m).part := by
      rintro rfl
      rw [hcomp] at hi
      cases hi
    rw [hstatus i hne] at hi ⊢
    rw [Server.HoldsPart, hparts i hne]
    exact h.complete i hi
  · rw [hobject]; exact h.object
  · rw [hpc] at he
    rw [hobject]; exact h.returned e he

/-- A message is made, with an empty queue. -/
theorem Held.makeMsg (h : Held file P s srv) (hc : Core P.parts.length cfg.dwMaxRetries s.book)
    (hi : FeedInv file cfg P s) {i : ℕ} (hproc : (s.book.status i).bInProcess = false) :
    Held file P (s.makeMsg cfg i) srv := by
  have hempty : s.feed i = {} := hi.idle i hproc
  have hfeed : (s.makeMsg cfg i).feed = s.feed := by simp [State.makeMsg, State.setFeed, hempty]
  have status : ∀ j, ((s.makeMsg cfg i).book.status j).sETag = (s.book.status j).sETag ∧
      ((s.makeMsg cfg i).book.status j).bComplete = (s.book.status j).bComplete := by
    intro j
    by_cases h : j = i
    · subst h; simp [State.makeMsg, Book.create]
    · simp [State.makeMsg, Book.create, h]
  have msg : ∀ {m}, m ∈ (s.makeMsg cfg i).book.pendingList → (s.makeMsg cfg i).book.msg m = { part := i } ∨
      m ∈ s.book.pendingList ∧ (s.makeMsg cfg i).book.msg m = s.book.msg m := by
    intro m hm
    rcases List.mem_append.1 hm with hm | hm
    · have hne : m ≠ s.book.nextMsg := Nat.ne_of_lt (hc.pending_lt m hm)
      exact .inr ⟨hm, Function.update_of_ne hne ..⟩
    · obtain rfl : m = s.book.nextMsg := by simpa using hm
      exact .inl (Function.update_self ..)
  refine ⟨fun m hm hun => ?_, fun m hm hin => ?_, fun m hm hres herr => ?_, fun j hj => ?_, h.object,
    by simp [State.makeMsg]⟩
  · rw [hfeed]
    rcases msg hm with hmsg | ⟨hm, hmsg⟩ <;> rw [hmsg] at hun ⊢
    · rw [hempty]; rfl
    · exact h.unsent m hm hun
  · rw [hfeed]
    rcases msg hm with hmsg | ⟨hm, hmsg⟩ <;> rw [hmsg] at hin ⊢
    · cases hin
    · exact h.received m hm hin
  · rw [(status _).1]
    rcases msg hm with hmsg | ⟨hm, hmsg⟩ <;> rw [hmsg] at hres herr ⊢
    · cases hres
    · exact h.success m hm hres herr
  · rw [(status j).2] at hj
    rw [(status j).1]
    exact h.complete j hj

/-- A part is given back, to be sent again. -/
theorem Held.retry (h : Held file P s srv) (hc : Core P.parts.length cfg.dwMaxRetries s.book) {k m : ℕ}
    (hk : s.book.pendingList[k]? = some m) (del : Bool) :
    Held file P { s.setFeed (s.book.msg m).part {} with
      book := s.book.retry k m, pc := .collect k del } srv := by
  have hm : m ∈ s.book.pendingList := List.mem_of_getElem? hk
  have mem : ∀ {m'}, m' ∈ (s.book.retry k m).pendingList → m' ∈ s.book.pendingList ∧
      (s.book.retry k m).msg m' = s.book.msg m' ∧ (s.book.msg m').part ≠ (s.book.msg m).part := by
    intro m' hm'
    obtain ⟨hne, hm'⟩ := (hc.mem_eraseIdx hk).1 hm'
    exact ⟨hm', by simp [Book.retry, Book.setMsg_of_ne _ hne], fun hp => hne (hc.distinct _ hm' m hm hp)⟩
  have status : ∀ {i}, i ≠ (s.book.msg m).part → (s.book.retry k m).status i = s.book.status i := by
    intro i hne
    simp [Book.retry, Book.setStatus_of_ne _ hne]
  refine ⟨fun m' hm' => ?_, fun m' hm' => ?_, fun m' hm' => ?_, fun i hi => ?_, h.object, by simp⟩
  · obtain ⟨hm', hmsg, hp⟩ := mem hm'
    simp only [hmsg, State.setFeed, Function.update_of_ne hp]
    exact h.unsent m' hm'
  · obtain ⟨hm', hmsg, hp⟩ := mem hm'
    simp only [hmsg, State.setFeed, Function.update_of_ne hp]
    exact h.received m' hm'
  · obtain ⟨hm', hmsg, hp⟩ := mem hm'
    simp only [hmsg, status hp]
    exact h.success m' hm'
  · have hi : ((s.book.retry k m).status i).bComplete = true := hi
    have hne : i ≠ (s.book.msg m).part := by
      rintro rfl
      simp [Book.retry] at hi
    rw [status hne] at hi
    simp only [status hne]
    exact h.complete i hi

/-- A part is marked as complete. -/
theorem Held.collect (h : Held file P s srv) (hc : Core P.parts.length cfg.dwMaxRetries s.book) {k m : ℕ}
    (hk : s.book.pendingList[k]? = some m) (hfin : (s.book.msg m).bComplete = true)
    (hok : (s.book.msg m).error.ifError = false) (del : Bool) :
    Held file P { s with book := s.book.collect k m, pc := .collect k del } srv := by
  have hm : m ∈ s.book.pendingList := List.mem_of_getElem? hk
  have status : ∀ i, ((s.book.collect k m).status i).sETag = (s.book.status i).sETag := by
    intro i
    by_cases hi : i = (s.book.msg m).part
    · subst hi; simp [Book.collect]
    · simp [Book.collect, Book.setStatus_of_ne _ hi]
  have mem : ∀ {m'}, m' ∈ (s.book.collect k m).pendingList → m' ∈ s.book.pendingList :=
    fun hm' => ((hc.mem_eraseIdx hk).1 hm').2
  refine ⟨fun m' hm' => h.unsent m' (mem hm'), fun m' hm' => h.received m' (mem hm'),
    fun m' hm' hres herr => ?_, fun i hi => ?_, h.object, by simp⟩
  · simp only [status]
    exact h.success m' (mem hm') hres herr
  · simp only [status]
    by_cases hne : i = (s.book.msg m).part
    · subst hne
      exact h.success m hm (Phase.hasResult_of_ended (hc.finished m hfin)) hok
    · have hi : ((s.book.collect k m).status i).bComplete = true := hi
      simp only [Book.collect, Book.setStatus_of_ne _ hne] at hi
      exact h.complete i hi

/-- **The parts that are named to the server are the file.** The list for the completion has the
parts in the order of the plan, and their ranges tile the file, so the contents follow each other
without a gap. -/
theorem Held.join (h : Held file P s srv) (hcomp : ∀ i < P.parts.length, (s.book.status i).bComplete = true) :
    srv.join (s.completeList P) = some (P.whole file) := by
  have hheld : ∀ i ∈ List.range P.parts.length, srv.parts (P.part i).uPartNum =
      some ((s.book.status i).sETag, slice file (P.part i).ullBaseOffset (P.part i).ullPartSize) := by
    intro i hi
    rw [List.mem_range] at hi
    rw [P.part_uPartNum hi]
    exact h.complete i (hcomp i hi)
  rw [State.completeList, Server.join_eq hheld, PartList.whole,
    ← P.flatMap_part fun p => slice file p.ullBaseOffset p.ullPartSize]

/-- The upload is completed. -/
theorem Held.completed (h : Held file P s srv) (hv : Inv cfg P s) (hpc : s.pc = .complete) {e : S3Error}
    {kept : Option String} (hsrv : srv.step P s kept (.complete e) = some srv') :
    Held file P { s with
      book := s.book.log (.complete (s.completeList P))
      pc := if e.ifError then .caught e else .returned true e } srv' := by
  have hok := hv.pcOk
  rw [hpc] at hok
  simp only [Server.step, h.join hok, Option.map_some] at hsrv
  split_ifs at hsrv with hmade
  · obtain rfl := Option.some.inj hsrv
    exact ⟨h.unsent, h.received, h.success, h.complete, fun _ hd => (Option.some.inj hd).symm, fun _ _ => rfl⟩
  · obtain rfl := Option.some.inj hsrv
    have he : e.ifError = true := by
      by_contra he
      exact hmade (.inl (by simpa using he))
    exact ⟨h.unsent, h.received, h.success, h.complete, h.object, by simp [he]⟩

/-- **A body as long as the part is the part.** What was popped is the front of the part in any
case, so if it is as long as the part it is the part.  A request that was sent again with nothing
left to pop has no body, and no part is that short. -/
theorem Fed.received {p : PartRange} {f : PartFeed} (hf : Fed file p f) (hp : 0 < p.ullPartSize) {data : Bytes}
    (h : data = body f.streamData.popped ∨ Closed f.streamData.popped ∧ data = [])
    (hlen : data.length = p.ullPartSize) : data = slice file p.ullBaseOffset p.ullPartSize := by
  rcases h with rfl | ⟨-, rfl⟩
  · have hpushed := body_pushed f.streamData
    have hle := hf.le
    have hcur := hf.length
    rw [hpushed, List.length_append] at hcur
    have hqueue : body f.streamData.queue = [] := List.eq_nil_of_length_eq_zero (by omega)
    have heq : f.ullCursor = p.ullPartSize := by omega
    rw [← heq, ← hf.bytes, hpushed, hqueue, List.append_nil]
  · simp at hlen
    omega

/-- A worker pops an entry, and the server receives it. -/
theorem Held.pop (h : Held file P s srv) (hc : Core P.parts.length cfg.dwMaxRetries s.book)
    (hi : FeedInv file cfg P s) {m : ℕ} {entry : StreamDataEntry} {q : StreamData}
    (hp : (s.book.msg m).phase = .sending) (hpop : (s.feed (s.book.msg m).part).streamData.pop = some (entry, q)) :
    Held file P { s.setFeed (s.book.msg m).part { s.feed (s.book.msg m).part with streamData := q } with
      book := if entry.bLast then s.book.sent m else s.book } (srv.receive m (srv.received m ++ entry.data)) := by
  have hm : m ∈ s.book.pendingList := hc.pending (by simp [hp]) (by simp [hp, Phase.ended])
  obtain ⟨hn, -, hcomp⟩ := hc.current m hm
  obtain ⟨hq, hpopped, -⟩ := Channel.pop_eq_some hpop
  have hreceived : srv.received m = body (s.feed (s.book.msg m).part).streamData.popped := by
    refine (h.received m hm (by rw [hp]; rfl)).resolve_right fun hclosed => ?_
    rw [(hi.fed _ hn).marked.queue_eq_nil hclosed.1] at hq
    cases hq
  have hbook : ∀ b, b = (if entry.bLast then s.book.sent m else s.book) → b.pendingList = s.book.pendingList ∧
      b.status = s.book.status ∧ (∀ m', m' ≠ m → b.msg m' = s.book.msg m') ∧
      (b.msg m).part = (s.book.msg m).part ∧ (b.msg m).phase.unsent = false ∧
      (b.msg m).phase.hasResult = false := by
    rintro b rfl
    split_ifs
    · exact ⟨rfl, rfl, fun m' hne => Book.setMsg_of_ne _ hne _, by simp [Book.sent],
        by simp [Book.sent, Phase.unsent], by simp [Book.sent, Phase.hasResult]⟩
    · exact ⟨rfl, rfl, fun _ _ => rfl, rfl, by rw [hp]; rfl, by rw [hp]; rfl⟩
  obtain ⟨hl, hst, hmsg, hpart, hun, hres⟩ := hbook _ rfl
  refine h.worker hc hm hl rfl (fun i _ => by rw [hst]) ?_ hmsg hpart (fun i hne => ?_)
    (fun m' hne => srv.receive_of_ne hne _) (fun _ _ => rfl) rfl (fun hu => ?_) (fun _ => .inl ?_) fun hr => ?_
  · simp only [hst]
    exact hcomp
  · exact Function.update_of_ne hne ..
  · rw [hun] at hu; cases hu
  · simp only [Server.receive_self, State.setFeed, Function.update_self, hpopped, body_append, hreceived,
      body_cons, body_nil, List.append_nil]
  · rw [hres] at hr; cases hr

/-- A request is started, or its message passed over. -/
theorem Held.begin (h : Held file P s srv) (hc : Core P.parts.length cfg.dwMaxRetries s.book) {m : ℕ}
    (hp : (s.book.msg m).phase = .taken) (num : ℕ) :
    Held file P { s with book := if (s.book.msg m).pevMsg then s.book.start m num else s.book.skip m }
      (srv.receive m []) := by
  have hm : m ∈ s.book.pendingList := hc.pending (by simp [hp]) (by simp [hp, Phase.ended])
  obtain ⟨-, -, hcomp⟩ := hc.current m hm
  have hpop := h.unsent m hm (by rw [hp]; rfl)
  split_ifs
  · refine h.worker hc hm rfl rfl (fun i hne => Book.setStatus_of_ne _ hne _) ?_
      (fun m' hne => Book.setMsg_of_ne _ hne _) ?_ (fun _ _ => rfl) (fun m' hne => srv.receive_of_ne hne _)
      (fun _ _ => rfl) rfl ?_ (fun _ => .inl ?_) ?_
    · simp [Book.start, hcomp]
    · simp [Book.start]
    · simp [Book.start, Phase.unsent]
    · simp [hpop]
    · simp [Book.start, Phase.hasResult]
  · refine h.worker hc hm rfl rfl (fun _ _ => rfl) hcomp (fun m' hne => Book.setMsg_of_ne _ hne _) ?_
      (fun _ _ => rfl) (fun m' hne => srv.receive_of_ne hne _) (fun _ _ => rfl) rfl ?_ ?_ ?_
    · simp [Book.skip]
    · simp [Book.skip, Phase.unsent]
    · simp [Book.skip, Phase.inFlight]
    · simp [Book.skip, Phase.hasResult]

/-- A request is sent again: the server receives it from its start, and there is
nothing left to send. -/
theorem Held.resend (h : Held file P s srv) (hc : Core P.parts.length cfg.dwMaxRetries s.book)
    (hi : FeedInv file cfg P s) {m : ℕ} (hp : (s.book.msg m).phase = .responded) :
    Held file P { s with book := s.book.resend m } (srv.receive m []) := by
  have hm : m ∈ s.book.pendingList := hc.pending (by simp [hp]) (by simp [hp, Phase.ended])
  refine h.worker hc hm rfl rfl (fun _ _ => rfl) (hc.current m hm).2.2
    (fun m' hne => Book.setMsg_of_ne _ hne _) ?_ (fun _ _ => rfl) (fun m' hne => srv.receive_of_ne hne _)
    (fun _ _ => rfl) rfl ?_ (fun _ => .inr ⟨hi.fetched.taken m hm (.inr (.inl hp)), srv.receive_self m []⟩) ?_
  · simp [Book.resend]
  · simp [Book.resend, Phase.unsent]
  · simp [Book.resend, Phase.hasResult]

/-- **What a request that succeeds leaves at the server is its part.** The server keeps a body only
if it is as long as was announced, which is as long as the part; and what it received is the front
of what was popped of the part. -/
theorem Held.upload (h : Held file P s srv) (hc : Core P.parts.length cfg.dwMaxRetries s.book)
    (hi : FeedInv file cfg P s) {m : ℕ} (hp : (s.book.msg m).phase.inFlight = true) {e : S3Error}
    {etags : List String} {kept : Option String} (hsrv : srv.step P s kept (.upload m e etags) = some srv') :
    Held file P { s with
      book := s.book.upload m (P.part (s.book.msg m).part).uPartNum e etags } srv' := by
  have hph : (s.book.msg m).phase ≠ .created ∧ (s.book.msg m).phase.ended = false := by
    cases hph : (s.book.msg m).phase <;> simp_all [Phase.inFlight, Phase.ended]
  have hm : m ∈ s.book.pendingList := hc.pending hph.1 hph.2
  obtain ⟨hn, -, hcomp⟩ := hc.current m hm
  -- The books, whatever the result.
  have hbook : ∀ b, b = s.book.upload m (P.part (s.book.msg m).part).uPartNum e etags →
      b.pendingList = s.book.pendingList ∧
      b.status = Function.update s.book.status (s.book.msg m).part
        { s.book.status (s.book.msg m).part with sETag := (s3MultiPartUpload e etags).2 } ∧
      b.msg = Function.update s.book.msg m
        { s.book.msg m with phase := .uploaded, error := (s3MultiPartUpload e etags).1 } := by
    rintro b rfl
    unfold Book.upload
    simp only
    split_ifs <;> exact ⟨rfl, rfl, rfl⟩
  obtain ⟨hl, hst, hmsg⟩ := hbook _ rfl
  -- What the server keeps is the part.
  have hserver : (∃ sETag, srv' = srv.keep ((s.book.msg m).part + 1) sETag (slice file
        (P.part (s.book.msg m).part).ullBaseOffset (P.part (s.book.msg m).part).ullPartSize) ∧
        ((s3MultiPartUpload e etags).1.ifError = false → sETag = (s3MultiPartUpload e etags).2)) ∨
      srv' = srv ∧ (s3MultiPartUpload e etags).1.ifError = true := by
    simp only [Server.step, P.part_uPartNum hn] at hsrv
    split at hsrv
    · rename_i sETag htag
      split_ifs at hsrv with hlen
      obtain rfl := Option.some.inj hsrv
      rw [(hi.fed _ hn).received (P.part_size_pos hn) (h.received m hm hp) hlen]
      refine .inl ⟨sETag, rfl, fun hok => ?_⟩
      rw [hok] at htag
      exact (Option.some.inj htag).symm
    · rename_i htag
      obtain rfl := Option.some.inj hsrv
      refine .inr ⟨rfl, ?_⟩
      by_contra hok
      rw [if_neg hok] at htag
      cases htag
  have hsame : srv'.received = srv.received ∧ srv'.object = srv.object ∧
      ∀ i, i ≠ (s.book.msg m).part → srv'.parts (i + 1) = srv.parts (i + 1) := by
    rcases hserver with ⟨sETag, rfl, -⟩ | ⟨rfl, -⟩
    · exact ⟨rfl, rfl, fun i hne => srv.keep_of_ne (by omega) _ _⟩
    · exact ⟨rfl, rfl, fun _ _ => rfl⟩
  refine h.worker hc hm hl rfl (fun i hne => ?_) ?_ (fun m' hne => ?_) ?_ (fun _ _ => rfl)
    (fun m' _ => by rw [hsame.1]) hsame.2.2 hsame.2.1 (fun hu => ?_) (fun hin => ?_) fun _ hok => ?_
  · simp only [hst, Function.update_of_ne hne]
  · simp only [hst, Function.update_self, hcomp]
  · simp only [hmsg, Function.update_of_ne hne]
  · simp only [hmsg, Function.update_self]
  · simp only [hmsg, Function.update_self, Phase.unsent, Bool.false_eq_true] at hu
  · simp only [hmsg, Function.update_self, Phase.inFlight, Bool.false_eq_true] at hin
  · simp only [hmsg, Function.update_self] at hok
    rcases hserver with ⟨sETag, rfl, htag⟩ | ⟨-, herr⟩
    · simp only [Server.HoldsPart, Server.keep_self, hst, Function.update_self, htag hok]
    · rw [hok] at herr; cases herr

/-- A step of a worker on the books. -/
theorem Held.workerStep (h : Held file P s srv) (hc : Core P.parts.length cfg.dwMaxRetries s.book)
    (hi : FeedInv file cfg P s) {b : Book} {kept : Option String} (hs : s.workerStep P a = some b)
    (hsrv : srv.step P s kept a = some srv') : Held file P { s with book := b } srv' := by
  cases a with
  | take m =>
      simp only [State.workerStep, Option.ite_none_right_eq_some, Option.some.injEq] at hs
      obtain ⟨⟨-, hfind⟩, rfl⟩ := hs
      obtain rfl := Option.some.inj hsrv
      have hp : (s.book.msg m).phase = .queued := by simpa using List.find?_some hfind
      exact h.still (.moved rfl rfl rfl rfl rfl (by rw [hp]; rfl) (by rw [hp]; rfl) (by rw [hp]; rfl) rfl)
        fun _ => id
  | begin m =>
      simp only [State.workerStep, Option.ite_none_right_eq_some, Option.some.injEq] at hs
      obtain ⟨hp, rfl⟩ := hs
      obtain rfl := Option.some.inj hsrv
      exact h.begin hc hp _
  | respond m =>
      simp only [State.workerStep, Option.ite_none_right_eq_some, Option.some.injEq] at hs
      obtain ⟨hp, rfl⟩ := hs
      obtain rfl := Option.some.inj hsrv
      exact h.still (.moved rfl rfl rfl rfl rfl (by rw [hp]; rfl) (by rw [hp]; rfl) (by rw [hp]; rfl) rfl)
        fun _ => id
  | resend m =>
      simp only [State.workerStep, Option.ite_none_right_eq_some, Option.some.injEq] at hs
      obtain ⟨⟨hp, -⟩, rfl⟩ := hs
      obtain rfl := Option.some.inj hsrv
      exact h.resend hc hi hp
  | upload m e etags =>
      simp only [State.workerStep, Option.ite_none_right_eq_some, Option.some.injEq] at hs
      obtain ⟨⟨hp, -⟩, rfl⟩ := hs
      exact h.upload hc hi hp hsrv
  | finish m | remove m =>
      simp only [State.workerStep, Option.ite_none_right_eq_some, Option.some.injEq] at hs
      obtain ⟨hp, rfl⟩ := hs
      obtain rfl := Option.some.inj hsrv
      exact h.still (.moved rfl rfl rfl rfl rfl (by rw [hp]; rfl) (by rw [hp]; rfl) (by rw [hp]; rfl) rfl)
        fun _ => id
  | _ => simp [State.workerStep] at hs

/-- **Every step keeps what the server holds.** The server moves with the steps of a request and
with the completion alone; and no request is made for a complete part, so what it keeps of that part
is not replaced. -/
theorem Held.step (h : Held file P s srv) (hv : Inv cfg P s) (hi : FeedInv file cfg P s) {kept : Option String}
    (hs : s.step cfg P a = some s') (hsrv : srv.step P s kept a = some srv') : Held file P s' srv' := by
  rcases State.step_cases hs with ⟨m, entry, q, rfl, hp, hpop, rfl⟩ | hs | ⟨b, hb, rfl⟩
  · simp only [Server.step, hpop, Option.map_some, Option.some.injEq] at hsrv
    exact hsrv ▸ h.pop hv.core hi hp hpop
  · rcases State.mainStep_cases hv hs with ⟨i, abort, rfl, hproc, rfl⟩ | ⟨k, m, del, rfl, hk, rfl⟩ |
      ⟨k, m, del, rfl, hk, hfin, hok, rfl⟩ | ⟨e, rfl, hpc, rfl⟩ | ⟨hstill, hpc, hsame⟩
    · exact Option.some.inj hsrv ▸ h.makeMsg hv.core hi hproc
    · exact Option.some.inj hsrv ▸ h.retry hv.core hk del
    · exact Option.some.inj hsrv ▸ h.collect hv.core hk hfin hok del
    · exact h.completed hv hpc hsrv
    · exact Option.some.inj ((hsame srv kept).symm.trans hsrv) ▸ h.still hstill fun e he => absurd he (hpc e)
  · exact h.workerStep hv.core hi hb hsrv

/-- What the server holds in every state of an upload that reads an unchanging
file. -/
theorem held_of_reachable {x : State × Server}
    (h : (exchange cfg P).ReachableBy (fun x a => ReadsFile file x.1 a.1) x) : Held file P x.1 x.2 := by
  refine h.invariant_reachable (I := fun x => Held file P x.1 x.2) (fun x hx => ?_) fun x a y hr hx _ hs => ?_
  · obtain rfl : x = ({}, {}) := hx
    exact .init
  obtain ⟨s, hstep, h⟩ := Option.bind_eq_some_iff.1 hs
  obtain ⟨srv, hsrv, rfl⟩ := Option.map_eq_some_iff.1 h
  have hupload := reachable_of_exchange hr
  exact hx.step (inv_of_reachable hupload) (feedInv_of_reachable hupload) hstep hsrv

/-- **A multipart upload leaves the file behind, or nothing.**  Whatever the order
in which the threads move, whichever requests fail, are repeated or are carried out
though the client hears that they failed: the object is never anything but the
parts of the file in their order, it is there when the upload returns `true`, and
the parts that `DoS3MultiPartUpload` plans are all of the file. -/
theorem object_is_file {x : State × Server}
    (h : (exchange cfg P).ReachableBy (fun x a => ReadsFile file x.1 a.1) x) :
    (∀ data, x.2.object = some data → data = P.whole file) ∧
      (∀ e, x.1.pc = .returned true e → x.2.object = some (P.whole file)) ∧
      ∀ dwPartSize, createPartList file.length dwPartSize = some P → P.whole file = file :=
  have hheld := held_of_reachable h
  ⟨hheld.object, hheld.returned, fun _ => createPartList_tiles⟩

/-- The second part is uploaded twice: the client hears that the first attempt
failed, though the server kept it. -/
def objectRun : List (Action × Option String) :=
  [.initiate {}, .scan false, .seek S_OK, .fillRead S_OK [10, 11], .fillRead S_OK [12],
    .fillRead S_OK [13], .fillRead S_OK [14], .fillDone, .send, .scan false, .seek S_OK,
    .fillRead S_OK [15, 16], .fillRead S_OK [17], .fillDone, .send, .scan false, .take 0, .take 1,
    .begin 0, .begin 1, .pop 0, .pop 1, .pop 1].map (·, none) ++
  [(.upload 1 (.ofWin32 ERROR_OPERATION_ABORTED) [], some "x")] ++
  [.finish 1, .wait false, .collect, .seekRefill S_OK, .refillRead S_OK [13, 14], .refillDone, .collect,
    .remove 1, .collect, .scan false, .scan false, .seek S_OK, .fillRead S_OK [15, 16], .fillRead S_OK [17],
    .fillDone, .send, .scan false, .take 2, .begin 2, .pop 0, .pop 2, .pop 0, .respond 0, .upload 0 {} ["a"],
    .finish 0, .pop 2, .respond 2, .upload 2 {} ["b"], .finish 2, .wait false, .collect, .collect, .collect,
    .scan false, .scan false, .scan false, .complete {}].map (·, none)

/-- `object_is_file` on that run. A file of eight bytes in two parts is read, hashed, uploaded and
completed, and the object is those eight bytes. -/
theorem object_is_file_run : ∃ x, (exchange hashed shortParts).Reachable x ∧ x.1.pc = .returned true {} ∧
    x.2.object = some eightBytes := by
  have hrun : (((exchange hashed shortParts).restrict fun x a => ReadsFile eightBytes x.1 a.1).run objectRun
      ({}, {})).map (fun x => x.1.pc) = some (.returned true {}) := by
    decide +kernel
  obtain ⟨x, hx, hpc⟩ := Option.map_eq_some_iff.1 hrun
  have h : (exchange hashed shortParts).ReachableBy (fun x a => ReadsFile eightBytes x.1 a.1) x :=
    .run_restrict _ (.init rfl) hx
  obtain ⟨-, hobject, -⟩ := object_is_file h
  exact ⟨x, h.reachable, hpc, hobject {} hpc⟩

end Multipart
end ECSUtil

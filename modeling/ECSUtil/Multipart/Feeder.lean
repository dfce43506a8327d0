/-
# The feeder delivers each part exactly

The data side of `DoS3MultiPartUpload` (`ECSUtil/FileSupport.cpp`): the initial
fill, which may read the whole part for its checksum but queues only its start,
the refill from `ullCursor`, and the reset of both by a retry.  The runs are those
whose reads of the file deliver bytes that the unchanging file holds at the seek
pointer, one at least (`ReadsFile`).

`Fed` is what the queue of a part is at any time: the entries pushed since it was
last cleared are the start of the part up to the cursor, and the last of them is
marked `bLast`, and no other, exactly when the cursor is at the end of the part.
-/

import ECSUtil.Multipart.Complete

namespace ECSUtil
namespace Multipart

/-- The result of a read of the file, and what it delivered. -/
def Action.read : Action → Option (DWORD × Bytes)
  | .fillRead hr data | .refillRead hr data => some (hr, data)
  | _ => none

/-- A read of the file that does not fail delivers what the file holds at the seek
pointer, and something of it. -/
def ReadsFile (file : Bytes) (s : State) (a : Action) : Prop :=
  ∀ r ∈ a.read, r.1 = S_OK ∨ r.1 = S_FALSE →
    0 < r.2.length ∧ r.2 = slice file s.position r.2.length

instance (file : Bytes) (s : State) (a : Action) : Decidable (ReadsFile file s a) :=
  inferInstanceAs (Decidable (∀ r ∈ a.read, _))

/-- What was pushed of a part since its queue was last cleared. -/
structure Fed (file : Bytes) (p : PartRange) (f : PartFeed) : Prop where
  bytes : body f.streamData.pushed = slice file p.ullBaseOffset f.ullCursor
  length : (body f.streamData.pushed).length = f.ullCursor
  le : f.ullCursor ≤ p.ullPartSize
  unfinished : f.ullCursor < p.ullPartSize → Open f.streamData.pushed
  finished : f.ullCursor = p.ullPartSize → Closed f.streamData.pushed

/-- In a queue that was fed, only the last entry of a part is marked. -/
theorem Fed.marked {file : Bytes} {p : PartRange} {f : PartFeed} (h : Fed file p f) :
    Marked f.streamData.pushed := by
  rcases Nat.lt_or_eq_of_le h.le with hlt | heq
  · exact .inl (h.unfinished hlt)
  · exact .inr (h.finished heq)

/-- A part of which nothing was pushed. -/
theorem Fed.fresh (file : Bytes) {p : PartRange} (hp : 0 < p.ullPartSize) (checksum : Bytes) :
    Fed file p { checksum := checksum } where
  bytes := rfl
  length := rfl
  le := Nat.zero_le _
  unfinished _ := open_nil
  finished h := absurd h (by simp; omega)

/-- **A push of what was read at the cursor keeps the part fed**, the entry being
marked `bLast` exactly when it ends the part. -/
theorem Fed.push {file : Bytes} {p : PartRange} {f : PartFeed} (h : Fed file p f) {data : Bytes}
    {bLast : Bool} (hdata : data = slice file (p.ullBaseOffset + f.ullCursor) data.length)
    (hle : f.ullCursor + data.length ≤ p.ullPartSize) (hlt : f.ullCursor < p.ullPartSize)
    (hlast : bLast = true ↔ f.ullCursor + data.length = p.ullPartSize) :
    Fed file p { f with
      streamData := f.streamData.push { data := data, bLast := bLast }
      ullCursor := f.ullCursor + data.length } where
  bytes := by
    simp only [Channel.push_pushed, body_append, h.bytes, body_cons, body_nil, List.append_nil]
    exact slice_append_read hdata
  length := by simp [h.length]
  le := hle
  unfinished hlt' := by
    have : bLast = false := by
      rw [← Bool.not_eq_true, hlast]
      exact Nat.ne_of_lt hlt'
    exact (h.unfinished hlt).append (by simp [Open, this])
  finished heq := (h.unfinished hlt).closed (hlast.2 heq)

/-- A pop leaves what was pushed. -/
theorem Fed.pop {file : Bytes} {p : PartRange} {f : PartFeed} (h : Fed file p f) {q : StreamData}
    (hq : q.pushed = f.streamData.pushed) : Fed file p { f with streamData := q } where
  bytes := by simpa only [hq] using h.bytes
  length := by simpa only [hq] using h.length
  le := h.le
  unfinished := by simpa only [hq] using h.unfinished
  finished := by simpa only [hq] using h.finished

/-- What the program counter says about the data of the part it is at: at the
initial fill the seek pointer is where the bytes to go begin, and so is the cursor
until the queue is full; at the refill the seek pointer is at the cursor. -/
def FeedPc (file : Bytes) (cfg : Config) (P : PartList) (s : State) : Prop :=
  match s.pc with
  | .seek i _ => (s.feed i).ullCursor = 0 ∧ (cfg.bChecksum = true → s.msgHash = [])
  | .fill i _ rest rec =>
      rest ≤ (P.part i).ullPartSize ∧
        s.position = (P.part i).ullBaseOffset + ((P.part i).ullPartSize - rest) ∧
        (rec < cfg.queueSize → (s.feed i).ullCursor + rest = (P.part i).ullPartSize) ∧
        (cfg.bChecksum = true → s.msgHash =
          slice file (P.part i).ullBaseOffset ((P.part i).ullPartSize - rest))
  | .send i _ => cfg.bChecksum = true →
      (s.feed i).checksum = slice file (P.part i).ullBaseOffset (P.part i).ullPartSize
  | .refill _ m _ => s.position =
      (P.part (s.book.msg m).part).ullBaseOffset + (s.feed (s.book.msg m).part).ullCursor
  | _ => True

/-- What the workers have popped: a message that is behind its send loop, or
succeeded, has popped the `bLast` entry of its part, and so has a complete part. -/
structure Fetched (b : Book) (feed : ℕ → PartFeed) : Prop where
  taken : ∀ m ∈ b.pendingList, (b.msg m).phase = .sent ∨ (b.msg m).phase = .responded ∨
    (b.msg m).bGotServerResponse = true → Closed (feed (b.msg m).part).streamData.popped
  success : ∀ m ∈ b.pendingList, (b.msg m).phase.hasResult = true →
    (b.msg m).error.ifError = false → Closed (feed (b.msg m).part).streamData.popped
  complete : ∀ i, (b.status i).bComplete = true → Closed (feed i).streamData.popped

/-- What holds of the data in every state of an upload. -/
structure FeedInv (file : Bytes) (cfg : Config) (P : PartList) (s : State) : Prop where
  fed : ∀ i < P.parts.length, Fed file (P.part i) (s.feed i)
  /-- A part that is not in process has an empty queue. -/
  idle : ∀ i, (s.book.status i).bInProcess = false → s.feed i = {}
  feedPc : FeedPc file cfg P s
  fetched : Fetched s.book s.feed

variable {file : Bytes} {cfg : Config} {P : PartList} {s s' : State} {a : Action}

/-- The invariant holds before the first step. -/
theorem FeedInv.init : FeedInv file cfg P {} where
  fed _ hi := .fresh file (P.part_size_pos hi) []
  idle _ _ := rfl
  feedPc := trivial
  fetched := ⟨by simp, by simp, by simp⟩

/-- A change of the books that leaves alone what the data depend on. -/
theorem Fetched.frame {b b' : Book} {feed : ℕ → PartFeed} (h : Fetched b feed)
    (hlist : b'.pendingList = b.pendingList)
    (hcomp : ∀ i, (b'.status i).bComplete = (b.status i).bComplete)
    (hpart : ∀ m, (b'.msg m).part = (b.msg m).part)
    (hmsg : ∀ m ∈ b.pendingList, b'.msg m = b.msg m ∨
      ((b'.msg m).phase = .sent ∨ (b'.msg m).phase = .responded ∨
        (b'.msg m).bGotServerResponse = true → Closed (feed (b.msg m).part).streamData.popped) ∧
      ((b'.msg m).phase.hasResult = true → (b'.msg m).error.ifError = false →
        Closed (feed (b.msg m).part).streamData.popped)) : Fetched b' feed where
  taken m hm hp := by
    rw [hlist] at hm
    rw [hpart]
    rcases hmsg m hm with h' | h'
    · rw [h'] at hp; exact h.taken m hm hp
    · exact h'.1 hp
  success m hm hr he := by
    rw [hlist] at hm
    rw [hpart]
    rcases hmsg m hm with h' | h'
    · rw [h'] at hr he; exact h.success m hm hr he
    · exact h'.2 hr he
  complete i hi := h.complete i (by rwa [hcomp] at hi)

/-- The change of one message leaves the others alone. -/
theorem hmsg_setMsg {b b' : Book} {feed : ℕ → PartFeed} {m : ℕ}
    (hne : ∀ m', m' ≠ m → b'.msg m' = b.msg m')
    (h : m ∈ b.pendingList →
      ((b'.msg m).phase = .sent ∨ (b'.msg m).phase = .responded ∨
        (b'.msg m).bGotServerResponse = true → Closed (feed (b.msg m).part).streamData.popped) ∧
      ((b'.msg m).phase.hasResult = true → (b'.msg m).error.ifError = false →
        Closed (feed (b.msg m).part).streamData.popped)) :
    ∀ m' ∈ b.pendingList, b'.msg m' = b.msg m' ∨
      ((b'.msg m').phase = .sent ∨ (b'.msg m').phase = .responded ∨
        (b'.msg m').bGotServerResponse = true → Closed (feed (b.msg m').part).streamData.popped) ∧
      ((b'.msg m').phase.hasResult = true → (b'.msg m').error.ifError = false →
        Closed (feed (b.msg m').part).streamData.popped) := by
  intro m' hm'
  by_cases heq : m' = m
  · subst heq; exact .inr (h hm')
  · exact .inl (hne m' heq)

/-- **A worker calls its request a success only after it popped the `bLast`
entry.** -/
theorem Fetched.workerStep {b : Book} (h : Fetched s.book s.feed)
    (hf : Frame s.book b) (hs : s.workerStep P a = some b) : Fetched b s.feed := by
  refine h.frame hf.pendingList hf.bComplete hf.part ?_
  cases a with
  | take m =>
      simp only [State.workerStep, Option.ite_none_right_eq_some, Option.some.injEq] at hs
      obtain ⟨-, rfl⟩ := hs
      refine hmsg_setMsg (m := m) (fun m' => (Book.setMsg_of_ne _ · _)) fun hm => ?_
      simp only [Book.take, Book.setMsg_self]
      exact ⟨fun hp => h.taken m hm (.inr (.inr (by simpa using hp))), by simp [Phase.hasResult]⟩
  | begin m =>
      simp only [State.workerStep, Option.ite_none_right_eq_some, Option.some.injEq] at hs
      obtain ⟨-, rfl⟩ := hs
      split_ifs
      · refine hmsg_setMsg (m := m) (fun m' hne => ?_) fun hm => ?_
        · simp [Book.start, Book.setMsg_of_ne _ hne]
        · simp only [Book.start, Book.log_msg, Book.setMsg_self]
          exact ⟨fun hp => h.taken m hm (.inr (.inr (by simpa using hp))), by simp [Phase.hasResult]⟩
      · refine hmsg_setMsg (m := m) (fun m' => (Book.setMsg_of_ne _ · _)) fun hm => ?_
        simp only [Book.skip, Book.setMsg_self]
        exact ⟨fun hp => h.taken m hm (.inr (.inr (by simpa using hp))), by simp [Phase.hasResult]⟩
  | respond m =>
      simp only [State.workerStep, Option.ite_none_right_eq_some, Option.some.injEq] at hs
      obtain ⟨hp, rfl⟩ := hs
      refine hmsg_setMsg (m := m) (fun m' => (Book.setMsg_of_ne _ · _)) fun hm => ?_
      simp only [Book.respond, Book.setMsg_self]
      exact ⟨fun _ => h.taken m hm (.inl hp), by simp [Phase.hasResult]⟩
  | resend m =>
      simp only [State.workerStep, Option.ite_none_right_eq_some, Option.some.injEq] at hs
      obtain ⟨⟨hp, -⟩, rfl⟩ := hs
      refine hmsg_setMsg (m := m) (fun m' => (Book.setMsg_of_ne _ · _)) fun hm => ?_
      simp only [Book.resend, Book.setMsg_self]
      exact ⟨fun _ => h.taken m hm (.inr (.inl hp)), by simp [Phase.hasResult]⟩
  | upload m e etags =>
      simp only [State.workerStep, Option.ite_none_right_eq_some, Option.some.injEq] at hs
      obtain ⟨⟨-, hok⟩, rfl⟩ := hs
      have hmsg : ∀ m', (s.book.upload m (P.part (s.book.msg m).part).uPartNum e etags).msg m' =
          (s.book.setMsg m { s.book.msg m with
            phase := .uploaded, error := (s3MultiPartUpload e etags).1 }).msg m' := by
        intro m'
        unfold Book.upload
        simp only
        split_ifs <;> rfl
      refine hmsg_setMsg (m := m) (fun m' hne => ?_) fun hm => ?_
      · rw [hmsg, Book.setMsg_of_ne _ hne]
      · rw [hmsg, Book.setMsg_self]
        refine ⟨fun hp => h.taken m hm (.inr (.inr (by simpa using hp))), fun _ he => ?_⟩
        refine h.taken m hm (.inr (.inr (hok.resolve_left fun herr => ?_)))
        simp [s3MultiPartUpload, herr] at he
  | finish m =>
      simp only [State.workerStep, Option.ite_none_right_eq_some, Option.some.injEq] at hs
      obtain ⟨hp, rfl⟩ := hs
      refine hmsg_setMsg (m := m) (fun m' => (Book.setMsg_of_ne _ · _)) fun hm => ?_
      simp only [Book.finish, Book.setMsg_self]
      exact ⟨fun hg => h.taken m hm (.inr (.inr (by simpa using hg))),
        fun _ he => h.success m hm (by simp [hp, Phase.hasResult]) he⟩
  | remove m =>
      simp only [State.workerStep, Option.ite_none_right_eq_some, Option.some.injEq] at hs
      obtain ⟨hp, rfl⟩ := hs
      refine hmsg_setMsg (m := m) (fun m' => (Book.setMsg_of_ne _ · _)) fun hm => ?_
      simp only [Book.remove, Book.setMsg_self]
      exact ⟨fun hg => h.taken m hm (.inr (.inr (by simpa using hg))),
        fun _ he => h.success m hm (by simp [hp, Phase.hasResult]) he⟩
  | _ => simp [State.workerStep] at hs

/-- The program counter stays right when a worker moves. -/
theorem FeedPc.frame {b : Book} (h : FeedPc file cfg P s) (hf : Frame s.book b) :
    FeedPc file cfg P { s with book := b } := by
  unfold FeedPc at h ⊢
  cases hpc : s.pc <;> simp only [hpc] at h ⊢
  all_goals first | exact h | (rw [hf.part]; exact h)

/-- **A pop keeps what holds of the data.** The entry goes from the queue of the part to what was
popped of it; the two together are what was read of the part, which stays as it is. -/
theorem FeedInv.pop (hc : Core P.parts.length cfg.dwMaxRetries s.book)
    (hi : FeedInv file cfg P s) {m : ℕ}
    {entry : StreamDataEntry} {q : StreamData} (hp : (s.book.msg m).phase = .sending)
    (hpop : (s.feed (s.book.msg m).part).streamData.pop = some (entry, q)) :
    FeedInv file cfg P { s.setFeed (s.book.msg m).part
        { s.feed (s.book.msg m).part with streamData := q } with
      book := if entry.bLast then s.book.sent m else s.book } := by
  have hm : m ∈ s.book.pendingList := hc.pending (by simp [hp]) (by simp [hp, Phase.ended])
  obtain ⟨hn, hproc, hcomp⟩ := hc.current m hm
  obtain ⟨hq, -, hpushed⟩ := Channel.pop_eq_some hpop
  have hmark := (hi.fed _ hn).marked
  have hnot : ¬Closed (s.feed (s.book.msg m).part).streamData.popped := fun h => by
    simp [hmark.queue_eq_nil h] at hq
  generalize hb : (if entry.bLast then s.book.sent m else s.book) = b
  have hf : Frame s.book b := by
    rw [← hb]
    split_ifs
    · exact .setMsg (by simp [hp]) rfl
    · exact ⟨rfl, fun _ => rfl, fun _ => rfl, fun _ _ => rfl, fun _ => rfl, .inl rfl⟩
  let feed' := Function.update s.feed (s.book.msg m).part
    { s.feed (s.book.msg m).part with streamData := q }
  have here : feed' (s.book.msg m).part =
      { s.feed (s.book.msg m).part with streamData := q } := Function.update_self ..
  have other : ∀ {i}, i ≠ (s.book.msg m).part → feed' i = s.feed i := fun h =>
    Function.update_of_ne h ..
  have same : ∀ i, (feed' i).ullCursor = (s.feed i).ullCursor ∧
      (feed' i).checksum = (s.feed i).checksum := by
    intro i
    by_cases h : i = (s.book.msg m).part
    · subst h; rw [here]; exact ⟨rfl, rfl⟩
    · rw [other h]; exact ⟨rfl, rfl⟩
  -- Nothing else of the books or of the other parts has changed.
  have others : Fetched b feed' := by
    have hpart : ∀ m' ∈ s.book.pendingList, m' ≠ m → (s.book.msg m').part ≠ (s.book.msg m).part :=
      fun m' hm' hne h => hne (hc.distinct m' hm' m hm h)
    have hmsg : ∀ m', m' ≠ m → b.msg m' = s.book.msg m' := by
      intro m' hne
      rw [← hb]
      split_ifs
      · exact Book.setMsg_of_ne _ hne _
      · rfl
    refine ⟨fun m' hm' h => ?_, fun m' hm' hr he => ?_, fun i h => ?_⟩
    · rw [hf.pendingList] at hm'
      rw [hf.part]
      by_cases hne : m' = m
      · subst hne
        rw [here]
        cases hl : entry.bLast with
        | true => exact (hmark.pop_last hpop hl).2.2
        | false =>
            rw [← hb, hl] at h
            exact absurd (hi.fetched.taken m' hm' h) hnot
      · rw [hmsg m' hne] at h
        rw [other (hpart m' hm' hne)]
        exact hi.fetched.taken m' hm' h
    · rw [hf.pendingList] at hm'
      rw [hf.part]
      by_cases hne : m' = m
      · subst hne
        rw [← hb] at hr
        split_ifs at hr <;> simp [Book.sent, hp, Phase.hasResult] at hr
      · rw [hmsg m' hne] at hr he
        rw [other (hpart m' hm' hne)]
        exact hi.fetched.success m' hm' hr he
    · rw [hf.bComplete] at h
      have hne : i ≠ (s.book.msg m).part := by
        rintro rfl
        rw [hcomp] at h
        simp at h
      rw [other hne]
      exact hi.fetched.complete i h
  refine ⟨fun i hin => ?_, fun i h => ?_, ?_, others⟩
  · show Fed file (P.part i) (feed' i)
    by_cases h : i = (s.book.msg m).part
    · subst h; rw [here]; exact (hi.fed _ hn).pop hpushed
    · rw [other h]; exact hi.fed i hin
  · show feed' i = {}
    have h : (b.status i).bInProcess = false := h
    rw [hf.bInProcess] at h
    have hne : i ≠ (s.book.msg m).part := by
      rintro rfl
      rw [hproc] at h
      simp at h
    rw [other hne]
    exact hi.idle i h
  · have h := hi.feedPc
    unfold FeedPc at h ⊢
    cases hpc : s.pc <;> simp only [hpc, State.setFeed] at h ⊢
    case seek i _ =>
      change (feed' i).ullCursor = 0 ∧ _
      rwa [(same i).1]
    case fill i _ rest rec =>
      change _ ∧ _ ∧ (_ → (feed' i).ullCursor + rest = _) ∧ _
      rwa [(same i).1]
    case send i _ =>
      change _ → (feed' i).checksum = _
      rwa [(same i).2]
    case refill _ m' _ =>
      change _ = _ + (feed' (b.msg m').part).ullCursor
      rwa [hf.part, (same _).1]

/-- A step that leaves the data alone, and of the books what they depend on. -/
theorem FeedInv.sameData (hi : FeedInv file cfg P s) (hf : s'.feed = s.feed)
    (hst : ∀ j, (s'.book.status j).bInProcess = (s.book.status j).bInProcess)
    (hb : Fetched s'.book s.feed) (hpc : FeedPc file cfg P s') : FeedInv file cfg P s' :=
  ⟨by rw [hf]; exact hi.fed, by rw [hf]; exact fun j h => hi.idle j (by rwa [hst] at h), hpc,
    by rw [hf]; exact hb⟩

/-- A step that changes the data of one part in process, but not what was popped
of it. -/
theorem FeedInv.setFeed (hi : FeedInv file cfg P s) {i : ℕ} {f : PartFeed}
    (hfed : i < P.parts.length → Fed file (P.part i) f)
    (hproc : (s.book.status i).bInProcess = true)
    (hpop : f.streamData.popped = (s.feed i).streamData.popped) (hb : s'.book = s.book)
    (hf : s'.feed = Function.update s.feed i f) (hpc : FeedPc file cfg P s') :
    FeedInv file cfg P s' := by
  have popped : ∀ j, (s'.feed j).streamData.popped = (s.feed j).streamData.popped := by
    intro j
    rw [hf]
    by_cases h : j = i
    · subst h; rw [Function.update_self]; exact hpop
    · rw [Function.update_of_ne h]
  refine ⟨fun j hj => ?_, fun j h => ?_, hpc, fun m hm h => ?_, fun m hm hr he => ?_, fun j h => ?_⟩
  · rw [hf]
    by_cases h : j = i
    · subst h; rw [Function.update_self]; exact hfed hj
    · rw [Function.update_of_ne h]; exact hi.fed j hj
  · rw [hb] at h
    have hne : j ≠ i := by
      rintro rfl
      rw [hproc] at h
      simp at h
    rw [hf, Function.update_of_ne hne]
    exact hi.idle j h
  · rw [hb] at hm h ⊢
    rw [popped]
    exact hi.fetched.taken m hm h
  · rw [hb] at hm hr he ⊢
    rw [popped]
    exact hi.fetched.success m hm hr he
  · rw [hb] at h
    rw [popped]
    exact hi.fetched.complete j h

/-- **A part whose message is made starts with an empty queue.** The part was not in process, so its
queue is as empty as at first and its cursor at the start, whatever became of the attempts before. -/
theorem FeedInv.makeMsg (hc : Core P.parts.length cfg.dwMaxRetries s.book)
    (hi : FeedInv file cfg P s) {i : ℕ} (hproc : (s.book.status i).bInProcess = false)
    (hcomp : (s.book.status i).bComplete = false) : FeedInv file cfg P (s.makeMsg cfg i) := by
  have hempty : s.feed i = {} := hi.idle i hproc
  have hfeed : (s.makeMsg cfg i).feed = s.feed := by
    simp [State.makeMsg, State.setFeed, hempty]
  have hnew : s.book.nextMsg ∉ s.book.pendingList := fun h => absurd (hc.pending_lt _ h) (by omega)
  have status : ∀ j, ((s.makeMsg cfg i).book.status j).bComplete = (s.book.status j).bComplete := by
    intro j
    by_cases h : j = i
    · subst h; simp [State.makeMsg, Book.create]
    · simp [State.makeMsg, Book.create, h]
  have msg : ∀ {m}, m ∈ (s.makeMsg cfg i).book.pendingList →
      (s.makeMsg cfg i).book.msg m = { part := i } ∨
        m ∈ s.book.pendingList ∧ (s.makeMsg cfg i).book.msg m = s.book.msg m := by
    intro m hm
    rcases List.mem_append.1 hm with hm | hm
    · have hne : m ≠ s.book.nextMsg := fun h => hnew (h ▸ hm)
      exact .inr ⟨hm, Function.update_of_ne hne ..⟩
    · obtain rfl : m = s.book.nextMsg := by simpa using hm
      exact .inl (Function.update_self ..)
  refine ⟨by rw [hfeed]; exact hi.fed, fun j h => ?_, ⟨?_, fun hb => ?_⟩, ?_, ?_, ?_⟩
  · rw [hfeed]
    by_cases hj : j = i
    · subst hj; exact hempty
    · exact hi.idle j (by simpa [State.makeMsg, Book.create, hj] using h)
  · rw [hfeed, hempty]
  · simp [State.makeMsg, hb]
  · intro m hm h
    rw [hfeed]
    rcases msg hm with hmsg | ⟨hm, hmsg⟩ <;> rw [hmsg] at h ⊢
    · simp at h
    · exact hi.fetched.taken m hm h
  · intro m hm hr he
    rw [hfeed]
    rcases msg hm with hmsg | ⟨hm, hmsg⟩ <;> rw [hmsg] at hr he ⊢
    · simp [Phase.hasResult] at hr
    · exact hi.fetched.success m hm hr he
  · intro j h
    rw [hfeed]
    rw [status] at h
    exact hi.fetched.complete j h

/-- **A retry empties the queue of its part**, and a completed part keeps its. The message that is
collected is of an attempt that ended, so nobody pops from the queue any more.  For a retry the
cursor goes back to the start of the part. -/
theorem FeedInv.collectStep (hc : Core P.parts.length cfg.dwMaxRetries s.book)
    (hi : FeedInv file cfg P s) {k m : ℕ} (hk : s.book.pendingList[k]? = some m) (del : Bool) :
    FeedInv file cfg P (s.collectStep cfg k m del) := by
  have hm : m ∈ s.book.pendingList := List.mem_of_getElem? hk
  have nopart : ∀ {m'}, m' ∈ s.book.pendingList.eraseIdx k →
      m' ≠ m ∧ m' ∈ s.book.pendingList ∧ (s.book.msg m').part ≠ (s.book.msg m).part := by
    intro m' h
    have h := (hc.mem_eraseIdx hk).1 h
    exact ⟨h.1, h.2, fun hp => h.1 (hc.distinct _ h.2 m hm hp)⟩
  unfold State.collectStep
  simp only
  split_ifs with hfin herr hret
  · exact hi.sameData rfl (fun _ => rfl) hi.fetched trivial
  · -- The part goes back, with nothing in its queue.
    let feed' := Function.update s.feed (s.book.msg m).part {}
    have other : ∀ {i}, i ≠ (s.book.msg m).part → feed' i = s.feed i := fun h =>
      Function.update_of_ne h ..
    have hmsg : ∀ {m'}, m' ≠ m → (s.book.retry k m).msg m' = s.book.msg m' := by
      intro m' h
      simp [Book.retry, Book.setMsg_of_ne _ h]
    have hst : ∀ {i}, i ≠ (s.book.msg m).part → (s.book.retry k m).status i = s.book.status i := by
      intro i h
      simp [Book.retry, Book.setStatus_of_ne _ h]
    refine ⟨fun i hin => ?_, fun i h => ?_, trivial, fun m' hm' h => ?_, fun m' hm' hr he => ?_,
      fun i h => ?_⟩
    · show Fed file (P.part i) (feed' i)
      by_cases hi' : i = (s.book.msg m).part
      · subst hi'
        simp only [feed', Function.update_self]
        exact .fresh file (P.part_size_pos hin) []
      · rw [other hi']; exact hi.fed i hin
    · show feed' i = {}
      by_cases hi' : i = (s.book.msg m).part
      · subst hi'; exact Function.update_self ..
      · have h : ((s.book.retry k m).status i).bInProcess = false := h
        rw [hst hi'] at h
        rw [other hi']
        exact hi.idle i h
    · obtain ⟨hne, hmem, hp⟩ := nopart hm'
      have h : ((s.book.retry k m).msg m').phase = .sent ∨ _ ∨ _ := h
      show Closed (feed' ((s.book.retry k m).msg m').part).streamData.popped
      rw [hmsg hne] at h ⊢
      rw [other hp]
      exact hi.fetched.taken m' hmem h
    · obtain ⟨hne, hmem, hp⟩ := nopart hm'
      have hr : ((s.book.retry k m).msg m').phase.hasResult = true := hr
      have he : ((s.book.retry k m).msg m').error.ifError = false := he
      show Closed (feed' ((s.book.retry k m).msg m').part).streamData.popped
      rw [hmsg hne] at hr he ⊢
      rw [other hp]
      exact hi.fetched.success m' hmem hr he
    · have h : ((s.book.retry k m).status i).bComplete = true := h
      have hi' : i ≠ (s.book.msg m).part := by
        rintro rfl
        simp [Book.retry] at h
      show Closed (feed' i).streamData.popped
      rw [hst hi'] at h
      rw [other hi']
      exact hi.fetched.complete i h
  · have hst : ∀ {i}, i ≠ (s.book.msg m).part →
        (s.book.collect k m).status i = s.book.status i := by
      intro i h
      simp [Book.collect, Book.setStatus_of_ne _ h]
    refine hi.sameData rfl (fun i => ?_) ⟨fun m' hm' h => ?_, fun m' hm' hr he => ?_, fun i h => ?_⟩
      trivial
    · by_cases h : i = (s.book.msg m).part
      · subst h; simp [Book.collect]
      · simp only [hst h]
    · exact hi.fetched.taken m' (nopart hm').2.1 h
    · exact hi.fetched.success m' (nopart hm').2.1 hr he
    · by_cases hi' : i = (s.book.msg m).part
      · subst hi'
        exact hi.fetched.success m hm (Phase.hasResult_of_ended (hc.finished m hfin))
          (by simpa using herr)
      · have h : ((s.book.collect k m).status i).bComplete = true := h
        rw [hst hi'] at h
        exact hi.fetched.complete i h
  · exact hi.sameData rfl (fun _ => rfl) hi.fetched trivial

/-- The scan keeps what holds of the data. -/
theorem FeedInv.scanStep (hc : Core P.parts.length cfg.dwMaxRetries s.book)
    (hi : FeedInv file cfg P s) (i : ℕ) (e abort : Bool) :
    FeedInv file cfg P (s.scanStep cfg P i e abort) := by
  unfold State.scanStep
  split_ifs with hlt hcomp hproc hroom habort
  · exact hi.sameData rfl (fun _ => rfl) hi.fetched trivial
  · exact hi.sameData rfl (fun _ => rfl) hi.fetched trivial
  · exact hi.sameData rfl (fun _ => rfl) hi.fetched trivial
  · exact hi.sameData rfl (fun _ => rfl) hi.fetched trivial
  · exact hi.makeMsg hc (by simpa using hproc) (by simpa using hcomp)
  · exact hi.sameData rfl (fun _ => rfl) hi.fetched trivial
  · exact hi.sameData rfl (fun _ => rfl) hi.fetched trivial

/-- **One turn of the initial fill**: what was read is hashed, and queued while the
queue has room. -/
theorem FeedInv.fillStep (hi : FeedInv file cfg P s) {i m rest rec : ℕ}
    (hpc : s.pc = .fill i m rest rec) (hproc : (s.book.status i).bInProcess = true)
    (hgo : State.FillGoesOn cfg rest rec) {data : Bytes} (hle : data.length ≤ rest) (hlen : 0 < data.length)
    (hdata : data = slice file s.position data.length) :
    FeedInv file cfg P (s.fillStep cfg i m rest rec data) := by
  have hpcs := hi.feedPc
  simp only [FeedPc, hpc] at hpcs
  obtain ⟨hrest, hpos, hcur, hhash⟩ := hpcs
  have hrest0 : 0 < rest := hgo.1
  have hpos' : s.position + data.length =
      (P.part i).ullBaseOffset + ((P.part i).ullPartSize - (rest - data.length)) := by omega
  have hhash' : cfg.bChecksum = true → (if cfg.bChecksum then s.msgHash ++ data else s.msgHash) =
      slice file (P.part i).ullBaseOffset ((P.part i).ullPartSize - (rest - data.length)) := by
    intro hb
    rw [if_pos hb, hhash hb, slice_append_read (by rw [← hpos]; exact hdata)]
    congr 1
    omega
  unfold State.fillStep
  simp only
  by_cases hroom : rec < cfg.queueSize
  · rw [if_pos hroom]
    have hcur := hcur hroom
    have hseek : s.position = (P.part i).ullBaseOffset + (s.feed i).ullCursor := by omega
    have hlast : decide (rest = data.length) = true ↔
        (s.feed i).ullCursor + data.length = (P.part i).ullPartSize := by
      rw [decide_eq_true_iff]; omega
    refine hi.setFeed (fun hin => (hi.fed i hin).push (hseek ▸ hdata) (by omega) (by omega) hlast)
      hproc rfl rfl rfl ?_
    · refine ⟨by omega, hpos', fun _ => ?_, hhash'⟩
      simp only [State.pushEntry, State.setFeed, Function.update_self]
      omega
  · rw [if_neg hroom]
    exact hi.sameData rfl (fun _ => rfl) hi.fetched
      ⟨by omega, hpos', fun h => absurd h hroom, hhash'⟩

/-- **The end of the initial fill**: with a checksum, it is of the whole part. The fill goes on to
the end of the part for its checksum, though only the start of the part is queued, so what was
hashed by then is all of it. -/
theorem FeedInv.fillDone (hi : FeedInv file cfg P s) {i m rest rec : ℕ}
    (hpc : s.pc = .fill i m rest rec) (hproc : (s.book.status i).bInProcess = true)
    (hgo : ¬State.FillGoesOn cfg rest rec) :
    FeedInv file cfg P { s.setFeed i { s.feed i with
        checksum := if cfg.bChecksum then s.msgHash else (s.feed i).checksum } with
      pc := .send i m } := by
  have hpcs := hi.feedPc
  simp only [FeedPc, hpc] at hpcs
  obtain ⟨-, -, -, hhash⟩ := hpcs
  refine hi.setFeed (f := { s.feed i with
      checksum := if cfg.bChecksum then s.msgHash else (s.feed i).checksum })
    (fun hin => ?_) hproc rfl rfl rfl fun hb => ?_
  · have h := hi.fed i hin
    exact ⟨h.1, h.2, h.3, h.4, h.5⟩
  · have hrest : rest = 0 := by
      by_contra h
      exact hgo ⟨by omega, .inl hb⟩
    simp only [State.setFeed, Function.update_self, if_pos hb]
    rw [hhash hb, hrest, Nat.sub_zero]

/-- **One turn of the refill.** The file is read from where the cursor of the part is, for no more
than the part has left; so what is added to the queue continues what was there. -/
theorem FeedInv.refillStep (hi : FeedInv file cfg P s) {k m : ℕ} {del : Bool}
    (hpc : s.pc = .refill k m del)
    (hproc : (s.book.status (s.book.msg m).part).bInProcess = true)
    (hgo : s.RefillGoesOn cfg P (s.book.msg m).part) {data : Bytes}
    (hle : data.length ≤ (P.part (s.book.msg m).part).ullPartSize -
      (s.feed (s.book.msg m).part).ullCursor)
    (hdata : data = slice file s.position data.length) :
    FeedInv file cfg P (s.refillStep P (s.book.msg m).part data) := by
  have hpos := hi.feedPc
  simp only [FeedPc, hpc] at hpos
  have hlt := hgo.2
  have hlast : decide ((P.part (s.book.msg m).part).ullPartSize ≤
      (s.feed (s.book.msg m).part).ullCursor + data.length) = true ↔
        (s.feed (s.book.msg m).part).ullCursor + data.length =
          (P.part (s.book.msg m).part).ullPartSize := by
    rw [decide_eq_true_iff]; omega
  refine hi.setFeed (fun hin => (hi.fed _ hin).push (hpos ▸ hdata) (by omega) hlt hlast)
    hproc rfl rfl rfl ?_
  · simp only [FeedPc, State.refillStep, State.pushEntry, State.setFeed, hpc, Function.update_self]
    omega

/-- **Every step of the coordinating thread keeps what holds of the data.** Besides the fill and the
refill the coordinating thread makes messages and collects them, and the rest of what it does leaves
the data alone. -/
theorem FeedInv.mainStep (hv : Inv cfg P s) (hi : FeedInv file cfg P s)
    (hread : ReadsFile file s a) (hs : s.mainStep cfg P a = some s') : FeedInv file cfg P s' := by
  have hok := hv.pcOk
  have proc : ∀ {m}, m ∈ s.book.pendingList →
      (s.book.status (s.book.msg m).part).bInProcess = true := fun h => (hv.core.current _ h).2.1
  cases a with
  | initiate e =>
      simp only [State.mainStep, Option.ite_none_right_eq_some, Option.some.injEq] at hs
      obtain ⟨-, rfl⟩ := hs
      split_ifs <;> exact hi.sameData rfl (fun _ => rfl) hi.fetched trivial
  | scan abort =>
      simp only [State.mainStep] at hs
      split at hs
      · obtain rfl := Option.some.inj hs
        exact hi.scanStep hv.core _ _ abort
      · simp at hs
  | seek hr =>
      simp only [State.mainStep] at hs
      split at hs
      · rename_i i m hpc
        obtain rfl := Option.some.inj hs
        split_ifs
        · exact hi.sameData rfl (fun _ => rfl) hi.fetched trivial
        · have hpcs := hi.feedPc
          simp only [FeedPc, hpc] at hpcs
          refine hi.sameData rfl (fun _ => rfl) hi.fetched ⟨Nat.le_refl _, by simp,
            fun _ => ?_, fun hb => ?_⟩
          · rw [hpcs.1, Nat.zero_add]
          · rw [hpcs.2 hb, Nat.sub_self, slice_zero]
      · simp at hs
  | fillRead hr data =>
      simp only [State.mainStep] at hs
      split at hs
      · rename_i i m rest rec hpc
        rw [hpc] at hok
        obtain ⟨-, hm, rfl, -⟩ := hok
        simp only [Option.ite_none_right_eq_some, Option.some.injEq] at hs
        obtain ⟨⟨hgo, hlen⟩, rfl⟩ := hs
        split_ifs with hfail
        · exact hi.sameData rfl (fun _ => rfl) hi.fetched trivial
        · obtain ⟨hpos, hdata⟩ := hread (hr, data) rfl (by tauto)
          exact hi.fillStep hpc (proc hm) hgo (by omega) hpos hdata
      · simp at hs
  | fillDone =>
      simp only [State.mainStep] at hs
      split at hs
      · rename_i i m rest rec hpc
        rw [hpc] at hok
        obtain ⟨-, hm, rfl, -⟩ := hok
        simp only [Option.ite_none_left_eq_some, Option.some.injEq] at hs
        obtain ⟨hgo, rfl⟩ := hs
        exact hi.fillDone hpc (proc hm) hgo
      · simp at hs
  | send =>
      simp only [State.mainStep] at hs
      split at hs
      · rename_i i m hpc
        obtain rfl := Option.some.inj hs
        refine hi.sameData rfl (fun _ => rfl) ?_ trivial
        refine hi.fetched.frame rfl (fun _ => rfl) (fun m' => ?_)
          (hmsg_setMsg (m := m) (fun m' => (Book.setMsg_of_ne _ · _)) fun hm => ?_)
        · by_cases h : m' = m
          · subst h; simp [Book.send, Book.setMsg]
          · simp [Book.send, Book.setMsg, h]
        · simp only [Book.send, Book.setMsg, Function.update_self]
          exact ⟨fun hp => hi.fetched.taken m hm (.inr (.inr (by simpa using hp))),
            by simp [Phase.hasResult]⟩
      · simp at hs
  | wait abort =>
      simp only [State.mainStep, Option.ite_none_right_eq_some, Option.some.injEq] at hs
      obtain ⟨-, rfl⟩ := hs
      split_ifs <;> exact hi.sameData rfl (fun _ => rfl) hi.fetched trivial
  | collect =>
      simp only [State.mainStep] at hs
      split at hs
      · obtain rfl := Option.some.inj hs
        split
        · exact hi.collectStep hv.core ‹_› _
        · split_ifs <;> exact hi.sameData rfl (fun _ => rfl) hi.fetched trivial
      · simp at hs
  | seekRefill hr =>
      simp only [State.mainStep] at hs
      split at hs
      · obtain rfl := Option.some.inj hs
        split_ifs
        · exact hi.sameData rfl (fun _ => rfl) hi.fetched trivial
        · exact hi.sameData rfl (fun _ => rfl) hi.fetched rfl
      · simp at hs
  | refillRead hr data =>
      simp only [State.mainStep] at hs
      split at hs
      · rename_i k m del hpc
        rw [hpc] at hok
        simp only [Option.ite_none_right_eq_some, Option.some.injEq] at hs
        obtain ⟨⟨hgo, hlen⟩, rfl⟩ := hs
        split_ifs with hfail
        · exact hi.sameData rfl (fun _ => rfl) hi.fetched trivial
        · obtain ⟨-, hdata⟩ := hread (hr, data) rfl (by tauto)
          exact hi.refillStep hpc (proc hok) hgo (by omega) hdata
      · simp at hs
  | refillDone =>
      simp only [State.mainStep] at hs
      split at hs
      · simp only [Option.ite_none_left_eq_some, Option.some.injEq] at hs
        obtain ⟨-, rfl⟩ := hs
        exact hi.sameData rfl (fun _ => rfl) hi.fetched trivial
      · simp at hs
  | complete e =>
      simp only [State.mainStep, Option.ite_none_right_eq_some, Option.some.injEq] at hs
      obtain ⟨-, rfl⟩ := hs
      have hf := hi.fetched
      split_ifs <;> exact hi.sameData rfl (fun _ => rfl) ⟨hf.1, hf.2, hf.3⟩ trivial
  | completeFails e =>
      simp only [State.mainStep, Option.ite_none_right_eq_some, Option.some.injEq] at hs
      obtain ⟨-, rfl⟩ := hs
      exact hi.sameData rfl (fun _ => rfl) hi.fetched trivial
  | abort =>
      simp only [State.mainStep] at hs
      split at hs
      · obtain rfl := Option.some.inj hs
        have hf := hi.fetched
        exact hi.sameData rfl (fun _ => rfl) ⟨hf.1, hf.2, hf.3⟩ trivial
      · simp at hs
  | terminate =>
      simp only [State.mainStep] at hs
      split at hs
      · obtain rfl := Option.some.inj hs
        have hf := hi.fetched
        exact hi.sameData rfl (fun _ => rfl) ⟨hf.1, hf.2, hf.3⟩ trivial
      · simp at hs
  | destroy =>
      simp only [State.mainStep, Option.ite_none_right_eq_some, Option.some.injEq] at hs
      obtain ⟨-, rfl⟩ := hs
      have same : ∀ m, (s.book.destroy.msg m).part = (s.book.msg m).part ∧
          (s.book.destroy.msg m).phase = (s.book.msg m).phase ∧
          (s.book.destroy.msg m).error = (s.book.msg m).error ∧
          (s.book.destroy.msg m).bGotServerResponse = (s.book.msg m).bGotServerResponse := by
        intro m
        simp only [Book.destroy]
        split_ifs <;> exact ⟨rfl, rfl, rfl, rfl⟩
      refine hi.sameData rfl (fun _ => rfl) ?_ trivial
      refine hi.fetched.frame rfl (fun _ => rfl) (fun m => (same m).1) fun m hm => .inr ?_
      obtain ⟨-, hph, herr, hgot⟩ := same m
      rw [hph, herr, hgot]
      exact ⟨hi.fetched.taken m hm, hi.fetched.success m hm⟩
  | _ => simp [State.mainStep] at hs

/-- **Every step keeps what holds of the data.** Workers only pop, so what they do to the data is
`FeedInv.pop`.  The hypothesis is on the reads: they return the bytes of the file. -/
theorem FeedInv.step (hv : Inv cfg P s) (hi : FeedInv file cfg P s) (hread : ReadsFile file s a)
    (hs : s.step cfg P a = some s') : FeedInv file cfg P s' := by
  rcases State.step_cases hs with ⟨m, entry, q, -, hp, hpop, rfl⟩ | hs | ⟨b, hb, rfl⟩
  · exact hi.pop hv.core hp hpop
  · exact hi.mainStep hv hread hs
  · obtain ⟨-, hf⟩ := hv.core.workerStep rfl hb
    exact hi.sameData rfl hf.bInProcess (hi.fetched.workerStep hf hb) (hi.feedPc.frame hf)

/-- The data in every state of an upload that reads an unchanging file. -/
theorem feedInv_of_reachable (h : (system cfg P).ReachableBy (ReadsFile file) s) :
    FeedInv file cfg P s :=
  h.invariant_reachable (fun _ h => h ▸ FeedInv.init) fun _ _ _ hr hi hread hs =>
    hi.step (inv_of_reachable hr) hread hs

/-- The attempt at a part was delivered whole to its worker. -/
def Delivered (file : Bytes) (p : PartRange) (c : StreamData) : Prop :=
  c.popped = c.pushed ∧ Closed c.popped ∧
    body c.popped = slice file p.ullBaseOffset p.ullPartSize

/-- **A worker that meets the mark was delivered the whole part.** The mark is the last entry that
is pushed for a part, behind all of its bytes; so who has popped it has popped all of them. -/
theorem Fed.delivered {p : PartRange} {f : PartFeed} (h : Fed file p f)
    (hc : Closed f.streamData.popped) : Delivered file p f.streamData := by
  have heq : f.streamData.popped = f.streamData.pushed := h.marked.popped_eq hc
  have hcur : f.ullCursor = p.ullPartSize := by
    rcases Nat.lt_or_eq_of_le h.le with hlt | hcur
    · exact absurd (h.unfinished hlt) (heq ▸ hc).not_open
    · exact hcur
  exact ⟨heq, hc, by rw [heq, h.bytes, hcur]⟩

/-- **The feeder delivers each part exactly.**  An attempt at a part starts with
an empty queue.  What is queued for it at any time is the start of the part; while
it is shorter than the part no entry is marked `bLast`, and once it is the whole
part the last entry is marked, and no other.  A worker that popped a marked entry,
and so each attempt that succeeded and each part that is complete, was delivered
the whole part. -/
theorem feeder_exact (h : (system cfg P).ReachableBy (ReadsFile file) s) {i : ℕ}
    (hi : i < P.parts.length) :
    ((s.book.status i).bInProcess = false → (s.feed i).streamData.pushed = []) ∧
    body (s.feed i).streamData.pushed =
      slice file (P.part i).ullBaseOffset (s.feed i).ullCursor ∧
    (body (s.feed i).streamData.pushed).length = (s.feed i).ullCursor ∧
    ((s.feed i).ullCursor < (P.part i).ullPartSize ∧ Open (s.feed i).streamData.pushed ∨
      (s.feed i).ullCursor = (P.part i).ullPartSize ∧ Closed (s.feed i).streamData.pushed) ∧
    ((∃ e ∈ (s.feed i).streamData.popped, e.bLast = true) →
      Delivered file (P.part i) (s.feed i).streamData) ∧
    (∀ m ∈ s.book.pendingList, (s.book.msg m).part = i → (s.book.msg m).phase.hasResult = true →
      (s.book.msg m).error.ifError = false → Delivered file (P.part i) (s.feed i).streamData) ∧
    ((s.book.status i).bComplete = true → Delivered file (P.part i) (s.feed i).streamData) := by
  have hv := feedInv_of_reachable h
  have hfed := hv.fed i hi
  refine ⟨fun hproc => by rw [hv.idle i hproc]; rfl, hfed.bytes, hfed.length, ?_, ?_, ?_, ?_⟩
  · rcases Nat.lt_or_eq_of_le hfed.le with hlt | heq
    · exact .inl ⟨hlt, hfed.unfinished hlt⟩
    · exact .inr ⟨heq, hfed.finished heq⟩
  · rintro ⟨e, he, hlast⟩
    refine hfed.delivered ?_
    obtain ⟨front, back, heq⟩ := List.append_of_mem he
    have hpushed : (s.feed i).streamData.pushed =
        front ++ e :: (back ++ (s.feed i).streamData.queue) := by
      rw [(s.feed i).streamData.pushed_eq, heq]; simp
    rcases hfed.marked with ho | hc
    · rw [hpushed] at ho
      simp [ho.not_last] at hlast
    · have hnil := (hpushed ▸ hc).eq_nil_of_last hlast
      rw [hpushed, hnil] at hc
      rwa [heq, (List.append_eq_nil_iff.1 hnil).1]
  · rintro m hm rfl hr he
    exact hfed.delivered (hv.fetched.success m hm hr he)
  · exact fun hcomp => hfed.delivered (hv.fetched.complete i hcomp)

/-- A part of five bytes and one of three. -/
def shortParts : PartList where
  parts := [⟨1, 0, 5⟩, ⟨2, 5, 3⟩]
  numbered i h := by
    match i, h with
    | 0, _ => rfl
    | 1, _ => rfl
  size_pos := by simp

/-- Reads of two bytes, two entries in a queue, and a checksum. -/
def hashed : Config :=
  { dwBufSize := 2, dwMaxThreads := 2, bChecksum := true, dwMaxQueueSize := 2, dwMaxRetries := 1 }

def eightBytes : Bytes := [10, 11, 12, 13, 14, 15, 16, 17]

/-- The first part is hashed to its end but queued only to its third byte, refilled,
and uploaded; the attempt at the second part fails after its first entry was sent. -/
def feedRun : List Action :=
  [.initiate {}, .scan false, .seek S_OK, .fillRead S_OK [10, 11], .fillRead S_OK [12],
    .fillRead S_OK [13], .fillRead S_OK [14], .fillDone, .send, .scan false, .seek S_OK,
    .fillRead S_OK [15, 16], .fillRead S_OK [17], .fillDone, .send, .scan false, .take 0, .take 1,
    .begin 0, .begin 1, .pop 0, .pop 1, .wait false, .collect, .seekRefill S_OK,
    .refillRead S_OK [13, 14], .refillDone, .upload 1 (.ofWin32 ERROR_OPERATION_ABORTED) [],
    .finish 1, .collect, .pop 0, .pop 0, .respond 0, .upload 0 {} ["a"]]

/-- `feeder_exact` on that run: the first part was delivered in three entries, and
the second part, to be retried, has nothing queued. -/
theorem feeder_exact_run : ∃ s : State, (system hashed shortParts).Reachable s ∧
    (s.feed 0).streamData.popped.map (·.data) = [[10, 11], [12], [13, 14]] ∧
    Delivered eightBytes (shortParts.part 0) (s.feed 0).streamData ∧
    (s.feed 1).streamData.pushed = [] := by
  have hrun : (((system hashed shortParts).restrict (ReadsFile eightBytes)).run feedRun {}).map
      (fun s => ((s.feed 0).streamData.popped, (s.book.status 1).bInProcess)) =
      some ([⟨[10, 11], 0, false⟩, ⟨[12], 0, false⟩, ⟨[13, 14], 0, true⟩], false) := by
    decide +kernel
  obtain ⟨s, hs, heq⟩ := Option.map_eq_some_iff.1 hrun
  obtain ⟨hpop, hproc⟩ := Prod.mk.inj heq
  have h : (system hashed shortParts).ReachableBy (ReadsFile eightBytes) s :=
    .run_restrict _ (.init rfl) hs
  obtain ⟨-, -, -, -, hwhole, -⟩ := feeder_exact h (i := 0) (by decide)
  obtain ⟨hempty, -⟩ := feeder_exact h (i := 1) (by decide)
  exact ⟨s, h.reachable, by rw [hpop]; rfl, hwhole ⟨⟨[13, 14], 0, true⟩, by simp [hpop], rfl⟩,
    hempty hproc⟩

end Multipart
end ECSUtil

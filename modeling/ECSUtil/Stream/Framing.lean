/-
# The framing of a signed stream

What `SendRequestInternal` (`ECSUtil/ECSConnection.cpp`) writes for a stream with version 4 of the
signatures, where each `WinHttpWriteData` writes all it is given, against the `content-length` it has
announced and the grammar of the chunks.

Between two turns the data that came are in full chunks, in the buffer or still to come (`Sending`), and
after the last entry all are in chunks (`Written`).  The announced length is a `ULONGLONG`, and wraps where
the payload and the metadata of all chunks are 2^64 bytes or more; the sizes of the entries are not looked
at for it, so nothing keeps `ullTotalLen` away from there.  The size of the buffer is a `UINT`: where the
size of a chunk and its metadata wrap, the buffer is smaller than a chunk, and a copy goes past its end
unless the payload is small enough (`Config.Past`).  The stream is framed as it should be just where neither
happens (`framed_iff`).

With the size of a chunk that a connection starts with, which `SetHostAuth` does not change, the buffer never
wraps, and the announced length does for the largest payloads (`contentLength_wraps`).
-/

import ECSUtil.Stream.Grammar

namespace ECSUtil
namespace Stream

namespace Config

/-- A chunk of the first so many bytes, its metadata in front of them, does not fit in `S3AuthV4SendBuf`. -/
def Past (cfg : Config) (n : ℕ) : Prop :=
  cfg.sendBufSize < cfg.chunkMetadataOffset + min cfg.uS3AuthV4ChunkSize n

/-- `ullChunks`. -/
def ullChunks (cfg : Config) (ullTotalLen : ℕ) : ℕ :=
  ullTotalLen / cfg.uS3AuthV4ChunkSize + (if ullTotalLen % cfg.uS3AuthV4ChunkSize ≠ 0 then 1 else 0) + 1

/-- The `content-length` that is announced. -/
def contentLength (cfg : Config) (ullTotalLen : ℕ) : ℕ :=
  (ullTotalLen + cfg.ullChunks ullTotalLen * cfg.chunkMetadataSize) % 0x10000000000000000

end Config

/-- The calls of a turn succeed, and all is written. -/
structure WritesAll (o : Outcome) : Prop where
  wait : o.wait = none
  write : ∀ data, o.write data = .ok data.length
  throttle : o.throttle = none

/-- What `WinHttpWriteData` was given. -/
def writes (events : List Event) : List Bytes :=
  events.filterMap fun
    | .write data _ => some data
    | _ => none

/-- **The stream is framed**: no copy went past the end of the buffer, and what was written is as long as it
was announced, and is read back as the payload, in full chunks but the last, each signed over the one before
it. -/
structure Framed (cfg : Config) (sSignature : CString) (ullTotalLen : ℕ) (payload : Bytes)
    (s : State) : Prop where
  buffer : s.overrun = false
  length : (writes s.events).flatten.length = cfg.contentLength ullTotalLen
  chunks : ∃ ds : List Bytes, ds.flatten = payload ∧ (∀ d ∈ ds, d ≠ []) ∧
    (∀ d ∈ ds.dropLast, d.length = cfg.uS3AuthV4ChunkSize) ∧
    readChunks (writes s.events).flatten =
      some ((cfg.signed sSignature (ds ++ [[]])).map fun c => (toBytes c.1, c.2))

/-- The entries that are still to be sent; the last one is marked. -/
def Ends (entries : List StreamDataEntry) : Prop :=
  ∃ (init : List StreamDataEntry) (last : StreamDataEntry), entries = init ++ [last] ∧
    last.bLast = true ∧ ∀ e ∈ init, e.bLast = false

/-- The first entry is the last one, or there is another one behind it. -/
theorem Ends.cons {e : StreamDataEntry} {es : List StreamDataEntry} (h : Ends (e :: es)) :
    e.bLast = true ∧ es = [] ∨ e.bLast = false ∧ Ends es := by
  obtain ⟨init, last, heq, hlast, hinit⟩ := h
  cases init with
  | nil =>
      obtain ⟨rfl, rfl⟩ := List.cons.inj heq
      exact .inl ⟨hlast, rfl⟩
  | cons first init =>
      obtain ⟨rfl, rfl⟩ := List.cons.inj heq
      exact .inr ⟨hinit e List.mem_cons_self, init, last, rfl, hlast,
        fun e he => hinit e (List.mem_cons_of_mem _ he)⟩

namespace State

/-- The entries that are still to be sent, with the one at the front. -/
def entries (s : State) : List StreamDataEntry := s.front.toList ++ s.queue

/-- The data that are still to be sent. -/
def rest (s : State) : Bytes := (s.front.toList.flatMap fun e => e.data.drop s.ullCurDataSent) ++ body s.queue

/-- The chunks of these data were written, the last one with this signature. -/
structure Signed (cfg : Config) (sSignature : CString) (s : State) (ds : List Bytes) : Prop where
  written : writes s.events = cfg.chunks (cfg.signed sSignature ds)
  signature : s.sPreviousSignature = ds.foldl cfg.chunkSignature sSignature

/-- A copy has gone past the end of the buffer just where so many bytes do not fit. -/
def Fitting (cfg : Config) (s : State) (n : ℕ) : Prop := s.overrun = true ↔ cfg.Past n

/-- The data of these chunks and of the buffer were copied; nothing was, before the first of them. -/
structure Copied (cfg : Config) (s : State) (ds : List Bytes) : Prop where
  start : ds = [] → s.setAtSize = 0
  none : ds = [] → s.sendBuf = [] → s.overrun = false
  fitting : ds.flatten.length + s.sendBuf.length ≠ 0 →
    Fitting cfg s (ds.flatten.length + s.sendBuf.length)

/-- **Between two turns**: the payload is in full chunks, in the buffer, or still to come. -/
structure Sending (cfg : Config) (sSignature : CString) (payload : Bytes) (s : State) (ds : List Bytes) :
    Prop extends Signed cfg sSignature s ds where
  full : ∀ d ∈ ds, d.length = cfg.uS3AuthV4ChunkSize
  payload : ds.flatten ++ s.sendBuf ++ s.rest = payload
  sendBuf : s.sendBuf.length < cfg.uS3AuthV4ChunkSize
  copied : Copied cfg s ds

/-- **After the last entry**: the payload is in chunks that are full but the last, and a chunk without
data ends the stream. -/
def Written (cfg : Config) (sSignature : CString) (payload : Bytes) (s : State) : Prop :=
  Fitting cfg s payload.length ∧
    ∃ ds : List Bytes, writes s.events = cfg.chunks (cfg.signed sSignature (ds ++ [[]])) ∧
      ds.flatten = payload ∧ (∀ d ∈ ds, d ≠ [] ∧ d.length ≤ cfg.uS3AuthV4ChunkSize) ∧
      ∀ d ∈ ds.dropLast, d.length = cfg.uS3AuthV4ChunkSize

variable {cfg : Config} {sSignature : CString} {payload : Bytes} {s s' : State} {o : Outcome}
  {ds : List Bytes} {e : StreamDataEntry}

/-- What was signed stays so while nothing is written. -/
theorem Signed.frame (h : Signed cfg sSignature s ds) (hwrites : writes s'.events = writes s.events)
    (hsignature : s'.sPreviousSignature = s.sPreviousSignature) : Signed cfg sSignature s' ds :=
  ⟨hwrites.trans h.written, hsignature.trans h.signature⟩

/-- What was copied stays so while the buffer is left alone. -/
theorem Copied.frame (h : Copied cfg s ds) (hbuf : s'.sendBuf = s.sendBuf)
    (hset : s'.setAtSize = s.setAtSize) (hover : s'.overrun = s.overrun) : Copied cfg s' ds := by
  refine ⟨fun hds => hset.trans (h.start hds), fun hds hnil => hover.trans (h.none hds (hbuf ▸ hnil)), ?_⟩
  unfold Fitting
  rw [hbuf, hover]
  exact h.fitting

/-- **A chunk is sent**: it is signed over the one before it. The buffer becomes the next chunk, its
signature the one that the next is signed over, and what is still to be taken of the entries is left
alone. -/
theorem Signed.sendChunk (h : Signed cfg sSignature s ds) (ho : WritesAll o) :
    ∃ n, s.sendChunk cfg o = ((s.sendChunk cfg o).1, .ok n) ∧
      Signed cfg sSignature (s.sendChunk cfg o).1 (ds ++ [s.sendBuf]) ∧
      (s.sendChunk cfg o).1.front = s.front ∧ (s.sendChunk cfg o).1.queue = s.queue ∧
      (s.sendChunk cfg o).1.ullCurDataSent = s.ullCurDataSent := by
  unfold State.sendChunk State.writeData
  dsimp only
  rw [ho.write]
  refine ⟨_, rfl, ⟨?_, ?_⟩, rfl, rfl, rfl⟩
  · show writes (s.events ++ [_]) = _
    rw [Config.signed_append, ← h.signature]
    unfold writes Config.chunks
    rw [List.filterMap_append, List.map_append]
    exact congrArg (· ++ _) h.written
  · show cfg.chunkSignature s.sPreviousSignature s.sendBuf = _
    rw [List.foldl_append, h.signature]
    rfl

/-- A chunk is put together: the metadata are copied to the start of the buffer, and `SetAt` makes room for
the line end. -/
theorem overrun_sendChunk (hbuf : s.sendBuf.length ≤ cfg.uS3AuthV4ChunkSize)
    (hsize : 0 < cfg.uS3AuthV4ChunkSize) (o : Outcome) :
    (s.sendChunk cfg o).1.overrun =
      (s.overrun || decide (s.getBufSize cfg < cfg.chunkMetadataOffset)) := by
  have hprefix : (cfg.buildV4ChunkMetadata s.sendBuf.length
      (cfg.chunkSignature s.sPreviousSignature s.sendBuf)).length = cfg.chunkMetadataOffset :=
    Config.length_buildV4ChunkMetadata (Config.length_chunkSignature ..) hbuf hsize
  have hcreated : (s.createS3V4ChunkMetadata cfg).overrun =
      (s.overrun || decide (s.getBufSize cfg < cfg.chunkMetadataOffset)) := by
    rw [← hprefix]
    rfl
  rw [← hcreated]
  unfold State.sendChunk State.writeData
  dsimp only
  split <;> rfl

/-- Where the data of a chunk fit, its metadata do. -/
theorem Fitting.sendChunk {n : ℕ} (h : Fitting cfg s n)
    (hbuf : s.sendBuf.length ≤ cfg.uS3AuthV4ChunkSize) (hsize : 0 < cfg.uS3AuthV4ChunkSize)
    (o : Outcome) : Fitting cfg (s.sendChunk cfg o).1 n := by
  unfold Fitting at h ⊢
  rw [overrun_sendChunk hbuf hsize, Bool.or_eq_true, h]
  refine ⟨fun hor => hor.elim id fun hmeta => ?_, .inl⟩
  have hlt := of_decide_eq_true hmeta
  have hle : cfg.sendBufSize ≤ s.getBufSize cfg := Nat.le_max_left _ _
  unfold Config.Past
  omega

/-- The metadata of the chunk without data, where nothing was copied before. -/
theorem fitting_sendChunk_first (hover : s.overrun = false) (hset : s.setAtSize = 0)
    (hbuf : s.sendBuf.length ≤ cfg.uS3AuthV4ChunkSize) (hsize : 0 < cfg.uS3AuthV4ChunkSize)
    (o : Outcome) : Fitting cfg (s.sendChunk cfg o).1 0 := by
  unfold Fitting Config.Past
  rw [overrun_sendChunk hbuf hsize, hover, Bool.false_or, decide_eq_true_iff, getBufSize, hset,
    Nat.max_zero, Nat.min_zero, Nat.add_zero]

/-- **Data are copied into the buffer**: behind what is there, and no more than a chunk. They go
past the end of the buffer just where so many bytes do not fit; a chunk that was sent before was as
long as a chunk can be, so it has told already. -/
theorem Copied.copyTo (h : Copied cfg s ds) (hfull : ∀ d ∈ ds, d.length = cfg.uS3AuthV4ChunkSize) {n : ℕ}
    (hpos : 0 < n) (hle : s.sendBuf.length + n ≤ cfg.uS3AuthV4ChunkSize) :
    Fitting cfg (s.copyTo cfg (cfg.chunkMetadataOffset + s.sendBuf.length + n))
      (ds.flatten.length + (s.sendBuf.length + n)) := by
  have hover : (s.copyTo cfg (cfg.chunkMetadataOffset + s.sendBuf.length + n)).overrun =
      (s.overrun || decide (s.getBufSize cfg < cfg.chunkMetadataOffset + s.sendBuf.length + n)) := rfl
  have hbuf : cfg.sendBufSize ≤ s.getBufSize cfg := Nat.le_max_left _ _
  unfold Fitting
  rw [hover, Bool.or_eq_true, decide_eq_true_iff]
  cases ds with
  | nil =>
      -- Before the first chunk the buffer has the size it was given.
      have hgiven : s.getBufSize cfg = cfg.sendBufSize := by
        rw [getBufSize, h.start rfl, Nat.max_zero]
      have hbefore : s.overrun = true → cfg.Past s.sendBuf.length := by
        intro ho
        by_cases hempty : s.sendBuf = []
        · exact absurd ho (by rw [h.none rfl hempty]; decide)
        · have hne : ([] : List Bytes).flatten.length + s.sendBuf.length ≠ 0 := by
            have := List.length_pos_iff.2 hempty
            omega
          have hpast := (h.fitting hne).1 ho
          rwa [List.flatten_nil, List.length_nil, Nat.zero_add] at hpast
      unfold Config.Past at hbefore ⊢
      rw [hgiven, List.flatten_nil, List.length_nil]
      constructor
      · rintro (ho | hlt)
        · have := hbefore ho
          omega
        · omega
      · intro hpast
        exact .inr (by omega)
  | cons d ds =>
      -- A whole chunk was copied before, so that the next one takes no more room.
      have hchunk : cfg.uS3AuthV4ChunkSize ≤ (d :: ds).flatten.length := by
        rw [List.flatten_cons, List.length_append, hfull d List.mem_cons_self]
        exact Nat.le_add_right _ _
      have hbefore := h.fitting (by omega)
      unfold Fitting at hbefore
      unfold Config.Past at hbefore ⊢
      rw [hbefore]
      omega

/-- **The entry at the front is taken**, from the queue where there is none. Nothing of it is sent
yet, so all that is to be sent is what it was. -/
theorem takeFront_eq (ho : WritesAll o) {es : List StreamDataEntry} (hentries : s.entries = e :: es) :
    ∃ s', s.takeFront o = .ok (e, s') ∧ s'.front = some e ∧ s'.queue = es ∧ s'.rest = s.rest ∧
      s'.events = s.events ∧ s'.sPreviousSignature = s.sPreviousSignature ∧ s'.sendBuf = s.sendBuf ∧
      s'.setAtSize = s.setAtSize ∧ s'.overrun = s.overrun := by
  unfold State.takeFront
  cases hfront : s.front with
  | some first =>
      unfold entries at hentries
      rw [hfront] at hentries
      obtain ⟨rfl, rfl⟩ := List.cons.inj hentries
      exact ⟨s, rfl, hfront, rfl, rfl, rfl, rfl, rfl, rfl, rfl⟩
  | none =>
      unfold entries at hentries
      rw [hfront] at hentries
      have hqueue : s.queue = e :: es := hentries
      dsimp only
      rw [ho.wait, hqueue]
      refine ⟨_, rfl, rfl, rfl, ?_, rfl, rfl, rfl, rfl, rfl⟩
      unfold rest
      rw [hfront, hqueue, body_cons]
      show (e.data.drop 0 ++ []) ++ body es = [] ++ (e.data ++ body es)
      rw [List.drop_zero, List.append_nil, List.nil_append]

/-- What is left is the rest of the entry in front, and the entries behind it. -/
theorem rest_of_front (hfront : s.front = some e) :
    s.rest = e.data.drop s.ullCurDataSent ++ body s.queue := by
  unfold rest
  rw [hfront]
  exact congrArg (· ++ _) (List.append_nil _)

/-- What a copy into the buffer does not change. -/
theorem fillBuffer_eq (cfg : Config) (hmore : s.ullCurDataSent < e.data.length)
    (hfree : s.sendBuf.length < cfg.uS3AuthV4ChunkSize) :
    ∃ n, 0 < n ∧ n ≤ e.data.length - s.ullCurDataSent ∧
      s.sendBuf.length + n ≤ cfg.uS3AuthV4ChunkSize ∧
      s.fillBuffer cfg e =
        { s.copyTo cfg (cfg.chunkMetadataOffset + s.sendBuf.length + n) with
          sendBuf := s.sendBuf ++ slice e.data s.ullCurDataSent n
          ullCurDataSent := s.ullCurDataSent + n } := by
  refine ⟨min (e.data.length - s.ullCurDataSent) (cfg.uS3AuthV4ChunkSize - s.sendBuf.length),
    by omega, Nat.min_le_left _ _, by omega, ?_⟩
  unfold fillBuffer
  exact if_pos (by omega)

/-- Some data of the entry went into the buffer, one byte at least. -/
structure Filled (cfg : Config) (s s' : State) (ds : List Bytes) : Prop where
  front : s'.front = s.front
  queue : s'.queue = s.queue
  events : s'.events = s.events
  signature : s'.sPreviousSignature = s.sPreviousSignature
  data : s'.sendBuf ++ s'.rest = s.sendBuf ++ s.rest
  ne_nil : s'.sendBuf ≠ []
  le : s'.sendBuf.length ≤ cfg.uS3AuthV4ChunkSize
  less : s'.rest.length < s.rest.length
  copied : Copied cfg s' ds

/-- The buffer takes what it has room for, with the writes that go past its end. -/
theorem fillBuffer_spec (h : Copied cfg s ds) (hfull : ∀ d ∈ ds, d.length = cfg.uS3AuthV4ChunkSize)
    (hfront : s.front = some e) (hmore : s.ullCurDataSent < e.data.length)
    (hfree : s.sendBuf.length < cfg.uS3AuthV4ChunkSize) : Filled cfg s (s.fillBuffer cfg e) ds := by
  obtain ⟨n, hpos, hn, hle, hfill⟩ := fillBuffer_eq cfg hmore hfree
  have hlength : (slice e.data s.ullCurDataSent n).length = n := slice_length (by omega)
  have hdrop : slice e.data s.ullCurDataSent n ++ e.data.drop (s.ullCurDataSent + n) =
      e.data.drop s.ullCurDataSent := by
    unfold slice
    rw [← List.drop_drop, List.take_append_drop]
  have hfront' : (s.fillBuffer cfg e).front = some e := by
    rw [hfill]
    exact hfront
  have hrest : (s.fillBuffer cfg e).rest =
      e.data.drop (s.ullCurDataSent + n) ++ body s.queue := by
    rw [rest_of_front hfront', hfill]
    rfl
  have hbuf : (s.fillBuffer cfg e).sendBuf = s.sendBuf ++ slice e.data s.ullCurDataSent n := by
    rw [hfill]
  have hsize : (s.fillBuffer cfg e).sendBuf.length = s.sendBuf.length + n := by
    rw [hbuf, List.length_append, hlength]
  have hne : (s.fillBuffer cfg e).sendBuf ≠ [] := List.length_pos_iff.1 (by omega)
  have hcopied : Copied cfg (s.fillBuffer cfg e) ds := by
    refine ⟨fun hds => ?_, fun _ hempty => absurd hempty hne, fun _ => ?_⟩
    · rw [hfill]
      exact h.start hds
    · rw [hsize, hfill]
      exact h.copyTo hfull hpos hle
  refine ⟨hfront'.trans hfront.symm, ?_, ?_, ?_, ?_, hne, by omega, ?_, hcopied⟩
  · rw [hfill]
    rfl
  · rw [hfill]
    rfl
  · rw [hfill]
    rfl
  · rw [hbuf, hrest, rest_of_front hfront, List.append_assoc, ← List.append_assoc (slice _ _ _), hdrop]
  · rw [hrest, rest_of_front hfront, List.length_append, List.length_append, List.length_drop,
      List.length_drop]
    omega

/-- **The data of the entry are put into the buffer**, and a full buffer is sent as a chunk. As much
of the entry is copied as the buffer takes; the entry is at its end then, or less of it is left. -/
theorem Sending.writePart (h : Sending cfg sSignature payload s ds) (hV4 : cfg.bS3AuthV4 = true)
    (ho : WritesAll o) (hfront : s.front = some e) :
    ∃ s' n ds', s.writePart cfg o e = (s', .ok n) ∧ Sending cfg sSignature payload s' ds' ∧
      s'.front = some e ∧ s'.queue = s.queue ∧
      (e.data.length ≤ s'.ullCurDataSent ∧ s'.rest.length ≤ s.rest.length ∨
        s'.rest.length < s.rest.length) := by
  unfold State.writePart
  by_cases hdone : e.data.length ≤ s.ullCurDataSent
  · rw [if_pos hdone]
    exact ⟨s, 0, ds, rfl, h, hfront, rfl, .inl ⟨hdone, Nat.le_refl _⟩⟩
  rw [if_neg hdone, if_pos hV4]
  have hfilled : Filled cfg s (s.fillBuffer cfg e) ds :=
    fillBuffer_spec h.copied h.full hfront (Nat.lt_of_not_le hdone) h.sendBuf
  have hsigned : Signed cfg sSignature (s.fillBuffer cfg e) ds :=
    h.toSigned.frame (congrArg writes hfilled.events) hfilled.signature
  have hfront' : (s.fillBuffer cfg e).front = some e := hfilled.front.trans hfront
  dsimp only
  split_ifs with hfull
  · obtain ⟨n, hsent, hsigned, hsentFront, hsentQueue, hsentPos⟩ := hsigned.sendChunk ho
    have hfitting := hfilled.copied.fitting
      (by have := List.length_pos_iff.2 hfilled.ne_nil; omega)
    rw [hsent]
    have hrest : State.rest { ((s.fillBuffer cfg e).sendChunk cfg o).1 with sendBuf := [] } =
        (s.fillBuffer cfg e).rest := by
      unfold rest
      dsimp only
      rw [hsentFront, hsentQueue, hsentPos]
    have hcopied : Copied cfg { ((s.fillBuffer cfg e).sendChunk cfg o).1 with sendBuf := [] }
        (ds ++ [(s.fillBuffer cfg e).sendBuf]) := by
      refine ⟨fun hds => absurd hds (by simp), fun hds => absurd hds (by simp), fun _ => ?_⟩
      have hsent := hfitting.sendChunk hfilled.le (Nat.zero_lt_of_lt h.sendBuf) o
      rw [List.flatten_append, List.flatten_singleton, List.length_append]
      exact hsent
    refine ⟨_, n, ds ++ [(s.fillBuffer cfg e).sendBuf], rfl,
      ⟨hsigned.frame rfl rfl, ?_, ?_, ?_, hcopied⟩, hsentFront.trans hfront',
      hsentQueue.trans hfilled.queue, .inr (hrest ▸ hfilled.less)⟩
    · intro d hd
      rcases List.mem_append.1 hd with hd | hd
      · exact h.full d hd
      · exact List.mem_singleton.1 hd ▸ hfull
    · show (ds ++ [_]).flatten ++ [] ++ State.rest _ = payload
      rw [hrest, List.flatten_append, List.flatten_singleton, List.append_nil, List.append_assoc,
        hfilled.data, ← List.append_assoc, h.payload]
    · exact Nat.lt_of_le_of_lt (Nat.zero_le _) h.sendBuf
  · refine ⟨_, 0, ds, rfl,
      ⟨hsigned, h.full, ?_, Nat.lt_of_le_of_ne hfilled.le hfull, hfilled.copied⟩, hfront',
      hfilled.queue, .inr hfilled.less⟩
    rw [List.append_assoc, hfilled.data, ← List.append_assoc, h.payload]

/-- What is reported is no data. -/
theorem Sending.report (h : Sending cfg sSignature payload s ds) (n : ℕ) :
    Sending cfg sSignature payload (s.report cfg n) ds := by
  unfold State.report
  split_ifs
  · refine ⟨h.toSigned.frame ?_ rfl, h.full, h.payload, h.sendBuf, h.copied.frame rfl rfl rfl⟩
    show writes (s.events ++ [.progress (toInt n)]) = writes s.events
    unfold writes
    rw [List.filterMap_append]
    exact List.append_nil _
  · exact h

/-- A report of progress leaves the data alone. -/
theorem report_frame (s : State) (cfg : Config) (n : ℕ) :
    (s.report cfg n).front = s.front ∧ (s.report cfg n).queue = s.queue ∧
    (s.report cfg n).ullCurDataSent = s.ullCurDataSent ∧ (s.report cfg n).rest = s.rest := by
  unfold State.report
  split_ifs
  · exact ⟨rfl, rfl, rfl, rfl⟩
  · exact ⟨rfl, rfl, rfl, rfl⟩

/-- The wait for the throttle leaves the data alone. -/
theorem Sending.waitThrottle (h : Sending cfg sSignature payload s ds) (ho : WritesAll o) (n : ℕ) :
    ∃ s', s.waitThrottle cfg o n = (s', .running) ∧ Sending cfg sSignature payload s' ds ∧
      s'.entries = s.entries ∧ s'.rest = s.rest := by
  unfold State.waitThrottle
  rw [ho.throttle]
  split_ifs
  · refine ⟨_, rfl, ⟨h.toSigned.frame ?_ rfl, h.full, h.payload, h.sendBuf, h.copied.frame rfl rfl rfl⟩,
      rfl, rfl⟩
    show writes (s.events ++ [.deduct n]) = writes s.events
    unfold writes
    rw [List.filterMap_append]
    exact List.append_nil _
  · exact ⟨s, rfl, h, rfl, rfl⟩

/-- The data that are left in the buffer, as a chunk where there are any. -/
def lastChunk (s : State) : List Bytes := if s.sendBuf = [] then [] else [s.sendBuf]

/-- At the end the rest in the buffer becomes a chunk, if there is one. -/
theorem Signed.sendRest (h : Signed cfg sSignature s ds) (ho : WritesAll o)
    (hbuf : s.sendBuf.length < cfg.uS3AuthV4ChunkSize) :
    ∃ s', s.sendRest cfg o = (s', .running) ∧ Signed cfg sSignature s' (ds ++ s.lastChunk) ∧
      (s.sendBuf = [] → s' = s) ∧ ∀ n, Fitting cfg s n → Fitting cfg s' n := by
  unfold State.sendRest lastChunk
  by_cases hempty : s.sendBuf = []
  · rw [if_neg (not_not_intro hempty), if_pos hempty, List.append_nil]
    exact ⟨s, rfl, h, fun _ => rfl, fun _ hfit => hfit⟩
  · rw [if_pos hempty, if_neg hempty]
    have hfits : ∀ n, Fitting cfg s n → Fitting cfg (s.sendChunk cfg o).1 n := fun n hfit =>
      hfit.sendChunk (Nat.le_of_lt hbuf) (Nat.zero_lt_of_lt hbuf) o
    obtain ⟨n, hsent, hsigned, -⟩ := h.sendChunk ho
    rw [hsent]
    refine ⟨_, rfl, ?_, fun hnil => absurd hnil hempty, ?_⟩
    · unfold State.report
      split_ifs
      · refine hsigned.frame ?_ rfl
        show writes (_ ++ [.progress _]) = _
        unfold writes
        rw [List.filterMap_append]
        exact List.append_nil _
      · exact hsigned
    · unfold State.report
      split_ifs
      · exact hfits
      · exact hfits

/-- **After the last entry**: what is left is sent, and the chunk without data. The rest of the
buffer is a chunk if there is any, and the chunk without data closes the stream, also for a payload
of no bytes. -/
theorem Sending.finish (h : Sending cfg sSignature payload s ds) (hV4 : cfg.bS3AuthV4 = true)
    (ho : WritesAll o) (hrest : s.rest = []) :
    ∃ s', s.finish cfg o = (s', .finished) ∧ Written cfg sSignature payload s' := by
  have hsize : 0 < cfg.uS3AuthV4ChunkSize := Nat.zero_lt_of_lt h.sendBuf
  obtain ⟨s₁, hsendRest, hsigned₁, hsame, hfits⟩ := h.toSigned.sendRest ho h.sendBuf
  have hcleared : Signed cfg sSignature { s₁ with sendBuf := [] } (ds ++ s.lastChunk) :=
    hsigned₁.frame rfl rfl
  obtain ⟨n, hsent, hsigned, -⟩ := hcleared.sendChunk ho
  have hfinish : s.finish cfg o = (({ s₁ with sendBuf := [] } : State).sendChunk cfg o |>.1, .finished) := by
    unfold State.finish
    rw [hV4, if_neg (by decide), hsendRest]
    dsimp only
    rw [hsent]
  have hpayload := h.payload
  rw [hrest, List.append_nil] at hpayload
  have hfitting : Fitting cfg (({ s₁ with sendBuf := [] } : State).sendChunk cfg o).1 payload.length := by
    rw [← hpayload, List.length_append]
    by_cases hzero : ds.flatten.length + s.sendBuf.length = 0
    · -- Nothing was copied: the metadata of the last chunk are the first bytes in the buffer.
      have hnil : s.sendBuf = [] := List.length_eq_zero_iff.1 (Nat.eq_zero_of_add_eq_zero_left hzero)
      have hds : ds = [] := by
        refine List.eq_nil_iff_forall_not_mem.2 fun d hd => ?_
        have hle := (List.sublist_flatten_of_mem hd).length_le
        have hlength := h.full d hd
        omega
      obtain rfl := hsame hnil
      rw [hzero]
      exact fitting_sendChunk_first (s := { s₁ with sendBuf := [] }) (h.copied.none hds hnil) (h.copied.start hds)
        (Nat.zero_le _) hsize o
    · have hlast : Fitting cfg { s₁ with sendBuf := [] } (ds.flatten.length + s.sendBuf.length) :=
        hfits _ (h.copied.fitting hzero)
      exact hlast.sendChunk (Nat.zero_le _) hsize o
  refine ⟨_, hfinish, hfitting, ds ++ s.lastChunk, hsigned.written, ?_, ?_, ?_⟩
  · rw [List.flatten_append, ← hpayload]
    unfold lastChunk
    split_ifs with hempty
    · rw [hempty]
      rfl
    · rw [List.flatten_singleton]
  · intro d hd
    rcases List.mem_append.1 hd with hd | hd
    · have hlength := h.full d hd
      refine ⟨?_, Nat.le_of_eq hlength⟩
      rintro rfl
      have := h.sendBuf
      rw [← hlength] at this
      exact absurd this (Nat.not_lt_zero _)
    · unfold lastChunk at hd
      split_ifs at hd with hempty
      · exact absurd hd List.not_mem_nil
      · rw [List.mem_singleton.1 hd]
        exact ⟨hempty, Nat.le_of_lt h.sendBuf⟩
  · intro d hd
    unfold lastChunk at hd
    split_ifs at hd with hempty
    · rw [List.append_nil] at hd
      exact h.full d ((List.dropLast_sublist ds).subset hd)
    · rw [List.dropLast_concat] at hd
      exact h.full d hd

/-- **One turn**: the loop goes on with less to send, or ends with all written. The measure is the
bytes to come with the entries to come: a turn takes an entry away, or some of its bytes. -/
theorem Sending.turn (h : Sending cfg sSignature payload s ds) (hV4 : cfg.bS3AuthV4 = true)
    (ho : WritesAll o) (hends : Ends s.entries) :
    (∃ s' ds', s.turn cfg o = (s', .running) ∧ Sending cfg sSignature payload s' ds' ∧ Ends s'.entries ∧
      s'.rest.length + s'.entries.length < s.rest.length + s.entries.length) ∨
    ∃ s', s.turn cfg o = (s', .finished) ∧ Written cfg sSignature payload s' := by
  obtain ⟨e, es, hentries⟩ : ∃ e es, s.entries = e :: es := by
    obtain ⟨init, last, hentries, -⟩ := hends
    exact List.exists_cons_of_ne_nil (hentries ▸ List.append_ne_nil_of_right_ne_nil init (by simp))
  obtain ⟨s₁, htake, hfront₁, hqueue₁, hrest₁, hevents₁, hsignature₁, hbuf₁, hset₁, hover₁⟩ :=
    takeFront_eq ho hentries
  have h₁ : Sending cfg sSignature payload s₁ ds :=
    ⟨h.toSigned.frame (congrArg writes hevents₁) hsignature₁, h.full, by rw [hbuf₁, hrest₁, h.payload],
      hbuf₁ ▸ h.sendBuf, h.copied.frame hbuf₁ hset₁ hover₁⟩
  obtain ⟨s₂, n, ds₂, hpart, h₂, hfront₂, hqueue₂, hless⟩ := h₁.writePart hV4 ho hfront₁
  obtain ⟨hfront₃, hqueue₃, hpos₃, hrest₃⟩ := report_frame s₂ cfg n
  have h₃ := h₂.report n
  generalize hreport : s₂.report cfg n = s₃ at hfront₃ hqueue₃ hpos₃ hrest₃ h₃
  have hturn : s.turn cfg o = s₃.endTurn cfg o e n := by
    unfold State.turn
    rw [htake]
    dsimp only
    rw [hpart]
    dsimp only
    rw [hreport]
  have hes : s₃.queue = es := hqueue₃.trans (hqueue₂.trans hqueue₁)
  have hfront : s₃.front = some e := hfront₃.trans hfront₂
  have hrest : s₃.rest = e.data.drop s₃.ullCurDataSent ++ body es := hes ▸ rest_of_front hfront
  rw [hturn]
  unfold State.endTurn
  by_cases hdone : e.data.length ≤ s₃.ullCurDataSent
  · have hpopped : State.rest { s₃ with front := none } = s₃.rest := by
      rw [hrest, List.drop_eq_nil_of_le hdone]
      show [] ++ body s₃.queue = [] ++ body es
      rw [hes]
    have h₄ : Sending cfg sSignature payload { s₃ with front := none } ds₂ :=
      ⟨h₃.toSigned.frame rfl rfl, h₃.full, hpopped ▸ h₃.payload, h₃.sendBuf,
      h₃.copied.frame rfl rfl rfl⟩
    have hentries₄ : State.entries { s₃ with front := none } = es := hes
    rw [if_pos hdone]
    rcases (hentries ▸ hends).cons with ⟨hlast, rfl⟩ | ⟨hlast, hends'⟩
    · have hnone : State.rest { s₃ with front := none } = [] := by
        rw [hpopped, hrest, List.drop_eq_nil_of_le hdone]
        rfl
      dsimp only
      rw [if_pos hlast]
      exact .inr (h₄.finish hV4 ho hnone)
    · obtain ⟨s₅, hwait, h₅, hentries₅, hrest₅⟩ := h₄.waitThrottle ho n
      dsimp only
      rw [if_neg (by rw [hlast]; decide), hwait]
      refine .inl ⟨s₅, ds₂, rfl, h₅, ?_, ?_⟩
      · rw [hentries₅, hentries₄]
        exact hends'
      · rw [hentries₅, hentries₄, hrest₅, hpopped, hentries, List.length_cons, hrest₃]
        rw [hrest₁] at hless
        omega
  · obtain ⟨s₅, hwait, h₅, hentries₅, hrest₅⟩ := h₃.waitThrottle ho n
    have hsame : s₅.entries = s.entries := by
      rw [hentries₅, hentries]
      unfold entries
      rw [hfront, hes]
      rfl
    rw [if_neg hdone, hwait]
    refine .inl ⟨s₅, ds₂, rfl, h₅, hsame ▸ hends, ?_⟩
    rw [hsame, hrest₅, hrest₃]
    rw [hrest₁] at hless
    rw [hpos₃] at hdone
    omega

/-- **The loop**: with as many turns as there are bytes and entries it ends with all written. The
induction is on the outcomes of the turns; more of them than are needed change nothing. -/
theorem Sending.sendLoop (h : Sending cfg sSignature payload s ds) (hV4 : cfg.bS3AuthV4 = true)
    (hends : Ends s.entries) {os : List Outcome} (hos : ∀ o ∈ os, WritesAll o)
    (hlength : s.rest.length + s.entries.length ≤ os.length) :
    ∃ s', s.sendLoop cfg os = (s', .finished) ∧ Written cfg sSignature payload s' := by
  induction os generalizing s ds with
  | nil =>
      obtain ⟨init, last, hentries, -⟩ := hends
      rw [hentries, List.length_append] at hlength
      exact absurd hlength (by simp)
  | cons o os ih =>
      unfold State.sendLoop
      dsimp only
      rcases h.turn hV4 (hos o List.mem_cons_self) hends with
        ⟨s', ds', hturn, h', hends', hless⟩ | ⟨s', hturn, hwritten⟩
      · rw [hturn, if_pos rfl]
        rw [List.length_cons] at hlength
        exact ih h' hends' (fun o ho => hos o (List.mem_cons_of_mem _ ho))
          (Nat.le_of_lt_succ (Nat.lt_of_lt_of_le hless hlength))
      · rw [hturn, if_neg (by simp)]
        exact ⟨s', rfl, hwritten⟩

/-- Full chunks have their number times their size. -/
theorem length_full {size : ℕ} (hfull : ∀ d ∈ ds, d.length = size) :
    ds.flatten.length = ds.length * size := by
  induction ds with
  | nil => exact (Nat.zero_mul size).symm
  | cons d ds ih =>
      rw [List.flatten_cons, List.length_append, hfull d List.mem_cons_self,
        ih fun d hd => hfull d (List.mem_cons_of_mem _ hd), List.length_cons, Nat.succ_mul, Nat.add_comm]

/-- **The number of chunks** is the one that the announced length is computed with. It is the
division of the length, rounded up: all chunks but the last are full, and the last one is not empty. -/
theorem length_pieces {size : ℕ} (hsize : 0 < size) (hds : ∀ d ∈ ds, d ≠ [] ∧ d.length ≤ size)
    (hfull : ∀ d ∈ ds.dropLast, d.length = size) :
    ds.length = ds.flatten.length / size + if ds.flatten.length % size ≠ 0 then 1 else 0 := by
  rcases List.eq_nil_or_concat' ds with rfl | ⟨init, last, rfl⟩
  · rw [List.flatten_nil, List.length_nil, List.length_nil, Nat.zero_div, Nat.zero_mod,
      if_neg (not_not_intro rfl)]
  · rw [List.dropLast_concat] at hfull
    have hinit := length_full hfull
    obtain ⟨hne, hle⟩ := hds last (List.mem_append_right _ (List.mem_singleton_self last))
    have hpos : 0 < last.length := List.length_pos_iff.2 hne
    rw [List.length_append, List.length_singleton, List.flatten_append, List.flatten_singleton,
      List.length_append, hinit, Nat.mul_comm, Nat.mul_add_mod, Nat.mul_add_div hsize]
    rcases Nat.lt_or_eq_of_le hle with hlt | heq
    · rw [Nat.mod_eq_of_lt hlt, Nat.div_eq_of_lt hlt, if_pos (Nat.ne_of_gt hpos), Nat.add_zero]
    · rw [heq, Nat.mod_self, Nat.div_self hsize, if_neg (not_not_intro rfl)]

/-- **When the stream is framed as it should be**: where the first chunk fits in the buffer, and the announced
length does not wrap. -/
theorem Written.framed_iff (h : Written cfg sSignature payload s) (hsize : 0 < cfg.uS3AuthV4ChunkSize) :
    Framed cfg sSignature payload.length payload s ↔
      ¬ cfg.Past payload.length ∧
        payload.length + cfg.ullChunks payload.length * cfg.chunkMetadataSize < 0x10000000000000000 := by
  obtain ⟨hfitting, ds, hwrites, rfl, hds, hfull⟩ := h
  have hall := Config.length_le_of_mem_end fun d hd => (hds d hd).2
  have hlength : (writes s.events).flatten.length =
      ds.flatten.length + cfg.ullChunks ds.flatten.length * cfg.chunkMetadataSize := by
    rw [hwrites, Config.length_chunks hsize hall, List.flatten_append, List.length_append,
      List.length_append, Config.ullChunks, ← length_pieces hsize hds hfull]
    rfl
  rw [← hlength]
  constructor
  · intro hframed
    refine ⟨fun hpast => ?_, ?_⟩
    · exact absurd (hfitting.2 hpast) (by rw [hframed.buffer]; decide)
    · have hfits := hframed.length
      rw [Config.contentLength, ← hlength] at hfits
      exact hfits ▸ Nat.mod_lt _ (by decide)
  · rintro ⟨hbuffer, hfits⟩
    refine ⟨Bool.eq_false_iff.2 fun hover => hbuffer (hfitting.1 hover), ?_, ds, rfl,
      fun d hd => (hds d hd).1, hfull, ?_⟩
    · rw [Config.contentLength, ← hlength, Nat.mod_eq_of_lt hfits]
    · rw [hwrites]
      exact Config.readChunks_written hsize hds

/-- Before the first turn. -/
theorem sending_start (sSignature : CString) (hsize : 0 < cfg.uS3AuthV4ChunkSize) (entries : List StreamDataEntry) :
    Sending cfg sSignature (body entries) { queue := entries, sPreviousSignature := sSignature } [] :=
  ⟨⟨rfl, rfl⟩, fun _ hd => absurd hd List.not_mem_nil, rfl, hsize, fun _ => rfl, fun _ _ => rfl,
    fun hne => absurd rfl hne⟩

/-- **The framing of a stream**: for entries of any sizes, the last one marked, the loop ends after as many
turns as there are bytes and entries at most, and what it has written is framed as it should be if and only
if a chunk of the payload fits in the buffer behind its metadata, and the length with the metadata of all
chunks in a `ULONGLONG`. -/
theorem stream_framed (cfg : Config) (sSignature : CString) {entries : List StreamDataEntry}
    {ullTotalLen : ℕ} {os : List Outcome}
    (hV4 : cfg.bS3AuthV4 = true) (hmin : 0x2000 ≤ cfg.uS3AuthV4ChunkSize) (hends : Ends entries)
    (htotal : (body entries).length = ullTotalLen) (hos : ∀ o ∈ os, WritesAll o)
    (hlength : ullTotalLen + entries.length ≤ os.length) :
    ∃ s, ({ queue := entries, sPreviousSignature := sSignature } : State).sendLoop cfg os = (s, .finished) ∧
      (Framed cfg sSignature ullTotalLen (body entries) s ↔
        cfg.chunkMetadataOffset + min cfg.uS3AuthV4ChunkSize ullTotalLen ≤ cfg.sendBufSize ∧
          ullTotalLen + cfg.ullChunks ullTotalLen * cfg.chunkMetadataSize < 0x10000000000000000) := by
  subst htotal
  have hsize : 0 < cfg.uS3AuthV4ChunkSize := by omega
  obtain ⟨s, hloop, hwritten⟩ := (sending_start sSignature hsize entries).sendLoop hV4 hends hos hlength
  refine ⟨s, hloop, (hwritten.framed_iff hsize).trans (and_congr_left' ?_)⟩
  exact Nat.not_lt

/-- The calls succeed, and all is written. -/
def allWritten : Outcome := { write := fun data => .ok data.length }

/-- A turn in which all is written writes all. -/
theorem writesAll_allWritten : WritesAll allWritten := ⟨rfl, fun _ => rfl, rfl⟩

/-- Any number of turns in which all is written write all. -/
theorem writesAll_replicate (n : ℕ) : ∀ o ∈ List.replicate n allWritten, WritesAll o := fun _ ho =>
  List.eq_of_mem_replicate ho ▸ writesAll_allWritten

/-- Chunks of 8k, and an entry with data before an empty one: the loop ends after five turns, and what it has
written is framed. -/
theorem stream_framed_two : ∃ s,
    ({ queue := [{ data := [1, 2, 3] }, { bLast := true }], sPreviousSignature := ['a'] } : State).sendLoop
      { bS3AuthV4 := true } (List.replicate 5 allWritten) = (s, .finished) ∧
    Framed { bS3AuthV4 := true } ['a'] 3 [1, 2, 3] s := by
  have hends : Ends [{ data := [1, 2, 3] }, { bLast := true }] :=
    ⟨[{ data := [1, 2, 3] }], { bLast := true }, rfl, rfl, by simp⟩
  obtain ⟨s, hloop, hframed⟩ := stream_framed { bS3AuthV4 := true } ['a'] rfl (by decide) hends
    rfl (writesAll_replicate 5) (by decide)
  refine ⟨s, hloop, hframed.2 ?_⟩
  have hmeta : Config.chunkMetadataSize { bS3AuthV4 := true } = _ :=
    Config.chunkMetadataSize_eq (by decide)
  have hoffset : Config.chunkMetadataSize { bS3AuthV4 := true } =
      Config.chunkMetadataOffset { bS3AuthV4 := true } + 2 := rfl
  rw [Config.sendBufSize, hmeta]
  rw [hmeta] at hoffset
  simp [Config.ullChunks, uDigits] at hoffset ⊢
  omega

/-- `DefaultS3AuthV4ChunkSize`, the size that a connection starts with. -/
def defaultChunks : Config := { bS3AuthV4 := true, uS3AuthV4ChunkSize := 0x200000 }

/-- Entries of the same size, and one more, the last one. -/
def equalEntries (n size : ℕ) : List StreamDataEntry :=
  List.replicate n { data := List.replicate size 0 } ++ [{ data := List.replicate size 0, bLast := true }]

/-- Entries of the same size end with the last one. -/
theorem ends_equalEntries (n size : ℕ) : Ends (equalEntries n size) :=
  ⟨_, _, rfl, rfl, fun _ he => List.eq_of_mem_replicate he ▸ rfl⟩

/-- Entries of the same size have their number times that size. -/
theorem length_body_equalEntries (n size : ℕ) : (body (equalEntries n size)).length = (n + 1) * size := by
  induction n with
  | zero =>
      rw [equalEntries, List.replicate_zero, List.nil_append, body_cons, List.length_append,
        List.length_replicate, Nat.zero_add, Nat.one_mul]
      rfl
  | succ n ih =>
      rw [equalEntries, List.replicate_succ, List.cons_append, body_cons, List.length_append,
        List.length_replicate]
      rw [equalEntries] at ih
      rw [ih, Nat.succ_mul (n + 1), Nat.add_comm]

/-- A stream whose announced length wraps is not framed. -/
theorem not_framed_of_wraps {entries : List StreamDataEntry} {os : List Outcome}
    (hV4 : cfg.bS3AuthV4 = true) (hsize : 0 < cfg.uS3AuthV4ChunkSize) (hends : Ends entries)
    (hos : ∀ o ∈ os, WritesAll o) (hlength : (body entries).length + entries.length ≤ os.length)
    (hwraps : 0x10000000000000000 ≤
      (body entries).length + cfg.ullChunks (body entries).length * cfg.chunkMetadataSize) :
    ¬ ∃ s, ({ queue := entries, sPreviousSignature := sSignature } : State).sendLoop cfg os =
        (s, .finished) ∧ Framed cfg sSignature (body entries).length (body entries) s := by
  rintro ⟨s, hloop, hframed⟩
  obtain ⟨s', hloop', hwritten⟩ := (sending_start sSignature hsize entries).sendLoop hV4 hends hos hlength
  obtain rfl : s' = s := congrArg Prod.fst (hloop'.symm.trans hloop)
  exact absurd ((hwritten.framed_iff hsize).1 hframed).2 (Nat.not_lt.2 hwraps)

/-- The payload is all but 2^31 of the 2^64 bytes that a `ULONGLONG` counts, and the metadata of its chunks
take more than 2^31 bytes: less is announced than is written. -/
theorem contentLength_wraps : ¬ ∃ s,
    ({ queue := equalEntries (2 ^ 33 - 2) (2 ^ 31), sPreviousSignature := ['a'] } : State).sendLoop
      defaultChunks (List.replicate (2 ^ 65) allWritten) = (s, .finished) ∧
    Framed defaultChunks ['a'] (body (equalEntries (2 ^ 33 - 2) (2 ^ 31))).length
      (body (equalEntries (2 ^ 33 - 2) (2 ^ 31))) s := by
  have htotal := length_body_equalEntries (2 ^ 33 - 2) (2 ^ 31)
  have hcount : (equalEntries (2 ^ 33 - 2) (2 ^ 31)).length = 2 ^ 33 - 2 + 1 := by
    rw [equalEntries, List.length_append, List.length_replicate, List.length_singleton]
  have hmeta : defaultChunks.chunkMetadataSize = 91 := by
    rw [Config.chunkMetadataSize_eq (by decide)]
    simp [defaultChunks, uDigits]
  refine not_framed_of_wraps rfl (by decide) (ends_equalEntries _ _) (writesAll_replicate _) ?_ ?_
  · rw [htotal, hcount, List.length_replicate]
    decide
  · rw [htotal, hmeta]
    decide

end State

end Stream
end ECSUtil

/-
# Sending a stream

The loop of `SendRequestInternal` that sends the entries of a stream, with what it reports as
progress and takes off the quota of a throttled host, `BuildV4ChunkMetadata` and
`CreateS3V4ChunkMetadata` (`ECSUtil/ECSConnection.cpp`).

A turn of the loop (`turn`) is given what the calls of that turn return (`Outcome`).  With version 4
of the signatures the data go through a buffer, `S3AuthV4SendBuf`, where a chunk is put together: it
is sent when it holds the data of a whole chunk, and after the last entry.

The size of `S3AuthV4SendBuf` is set once, to a `UINT`.  The data are copied to their place behind the
metadata by `memcpy_s`, the metadata are copied in front of them by `CopyMemory`, and neither lets the
buffer grow; the line end is set by `SetAt`, which does.  A copy past the end of the buffer is noted in
`overrun`: `memcpy_s` then copies nothing, or bytes behind the buffer are written, and what the chunk
holds is no longer said by the source.  The model goes on with the bytes that should be there.

The string to sign of a chunk is converted with the code page of the system (`ansi`), unlike the parts
of the key and the canonical request, which are UTF-8.
-/

import ECSUtil.Conn.Format
import ECSUtil.Lib.Slice
import ECSUtil.Sign.Key

namespace ECSUtil
namespace Stream

def ERROR_NO_DATA_DETECTED : DWORD := 1104

/-- The characters of a `CStringA`. -/
def toBytes (s : CString) : Bytes := s.map fun c => UInt8.ofNat c.toNat

/-- What a request and its stream are sent with. -/
structure Config where
  bS3AuthV4 : Bool := false
  /-- The size of a chunk, which is never less than 8k. -/
  uS3AuthV4ChunkSize : ℕ := 0x2000
  dwMaxWriteRequest : ℕ := 0
  bUploadThrottle : Bool := false
  /-- There is an `UpdateProgressCB`. -/
  bProgress : Bool := true
  crypto : Sign.Crypto := .standard
  S3SigningKey : Bytes := []
  sS3Region : String := "ECS"
  stRequestTime : SystemTime := SystemTime.zeroFT
  /-- `CP_ACP`, the code page of the system. -/
  ansi : AnsiEncoder := .latin1

/-- `BinaryToHexString`. -/
def binaryToHexString (data : Bytes) : CString := hexStringBy (fun d => Nat.digitChar d.1) data

/-- `uDigits`. -/
def uDigits (uChunkSize : ℕ) : ℕ := if uChunkSize = 0 then 0 else uDigits (uChunkSize / 16) + 1

/-- `%0*x`. -/
def fmtHex (width n : ℕ) : CString :=
  List.replicate (width - (Nat.toDigits 16 n).length) '0' ++ Nat.toDigits 16 n

namespace Config

/-- `BuildV4ChunkMetadata`. -/
def buildV4ChunkMetadata (cfg : Config) (uChunkLength : ℕ) (sSignature : CString) : CString :=
  fmtHex (uDigits cfg.uS3AuthV4ChunkSize) uChunkLength ++ ";chunk-signature=".toList ++ sSignature ++
    ['\r', '\n']

/-- `sEmptySignature`: the hash of nothing. -/
def sEmptySignature (cfg : Config) : CString := binaryToHexString (cfg.crypto.hash [])

/-- `uS3AuthV4ChunkMetadataOffset`. -/
def chunkMetadataOffset (cfg : Config) : ℕ :=
  (cfg.buildV4ChunkMetadata cfg.uS3AuthV4ChunkSize cfg.sEmptySignature).length

/-- `uS3AuthV4ChunkMetadataSize`. -/
def chunkMetadataSize (cfg : Config) : ℕ := cfg.chunkMetadataOffset + 2

/-- The size that `S3AuthV4SendBuf` is given: a `UINT`. -/
def sendBufSize (cfg : Config) : ℕ := (cfg.uS3AuthV4ChunkSize + cfg.chunkMetadataSize) % 0x100000000

/-- The signature of a chunk: the string to sign goes through `CAnsiString`, up to its NUL. -/
def chunkSignature (cfg : Config) (sPreviousSignature : CString) (payload : Bytes) : CString :=
  let sStringToSign := "AWS4-HMAC-SHA256-PAYLOAD\n".toList ++
    formatSystemTime cfg.stRequestTime false true ++ ['\n'] ++
    (Sign.scope cfg.stRequestTime cfg.sS3Region).toList ++ ['\n'] ++
    sPreviousSignature ++ ['\n'] ++ cfg.sEmptySignature ++ ['\n'] ++
    if payload ≠ [] then binaryToHexString (cfg.crypto.hash payload) else cfg.sEmptySignature
  binaryToHexString (cfg.crypto.mac cfg.S3SigningKey ((cfg.ansi.encode sStringToSign).takeWhile (· ≠ 0)))

/-- `CreateS3V4ChunkMetadata`: the bytes of a chunk with this signature. -/
def chunk (cfg : Config) (sSignature : CString) (payload : Bytes) : Bytes :=
  toBytes (cfg.buildV4ChunkMetadata payload.length sSignature) ++ payload ++ [13, 10]

end Config

/-- What is done that can be seen from outside. -/
inductive Event
  /-- `WinHttpWriteData` of these bytes, and how many it says it wrote, if it succeeds. -/
  | write (data : Bytes) (dwBytesWritten : Option ℕ)
  /-- `UpdateProgressCB`. -/
  | progress (iProgress : ℤ)
  /-- Bytes taken off `iBytesCurInterval`. -/
  | deduct (dwBytes : ℕ)
  deriving DecidableEq, Repr

/-- Where the loop is. -/
structure State where
  /-- What is still to come from the queue, without the entry at its front. -/
  queue : List StreamDataEntry := []
  /-- The entry at the front of the queue, while `bStreamBufAvailable`. -/
  front : Option StreamDataEntry := none
  ullCurDataSent : ℕ := 0
  /-- The data in `S3AuthV4SendBuf`, `uS3AuthV4SendBufIndex` bytes. -/
  sendBuf : Bytes := []
  /-- How far `SetAt` has let `S3AuthV4SendBuf` grow. -/
  setAtSize : ℕ := 0
  /-- Bytes were copied past the end of `S3AuthV4SendBuf`. -/
  overrun : Bool := false
  sPreviousSignature : CString := []
  iAccProgress : ℤ := 0
  events : List Event := []
  deriving DecidableEq, Repr

/-- What the calls of a turn return. -/
structure Outcome where
  /-- The error that is thrown when no data come. -/
  wait : Option DWORD := none
  /-- What becomes of a write of some bytes. -/
  write : Bytes → Except DWORD ℕ
  /-- The error that is thrown while the throttle is waited for. -/
  throttle : Option DWORD := none

/-- How a turn ends. -/
inductive Status
  | running
  | finished
  | threw (dwError : DWORD)
  deriving DecidableEq, Repr

/-- An `int`. -/
def toInt (n : ℤ) : ℤ := (n + 0x80000000) % 0x100000000 - 0x80000000

namespace State

def log (s : State) (e : Event) : State := { s with events := s.events ++ [e] }

/-- `WinHttpWriteData`, and the wait for it. -/
def writeData (s : State) (o : Outcome) (data : Bytes) : State × Except DWORD ℕ :=
  match o.write data with
  | .ok n => (s.log (.write data (some n)), .ok n)
  | .error e => (s.log (.write data none), .error e)

/-- Progress is added, and reported. -/
def report (s : State) (cfg : Config) (n : ℕ) : State :=
  if cfg.bProgress then
    { s with iAccProgress := toInt (s.iAccProgress + toInt n) }.log (.progress (toInt n))
  else s

/-- `GetBufSize` of `S3AuthV4SendBuf`. -/
def getBufSize (s : State) (cfg : Config) : ℕ := max cfg.sendBufSize s.setAtSize

/-- Bytes are copied into `S3AuthV4SendBuf`, up to this place. -/
def copyTo (s : State) (cfg : Config) (uEnd : ℕ) : State :=
  { s with overrun := s.overrun || decide (s.getBufSize cfg < uEnd) }

/-- `SetAt` of `S3AuthV4SendBuf`, which grows up to this place. -/
def setAt (s : State) (nIndex : ℕ) : State :=
  { s with setAtSize := max s.setAtSize (nIndex % 0x100000000 + 1) }

/-- `CreateS3V4ChunkMetadata` on the data in the buffer. -/
def createS3V4ChunkMetadata (s : State) (cfg : Config) : State :=
  let sSignature := cfg.chunkSignature s.sPreviousSignature s.sendBuf
  let uIndex := cfg.chunkMetadataOffset + s.sendBuf.length
  ((({ s with sPreviousSignature := sSignature } : State).copyTo cfg
    (cfg.buildV4ChunkMetadata s.sendBuf.length sSignature).length).setAt uIndex).setAt (uIndex + 1)

/-- The data in the buffer are sent as a chunk. -/
def sendChunk (s : State) (cfg : Config) (o : Outcome) : State × Except DWORD ℕ :=
  let s := s.createS3V4ChunkMetadata cfg
  s.writeData o (cfg.chunk s.sPreviousSignature s.sendBuf)

/-- Need more data: the entry at the front of the queue. -/
def takeFront (s : State) (o : Outcome) : Except DWORD (StreamDataEntry × State) :=
  match s.front with
  | some e => .ok (e, s)
  | none =>
      match o.wait with
      | some dwError => .error dwError
      | none =>
          match s.queue with
          | [] => .error ERROR_NO_DATA_DETECTED
          | e :: rest => .ok (e, { s with front := some e, queue := rest, ullCurDataSent := 0 })

/-- Some data of the entry are copied into the buffer. -/
def fillBuffer (s : State) (cfg : Config) (e : StreamDataEntry) : State :=
  let dwDataPartLen :=
    min (e.data.length - s.ullCurDataSent) (cfg.uS3AuthV4ChunkSize - s.sendBuf.length)
  if dwDataPartLen > 0 then
    { s.copyTo cfg (cfg.chunkMetadataOffset + s.sendBuf.length + dwDataPartLen) with
      sendBuf := s.sendBuf ++ slice e.data s.ullCurDataSent dwDataPartLen
      ullCurDataSent := s.ullCurDataSent + dwDataPartLen }
  else s

/-- Some data of the entry are written, or put into the buffer; how many bytes were written. -/
def writePart (s : State) (cfg : Config) (o : Outcome) (e : StreamDataEntry) :
    State × Except DWORD ℕ :=
  if e.data.length ≤ s.ullCurDataSent then (s, .ok 0)
  else if cfg.bS3AuthV4 then
    let s := s.fillBuffer cfg e
    if s.sendBuf.length = cfg.uS3AuthV4ChunkSize then
      let r := s.sendChunk cfg o
      ({ r.1 with sendBuf := [] }, r.2)
    else (s, .ok 0)
  else
    let dwDataPartLen := e.data.length - s.ullCurDataSent
    let dwDataPartLen :=
      if cfg.dwMaxWriteRequest > 0 ∧ dwDataPartLen > cfg.dwMaxWriteRequest then cfg.dwMaxWriteRequest
      else dwDataPartLen
    match s.writeData o (slice e.data s.ullCurDataSent dwDataPartLen) with
    | (s, .ok n) => ({ s with ullCurDataSent := s.ullCurDataSent + n }, .ok n)
    | r => r

/-- Send any remaining data. -/
def sendRest (s : State) (cfg : Config) (o : Outcome) : State × Status :=
  if s.sendBuf ≠ [] then
    match s.sendChunk cfg o with
    | (s', .ok _) => (s'.report cfg (s.sendBuf.length + cfg.chunkMetadataSize), .running)
    | (s', .error dwError) => (s', .threw dwError)
  else (s, .running)

/-- After the last entry: any remaining data, and then the last packet. -/
def finish (s : State) (cfg : Config) (o : Outcome) : State × Status :=
  if !cfg.bS3AuthV4 then (s, .finished)
  else
    match s.sendRest cfg o with
    | (s, .running) =>
        match { s with sendBuf := [] }.sendChunk cfg o with
        | (s, .ok _) => (s, .finished)
        | (s, .error dwError) => (s, .threw dwError)
    | r => r

/-- See if we've used up all of our quota for this interval. -/
def waitThrottle (s : State) (cfg : Config) (o : Outcome) (dwBytesWritten : ℕ) : State × Status :=
  if cfg.bUploadThrottle then
    (s.log (.deduct dwBytesWritten), match o.throttle with
      | some dwError => .threw dwError
      | none => .running)
  else (s, .running)

/-- After the entry was written as far as it was. -/
def endTurn (s : State) (cfg : Config) (o : Outcome) (e : StreamDataEntry) (dwBytesWritten : ℕ) :
    State × Status :=
  if e.data.length ≤ s.ullCurDataSent then
    let s := { s with front := none }
    if e.bLast then s.finish cfg o else s.waitThrottle cfg o dwBytesWritten
  else s.waitThrottle cfg o dwBytesWritten

/-- A turn of the loop. -/
def turn (s : State) (cfg : Config) (o : Outcome) : State × Status :=
  match s.takeFront o with
  | .error dwError => (s, .threw dwError)
  | .ok (e, s) =>
      match s.writePart cfg o e with
      | (s, .error dwError) => (s, .threw dwError)
      | (s, .ok n) => (s.report cfg n).endTurn cfg o e n

/-- The loop, for as many turns as there are outcomes. -/
def sendLoop (cfg : Config) : List Outcome → State → State × Status
  | [], s => (s, .running)
  | o :: os, s =>
      let r := s.turn cfg o
      if r.2 = .running then sendLoop cfg os r.1 else r

end State

/-- What holds whatever is seen from outside, and does not depend on the rest of the state. -/
structure Kept (cfg : Config) (I : State → Prop) : Prop where
  frame : ∀ {s s' : State}, I s → s'.iAccProgress = s.iAccProgress → s'.events = s.events → I s'
  write : ∀ {s : State}, I s → ∀ data n, I (s.log (.write data n))
  report : ∀ {s : State}, I s → ∀ n, I (s.report cfg n)
  deduct : ∀ {s : State}, I s → ∀ n, I (s.log (.deduct n))

namespace Kept

variable {cfg : Config} {I : State → Prop} {s s' : State} {o : Outcome}

/-- A write keeps what each of its steps keeps. -/
theorem writeData (hI : Kept cfg I) (h : I s) (data : Bytes) : I (s.writeData o data).1 := by
  unfold State.writeData
  split
  · exact hI.write h _ _
  · exact hI.write h _ _

/-- The sending of a chunk keeps it. -/
theorem sendChunk (hI : Kept cfg I) (h : I s) : I (s.sendChunk cfg o).1 := by
  have hsigned : I (s.createS3V4ChunkMetadata cfg) := hI.frame h rfl rfl
  exact hI.writeData hsigned _

/-- The filling of the buffer keeps it. -/
theorem fillBuffer (hI : Kept cfg I) (h : I s) (e : StreamDataEntry) : I (s.fillBuffer cfg e) := by
  unfold State.fillBuffer
  dsimp only
  split_ifs
  · exact hI.frame h rfl rfl
  · exact h

/-- The taking of the next entry keeps it. -/
theorem takeFront (hI : Kept cfg I) (h : I s) {e : StreamDataEntry}
    (ht : s.takeFront o = .ok (e, s')) : I s' := by
  unfold State.takeFront at ht
  split at ht
  · obtain ⟨-, rfl⟩ := Prod.mk.inj (Except.ok.inj ht)
    exact h
  · split at ht
    · exact absurd ht (by simp)
    · split at ht
      · exact absurd ht (by simp)
      · obtain ⟨-, rfl⟩ := Prod.mk.inj (Except.ok.inj ht)
        exact hI.frame h rfl rfl

/-- The writing of a part of an entry keeps it. -/
theorem writePart (hI : Kept cfg I) (h : I s) (e : StreamDataEntry) :
    I (s.writePart cfg o e).1 := by
  unfold State.writePart
  by_cases hdone : e.data.length ≤ s.ullCurDataSent
  · rw [if_pos hdone]
    exact h
  rw [if_neg hdone]
  by_cases hV4 : cfg.bS3AuthV4 = true
  · rw [if_pos hV4]
    have hfill : I (s.fillBuffer cfg e) := hI.fillBuffer h e
    dsimp only
    split_ifs
    · exact hI.frame (hI.sendChunk hfill) rfl rfl
    · exact hfill
  · rw [if_neg hV4]
    dsimp only
    generalize slice e.data s.ullCurDataSent _ = data
    have hwrite : I (s.writeData o data).1 := hI.writeData h data
    cases hr : s.writeData o data with
    | mk s' r =>
        rw [hr] at hwrite
        cases r with
        | ok n => exact hI.frame hwrite rfl rfl
        | error dwError => exact hwrite

/-- The sending of the chunks at the end keeps it. -/
theorem sendRest (hI : Kept cfg I) (h : I s) : I (s.sendRest cfg o).1 := by
  unfold State.sendRest
  split_ifs
  · have hchunk : I (s.sendChunk cfg o).1 := hI.sendChunk h
    cases hr : s.sendChunk cfg o with
    | mk s' r =>
        rw [hr] at hchunk
        cases r with
        | ok n => exact hI.report hchunk _
        | error dwError => exact hchunk
  · exact h

/-- The end of the loop keeps it. -/
theorem finish (hI : Kept cfg I) (h : I s) : I (s.finish cfg o).1 := by
  unfold State.finish
  split_ifs
  · exact h
  · have hrest : I (s.sendRest cfg o).1 := hI.sendRest h
    cases hr : s.sendRest cfg o with
    | mk s' r =>
        rw [hr] at hrest
        cases r with
        | running =>
            have hlast : I ({ s' with sendBuf := [] }.sendChunk cfg o).1 :=
              hI.sendChunk (hI.frame hrest rfl rfl)
            dsimp only
            cases hc : { s' with sendBuf := [] }.sendChunk cfg o with
            | mk s'' c =>
                rw [hc] at hlast
                cases c <;> exact hlast
        | finished => exact hrest
        | threw dwError => exact hrest

/-- The wait for the throttle keeps it. -/
theorem waitThrottle (hI : Kept cfg I) (h : I s) (n : ℕ) : I (s.waitThrottle cfg o n).1 := by
  unfold State.waitThrottle
  split_ifs
  · exact hI.deduct h n
  · exact h

/-- The end of a turn keeps it. -/
theorem endTurn (hI : Kept cfg I) (h : I s) (e : StreamDataEntry) (n : ℕ) :
    I (s.endTurn cfg o e n).1 := by
  have hpop : I { s with front := none } := hI.frame h rfl rfl
  unfold State.endTurn
  dsimp only
  split_ifs
  · exact hI.finish hpop
  · exact hI.waitThrottle hpop n
  · exact hI.waitThrottle h n

/-- A turn of the loop keeps it. -/
theorem turn (hI : Kept cfg I) (h : I s) : I (s.turn cfg o).1 := by
  unfold State.turn
  cases ht : s.takeFront o with
  | error dwError => exact h
  | ok r =>
      obtain ⟨e, s₁⟩ := r
      have hpart : I (s₁.writePart cfg o e).1 := hI.writePart (hI.takeFront h ht) e
      dsimp only
      cases hw : s₁.writePart cfg o e with
      | mk s₂ w =>
          rw [hw] at hpart
          cases w with
          | error dwError => exact hpart
          | ok n => exact hI.endTurn (hI.report hpart n) e n

/-- **It holds after any number of turns.** The induction is on the outcomes, with the loop at its
end where a turn is not `running`. -/
theorem sendLoop (hI : Kept cfg I) (h : I s) (os : List Outcome) : I (s.sendLoop cfg os).1 := by
  induction os generalizing s with
  | nil => exact h
  | cons o os ih =>
      unfold State.sendLoop
      dsimp only
      split_ifs
      · exact ih (hI.turn h)
      · exact hI.turn h

end Kept

end Stream
end ECSUtil

/-
# The grammar of aws-chunked

A signed stream is a sequence of chunks, each with the size of its data in hexadecimal digits, its signature
and its data; the first chunk without data is the last one.  `readChunk` and `readChunks` read by this
grammar, whoever wrote it.

What `CreateS3V4ChunkMetadata` (`ECSUtil/ECSConnection.cpp`) writes is read back as it was written
(`readChunks_written`), and is as long as `SendRequestInternal` takes it to be (`chunk_length`).

The reader is given no size of a chunk and no signature: it takes the digits up to the semicolon for
the size and what is between the token and the end of the line for the signature, and what it has
read is compared with what was signed only afterwards.
-/

import ECSUtil.Lib.Percent
import ECSUtil.Stream.Send

namespace ECSUtil
namespace Stream

/-- The value of a hexadecimal digit. -/
def hexDigitValue (b : UInt8) : Option ℕ := Percent.hexValue (Char.ofNat b.toNat)

/-- One more digit. -/
def addDigit (n : ℕ) (b : UInt8) : Option ℕ := (hexDigitValue b).map (16 * n + ·)

/-- A hexadecimal number, of a digit at least. -/
def hexNumber (digits : Bytes) : Option ℕ := if digits = [] then none else digits.foldlM addDigit 0

/-- What is behind a token. -/
def expect (token data : Bytes) : Option Bytes :=
  if token <+: data then some (data.drop token.length) else none

/-- 64 hexadecimal digits. -/
def isSignature (b : Bytes) : Bool := b.length = 64 ∧ b.all fun b => (hexDigitValue b).isSome

def signatureToken : Bytes := toBytes ";chunk-signature=".toList

/-- The chunk at the front: its signature and its data, and what is behind it. -/
def readChunk (b : Bytes) : Option ((Bytes × Bytes) × Bytes) :=
  (hexNumber (b.takeWhile (· ≠ 59))).bind fun n =>
    (expect signatureToken (b.dropWhile (· ≠ 59))).bind fun b =>
      let sSignature := b.takeWhile (· ≠ 13)
      (expect [13, 10] (b.dropWhile (· ≠ 13))).bind fun b =>
        if isSignature sSignature ∧ n ≤ b.length then
          (expect [13, 10] (b.drop n)).map fun rest => ((sSignature, b.take n), rest)
        else none

/-- All chunks, up to the one without data, which is the end; for as many chunks as `fuel` at most. -/
def readUpTo : ℕ → Bytes → Option (List (Bytes × Bytes))
  | 0, _ => none
  | fuel + 1, b =>
      (readChunk b).bind fun r =>
        if r.1.2 = [] then if r.2 = [] then some [r.1] else none
        else (readUpTo fuel r.2).map (r.1 :: ·)

/-- **The chunks of a stream.** -/
def readChunks (b : Bytes) : Option (List (Bytes × Bytes)) := readUpTo b.length b

namespace Config

/-- The chunks of these data, each signed with the signature of the one before it. -/
def signed (cfg : Config) : CString → List Bytes → List (CString × Bytes)
  | _, [] => []
  | sPreviousSignature, d :: ds =>
      let sSignature := cfg.chunkSignature sPreviousSignature d
      (sSignature, d) :: signed cfg sSignature ds

end Config

/-- A token is read where it stands. -/
theorem expect_append (token rest : Bytes) : expect token (token ++ rest) = some rest := by
  unfold expect
  rw [if_pos (List.prefix_append token rest), List.drop_left]

/-- A digit that is written is read. -/
theorem hexDigitValue_digitChar {d : ℕ} (h : d < 16) :
    hexDigitValue (UInt8.ofNat (Nat.digitChar d).toNat) = some d := by
  revert d
  decide

/-- A number is written with digits. -/
theorem exists_of_mem_toDigits {n : ℕ} {c : Char} (h : c ∈ Nat.toDigits 16 n) :
    ∃ d < 16, c = Nat.digitChar d := by
  induction n using Nat.strongRecOn with
  | ind n ih =>
      rw [Nat.toDigits_eq_if (by decide)] at h
      split_ifs at h with hlt
      · exact ⟨n, hlt, List.mem_singleton.1 h⟩
      · rcases List.mem_append.1 h with h | h
        · exact ih (n / 16) (by omega) h
        · exact ⟨n % 16, Nat.mod_lt n (by decide), List.mem_singleton.1 h⟩

/-- The characters of a hexadecimal number. -/
theorem exists_of_mem_fmtHex {width n : ℕ} {c : Char} (h : c ∈ fmtHex width n) :
    ∃ d < 16, c = Nat.digitChar d := by
  rcases List.mem_append.1 h with h | h
  · exact ⟨0, by decide, List.eq_of_mem_replicate h⟩
  · exact exists_of_mem_toDigits h

/-- Bytes are written with digits. -/
theorem exists_of_mem_binaryToHexString {data : Bytes} {c : Char} (h : c ∈ binaryToHexString data) :
    ∃ d < 16, c = Nat.digitChar d := by
  obtain ⟨b, -, hc⟩ := List.mem_flatMap.1 h
  rcases List.mem_cons.1 hc with rfl | hc
  · exact ⟨_, by have := b.toNat_lt; omega, rfl⟩
  · exact ⟨_, Nat.mod_lt _ (by decide), List.mem_singleton.1 hc⟩

/-- Characters that are hexadecimal digits are bytes that are. -/
theorem isSome_of_mem_toBytes {s : CString} (h : ∀ c ∈ s, ∃ d < 16, c = Nat.digitChar d) {b : UInt8}
    (hb : b ∈ toBytes s) : (hexDigitValue b).isSome = true := by
  obtain ⟨c, hc, rfl⟩ := List.mem_map.1 hb
  obtain ⟨d, hd, rfl⟩ := h c hc
  rw [hexDigitValue_digitChar hd]
  rfl

/-- The digits of a number are read as the number. -/
theorem foldlM_toDigits (n : ℕ) : (toBytes (Nat.toDigits 16 n)).foldlM addDigit 0 = some n := by
  induction n using Nat.strongRecOn with
  | ind n ih =>
      rw [Nat.toDigits_eq_if (by decide)]
      split_ifs with hlt
      · show addDigit 0 _ >>= some = some n
        rw [addDigit, hexDigitValue_digitChar hlt]
        show some (16 * 0 + n) = some n
        rw [Nat.mul_zero, Nat.zero_add]
      · unfold toBytes
        rw [List.map_append, List.foldlM_append]
        show (toBytes (Nat.toDigits 16 (n / 16))).foldlM addDigit 0 >>= _ = _
        rw [ih (n / 16) (by omega)]
        show addDigit (n / 16) _ >>= some = some n
        rw [addDigit, hexDigitValue_digitChar (Nat.mod_lt n (by decide))]
        exact congrArg some (Nat.div_add_mod n 16)

/-- Zeros in front change nothing. -/
theorem foldlM_zeros (k : ℕ) : (toBytes (List.replicate k '0')).foldlM addDigit 0 = some 0 := by
  induction k with
  | zero => rfl
  | succ k ih =>
      show addDigit 0 48 >>= _ = _
      rw [show addDigit 0 48 = some 0 by decide]
      exact ih

/-- **A size is read back.** The zeros in front add nothing to the number, and there is one digit at
least. -/
theorem hexNumber_fmtHex (width n : ℕ) : hexNumber (toBytes (fmtHex width n)) = some n := by
  have hne : toBytes (fmtHex width n) ≠ [] := fun h =>
    Nat.toDigits_ne_nil (List.append_eq_nil_iff.1 (List.map_eq_nil_iff.1 h)).2
  unfold hexNumber
  rw [if_neg hne, fmtHex]
  unfold toBytes
  rw [List.map_append, List.foldlM_append]
  show (toBytes (List.replicate _ '0')).foldlM addDigit 0 >>= _ = _
  rw [foldlM_zeros]
  exact foldlM_toDigits n

/-- Bytes that are no end mark, and what starts with the end mark. -/
theorem span_append {l m : Bytes} {x : UInt8} (hl : ∀ b ∈ l, b ≠ x) (hm : m.head? = some x) :
    (l ++ m).takeWhile (· ≠ x) = l ∧ (l ++ m).dropWhile (· ≠ x) = m := by
  obtain ⟨rest, rfl⟩ := List.head?_eq_some_iff.1 hm
  have hall : ∀ b ∈ l, decide (b ≠ x) = true := fun b hb => decide_eq_true (hl b hb)
  constructor
  · rw [List.takeWhile_append_of_pos hall, List.takeWhile_cons_of_neg (by simp), List.append_nil]
  · rw [List.dropWhile_append_of_pos hall, List.dropWhile_cons_of_neg (by simp)]

namespace Config

variable {cfg : Config} {sSignature : CString}

/-- **A chunk is read back**, with its signature and its data. What is behind the chunk is left
over, whatever it is; for the size in front says how many bytes are data. -/
theorem readChunk_chunk (hsig : isSignature (toBytes sSignature) = true) (data rest : Bytes) :
    readChunk (cfg.chunk sSignature data ++ rest) = some ((toBytes sSignature, data), rest) := by
  have hsize : ∀ b ∈ toBytes (fmtHex (uDigits cfg.uS3AuthV4ChunkSize) data.length), b ≠ 59 := by
    intro b hb
    have := isSome_of_mem_toBytes (fun c hc => exists_of_mem_fmtHex hc) hb
    rintro rfl
    exact absurd this (by decide)
  have hsignature : ∀ b ∈ toBytes sSignature, b ≠ 13 := by
    intro b hb
    have := List.all_eq_true.1 (of_decide_eq_true hsig).2 b hb
    rintro rfl
    exact absurd this (by decide)
  have hchunk : cfg.chunk sSignature data ++ rest =
      toBytes (fmtHex (uDigits cfg.uS3AuthV4ChunkSize) data.length) ++
        (signatureToken ++ (toBytes sSignature ++ ([13, 10] ++ (data ++ ([13, 10] ++ rest))))) := by
    unfold chunk buildV4ChunkMetadata signatureToken toBytes
    simp only [List.map_append, List.append_assoc]
    rfl
  obtain ⟨htake, hdrop⟩ := span_append hsize
    (show (signatureToken ++ (toBytes sSignature ++ ([13, 10] ++ (data ++ ([13, 10] ++ rest))))).head? =
      some (59 : UInt8) from rfl)
  obtain ⟨htake', hdrop'⟩ := span_append hsignature
    (show ([13, 10] ++ (data ++ ([13, 10] ++ rest)) : Bytes).head? = some 13 from rfl)
  have hlength : data.length ≤ (data ++ ([13, 10] ++ rest)).length := by
    rw [List.length_append]
    omega
  unfold readChunk
  rw [hchunk, htake, hdrop, hexNumber_fmtHex, Option.bind_some, expect_append, Option.bind_some]
  dsimp only
  rw [htake', hdrop', expect_append, Option.bind_some, if_pos ⟨hsig, hlength⟩, List.drop_left,
    List.take_left, expect_append]
  rfl

end Config

/-- A text has as many bytes as characters here. -/
@[simp] theorem length_toBytes (s : CString) : (toBytes s).length = s.length := List.length_map ..

/-- Bytes are written with two digits each. -/
theorem length_binaryToHexString (data : Bytes) :
    (binaryToHexString data).length = 2 * data.length := by
  unfold binaryToHexString hexStringBy
  induction data with
  | nil => rfl
  | cons b data ih =>
      rw [List.flatMap_cons, List.length_append, ih, List.length_cons]
      show 2 + 2 * data.length = 2 * (data.length + 1)
      omega

/-- The hexadecimal digits of 32 bytes. -/
theorem isSignature_binaryToHexString {data : Bytes} (h : data.length = 32) :
    isSignature (toBytes (binaryToHexString data)) = true := by
  refine decide_eq_true ⟨?_, List.all_eq_true.2 fun b hb => ?_⟩
  · rw [length_toBytes, length_binaryToHexString, h]
  · exact isSome_of_mem_toBytes (fun c hc => exists_of_mem_binaryToHexString hc) hb

/-- There are enough digits for the number. -/
theorem lt_pow_uDigits (n : ℕ) : n < 16 ^ uDigits n := by
  induction n using uDigits.induct with
  | case1 => exact Nat.pow_pos (by decide)
  | case2 n hn ih =>
      rw [uDigits, if_neg hn, Nat.pow_succ]
      omega

/-- A size that is not greater than the one of a chunk has as many digits. -/
theorem length_fmtHex {n size : ℕ} (h : n ≤ size) (hsize : 0 < size) :
    (fmtHex (uDigits size) n).length = uDigits size := by
  have hpos : 0 < uDigits size := by
    rw [uDigits, if_neg (by omega)]
    omega
  have hlength : (Nat.toDigits 16 n).length ≤ uDigits size :=
    (Nat.length_toDigits_le_iff (by decide) hpos).2 (Nat.lt_of_le_of_lt h (lt_pow_uDigits size))
  rw [fmtHex, List.length_append, List.length_replicate]
  omega

namespace Config

variable {cfg : Config} {sSignature : CString}

/-- The signature of a chunk is one to a reader. -/
theorem isSignature_chunkSignature (sPreviousSignature : CString) (data : Bytes) :
    isSignature (toBytes (cfg.chunkSignature sPreviousSignature data)) = true :=
  isSignature_binaryToHexString (cfg.crypto.mac_length ..)

/-- One more chunk is signed with the signature of the last one. -/
theorem signed_append (ds : List Bytes) (d : Bytes) :
    cfg.signed sSignature (ds ++ [d]) = cfg.signed sSignature ds ++
      [(cfg.chunkSignature (ds.foldl cfg.chunkSignature sSignature) d, d)] := by
  induction ds generalizing sSignature with
  | nil => rfl
  | cons first ds ih =>
      rw [List.cons_append, signed, ih, signed, List.foldl_cons]
      rfl

/-- The bytes of chunks. -/
def chunks (cfg : Config) (l : List (CString × Bytes)) : List Bytes :=
  l.map fun c => cfg.chunk c.1 c.2

/-- A chunk is written in front of those behind it, which are signed after it. -/
theorem chunks_signed_cons (d : Bytes) (ds : List Bytes) :
    (cfg.chunks (cfg.signed sSignature (d :: ds))).flatten =
      cfg.chunk (cfg.chunkSignature sSignature d) d ++
        (cfg.chunks (cfg.signed (cfg.chunkSignature sSignature d) ds)).flatten := List.flatten_cons ..

/-- No chunks write nothing. -/
theorem chunks_signed_nil : (cfg.chunks (cfg.signed sSignature [])).flatten = [] := List.flatten_nil ..

/-- Chunks with data and one without are read back, as they were signed. -/
theorem readUpTo_signed {ds : List Bytes} (hne : ∀ d ∈ ds, d ≠ []) {fuel : ℕ} (hfuel : ds.length < fuel) :
    readUpTo fuel (cfg.chunks (cfg.signed sSignature (ds ++ [[]]))).flatten =
      some ((cfg.signed sSignature (ds ++ [[]])).map fun c => (toBytes c.1, c.2)) := by
  induction ds generalizing sSignature fuel with
  | nil =>
      obtain ⟨fuel, rfl⟩ := Nat.exists_eq_succ_of_ne_zero (Nat.ne_of_gt hfuel)
      rw [List.nil_append, chunks_signed_cons, chunks_signed_nil, readUpTo,
        readChunk_chunk (isSignature_chunkSignature sSignature []), Option.bind_some, if_pos rfl, if_pos rfl]
      rfl
  | cons d ds ih =>
      obtain ⟨fuel, rfl⟩ := Nat.exists_eq_succ_of_ne_zero (Nat.ne_of_gt (Nat.zero_lt_of_lt hfuel))
      have hd : d ≠ [] := hne d List.mem_cons_self
      have hrest : readUpTo fuel
          (cfg.chunks (cfg.signed (cfg.chunkSignature sSignature d) (ds ++ [[]]))).flatten = _ :=
        ih (fun d hd => hne d (List.mem_cons_of_mem _ hd)) (Nat.lt_of_succ_lt_succ hfuel)
      rw [List.cons_append, chunks_signed_cons, readUpTo,
        readChunk_chunk (isSignature_chunkSignature sSignature d), Option.bind_some, if_neg hd, hrest]
      rfl

/-- What is between the size and the signature is as long as the source counts it. -/
theorem signature_length : ";chunk-signature=".toList.length = 17 := by decide

/-- The size of all that is not data in a chunk. -/
theorem chunkMetadataSize_eq (hsize : 0 < cfg.uS3AuthV4ChunkSize) :
    cfg.chunkMetadataSize = uDigits cfg.uS3AuthV4ChunkSize + 85 := by
  unfold chunkMetadataSize chunkMetadataOffset buildV4ChunkMetadata sEmptySignature
  rw [List.length_append, List.length_append, List.length_append, length_fmtHex (Nat.le_refl _) hsize,
    length_binaryToHexString, cfg.crypto.hash_length, signature_length]
  rfl

/-- **The metadata in front of the data** are as long as they are taken to be. The size of the data
is written with as many digits as that of a full chunk has, so the length does not depend on the
data. -/
theorem length_buildV4ChunkMetadata (hsig : sSignature.length = 64) {n : ℕ}
    (hn : n ≤ cfg.uS3AuthV4ChunkSize) (hsize : 0 < cfg.uS3AuthV4ChunkSize) :
    (cfg.buildV4ChunkMetadata n sSignature).length = cfg.chunkMetadataOffset := by
  have hmeta := chunkMetadataSize_eq hsize
  unfold chunkMetadataSize at hmeta
  unfold buildV4ChunkMetadata
  rw [List.length_append, List.length_append, List.length_append, length_fmtHex hn hsize, hsig,
    signature_length]
  show uDigits _ + 17 + 64 + 2 = _
  omega

/-- **A chunk is as long as it is taken to be.** The metadata are in front and the end of a line is
behind the data, which are the two parts of `uS3AuthV4ChunkMetadataSize`. -/
theorem chunk_length (hsig : sSignature.length = 64) {data : Bytes}
    (hdata : data.length ≤ cfg.uS3AuthV4ChunkSize) (hsize : 0 < cfg.uS3AuthV4ChunkSize) :
    (cfg.chunk sSignature data).length = data.length + cfg.chunkMetadataSize := by
  unfold chunk chunkMetadataSize
  rw [List.length_append, List.length_append, length_toBytes,
    length_buildV4ChunkMetadata hsig hdata hsize]
  show cfg.chunkMetadataOffset + data.length + 2 = _
  omega

/-- A signature has 64 digits. -/
theorem length_chunkSignature (sPreviousSignature : CString) (data : Bytes) :
    (cfg.chunkSignature sPreviousSignature data).length = 64 := by
  unfold chunkSignature
  rw [length_binaryToHexString, cfg.crypto.mac_length]

/-- The length of chunks. -/
theorem length_chunks (hsize : 0 < cfg.uS3AuthV4ChunkSize) {ds : List Bytes}
    (hds : ∀ d ∈ ds, d.length ≤ cfg.uS3AuthV4ChunkSize) :
    (cfg.chunks (cfg.signed sSignature ds)).flatten.length =
      ds.flatten.length + ds.length * cfg.chunkMetadataSize := by
  induction ds generalizing sSignature with
  | nil =>
      rw [chunks_signed_nil, List.flatten_nil, List.length_nil, List.length_nil, Nat.zero_mul]
  | cons d ds ih =>
      have hrest : (cfg.chunks (cfg.signed (cfg.chunkSignature sSignature d) ds)).flatten.length = _ :=
        ih fun d hd => hds d (List.mem_cons_of_mem _ hd)
      rw [chunks_signed_cons, List.length_append, hrest, chunk_length (length_chunkSignature sSignature d)
        (hds d List.mem_cons_self) hsize, List.flatten_cons, List.length_append, List.length_cons,
        Nat.succ_mul]
      omega

/-- The chunk without data is not longer than any other. -/
theorem length_le_of_mem_end {ds : List Bytes} {n : ℕ} (hds : ∀ d ∈ ds, d.length ≤ n) :
    ∀ d ∈ ds ++ [[]], d.length ≤ n := by
  intro d hd
  rcases List.mem_append.1 hd with hd | hd
  · exact hds d hd
  · rw [List.mem_singleton.1 hd]
    exact Nat.zero_le n

/-- **What is written is read back**: the chunks, each with the signature it was signed with. The
reader goes on until the chunk without data, so the data of those in front must not be empty. -/
theorem readChunks_written (hsize : 0 < cfg.uS3AuthV4ChunkSize) {ds : List Bytes}
    (hds : ∀ d ∈ ds, d ≠ [] ∧ d.length ≤ cfg.uS3AuthV4ChunkSize) :
    readChunks (cfg.chunks (cfg.signed sSignature (ds ++ [[]]))).flatten =
      some ((cfg.signed sSignature (ds ++ [[]])).map fun c => (toBytes c.1, c.2)) := by
  have hlength : (cfg.chunks (cfg.signed sSignature (ds ++ [[]]))).flatten.length = _ :=
    length_chunks hsize (length_le_of_mem_end fun d hd => (hds d hd).2)
  refine readUpTo_signed (fun d hd => (hds d hd).1) ?_
  have hmeta : 1 ≤ cfg.chunkMetadataSize := by
    rw [chunkMetadataSize_eq hsize]
    omega
  have hcount : (ds ++ [[]]).length = ds.length + 1 := List.length_append
  have hmul := Nat.mul_le_mul_left (ds.length + 1) hmeta
  rw [hlength, hcount]
  omega

end Config

end Stream
end ECSUtil

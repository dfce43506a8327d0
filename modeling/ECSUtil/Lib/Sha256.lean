/-
# SHA-256 and HMAC

The hash function and the message authentication code that the Windows library
supplies under the names `BCRYPT_SHA256_ALGORITHM` (with and without a key), as
functions on lists of bytes.  Words are numbers below `2 ^ 32`.  Nothing is
proved of them but the length of what they return (`sha256_length`,
`hmacSha256_length`): they are here to be computed.

The definitions follow the standard step by step: the padding of a message, the schedule of a block,
sixty-four rounds, and the sum with the hash so far; the authentication code is the hash of the key
with one pad and of the hash with the other.
-/

import Mathlib.Data.List.Basic

namespace Sha256

/-- A word, cut to 32 bits. -/
def word (n : ℕ) : ℕ := n % 0x100000000

def rotr (x n : ℕ) : ℕ := word (x >>> n ||| x <<< (32 - n))

def ch (x y z : ℕ) : ℕ := (x &&& y) ^^^ ((0xffffffff - x) &&& z)

def maj (x y z : ℕ) : ℕ := (x &&& y) ^^^ (x &&& z) ^^^ (y &&& z)

def bigSigma0 (x : ℕ) : ℕ := rotr x 2 ^^^ rotr x 13 ^^^ rotr x 22

def bigSigma1 (x : ℕ) : ℕ := rotr x 6 ^^^ rotr x 11 ^^^ rotr x 25

def smallSigma0 (x : ℕ) : ℕ := rotr x 7 ^^^ rotr x 18 ^^^ x >>> 3

def smallSigma1 (x : ℕ) : ℕ := rotr x 17 ^^^ rotr x 19 ^^^ x >>> 10

/-- The round constants. -/
def roundConstants : List ℕ :=
  [0x428a2f98, 0x71374491, 0xb5c0fbcf, 0xe9b5dba5, 0x3956c25b, 0x59f111f1, 0x923f82a4, 0xab1c5ed5,
   0xd807aa98, 0x12835b01, 0x243185be, 0x550c7dc3, 0x72be5d74, 0x80deb1fe, 0x9bdc06a7, 0xc19bf174,
   0xe49b69c1, 0xefbe4786, 0x0fc19dc6, 0x240ca1cc, 0x2de92c6f, 0x4a7484aa, 0x5cb0a9dc, 0x76f988da,
   0x983e5152, 0xa831c66d, 0xb00327c8, 0xbf597fc7, 0xc6e00bf3, 0xd5a79147, 0x06ca6351, 0x14292967,
   0x27b70a85, 0x2e1b2138, 0x4d2c6dfc, 0x53380d13, 0x650a7354, 0x766a0abb, 0x81c2c92e, 0x92722c85,
   0xa2bfe8a1, 0xa81a664b, 0xc24b8b70, 0xc76c51a3, 0xd192e819, 0xd6990624, 0xf40e3585, 0x106aa070,
   0x19a4c116, 0x1e376c08, 0x2748774c, 0x34b0bcb5, 0x391c0cb3, 0x4ed8aa4a, 0x5b9cca4f, 0x682e6ff3,
   0x748f82ee, 0x78a5636f, 0x84c87814, 0x8cc70208, 0x90befffa, 0xa4506ceb, 0xbef9a3f7, 0xc67178f2]

/-- The working variables, and the hash between two blocks. -/
structure Digest where
  a : ℕ
  b : ℕ
  c : ℕ
  d : ℕ
  e : ℕ
  f : ℕ
  g : ℕ
  h : ℕ

/-- The hash before the first block. -/
def Digest.start : Digest :=
  ⟨0x6a09e667, 0xbb67ae85, 0x3c6ef372, 0xa54ff53a, 0x510e527f, 0x9b05688c, 0x1f83d9ab, 0x5be0cd19⟩

/-- The message schedule, from a window of sixteen words on: these, and `t` more. -/
def schedule (t a b c d e f g h i j k l m n o p : ℕ) : List ℕ :=
  match t with
  | 0 => [a, b, c, d, e, f, g, h, i, j, k, l, m, n, o, p]
  | t + 1 =>
      a :: schedule t b c d e f g h i j k l m n o p (word (smallSigma1 o + j + smallSigma0 b + a))

/-- One round, with its constant and its word. -/
def Digest.round (s : Digest) (kw : ℕ × ℕ) : Digest :=
  let t1 := s.h + bigSigma1 s.e + ch s.e s.f s.g + kw.1 + kw.2
  let t2 := bigSigma0 s.a + maj s.a s.b s.c
  ⟨word (t1 + t2), s.a, s.b, s.c, word (s.d + t1), s.e, s.f, s.g⟩

/-- One block of sixteen words. -/
def Digest.compress (s : Digest) (block : List ℕ) : Digest :=
  let words := match block with
    | [a, b, c, d, e, f, g, h, i, j, k, l, m, n, o, p] => schedule 48 a b c d e f g h i j k l m n o p
    | _ => []
  let t := (roundConstants.zip words).foldl Digest.round s
  ⟨word (s.a + t.a), word (s.b + t.b), word (s.c + t.c), word (s.d + t.d),
    word (s.e + t.e), word (s.f + t.f), word (s.g + t.g), word (s.h + t.h)⟩

/-- The bytes of a number, the most significant first. -/
def bigEndian : ℕ → ℕ → List UInt8
  | 0, _ => []
  | n + 1, x => bigEndian n (x / 256) ++ [UInt8.ofNat x]

/-- A number has as many bytes as it is given. -/
@[simp] theorem bigEndian_length (n x : ℕ) : (bigEndian n x).length = n := by
  induction n generalizing x with
  | zero => rfl
  | succ n ih => simp [bigEndian, ih]

def Digest.bytes (s : Digest) : List UInt8 :=
  [s.a, s.b, s.c, s.d, s.e, s.f, s.g, s.h].flatMap (bigEndian 4)

/-- A message with its padding. -/
def pad (msg : List UInt8) : List UInt8 :=
  msg ++ 0x80 :: List.replicate ((119 - msg.length % 64) % 64) 0 ++ bigEndian 8 (8 * msg.length)

/-- The number that a list of bytes spells, the most significant first. -/
def ofBytes (bs : List UInt8) : ℕ := bs.foldl (fun n b => 256 * n + b.toNat) 0

/-- The consecutive runs of `n` elements, `k` of them. -/
def pieces {α : Type*} (n : ℕ) : ℕ → List α → List (List α)
  | 0, _ => []
  | k + 1, l => l.take n :: pieces n k (l.drop n)

end Sha256

open Sha256

/-- SHA-256. -/
def sha256 (msg : List UInt8) : List UInt8 :=
  let padded := pad msg
  ((pieces 64 (padded.length / 64) padded).foldl
    (fun s block => s.compress ((pieces 4 16 block).map ofBytes)) Digest.start).bytes

/-- HMAC with SHA-256. -/
def hmacSha256 (key msg : List UInt8) : List UInt8 :=
  let key := if key.length > 64 then sha256 key else key
  let key := key ++ List.replicate (64 - key.length) 0
  sha256 (key.map (· ^^^ 0x5c) ++ sha256 (key.map (· ^^^ 0x36) ++ msg))

/-- A hash has 32 bytes. -/
@[simp] theorem sha256_length (msg : List UInt8) : (sha256 msg).length = 32 := by
  simp [sha256, Digest.bytes]

/-- A message authentication code has 32 bytes. -/
@[simp] theorem hmacSha256_length (key msg : List UInt8) : (hmacSha256 key msg).length = 32 :=
  sha256_length _

/-- The hash of nothing. -/
example : (sha256 []).take 4 = [0xe3, 0xb0, 0xc4, 0x42] := by decide +kernel

/-- The code of `Hi There` under a key of twenty bytes `0x0b`. -/
example : (hmacSha256 (List.replicate 20 0x0b)
    [0x48, 0x69, 0x20, 0x54, 0x68, 0x65, 0x72, 0x65]).take 4 = [0xb0, 0x34, 0x4c, 0x61] := by
  decide +kernel

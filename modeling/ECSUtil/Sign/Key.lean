/-
# Signing keys

`CreateS3SigningKey` and the cached key that `signRequestS3v4` looks up
(`ECSUtil/ECSConnection.cpp`), and the texts both put into what is signed: the
date, the credential scope, hexadecimal digits.

The hash functions belong to Windows, so everything is over any `Crypto`, of which
only the length of what it returns is known; `Crypto.standard` is the real one.

The cached key is looked up by the day alone.  What it has to be is said by `KeyCache.Holds`: that
it was made of the secret and the region given, for the day that it is kept with.  Both of the
setters that change one of them are judged by it in the modules that follow.
-/

import ECSUtil.Conn.Stream
import ECSUtil.Conn.Time
import ECSUtil.Lib.CodePage
import ECSUtil.Lib.Sha256

namespace ECSUtil

/-- A number in digits of a base, padded with zeros: `%0*d` and `%0*x`. -/
def formatNat (base width n : ℕ) : String :=
  let digits := Nat.toDigits base n
  String.ofList (List.replicate (width - digits.length) '0' ++ digits)

namespace SystemTime

/-- `%04d%02d%02d`. -/
def date (st : SystemTime) : String :=
  formatNat 10 4 st.wYear ++ formatNat 10 2 st.wMonth ++ formatNat 10 2 st.wDay

/-- Times of one day have the same date. -/
theorem SameDay.date_eq {st st' : SystemTime} (h : SameDay st st') : st.date = st'.date := by
  obtain ⟨hy, hm, hd⟩ := h
  simp only [date, hy, hm, hd]

end SystemTime

namespace Sign

/-- The SHA-256 of the Windows library, without a key and with one. -/
structure Crypto where
  hash : Bytes → Bytes
  mac : Bytes → Bytes → Bytes
  hash_length : ∀ data, (hash data).length = 32
  mac_length : ∀ key data, (mac key data).length = 32

/-- SHA-256 and HMAC themselves. -/
def Crypto.standard : Crypto := ⟨sha256, hmacSha256, sha256_length, hmacSha256_length⟩

/-- What `CAnsiString::Set` makes of a string for `CP_UTF8`. -/
def utf8 (s : String) : Bytes := CodePage.utf8 s.toList

/-- The credential scope, as it is named in a string to sign and in an
`Authorization` header. -/
def scope (st : SystemTime) (sS3Region : String) : String :=
  st.date ++ "/" ++ sS3Region ++ "/s3/aws4_request"

/-- The key that `CreateS3SigningKey` makes, before it is stored. -/
def createS3SigningKey (C : Crypto) (secretStr sS3Region : String) (st : SystemTime) : Bytes :=
  let dateKey := C.mac (utf8 ("AWS4" ++ secretStr)) (utf8 st.date)
  let dateRegionKey := C.mac dateKey (utf8 sS3Region)
  let dateRegionServiceKey := C.mac dateRegionKey (utf8 "s3")
  C.mac dateRegionServiceKey (utf8 "aws4_request")

/-- The key depends on the day only. -/
theorem createS3SigningKey_sameDay (C : Crypto) (secretStr sS3Region : String)
    {st st' : SystemTime} (h : st.SameDay st') :
    createS3SigningKey C secretStr sS3Region st = createS3SigningKey C secretStr sS3Region st' := by
  simp only [createS3SigningKey, h.date_eq]

/-- `GlobalS3V4SigningKey` and `ftS3V4SigningKey`. -/
structure KeyCache where
  globalS3V4SigningKey : Bytes := []
  ftS3V4SigningKey : SystemTime := .zeroFT
  deriving DecidableEq, Repr

namespace KeyCache

/-- The cached key, where it is of the day of the request; empty where there is
none. -/
def lookup (c : KeyCache) (stRequestTime : SystemTime) : Bytes :=
  if stRequestTime.SameDay c.ftS3V4SigningKey then c.globalS3V4SigningKey else []

/-- `GlobalS3V4SigningKey.Empty()`, `ZeroFT(ftS3V4SigningKey)`. -/
def clear : KeyCache := {}

/-- The end of `CreateS3SigningKey`. -/
def store (key : Bytes) (stRequestTime : SystemTime) : KeyCache := ⟨key, stRequestTime⟩

/-- The cached key, if there is one, is the one of this secret and this region. -/
def Holds (c : KeyCache) (C : Crypto) (secretStr sS3Region : String) : Prop :=
  c.globalS3V4SigningKey ≠ [] →
    c.globalS3V4SigningKey = createS3SigningKey C secretStr sS3Region c.ftS3V4SigningKey

variable {C : Crypto} {c : KeyCache} {secretStr sS3Region : String} {st : SystemTime}

/-- A cache without a key holds for any secret and region. -/
theorem holds_clear : clear.Holds C secretStr sS3Region := by
  intro h
  exact absurd rfl h

/-- A cache that was just filled holds for the secret and the region of the key. -/
theorem holds_store :
    (store (createS3SigningKey C secretStr sS3Region st) st).Holds C secretStr sS3Region :=
  fun _ => rfl

/-- **A hit is the key of the day**, of the secret and the region the cached key
was made of. -/
theorem Holds.lookup_eq (h : c.Holds C secretStr sS3Region) (hit : c.lookup st ≠ []) :
    c.lookup st = createS3SigningKey C secretStr sS3Region st := by
  unfold lookup at hit ⊢
  split_ifs at hit ⊢ with hday
  · rw [h hit, createS3SigningKey_sameDay C _ _ hday]
  · exact absurd rfl hit

end KeyCache

end Sign
end ECSUtil

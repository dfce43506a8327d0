/-
# Encoded paths

`UriEncode`, `UriDecode` and the arrays of safe characters (`ECSUtil/UriUtils.cpp`), and the
canonical path of `signRequestS3v4` (`ECSUtil/ECSConnection.cpp`).  A well-formed text in UTF-16 is
the list of its characters.

`WSDUriDecode` belongs to Windows.  Of it only this is known (`DecodesPercent`): a text whose `%XX`
stand for the UTF-8 bytes of a text is decoded to that text.

An encoded character is one that is safe, or is the `%XX` of its bytes; decoding goes over the text
by pieces of this kind, and gives back each of them.
-/

import Mathlib.Data.List.TakeWhile
import ECSUtil.Conn.Error
import ECSUtil.Conn.Text
import ECSUtil.Lib.CodePage
import ECSUtil.Lib.Percent

namespace ECSUtil
namespace Sign

/-- `E_URI_ENCODE`. -/
inductive UriEncodeType
  /-- Used for paths and object keys. -/
  | stdSAFE
  /-- Encode almost everything except `a`-`z`, `0`-`9`. -/
  | allSAFE
  /-- Encode according to v4auth rules. -/
  | v4Auth
  /-- Encode according to v4auth rules, and the slash. -/
  | v4AuthSlash
  deriving DecidableEq, Repr

/-- `pSAFEInit`, `pSAFEAllInit`, `pSAFEv4AuthInit`, `pSAFEv4AuthSlashInit`. -/
def UriEncodeType.specialChars : UriEncodeType → CString
  | stdSAFE => ['-', '.', '/', '_', '~']
  | allSAFE => ['/']
  | v4Auth => ['-', '.', '/', '_', '~']
  | v4AuthSlash => ['-', '.', '_', '~']

/-- `InitUriEncodeArray`. -/
def initUriEncodeArray (pSpecialChars : CString) : List Bool :=
  pSpecialChars.foldl (fun FlagArray c => FlagArray.set c.toNat true)
    ((List.range 256).map fun i =>
      ('A'.toNat ≤ i && i ≤ 'Z'.toNat) || ('a'.toNat ≤ i && i ≤ 'z'.toNat) ||
        ('0'.toNat ≤ i && i ≤ '9'.toNat))

/-- `SAFE`, `SAFEAll`, `SAFEv4Auth`, `SAFEv4AuthSlash`. -/
def UriEncodeType.flagArray (type : UriEncodeType) : List Bool :=
  initUriEncodeArray type.specialChars

/-- `DEC2HEX`. -/
def DEC2HEX : CString := "0123456789ABCDEF".toList

/-- `UriEncode`: the bytes up to the first that is 0. -/
def uriEncode (pszInput : CString) (type : UriEncodeType) : CString :=
  ((CodePage.utf8 pszInput).takeWhile (· ≠ 0)).flatMap fun b =>
    if type.flagArray.getD b.toNat false then [Char.ofNat b.toNat]
    else ['%', DEC2HEX.getD (b.toNat / 16) '0', DEC2HEX.getD (b.toNat % 16) '0']

/-- `UriDecode`, with what `WSDUriDecode` returns. -/
def uriDecode (wsdUriDecode : CString → Except DWORD CString) (pszInput : CString) : CString :=
  match wsdUriDecode pszInput with
  | .ok sOutput => sOutput
  | .error _ => []

/-- The canonical path of `signRequestS3v4`: the resource without the query is encoded for v4. -/
def canonicalPath (wsdUriDecode : CString → Except DWORD CString) (resource : CString) : CString :=
  let sTempResource :=
    uriEncode (uriDecode wsdUriDecode (resource.takeWhile (· ≠ '?'))) .v4Auth
  if sTempResource = [] then ['/'] else sTempResource

/-- `%XX` stands for a byte, and the bytes are read as UTF-8. -/
def DecodesPercent (wsdUriDecode : CString → Except DWORD CString) : Prop :=
  ∀ p s, Percent.decode p = some (CodePage.utf8 s) → wsdUriDecode p = .ok s

def E_INVALIDARG : DWORD := 0x80070057

/-- One that does nothing else. -/
def wsdUriDecode (p : CString) : Except DWORD CString :=
  match (Percent.decode p).bind CodePage.decodeUtf8 with
  | some s => .ok s
  | none => .error E_INVALIDARG

/-- There is a function that decodes so. -/
theorem decodesPercent_wsdUriDecode : DecodesPercent wsdUriDecode := by
  intro p s h
  unfold wsdUriDecode
  rw [h, Option.bind_some, CodePage.decodeUtf8_utf8]

/-- The safe characters are ASCII, and none is `%` or `?`. -/
theorem flagArray_safe (type : UriEncodeType) {n : ℕ} (h : type.flagArray.getD n false = true) :
    n < 128 ∧ n ≠ '%'.toNat ∧ n ≠ '?'.toNat := by
  have hall : type.flagArray.zipIdx.all fun f =>
      !f.1 || decide (f.2 < 128 ∧ f.2 ≠ '%'.toNat ∧ f.2 ≠ '?'.toNat) := by
    cases type <;> decide +kernel
  have hmem : (true, n) ∈ type.flagArray.zipIdx := by
    rw [List.mk_mem_zipIdx_iff_getElem?]
    rw [List.getD_eq_getElem?_getD] at h
    cases hget : type.flagArray[n]? with
    | none =>
        rw [hget] at h
        exact absurd h Bool.false_ne_true
    | some f =>
        rw [hget] at h
        exact congrArg some h
  exact of_decide_eq_true (List.all_eq_true.1 hall _ hmem)

/-- The safe characters, as bytes. -/
def UriEncodeType.safe (type : UriEncodeType) : Percent.SafeSet where
  mem b := type.flagArray.getD b.toNat false
  ascii _ h := (flagArray_safe type h).1
  percent _ h := (flagArray_safe type h).2.1

/-- Without a NUL, a text is encoded byte by byte. -/
theorem uriEncode_eq {s : CString} (hs : ∀ c ∈ s, c.toNat ≠ 0) (type : UriEncodeType) :
    uriEncode s type = Percent.encode type.safe (CodePage.utf8 s) := by
  have hwhole : (CodePage.utf8 s).takeWhile (· ≠ 0) = CodePage.utf8 s := by
    rw [List.takeWhile_eq_self_iff]
    intro b hb
    have hne : b ≠ 0 := fun h => CodePage.zero_notMem_utf8 hs (h ▸ hb)
    exact decide_eq_true hne
  unfold uriEncode
  rw [hwhole]
  rfl

/-- **What is encoded is decoded again.** Each character is left as it is or written as the escapes
of its UTF-8, and of what is left as it is nothing is a `%`; so the decoder reads it back, whatever
set of safe characters was chosen. -/
theorem uriDecode_uriEncode {wsd : CString → Except DWORD CString} (hwsd : DecodesPercent wsd)
    {s : CString} (hs : ∀ c ∈ s, c.toNat ≠ 0) (type : UriEncodeType) :
    uriDecode wsd (uriEncode s type) = s := by
  have hdecode : wsd (uriEncode s type) = .ok s := by
    refine hwsd _ s ?_
    rw [uriEncode_eq hs, Percent.decode_encode]
  unfold uriDecode
  rw [hdecode]

/-- **The form of an encoded text.** It consists of safe characters and of escapes in capital
hexadecimal digits, as the specification of percent encoding has it. -/
theorem form_uriEncode {s : CString} (hs : ∀ c ∈ s, c.toNat ≠ 0) (type : UriEncodeType) :
    Percent.Form type.safe (uriEncode s type) := by
  rw [uriEncode_eq hs]
  exact Percent.form_encode type.safe (CodePage.utf8 s)

/-- Only the empty text is encoded as it. -/
theorem uriEncode_eq_nil_iff {s : CString} (hs : ∀ c ∈ s, c.toNat ≠ 0) (type : UriEncodeType) :
    uriEncode s type = [] ↔ s = [] := by
  rw [uriEncode_eq hs, Percent.encode_eq_nil_iff]
  constructor
  · intro hnil
    have hdecode := CodePage.decodeUtf8_utf8 s
    rw [hnil] at hdecode
    exact (Option.some.inj hdecode).symm
  · rintro rfl
    rfl

/-- A path is encoded as it is for v4. -/
theorem uriEncode_stdSAFE (s : CString) : uriEncode s .stdSAFE = uriEncode s .v4Auth := rfl

/-- No character of an encoded text starts a query. -/
theorem query_notMem {safe : Percent.SafeSet} (hsafe : safe.mem 63 = false) {e : CString}
    (h : Percent.Form safe e) : '?' ∉ e := by
  have hhex : '?' ∉ Percent.upperHex := by decide
  induction h with
  | nil => exact List.not_mem_nil
  | @safe c rest hmem _ _ ih =>
      rw [List.mem_cons, not_or]
      refine ⟨?_, ih⟩
      rintro rfl
      exact Bool.false_ne_true (hsafe.symm.trans hmem)
  | @escape h l b rest hh hl _ _ _ _ ih =>
      simp only [List.mem_cons, not_or]
      refine ⟨by decide, ?_, ?_, ih⟩
      · rintro rfl
        exact hhex hh
      · rintro rfl
        exact hhex hl

/-- The resource without the query is the encoded path. -/
theorem takeWhile_resource {s : CString} (hs : ∀ c ∈ s, c.toNat ≠ 0) (type : UriEncodeType)
    {query : CString} (hquery : query = [] ∨ query.head? = some '?') :
    (uriEncode s type ++ query).takeWhile (· ≠ '?') = uriEncode s type := by
  have hsafe : type.safe.mem 63 = false := by
    refine Bool.eq_false_iff.2 fun hmem => ?_
    exact (flagArray_safe type hmem).2.2 rfl
  have hpath : ∀ c ∈ uriEncode s type, decide (c ≠ '?') = true := by
    intro c hc
    have hne : c ≠ '?' := fun h => query_notMem hsafe (form_uriEncode hs type) (h ▸ hc)
    exact decide_eq_true hne
  rw [List.takeWhile_append_of_pos hpath]
  rcases hquery with rfl | hquery
  · rw [List.takeWhile_nil, List.append_nil]
  · obtain ⟨rest, rfl⟩ := List.head?_eq_some_iff.1 hquery
    rw [List.takeWhile_cons_of_neg (by decide), List.append_nil]

/-- **URI encoding is lossless, and what is signed is what is sent.**  A text without a NUL is decoded
to itself, whatever the type it was encoded for, and has the form of that type.  A path that is
encoded for the wire is the path that is signed, with a query behind it or without; a path with no
characters is signed as a slash. -/
theorem uri_lossless {wsd : CString → Except DWORD CString} (hwsd : DecodesPercent wsd)
    {s : CString} (hs : ∀ c ∈ s, c.toNat ≠ 0) :
    (∀ type, uriDecode wsd (uriEncode s type) = s ∧ Percent.Form type.safe (uriEncode s type)) ∧
    uriEncode (uriDecode wsd (uriEncode s .stdSAFE)) .v4Auth = uriEncode s .stdSAFE ∧
    ∀ query : CString, query = [] ∨ query.head? = some '?' →
      canonicalPath wsd (uriEncode s .stdSAFE ++ query) =
        if s = [] then ['/'] else uriEncode s .stdSAFE := by
  have hsigned : uriEncode (uriDecode wsd (uriEncode s .stdSAFE)) .v4Auth =
      uriEncode s .stdSAFE := by
    rw [uriDecode_uriEncode hwsd hs, uriEncode_stdSAFE]
  refine ⟨fun type => ⟨uriDecode_uriEncode hwsd hs type, form_uriEncode hs type⟩, hsigned, ?_⟩
  intro query hquery
  unfold canonicalPath
  rw [takeWhile_resource hs .stdSAFE hquery, hsigned]
  simp only [uriEncode_eq_nil_iff hs]

/-- The text of a slash, an `é` and a blank. The slash is safe, the letter is two bytes of UTF-8,
and the blank one; the canonical path of the encoded text is the same text again. -/
theorem uri_lossless_accent :
    uriEncode ['/', 'é', ' '] .stdSAFE = "/%C3%A9%20".toList ∧
    canonicalPath wsdUriDecode ("/%C3%A9%20".toList ++ "?acl".toList) = "/%C3%A9%20".toList := by
  have hencoded : uriEncode ['/', 'é', ' '] .stdSAFE = "/%C3%A9%20".toList := by decide +kernel
  refine ⟨hencoded, ?_⟩
  have hsigned := (uri_lossless decodesPercent_wsdUriDecode
    (by simp : ∀ c ∈ ['/', 'é', ' '], c.toNat ≠ 0)).2.2 "?acl".toList (.inr rfl)
  rw [hencoded, if_neg (by simp)] at hsigned
  exact hsigned

end Sign
end ECSUtil

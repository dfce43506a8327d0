/-
# Shareable URLs

`GenerateShareableURL`, `signS3ShareableURL` (`ECSUtil/ECSConnection.cpp`) and `EncodeSpecialChars`
(`ECSUtil/UriUtils.cpp`), for both versions of the signature, and the server that a URL is given to: it takes
the URL apart (`readUrl`) and signs what it says itself, with the key that the URL names.

With version 4 it comes to the same signature, for every object, host, key and time (`shareable_v4`), where the
name of the region is ASCII: the string to sign is converted with the code page of the system, and a server
reads it as UTF-8, as `CreateS3SigningKey` takes the region.  The two agree on ASCII only.

With version 2 the headers are signed that an earlier request of the thread has left behind: `InitHeader` is not
called.  The server comes to the same text if and only if none of them counts (`shareable_v2`).
-/

import ECSUtil.Sign.Order

namespace ECSUtil
namespace Sign

open Copy (Header Headers Stamp isSpace lower trim initHeader)

/-- `EscapeChar`. -/
def escapeChar (ch : Char) : CString :=
  ['%', DEC2HEX.getD (ch.toNat % 256 / 16) '0', DEC2HEX.getD (ch.toNat % 16) '0']

/-- `EncodeSpecialChars`. -/
def encodeSpecialChars (sSource : CString) : CString :=
  match Squeeze.find sSource "://".toList with
  | none => sSource
  | some iStart =>
      let sOutput := sSource.take (iStart + 3) ++
        (sSource.drop (iStart + 3)).flatMap fun ch => if ch = '#' then escapeChar ch else [ch]
      if sOutput.getLast? = some '=' then sOutput.dropLast ++ "%3D".toList else sOutput

/-- `FmtNum` of a signed number. -/
def fmtInt (t : ℤ) : CString := (if t < 0 then ['-'] else []) ++ fmtNum 0 t.natAbs

/-- What a shareable URL is made of: the host that is first in the list, the port, the key, and the path to
the object. -/
structure Share where
  bSSL : Bool
  sIP : CString
  Port : ℕ
  sS3KeyID : CString
  sS3Region : String
  pszPath : CString
  /-- The host has no character that ends it in a URL, or is trimmed. -/
  ip_plain : ∀ c ∈ sIP, c ≠ '/' ∧ c ≠ '?' ∧ c ≠ '#' ∧ isSpace c = false ∧ c.toNat ≠ 0
  key_text : ∀ c ∈ sS3KeyID, c.toNat ≠ 0
  region_text : ∀ c ∈ sS3Region.toList, c ≠ '/' ∧ c.toNat ≠ 0
  path_slash : ∃ sPath, pszPath = '/' :: sPath
  path_text : ∀ c ∈ pszPath, c.toNat ≠ 0

namespace Share

/-- `sPort`. -/
def sPort (u : Share) : CString :=
  if u.bSSL = true ∧ u.Port ≠ 443 ∨ u.bSSL = false ∧ u.Port ≠ 80 then ':' :: fmtNum 0 u.Port else []

def sHostPort (u : Share) : CString := u.sIP ++ u.sPort

/-- `https:` or `http:`. -/
def scheme (u : Share) : CString := if u.bSSL then "https:".toList else "http:".toList

/-- `sResource`, before the query. -/
def sResource (u : Share) : CString := uriEncode u.pszPath .stdSAFE

/-- `sCredential`. -/
def sCredential (u : Share) (stRequestTime : SystemTime) : CString :=
  u.sS3KeyID ++ '/' :: (scope stRequestTime u.sS3Region).toList

/-- `sQueryString`. -/
def sQueryString (u : Share) (stRequestTime : SystemTime) (sExpire : CString) : CString :=
  "?X-Amz-Algorithm=AWS4-HMAC-SHA256".toList ++ "&X-Amz-Credential=".toList ++
    uriEncode (u.sCredential stRequestTime) .v4AuthSlash ++ "&X-Amz-Date=".toList ++
    formatSystemTime stRequestTime false true ++ "&X-Amz-Expires=".toList ++ sExpire ++
    "&X-Amz-SignedHeaders=host".toList

/-- The headers of version 4. -/
def headers (u : Share) (t : Stamp) : Headers :=
  ((Copy.addHeader "host".toList u.sHostPort true (initHeader t)).erase "date".toList).erase
    "x-amz-date".toList

/-- What is signed with version 4. -/
def textV4 (C : Crypto) (wsdUriDecode : CString → Except DWORD CString) (u : Share) (t : Stamp)
    (stRequestTime : SystemTime) (sExpire : CString) : CString :=
  stringToSignV4 C wsdUriDecode "GET".toList (u.sResource ++ u.sQueryString stRequestTime sExpire) (u.headers t)
    "UNSIGNED-PAYLOAD".toList stRequestTime u.sS3Region

/-- `signS3ShareableURL` for version 4: the cached key was just cleared, and the text goes through `CAnsiString`
with the code page of the system, up to its NUL. -/
def signatureV4 (C : Crypto) (ansi : AnsiEncoder) (wsdUriDecode : CString → Except DWORD CString) (u : Share)
    (sSecret : String) (t : Stamp) (stRequestTime : SystemTime) (sExpire : CString) : CString :=
  let cached := KeyCache.clear.lookup stRequestTime
  let S3SigningKey := if cached = [] then createS3SigningKey C sSecret u.sS3Region stRequestTime else cached
  Stream.binaryToHexString (C.mac S3SigningKey
    ((ansi.encode (u.textV4 C wsdUriDecode t stRequestTime sExpire)).takeWhile (· ≠ 0)))

/-- `sExpire` of version 4: seven days at most. -/
def durationV4 (Time CurTime : ℤ) : CString := fmtInt (if Time - CurTime > 604800 then 604800 else Time - CurTime)

/-- `GenerateShareableURL` for version 4. -/
def urlV4 (C : Crypto) (ansi : AnsiEncoder) (wsdUriDecode : CString → Except DWORD CString) (u : Share)
    (sSecret : String) (t : Stamp) (stRequestTime : SystemTime) (Time CurTime : ℤ) : CString :=
  let sExpire := durationV4 Time CurTime
  encodeSpecialChars (u.scheme ++ "//".toList ++ u.sHostPort ++
      (u.sResource ++ u.sQueryString stRequestTime sExpire) ++ "&X-Amz-Signature".toList) ++
    '=' :: uriEncode (u.signatureV4 C ansi wsdUriDecode sSecret t stRequestTime sExpire) .v4AuthSlash

/-- What is signed with version 2, with the headers that are there. -/
def textV2 (wsdUriDecode : CString → Except DWORD CString) (u : Share) (headers : Headers) (sExpire : CString) :
    CString :=
  stringToSignV2 wsdUriDecode "GET".toList u.sResource headers (some sExpire)

/-- `GenerateShareableURL` for version 2; `sign` is the HMAC-SHA1 with the secret, in Base64. -/
def urlV2 (sign : Bytes → CString) (wsdUriDecode : CString → Except DWORD CString) (u : Share) (headers : Headers)
    (Time : ℤ) : CString :=
  let sExpire := fmtInt Time
  let sSignature := uriEncode (sign ((CodePage.utf8 (u.textV2 wsdUriDecode headers sExpire)).takeWhile (· ≠ 0)))
    .v4AuthSlash
  u.scheme ++ "//".toList ++ (encodeSpecialChars (u.sHostPort ++ u.sResource ++ "?AWSAccessKeyId=".toList ++
    uriEncode u.sS3KeyID .stdSAFE ++ "&Expires=".toList ++ sExpire ++ "&Signature".toList) ++ '=' :: sSignature)

end Share

/-- A URL, as a server reads it; the target is what is behind the host. -/
structure Url where
  scheme : CString
  authority : CString
  target : CString

/-- No character that ends the host. -/
def inAuthority (c : Char) : Bool := c ≠ '/' && c ≠ '?' && c ≠ '#'

def readUrl (url : CString) : Option Url :=
  match url.dropWhile (· ≠ ':') with
  | ':' :: '/' :: '/' :: rest => some
      { scheme := url.takeWhile (· ≠ ':')
        authority := rest.takeWhile inAuthority
        target := rest.dropWhile inAuthority }
  | _ => none

namespace Url

/-- The path, as it is sent. -/
def path (url : Url) : CString := (url.target.takeWhile (· ≠ '#')).takeWhile (· ≠ '?')

/-- The value of a parameter. -/
def text (url : Url) (name : String) : Option CString := Query.textOf url.target name.toList

/-- The canonical request of a URL whose signed headers are these: the path and the parameters are decoded and
encoded again, and the signature is left out. -/
def canonical (url : Url) (signedHeaders : CString) : CString :=
  let params := (Query.serverParams url.target).filter fun p => p.1 ≠ CodePage.utf8 "X-Amz-Signature".toList
  let encoded := params.map fun p => (Percent.encode UriEncodeType.v4AuthSlash.safe p.1,
    Percent.encode UriEncodeType.v4AuthSlash.safe (p.2.getD []))
  let sorted := encoded.mergeSort fun e f => decide (toLex e ≤ toLex f)
  let lines := (Query.tokens (· = ';') signedHeaders).flatMap fun label =>
    label ++ ':' :: ((if label = "host".toList then url.authority else []) ++ ['\n'])
  "GET\n".toList ++ Percent.encode UriEncodeType.v4Auth.safe (Query.unescape url.path) ++ '\n' ::
    (joinQuery sorted ++ '\n' :: (lines ++ '\n' :: (signedHeaders ++ "\nUNSIGNED-PAYLOAD".toList)))

/-- The signature that a server expects with version 4, `none` where it does not understand the URL or does
not know the key: the four last parts of the credential are the scope. -/
def expectedV4 (C : Crypto) (secretOf : CString → Option String) (url : Url) : Option CString := do
  let credential ← url.text "X-Amz-Credential"
  let date ← url.text "X-Amz-Date"
  let signedHeaders ← url.text "X-Amz-SignedHeaders"
  match (credential.splitOn '/').reverse with
  | terminator :: service :: region :: day :: key =>
      let secret ← secretOf (['/'].intercalate key.reverse)
      let signingKey := C.mac (C.mac (C.mac (C.mac (utf8 ("AWS4" ++ secret)) (CodePage.utf8 day))
        (CodePage.utf8 region)) (CodePage.utf8 service)) (CodePage.utf8 terminator)
      let stringToSign := "AWS4-HMAC-SHA256\n".toList ++ date ++ '\n' ::
        (['/'].intercalate [day, region, service, terminator] ++ '\n' ::
          Stream.binaryToHexString (C.hash (CodePage.utf8 (url.canonical signedHeaders))))
      some (Stream.binaryToHexString (C.mac signingKey (CodePage.utf8 stringToSign)))
  | _ => none

/-- The text that a server signs with version 2: no header counts in a request made from a URL, and of the
parameters only those of the set are part of the resource. -/
def textV2 (url : Url) : Option CString :=
  (url.text "Expires").map fun expires =>
    "GET\n\n\n".toList ++ expires ++ '\n' :: (url.path ++
      signedQuery (((parameters url.target).filter fun t => ifQuery (checkToken t)).map fun t => (t, t)))

end Url

section Texts

variable {s : CString}

/-- What is not safe is not in an encoded text. -/
theorem notMem_uriEncode (hs : ∀ c ∈ s, c.toNat ≠ 0) {type : UriEncodeType} {c : Char}
    (h : type.safe.mem (UInt8.ofNat c.toNat) = false ∧ c ≠ '%' ∧ c ∉ Percent.upperHex) : c ∉ uriEncode s type :=
  (form_uriEncode hs type).notMem h.1 h.2.1 h.2.2

/-- Letters, digits and a few signs are encoded as they are. -/
theorem uriEncode_plain {type : UriEncodeType}
    (h : ∀ c ∈ s, c.toNat < 128 ∧ c.toNat ≠ 0 ∧ type.safe.mem (UInt8.ofNat c.toNat) = true) :
    uriEncode s type = s := by
  rw [uriEncode_eq fun c hc => (h c hc).2.1]
  exact Query.encode_of_safe fun c hc => ⟨(h c hc).1, (h c hc).2.2⟩

/-- The characters of a number and of a date. -/
def isPlain (c : Char) : Bool := c.isDigit || c = '-' || c = 'T' || c = 'Z'

/-- A digit is plain. -/
theorem isPlain_of_isDigit {c : Char} (h : c.isDigit = true) : isPlain c = true := by
  unfold isPlain
  rw [h]
  rfl

/-- What is plain is ASCII, no NUL, and safe. -/
theorem isPlain_safe {c : Char} (h : isPlain c = true) :
    c.toNat < 128 ∧ c.toNat ≠ 0 ∧ UriEncodeType.v4AuthSlash.safe.mem (UInt8.ofNat c.toNat) = true := by
  have hall : ∀ n < 128, isPlain (Char.ofNat n) = true →
      n ≠ 0 ∧ UriEncodeType.v4AuthSlash.safe.mem (UInt8.ofNat n) = true := by
    decide +kernel
  have hascii : c.toNat < 128 := by
    unfold isPlain at h
    simp only [Bool.or_eq_true, decide_eq_true_eq] at h
    rcases h with ((h | rfl) | rfl) | rfl
    · have hle : c.toNat ≤ '9'.toNat := by
        simp only [Char.isDigit, Bool.and_eq_true, decide_eq_true_eq] at h
        exact UInt32.le_iff_toNat_le.1 h.2
      exact Nat.lt_of_le_of_lt hle (by decide)
    all_goals decide
  exact ⟨hascii, hall c.toNat hascii (by rwa [Char.ofNat_toNat])⟩

/-- A number is plain. -/
theorem isPlain_fmtInt {t : ℤ} {c : Char} (h : c ∈ fmtInt t) : isPlain c = true := by
  unfold fmtInt at h
  rcases List.mem_append.1 h with h | h
  · split_ifs at h
    · rw [List.mem_singleton.1 h]; rfl
    · cases h
  · exact isPlain_of_isDigit (isDigit_of_mem_fmtNum h)

/-- A number has no NUL in it, and is encoded as it is. -/
theorem fmtInt_text (t : ℤ) : ∀ c ∈ fmtInt t, c.toNat ≠ 0 :=
  fun _ hc => (isPlain_safe (isPlain_fmtInt hc)).2.1

/-- A number is encoded as it is. -/
theorem uriEncode_fmtInt (t : ℤ) : uriEncode (fmtInt t) .v4AuthSlash = fmtInt t :=
  uriEncode_plain fun _ hc => isPlain_safe (isPlain_fmtInt hc)

/-- A time is plain. -/
theorem isPlain_formatSystemTime {st : SystemTime} {c : Char} (h : c ∈ formatSystemTime st false true) :
    isPlain c = true := by
  have hdigit : ∀ {width n : ℕ}, c ∈ fmtNum width n → isPlain c = true := fun hc =>
    isPlain_of_isDigit (isDigit_of_mem_fmtNum hc)
  simp only [formatSystemTime, if_true, Bool.false_eq_true, if_false, List.append_nil, List.mem_append,
    List.mem_singleton] at h
  rcases h with ((((((h | h) | h) | rfl) | h) | h) | h) | rfl
  all_goals first | exact hdigit h | rfl

end Texts

/-- A parameter of a URL, and how its value is encoded. -/
structure UrlParam where
  name : CString
  value : CString
  type : UriEncodeType := .v4AuthSlash

/-- The name and the value, encoded. -/
def encodedEntry (p : UrlParam) : CString × CString := (uriEncode p.name .v4AuthSlash, uriEncode p.value p.type)

/-- Names and values without a NUL, the names not empty. -/
def TextParams (ps : List UrlParam) : Prop :=
  ∀ p ∈ ps, p.name ≠ [] ∧ (∀ c ∈ p.name, c.toNat ≠ 0) ∧ ∀ c ∈ p.value, c.toNat ≠ 0

/-- What each character of a text has. -/
theorem forall_of_all {s : CString} {p : Char → Prop} [DecidablePred p] (h : (s.all fun c => decide (p c)) = true) :
    ∀ c ∈ s, p c :=
  fun c hc => of_decide_eq_true (List.all_eq_true.1 h c hc)

/-- The texts that a URL and its signature are made of. -/
def constants : List String :=
  ["X-Amz-Algorithm", "AWS4-HMAC-SHA256", "X-Amz-Credential", "X-Amz-Date", "X-Amz-Expires",
    "X-Amz-SignedHeaders", "host", "X-Amz-Signature", "AWSAccessKeyId", "Expires", "Signature", "GET\n",
    "\nUNSIGNED-PAYLOAD", "/", "/s3/aws4_request"]

/-- None of them is empty or has a NUL. -/
theorem constants_text : ∀ s ∈ constants, s.toList ≠ [] ∧ ∀ c ∈ s.toList, c.toNat ≠ 0 := by
  have hall : ∀ s ∈ constants, s.toList ≠ [] ∧ (s.toList.all fun c => decide (c.toNat ≠ 0)) = true := by
    decide
  exact fun s hs => ⟨(hall s hs).1, forall_of_all (hall s hs).2⟩

/-- The names of the parameters are encoded as they are. -/
theorem uriEncode_constants : ∀ s ∈ constants.take 11, uriEncode s.toList .v4AuthSlash = s.toList := by
  decide

section Params

variable {wsd : CString → Except DWORD CString} {ps : List UrlParam}

/-- No encoded text has a separator in it. -/
theorem separator_notMem {s : CString} (hs : ∀ c ∈ s, c.toNat ≠ 0) (type : UriEncodeType) :
    ∀ d ∈ ['&', '=', '#', '?'], d ∉ uriEncode s type := by
  have hall : ∀ d ∈ ['&', '=', '#', '?'],
      type.safe.mem (UInt8.ofNat d.toNat) = false ∧ d ≠ '%' ∧ d ∉ Percent.upperHex := by
    refine forall_of_all ?_
    cases type <;> decide
  exact fun d hd => notMem_uriEncode hs (hall d hd)

/-- **The parameters of a query that is made of encoded texts.** The encoded names and values have
no `&` and no `=` in them, so the separators are those that were put in. -/
theorem params_joinQuery (h : TextParams ps) : Query.params (joinQuery (ps.map encodedEntry)) =
    ps.map fun p => { name := uriEncode p.name .v4AuthSlash, value := some (uriEncode p.value p.type) } := by
  have htokens : Query.tokens (· = '&') (joinQuery (ps.map encodedEntry)) =
      (ps.map encodedEntry).map fun e => e.1 ++ '=' :: e.2 := by
    refine Query.tokens_intercalate (by decide) fun t ht => ?_
    obtain ⟨e, he, rfl⟩ := List.mem_map.1 ht
    obtain ⟨p, hp, rfl⟩ := List.mem_map.1 he
    obtain ⟨-, hname, hvalue⟩ := h p hp
    refine ⟨by simp, fun c hc => decide_eq_false fun hamp => ?_⟩
    subst hamp
    rcases List.mem_append.1 hc with hc | hc
    · exact separator_notMem hname _ '&' (by decide) hc
    · rcases List.mem_cons.1 hc with hc | hc
      · exact absurd hc (by decide)
      · exact separator_notMem hvalue _ '&' (by decide) hc
  unfold Query.params
  rw [htokens, List.map_map, List.map_map]
  exact List.map_congr_left fun p hp => Query.param_eq (separator_notMem (h p hp).2.1 _ '=' (by decide)) _

/-- Nothing of the query begins a fragment. -/
theorem hash_notMem_joinQuery (h : TextParams ps) : '#' ∉ joinQuery (ps.map encodedEntry) := by
  have hentry : ∀ e ∈ (ps.map encodedEntry).map fun e => e.1 ++ '=' :: e.2, '#' ∉ e := by
    intro e he
    simp only [List.mem_map] at he
    obtain ⟨_, ⟨p, hp, rfl⟩, rfl⟩ := he
    simp only [List.mem_append, List.mem_cons, not_or]
    exact ⟨separator_notMem (h p hp).2.1 _ '#' (by decide), by decide,
      separator_notMem (h p hp).2.2 _ '#' (by decide)⟩
  unfold joinQuery
  generalize (ps.map encodedEntry).map (fun e => e.1 ++ '=' :: e.2) = l at hentry
  induction l with
  | nil => exact List.not_mem_nil
  | cons e l ih =>
      obtain ⟨he, hl⟩ := List.forall_mem_cons.1 hentry
      cases l with
      | nil => rwa [List.intercalate_singleton]
      | cons f l =>
          rw [List.intercalate_cons_cons]
          simp only [List.mem_append, not_or]
          exact ⟨⟨he, by decide⟩, ih hl⟩

/-- **What a server reads of them is what they were made of.** Both are read, the name and the
value, as each `%XX` is a byte of the UTF-8 of the text. -/
theorem serverParams_joinQuery (h : TextParams ps) {path : CString} (hpath : '?' ∉ path ∧ '#' ∉ path) :
    Query.serverParams (path ++ '?' :: joinQuery (ps.map encodedEntry)) =
      ps.map fun p => (CodePage.utf8 p.name, some (CodePage.utf8 p.value)) := by
  have hquery : Query.queryOf (path ++ '?' :: joinQuery (ps.map encodedEntry)) =
      joinQuery (ps.map encodedEntry) := by
    rw [Query.queryOf_append hpath, List.takeWhile_eq_self_iff.2 (Query.ne_of_notMem (hash_notMem_joinQuery h))]
  unfold Query.serverParams
  rw [hquery, params_joinQuery h, List.map_map]
  refine List.map_congr_left fun p hp => ?_
  have hread : ∀ {s : CString}, (∀ c ∈ s, c.toNat ≠ 0) → ∀ type,
      Query.unescape (uriEncode s type) = CodePage.utf8 s := fun hs type => by
    rw [uriEncode_eq hs, Query.unescape_encode]
  simp only [Function.comp_apply, Query.Param.read, Option.map_some, hread (h p hp).2.1, hread (h p hp).2.2]

/-- The value of a parameter, as a server reads it. -/
theorem textOf_joinQuery (h : TextParams ps) {path : CString} (hpath : '?' ∉ path ∧ '#' ∉ path) (name : CString) :
    Query.textOf (path ++ '?' :: joinQuery (ps.map encodedEntry)) name =
      (ps.find? fun p => p.name = name).map UrlParam.value := by
  unfold Query.textOf
  rw [serverParams_joinQuery h hpath, List.find?_map]
  have hname : ((fun p : List UInt8 × Option (List UInt8) => decide (p.1 = CodePage.utf8 name)) ∘
      fun p : UrlParam => (CodePage.utf8 p.name, some (CodePage.utf8 p.value))) =
        fun p => decide (p.name = name) := by
    funext p
    exact decide_eq_decide.2 CodePage.utf8_injective.eq_iff
  rw [hname]
  cases ps.find? fun p => decide (p.name = name) with
  | none => rfl
  | some p => simp only [Option.map_some, Option.bind_some, CodePage.decodeUtf8_utf8]

/-- **A query that is encoded and sorted is its own canonical query.** Every part is decoded and
encoded again as it was, and the parameters are in the order of their encoded names already. -/
theorem canonicalQuery_joinQuery (hwsd : DecodesPercent wsd) (h : TextParams ps)
    (htype : ∀ p ∈ ps, p.type = .v4AuthSlash) (hsorted : (ps.map encodedEntry).Pairwise fun e f => e.1 < f.1) :
    canonicalQuery wsd (joinQuery (ps.map encodedEntry)) = joinQuery (ps.map encodedEntry) := by
  have hpart : ∀ {s : CString}, (∀ c ∈ s, c.toNat ≠ 0) →
      queryPart wsd (uriEncode s .v4AuthSlash) = uriEncode s .v4AuthSlash := fun hs => by
    rw [queryPart, uriDecode_uriEncode hwsd hs]
  have hentries : (Query.params (joinQuery (ps.map encodedEntry))).map (queryEntry wsd) = ps.map encodedEntry := by
    rw [params_joinQuery h, List.map_map]
    refine List.map_congr_left fun p hp => ?_
    simp only [Function.comp_apply, queryEntry, encodedEntry, htype p hp, hpart (h p hp).2.1, hpart (h p hp).2.2]
  unfold canonicalQuery
  rw [hentries, SortedMap.ofList_entries ⟨_, hsorted⟩]

end Params

/-- **Without a `#`, and with something else than `=` at its end, a text stays as it is.** It
escapes the `#`s behind the `://`, and a `=` where it is the last character; nothing else of the
text is looked at. -/
theorem encodeSpecialChars_eq {s : CString} (hhash : '#' ∉ s) (hlast : s.getLast? ≠ some '=') :
    encodeSpecialChars s = s := by
  unfold encodeSpecialChars
  split
  · rfl
  · rename_i iStart _
    have hrest : ∀ l : CString, '#' ∉ l → (l.flatMap fun ch => if ch = '#' then escapeChar ch else [ch]) = l := by
      intro l hl
      induction l with
      | nil => rfl
      | cons c l ih =>
          rw [List.mem_cons, not_or] at hl
          rw [List.flatMap_cons, if_neg (fun h => hl.1 h.symm), ih hl.2, List.singleton_append]
    have hsame : s.take (iStart + 3) ++ ((s.drop (iStart + 3)).flatMap fun ch =>
        if ch = '#' then escapeChar ch else [ch]) = s := by
      rw [hrest _ fun h => hhash (List.mem_of_mem_drop h), List.take_append_drop]
    simp only [hsame, if_neg hlast]

namespace Share

variable {u : Share} {st : SystemTime}

/-- A target with a path and encoded parameters behind it. -/
def target (u : Share) (ps : List UrlParam) : CString := u.sResource ++ '?' :: joinQuery (ps.map encodedEntry)

/-- The URL with these parameters. -/
def urlOf (u : Share) (ps : List UrlParam) : Url where
  scheme := if u.bSSL then "https".toList else "http".toList
  authority := u.sHostPort
  target := u.target ps

/-- The parameters of version 4, but for the signature. -/
def paramsV4 (u : Share) (stRequestTime : SystemTime) (sExpire : CString) : List UrlParam :=
  [{ name := "X-Amz-Algorithm".toList, value := "AWS4-HMAC-SHA256".toList },
    { name := "X-Amz-Credential".toList, value := u.sCredential stRequestTime },
    { name := "X-Amz-Date".toList, value := formatSystemTime stRequestTime false true },
    { name := "X-Amz-Expires".toList, value := sExpire },
    { name := "X-Amz-SignedHeaders".toList, value := "host".toList }]

/-- The signature, as a parameter. -/
def amzSignature (sSignature : CString) : UrlParam := { name := "X-Amz-Signature".toList, value := sSignature }

/-- Nothing of the host and the port ends them in a URL. -/
theorem sHostPort_plain (u : Share) : ∀ c ∈ u.sHostPort,
    c ≠ '/' ∧ c ≠ '?' ∧ c ≠ '#' ∧ isSpace c = false ∧ c.toNat ≠ 0 := by
  have hport : ∀ c ∈ u.sPort, c.isDigit = true ∨ c = ':' := by
    intro c hc
    unfold sPort at hc
    split_ifs at hc
    · rcases List.mem_cons.1 hc with rfl | hc
      · exact .inr rfl
      · exact .inl (isDigit_of_mem_fmtNum hc)
    · cases hc
  intro c hc
  rcases List.mem_append.1 hc with hc | hc
  · exact u.ip_plain c hc
  · have hall : ∀ n < 128, (Char.ofNat n).isDigit = true ∨ Char.ofNat n = ':' →
        Char.ofNat n ≠ '/' ∧ Char.ofNat n ≠ '?' ∧ Char.ofNat n ≠ '#' ∧ isSpace (Char.ofNat n) = false ∧
          (Char.ofNat n).toNat ≠ 0 := by
      decide
    have hascii : c.toNat < 128 := by
      rcases hport c hc with h | rfl
      · exact (isPlain_safe (isPlain_of_isDigit h)).1
      · decide
    have h := hall c.toNat hascii
    rw [Char.ofNat_toNat] at h
    exact h (hport c hc)

/-- A date is digits. -/
theorem isDigit_date {st : SystemTime} {c : Char} (h : c ∈ st.date.toList) : c.isDigit = true := by
  have hdigit : ∀ {width n : ℕ}, c ∈ (formatNat 10 width n).toList → c.isDigit = true := by
    intro width n hc
    unfold formatNat at hc
    rw [String.toList_ofList] at hc
    rcases List.mem_append.1 hc with hc | hc
    · rw [List.eq_of_mem_replicate hc]; decide
    · exact Nat.isDigit_of_mem_toDigits (by decide) (by decide) hc
  simp only [SystemTime.date, String.toList_append, List.mem_append] at h
  rcases h with (hc | hc) | hc <;> exact hdigit hc

/-- A date has no slash and no NUL in it. -/
theorem date_text (st : SystemTime) : ∀ c ∈ st.date.toList, c ≠ '/' ∧ c.toNat ≠ 0 := by
  intro c hc
  refine ⟨?_, (isPlain_safe (isPlain_of_isDigit (isDigit_date hc))).2.1⟩
  rintro rfl
  exact absurd (isDigit_date hc) (by decide)

/-- The scope of a credential. -/
theorem scope_toList (st : SystemTime) (sS3Region : String) : (scope st sS3Region).toList =
    ['/'].intercalate [st.date.toList, sS3Region.toList, "s3".toList, "aws4_request".toList] := by
  have hservice : ("/s3/aws4_request" : String).toList = '/' :: ("s3".toList ++ '/' :: "aws4_request".toList) := by
    decide
  have hslash : ("/" : String).toList = ['/'] := by decide
  simp only [scope, String.toList_append, hservice, hslash, List.intercalate_cons_cons,
    List.intercalate_singleton, List.append_assoc, List.nil_append, List.cons_append]

/-- The credential has no NUL in it. -/
theorem sCredential_text (u : Share) (st : SystemTime) : ∀ c ∈ u.sCredential st, c.toNat ≠ 0 := by
  intro c hc
  rcases List.mem_append.1 hc with hc | hc
  · exact u.key_text c hc
  · rcases List.mem_cons.1 hc with rfl | hc
    · decide
    · simp only [scope, String.toList_append, List.mem_append] at hc
      rcases hc with ((hc | hc) | hc) | hc
      · exact (date_text st c hc).2
      · exact (constants_text "/" (by decide)).2 c hc
      · exact (u.region_text c hc).2
      · exact (constants_text "/s3/aws4_request" (by decide)).2 c hc

/-- The parameters of version 4 are texts. -/
theorem textParams_paramsV4 (u : Share) (st : SystemTime) (t : ℤ) : TextParams (u.paramsV4 st (fmtInt t)) := by
  have hconst : ∀ s ∈ ["X-Amz-Algorithm", "AWS4-HMAC-SHA256", "X-Amz-Credential", "X-Amz-Date", "X-Amz-Expires",
      "X-Amz-SignedHeaders", "host"], s.toList ≠ [] ∧ ∀ c ∈ s.toList, c.toNat ≠ 0 := fun s hs =>
    constants_text s (List.mem_of_mem_take (i := 7) hs)
  simp only [List.forall_mem_cons] at hconst
  obtain ⟨h₁, h₂, h₃, h₄, h₅, h₆, h₇, -⟩ := hconst
  have hdate : ∀ c ∈ formatSystemTime st false true, c.toNat ≠ 0 := fun c hc =>
    (isPlain_safe (isPlain_formatSystemTime hc)).2.1
  unfold TextParams paramsV4
  simp only [List.forall_mem_cons]
  exact ⟨⟨h₁.1, h₁.2, h₂.2⟩, ⟨h₃.1, h₃.2, u.sCredential_text st⟩, ⟨h₄.1, h₄.2, hdate⟩, ⟨h₅.1, h₅.2, fmtInt_text t⟩,
    ⟨h₆.1, h₆.2, h₇.2⟩, fun _ hp => absurd hp List.not_mem_nil⟩

/-- The parameters of version 4 are all encoded in the same way. -/
theorem type_paramsV4 (u : Share) (st : SystemTime) (sExpire : CString) :
    ∀ p ∈ u.paramsV4 st sExpire, p.type = .v4AuthSlash := by
  simp [paramsV4]

/-- The names of the parameters are encoded as they are, and in order. -/
theorem sorted_paramsV4 (u : Share) (st : SystemTime) (sExpire : CString) :
    ((u.paramsV4 st sExpire).map encodedEntry).Pairwise fun e f => e.1 < f.1 := by
  have hnames : ((u.paramsV4 st sExpire).map encodedEntry).map Prod.fst =
      ["X-Amz-Algorithm".toList, "X-Amz-Credential".toList, "X-Amz-Date".toList, "X-Amz-Expires".toList,
        "X-Amz-SignedHeaders".toList] := by
    show ["X-Amz-Algorithm".toList, "X-Amz-Credential".toList, "X-Amz-Date".toList, "X-Amz-Expires".toList,
        "X-Amz-SignedHeaders".toList].map (uriEncode · .v4AuthSlash) = _
    decide
  refine List.pairwise_map.1 (?_ : (((u.paramsV4 st sExpire).map encodedEntry).map Prod.fst).Pairwise (· < ·))
  rw [hnames]
  decide

/-- **The query of the URL is its parameters, encoded.** The code writes the parameters one by one,
with the names as they are and the values through `UriEncode`; the names have nothing to encode. -/
theorem sQueryString_eq (u : Share) (st : SystemTime) (t : ℤ) :
    u.sQueryString st (fmtInt t) = '?' :: joinQuery ((u.paramsV4 st (fmtInt t)).map encodedEntry) := by
  have hconst : ∀ s ∈ ["X-Amz-Algorithm", "AWS4-HMAC-SHA256", "X-Amz-Credential", "X-Amz-Date", "X-Amz-Expires",
      "X-Amz-SignedHeaders", "host"], uriEncode s.toList .v4AuthSlash = s.toList := fun s hs =>
    uriEncode_constants s (List.mem_of_mem_take (i := 7) hs)
  have hdate : uriEncode (formatSystemTime st false true) .v4AuthSlash = formatSystemTime st false true :=
    uriEncode_plain fun c hc => isPlain_safe (isPlain_formatSystemTime hc)
  have htext : ∀ s ∈ [("?X-Amz-Algorithm=AWS4-HMAC-SHA256",
      '?' :: ("X-Amz-Algorithm".toList ++ '=' :: "AWS4-HMAC-SHA256".toList)),
      ("&X-Amz-Credential=", '&' :: ("X-Amz-Credential".toList ++ ['='])),
      ("&X-Amz-Date=", '&' :: ("X-Amz-Date".toList ++ ['='])),
      ("&X-Amz-Expires=", '&' :: ("X-Amz-Expires".toList ++ ['='])),
      ("&X-Amz-SignedHeaders=host", '&' :: ("X-Amz-SignedHeaders".toList ++ '=' :: "host".toList))],
      s.1.toList = s.2 := by
    decide
  simp only [List.forall_mem_cons] at hconst htext
  obtain ⟨h₁, h₂, h₃, h₄, h₅, h₆, h₇, -⟩ := hconst
  obtain ⟨e₁, e₂, e₃, e₄, e₅, -⟩ := htext
  unfold sQueryString
  rw [e₁, e₂, e₃, e₄, e₅]
  unfold paramsV4 encodedEntry joinQuery
  simp only [List.map_cons, List.map_nil, h₁, h₂, h₃, h₄, h₅, h₆, h₇, hdate, uriEncode_fmtInt]
  -- only the form of the texts matters from here on
  generalize "X-Amz-Algorithm".toList = n₁, "AWS4-HMAC-SHA256".toList = v₁, "X-Amz-Credential".toList = n₂,
    "X-Amz-Date".toList = n₃, "X-Amz-Expires".toList = n₄, "X-Amz-SignedHeaders".toList = n₅, "host".toList = v₅
  simp only [List.intercalate_cons_cons, List.intercalate_singleton, List.append_assoc, List.cons_append,
    List.nil_append]

/-- **No header but the host is left**, whatever the time is. `InitHeader` sets the host and the
date, in one of two forms, and the date is a parameter of the URL instead. -/
theorem entries_headers (u : Share) (t : Stamp) :
    (u.headers t).entries = [("host".toList, { sHeader := "host".toList, sContents := u.sHostPort })] := by
  obtain ⟨sHost, sCanonicalTime, sISO8601Time, sPayloadHash, bS3AuthV4⟩ := t
  cases bS3AuthV4 <;> rfl

/-- The canonical headers are the host. -/
theorem canonicalHeaders_headers (u : Share) (t : Stamp) :
    canonicalHeaders (u.headers t) = ("host".toList ++ ':' :: (u.sHostPort ++ ['\n']), "host".toList) := by
  have hvalue : headerValue u.sHostPort = u.sHostPort := by
    have hspace : ∀ c ∈ u.sHostPort, isSpace c = false := fun c hc => (u.sHostPort_plain c hc).2.2.2.1
    have htrim : trim u.sHostPort = u.sHostPort :=
      (trim_eq_self_iff _).2 ⟨fun c hc => hspace c (List.mem_of_mem_head? hc), fun c hc =>
        hspace c (List.mem_of_mem_getLast? hc)⟩
    rw [headerValue_eq, htrim]
    refine Squeeze.collapse_of_not_infix fun htwo => ?_
    have hblank := hspace ' ' (htwo.subset List.mem_cons_self)
    exact absurd hblank (by decide)
  have hlabel : trim "host".toList = "host".toList ∧ "host".toList ≠ rangeLabel := by decide
  unfold canonicalHeaders
  rw [entries_headers, List.foldl_cons, List.foldl_nil]
  unfold headersTurn
  rw [hlabel.1, if_neg hlabel.2, hvalue]
  rfl

/-- Nothing of the path begins a query or a fragment, or is taken for a parameter. -/
theorem sResource_notMem (u : Share) : '?' ∉ u.sResource ∧ '#' ∉ u.sResource ∧ '=' ∉ u.sResource := by
  have hsep := separator_notMem u.path_text .stdSAFE
  exact ⟨hsep '?' (by decide), hsep '#' (by decide), hsep '=' (by decide)⟩

/-- The path is sent with its slash. -/
theorem sResource_eq_cons (u : Share) : ∃ rest, u.sResource = '/' :: rest := by
  obtain ⟨sPath, hpath⟩ := u.path_slash
  have hslash : UriEncodeType.stdSAFE.safe.mem 47 = true := by decide
  have hutf8 : CodePage.utf8 ('/' :: sPath) = 47 :: CodePage.utf8 sPath := Query.utf8_cons '/' sPath
  refine ⟨Percent.encode UriEncodeType.stdSAFE.safe (CodePage.utf8 sPath), ?_⟩
  rw [sResource, uriEncode_eq u.path_text, hpath, hutf8, Percent.encode_cons, Percent.encodeByte, if_pos hslash]
  rfl

/-- The query is behind the path. -/
theorem query_target (u : Share) (ps : List UrlParam) :
    ((u.target ps).dropWhile (· ≠ '?')).drop 1 = joinQuery (ps.map encodedEntry) := by
  rw [target, List.dropWhile_append_of_pos (Query.ne_of_notMem u.sResource_notMem.1),
    List.dropWhile_cons_of_neg (by decide)]
  rfl

/-- **A URL is taken apart into what it was made of.** The authority ends at the first slash and the
path at the `?`, as the host has neither in it and the path is encoded. -/
theorem readUrl_target (u : Share) (ps : List UrlParam) :
    readUrl (u.scheme ++ ("//".toList ++ (u.sHostPort ++ u.target ps))) = some (u.urlOf ps) := by
  obtain ⟨rest, hrest⟩ := u.sResource_eq_cons
  have hauthority : ∀ c ∈ u.sHostPort, inAuthority c = true := by
    intro c hc
    obtain ⟨h₁, h₂, h₃, -⟩ := u.sHostPort_plain c hc
    simp only [inAuthority, Bool.and_eq_true, decide_eq_true_eq]
    exact ⟨⟨h₁, h₂⟩, h₃⟩
  have htarget : u.target ps = '/' :: (rest ++ '?' :: joinQuery (ps.map encodedEntry)) := by
    rw [target, hrest, List.cons_append]
  have hsplit : (u.sHostPort ++ u.target ps).takeWhile inAuthority = u.sHostPort ∧
      (u.sHostPort ++ u.target ps).dropWhile inAuthority = u.target ps := by
    rw [htarget, List.takeWhile_append_of_pos hauthority, List.dropWhile_append_of_pos hauthority,
      List.takeWhile_cons_of_neg (by decide), List.dropWhile_cons_of_neg (by decide), List.append_nil]
    exact ⟨rfl, rfl⟩
  have hscheme : ∀ (name : CString) (text : CString), ':' ∉ name →
      (name ++ ':' :: text).takeWhile (· ≠ ':') = name ∧ (name ++ ':' :: text).dropWhile (· ≠ ':') = ':' :: text := by
    intro name text hname
    have hne := Query.ne_of_notMem hname
    rw [List.takeWhile_append_of_pos hne, List.dropWhile_append_of_pos hne, List.takeWhile_cons_of_neg (by decide),
      List.dropWhile_cons_of_neg (by decide), List.append_nil]
    exact ⟨rfl, rfl⟩
  have hread : ∀ name : CString, ':' ∉ name →
      readUrl (name ++ ':' :: '/' :: '/' :: (u.sHostPort ++ u.target ps)) =
        some { scheme := name, authority := u.sHostPort, target := u.target ps } := by
    intro name hname
    obtain ⟨htake, hdrop⟩ := hscheme name ('/' :: '/' :: (u.sHostPort ++ u.target ps)) hname
    unfold readUrl
    rw [hdrop, htake]
    simp only [hsplit.1, hsplit.2]
  unfold scheme urlOf
  cases u.bSSL with
  | false => exact hread "http".toList (by decide)
  | true => exact hread "https".toList (by decide)

section Reads

variable {ps : List UrlParam}

/-- The path of a URL is the one it was made of. -/
theorem path_urlOf (h : TextParams ps) : (u.urlOf ps).path = u.sResource := by
  have hhash : '#' ∉ u.target ps := by
    simp only [target, List.mem_append, List.mem_cons, not_or]
    exact ⟨u.sResource_notMem.2.1, by decide, hash_notMem_joinQuery h⟩
  unfold Url.path urlOf
  rw [List.takeWhile_eq_self_iff.2 (Query.ne_of_notMem hhash), target,
    List.takeWhile_append_of_pos (Query.ne_of_notMem u.sResource_notMem.1), List.takeWhile_cons_of_neg (by decide),
    List.append_nil]

/-- A server reads the path as it was given. -/
theorem unescape_sResource (u : Share) : Query.unescape u.sResource = CodePage.utf8 u.pszPath := by
  rw [sResource, uriEncode_eq u.path_text, Query.unescape_encode]

/-- A server reads each parameter under its name. -/
theorem text_urlOf (h : TextParams ps) (name : String) :
    (u.urlOf ps).text name = (ps.find? fun p => p.name = name.toList).map UrlParam.value :=
  textOf_joinQuery h ⟨u.sResource_notMem.1, u.sResource_notMem.2.1⟩ name.toList

end Reads

end Share

/-- One more parameter behind the others. -/
theorem joinQuery_concat {l : List (CString × CString)} (hl : l ≠ []) (e : CString × CString) :
    joinQuery (l ++ [e]) = joinQuery l ++ '&' :: (e.1 ++ '=' :: e.2) := by
  unfold joinQuery
  induction l with
  | nil => exact absurd rfl hl
  | cons f l ih =>
      cases l with
      | nil => simp only [List.map_cons, List.map_nil, List.cons_append, List.nil_append, List.intercalate_cons_cons,
          List.intercalate_singleton, List.append_assoc]
      | cons g l =>
          have ih' := ih (List.cons_ne_nil g l)
          simp only [List.map_cons, List.cons_append, List.intercalate_cons_cons, List.append_assoc] at ih' ⊢
          rw [ih']

/-- A signature in hexadecimal digits. -/
theorem binaryToHexString_text (data : Bytes) :
    ∀ c ∈ Stream.binaryToHexString data, c.toNat ≠ 0 ∧ c.toNat < 128 := by
  have hall : ∀ n < 16, (Nat.digitChar n).toNat ≠ 0 ∧ (Nat.digitChar n).toNat < 128 := by decide
  intro c hc
  obtain ⟨b, -, hc⟩ := List.mem_flatMap.1 hc
  have hb := b.toNat_lt
  rcases List.mem_pair.1 hc with rfl | rfl
  · exact hall _ (by omega)
  · exact hall _ (by omega)

namespace Share

variable {u : Share} {st : SystemTime} {wsd : CString → Except DWORD CString}

/-- No NUL is in an encoded text. -/
theorem uriEncode_text {s : CString} (hs : ∀ c ∈ s, c.toNat ≠ 0) (type : UriEncodeType) :
    ∀ c ∈ uriEncode s type, c.toNat ≠ 0 := by
  have hnul : type.safe.mem (UInt8.ofNat (Char.ofNat 0).toNat) = false ∧ Char.ofNat 0 ≠ '%' ∧
      Char.ofNat 0 ∉ Percent.upperHex := by
    cases type <;> decide
  intro c hc hzero
  have hc0 : c = Char.ofNat 0 := by rw [← hzero, Char.ofNat_toNat]
  exact notMem_uriEncode hs hnul (hc0 ▸ hc)

/-- There is no NUL in the query. -/
theorem joinQuery_text {ps : List UrlParam} (h : TextParams ps) :
    ∀ c ∈ joinQuery (ps.map encodedEntry), c.toNat ≠ 0 := by
  induction ps with
  | nil => exact fun c hc => absurd hc List.not_mem_nil
  | cons p ps ih =>
      obtain ⟨⟨-, hname, hvalue⟩, hps⟩ := List.forall_mem_cons.1 h
      have hp : ∀ c ∈ uriEncode p.name .v4AuthSlash ++ '=' :: uriEncode p.value p.type, c.toNat ≠ 0 := by
        intro c hc
        rcases List.mem_append.1 hc with hc | hc
        · exact uriEncode_text hname _ c hc
        · rcases List.mem_cons.1 hc with rfl | hc
          · decide
          · exact uriEncode_text hvalue _ c hc
      cases ps with
      | nil =>
          intro c hc
          exact hp c (by simpa [joinQuery, encodedEntry, List.intercalate_singleton] using hc)
      | cons q ps =>
          intro c hc
          simp only [joinQuery, List.map_cons, List.intercalate_cons_cons, List.mem_append,
            List.mem_singleton] at hc
          rcases hc with (hc | rfl) | hc
          · exact hp c (List.mem_append.2 hc)
          · decide
          · exact ih hps c hc

/-- **What is signed with version 4**: the path and the query as they are sent, and the host. The
parameters are signed in the order they are sent in, and the payload is not signed at all. -/
theorem canonicalRequest_eq (hwsd : DecodesPercent wsd) (u : Share) (t : Stamp) (st : SystemTime) (Expire : ℤ) :
    canonicalRequest wsd "GET".toList (u.sResource ++ u.sQueryString st (fmtInt Expire)) (u.headers t)
        "UNSIGNED-PAYLOAD".toList =
      "GET\n".toList ++ u.sResource ++ '\n' ::
        (joinQuery ((u.paramsV4 st (fmtInt Expire)).map encodedEntry) ++ '\n' ::
        ("host".toList ++ ':' :: (u.sHostPort ++ ['\n']) ++ '\n' ::
          ("host".toList ++ "\nUNSIGNED-PAYLOAD".toList))) := by
  have hne : u.sResource ≠ [] := by
    obtain ⟨rest, hrest⟩ := u.sResource_eq_cons
    rw [hrest]
    exact List.cons_ne_nil _ _
  have hpath : canonicalPath wsd (u.sResource ++ u.sQueryString st (fmtInt Expire)) = u.sResource := by
    unfold canonicalPath sResource
    rw [takeWhile_resource u.path_text .stdSAFE (.inr (by rw [sQueryString_eq]; rfl)),
      uriDecode_uriEncode hwsd u.path_text, ← uriEncode_stdSAFE]
    exact if_neg hne
  have hquery : ((u.sResource ++ u.sQueryString st (fmtInt Expire)).dropWhile (· ≠ '?')).drop 1 =
      joinQuery ((u.paramsV4 st (fmtInt Expire)).map encodedEntry) := by
    rw [sQueryString_eq]
    exact u.query_target _
  have hmethod : "GET".toList.map Char.toUpper ++ ['\n'] = "GET\n".toList := by decide
  have hpayload : '\n' :: "UNSIGNED-PAYLOAD".toList = "\nUNSIGNED-PAYLOAD".toList := by decide
  unfold canonicalRequest
  rw [hpath, hquery, canonicalQuery_joinQuery hwsd (u.textParams_paramsV4 st Expire) (u.type_paramsV4 st _)
    (u.sorted_paramsV4 st _), canonicalHeaders_headers, ← hmethod, ← hpayload]
  simp only [List.append_assoc, List.cons_append, List.nil_append]

/-- **The server's canonical request is the one that was signed.** The server leaves out the
signature, and decodes and encodes the rest again, which gives what was there. -/
theorem canonical_urlOf (hwsd : DecodesPercent wsd) (u : Share) (t : Stamp) (st : SystemTime) (Expire : ℤ)
    {sig : CString} (hsig : ∀ c ∈ sig, c.toNat ≠ 0) :
    (u.urlOf (u.paramsV4 st (fmtInt Expire) ++ [amzSignature sig])).canonical "host".toList =
      canonicalRequest wsd "GET".toList (u.sResource ++ u.sQueryString st (fmtInt Expire)) (u.headers t)
        "UNSIGNED-PAYLOAD".toList := by
  set ps := u.paramsV4 st (fmtInt Expire) with hps
  have htext := u.textParams_paramsV4 st Expire
  have htype := u.type_paramsV4 st (fmtInt Expire)
  rw [← hps] at htext htype
  have hname := constants_text "X-Amz-Signature" (by decide)
  have hall : TextParams (ps ++ [amzSignature sig]) := by
    intro p hp
    rcases List.mem_append.1 hp with hp | hp
    · exact htext p hp
    · rw [List.mem_singleton.1 hp]
      exact ⟨hname.1, hname.2, hsig⟩
  -- The signature is left out, and the others are in order.
  have hfilter : ((Query.serverParams (u.target (ps ++ [amzSignature sig]))).filter fun p =>
      p.1 ≠ CodePage.utf8 "X-Amz-Signature".toList) =
      ps.map fun p => (CodePage.utf8 p.name, some (CodePage.utf8 p.value)) := by
    have hnames : ∀ p ∈ ps, p.name ≠ "X-Amz-Signature".toList := by
      have hconst : ∀ s ∈ ["X-Amz-Algorithm", "X-Amz-Credential", "X-Amz-Date", "X-Amz-Expires",
          "X-Amz-SignedHeaders"], s.toList ≠ "X-Amz-Signature".toList := by
        decide
      rw [hps]
      unfold paramsV4
      simp only [List.forall_mem_cons] at hconst ⊢
      obtain ⟨h₁, h₂, h₃, h₄, h₅, -⟩ := hconst
      exact ⟨h₁, h₂, h₃, h₄, h₅, fun _ hp => absurd hp List.not_mem_nil⟩
    have hsignature : (([amzSignature sig].map fun p => (CodePage.utf8 p.name, some (CodePage.utf8 p.value))).filter
        fun p => p.1 ≠ CodePage.utf8 "X-Amz-Signature".toList) = [] :=
      List.filter_eq_nil_iff.2 fun p hp hne => by
        rw [List.map_singleton, List.mem_singleton] at hp
        exact of_decide_eq_true hne (congrArg Prod.fst hp)
    rw [target, serverParams_joinQuery hall ⟨u.sResource_notMem.1, u.sResource_notMem.2.1⟩, List.map_append,
      List.filter_append, hsignature, List.append_nil, List.filter_eq_self.2]
    intro p hp
    obtain ⟨q, hq, rfl⟩ := List.mem_map.1 hp
    exact decide_eq_true fun h => hnames q hq (CodePage.utf8_injective h)
  have hencoded : (ps.map fun p => (CodePage.utf8 p.name, some (CodePage.utf8 p.value))).map (fun p =>
      (Percent.encode UriEncodeType.v4AuthSlash.safe p.1,
        Percent.encode UriEncodeType.v4AuthSlash.safe (p.2.getD []))) = ps.map encodedEntry := by
    rw [List.map_map]
    refine List.map_congr_left fun p hp => ?_
    simp only [Function.comp_apply, Option.getD_some, encodedEntry, htype p hp, uriEncode_eq (htext p hp).2.1,
      uriEncode_eq (htext p hp).2.2]
  have hsort : (ps.map encodedEntry).mergeSort (fun e f => decide (toLex e ≤ toLex f)) = ps.map encodedEntry :=
    List.mergeSort_of_pairwise ((u.sorted_paramsV4 st _).imp fun h =>
      decide_eq_true (Prod.Lex.toLex_le_toLex.2 (.inl h)))
  have hlines : ((Query.tokens (· = ';') "host".toList).flatMap fun label =>
      label ++ ':' :: ((if label = "host".toList then u.sHostPort else []) ++ ['\n'])) =
      "host".toList ++ ':' :: (u.sHostPort ++ ['\n']) := by
    have htokens : Query.tokens (· = ';') "host".toList = ["host".toList] := by decide
    rw [htokens, List.flatMap_singleton, if_pos rfl]
  have hpath : Percent.encode UriEncodeType.v4Auth.safe (Query.unescape u.sResource) = u.sResource := by
    rw [unescape_sResource, ← uriEncode_eq u.path_text, ← uriEncode_stdSAFE, sResource]
  rw [canonicalRequest_eq hwsd, ← hps]
  unfold Url.canonical
  rw [path_urlOf hall, hpath]
  simp only [urlOf, hfilter, hencoded, hsort, hlines]

end Share

section Version4

variable {wsd : CString → Except DWORD CString}

namespace Share

variable {u : Share} {st : SystemTime}

/-- No NUL is in what is hashed. -/
theorem canonicalRequest_text (hwsd : DecodesPercent wsd) (u : Share) (t : Stamp) (st : SystemTime) (Expire : ℤ) :
    ∀ c ∈ canonicalRequest wsd "GET".toList (u.sResource ++ u.sQueryString st (fmtInt Expire)) (u.headers t)
      "UNSIGNED-PAYLOAD".toList, c.toNat ≠ 0 := by
  have h₁ := (constants_text "GET\n" (by decide)).2
  have h₂ := (constants_text "host" (by decide)).2
  have h₃ := (constants_text "\nUNSIGNED-PAYLOAD" (by decide)).2
  have hchar : '\n'.toNat ≠ 0 ∧ ':'.toNat ≠ 0 := by decide
  rw [canonicalRequest_eq hwsd]
  intro c hc
  simp only [List.mem_append, List.mem_cons, List.not_mem_nil, or_false] at hc
  rcases hc with (hc | hc) | rfl | hc | rfl | (hc | rfl | hc | rfl) | rfl | hc | hc
  · exact h₁ c hc
  · exact uriEncode_text u.path_text _ c hc
  · exact hchar.1
  · exact joinQuery_text (u.textParams_paramsV4 st Expire) c hc
  · exact hchar.1
  · exact h₂ c hc
  · exact hchar.2
  · exact (u.sHostPort_plain c hc).2.2.2.2
  · exact hchar.1
  · exact hchar.1
  · exact h₂ c hc
  · exact h₃ c hc

/-- What is signed with version 4. -/
theorem textV4_eq (hwsd : DecodesPercent wsd) (C : Crypto) (u : Share) (t : Stamp) (st : SystemTime) (Expire : ℤ) :
    u.textV4 C wsd t st (fmtInt Expire) =
      "AWS4-HMAC-SHA256\n".toList ++ formatSystemTime st false true ++ '\n' ::
        ((scope st u.sS3Region).toList ++ '\n' ::
        Stream.binaryToHexString (C.hash (CodePage.utf8 (canonicalRequest wsd "GET".toList
          (u.sResource ++ u.sQueryString st (fmtInt Expire)) (u.headers t) "UNSIGNED-PAYLOAD".toList)))) := by
  have htext := u.canonicalRequest_text hwsd t st Expire
  unfold textV4 stringToSignV4
  rw [List.takeWhile_eq_self_iff.2]
  intro b hb
  have hne : b ≠ 0 := fun h => CodePage.zero_notMem_utf8 htext (h ▸ hb)
  exact decide_eq_true hne

/-- **What is signed is ASCII** where the region is, and has no NUL in it. It is made of the names
of the algorithm, of digits, of the region, and of the hash in hexadecimal digits; the path and the
key are behind the hash. -/
theorem textV4_ascii (hwsd : DecodesPercent wsd) (C : Crypto) (u : Share) (t : Stamp) (st : SystemTime) (Expire : ℤ)
    (hregion : ∀ c ∈ u.sS3Region.toList, c.toNat < 128) :
    ∀ c ∈ u.textV4 C wsd t st (fmtInt Expire), c.toNat ≠ 0 ∧ c.toNat < 128 := by
  have hconst : ∀ s ∈ ["AWS4-HMAC-SHA256\n", "/", "/s3/aws4_request", "TZ\n"], ∀ c ∈ s.toList,
      c.toNat ≠ 0 ∧ c.toNat < 128 := by
    simp
  have hplain : ∀ {c : Char}, c.isDigit = true → c.toNat ≠ 0 ∧ c.toNat < 128 := fun hc =>
    have hsafe := isPlain_safe (isPlain_of_isDigit hc)
    ⟨hsafe.2.1, hsafe.1⟩
  have hscope : ∀ c ∈ (scope st u.sS3Region).toList, c.toNat ≠ 0 ∧ c.toNat < 128 := by
    intro c hc
    simp only [scope, String.toList_append, List.mem_append] at hc
    rcases hc with ((hc | hc) | hc) | hc
    · exact hplain (isDigit_date hc)
    · exact hconst "/" (by decide) c hc
    · exact ⟨(u.region_text c hc).2, hregion c hc⟩
    · exact hconst "/s3/aws4_request" (by decide) c hc
  have htime : ∀ c ∈ formatSystemTime st false true, c.toNat ≠ 0 ∧ c.toNat < 128 := by
    intro c hc
    simp only [formatSystemTime, List.mem_append, List.mem_singleton, if_true, List.not_mem_nil, or_false,
      Bool.false_eq_true, if_false] at hc
    rcases hc with ((((((hc | hc) | hc) | rfl) | hc) | hc) | hc) | rfl
    all_goals first | exact hplain (isDigit_of_mem_fmtNum hc) | decide
  intro c hc
  rw [textV4_eq hwsd] at hc
  simp only [List.mem_append, List.mem_cons] at hc
  rcases hc with (hc | hc) | rfl | hc | rfl | hc
  · exact hconst "AWS4-HMAC-SHA256\n" (by decide) c hc
  · exact htime c hc
  · decide
  · exact hscope c hc
  · decide
  · exact binaryToHexString_text _ c hc

/-- The key is made anew, and the text is converted as UTF-8 would. -/
theorem signatureV4_eq (hwsd : DecodesPercent wsd) (C : Crypto) (ansi : AnsiEncoder) (u : Share) (sSecret : String)
    (t : Stamp) (st : SystemTime) (Expire : ℤ) (hregion : ∀ c ∈ u.sS3Region.toList, c.toNat < 128) :
    u.signatureV4 C ansi wsd sSecret t st (fmtInt Expire) = Stream.binaryToHexString
      (C.mac (createS3SigningKey C sSecret u.sS3Region st) (CodePage.utf8 (u.textV4 C wsd t st (fmtInt Expire)))) := by
  have hcached : KeyCache.clear.lookup st = [] := by
    unfold KeyCache.lookup
    split_ifs <;> rfl
  have hascii := u.textV4_ascii hwsd C t st Expire hregion
  unfold signatureV4
  rw [hcached, ansi.ascii _ fun c hc => (hascii c hc).2, List.takeWhile_eq_self_iff.2]
  · rfl
  · intro b hb
    have hne : b ≠ 0 := fun h => CodePage.zero_notMem_utf8 (fun c hc => (hascii c hc).1) (h ▸ hb)
    exact decide_eq_true hne

/-- A credential is taken apart into the key and the four parts of the scope. -/
theorem splitOn_sCredential (u : Share) (st : SystemTime) : (u.sCredential st).splitOn '/' =
    u.sS3KeyID.splitOn '/' ++ [st.date.toList, u.sS3Region.toList, "s3".toList, "aws4_request".toList] := by
  have hscope : (scope st u.sS3Region).toList.splitOn '/' =
      [st.date.toList, u.sS3Region.toList, "s3".toList, "aws4_request".toList] := by
    have hconst : '/' ∉ "s3".toList ∧ '/' ∉ "aws4_request".toList := by decide
    rw [scope_toList, List.splitOn_intercalate]
    · simp only [List.forall_mem_cons]
      exact ⟨fun h => (date_text st _ h).1 rfl, fun h => (u.region_text _ h).1 rfl, hconst.1, hconst.2,
        fun _ h => absurd h List.not_mem_nil⟩
    · exact List.cons_ne_nil _ _
  rw [← hscope, sCredential]
  exact List.splitOnP_append_cons _ _ (by decide)

/-- The URL of version 4 is its parameters behind the path. -/
theorem urlV4_eq (wsd : CString → Except DWORD CString) (C : Crypto) (ansi : AnsiEncoder) (u : Share) (sSecret : String)
    (t : Stamp) (st : SystemTime) (Time CurTime : ℤ) :
    ∃ Expire : ℤ, durationV4 Time CurTime = fmtInt Expire ∧
      u.urlV4 C ansi wsd sSecret t st Time CurTime = u.scheme ++ ("//".toList ++ (u.sHostPort ++
        u.target (u.paramsV4 st (fmtInt Expire) ++
          [amzSignature (u.signatureV4 C ansi wsd sSecret t st (fmtInt Expire))]))) := by
  refine ⟨_, rfl, ?_⟩
  set Expire := if Time - CurTime > 604800 then 604800 else Time - CurTime
  have hexpire : durationV4 Time CurTime = fmtInt Expire := rfl
  have hname : uriEncode "X-Amz-Signature".toList .v4AuthSlash = "X-Amz-Signature".toList ∧
      "&X-Amz-Signature".toList = '&' :: "X-Amz-Signature".toList ∧ '#' ∉ "&X-Amz-Signature".toList ∧
      "&X-Amz-Signature".toList.getLast? = some 'e' ∧ '#' ∉ "//".toList := by
    decide
  have hhash : '#' ∉ u.scheme ++ "//".toList ++ u.sHostPort ++ (u.sResource ++ u.sQueryString st (fmtInt Expire)) ++
      "&X-Amz-Signature".toList := by
    have hscheme : '#' ∉ u.scheme := by
      unfold scheme
      split_ifs <;> decide
    rw [sQueryString_eq]
    simp only [List.mem_append, List.mem_cons, not_or]
    exact ⟨⟨⟨⟨hscheme, hname.2.2.2.2⟩, fun h => (u.sHostPort_plain _ h).2.2.1 rfl⟩, u.sResource_notMem.2.1, by decide,
      hash_notMem_joinQuery (u.textParams_paramsV4 st Expire)⟩, hname.2.2.1⟩
  have hlast : (u.scheme ++ "//".toList ++ u.sHostPort ++ (u.sResource ++ u.sQueryString st (fmtInt Expire)) ++
      "&X-Amz-Signature".toList).getLast? ≠ some '=' := by
    rw [List.getLast?_append, hname.2.2.2.1]
    exact fun h => absurd (Option.some.inj h) (by decide)
  have hne : (u.paramsV4 st (fmtInt Expire)).map encodedEntry ≠ [] := List.cons_ne_nil _ _
  have hentry : ∀ sig, encodedEntry (amzSignature sig) = ("X-Amz-Signature".toList, uriEncode sig .v4AuthSlash) :=
    fun sig => Prod.ext hname.1 rfl
  unfold urlV4
  rw [hexpire]
  dsimp only
  rw [encodeSpecialChars_eq hhash hlast, sQueryString_eq, target, List.map_append, List.map_singleton,
    joinQuery_concat hne, hentry, hname.2.1]
  simp only [List.append_assoc, List.cons_append]

end Share

/-- **A shareable URL of version 4 is accepted**, for every object, host, key and time, every region with an ASCII
name and every code page: a server that takes it apart finds the host, the path to the object and the time it
expires at, and comes to the signature that is in it. -/
theorem shareable_v4 (hwsd : DecodesPercent wsd) (C : Crypto) (ansi : AnsiEncoder) (u : Share) (sSecret : String)
    (t : Stamp) (st : SystemTime) (Time CurTime : ℤ) {secretOf : CString → Option String}
    (hsecret : secretOf u.sS3KeyID = some sSecret) (hregion : ∀ c ∈ u.sS3Region.toList, c.toNat < 128) :
    ∃ url, readUrl (u.urlV4 C ansi wsd sSecret t st Time CurTime) = some url ∧ url.authority = u.sHostPort ∧
      Query.unescape url.path = CodePage.utf8 u.pszPath ∧
      url.text "X-Amz-Date" = some (formatSystemTime st false true) ∧
      url.text "X-Amz-Expires" = some (Share.durationV4 Time CurTime) ∧
      (url.text "X-Amz-Signature").isSome = true ∧ url.expectedV4 C secretOf = url.text "X-Amz-Signature" := by
  obtain ⟨Expire, hexpire, hurl⟩ := u.urlV4_eq wsd C ansi sSecret t st Time CurTime
  set sig := u.signatureV4 C ansi wsd sSecret t st (fmtInt Expire) with hsig
  have htext : ∀ c ∈ sig, c.toNat ≠ 0 := fun c hc => (binaryToHexString_text _ c hc).1
  have hname := constants_text "X-Amz-Signature" (by decide)
  have hps : TextParams (u.paramsV4 st (fmtInt Expire) ++ [Share.amzSignature sig]) := by
    intro p hp
    rcases List.mem_append.1 hp with hp | hp
    · exact u.textParams_paramsV4 st Expire p hp
    · rw [List.mem_singleton.1 hp]
      exact ⟨hname.1, hname.2, htext⟩
  refine ⟨_, (congrArg readUrl hurl).trans (u.readUrl_target _), rfl, ?_, ?_, ?_, ?_, ?_⟩
  · rw [Share.path_urlOf hps, Share.unescape_sResource]
  · rw [Share.text_urlOf hps]
    rfl
  · rw [Share.text_urlOf hps, hexpire]
    rfl
  · rw [Share.text_urlOf hps]
    rfl
  · have hcredential : (u.urlOf _).text "X-Amz-Credential" = some (u.sCredential st) := Share.text_urlOf hps _
    have hdate : (u.urlOf _).text "X-Amz-Date" = some (formatSystemTime st false true) := Share.text_urlOf hps _
    have hsigned : (u.urlOf _).text "X-Amz-SignedHeaders" = some "host".toList := Share.text_urlOf hps _
    have hsignature : (u.urlOf _).text "X-Amz-Signature" = some sig := Share.text_urlOf hps _
    have hkey : ['/'].intercalate (u.sS3KeyID.splitOn '/') = u.sS3KeyID := List.intercalate_splitOn '/'
    unfold Url.expectedV4
    rw [hcredential, hdate, hsigned, hsignature]
    simp only [Option.bind_eq_bind, Option.bind_some, u.splitOn_sCredential, List.reverse_append,
      List.reverse_cons, List.reverse_nil, List.nil_append, List.cons_append, List.reverse_reverse, hkey, hsecret]
    rw [← Share.scope_toList, Share.canonical_urlOf hwsd u t st Expire htext, ← Share.textV4_eq hwsd, hsig,
      Share.signatureV4_eq hwsd C ansi u sSecret t st Expire hregion]
    rfl

/-- An object on a test system. -/
def Share.sample : Share where
  bSSL := true
  sIP := "10.1.2.3".toList
  Port := 9021
  sS3KeyID := "admin".toList
  sS3Region := "us-east-1"
  pszPath := "/bucket/a #1?.txt".toList
  ip_plain := forall_of_all (by decide)
  key_text := forall_of_all (by decide)
  region_text := forall_of_all (by decide)
  path_slash := ⟨_, rfl⟩
  path_text := forall_of_all (by decide)

/-- The URL of an object with a space, a `#` and a `?` in its name. The time is given as a fixed
one, and the code page is one that keeps ASCII and nothing else. -/
theorem shareable_v4_sample : ∃ url,
    readUrl (Share.sample.urlV4 Crypto.standard .latin1 wsdUriDecode "secret" ⟨[], [], [], [], true⟩
      ⟨2026, 1, 2, 3, 4, 5, 6⟩ 1000000 0) = some url ∧ url.authority = Share.sample.sHostPort ∧
      Query.unescape url.path = CodePage.utf8 Share.sample.pszPath ∧
      url.text "X-Amz-Date" = some (formatSystemTime ⟨2026, 1, 2, 3, 4, 5, 6⟩ false true) ∧
      url.text "X-Amz-Expires" = some (Share.durationV4 1000000 0) ∧
      (url.text "X-Amz-Signature").isSome = true ∧
      url.expectedV4 Crypto.standard (fun key => if key = "admin".toList then some "secret" else none) =
        url.text "X-Amz-Signature" :=
  shareable_v4 decodesPercent_wsdUriDecode Crypto.standard .latin1 Share.sample "secret" _ _ 1000000 0 (by decide)
    (forall_of_all (by decide))

end Version4

/-- What is left of an earlier request and counts with version 2: an MD5, and each header of the two kinds. -/
def Leftover (headers : Headers) : Prop :=
  (∃ h, headers.find "content-md5".toList = some h ∧ h.sContents ≠ []) ∨ ∃ e ∈ headers, isAmzHeader e.1 = true

section Version2

variable {wsd : CString → Except DWORD CString}

namespace Share

/-- The parameters of version 2. -/
def paramsV2 (u : Share) (sExpire sSignature : CString) : List UrlParam :=
  [{ name := "AWSAccessKeyId".toList, value := u.sS3KeyID, type := .stdSAFE },
    { name := "Expires".toList, value := sExpire }, { name := "Signature".toList, value := sSignature }]

/-- The parameters of version 2 are texts. -/
theorem textParams_paramsV2 (u : Share) (t : ℤ) {sSignature : CString} (h : ∀ c ∈ sSignature, c.toNat ≠ 0) :
    TextParams (u.paramsV2 (fmtInt t) sSignature) := by
  have h₁ := constants_text "AWSAccessKeyId" (by decide)
  have h₂ := constants_text "Expires" (by decide)
  have h₃ := constants_text "Signature" (by decide)
  unfold TextParams paramsV2
  simp only [List.forall_mem_cons]
  exact ⟨⟨h₁.1, h₁.2, u.key_text⟩, ⟨h₂.1, h₂.2, fmtInt_text t⟩, ⟨h₃.1, h₃.2, h⟩, fun _ hp => absurd hp List.not_mem_nil⟩

/-- The URL of version 2 is its parameters behind the path. -/
theorem urlV2_eq (wsd : CString → Except DWORD CString) (sign : Bytes → CString) (u : Share) (headers : Headers)
    (Time : ℤ) :
    ∃ sSignature, sSignature = sign ((CodePage.utf8 (u.textV2 wsd headers (fmtInt Time))).takeWhile (· ≠ 0)) ∧
      u.urlV2 sign wsd headers Time = u.scheme ++ ("//".toList ++ (u.sHostPort ++
        u.target (u.paramsV2 (fmtInt Time) sSignature))) := by
  refine ⟨_, rfl, ?_⟩
  have h₁ := uriEncode_constants "AWSAccessKeyId" (by decide)
  have h₂ := uriEncode_constants "Expires" (by decide)
  have h₃ := uriEncode_constants "Signature" (by decide)
  have hlit : "?AWSAccessKeyId=".toList = '?' :: ("AWSAccessKeyId".toList ++ ['=']) ∧
      "&Expires=".toList = '&' :: ("Expires".toList ++ ['=']) ∧ "&Signature".toList = '&' :: "Signature".toList ∧
      '#' ∉ "AWSAccessKeyId".toList ++ "Expires".toList ++ "Signature".toList ∧
      ('&' :: "Signature".toList).getLast? = some 'e' := by
    decide
  have hhash : '#' ∉ fmtInt Time := by
    rw [← uriEncode_fmtInt]
    exact separator_notMem (fmtInt_text Time) _ '#' (by decide)
  obtain ⟨e₁, e₂, e₃, hconst, hend⟩ := hlit
  simp only [List.mem_append, not_or] at hconst
  have hkey : '#' ∉ uriEncode u.sS3KeyID .stdSAFE := separator_notMem u.key_text _ '#' (by decide)
  have hfront : '#' ∉ u.sHostPort ++ u.sResource ++ "?AWSAccessKeyId=".toList ++ uriEncode u.sS3KeyID .stdSAFE ++
      "&Expires=".toList ++ fmtInt Time ++ "&Signature".toList := by
    rw [e₁, e₂, e₃]
    simp only [List.mem_append, List.mem_cons, List.not_mem_nil, not_or, or_false]
    exact ⟨⟨⟨⟨⟨⟨fun h => (u.sHostPort_plain _ h).2.2.1 rfl, u.sResource_notMem.2.1⟩, by decide, hconst.1.1,
      by decide⟩, hkey⟩, by decide, hconst.1.2, by decide⟩, hhash⟩, by decide, hconst.2⟩
  have hlast : (u.sHostPort ++ u.sResource ++ "?AWSAccessKeyId=".toList ++ uriEncode u.sS3KeyID .stdSAFE ++
      "&Expires=".toList ++ fmtInt Time ++ "&Signature".toList).getLast? ≠ some '=' := by
    rw [e₃, List.getLast?_append, hend]
    exact fun h => absurd (Option.some.inj h) (by decide)
  unfold urlV2
  dsimp only
  rw [encodeSpecialChars_eq hfront hlast, e₁, e₂, e₃]
  unfold target paramsV2 encodedEntry joinQuery
  simp only [List.map_cons, List.map_nil, h₁, h₂, h₃, uriEncode_fmtInt]
  -- only the form of the texts matters from here on
  generalize "AWSAccessKeyId".toList = n₁, "Expires".toList = n₂, "Signature".toList = n₃
  simp only [List.intercalate_cons_cons, List.intercalate_singleton, List.append_assoc, List.cons_append,
    List.nil_append]

/-- A line is empty if and only if the header is not there, or has no contents. -/
theorem length_headerLine {headers : Headers} {label : String} : (headerLine headers label).length ≠ 1 ↔
    ∃ h, headers.find label.toList = some h ∧ h.sContents ≠ [] := by
  unfold headerLine
  cases headers.find label.toList with
  | none => simp
  | some h => simp

/-- Some header of the two kinds is there if and only if a line is written. -/
theorem length_amzHeaders {headers : Headers} : (amzHeaders headers).length ≠ 0 ↔
    ∃ e ∈ headers, isAmzHeader e.1 = true := by
  rw [amzHeaders_eq, ne_eq, List.length_eq_zero_iff, List.flatMap_eq_nil_iff, not_forall]
  constructor
  · rintro ⟨e, h⟩
    rw [Classical.not_imp, List.mem_filter] at h
    exact ⟨e, h.1.1, h.1.2⟩
  · rintro ⟨e, he, hamz⟩
    refine ⟨e, fun h => ?_⟩
    have hline := h (List.mem_filter.2 ⟨he, hamz⟩)
    exact List.append_ne_nil_of_right_ne_nil _ (List.cons_ne_nil _ _) hline

/-- **What is signed with version 2 is what a server signs**, if and only if nothing is left that
counts. The text begins with the method, the MD5, the type and the date; behind them are the headers
of the two kinds, of which a URL can carry none. -/
theorem textV2_eq_iff (u : Share) (headers : Headers) (sExpire : CString) :
    u.textV2 wsd headers sExpire = "GET\n\n\n".toList ++ sExpire ++ '\n' :: u.sResource ↔ ¬Leftover headers := by
  have hresource : canonicalResource wsd u.sResource = u.sResource := if_neg u.sResource_notMem.1
  have htext : u.textV2 wsd headers sExpire = "GET\n".toList ++ (headerLine headers "content-md5" ++
      '\n' :: (sExpire ++ '\n' :: (amzHeaders headers ++ u.sResource))) := by
    have hmethod : "GET".toList.map Char.toUpper ++ ['\n'] = "GET\n".toList := by decide
    unfold textV2 stringToSignV2 frontV2 dateLine
    rw [hresource, ← hmethod, if_neg (Option.some_ne_none sExpire)]
    simp only [List.append_assoc, List.cons_append, List.nil_append]
  have hexpected : "GET\n\n\n".toList ++ sExpire ++ '\n' :: u.sResource =
      "GET\n".toList ++ (['\n'] ++ '\n' :: (sExpire ++ '\n' :: ([] ++ u.sResource))) := by
    have hfront : "GET\n\n\n".toList = "GET\n".toList ++ ['\n', '\n'] := by decide
    rw [hfront]
    simp only [List.append_assoc, List.cons_append, List.nil_append]
  rw [htext, hexpected]
  constructor
  · -- a longer text is another one
    intro heq
    have hlength := congrArg List.length heq
    simp only [List.length_append, List.length_cons, List.length_nil] at hlength
    have hline : 0 < (headerLine headers "content-md5").length := by
      unfold headerLine
      split <;> simp
    rintro (h | h)
    · have hne := length_headerLine.2 h
      omega
    · have hne := length_amzHeaders.2 h
      omega
  · intro hleft
    have hmd5 : headerLine headers "content-md5" = ['\n'] := by
      unfold headerLine
      split
      · rename_i h hfind
        have hempty : h.sContents = [] := by_contra fun hne => hleft (.inl ⟨h, hfind, hne⟩)
        rw [hempty, List.nil_append]
      · rfl
    have hamz : amzHeaders headers = [] :=
      List.eq_nil_of_length_eq_zero (by_contra fun h => hleft (.inr (length_amzHeaders.1 h)))
    rw [hmd5, hamz]

/-- **No parameter of version 2 is part of the resource.** They are the key, the expiry and the
signature, and none of their names is one of those that version 2 signs. -/
theorem url_textV2 (u : Share) (t : ℤ) {sSignature : CString} (h : ∀ c ∈ sSignature, c.toNat ≠ 0) :
    (u.urlOf (u.paramsV2 (fmtInt t) sSignature)).textV2 =
      some ("GET\n\n\n".toList ++ fmtInt t ++ '\n' :: u.sResource) := by
  have hps := u.textParams_paramsV2 t h
  have hexpires : (u.urlOf (u.paramsV2 (fmtInt t) sSignature)).text "Expires" = some (fmtInt t) :=
    text_urlOf hps _
  have hparameters : (parameters (u.target (u.paramsV2 (fmtInt t) sSignature))).filter
      (fun t => ifQuery (checkToken t)) = [] := by
    have hconst : ∀ s ∈ ["AWSAccessKeyId", "Expires", "Signature"],
        ifQuery (trim (lower (uriEncode s.toList .v4AuthSlash))) = false := by
      decide
    refine List.filter_eq_nil_iff.2 fun token htoken hset => ?_
    have hmem : Query.param token ∈
        Query.params (joinQuery ((u.paramsV2 (fmtInt t) sSignature).map encodedEntry)) := by
      rw [← u.query_target]
      exact List.mem_map_of_mem htoken
    rw [params_joinQuery hps] at hmem
    obtain ⟨p, hp, hparam⟩ := List.mem_map.1 hmem
    have hname : ∃ s ∈ ["AWSAccessKeyId", "Expires", "Signature"], p.name = s.toList := by
      simp only [paramsV2, List.mem_cons, List.not_mem_nil, or_false] at hp
      rcases hp with rfl | rfl | rfl
      · exact ⟨_, List.mem_cons_self, rfl⟩
      · exact ⟨_, List.mem_cons_of_mem _ List.mem_cons_self, rfl⟩
      · exact ⟨_, List.mem_cons_of_mem _ (List.mem_cons_of_mem _ List.mem_cons_self), rfl⟩
    obtain ⟨s, hs, hname⟩ := hname
    rw [checkToken, ← hparam, hname, hconst s hs] at hset
    exact Bool.false_ne_true hset
  unfold Url.textV2
  rw [hexpires, path_urlOf hps]
  simp only [urlOf, hparameters, Option.map_some, List.map_nil, signedQuery, if_true, List.append_nil]

end Share

/-- **When a shareable URL of version 2 is accepted.**  A server that takes it apart finds the host, the key, the
path to the object and the time it expires at, and the signature of the text that was signed; and it signs that
text itself if and only if nothing that counts was left in the headers by an earlier request. -/
theorem shareable_v2 {sign : Bytes → CString} (hsign : ∀ data, ∀ c ∈ sign data, c.toNat ≠ 0)
    (wsd : CString → Except DWORD CString) (u : Share) (headers : Headers) (Time : ℤ) :
    ∃ url, readUrl (u.urlV2 sign wsd headers Time) = some url ∧ url.authority = u.sHostPort ∧
      Query.unescape url.path = CodePage.utf8 u.pszPath ∧ url.text "AWSAccessKeyId" = some u.sS3KeyID ∧
      url.text "Expires" = some (fmtInt Time) ∧
      url.text "Signature" =
        some (sign ((CodePage.utf8 (u.textV2 wsd headers (fmtInt Time))).takeWhile (· ≠ 0))) ∧
      (url.textV2 = some (u.textV2 wsd headers (fmtInt Time)) ↔ ¬Leftover headers) := by
  obtain ⟨sSignature, hsignature, hurl⟩ := u.urlV2_eq wsd sign headers Time
  have htext : ∀ c ∈ sSignature, c.toNat ≠ 0 := by
    rw [hsignature]
    exact hsign _
  have hps := u.textParams_paramsV2 Time htext
  refine ⟨_, (congrArg readUrl hurl).trans (u.readUrl_target _), rfl, ?_, ?_, ?_, ?_, ?_⟩
  · rw [Share.path_urlOf hps, Share.unescape_sResource]
  · rw [Share.text_urlOf hps]
    rfl
  · rw [Share.text_urlOf hps]
    rfl
  · rw [Share.text_urlOf hps, ← hsignature]
    rfl
  · rw [u.url_textV2 Time htext, Option.some_inj, eq_comm]
    exact u.textV2_eq_iff headers _

/-- The URL of a thread without headers. There are no headers of an earlier request, so nothing is
left that counts, and the server comes to the text that was signed. -/
theorem shareable_v2_sample : ∃ url,
    readUrl (Share.sample.urlV2 (fun _ => "c2ln".toList) wsdUriDecode SortedMap.empty 1700000000) = some url ∧
      url.authority = Share.sample.sHostPort ∧ Query.unescape url.path = CodePage.utf8 Share.sample.pszPath ∧
      url.text "AWSAccessKeyId" = some Share.sample.sS3KeyID ∧ url.text "Expires" = some (fmtInt 1700000000) ∧
      url.text "Signature" = some "c2ln".toList ∧
      (url.textV2 = some (Share.sample.textV2 wsdUriDecode SortedMap.empty (fmtInt 1700000000)) ↔
        ¬Leftover SortedMap.empty) :=
  shareable_v2 (fun _ => forall_of_all (by decide)) wsdUriDecode Share.sample SortedMap.empty 1700000000

end Version2

end Sign
end ECSUtil

/-
# The order of the parameters

`CheckQuery` and `signRequestS3v2`, and the text that `signRequestS3v4` signs (`ECSUtil/ECSConnection.cpp`).
Both signers put the parameters into a map, so their order does not matter where no two of them have
the same key (`order_does_not_matter`).

The first one also splits the query at every `?`, which is part of a name as any other character.

A map made of a list with different keys is the same for every order of the list, so what is signed
is; what is left is when keys are different, which depends on how the names are decoded.
-/

import ECSUtil.Sign.Canonical
import ECSUtil.Stream.Send

namespace ECSUtil
namespace Sign

open Copy (Header Headers isSpace lower trim)

/-- `SignQuerySet`. -/
def signQuerySet : List String :=
  ["acl", "lifecycle", "searchmetadata", "location", "logging", "notification", "partnumber", "policy",
    "requestpayment", "torrent", "uploadid", "uploads", "versionid", "versioning", "versions", "website",
    "response-content-type", "response-content-language", "response-expires", "response-cache-control",
    "response-content-disposition", "response-content-encoding", "delete", "endpoint", "query"]

/-- `IfQuery`. -/
def ifQuery (sQuery : CString) : Bool := signQuerySet.contains (String.ofList sQuery)

/-- `sToken` of `CheckQuery`. -/
def checkToken (sQuery : CString) : CString := trim (lower (Query.param sQuery).name)

/-- `CheckQuery`. -/
def checkQuery (wsdUriDecode : CString → Except DWORD CString) (QueryMap : SortedMap CString CString)
    (sQuery : CString) : SortedMap CString CString :=
  if ifQuery (checkToken sQuery) then
    QueryMap.insert (checkToken sQuery) (uriDecode wsdUriDecode sQuery)
  else QueryMap

/-- The parameters that are signed, behind the path. -/
def signedQuery (l : List (CString × CString)) : CString :=
  if l = [] then [] else '?' :: ['&'].intercalate (l.map Prod.snd)

/-- `sResource` of `signRequestS3v2`. -/
def canonicalResource (wsdUriDecode : CString → Except DWORD CString) (resource : CString) : CString :=
  if '?' ∈ resource then
    resource.takeWhile (· ≠ '?') ++ signedQuery
      ((Query.tokens (fun c => c = '?' || c = '&') (resource.dropWhile (· ≠ '?'))).foldl
        (checkQuery wsdUriDecode) SortedMap.empty).entries
  else resource

/-- The contents of a header, on a line of its own. -/
def headerLine (headers : Headers) (label : String) : CString :=
  match headers.find label.toList with
  | some h => h.sContents ++ ['\n']
  | none => ['\n']

/-- The date, or when the signature expires. -/
def dateLine (headers : Headers) (pszExpires : Option CString) : CString :=
  match pszExpires with
  | some expires => expires ++ ['\n']
  | none =>
      match headers.find "x-amz-date".toList with
      | some h => h.sContents ++ ['\n']
      | none => headerLine headers "date"

/-- `Find(_T("x-amz")) == 0` or `Find(_T("x-emc")) == 0`. -/
def isAmzHeader (label : CString) : Bool :=
  "x-amz".toList.isPrefixOf label || "x-emc".toList.isPrefixOf label

/-- A line of `CanonicalizedAmzHeaders`. -/
def amzLine (e : CString × Header) : CString := e.1 ++ ':' :: (trim e.2.sContents ++ ['\n'])

/-- `CanonicalizedAmzHeaders`. -/
def amzHeaders (headers : Headers) : CString :=
  (headers.lowerBound "x-".toList).flatMap fun e => if isAmzHeader e.1 then amzLine e else []

/-- What is in front of the headers. -/
def frontV2 (method : CString) (headers : Headers) (pszExpires : Option CString) : CString :=
  method.map Char.toUpper ++ '\n' :: (headerLine headers "content-md5" ++
    ((if pszExpires = none then headerLine headers "content-type" else ['\n']) ++
      dateLine headers pszExpires))

/-- What `signRequestS3v2` signs. -/
def stringToSignV2 (wsdUriDecode : CString → Except DWORD CString) (method resource : CString)
    (headers : Headers) (pszExpires : Option CString) : CString :=
  frontV2 method headers pszExpires ++ (amzHeaders headers ++ canonicalResource wsdUriDecode resource)

/-- What `signRequestS3v4` signs. -/
def stringToSignV4 (C : Crypto) (wsdUriDecode : CString → Except DWORD CString) (method resource : CString)
    (headers : Headers) (sPayloadHash : CString) (stRequestTime : SystemTime) (sS3Region : String) :
    CString :=
  "AWS4-HMAC-SHA256\n".toList ++ formatSystemTime stRequestTime false true ++ '\n' ::
    ((scope stRequestTime sS3Region).toList ++ '\n' ::
      Stream.binaryToHexString (C.hash ((CodePage.utf8 (canonicalRequest wsdUriDecode method resource
        headers sPayloadHash)).takeWhile (· ≠ 0))))

/-- The parameters of a resource, each as a text. -/
def parameters (resource : CString) : List CString :=
  Query.tokens (· = '&') ((resource.dropWhile (· ≠ '?')).drop 1)

/-- The name of a parameter, decoded, trimmed and in lower case. -/
def decodedName (wsdUriDecode : CString → Except DWORD CString) (sQuery : CString) : CString :=
  trim (lower (uriDecode wsdUriDecode (Query.param sQuery).name))

/-- Two resources that differ in the order of their parameters. -/
structure Permuted (resource resource' : CString) : Prop where
  path : resource.takeWhile (· ≠ '?') = resource'.takeWhile (· ≠ '?')
  query : (parameters resource).Perm (parameters resource')

/-- The names are distinct, and no value has a delimiter in it. -/
structure WellFormed (wsdUriDecode : CString → Except DWORD CString) (resource : CString) : Prop where
  distinct : ((parameters resource).map (decodedName wsdUriDecode)).Nodup
  value : ∀ t ∈ parameters resource, ∀ v ∈ (Query.param t).value, '?' ∉ v ∧ '&' ∉ v ∧ '=' ∉ v

/-- No name has a `?`, or a NUL when it is decoded. -/
def PlainNames (wsdUriDecode : CString → Except DWORD CString) (resource : CString) : Prop :=
  ∀ t ∈ parameters resource, '?' ∉ (Query.param t).name ∧
    ∀ c ∈ uriDecode wsdUriDecode (Query.param t).name, c.toNat ≠ 0

/-- **What is signed with version 2**: a line for each header of the two kinds, in order; the path; and the
parameters of the set, by name. -/
def ExactV2 (wsdUriDecode : CString → Except DWORD CString) (method resource : CString)
    (headers : Headers) (pszExpires : Option CString) : Prop :=
  ∃ (hs : List (CString × Header)) (ps : List (CString × CString)),
    hs = headers.entries.filter (fun e => isAmzHeader e.1) ∧ hs.Pairwise (fun e f => e.1 < f.1) ∧
      ps.Perm (((parameters resource).filter fun t => ifQuery (checkToken t)).map fun t =>
        (checkToken t, uriDecode wsdUriDecode t)) ∧ ps.Pairwise (fun e f => e.1 < f.1) ∧
      stringToSignV2 wsdUriDecode method resource headers pszExpires =
        frontV2 method headers pszExpires ++ (hs.flatMap amzLine ++
          (resource.takeWhile (· ≠ '?') ++ signedQuery ps))

section

variable {wsd : CString → Except DWORD CString} {resource resource' : CString}

/-- What is no space is not trimmed away. -/
theorem mem_trim {c : Char} {s : CString} (h : c ∈ s) (hc : isSpace c = false) : c ∈ trim s := by
  have hdrop : ∀ s : CString, c ∈ s → c ∈ s.dropWhile isSpace := by
    intro s hs
    rw [← List.takeWhile_append_dropWhile (p := isSpace) (l := s)] at hs
    rcases List.mem_append.1 hs with hs | hs
    · exact absurd ((List.mem_takeWhile_imp hs).symm.trans hc) (by simp)
    · exact hs
  unfold trim Trim.trim
  exact List.mem_reverse.2 (hdrop _ (List.mem_reverse.2 (hdrop s h)))

/-- No name of the set has a `%` in it. -/
theorem percent_notMem_of_ifQuery {s : CString} (h : ifQuery s = true) : '%' ∉ s := by
  have hall : ∀ n ∈ signQuerySet, '%' ∉ n.toList := by decide +kernel
  have hs := hall _ (List.contains_iff_mem.1 h)
  rwa [String.toList_ofList] at hs

/-- **A name of the set is not encoded.** The names of the set are letters and hyphens, in lower
case, so there is nothing in them to encode or to decode. -/
theorem decodedName_of_ifQuery (hwsd : Decodes wsd) {t : CString} (h : ifQuery (checkToken t) = true) :
    decodedName wsd t = checkToken t := by
  have hname : '%' ∉ (Query.param t).name := by
    intro hmem
    have hlower : '%' ∈ lower (Query.param t).name := List.mem_map.2 ⟨'%', hmem, by decide⟩
    exact percent_notMem_of_ifQuery h (mem_trim hlower (by decide))
  unfold decodedName checkToken uriDecode
  rw [hwsd.plain _ hname]

/-- The entries of the map of the first signer. -/
def signedEntries (wsd : CString → Except DWORD CString) (resource : CString) : List (CString × CString) :=
  ((parameters resource).filter fun t => ifQuery (checkToken t)).map fun t =>
    (checkToken t, uriDecode wsd t)

/-- Different names are different keys. -/
theorem nodup_signedEntries (hwsd : Decodes wsd)
    (hdistinct : ((parameters resource).map (decodedName wsd)).Nodup) :
    ((signedEntries wsd resource).map Prod.fst).Nodup := by
  have hkeys : (signedEntries wsd resource).map Prod.fst =
      ((parameters resource).filter fun t => ifQuery (checkToken t)).map (decodedName wsd) := by
    unfold signedEntries
    rw [List.map_map]
    exact List.map_congr_left fun t ht => (decodedName_of_ifQuery hwsd (List.mem_filter.1 ht).2).symm
  rw [hkeys]
  exact hdistinct.sublist (List.filter_sublist.map _)

/-- **Without a `?` in the query both signers split it at the same places.** Only the first `?`
separates the path from the query then, and both read the parameters between the `&`s. -/
theorem canonicalResource_eq (hquery : '?' ∉ (resource.dropWhile (· ≠ '?')).drop 1) :
    canonicalResource wsd resource = resource.takeWhile (· ≠ '?') ++
      signedQuery (SortedMap.ofList (signedEntries wsd resource)).entries := by
  have hmap : ∀ l : List CString, l.foldl (checkQuery wsd) SortedMap.empty =
      SortedMap.ofList ((l.filter fun t => ifQuery (checkToken t)).map fun t =>
        (checkToken t, uriDecode wsd t)) := by
    intro l
    unfold SortedMap.ofList
    rw [List.foldl_map, List.foldl_filter]
    rfl
  unfold canonicalResource
  split_ifs with h
  · obtain ⟨query, hsplit⟩ := Query.exists_dropWhile h
    have htokens : Query.tokens (fun c => c = '?' || c = '&') (resource.dropWhile (· ≠ '?')) =
        parameters resource := by
      unfold parameters
      rw [hsplit] at hquery ⊢
      have hfront : Query.tokens (fun c => c = '?' || c = '&') ([] ++ '?' :: query) =
          Query.tokens (fun c => c = '?' || c = '&') [] ++
            Query.tokens (fun c => c = '?' || c = '&') query := Query.tokens_append rfl [] query
      rw [List.nil_append, Query.tokens_nil, List.nil_append] at hfront
      rw [hfront]
      refine Query.tokens_congr fun c hc => ?_
      have hne : c ≠ '?' := fun heq => hquery (heq ▸ hc)
      simp [hne]
    rw [htokens, hmap]
    rfl
  · have hnone : resource.takeWhile (· ≠ '?') = resource :=
      List.takeWhile_eq_self_iff.2 (Query.ne_of_notMem h)
    have hempty : signedEntries wsd resource = [] := by
      unfold signedEntries parameters
      rw [List.dropWhile_eq_nil_iff.2 (Query.ne_of_notMem h)]
      rfl
    rw [hnone, hempty]
    exact (List.append_nil _).symm

/-- Nothing is in a query but its parameters. -/
theorem query_notMem_of_plain (hname : ∀ t ∈ parameters resource, '?' ∉ (Query.param t).name)
    (hvalue : ∀ t ∈ parameters resource, ∀ v ∈ (Query.param t).value, '?' ∉ v) :
    '?' ∉ (resource.dropWhile (· ≠ '?')).drop 1 := by
  intro h
  obtain ⟨t, ht, hmem⟩ : ∃ t ∈ parameters resource, '?' ∈ t := Query.exists_mem_tokens h (by decide)
  rcases Query.mem_param hmem with hmem | hmem | ⟨v, hv, hmem⟩
  · exact hname t ht hmem
  · exact absurd hmem (by decide)
  · exact hvalue t ht v hv hmem

/-- Every header of the two kinds is behind `x-`. -/
theorem amzHeaders_eq (headers : Headers) :
    amzHeaders headers = (headers.entries.filter fun e => isAmzHeader e.1).flatMap amzLine := by
  have hbehind : ∀ label : CString, isAmzHeader label = true → ¬label < "x-".toList := by
    intro label h
    unfold isAmzHeader at h
    rcases Bool.or_eq_true_iff.1 h with h | h <;> obtain ⟨rest, rfl⟩ := List.isPrefixOf_iff_prefix.1 h <;>
      simp
  have hfilter : ∀ l : List (CString × Header),
      (l.flatMap fun e => if isAmzHeader e.1 then amzLine e else []) =
        (l.filter fun e => isAmzHeader e.1).flatMap amzLine := by
    intro l
    induction l with
    | nil => rfl
    | cons e l ih =>
        rw [List.flatMap_cons, ih, List.filter_cons]
        split_ifs
        · rw [List.flatMap_cons]
        · exact List.nil_append _
  unfold amzHeaders SortedMap.lowerBound
  rw [hfilter]
  have hdrop : ∀ below : CString × Header → Bool, (∀ e, below e = true → e.1 < "x-".toList) →
      (headers.entries.dropWhile below).filter (fun e => isAmzHeader e.1) =
        headers.entries.filter fun e => isAmzHeader e.1 := by
    intro below hbelow
    have hfront : (headers.entries.takeWhile below).filter (fun e => isAmzHeader e.1) = [] :=
      List.filter_eq_nil_iff.2 fun e he hamz =>
        hbehind e.1 hamz (hbelow e (List.mem_takeWhile_imp he))
    have hsplit := congrArg (List.filter fun e => isAmzHeader e.1)
      (List.takeWhile_append_dropWhile (p := below) (l := headers.entries))
    rwa [List.filter_append, hfront, List.nil_append] at hsplit
  exact congrArg (List.flatMap amzLine) (hdrop _ fun e he => by simpa using he)

/-- Encoded names are distinct where the decoded ones are, and have no NUL. -/
theorem nodup_queryEntry (hname : PlainNames wsd resource)
    (hdistinct : ((parameters resource).map (decodedName wsd)).Nodup) :
    ((((parameters resource).map Query.param).map (queryEntry wsd)).map Prod.fst).Nodup := by
  rw [List.map_map, List.map_map]
  refine List.pairwise_map.2 ((List.pairwise_map.1 hdistinct).imp_of_mem fun {t u} ht hu hne heq => hne ?_)
  have hencode : ∀ s : CString, (∀ c ∈ s, c.toNat ≠ 0) → uriEncode s .v4AuthSlash =
      Percent.encode UriEncodeType.v4AuthSlash.safe (CodePage.utf8 s) := fun s hs => uriEncode_eq hs _
  have heq : uriEncode (uriDecode wsd (Query.param t).name) .v4AuthSlash =
      uriEncode (uriDecode wsd (Query.param u).name) .v4AuthSlash := heq
  rw [hencode _ (hname t ht).2, hencode _ (hname u hu).2] at heq
  have hbytes := congrArg Percent.decode heq
  rw [Percent.decode_encode, Percent.decode_encode] at hbytes
  unfold decodedName
  rw [CodePage.utf8_injective (Option.some.inj hbytes)]

/-- **The order of the parameters does not matter**: where their names are distinct, and no name has a `?`
or a NUL in it, both signers sign the same text for every order, and the first one signs the lines and the
parameters it should. -/
theorem order_does_not_matter (hwsd : Decodes wsd) (hperm : Permuted resource resource')
    (hwell : WellFormed wsd resource) (hname : PlainNames wsd resource) (C : Crypto)
    (method sPayloadHash : CString) (m : HeaderMap) (pszExpires : Option CString)
    (stRequestTime : SystemTime) (sS3Region : String) :
    stringToSignV2 wsd method resource m.headers pszExpires =
        stringToSignV2 wsd method resource' m.headers pszExpires ∧
      stringToSignV4 C wsd method resource m.headers sPayloadHash stRequestTime sS3Region =
        stringToSignV4 C wsd method resource' m.headers sPayloadHash stRequestTime sS3Region ∧
      ExactV2 wsd method resource m.headers pszExpires := by
  have hmem : ∀ t, t ∈ parameters resource' → t ∈ parameters resource := fun t => hperm.query.mem_iff.2
  have hquery := query_notMem_of_plain (fun t ht => (hname t ht).1) fun t ht v hv =>
    (hwell.value t ht v hv).1
  have hquery' := query_notMem_of_plain (fun t ht => (hname t (hmem t ht)).1) fun t ht v hv =>
    (hwell.value t (hmem t ht) v hv).1
  have hkeys := nodup_signedEntries hwsd hwell.distinct
  refine ⟨?_, ?_, ?_⟩
  · have hentries : (signedEntries wsd resource).Perm (signedEntries wsd resource') :=
      (hperm.query.filter _).map _
    unfold stringToSignV2
    rw [canonicalResource_eq hquery, canonicalResource_eq hquery', hperm.path,
      SortedMap.ofList_eq_of_perm hentries hkeys]
  · have hparams : ((parameters resource).map Query.param).Perm ((parameters resource').map Query.param) :=
      hperm.query.map _
    have hcanonical : canonicalQuery wsd ((resource.dropWhile (· ≠ '?')).drop 1) =
        canonicalQuery wsd ((resource'.dropWhile (· ≠ '?')).drop 1) :=
      congrArg (fun m : SortedMap CString CString => joinQuery m.entries)
        (SortedMap.ofList_eq_of_perm (hparams.map (queryEntry wsd))
          (nodup_queryEntry hname hwell.distinct))
    have hpath : canonicalPath wsd resource = canonicalPath wsd resource' := by
      unfold canonicalPath
      rw [hperm.path]
    unfold stringToSignV4 canonicalRequest
    rw [hcanonical, hpath]
  · refine ⟨_, _, rfl, m.headers.sorted.filter _, SortedMap.entries_ofList hkeys,
      (SortedMap.ofList (signedEntries wsd resource)).sorted, ?_⟩
    unfold stringToSignV2
    rw [canonicalResource_eq hquery, amzHeaders_eq]
    rfl

end

/-- A version and its ACL, in both orders. Their names are different, so both maps have the two
entries in one order, whichever of them came first. -/
theorem order_does_not_matter_acl :
    stringToSignV2 decodeText "GET".toList "/b/o?acl&versionId=1".toList SortedMap.empty none =
        stringToSignV2 decodeText "GET".toList "/b/o?versionId=1&acl".toList SortedMap.empty none ∧
      stringToSignV4 .standard decodeText "GET".toList "/b/o?acl&versionId=1".toList SortedMap.empty
          "UNSIGNED-PAYLOAD".toList { wYear := 2024, wMonth := 5, wDay := 17 } "ECS" =
        stringToSignV4 .standard decodeText "GET".toList "/b/o?versionId=1&acl".toList SortedMap.empty
          "UNSIGNED-PAYLOAD".toList { wYear := 2024, wMonth := 5, wDay := 17 } "ECS" ∧
      ExactV2 decodeText "GET".toList "/b/o?acl&versionId=1".toList SortedMap.empty none := by
  have hparams : parameters "/b/o?acl&versionId=1".toList = ["acl".toList, "versionId=1".toList] := by
    decide +kernel
  have hpermuted : Permuted "/b/o?acl&versionId=1".toList "/b/o?versionId=1&acl".toList :=
    ⟨by decide +kernel, by decide +kernel⟩
  have hvalue : ∀ t ∈ parameters "/b/o?acl&versionId=1".toList, ∀ v ∈ (Query.param t).value,
      '?' ∉ v ∧ '&' ∉ v ∧ '=' ∉ v := by
    rw [hparams]
    decide +kernel
  have hname : PlainNames decodeText "/b/o?acl&versionId=1".toList := by
    have hall : ∀ t ∈ ["acl".toList, "versionId=1".toList], '?' ∉ (Query.param t).name ∧
        (uriDecode decodeText (Query.param t).name).all (fun c => decide (c.toNat ≠ 0)) = true := by
      decide +kernel
    intro t ht
    rw [hparams] at ht
    exact ⟨(hall t ht).1, fun c hc => of_decide_eq_true (List.all_eq_true.1 (hall t ht).2 c hc)⟩
  exact order_does_not_matter decodes_decodeText hpermuted ⟨by decide +kernel, hvalue⟩ hname .standard
    _ _ HeaderMap.empty _ _ _

/-- **A `?` in a name**: the other order signs another value. The version 2 signer takes the second
`?` for a separator too, so it finds two parameters `acl` in either resource and keeps the value of
the first. -/
theorem order_matters :
    (Permuted "/b/o?a?acl=1&acl=2".toList "/b/o?acl=2&a?acl=1".toList ∧
      WellFormed decodeText "/b/o?a?acl=1&acl=2".toList) ∧
    stringToSignV2 decodeText "GET".toList "/b/o?a?acl=1&acl=2".toList SortedMap.empty none =
        "GET\n\n\n\n/b/o?acl=1".toList ∧
      stringToSignV2 decodeText "GET".toList "/b/o?acl=2&a?acl=1".toList SortedMap.empty none =
        "GET\n\n\n\n/b/o?acl=2".toList := by
  have hparams : parameters "/b/o?a?acl=1&acl=2".toList = ["a?acl=1".toList, "acl=2".toList] := by
    decide +kernel
  refine ⟨⟨⟨by decide +kernel, by decide +kernel⟩, ⟨by decide +kernel, ?_⟩⟩, by decide +kernel,
    by decide +kernel⟩
  rw [hparams]
  decide +kernel

end Sign
end ECSUtil

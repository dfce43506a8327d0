/-
# The tokens of a server in a request

The resources of the requests that give a server one of its tokens back (`ECSUtil/ECSConnection.cpp`): the id
of a version (`RenameS3`, `DeleteS3`, `CopyS3`, `ReadACL`, `WriteACL`, `S3MultiPartUpload`,
`ReadProperties`), the id of an upload (`S3MultiPartComplete`, `S3MultiPartAbort`, `S3MultiPartUpload`),
and the markers of `S3MultiPartList` and `S3SearchMD`.

What else is in these resources is encoded, the tokens are not, so that a server reads a token back if and
only if there is nothing in it to split or to decode (`token_back`).

Each of the resources is the token put between what is in front of it and what is behind
(`Query.splice`), and what a server reads of that is a lemma of `Lib.Query`; so the resources are
dealt with alike, and the encoded parts only have to be free of `#` and `&`.
-/

import ECSUtil.Conn.Format
import ECSUtil.Lib.Query
import ECSUtil.Sign.Uri

namespace ECSUtil
namespace Request

open Sign

/-- `name=value`, behind a separator. -/
def parameter (separator : Char) (name : String) (value : CString) : CString :=
  separator :: (name.toList ++ '=' :: value)

/-- `?versionId=`; without a pointer there is no version. -/
def versionQuery (pszVersionId : Option CString) : CString :=
  match pszVersionId with
  | some v => parameter '?' "versionId" v
  | none => []

/-- `sHeadPath` of `RenameS3`. -/
def renameS3HeadPath (sOldPathS3 : CString) (pszVersionId : Option CString) : CString :=
  uriEncode sOldPathS3 .stdSAFE ++ versionQuery pszVersionId

/-- `sResource` of `DeleteS3`. -/
def deleteS3Resource (sPath : CString) (pszVersionId : Option CString) : CString :=
  uriEncode sPath .stdSAFE ++ versionQuery pszVersionId

/-- `sSrcPath` of `CopyS3`. -/
def copyS3SrcPath (pszSrcPath : CString) (pszVersionId : Option CString) : CString :=
  uriEncode pszSrcPath .allSAFE ++ versionQuery pszVersionId

/-- `sSource` of `S3MultiPartUpload`. -/
def multiPartSource (pszCopySource : CString) (pszVersionId : Option CString) : CString :=
  uriEncode pszCopySource .stdSAFE ++ versionQuery (pszVersionId.filter (· ≠ []))

/-- `sPath` of `ReadProperties`. -/
def readPropertiesPath (pszPath : CString) (pszVersionId : Option CString) : CString :=
  uriEncode pszPath .stdSAFE ++ versionQuery (pszVersionId.filter (· ≠ []))

/-- A parameter that is left out where its value is empty. -/
def unlessEmpty (name : String) (value sent : CString) : CString :=
  if value ≠ [] then parameter '&' name sent else []

/-- `sResource` of `ReadACL` and `WriteACL`. -/
def aclResource (pszPath sVersion : CString) : CString :=
  uriEncode pszPath .stdSAFE ++ '?' :: ("acl".toList ++ unlessEmpty "versionId" sVersion sVersion)

/-- The resource of `S3MultiPartComplete` and `S3MultiPartAbort`. -/
def uploadResource (sResource sUploadId : CString) : CString :=
  uriEncode sResource .stdSAFE ++ parameter '?' "uploadId" sUploadId

/-- The bucket of a resource, which is not encoded. -/
def bucketOf (sResource : CString) : CString :=
  if '/' ∈ sResource.drop 1 then (sResource.drop 1).takeWhile (· ≠ '/') else []

/-- The path of `S3MultiPartUpload`. -/
def multiPartPath (sResource : CString) : CString :=
  '/' :: bucketOf sResource ++
    uriEncode (if '/' ∈ sResource.drop 1 then (sResource.drop 1).dropWhile (· ≠ '/') else sResource)
      .stdSAFE

/-- `sResource` of `S3MultiPartUpload`. -/
def multiPartResource (sResource : CString) (uPartNum : ℕ) (sUploadId : CString) : CString :=
  multiPartPath sResource ++
    (parameter '?' "partNumber" (fmtNum 0 uPartNum) ++ parameter '&' "uploadId" sUploadId)

/-- `sTempResource` of `S3MultiPartList`. -/
def multiPartListResource (pszBucketName sNextKeyMarker sNextUploadIdMarker : CString) : CString :=
  ('/' :: pszBucketName ++ ['/']) ++ '?' :: ("uploads".toList ++
    (unlessEmpty "key-marker" sNextKeyMarker (uriEncode sNextKeyMarker .allSAFE) ++
      unlessEmpty "upload-id-marker" sNextUploadIdMarker sNextUploadIdMarker))

/-- `S3_METADATA_SEARCH_PARAMS`, with its expression as it is sent. -/
structure SearchParams where
  sBucket : CString
  sExpr : CString
  sAttributes : CString := []
  sSorted : CString := []
  bOlderVersions : Bool := false

/-- The parameters behind the first of `S3SearchMD`. -/
def searchOptions (p : SearchParams) : CString :=
  unlessEmpty "attributes" p.sAttributes (uriEncode p.sAttributes .allSAFE) ++
    (unlessEmpty "sorted" p.sSorted (uriEncode p.sSorted .allSAFE) ++
      if p.bOlderVersions then parameter '&' "include-older-versions" "true".toList else [])

/-- The resource of a page of `S3SearchMD`. -/
def searchResource (p : SearchParams) (sMarker : CString) : CString :=
  ('/' :: uriEncode p.sBucket .stdSAFE ++ ['/']) ++
    (parameter '?' "query" (uriEncode p.sExpr .allSAFE) ++ searchOptions p ++
      unlessEmpty "marker" sMarker sMarker)

/-- The places where a token is put. -/
inductive Place
  | renameS3 (sOldPathS3 : CString)
  | deleteS3 (sPath : CString)
  | copyS3 (pszSrcPath : CString)
  | copyPart (pszCopySource : CString)
  | readProperties (pszPath : CString)
  | readACL (pszPath : CString)
  | writeACL (pszPath : CString)
  | complete (sResource : CString)
  | abort (sResource : CString)
  | uploadPart (sResource : CString) (uPartNum : ℕ)
  | listUploads (pszBucketName sNextKeyMarker : CString)
  | search (p : SearchParams)

namespace Place

/-- The resource with a token. -/
def resource : Place → CString → CString
  | renameS3 sOldPathS3, t => renameS3HeadPath sOldPathS3 (some t)
  | deleteS3 sPath, t => deleteS3Resource sPath (some t)
  | copyS3 pszSrcPath, t => copyS3SrcPath pszSrcPath (some t)
  | copyPart pszCopySource, t => multiPartSource pszCopySource (some t)
  | readProperties pszPath, t => readPropertiesPath pszPath (some t)
  | readACL pszPath, t => aclResource pszPath t
  | writeACL pszPath, t => aclResource pszPath t
  | complete sResource, t => uploadResource sResource t
  | abort sResource, t => uploadResource sResource t
  | uploadPart sResource uPartNum, t => multiPartResource sResource uPartNum t
  | listUploads pszBucketName sNextKeyMarker, t => multiPartListResource pszBucketName sNextKeyMarker t
  | search p, t => searchResource p t

/-- The name of the parameter. -/
def name : Place → String
  | renameS3 _ | deleteS3 _ | copyS3 _ | copyPart _ | readProperties _ | readACL _ | writeACL _ =>
      "versionId"
  | complete _ | abort _ | uploadPart _ _ => "uploadId"
  | listUploads _ _ => "upload-id-marker"
  | search _ => "marker"

/-- The query of the request without the token. -/
def own : Place → CString
  | renameS3 _ | deleteS3 _ | copyS3 _ | copyPart _ | readProperties _ | complete _ | abort _ => []
  | readACL _ | writeACL _ => "acl".toList
  | uploadPart _ uPartNum => "partNumber".toList ++ '=' :: fmtNum 0 uPartNum
  | listUploads _ sNextKeyMarker => "uploads".toList ++
      unlessEmpty "key-marker" sNextKeyMarker (uriEncode sNextKeyMarker .allSAFE)
  | search p => "query".toList ++ '=' :: (uriEncode p.sExpr .allSAFE ++ searchOptions p)

/-- What is in front of the query. -/
def path : Place → CString
  | renameS3 s | deleteS3 s | copyPart s | readProperties s | readACL s | writeACL s | complete s
  | abort s => uriEncode s .stdSAFE
  | copyS3 s => uriEncode s .allSAFE
  | uploadPart s _ => multiPartPath s
  | listUploads pszBucketName _ => '/' :: pszBucketName ++ ['/']
  | search p => '/' :: uriEncode p.sBucket .stdSAFE ++ ['/']

/-- The bucket that is put into the resource as it is. -/
def rawBucket : Place → CString
  | uploadPart sResource _ => bucketOf sResource
  | listUploads pszBucketName _ => pszBucketName
  | _ => []

/-- An empty token is none, at some of the places. -/
def Carries : Place → CString → Prop
  | renameS3 _, _ | deleteS3 _, _ | copyS3 _, _ | complete _, _ | abort _, _ | uploadPart _ _, _ => True
  | _, t => t ≠ []

end Place

/-- A character that ends a path, a query or a parameter. -/
def Delimiter (c : Char) : Prop := c = '?' ∨ c = '#' ∨ c = '&' ∨ c = '='

/-- **No delimiter is left in an encoded text.** None of them is in a set of safe characters, and an
escape is a `%` with two hexadecimal digits. -/
theorem delimiter_notMem_uriEncode {c : Char} (hc : Delimiter c) (s : CString) (type : UriEncodeType) :
    c ∉ uriEncode s type := by
  have hsafe : ∀ n, type.flagArray.getD n false = true →
      n ≠ '?'.toNat ∧ n ≠ '#'.toNat ∧ n ≠ '&'.toNat ∧ n ≠ '='.toNat := by
    have hflags : type.flagArray.getD '?'.toNat false = false ∧
        type.flagArray.getD '#'.toNat false = false ∧ type.flagArray.getD '&'.toNat false = false ∧
        type.flagArray.getD '='.toNat false = false := by
      cases type <;> decide +kernel
    intro n hn
    refine ⟨?_, ?_, ?_, ?_⟩ <;> rintro rfl
    · exact Bool.false_ne_true (hflags.1.symm.trans hn)
    · exact Bool.false_ne_true (hflags.2.1.symm.trans hn)
    · exact Bool.false_ne_true (hflags.2.2.1.symm.trans hn)
    · exact Bool.false_ne_true (hflags.2.2.2.symm.trans hn)
  have hhex : ∀ n < 16, ¬Delimiter (DEC2HEX.getD n '0') := by
    unfold Delimiter
    decide
  unfold uriEncode
  intro h
  obtain ⟨b, -, h⟩ := List.mem_flatMap.1 h
  have hb := b.toNat_lt
  split_ifs at h with hflag
  · rw [List.mem_singleton] at h
    have hne := hsafe _ hflag
    have hnat := congrArg Char.toNat h
    rw [Percent.toNat_ofNat_byte] at hnat
    rcases hc with rfl | rfl | rfl | rfl
    · exact hne.1 hnat.symm
    · exact hne.2.1 hnat.symm
    · exact hne.2.2.1 hnat.symm
    · exact hne.2.2.2 hnat.symm
  · simp only [List.mem_cons, List.not_mem_nil, or_false] at h
    rcases h with rfl | rfl | rfl
    · exact absurd hc (by unfold Delimiter; decide)
    · exact hhex _ (by omega) hc
    · exact hhex _ (by omega) hc

/-- A token behind another parameter is spliced into the resource. -/
theorem splice_own {path own token : CString} {name : String} (h : own ≠ []) :
    path ++ '?' :: (own ++ parameter '&' name token) = Query.splice path own name.toList token := by
  unfold Query.splice parameter
  rw [if_neg h, List.append_assoc]
  rfl

/-- A token that is the first parameter is spliced into the resource. -/
theorem splice_nil {path token : CString} {name : String} :
    path ++ parameter '?' name token = Query.splice path [] name.toList token := by
  unfold Query.splice parameter
  rw [if_pos rfl]
  rfl

/-- A parameter that has a value is sent. -/
theorem unlessEmpty_eq {name : String} {value sent : CString} (h : value ≠ []) :
    unlessEmpty name value sent = parameter '&' name sent := if_pos h

/-- **Every place puts the token behind the rest of its query.** The twelve places differ in the
path, in the parameters in front of the token and in its name, and each appends the token as it is. -/
theorem Place.resource_eq (P : Place) {t : CString} (ht : P.Carries t) :
    P.resource t = Query.splice P.path P.own P.name.toList t := by
  cases P with
  | renameS3 s => exact splice_nil
  | deleteS3 s => exact splice_nil
  | copyS3 s => exact splice_nil
  | complete s => exact splice_nil
  | abort s => exact splice_nil
  | copyPart s =>
      show uriEncode s .stdSAFE ++ versionQuery ((some t).filter _) = _
      rw [Option.filter_some, if_pos (decide_eq_true (show t ≠ [] from ht))]
      exact splice_nil
  | readProperties s =>
      show uriEncode s .stdSAFE ++ versionQuery ((some t).filter _) = _
      rw [Option.filter_some, if_pos (decide_eq_true (show t ≠ [] from ht))]
      exact splice_nil
  | readACL s =>
      show uriEncode s .stdSAFE ++ '?' :: ("acl".toList ++ unlessEmpty "versionId" t t) = _
      rw [unlessEmpty_eq ht]
      exact splice_own (by decide)
  | writeACL s =>
      show uriEncode s .stdSAFE ++ '?' :: ("acl".toList ++ unlessEmpty "versionId" t t) = _
      rw [unlessEmpty_eq ht]
      exact splice_own (by decide)
  | uploadPart s n => exact splice_own (List.append_ne_nil_of_right_ne_nil _ (List.cons_ne_nil _ _))
  | listUploads b k =>
      show _ ++ '?' :: ("uploads".toList ++ (_ ++ unlessEmpty "upload-id-marker" t t)) = _
      rw [unlessEmpty_eq ht, ← List.append_assoc "uploads".toList]
      exact splice_own (List.append_ne_nil_of_left_ne_nil (by decide) _)
  | search p =>
      have hquery : parameter '?' "query" (uriEncode p.sExpr .allSAFE) ++ searchOptions p =
          '?' :: ("query".toList ++ '=' :: (uriEncode p.sExpr .allSAFE ++ searchOptions p)) := by
        unfold parameter
        rw [List.cons_append, List.append_assoc, List.cons_append]
      show _ ++ (parameter '?' "query" _ ++ searchOptions p ++ unlessEmpty "marker" t t) = _
      rw [unlessEmpty_eq ht, hquery, List.cons_append]
      exact splice_own (List.append_ne_nil_of_right_ne_nil _ (List.cons_ne_nil _ _))

/-- The names have nothing to split or to decode. -/
theorem Place.name_plain (P : Place) :
    ('=' ∉ P.name.toList ∧ '#' ∉ P.name.toList ∧ '&' ∉ P.name.toList) ∧
      Query.unescape P.name.toList = CodePage.utf8 P.name.toList := by
  have hall : ∀ n ∈ ["versionId", "uploadId", "upload-id-marker", "marker"],
      ('=' ∉ n.toList ∧ '#' ∉ n.toList ∧ '&' ∉ n.toList) ∧
        Query.unescape n.toList = CodePage.utf8 n.toList := by decide
  refine hall _ ?_
  cases P <;> simp only [name, List.mem_cons, true_or, or_true]

/-- Nothing of a parameter begins a fragment. -/
theorem fragment_notMem_unlessEmpty {name : String} {value sent : CString} (hname : '#' ∉ name.toList)
    (hsent : '#' ∉ sent) : '#' ∉ unlessEmpty name value sent := by
  unfold unlessEmpty parameter
  split_ifs
  · rw [List.mem_cons, List.mem_append, List.mem_cons]
    rintro (h | h | h | h)
    · exact absurd h (by decide)
    · exact hname h
    · exact absurd h (by decide)
    · exact hsent h
  · exact List.not_mem_nil

/-- The rest of the query has no fragment. -/
theorem Place.own_plain (P : Place) : '#' ∉ P.own := by
  have hencoded := fun s type => delimiter_notMem_uriEncode (c := '#') (.inr (.inl rfl)) s type
  have hdigits : ∀ n, '#' ∉ fmtNum 0 n := fun n h =>
    absurd (isDigit_of_mem_fmtNum h) (by decide)
  have hvalue : ∀ {name : String} {value : CString}, '#' ∉ name.toList → '#' ∉ value →
      '#' ∉ name.toList ++ '=' :: value := by
    intro name value hname hvalue h
    rcases List.mem_append.1 h with h | h
    · exact hname h
    · rcases List.mem_cons.1 h with h | h
      · exact absurd h (by decide)
      · exact hvalue h
  have happend : ∀ {s t : CString}, '#' ∉ s → '#' ∉ t → '#' ∉ s ++ t := fun hs ht h =>
    (List.mem_append.1 h).elim hs ht
  cases P with
  | readACL s => exact fun h => absurd h (by decide : '#' ∉ "acl".toList)
  | writeACL s => exact fun h => absurd h (by decide : '#' ∉ "acl".toList)
  | uploadPart s n => exact hvalue (by decide) (hdigits n)
  | listUploads b k =>
      exact happend (by decide) (fragment_notMem_unlessEmpty (by decide) (hencoded k _))
  | search p =>
      refine hvalue (by decide) (happend (hencoded _ _) (happend ?_ (happend ?_ ?_)))
      · exact fragment_notMem_unlessEmpty (by decide) (hencoded _ _)
      · exact fragment_notMem_unlessEmpty (by decide) (hencoded _ _)
      · split_ifs
        · decide
        · exact List.not_mem_nil
  | _ => exact List.not_mem_nil

/-- The query starts behind the path. -/
theorem Place.path_plain (P : Place) {c : Char} (hc : c = '?' ∨ c = '#') (hbucket : c ∉ P.rawBucket) :
    c ∉ P.path := by
  have hslash : c ≠ '/' := by rcases hc with rfl | rfl <;> decide
  have hencoded := fun s type => delimiter_notMem_uriEncode (c := c) (hc.imp_right .inl) s type
  have happend : ∀ {s t : CString}, c ∉ s → c ∉ t → c ∉ '/' :: s ++ t := fun hs ht h =>
    (List.mem_append.1 h).elim (fun h => (List.mem_cons.1 h).elim hslash hs) ht
  cases P with
  | uploadPart s n => exact happend hbucket (hencoded _ _)
  | listUploads b k => exact happend hbucket fun h => hslash (List.mem_singleton.1 h)
  | search p => exact happend (hencoded _ _) fun h => hslash (List.mem_singleton.1 h)
  | _ => exact hencoded _ _

/-- **When a token comes back**: at every place a server that splits and decodes the query reads the token
as the value of its parameter, with the parameters that the request has without it and no other, if and
only if the token has no `&`, no `#` and no `%` in front of two hexadecimal digits. -/
theorem token_back (P : Place) (hbucket : '?' ∉ P.rawBucket ∧ '#' ∉ P.rawBucket) (t : CString)
    (ht : P.Carries t) :
    Query.serverParams (P.resource t) = (Query.params P.own).map Query.Param.read ++
        [(CodePage.utf8 P.name.toList, some (CodePage.utf8 t))] ↔
      '&' ∉ t ∧ '#' ∉ t ∧ Query.NoEscape t := by
  obtain ⟨hname, hutf8⟩ := P.name_plain
  rw [P.resource_eq ht, ← hutf8]
  exact Query.serverParams_splice
    ⟨P.path_plain (.inl rfl) hbucket.1, P.path_plain (.inr rfl) hbucket.2⟩ P.own_plain hname t

/-- An id of a version with a `=`, a `+` and a slash in it comes back. None of these characters
separates parameters behind the first `=`, and none of them begins an escape. -/
theorem token_back_plain :
    Query.serverParams ((Place.readACL "/b/o".toList).resource "3/L4=+".toList) =
      [(CodePage.utf8 "acl".toList, none),
        (CodePage.utf8 "versionId".toList, some (CodePage.utf8 "3/L4=+".toList))] :=
  (token_back (.readACL "/b/o".toList) ⟨by decide, by decide⟩ "3/L4=+".toList
    (show "3/L4=+".toList ≠ [] by decide)).2
    ⟨by decide, by decide, (Query.unescape_eq_utf8_iff _).1 (by decide)⟩

/-- **An id with an `&` is cut**, and what is behind it is a parameter of its own. The server reads
a version id of one character, for which it deletes another version or none. -/
theorem token_cut :
    Query.serverParams ((Place.deleteS3 "/b/o".toList).resource "3&4".toList) =
        [(CodePage.utf8 "versionId".toList, some (CodePage.utf8 "3".toList)),
          (CodePage.utf8 "4".toList, none)] ∧
      Query.serverParams ((Place.deleteS3 "/b/o".toList).resource "3&4".toList) ≠
        [(CodePage.utf8 "versionId".toList, some (CodePage.utf8 "3&4".toList))] := by
  decide +kernel

end Request
end ECSUtil

/-
# Listing a directory

`DirListingInternal` and `DirListing` (`ECSUtil/ECSConnection.cpp`): pages are asked for until a
reply is not truncated.  A request is its resource, a reply is taken as the function looks at it;
`send` is what `SendRequest` returns for the resources one after the other.

The parameters of a resource are put together by `AppendQuery`.  The prefix and the markers are
encoded, the delimiter is not, so a delimiter that separates parameters does not reach a server.

The loop need not end, so it is given a number of turns, and has no result where they are not
enough.  Its error paths are those of `CS3ErrorInfo` that are thrown in it: nothing is sorted there,
and the error is what is returned.

`truncated_reported` is about a reply that is cut off in the middle: only where a call of the reader
other than `Read` fails is it an error.
-/

import Mathlib.Data.List.Sort
import ECSUtil.Conn.Format
import ECSUtil.Lib.Query
import ECSUtil.Listing.Callback
import ECSUtil.Sign.Uri
import ECSUtil.Xml.Errors

namespace ECSUtil
namespace Listing

open Sign Xml

/-- The markers of the next page. -/
structure Markers where
  sS3NextMarker : CString := []
  sS3NextKeyMarker : CString := []
  sS3NextVersionIdMarker : CString := []
  deriving DecidableEq, Repr

/-- `LISTING_NEXT_MARKER_CONTEXT`. -/
structure ListingNextMarkerContext where
  bTruncated : Bool := false
  dwMaxNum : ℕ := 0
  markers : Markers := {}
  deriving DecidableEq, Repr

/-- The parameters of `DirListingInternal`, and `dwS3BucketListingMax`; no delimiter is `NUL`. -/
structure Params where
  pszPathIn : CString
  pszSearchName : Option CString := none
  bS3Versions : Bool := false
  bSingle : Bool := false
  pszObjName : CString := []
  cDelimiter : Option Char := some '/'
  dwS3BucketListingMax : ℕ := 1000

/-- The locals of `DirListingInternal`; `replies` are those to the requests so far. -/
structure State where
  context : XmlDirListingContext
  markers : Markers := {}
  next : Option ListingNextMarkerContext := none
  replies : List Reply := []

/-- How a turn of the loop ends. -/
inductive Turn
  | again (s : State)
  | done (Error : S3Error) (s : State)
  | thrown (Error : S3Error) (s : State)

/-- The bucket, and the rest of the path behind a slash. -/
def splitPath : CString → CString × Option CString
  | [] => ([], none)
  | c :: path =>
      if '/' ∈ path then
        (c :: path.takeWhile (· ≠ '/'), some ((path.dropWhile (· ≠ '/')).drop 1))
      else (c :: path, none)

/-- The prefix of a listing. -/
def listPrefix (p : Params) : CString :=
  match (splitPath p.pszPathIn).2 with
  | some rest => rest ++ p.pszObjName
  | none => []

/-- `max-keys`. -/
def maxKeys (p : Params) (next : Option ListingNextMarkerContext) : ℕ :=
  match next with
  | some n => if n.dwMaxNum ≠ 0 then n.dwMaxNum else dwMaxKeys
  | none => dwMaxKeys
where
  dwMaxKeys : ℕ :=
    if p.bSingle then 10
    else if 10 ≤ p.dwS3BucketListingMax ∧ p.dwS3BucketListingMax < 1000 then p.dwS3BucketListingMax
    else 0

/-- A parameter with a value. -/
def param (name : String) (value : CString) : Query.Param := ⟨name.toList, some value⟩

/-- A parameter that is left out where a text is empty. -/
def paramUnless (name : String) (s value : CString) : List Query.Param :=
  if s = [] then [] else [param name value]

/-- The parameters of a turn, in the order that they are appended. -/
def listParams (p : Params) (next : Option ListingNextMarkerContext) (markers : Markers) :
    List Query.Param :=
  let sPrefix := uriEncode (listPrefix p) .allSAFE
  (if p.bS3Versions then [⟨"versions".toList, none⟩] else []) ++
    -- The delimiter is the only text here that is not encoded.
    p.cDelimiter.toList.map (fun c => param "delimiter" [c]) ++
    (if maxKeys p next ≠ 0 then [param "max-keys" (fmtNum 0 (maxKeys p next))] else []) ++
    paramUnless "prefix" sPrefix sPrefix ++
    paramUnless "marker" markers.sS3NextMarker (uriEncode markers.sS3NextMarker .allSAFE) ++
    paramUnless "key-marker" markers.sS3NextKeyMarker
      (uriEncode markers.sS3NextKeyMarker .allSAFE) ++
    paramUnless "version-id-marker" markers.sS3NextVersionIdMarker
      (uriEncode markers.sS3NextVersionIdMarker .allSAFE)

/-- `AppendQuery`: the resource, and whether it has a query. -/
def appendQuery (sResource : CString × Bool) (sQuery : CString) : CString × Bool :=
  (sResource.1 ++ (if sResource.2 then '&' else '?') :: sQuery, true)

/-- `sResource`, the resource of a turn. -/
def listResource (p : Params) (next : Option ListingNextMarkerContext) (markers : Markers) :
    CString :=
  (((listParams p next markers).map Query.Param.write).foldl appendQuery
    ((splitPath p.pszPathIn).1 ++ ['/'], false)).1

/-- `procXmlDirListingCB`. -/
def procXmlDirListingCB (p : Params) : Callback XmlDirListingContext :=
  if p.bS3Versions then xmlDirListingS3VersionsCB else xmlDirListingS3CB

/-- What follows on a scan that succeeded: the markers of the next page are taken. -/
def nextPage (p : Params) (Error : S3Error) (s : State) : Turn :=
  let c :=
    if s.context.bIsTruncated && !p.bS3Versions && s.context.sS3NextMarker = [] then
      { s.context with sS3NextMarker := s.context.sLastFullObjName }
    else s.context
  let markers : Markers :=
    if c.bIsTruncated then ⟨c.sS3NextMarker, c.sS3NextKeyMarker, c.sS3NextVersionIdMarker⟩ else {}
  let s' : State :=
    { s with
      context := c
      markers := markers
      next := s.next.map fun n => { n with bTruncated := c.bIsTruncated, markers := markers } }
  if !c.bGotRootElement then
    .thrown { Error with dwHttpError := HTTP_STATUS_SERVER_ERROR, s3Error := .malformedXML } s'
  else if s'.next.isSome || markers = {} || p.bSingle then .done Error s'
  else .again s'

/-- The reply to a request that succeeded is parsed. -/
def scanReply (p : Params) (reply : Reply) (s : State) : Turn :=
  let r := scanXmlStream (procXmlDirListingCB p) reply.reading
    { s.context with bGotRootElement := false }
  let s := { s with context := r.2, markers := {} }
  match Test.failed.leaves r.1 with
  | some Error => .thrown Error s
  | none =>
      if r.2.sPrefix ≠ [] && !r.2.bIsTruncated && r.2.dirList = [] && !r.2.bGotKey then
        .thrown { dwHttpError := HTTP_STATUS_NOT_FOUND, s3Error := .noSuchKey } s
      else nextPage p reply.error s

/-- One turn of the loop. -/
def dirListingTurn (p : Params) (send : CString → Reply) (s : State) : Turn :=
  let s := { s with
    markers := (s.next.map ListingNextMarkerContext.markers).getD s.markers
    next := s.next.map fun n => { n with bTruncated := false } }
  if s.context.sPathIn = [] then .thrown (.ofWin32 ERROR_INVALID_NAME) s
  else
    let reply := send (listResource p s.next s.markers)
    let s := { s with replies := s.replies ++ [reply] }
    if reply.error.ifError then .thrown reply.error s
    else if reply.dwSize = 0 then
      .thrown { reply.error with dwHttpError := HTTP_STATUS_SERVER_ERROR, s3Error := .unknown } s
    else if !reply.bXml then
      .thrown { reply.error with dwHttpError := HTTP_STATUS_SERVER_ERROR, s3Error := .malformedXML } s
    else scanReply p reply s

/-- What `DirListingInternal` leaves: its error, the list, what it found, the caller's markers, and the
replies it saw. -/
structure Result where
  error : S3Error
  dirList : List DirEntry
  sRetSearchName : CString
  next : Option ListingNextMarkerContext
  replies : List Reply

/-- `DirList.sort()`, which is stable, by `DIR_ENTRY::operator <`. -/
def sortEntries (dirList : List DirEntry) : List DirEntry :=
  dirList.insertionSort fun a b => ¬b.sName < a.sName

/-- The loop, from the `i`-th request on. -/
def dirListingLoop (p : Params) (send : ℕ → CString → Reply) :
    ℕ → ℕ → State → Option Result
  | 0, _, _ => none
  | fuel + 1, i, s =>
      match dirListingTurn p (send i) s with
      | .again s' => dirListingLoop p send fuel (i + 1) s'
      | .done Error s' =>
          some ⟨Error, sortEntries s'.context.dirList, s'.context.sRetSearchName, s'.next,
            s'.replies⟩
      | .thrown Error s' =>
          some ⟨Error.setError, s'.context.dirList, s'.context.sRetSearchName, s'.next, s'.replies⟩

/-- The locals at the start. -/
def initState (p : Params) (next : Option ListingNextMarkerContext) : State where
  context :=
    { sPathIn := p.pszPathIn
      sObjName := p.pszObjName
      pszSearchName := p.pszSearchName }
  next := next

/-- `DirListingInternal`. -/
def dirListingInternal (p : Params) (next : Option ListingNextMarkerContext)
    (send : ℕ → CString → Reply) (fuel : ℕ) : Option Result :=
  dirListingLoop p send fuel 0 (initState p next)

/-- `DirListing`, with its defaults. -/
def dirListing (pszPath : CString) (send : ℕ → CString → Reply) (fuel : ℕ) : Option Result :=
  dirListingInternal { pszPathIn := pszPath } none send fuel

/-- No error of a callback gets out of a listing. -/
theorem procXmlDirListingCB_harmless (p : Params) : (procXmlDirListingCB p).Harmless := by
  unfold procXmlDirListingCB
  split_ifs
  · exact listVersionsResult.harmless
  · exact listBucketResult.harmless

section

variable {p : Params} {s : State}

/-- A turn that does not throw leaves replies that all of the calls to the reader succeeded on, and no
error. -/
def Turn.Scanned : Turn → Prop
  | .again s => ∀ reply ∈ s.replies, reply.reading.fails = false
  | .done Error s => Error.ifError = false ∧ ∀ reply ∈ s.replies, reply.reading.fails = false
  | .thrown Error _ => Error.ifError = true

/-- The next page keeps that every reply was read without an error. -/
theorem nextPage_scanned {Error : S3Error} (he : Error.ifError = false)
    (hs : ∀ reply ∈ s.replies, reply.reading.fails = false) : (nextPage p Error s).Scanned := by
  unfold nextPage
  dsimp only
  split_ifs
  all_goals first | exact ⟨he, hs⟩ | exact hs | simp [Turn.Scanned, S3Error.ifError]

/-- A reply that is read without an error keeps that every reply was. -/
theorem scanReply_scanned {reply : Reply} (he : reply.error.ifError = false)
    (hs : ∀ r ∈ s.replies, r = reply ∨ r.reading.fails = false) :
    (scanReply p reply s).Scanned := by
  obtain ⟨hfail, hzero⟩ := (procXmlDirListingCB_harmless p).scanXmlStream
    (c := { s.context with bGotRootElement := false }) reply.reading
  unfold scanReply
  cases hf : reply.reading.fails with
  | true =>
      have hhr := hfail.trans hf
      simp only [Test.failed.leaves_of_FAILED hhr]
      exact ifError_of_FAILED hhr
  | false =>
      simp only [hzero hf, Test.leaves_zero]
      split_ifs
      · simp [Turn.Scanned, S3Error.ifError]
      · exact nextPage_scanned he fun r hr => (hs r hr).elim (fun h => h ▸ hf) id

/-- A turn of the loop keeps that every reply was read without an error. -/
theorem dirListingTurn_scanned (send : CString → Reply)
    (hs : ∀ reply ∈ s.replies, reply.reading.fails = false) :
    (dirListingTurn p send s).Scanned := by
  unfold dirListingTurn
  dsimp only
  split_ifs with h₁ h₂ h₃ h₄
  · simp [Turn.Scanned, ERROR_INVALID_NAME, ERROR_SUCCESS]
  · exact h₂
  · simp [Turn.Scanned, S3Error.ifError]
  · simp [Turn.Scanned, S3Error.ifError]
  · refine scanReply_scanned (Bool.eq_false_iff.2 h₂) fun r hr => ?_
    rcases List.mem_append.1 hr with hr | hr
    · exact .inr (hs r hr)
    · exact .inl (List.mem_singleton.1 hr)

/-- The replies of a listing that returns no error were all scanned. -/
theorem dirListingLoop_scanned {send : ℕ → CString → Reply} {fuel i : ℕ} {r : Result}
    (hs : ∀ reply ∈ s.replies, reply.reading.fails = false)
    (hr : dirListingLoop p send fuel i s = some r) (he : r.error.ifError = false) :
    ∀ reply ∈ r.replies, reply.reading.fails = false := by
  induction fuel generalizing i s with
  | zero => exact absurd hr (by simp [dirListingLoop])
  | succ fuel ih =>
      have hturn := dirListingTurn_scanned (p := p) (send i) hs
      unfold dirListingLoop at hr
      split at hr <;> rename_i heq <;> rw [heq] at hturn
      · exact ih hturn hr
      · obtain rfl := Option.some.inj hr
        exact hturn.2
      · obtain rfl := Option.some.inj hr
        exact absurd (he.symm.trans ((S3Error.ifError_setError _).trans hturn)) (by decide)

/-- **A truncated document is never reported as success** by a scan whose callback returns no error, or
by a listing, if and only if it makes a call other than `Read` fail: a scan succeeds only at the end of
a well-formed document, and a listing that succeeds was built of whole replies. -/
theorem truncated_reported {σ : Type} {cb : Callback σ} (hcb : cb.Harmless) :
    (∀ (rd : Reading) (c : σ), (FAILED (scanXmlStream cb rd c).1 = false → rd.last = S_FALSE) ↔
        rd.last = S_FALSE ∨ rd.fails = true) ∧
      ∀ next send fuel r, dirListingInternal p next send fuel = some r →
        r.error.ifError = false →
          ((∀ reply ∈ r.replies, reply.reading.last = S_FALSE) ↔
            ∀ reply ∈ r.replies, reply.reading.last = S_FALSE ∨ reply.reading.fails = true) := by
  refine ⟨fun rd c => scanXmlStream_reaches_end hcb rd, fun next send fuel r hr he => ?_⟩
  have hs := dirListingLoop_scanned (fun reply hm => absurd hm List.not_mem_nil) hr he
  refine ⟨fun h reply hm => .inl (h reply hm), fun h reply hm => ?_⟩
  exact (h reply hm).resolve_right fun hf => absurd (hf.symm.trans (hs reply hm)) (by decide)

/-- The error of the reader at the end of input that is not the end of the document. -/
def WC_E_SYNTAX : DWORD := 0xC00CEE2D

/-- A listing of two keys that is cut off after the first. -/
def cutOff : Reading where
  nodes :=
    [.other, element "ListBucketResult".toList] ++ leaf "Prefix".toList "a/".toList ++
      leaf "IsTruncated".toList "false".toList ++ [element "Contents".toList] ++
      leaf "Key".toList "a/x".toList ++ [.endElement, element "Contents".toList]
  last := WC_E_SYNTAX
  last_ne := by decide

/-- **A partial listing that looks complete**: the scan of a document that is cut off succeeds, and the
listing returns its first entry without an error. -/
theorem truncated_unreported :
    (scanXmlStream xmlDirListingS3CB cutOff {}).1 = 0 ∧ cutOff.last ≠ S_FALSE ∧
      (dirListing "/b/a/".toList (fun _ _ => { reading := cutOff }) 1).map
        (fun r => (r.error.ifError, r.dirList.map DirEntry.sName)) =
          some (false, ["x".toList]) := by
  decide +kernel

/-- A listing that is whole. -/
def whole : Reading where
  nodes := cutOff.nodes ++ [.endElement, .endElement]
  last := S_FALSE
  last_ne := S_FALSE_ne_S_OK

/-- The listing of a whole document returns no error, and its replies are whole. It has both keys,
and the reader comes to the end of the document. -/
theorem truncated_reported_whole :
    ∃ r, dirListing "/b/a/".toList (fun _ _ => { reading := whole }) 1 = some r ∧
      r.error.ifError = false ∧ ((∀ reply ∈ r.replies, reply.reading.last = S_FALSE) ↔
        ∀ reply ∈ r.replies, reply.reading.last = S_FALSE ∨ reply.reading.fails = true) := by
  have h : ((dirListing "/b/a/".toList (fun _ _ => { reading := whole }) 1).map
      fun r => r.error.ifError) = some false := by
    decide +kernel
  obtain ⟨r, hr, he⟩ := Option.map_eq_some_iff.1 h
  exact ⟨r, hr, he, (truncated_reported listBucketResult.harmless).2 none _ 1 r hr he⟩

end

end Listing
end ECSUtil

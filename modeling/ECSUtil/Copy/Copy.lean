/-
# Copying and renaming an object

`CopyS3`, `RenameS3`, `S3MultiPartInitiate`, the copy of a part by `S3MultiPartUpload`,
`S3MultiPartComplete` and `WriteMetadataEntry` (`ECSUtil/ECSConnection.cpp`).  Paths are given as
they are sent; what the requests return is a parameter (`Replies`), and what is sent is kept in
order.

An object below 5 GB is copied by one request (`copyHeaders`), a larger one part by part
(`initiateHeaders`).

A copy by parts is cut into its stages, so that a proof can take one of them at a time: the request
that initiates it (`s3MultiPartInitiate`), the parts (`copyParts`) and the end, which completes or
aborts it (`finishCopy`).  The equations below say which stages there are for which replies.
-/

import Mathlib.Algebra.Group.Nat.Defs
import ECSUtil.Body.Acl
import ECSUtil.Copy.Metadata
import ECSUtil.Xml.ErrorBody

namespace ECSUtil
namespace Copy

open Xml

def ERROR_INVALID_FUNCTION : DWORD := 1

def GIGABYTE : ℕ := 0x40000000

/-- The size of a part, and the size from which on an object is copied in parts. -/
def MULTIPART_SIZE : ℕ := GIGABYTE

@[inherit_doc MULTIPART_SIZE]
def singleCopyLimit : ℕ := 5 * GIGABYTE

/-- `S3_UPLOAD_PART_INFO`. -/
structure S3UploadPartInfo where
  sBucket : CString := []
  sKey : CString := []
  sUploadId : CString := []
  sResource : CString := []
  deriving DecidableEq, Repr

/-- What is sent. -/
inductive Request
  | getAcl (path versionId : CString)
  | head (path versionId : CString)
  | copy (path : CString) (headers : Headers)
  | initiate (path : CString) (headers : Headers)
  | copyPart (info : S3UploadPartInfo) (uPartNum ullStartRange ullPartSize : ℕ)
  | complete (info : S3UploadPartInfo) (parts : List (ℕ × CString))
  | abort (info : S3UploadPartInfo)
  | putAcl (path : CString) (acls : List Body.AclEntry)
  | delete (path : CString)

/-- What the requests return: an error, with the lines of the response or the body where they are
looked at. -/
structure Replies where
  getAcl : Reply
  head : S3Error × List CString
  copy : Reply
  initiate : Reply
  copyPart : ℕ → Reply
  complete : Reply
  delete : S3Error

/-- The texts of the response to `initiate` by their paths. -/
def multiPartTexts : List (String × (S3UploadPartInfo → CString → S3UploadPartInfo)) :=
  [("//InitiateMultipartUploadResult/Bucket", fun i value => { i with sBucket := value }),
    ("//InitiateMultipartUploadResult/Key", fun i value => { i with sKey := value }),
    ("//InitiateMultipartUploadResult/UploadId", fun i value => { i with sUploadId := value })]

/-- `XmlMultiPartCB`. -/
def xmlMultiPartCB : Callback S3UploadPartInfo := fun sXmlPath e i =>
  match e with
  | .text value =>
      match multiPartTexts.find? fun t => compareNoCase sXmlPath t.1.toList with
      | some t => (0, t.2 i value)
      | none => (0, i)
  | _ => (0, i)

/-- `XmlMultipartCopyCB`, for the ETag. -/
def xmlMultipartCopyCB : Callback CString := fun sXmlPath e sETag =>
  match e with
  | .text value =>
      if compareNoCase sXmlPath "//CopyPartResult/ETag".toList ∧ value ≠ [] then (0, value)
      else (0, sETag)
  | _ => (0, sETag)

/-- The headers of the one request that copies an object. -/
def copyHeaders (t : Stamp) (sSrcPath : CString) (bCopyMD : Bool) (MDList : List Header) : Headers :=
  sendHeaders t
    (addHeaders (MDList.filter fun h => h.sContents ≠ [] && startsWithPrefix h.sHeader)
      (addHeaders [⟨"x-amz-copy-source".toList, sSrcPath⟩,
        ⟨"x-amz-metadata-directive".toList, (if bCopyMD then "COPY" else "REPLACE").toList⟩]
        (initHeader t)))

/-- The headers of `S3MultiPartInitiate`. -/
def initiateHeaders (t : Stamp) (MDList : List Header) : Headers :=
  sendHeaders t
    (addHeaders [⟨"content-type".toList, "application/octet-stream".toList⟩]
      (addHeaders MDList (initHeader t)))

/-- `S3MultiPartInitiate`, for a path that is not empty. -/
def s3MultiPartInitiate (reply : Reply) (path : CString) : S3Error × S3UploadPartInfo :=
  if reply.error.ifError then (reply.error, { sResource := path })
  else
    let r := scanXmlStream xmlMultiPartCB reply.reading { sResource := path }
    if FAILED r.1 then (.ofWin32 r.1, r.2) else ({}, r.2)

/-- `S3MultiPartUpload`, where it copies: the ETag. -/
def s3MultiPartUpload (reply : Reply) : Except S3Error CString :=
  if reply.error.ifError then .error reply.error
  else
    let r := scanXmlStream xmlMultipartCopyCB reply.reading []
    if FAILED r.1 then .error (.ofWin32 r.1)
    else if r.2 = [] then .error (.ofWin32 ERROR_INVALID_DATA)
    else .ok r.2

/-- The `Error` document that a body is, if it is one. -/
def errorBody (reply : Reply) : ErrorBody :=
  if reply.dwSize = 0 then { error := reply.error }
  else (scanXmlStream xmlS3ErrorCB reply.reading { error := reply.error }).2

/-- `S3MultiPartComplete`.  Even where no error was returned, it may still have failed. -/
def s3MultiPartComplete (reply : Reply) : S3Error :=
  if reply.error.ifError then reply.error
  else
    let body := errorBody reply
    if body.sS3Code ≠ [] then { body.error with dwHttpError := 400 } else body.error

/-- The parts of an object: their numbers, which are a `UINT`, their offsets and sizes. -/
def copyRanges (ullObjSize : ℕ) : List (ℕ × ℕ × ℕ) :=
  (List.range ((ullObjSize + MULTIPART_SIZE - 1) / MULTIPART_SIZE)).map fun i =>
    ((i + 1) % 0x100000000, i * MULTIPART_SIZE,
      min (ullObjSize - i * MULTIPART_SIZE) MULTIPART_SIZE)

/-- Copy all parts: what is sent, and the ETags or the error. -/
def copyParts (replies : Replies) (info : S3UploadPartInfo) :
    List (ℕ × ℕ × ℕ) → List Request × Except S3Error (List (ℕ × CString))
  | [] => ([], .ok [])
  | p :: rest =>
      let request := Request.copyPart info p.1 p.2.1 p.2.2
      match s3MultiPartUpload (replies.copyPart p.1) with
      | .error Error => ([request], .error Error)
      | .ok sETag =>
          let r := copyParts replies info rest
          (request :: r.1, r.2.map fun parts => (p.1, sETag) :: parts)

/-- Complete the upload when all parts are copied, and abort it when it failed. -/
def finishCopy (replies : Replies) (info : S3UploadPartInfo) :
    List Request × Except S3Error (List (ℕ × CString)) → S3Error × List Request
  | (sent, .error Error) => (Error, sent ++ [.abort info])
  | (sent, .ok parts) =>
      let Error := s3MultiPartComplete replies.complete
      (Error, sent ++ .complete info parts :: if Error.ifError then [.abort info] else [])

/-- `CopyS3`, where it does a multipart copy. -/
def copyMultipart (replies : Replies) (t : Stamp) (sTargetPath : CString) (ullObjSize : ℕ)
    (MDList : List Header) : S3Error × List Request :=
  if sTargetPath = [] then (.ofWin32 ERROR_INVALID_NAME, [])
  else
    let initiate := Request.initiate sTargetPath (initiateHeaders t MDList)
    let r := s3MultiPartInitiate replies.initiate sTargetPath
    if r.1.ifError then (r.1, [initiate])
    else
      let r := finishCopy replies r.2 (copyParts replies r.2 (copyRanges ullObjSize))
      (r.1, initiate :: r.2)

/-- `CopyS3`. -/
def copyS3 (replies : Replies) (t : Stamp) (sSrcPath sTargetPath : CString) (bCopyMD : Bool)
    (ullObjSize : ℕ) (MDList : List Header) : S3Error × List Request :=
  if ullObjSize < singleCopyLimit then
    (replies.copy.error, [.copy sTargetPath (copyHeaders t sSrcPath bCopyMD MDList)])
  else copyMultipart replies t sTargetPath ullObjSize MDList

section

variable (replies : Replies) (t : Stamp) (sSrcPath sTargetPath : CString) (bCopyMD : Bool)
  {ullObjSize : ℕ} (MDList : List Header)

/-- Below the limit a copy is one request, and its error is that of the copy. -/
theorem copyS3_of_lt (h : ullObjSize < singleCopyLimit) :
    copyS3 replies t sSrcPath sTargetPath bCopyMD ullObjSize MDList =
      (replies.copy.error, [.copy sTargetPath (copyHeaders t sSrcPath bCopyMD MDList)]) :=
  if_pos h

/-- A copy by parts has to have a target. -/
theorem copyMultipart_nil : copyMultipart replies t [] ullObjSize MDList =
    (.ofWin32 ERROR_INVALID_NAME, []) :=
  if_pos rfl

/-- Where the upload cannot be initiated, nothing else is sent. -/
theorem copyMultipart_of_ifError {sTargetPath : CString} (htarget : sTargetPath ≠ [])
    (h : (s3MultiPartInitiate replies.initiate sTargetPath).1.ifError = true) :
    copyMultipart replies t sTargetPath ullObjSize MDList =
      ((s3MultiPartInitiate replies.initiate sTargetPath).1,
        [.initiate sTargetPath (initiateHeaders t MDList)]) :=
  (if_neg htarget).trans (if_pos h)

/-- Where it is initiated, the parts follow, and the end. -/
theorem copyMultipart_of_not_ifError {sTargetPath : CString} (htarget : sTargetPath ≠ [])
    (h : ¬(s3MultiPartInitiate replies.initiate sTargetPath).1.ifError = true) :
    copyMultipart replies t sTargetPath ullObjSize MDList =
      ((finishCopy replies (s3MultiPartInitiate replies.initiate sTargetPath).2
          (copyParts replies (s3MultiPartInitiate replies.initiate sTargetPath).2
            (copyRanges ullObjSize))).1,
        .initiate sTargetPath (initiateHeaders t MDList) ::
          (finishCopy replies (s3MultiPartInitiate replies.initiate sTargetPath).2
            (copyParts replies (s3MultiPartInitiate replies.initiate sTargetPath).2
              (copyRanges ullObjSize))).2) :=
  (if_neg htarget).trans (if_neg h)

/-- From the limit on a copy goes by parts. -/
theorem copyS3_of_not_lt (h : ¬ullObjSize < singleCopyLimit) :
    copyS3 replies t sSrcPath sTargetPath bCopyMD ullObjSize MDList =
      copyMultipart replies t sTargetPath ullObjSize MDList :=
  if_neg h

end

/-- `_tcstoui64`, with base 10. -/
def tcstoui64 (s : CString) : ℕ :=
  match scanNumber none s with
  | some (n, _) =>
      if 2 ^ 64 ≤ n.natAbs then 2 ^ 64 - 1
      else if n < 0 then 2 ^ 64 - n.natAbs
      else n.natAbs
  | none => 0

/-- `WriteMetadataEntry`. -/
def writeMetadataEntry (MDList : List Header) (h : Header) : List Header :=
  MDList.filter (fun h' => !compareNoCase h.sHeader h'.sHeader) ++ [h]

/-- What `RenameS3` makes of the headers of the source: its size, and the list of metadata. -/
def readSource (Req : List HeaderReq) (MDList : List Header) : ℕ × List Header :=
  Req.foldl
    (fun s r =>
      if r.ContentList = [] then s
      else
        (if compareNoCase r.sHeader "Content-Length".toList then tcstoui64 r.front else s.1,
          if s.2.any fun h => compareNoCase r.sHeader h.sHeader then s.2
          else writeMetadataEntry s.2 r.toHeader))
    (0, MDList)

/-- What `RenameS3` asks the server for before it copies. -/
def askSource (sOldPath versionId : CString) : List Request :=
  [.getAcl sOldPath versionId, .head sOldPath versionId]

/-- `RenameS3`, after the copy: the ACL is written, where it was read, and the source deleted. -/
def finishRename (replies : Replies) (sOldPath sNewPath versionId : CString) (bCopy : Bool)
    (copied : S3Error × List Request) : S3Error × List Request :=
  let acl := Body.readACL replies.getAcl []
  let asked := askSource sOldPath versionId
  if copied.1.ifError then (copied.1, asked ++ copied.2)
  else
    let sent := asked ++ copied.2 ++ if acl.1.ifError then [] else [.putAcl sNewPath acl.2]
    if bCopy then (copied.1, sent) else (replies.delete, sent ++ [.delete sOldPath])

/-- `RenameS3`. -/
def renameS3 (replies : Replies) (t : Stamp) (sOldPath sNewPath versionId : CString) (bCopy : Bool)
    (pMDList : List Header) (pDeleteTagParam : List CString) : S3Error × List Request :=
  if sOldPath = [] ∨ sNewPath = [] then (.ofWin32 ERROR_INVALID_NAME, [])
  else if sOldPath.getLast? = some '/' then (.ofWin32 ERROR_INVALID_FUNCTION, [])
  else if replies.head.1.ifError then (replies.head.1, askSource sOldPath versionId)
  else
    let source := readSource (readHeaders replies.head.2) pMDList
    let MDList := source.2.filter fun h => !pDeleteTagParam.contains h.sHeader
    finishRename replies sOldPath sNewPath versionId bCopy
      (copyS3 replies t sOldPath sNewPath false source.1 MDList)

end Copy
end ECSUtil

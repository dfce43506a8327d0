/-
# The callbacks of a listing

`DIR_ENTRY`, `S3_SYSTEM_METADATA`, `XML_DIR_LISTING_CONTEXT` (`ECSUtil/ECSConnection.h`)
and `XmlDirListingS3CB`, `XmlDirListingS3VersionsCB` (`ECSUtil/ECSConnection.cpp`).

The two callbacks tell the texts of a reply apart by their paths (`ListingXml.texts`) and do the
same with them, but for the fields that one of the replies does not have, and where a listing
of versions keeps an entry without a name.

The record of an entry is one for the whole listing: its texts are put into it where they come, and
the end of the entry puts a copy into the list.  The key of an entry loses the prefix of the reply
and a slash at its end; a common prefix loses the prefix only where its letters are in the same
case.  Neither callback fails, whatever it reads (`ListingXml.harmless`).
-/

import ECSUtil.Conn.Time
import ECSUtil.Xml.Scan

namespace ECSUtil
namespace Listing

open Xml

/-- `S3_SYSTEM_METADATA`. -/
structure S3SystemMetadata where
  ftLastMod : FileTime := 0
  llSize : ℕ := 0
  dwRetentionSeconds : ℕ := 0
  bIsLatest : Bool := false
  bDeleted : Bool := false
  sVersionId : CString := []
  sETag : CString := []
  sOwnerDisplayName : CString := []
  sOwnerID : CString := []
  deriving DecidableEq, Repr

/-- `S3_SYSTEM_METADATA::Empty`, which keeps `sOwnerID`. -/
def S3SystemMetadata.empty (p : S3SystemMetadata) : S3SystemMetadata := { sOwnerID := p.sOwnerID }

/-- `DIR_ENTRY`. -/
structure DirEntry where
  sName : CString := []
  bDir : Bool := false
  properties : S3SystemMetadata := {}
  deriving DecidableEq, Repr

/-- `XML_DIR_LISTING_CONTEXT`, with what it points to. -/
structure XmlDirListingContext where
  sPathIn : CString := []
  sObjName : CString := []
  bGotRootElement : Bool := false
  bGotKey : Bool := false
  dirList : List DirEntry := []
  Rec : DirEntry := {}
  pszSearchName : Option CString := none
  sRetSearchName : CString := []
  bIsTruncated : Bool := false
  sPrefix : CString := []
  sPrefixNoObj : CString := []
  sS3NextMarker : CString := []
  sS3NextKeyMarker : CString := []
  sS3NextVersionIdMarker : CString := []
  sLastFullObjName : CString := []
  deriving DecidableEq, Repr

/-- The texts that the callbacks take from a reply. -/
inductive Field
  | keyPrefix
  | isTruncated
  | nextMarker
  | nextKeyMarker
  | nextVersionIdMarker
  | key
  | versionId
  | isLatest
  | lastModified
  | eTag
  | size
  | ownerId
  | ownerDisplayName
  | commonPrefix
  deriving DecidableEq, Repr

/-- What is different in the replies, and in the callbacks. -/
structure ListingXml where
  /-- The paths of the texts, in the order they are looked at. -/
  texts : List (CString × Field)
  /-- The elements whose ends end an entry. -/
  entries : List CString
  /-- The element of a deleted object. -/
  deleted : Option CString
  root : CString
  /-- The last key is kept, as a marker for the next page. -/
  bLastFullObjName : Bool
  /-- Entries without a name are kept. -/
  bUnnamed : Bool

/-- `_T("true")`. -/
def isTrue (value : CString) : Bool := value = "true".toList

/-- `Right(n) == s`, for `n` the length of `s`. -/
def endsWith (s t : CString) : Bool := t.length ≤ s.length && s.drop (s.length - t.length) = t

/-- The name without the slash at its end, and whether it has one. -/
def trimSlash (name : CString) : CString × Bool :=
  if name.getLast? = some '/' then (name.dropLast, true) else (name, false)

namespace XmlDirListingContext

/-- `EmptyRec`. -/
def emptyRec (c : XmlDirListingContext) : XmlDirListingContext :=
  { c with Rec := { c.Rec with sName := [], properties := c.Rec.properties.empty } }

/-- The properties of the record. -/
def modifyProperties (c : XmlDirListingContext) (f : S3SystemMetadata → S3SystemMetadata) :
    XmlDirListingContext :=
  { c with Rec := { c.Rec with properties := f c.Rec.properties } }

/-- The prefix of the reply; the name of an object may be at its end. -/
def setPrefix (c : XmlDirListingContext) (value : CString) : XmlDirListingContext :=
  { c with
    sPrefix := value
    sPrefixNoObj :=
      if c.sObjName ≠ [] ∧ endsWith value c.sObjName then
        value.take (value.length - c.sObjName.length)
      else value }

/-- A key: the prefix goes from its front, and a slash from its end. -/
def setKey (c : XmlDirListingContext) (bLastFullObjName : Bool) (value : CString) :
    XmlDirListingContext :=
  let name :=
    if compareNoCase c.sPrefixNoObj (value.take c.sPrefixNoObj.length) then
      value.drop c.sPrefixNoObj.length
    else value
  { c with
    bGotKey := true
    sLastFullObjName := if bLastFullObjName then value else c.sLastFullObjName
    Rec := { c.Rec with sName := (trimSlash name).1, bDir := (trimSlash name).2 } }

/-- A common prefix: the same, where it has the prefix in the same letter case. -/
def setCommonPrefix (c : XmlDirListingContext) (value : CString) : XmlDirListingContext :=
  let name :=
    if c.sPrefixNoObj = value.take c.sPrefixNoObj.length then
      (trimSlash (value.drop c.sPrefixNoObj.length)).1
    else value
  { c with Rec := { c.Rec with sName := name, bDir := true } }

/-- A text of the reply. -/
def text (c : XmlDirListingContext) (bLastFullObjName : Bool) (value : CString) :
    Field → DWORD × XmlDirListingContext
  | .keyPrefix => (0, c.setPrefix value)
  | .isTruncated => (0, { c with bIsTruncated := isTrue value })
  | .nextMarker => (0, { c with sS3NextMarker := value })
  | .nextKeyMarker => (0, { c with sS3NextKeyMarker := value })
  | .nextVersionIdMarker => (0, { c with sS3NextVersionIdMarker := value })
  | .key => (0, c.setKey bLastFullObjName value)
  | .versionId =>
      (0, c.modifyProperties fun p =>
        { p with sVersionId := if value = "null".toList then [] else value })
  | .isLatest => (0, c.modifyProperties fun p => { p with bIsLatest := isTrue value })
  | .lastModified =>
      ((parseISO8601Date value).1,
        c.modifyProperties fun p => { p with ftLastMod := (parseISO8601Date value).2 })
  | .eTag => (0, c.modifyProperties fun p => { p with sETag := value })
  | .size =>
      (0, c.modifyProperties fun p =>
        match scanf [.num none] value with
        | n :: _ => { p with llSize := (n % 0x10000000000000000).toNat }
        | [] => p)
  | .ownerId => (0, c.modifyProperties fun p => { p with sOwnerID := value })
  | .ownerDisplayName => (0, c.modifyProperties fun p => { p with sOwnerDisplayName := value })
  | .commonPrefix => (0, c.setCommonPrefix value)

/-- The entry is added, a folder only once. -/
def push (c : XmlDirListingContext) (bDeleted : Bool) : XmlDirListingContext :=
  if c.Rec.bDir && c.dirList.any fun e => e.bDir && e.sName = c.Rec.sName then c
  else
    let Rec' :=
      if bDeleted then { c.Rec with properties := { c.Rec.properties with bDeleted := true } }
      else c.Rec
    { c with
      Rec := Rec'
      dirList := c.dirList ++ [Rec']
      sRetSearchName :=
        if c.pszSearchName = some c.Rec.sName then c.Rec.sName else c.sRetSearchName }

/-- The end of an entry. -/
def endEntry (c : XmlDirListingContext) (bUnnamed bDeleted : Bool) : XmlDirListingContext :=
  if bUnnamed || c.Rec.sName ≠ [] then (c.push bDeleted).emptyRec else c

end XmlDirListingContext

/-- A path of some texts. -/
def ListingXml.field (x : ListingXml) (sXmlPath : CString) : Option Field :=
  (x.texts.find? fun t => compareNoCase sXmlPath t.1).map Prod.snd

/-- What the callbacks do. -/
def ListingXml.callback (x : ListingXml) : Callback XmlDirListingContext := fun sXmlPath e c =>
  match e with
  | .text value =>
      match x.field sXmlPath with
      | some f => c.text x.bLastFullObjName value f
      | none => (0, c)
  | .endElement =>
      if x.entries.any (compareNoCase sXmlPath) then
        (0, c.endEntry x.bUnnamed (x.deleted.any (compareNoCase sXmlPath)))
      else (0, c)
  | .element _ =>
      if compareNoCase sXmlPath x.root then (0, { c with bGotRootElement := true }) else (0, c)

/-- The reply to a listing. -/
def listBucketResult : ListingXml where
  texts :=
    [("//ListBucketResult/Prefix".toList, .keyPrefix),
      ("//ListBucketResult/IsTruncated".toList, .isTruncated),
      ("//ListBucketResult/NextMarker".toList, .nextMarker),
      ("//ListBucketResult/Contents/Key".toList, .key),
      ("//ListBucketResult/Contents/LastModified".toList, .lastModified),
      ("//ListBucketResult/Contents/ETag".toList, .eTag),
      ("//ListBucketResult/Contents/Size".toList, .size),
      ("//ListBucketResult/Contents/Owner/ID".toList, .ownerId),
      ("//ListBucketResult/Contents/Owner/DisplayName".toList, .ownerDisplayName),
      ("//ListBucketResult/CommonPrefixes/Prefix".toList, .commonPrefix)]
  entries :=
    ["//ListBucketResult/Contents".toList, "//ListBucketResult/CommonPrefixes".toList]
  deleted := none
  root := "//ListBucketResult".toList
  bLastFullObjName := true
  bUnnamed := false

/-- The reply to a listing of versions. -/
def listVersionsResult : ListingXml where
  texts :=
    [("//ListVersionsResult/Prefix".toList, .keyPrefix),
      ("//ListVersionsResult/IsTruncated".toList, .isTruncated),
      ("//ListVersionsResult/NextKeyMarker".toList, .nextKeyMarker),
      ("//ListVersionsResult/NextVersionIdMarker".toList, .nextVersionIdMarker),
      ("//ListVersionsResult/Version/Key".toList, .key),
      ("//ListVersionsResult/DeleteMarker/Key".toList, .key),
      ("//ListVersionsResult/Version/LastModified".toList, .lastModified),
      ("//ListVersionsResult/DeleteMarker/LastModified".toList, .lastModified),
      ("//ListVersionsResult/Version/ETag".toList, .eTag),
      ("//ListVersionsResult/Version/Size".toList, .size),
      ("//ListVersionsResult/Version/Owner/ID".toList, .ownerId),
      ("//ListVersionsResult/DeleteMarker/Owner/ID".toList, .ownerId),
      ("//ListVersionsResult/Version/Owner/DisplayName".toList, .ownerDisplayName),
      ("//ListVersionsResult/DeleteMarker/Owner/DisplayName".toList, .ownerDisplayName),
      ("//ListVersionsResult/Version/VersionId".toList, .versionId),
      ("//ListVersionsResult/DeleteMarker/VersionId".toList, .versionId),
      ("//ListVersionsResult/Version/IsLatest".toList, .isLatest),
      ("//ListVersionsResult/DeleteMarker/IsLatest".toList, .isLatest),
      ("//ListVersionsResult/CommonPrefixes/Prefix".toList, .commonPrefix)]
  entries :=
    ["//ListVersionsResult/Version".toList, "//ListVersionsResult/DeleteMarker".toList,
      "//ListVersionsResult/CommonPrefixes".toList]
  deleted := some "//ListVersionsResult/DeleteMarker".toList
  root := "//ListVersionsResult".toList
  bLastFullObjName := false
  bUnnamed := true

/-- `XmlDirListingS3CB`. -/
def xmlDirListingS3CB : Callback XmlDirListingContext := listBucketResult.callback

/-- `XmlDirListingS3VersionsCB`. -/
def xmlDirListingS3VersionsCB : Callback XmlDirListingContext := listVersionsResult.callback

/-- No text of a reply ends the reading of it. -/
theorem XmlDirListingContext.text_not_FAILED (c : XmlDirListingContext) (b : Bool)
    (value : CString) (f : Field) : FAILED (c.text b value f).1 = false := by
  cases f <;> first | rfl | exact parseISO8601Date_not_FAILED value

/-- **The callbacks never fail**: their errors are no failing `HRESULT`s. They return Win32 codes or
`S_OK`, so a listing is cut off by nothing but the reader. -/
theorem ListingXml.harmless (x : ListingXml) : x.callback.Harmless := by
  intro p e c
  cases e with
  | text value =>
      simp only [ListingXml.callback]
      cases x.field p with
      | some f => exact c.text_not_FAILED _ value f
      | none => rfl
  | endElement =>
      simp only [ListingXml.callback]
      split_ifs <;> rfl
  | element attrList =>
      simp only [ListingXml.callback]
      split_ifs <;> rfl

end Listing
end ECSUtil

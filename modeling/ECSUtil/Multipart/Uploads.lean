/-
# Listing the uploads that are active

`S3_LIST_MULTIPART_UPLOADS`, `S3_MULTIPART_LIST_CONTEXT`, `XmlS3MultiPartListCB` and `S3MultiPartList`
(`ECSUtil/ECSConnection.h`, `ECSUtil/ECSConnection.cpp`) against a conforming server: it reads the
markers of a request as a server does (`Query.textOf`), and its reply has the next page of the uploads
behind them, in the order of their keys and ids.

A text of a reply that is only white space is no text to the callback (`Xml.blank`), so an upload with
such a text does not come back as it is (`S3ListMultipartUploadsEntry.Told`).  What the callback makes
of a reply is said for the texts in front of the uploads (`putFront`) and for each upload (`putUpload`).

`ReadSoFar` is what the loop keeps where all uploads are told: it has read whole pages, and goes on
behind the last one of them.  `Clean` is what it keeps in any case: it has no text of white space.

The list of the caller is not emptied, and the marker of an id is sent as it is (`uploads_listed`).
None of this is an error of the operation (`multiPartList_error`).
-/

import Mathlib.Data.Char
import Mathlib.Data.List.Lex
import Mathlib.Data.Prod.Lex
import ECSUtil.Lib.Loop
import ECSUtil.Lib.Paging
import ECSUtil.Listing.Internal
import ECSUtil.Request.Tokens
import ECSUtil.Xml.Content
import ECSUtil.Xml.Writer

namespace ECSUtil
namespace Multipart

open Xml

/-- `S3_LIST_MULTIPART_UPLOADS_ENTRY`. -/
structure S3ListMultipartUploadsEntry where
  sKey : CString := []
  sUploadId : CString := []
  sInitiatorId : CString := []
  sInitiatorDisplayName : CString := []
  sOwnerId : CString := []
  sOwnerDisplayName : CString := []
  sStorageClass : CString := []
  ftInitiated : FileTime := 0
  deriving DecidableEq, Repr

namespace S3ListMultipartUploadsEntry

/-- The texts of an entry. -/
def texts (e : S3ListMultipartUploadsEntry) : List CString :=
  [e.sKey, e.sUploadId, e.sInitiatorId, e.sInitiatorDisplayName, e.sOwnerId, e.sOwnerDisplayName,
    e.sStorageClass]

/-- Each text can be told in a reply: it is empty, or not only white space. -/
def Told (e : S3ListMultipartUploadsEntry) : Prop :=
  ∀ value ∈ e.texts, blank value = true → value = []

instance (e : S3ListMultipartUploadsEntry) : Decidable e.Told :=
  inferInstanceAs (Decidable (∀ value ∈ e.texts, _))

end S3ListMultipartUploadsEntry

/-- `S3_LIST_MULTIPART_UPLOADS`. -/
structure S3ListMultipartUploads where
  sBucket : CString := []
  uMaxUploads : ℕ := 0
  objectList : List S3ListMultipartUploadsEntry := []
  deriving DecidableEq, Repr

/-- `S3_MULTIPART_LIST_CONTEXT`, with the list that it points to. -/
structure S3MultipartListContext where
  multiPartList : S3ListMultipartUploads
  Rec : S3ListMultipartUploadsEntry := {}
  sNextKeyMarker : CString := []
  sNextUploadIdMarker : CString := []
  bIsTruncated : Bool := false
  deriving DecidableEq, Repr

/-- The texts that the callback takes from a reply. -/
inductive UploadsField
  | bucket
  | nextKeyMarker
  | nextUploadIdMarker
  | maxUploads
  | isTruncated
  | key
  | uploadId
  | initiatorId
  | initiatorDisplayName
  | ownerId
  | ownerDisplayName
  | storageClass
  | initiated
  deriving DecidableEq, Repr

/-- The paths of the texts, in the order they are looked at. -/
def uploadsTexts : List (CString × UploadsField) :=
  [("//ListMultipartUploadsResult/Bucket".toList, .bucket),
    ("//ListMultipartUploadsResult/NextKeyMarker".toList, .nextKeyMarker),
    ("//ListMultipartUploadsResult/NextUploadIdMarker".toList, .nextUploadIdMarker),
    ("//ListMultipartUploadsResult/MaxUploads".toList, .maxUploads),
    ("//ListMultipartUploadsResult/IsTruncated".toList, .isTruncated),
    ("//ListMultipartUploadsResult/Upload/Key".toList, .key),
    ("//ListMultipartUploadsResult/Upload/UploadId".toList, .uploadId),
    ("//ListMultipartUploadsResult/Upload/Initiator/ID".toList, .initiatorId),
    ("//ListMultipartUploadsResult/Upload/Initiator/DisplayName".toList, .initiatorDisplayName),
    ("//ListMultipartUploadsResult/Upload/Owner/ID".toList, .ownerId),
    ("//ListMultipartUploadsResult/Upload/Owner/DisplayName".toList, .ownerDisplayName),
    ("//ListMultipartUploadsResult/Upload/StorageClass".toList, .storageClass),
    ("//ListMultipartUploadsResult/Upload/Initiated".toList, .initiated)]

/-- `XML_S3_MULTIPART_LIST_UPLOAD_ELEMENT`. -/
def uploadElement : CString := "//ListMultipartUploadsResult/Upload".toList

/-- A path of some texts. -/
def uploadsField (sXmlPath : CString) : Option UploadsField :=
  (uploadsTexts.find? fun t => compareNoCase sXmlPath t.1).map Prod.snd

namespace S3MultipartListContext

/-- A text of the reply. -/
def text (c : S3MultipartListContext) (value : CString) : UploadsField → DWORD × S3MultipartListContext
  | .bucket => (0, { c with multiPartList := { c.multiPartList with sBucket := value } })
  | .nextKeyMarker => (0, { c with sNextKeyMarker := value })
  | .nextUploadIdMarker => (0, { c with sNextUploadIdMarker := value })
  | .maxUploads => (0, { c with multiPartList := { c.multiPartList with uMaxUploads := ttoi value } })
  | .isTruncated => (0, { c with bIsTruncated := value = "true".toList })
  | .key => (0, { c with Rec := { c.Rec with sKey := value } })
  | .uploadId => (0, { c with Rec := { c.Rec with sUploadId := value } })
  | .initiatorId => (0, { c with Rec := { c.Rec with sInitiatorId := value } })
  | .initiatorDisplayName => (0, { c with Rec := { c.Rec with sInitiatorDisplayName := value } })
  | .ownerId => (0, { c with Rec := { c.Rec with sOwnerId := value } })
  | .ownerDisplayName => (0, { c with Rec := { c.Rec with sOwnerDisplayName := value } })
  | .storageClass => (0, { c with Rec := { c.Rec with sStorageClass := value } })
  | .initiated =>
      ((parseISO8601Date value).1,
        { c with Rec := { c.Rec with ftInitiated := (parseISO8601Date value).2 } })

/-- The end of an upload. -/
def endUpload (c : S3MultipartListContext) : S3MultipartListContext :=
  if c.Rec.sKey ≠ [] then
    { c with
      multiPartList :=
        { c.multiPartList with objectList := c.multiPartList.objectList ++ [c.Rec] }
      Rec := {} }
  else c

end S3MultipartListContext

/-- `XmlS3MultiPartListCB`. -/
def xmlS3MultiPartListCB : Callback S3MultipartListContext := fun sXmlPath e c =>
  match e with
  | .text value =>
      if value = [] then (0, c)
      else
        match uploadsField sXmlPath with
        | some f => c.text value f
        | none => (0, c)
  | .endElement => if compareNoCase sXmlPath uploadElement then (0, c.endUpload) else (0, c)
  | .element _ => (0, c)

/-- One turn of `S3MultiPartList`. -/
def multiPartListTurn (send : CString → Reply) (pszBucketName : CString)
    (c : S3MultipartListContext) : S3MultipartListContext ⊕ (S3Error × S3ListMultipartUploads) :=
  let reply := send (Request.multiPartListResource pszBucketName c.sNextKeyMarker
    c.sNextUploadIdMarker)
  if reply.error.ifError then .inr (reply.error, c.multiPartList)
  else
    let r := scanXmlStream xmlS3MultiPartListCB reply.reading c
    if FAILED r.1 then .inr (.ofWin32 r.1, r.2.multiPartList)
    else if r.2.bIsTruncated then .inl r.2
    else .inr (reply.error, r.2.multiPartList)

/-- An upload: its key and its id. -/
abbrev UploadId := CString ×ₗ CString

/-- What a server tells of an upload. -/
structure UploadInfo where
  initiatorId : CString := []
  initiatorDisplayName : CString := []
  ownerId : CString := []
  ownerDisplayName : CString := []
  storageClass : CString := []
  initiated : FileTime := 0

/-- A server with a bucket and the uploads that are active, in order, and how many it lists at a time.  Its
times are those that can be written, in whole milliseconds. -/
structure UploadServer where
  bucket : CString
  bucket_plain : '?' ∉ bucket ∧ '#' ∉ bucket
  uploads : List UploadId
  sorted : uploads.Pairwise (· < ·)
  named : ∀ u ∈ uploads, (ofLex u).1 ≠ [] ∧ (ofLex u).2 ≠ []
  noNul : ∀ u ∈ uploads, ∀ ch ∈ (ofLex u).1, ch.toNat ≠ 0
  info : UploadId → UploadInfo := fun _ => {}
  times : ∀ u ∈ uploads, (info u).initiated < endOfTime ∧ 10000 ∣ (info u).initiated
  pageSize : ℕ
  pos : 0 < pageSize

/-- An element with a text, which may be empty; the reader does not take white space alone for a text. -/
def leafContent (name : String) (value : CString) (rest : Content) : Content :=
  .element name.toList []
    (if value = [] then .nil else if blank value then .other .nil else .text value .nil) rest

namespace UploadServer

variable (srv : UploadServer)

/-- The uploads behind the markers of a request; a marker of an id counts only with one of a key. -/
def behind (resource : CString) : List UploadId :=
  srv.uploads.filter fun u =>
    match Query.textOf resource "key-marker".toList, Query.textOf resource "upload-id-marker".toList with
    | some k, some i => toLex (k, i) < u
    | some k, none => k < (ofLex u).1
    | none, _ => true

/-- The page that a request gets. -/
def page (resource : CString) : Paging.Page UploadId where
  items := (srv.behind resource).take srv.pageSize
  more := srv.pageSize < (srv.behind resource).length

/-- An upload in a reply. -/
def uploadContent (u : UploadId) (rest : Content) : Content :=
  .element "Upload".toList []
    (leafContent "Key" (ofLex u).1 <| leafContent "UploadId" (ofLex u).2 <|
      .element "Initiator".toList []
        (leafContent "ID" (srv.info u).initiatorId <|
          leafContent "DisplayName" (srv.info u).initiatorDisplayName .nil) <|
      .element "Owner".toList []
        (leafContent "ID" (srv.info u).ownerId <|
          leafContent "DisplayName" (srv.info u).ownerDisplayName .nil) <|
      leafContent "StorageClass" (srv.info u).storageClass <|
      leafContent "Initiated" (formatISO8601Date (srv.info u).initiated true false) .nil)
    rest

/-- The markers of the next page. -/
def next (resource : CString) : CString × CString :=
  if (srv.page resource).more then
    match (srv.page resource).items.getLast? with
    | some u => ofLex u
    | none => ([], [])
  else ([], [])

/-- A reply. -/
def listing (resource : CString) : Content :=
  .element "ListMultipartUploadsResult".toList []
    (leafContent "Bucket" srv.bucket <|
      leafContent "KeyMarker" ((Query.textOf resource "key-marker".toList).getD []) <|
      leafContent "UploadIdMarker" ((Query.textOf resource "upload-id-marker".toList).getD []) <|
      leafContent "NextKeyMarker" (srv.next resource).1 <|
      leafContent "NextUploadIdMarker" (srv.next resource).2 <|
      leafContent "MaxUploads" (fmtNum 0 srv.pageSize) <|
      leafContent "IsTruncated" (toString (srv.page resource).more).toList <|
      (srv.page resource).items.foldr srv.uploadContent .nil)
    .nil

/-- What `SendRequest` returns. -/
def reply (resource : CString) : Reply where
  reading := { nodes := (srv.listing resource).nodes, last := S_FALSE, last_ne := S_FALSE_ne_S_OK }

/-- What an upload is listed as. -/
def entry (u : UploadId) : S3ListMultipartUploadsEntry where
  sKey := (ofLex u).1
  sUploadId := (ofLex u).2
  sInitiatorId := (srv.info u).initiatorId
  sInitiatorDisplayName := (srv.info u).initiatorDisplayName
  sOwnerId := (srv.info u).ownerId
  sOwnerDisplayName := (srv.info u).ownerDisplayName
  sStorageClass := (srv.info u).storageClass
  ftInitiated := (srv.info u).initiated

/-- An upload at the end of a page that is not the last. -/
def EndsPage (u : UploadId) : Prop :=
  ∃ i, (i + 1) % srv.pageSize = 0 ∧ i + 1 < srv.uploads.length ∧ srv.uploads[i]? = some u

end UploadServer

/-- A text of an element, which may be none, and of a field that is looked for or none. -/
def putText (f : Option UploadsField) (value : CString) (c : S3MultipartListContext) :
    S3MultipartListContext :=
  if blank value then c
  else
    match f with
    | some f => (c.text value f).2
    | none => c

/-- The element of a reply. -/
def inUploads : List CString := ["ListMultipartUploadsResult".toList]

/-- The elements of a reply with a text, and the field of each. -/
def uploadsLeaves : List (List String × Option UploadsField) :=
  [(["Bucket"], some .bucket), (["KeyMarker"], none), (["UploadIdMarker"], none),
    (["NextKeyMarker"], some .nextKeyMarker), (["NextUploadIdMarker"], some .nextUploadIdMarker),
    (["MaxUploads"], some .maxUploads), (["IsTruncated"], some .isTruncated),
    (["Upload", "Key"], some .key), (["Upload", "UploadId"], some .uploadId),
    (["Upload", "Initiator", "ID"], some .initiatorId),
    (["Upload", "Initiator", "DisplayName"], some .initiatorDisplayName),
    (["Upload", "Owner", "ID"], some .ownerId),
    (["Upload", "Owner", "DisplayName"], some .ownerDisplayName),
    (["Upload", "StorageClass"], some .storageClass), (["Upload", "Initiated"], some .initiated)]

/-- **Each text of a reply is looked for under its own path**, and none is an upload. The paths
differ from each other and from that of the element of an upload, in any case of the letters, so
each text is stored in one field and ends no record. -/
theorem uploadsField_leaf :
    ∀ t ∈ uploadsLeaves, uploadsField (path (inUploads ++ t.1.map String.toList)) = t.2 ∧
      compareNoCase (path (inUploads ++ t.1.map String.toList)) uploadElement = false := by
  decide +kernel

section

variable {stack : List CString} {c : S3MultipartListContext}

/-- **The callback never fails.** It returns `S_OK` for every node, so a scan fails only with the
reader. -/
theorem harmless_xmlS3MultiPartListCB : Callback.Harmless xmlS3MultiPartListCB := by
  intro p e c
  cases e with
  | element attrList => rfl
  | endElement =>
      unfold xmlS3MultiPartListCB
      dsimp only
      split_ifs <;> rfl
  | text value =>
      unfold xmlS3MultiPartListCB
      dsimp only
      split_ifs
      · rfl
      · cases uploadsField p with
        | none => rfl
        | some f => cases f <;> first | rfl | exact parseISO8601Date_not_FAILED value

/-- **The operation returns no error** where each request succeeds and each document is read to its last
node, whatever the callback returned. -/
theorem multiPartList_error {send : CString → Reply} {pszBucketName : CString} {turns : ℕ}
    (hsend : ∀ resource, (send resource).error = {} ∧ (send resource).reading.fails = false)
    {r : S3Error × S3ListMultipartUploads}
    (hrun : Loop.run (multiPartListTurn send pszBucketName) turns c = some r) : r.1 = {} := by
  refine Loop.of_run (I := fun _ => True) (Q := fun r => r.1 = {}) (fun c r _ hr => ?_)
    (fun _ _ _ _ => trivial) trivial hrun
  obtain ⟨herror, hfails⟩ := hsend (Request.multiPartListResource pszBucketName c.sNextKeyMarker
    c.sNextUploadIdMarker)
  have hzero := (harmless_xmlS3MultiPartListCB.scanXmlStream (c := c) _).2 hfails
  unfold multiPartListTurn at hr
  dsimp only at hr
  rw [herror, S3Error.ifError_default, if_neg Bool.false_ne_true, hzero, if_neg (by decide)] at hr
  split_ifs at hr
  exact Sum.inr.inj hr ▸ rfl

/-- The start of an element changes nothing. -/
theorem next_start (attributes : List (CString × CString × CString)) :
    xmlS3MultiPartListCB.next stack (start attributes) c = c := rfl

/-- The end of an element ends an upload, if it is the element of one. -/
theorem next_end :
    xmlS3MultiPartListCB.next stack .endElement c =
      if compareNoCase (path stack) uploadElement then c.endUpload else c := by
  unfold Callback.next xmlS3MultiPartListCB
  dsimp only
  split_ifs <;> rfl

/-- A text that is told goes into its field. -/
theorem next_text {value : CString} (h : blank value = false) :
    xmlS3MultiPartListCB.next stack (.text value) c = putText (uploadsField (path stack)) value c := by
  have hne : value ≠ [] := fun h0 => by
    rw [h0] at h
    exact absurd h (by decide)
  unfold Callback.next xmlS3MultiPartListCB putText
  dsimp only
  rw [if_neg hne, h, if_neg Bool.false_ne_true]
  cases uploadsField (path stack) <;> rfl

/-- An element that is no upload. -/
theorem tell_plain {name : CString}
    (hend : compareNoCase (path (stack ++ [name])) uploadElement = false) (inside rest : Content)
    (c : S3MultipartListContext) :
    xmlS3MultiPartListCB.tell ((Content.element name [] inside rest).told stack) c =
      xmlS3MultiPartListCB.tell (rest.told stack)
        (xmlS3MultiPartListCB.tell (inside.told (stack ++ [name])) c) := by
  rw [Content.tell_element, next_start, next_end, if_neg (by rw [hend]; decide)]

/-- **An element with a text.** The callback is told the start of the element, its text where there
is one, and its end; only the text changes the context. -/
theorem tell_leaf (more : List String) (name : String) (f : Option UploadsField)
    (hstack : stack ++ [name.toList] = inUploads ++ (more ++ [name]).map String.toList)
    (hleaf : (more ++ [name], f) ∈ uploadsLeaves) (value : CString) (rest : Content)
    (c : S3MultipartListContext) :
    xmlS3MultiPartListCB.tell ((leafContent name value rest).told stack) c =
      xmlS3MultiPartListCB.tell (rest.told stack) (putText f value c) := by
  obtain ⟨hf, hend⟩ := uploadsField_leaf _ hleaf
  rw [← hstack] at hf hend
  unfold leafContent
  rw [tell_plain hend]
  refine congrArg _ ?_
  split_ifs with hnil hblank
  · rw [hnil, Content.tell_nil]
    rfl
  · unfold putText
    rw [if_pos hblank]
    rfl
  · rw [Content.tell_text, Content.tell_nil, next_text (Bool.not_eq_true _ ▸ hblank), hf]

/-- A field that is still empty takes its text, if it is told. -/
theorem putText_of_empty {f : UploadsField} (h : (c.text [] f).2 = c) {value : CString}
    (hvalue : blank value = true → value = []) : putText (some f) value c = (c.text value f).2 := by
  unfold putText
  split_ifs with hblank
  · rw [hvalue hblank, h]
  · rfl

variable (srv : UploadServer)

/-- What the texts of an upload leave. -/
def putUpload (u : UploadId) (c : S3MultipartListContext) : S3MultipartListContext :=
  putText (some .initiated) (formatISO8601Date (srv.info u).initiated true false) <|
    putText (some .storageClass) (srv.info u).storageClass <|
    putText (some .ownerDisplayName) (srv.info u).ownerDisplayName <|
    putText (some .ownerId) (srv.info u).ownerId <|
    putText (some .initiatorDisplayName) (srv.info u).initiatorDisplayName <|
    putText (some .initiatorId) (srv.info u).initiatorId <|
    putText (some .uploadId) (ofLex u).2 <|
    putText (some .key) (ofLex u).1 c

/-- An upload of the reply is told before the rest of it. -/
theorem tell_upload (u : UploadId) (rest : Content) (c : S3MultipartListContext) :
    xmlS3MultiPartListCB.tell ((srv.uploadContent u rest).told inUploads) c =
      xmlS3MultiPartListCB.tell (rest.told inUploads) (putUpload srv u c).endUpload := by
  have hend : ∀ c, xmlS3MultiPartListCB.next (inUploads ++ ["Upload".toList]) .endElement c =
      c.endUpload := by
    intro c
    rw [next_end, if_pos (by decide +kernel)]
  unfold UploadServer.uploadContent putUpload
  rw [Content.tell_element, next_start, hend,
    tell_leaf ["Upload"] "Key" (some .key) (by rfl) (by decide),
    tell_leaf ["Upload"] "UploadId" (some .uploadId) (by rfl) (by decide),
    tell_plain (by decide +kernel),
    tell_leaf ["Upload", "Initiator"] "ID" (some .initiatorId) (by rfl) (by decide),
    tell_leaf ["Upload", "Initiator"] "DisplayName" (some .initiatorDisplayName) (by rfl) (by decide),
    Content.tell_nil, tell_plain (by decide +kernel),
    tell_leaf ["Upload", "Owner"] "ID" (some .ownerId) (by rfl) (by decide),
    tell_leaf ["Upload", "Owner"] "DisplayName" (some .ownerDisplayName) (by rfl) (by decide),
    Content.tell_nil,
    tell_leaf ["Upload"] "StorageClass" (some .storageClass) (by rfl) (by decide),
    tell_leaf ["Upload"] "Initiated" (some .initiated) (by rfl) (by decide), Content.tell_nil]

/-- A time that is written has a `T`, and is read as it was. -/
theorem initiated_read {u : UploadId} (hu : u ∈ srv.uploads) :
    blank (formatISO8601Date (srv.info u).initiated true false) = false ∧
      parseISO8601Date (formatISO8601Date (srv.info u).initiated true false) =
        (ERROR_SUCCESS, (srv.info u).initiated) := by
  obtain ⟨htime, hmillis⟩ := srv.times u hu
  have hparse : parseISO8601Date (formatISO8601Date (srv.info u).initiated true false) =
      (ERROR_SUCCESS, (srv.info u).initiated) := by
    rw [parseISO8601Date_format htime, Nat.div_mul_cancel hmillis]
  refine ⟨?_, hparse⟩
  unfold formatISO8601Date at hparse ⊢
  cases hst : fileTimeToSystemTime (srv.info u).initiated with
  | none =>
      rw [hst] at hparse
      have hcode : (parseISO8601Date []).1 = ERROR_SUCCESS := congrArg Prod.fst hparse
      exact absurd hcode (by decide)
  | some st => exact List.all_eq_false.2 ⟨'T', by simp [formatSystemTime], by decide⟩

/-- **An upload of a reply** is added to the list, if it is told. The record is pushed as it is, and
emptied for the next one, so no text of an upload is left over for another. -/
theorem endUpload_putUpload {u : UploadId} (hu : u ∈ srv.uploads) (ht : (srv.entry u).Told)
    (hc : c.Rec = {}) :
    (putUpload srv u c).endUpload =
      { c with multiPartList :=
        { c.multiPartList with objectList := c.multiPartList.objectList ++ [srv.entry u] } } := by
  obtain ⟨hwritten, hparse⟩ := initiated_read srv hu
  have hkey := (srv.named u hu).1
  have htold : ∀ value ∈ (srv.entry u).texts, blank value = true → value = [] := ht
  simp only [S3ListMultipartUploadsEntry.texts, UploadServer.entry, List.forall_mem_cons] at htold
  obtain ⟨h₁, h₂, h₃, h₄, h₅, h₆, h₇, -⟩ := htold
  obtain ⟨list, r, k, i, b⟩ := c
  obtain rfl : r = {} := hc
  unfold putUpload
  rw [putText_of_empty (f := .key) (by rfl) h₁, putText_of_empty (f := .uploadId) (by rfl) h₂,
    putText_of_empty (f := .initiatorId) (by rfl) h₃,
    putText_of_empty (f := .initiatorDisplayName) (by rfl) h₄,
    putText_of_empty (f := .ownerId) (by rfl) h₅,
    putText_of_empty (f := .ownerDisplayName) (by rfl) h₆,
    putText_of_empty (f := .storageClass) (by rfl) h₇]
  unfold putText
  rw [hwritten, if_neg Bool.false_ne_true]
  dsimp only [S3MultipartListContext.text]
  rw [hparse]
  unfold S3MultipartListContext.endUpload
  rw [if_pos hkey]
  rfl

/-- **The uploads of a reply** are added to the list, in order. Each begins with an empty record,
for the one before it was emptied; so the entries are those of the uploads, each with its own texts. -/
theorem tell_uploads {items : List UploadId}
    (hitems : ∀ u ∈ items, u ∈ srv.uploads ∧ (srv.entry u).Told) (hc : c.Rec = {}) :
    xmlS3MultiPartListCB.tell ((items.foldr srv.uploadContent .nil).told inUploads) c =
      { c with multiPartList :=
        { c.multiPartList with objectList := c.multiPartList.objectList ++ items.map srv.entry } } := by
  induction items generalizing c with
  | nil => rw [List.foldr_nil, Content.tell_nil, List.map_nil, List.append_nil]
  | cons u items ih =>
      obtain ⟨hu, ht⟩ := hitems u List.mem_cons_self
      rw [List.foldr_cons, tell_upload, endUpload_putUpload srv hu ht hc]
      refine (ih (fun v hv => hitems v (List.mem_cons_of_mem u hv)) (by exact hc)).trans ?_
      dsimp only
      rw [List.append_assoc, List.map_cons, List.singleton_append]

/-- What the texts of a reply in front of its uploads leave. -/
def putFront (resource : CString) (c : S3MultipartListContext) : S3MultipartListContext :=
  putText (some .isTruncated) (toString (srv.page resource).more).toList <|
    putText (some .maxUploads) (fmtNum 0 srv.pageSize) <|
    putText (some .nextUploadIdMarker) (srv.next resource).2 <|
    putText (some .nextKeyMarker) (srv.next resource).1 <|
    putText none ((Query.textOf resource "upload-id-marker".toList).getD []) <|
    putText none ((Query.textOf resource "key-marker".toList).getD []) <|
    putText (some .bucket) srv.bucket c

/-- The texts in front of the uploads are told before them. -/
theorem tell_front (resource : CString) (c : S3MultipartListContext) :
    xmlS3MultiPartListCB.tell ((srv.listing resource).told []) c =
      xmlS3MultiPartListCB.tell
        (((srv.page resource).items.foldr srv.uploadContent .nil).told inUploads)
        (putFront srv resource c) := by
  unfold UploadServer.listing putFront
  rw [tell_plain (by decide +kernel), Content.tell_nil,
    tell_leaf [] "Bucket" (some .bucket) (by rfl) (by decide),
    tell_leaf [] "KeyMarker" none (by rfl) (by decide),
    tell_leaf [] "UploadIdMarker" none (by rfl) (by decide),
    tell_leaf [] "NextKeyMarker" (some .nextKeyMarker) (by rfl) (by decide),
    tell_leaf [] "NextUploadIdMarker" (some .nextUploadIdMarker) (by rfl) (by decide),
    tell_leaf [] "MaxUploads" (some .maxUploads) (by rfl) (by decide),
    tell_leaf [] "IsTruncated" (some .isTruncated) (by rfl) (by decide)]
  rfl

/-- The texts in front leave the list and the record, and set the flag and, if they are told, the markers. -/
theorem putFront_spec (resource : CString) (c : S3MultipartListContext) :
    (putFront srv resource c).Rec = c.Rec ∧
      (putFront srv resource c).multiPartList.objectList = c.multiPartList.objectList ∧
      (putFront srv resource c).bIsTruncated = (srv.page resource).more ∧
      (blank (srv.next resource).1 = false → blank (srv.next resource).2 = false →
        (putFront srv resource c).sNextKeyMarker = (srv.next resource).1 ∧
          (putFront srv resource c).sNextUploadIdMarker = (srv.next resource).2) := by
  have hflag : ∀ b : Bool, decide ((toString b).toList = "true".toList) = b ∧
      blank (toString b).toList = false := by decide
  obtain ⟨htrue, hwritten⟩ := hflag (srv.page resource).more
  have hother : ∀ value c, putText none value c = c := fun value c => by
    unfold putText
    split_ifs <;> rfl
  unfold putFront
  rw [hother, hother]
  unfold putText
  rw [hwritten, if_neg Bool.false_ne_true]
  dsimp only [S3MultipartListContext.text]
  refine ⟨?_, ?_, htrue, fun hkey hid => ?_⟩
  · split_ifs <;> rfl
  · split_ifs <;> rfl
  · rw [hkey, hid, if_neg Bool.false_ne_true, if_neg Bool.false_ne_true]
    split_ifs <;> exact ⟨rfl, rfl⟩

/-- The last upload of a page that is not the last one is the next marker. -/
theorem next_of_more {resource : CString} {u : UploadId} (hmore : (srv.page resource).more = true)
    (hu : (srv.page resource).items.getLast? = some u) : srv.next resource = ofLex u := by
  unfold UploadServer.next
  rw [if_pos hmore, hu]

/-- The key and the id of an upload that is told are no white space. -/
theorem marker_told {u : UploadId} (hu : u ∈ srv.uploads) (ht : (srv.entry u).Told) :
    blank (ofLex u).1 = false ∧ blank (ofLex u).2 = false := by
  obtain ⟨hk, hi⟩ := srv.named u hu
  constructor
  · exact eq_false_of_ne_true fun h => hk (ht (ofLex u).1 List.mem_cons_self h)
  · exact eq_false_of_ne_true fun h =>
      hi (ht (ofLex u).2 (List.mem_cons_of_mem _ List.mem_cons_self) h)

/-- The first request has no markers. -/
theorem behind_start : srv.behind (Request.multiPartListResource srv.bucket [] []) = srv.uploads := by
  have hplain : ∀ {ch : Char}, (ch = '?' ∨ ch = '#') → ch ∉ srv.bucket →
      ch ∉ '/' :: srv.bucket ++ ['/'] := fun hch hb =>
    (Request.Place.listUploads srv.bucket []).path_plain hch hb
  have hquery : Query.queryOf (Request.multiPartListResource srv.bucket [] []) = "uploads".toList := by
    unfold Request.multiPartListResource Request.unlessEmpty
    rw [Query.queryOf_append ⟨hplain (.inl rfl) srv.bucket_plain.1, hplain (.inr rfl) srv.bucket_plain.2⟩]
    decide
  have hnone : Query.textOf (Request.multiPartListResource srv.bucket [] []) "key-marker".toList =
      none := by
    unfold Query.textOf Query.serverParams
    rw [hquery]
    decide
  unfold UploadServer.behind
  rw [hnone]
  exact List.filter_eq_self.2 fun u _ => rfl

/-- **A server goes on behind the upload of the markers**, if its id has nothing to split or to
decode. The key goes through `UriEncode` and the id does not, so the server reads the key back in
any case and the id where it has no `&`, no `#` and no escape. -/
theorem behind_markers {k i : CString} (hk : k ≠ []) (hi : i ≠ []) (hnul : ∀ ch ∈ k, ch.toNat ≠ 0)
    (hplain : '&' ∉ i ∧ '#' ∉ i ∧ Query.NoEscape i) :
    srv.behind (Request.multiPartListResource srv.bucket k i) =
      Paging.after srv.uploads (some (toLex (k, i))) := by
  set P := Request.Place.listUploads srv.bucket k with hP
  have hkey : Request.unlessEmpty "key-marker" k (Sign.uriEncode k .allSAFE) =
      Request.parameter '&' "key-marker" (Sign.uriEncode k .allSAFE) := Request.unlessEmpty_eq hk
  have hamp : ∀ ch ∈ "key-marker".toList ++ '=' :: Sign.uriEncode k .allSAFE, decide (ch = '&') = false := by
    intro ch hch
    refine decide_eq_false ?_
    rintro rfl
    rcases List.mem_append.1 hch with hch | hch
    · exact absurd hch (by decide)
    · rcases List.mem_cons.1 hch with hch | hch
      · exact absurd hch (by decide)
      · exact Request.delimiter_notMem_uriEncode (.inr (.inr (.inl rfl))) k _ hch
  have hfirst : Query.param "uploads".toList = { name := "uploads".toList, value := none } := by
    decide +kernel
  -- the parameters in front of the id
  have hown : Query.params P.own =
      [{ name := "uploads".toList, value := none },
        { name := "key-marker".toList, value := some (Sign.uriEncode k .allSAFE) }] := by
    change Query.params ("uploads".toList ++ Request.unlessEmpty "key-marker" k _) = _
    rw [hkey]
    unfold Query.params Request.parameter
    rw [Query.tokens_append (by decide), Query.tokens_singleton hamp (by simp),
      Query.tokens_singleton (by simp) (by decide), List.singleton_append, List.map_cons,
      List.map_singleton, Query.param_eq (by decide), hfirst]
  have hread : Query.serverParams (P.resource i) =
      [(CodePage.utf8 "uploads".toList, none),
        (CodePage.utf8 "key-marker".toList, some (CodePage.utf8 k)),
        (CodePage.utf8 "upload-id-marker".toList, some (CodePage.utf8 i))] := by
    have hname := P.name_plain
    rw [P.resource_eq hi, (Query.serverParams_splice
      ⟨P.path_plain (.inl rfl) srv.bucket_plain.1, P.path_plain (.inr rfl) srv.bucket_plain.2⟩
      P.own_plain hname.1 i).2 hplain, hown]
    unfold Query.Param.read
    simp only [List.map_cons, List.map_nil, Option.map_some, Option.map_none, Sign.uriEncode_eq hnul,
      Query.unescape_encode, hname.2]
    rfl
  have hnames : CodePage.utf8 "uploads".toList ≠ CodePage.utf8 "key-marker".toList ∧
      CodePage.utf8 "uploads".toList ≠ CodePage.utf8 "upload-id-marker".toList ∧
      CodePage.utf8 "key-marker".toList ≠ CodePage.utf8 "upload-id-marker".toList := by decide
  have htext : Query.textOf (P.resource i) "key-marker".toList = some k ∧
      Query.textOf (P.resource i) "upload-id-marker".toList = some i := by
    unfold Query.textOf
    rw [hread]
    simp only [List.find?_cons, decide_eq_false hnames.1, decide_eq_false hnames.2.1,
      decide_eq_false hnames.2.2, decide_true, Option.bind_some, CodePage.decodeUtf8_utf8, and_self]
  unfold UploadServer.behind Paging.after
  rw [show Request.multiPartListResource srv.bucket k i = P.resource i from rfl, htext.1, htext.2]
  rfl

/-- What has been read when a request is made, and what remains. -/
structure ReadSoFar (previous : List S3ListMultipartUploadsEntry) (c : S3MultipartListContext)
    (read rest : List UploadId) : Prop where
  split : read ++ rest = srv.uploads
  whole : read.length % srv.pageSize = 0
  record : c.Rec = {}
  list : c.multiPartList.objectList = previous ++ read.map srv.entry
  start : read = [] → c.sNextKeyMarker = [] ∧ c.sNextUploadIdMarker = []
  marker : ∀ u, read.getLast? = some u → (c.sNextKeyMarker, c.sNextUploadIdMarker) = ofLex u
  more : read ≠ [] → rest ≠ []

variable {srv} {previous : List S3ListMultipartUploadsEntry} {read rest : List UploadId}

/-- **What remains is what the next request asks for.** The markers are those of the last upload
read, and the uploads are in order; so what is behind them is what was not read yet. -/
theorem ReadSoFar.behind
    (hplain : ∀ u, srv.EndsPage u →
      '&' ∉ (ofLex u).2 ∧ '#' ∉ (ofLex u).2 ∧ Query.NoEscape (ofLex u).2)
    (h : ReadSoFar srv previous c read rest) :
    srv.behind (Request.multiPartListResource srv.bucket c.sNextKeyMarker c.sNextUploadIdMarker) =
      rest := by
  rcases List.eq_nil_or_concat' read with rfl | ⟨init, u, rfl⟩
  · obtain ⟨hk, hi⟩ := h.start rfl
    rw [hk, hi, behind_start, ← h.split, List.nil_append]
  · have hne : init ++ [u] ≠ [] := by simp
    have hlast : (init ++ [u]).getLast? = some u := List.getLast?_concat
    have hmem : u ∈ srv.uploads := h.split ▸ by simp
    have hends : srv.EndsPage u := by
      have hrest := List.length_pos_iff.2 (h.more hne)
      have hlength := congrArg List.length h.split
      rw [List.length_append] at hlength
      have hwhole := h.whole
      rw [List.length_append, List.length_singleton] at hlength hwhole
      refine ⟨init.length, hwhole, by omega, ?_⟩
      rw [← h.split, List.append_assoc, List.getElem?_append_right (Nat.le_refl _), Nat.sub_self]
      rfl
    obtain ⟨hk, hi⟩ := srv.named u hmem
    have hmarker : c.sNextKeyMarker = (ofLex u).1 ∧ c.sNextUploadIdMarker = (ofLex u).2 :=
      Prod.ext_iff.1 (h.marker u hlast)
    rw [hmarker.1, hmarker.2, behind_markers srv hk hi (srv.noNul u hmem) (hplain u hends)]
    have hafter := Paging.after_append (h.split ▸ srv.sorted) hne
    rw [hlast, h.split] at hafter
    exact hafter

/-- What a turn is told, and what it goes by. -/
theorem multiPartListTurn_tell (srv : UploadServer) (c : S3MultipartListContext) {resource : CString}
    (hresource : resource =
      Request.multiPartListResource srv.bucket c.sNextKeyMarker c.sNextUploadIdMarker) :
    multiPartListTurn srv.reply srv.bucket c =
      let c' := xmlS3MultiPartListCB.tell ((srv.listing resource).told []) c
      if c'.bIsTruncated then .inl c' else .inr ({}, c'.multiPartList) := by
  unfold multiPartListTurn UploadServer.reply
  dsimp only
  rw [← hresource, Content.scanXmlStream harmless_xmlS3MultiPartListCB]
  rfl

/-- What a turn does with the page of its markers, if it is told. -/
theorem multiPartListTurn_eq (srv : UploadServer) (hc : c.Rec = {}) {resource : CString}
    (hresource : resource =
      Request.multiPartListResource srv.bucket c.sNextKeyMarker c.sNextUploadIdMarker)
    (ht : ∀ u ∈ (srv.page resource).items, (srv.entry u).Told) :
    multiPartListTurn srv.reply srv.bucket c =
      let front := putFront srv resource c
      let list := { front.multiPartList with
        objectList := c.multiPartList.objectList ++ (srv.page resource).items.map srv.entry }
      if (srv.page resource).more then .inl { front with multiPartList := list }
      else .inr ({}, list) := by
  obtain ⟨hrecord, hlist, hflag, -⟩ := putFront_spec srv resource c
  have hsub : ∀ u ∈ (srv.page resource).items, u ∈ srv.uploads ∧ (srv.entry u).Told := fun u hu =>
    ⟨(List.mem_filter.1 (List.mem_of_mem_take hu)).1, ht u hu⟩
  have hturn := multiPartListTurn_tell srv c hresource
  dsimp only at hturn
  rw [tell_front, tell_uploads srv hsub (hrecord.trans hc)] at hturn
  rw [hturn]
  dsimp only
  rw [hflag, hlist]

/-- No text of the list or of the record is only white space. -/
def Clean (c : S3MultipartListContext) : Prop :=
  c.Rec.Told ∧ ∀ e ∈ c.multiPartList.objectList, e.Told

/-- An entry whose texts are those of another, or a text that is told. -/
theorem S3ListMultipartUploadsEntry.Told.set {e e' : S3ListMultipartUploadsEntry} {value : CString}
    (h : e.Told) (hvalue : blank value = false) (hset : ∀ v ∈ e'.texts, v ∈ value :: e.texts) :
    e'.Told := by
  intro v hv hblank
  rcases List.mem_cons.1 (hset v hv) with rfl | hv
  · exact absurd (hvalue.symm.trans hblank) (by decide)
  · exact h v hv hblank

/-- A text that is told is no white space, so the context stays without one. -/
theorem Clean.putText (h : Clean c) (f : Option UploadsField) (value : CString) :
    Clean (putText f value c) := by
  unfold Multipart.putText
  split_ifs with hblank
  · exact h
  · cases f with
    | none => exact h
    | some f =>
        refine ⟨h.1.set (Bool.not_eq_true _ ▸ hblank) fun v hv => ?_, ?_⟩
        · cases f
          all_goals
            simp only [S3MultipartListContext.text, S3ListMultipartUploadsEntry.texts, List.mem_cons]
              at hv ⊢
            tauto
        · cases f <;> exact h.2

/-- At the end of an upload the context stays without a text of white space. -/
theorem Clean.endUpload (h : Clean c) : Clean c.endUpload := by
  unfold S3MultipartListContext.endUpload
  split_ifs
  · refine ⟨(by decide : ({} : S3ListMultipartUploadsEntry).Told), fun e he => ?_⟩
    rcases List.mem_append.1 he with he | he
    · exact h.2 e he
    · exact List.mem_singleton.1 he ▸ h.1
  · exact h

/-- Over all uploads of a reply the context stays without a text of white space. -/
theorem Clean.tell_uploads (h : Clean c) (items : List UploadId) :
    Clean (xmlS3MultiPartListCB.tell ((items.foldr srv.uploadContent .nil).told inUploads) c) := by
  induction items generalizing c with
  | nil => exact h
  | cons u items ih =>
      rw [List.foldr_cons, tell_upload]
      unfold putUpload
      exact ih (((((((((h.putText _ _).putText _ _).putText _ _).putText _ _).putText _ _).putText _
        _).putText _ _).putText _ _).endUpload)

/-- **A turn** reads a page: either it was the last, or there is more to read. The reply is parsed,
its uploads are appended, and the markers for the next request are taken from it; the server says
whether it was cut off. -/
theorem ReadSoFar.turn
    (hplain : ∀ u, srv.EndsPage u →
      '&' ∉ (ofLex u).2 ∧ '#' ∉ (ofLex u).2 ∧ Query.NoEscape (ofLex u).2)
    (ht : ∀ u ∈ srv.uploads, (srv.entry u).Told) (h : ReadSoFar srv previous c read rest) :
    (∃ c' read' rest', multiPartListTurn srv.reply srv.bucket c = .inl c' ∧
        ReadSoFar srv previous c' read' rest' ∧ read.length < read'.length) ∨
      ∃ list, multiPartListTurn srv.reply srv.bucket c = .inr ({}, list) ∧
        list.objectList = previous ++ srv.uploads.map srv.entry := by
  set resource := Request.multiPartListResource srv.bucket c.sNextKeyMarker c.sNextUploadIdMarker
    with hresource
  have hbehind := h.behind hplain
  obtain ⟨hrecord, -, -, hmarkers⟩ := putFront_spec srv resource c
  have hitems : (srv.page resource).items = rest.take srv.pageSize := by
    unfold UploadServer.page
    rw [hbehind]
  have hmore : (srv.page resource).more = decide (srv.pageSize < rest.length) := by
    unfold UploadServer.page
    rw [hbehind]
  have hsub : ∀ u ∈ (srv.page resource).items, u ∈ srv.uploads := fun u hu =>
    (List.mem_filter.1 (List.mem_of_mem_take hu)).1
  rw [multiPartListTurn_eq srv h.record hresource fun u hu => ht u (hsub u hu)]
  dsimp only
  rw [hmore, h.list, hitems, List.append_assoc, ← List.map_append]
  have hpos := srv.pos
  split_ifs with hlt
  · have hlt : srv.pageSize < rest.length := of_decide_eq_true hlt
    have hlength : (rest.take srv.pageSize).length = srv.pageSize := by
      rw [List.length_take]
      omega
    have hne : rest.take srv.pageSize ≠ [] := List.length_pos_iff.1 (by omega)
    have hlast : (read ++ rest.take srv.pageSize).getLast? = (rest.take srv.pageSize).getLast? :=
      List.getLast?_append_of_ne_nil _ hne
    refine .inl ⟨_, read ++ rest.take srv.pageSize, rest.drop srv.pageSize, rfl, ?_, ?_⟩
    · refine
        { split := by rw [List.append_assoc, List.take_append_drop, h.split]
          whole := by rw [List.length_append, hlength, Nat.add_mod_right, h.whole]
          record := hrecord.trans h.record
          list := rfl
          start := fun hnil => absurd (List.append_eq_nil_iff.1 hnil).2 hne
          marker := fun u hu => ?_
          more := fun _ => ?_ }
      · rw [hlast] at hu
        have hnext : srv.next resource = ofLex u :=
          next_of_more srv (hmore.trans (decide_eq_true hlt)) (hitems ▸ hu)
        have hmem := hsub u (hitems ▸ List.mem_of_getLast? hu)
        obtain ⟨hk, hi⟩ := marker_told srv hmem (ht u hmem)
        obtain ⟨hkey, hid⟩ := hmarkers (hnext ▸ hk) (hnext ▸ hi)
        rw [← hnext]
        exact Prod.ext hkey hid
      · rw [← List.length_pos_iff, List.length_drop]
        omega
    · rw [List.length_append]
      omega
  · have hle : rest.length ≤ srv.pageSize := Nat.le_of_not_lt fun hlt' => hlt (decide_eq_true hlt')
    refine .inr ⟨_, rfl, ?_⟩
    dsimp only
    rw [List.take_of_length_le hle, h.split]

end

end Multipart
end ECSUtil

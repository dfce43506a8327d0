/-
# Request bodies and the code page

The bodies that are built with `CBufferStream` (`ECSUtil/ECSConnection.cpp`), whose calls of the XML
writer succeed, `CBufferStream::GetXml` (`ECSUtil/XmlLiteUtil.h`), and `CWideString::Set` and
`CAnsiString::Set` (`ECSUtil/widestring.h`), in a Unicode build.

`GetXml` takes the UTF-8 bytes of the writer for bytes of the ANSI code page, and they are then
encoded as UTF-8 once more: `body_carries`.

Each body is a list of pieces, markup and texts, and `Carries` says of such pieces that the markup
is plain and that the strings of the caller are all of the texts that is not printable ASCII.  It is
shown for the parts of a body (`carries_rule` and the like) and put together, for every kind of
request in `carries_content`.  A request is so received with its texts recoded (`received_eq`), and
a text that is recoded is the same just where it is ASCII.  Of a bulk delete the server so reads the
objects of `Post.received` (`received_deleteS3Send`), which is what the model of `DeleteS3Send` posts.
-/

import Mathlib.Data.List.TakeWhile
import ECSUtil.Body.Acl
import ECSUtil.Body.Lifecycle
import ECSUtil.Delete.Send
import ECSUtil.Xml.Markup

namespace ECSUtil
namespace Body

open Xml Delete

/-- What a body is built for, with the strings of the caller. -/
inductive XmlRequest
  | deleteS3Send (objects : List S3DeleteEntry)
  | writeACL (acls : List AclEntry)
  | s3PutLifecycle (rules : List S3LifecycleRule)
  | s3MultiPartComplete (parts : List (ℕ × CString))
  | s3PutBucketVersioning (bOn : Bool)
  | createS3Bucket (sS3Region : CString)
  | ecsAdminCreateUser (sUser sNamespace sTags : CString)
  | ecsAdminCreateKeyForUser (sNamespace sSecret : CString)

/-- Pieces that are written under a condition. -/
def piecesIf (b : Bool) (pieces : List Piece) : List Piece := if b then pieces else []

/-- An object of a bulk delete. -/
def objectPieces (e : S3DeleteEntry) : List Piece :=
  treePieces "Object".toList []
    (elementPieces "Key".toList e.sKey ++
      piecesIf (e.sVersionId ≠ []) (elementPieces "VersionId".toList e.sVersionId))

/-- A grant. -/
def grantPieces (e : AclEntry) : List Piece :=
  treePieces "Grant".toList []
    (treePieces "Grantee".toList
        [("xmlns".toList, "xsi".toList, "http://www.w3.org/2001/XMLSchema-instance".toList),
          ("xsi".toList, "type".toList, "CanonicalUser".toList)]
        (elementPieces "ID".toList e.sID) ++
      elementPieces "Permission".toList e.Acl.getAclString.toList)

/-- A rule. -/
def rulePieces (r : S3LifecycleRule) : List Piece :=
  treePieces "Rule".toList []
    (elementPieces "ID".toList r.sRuleID ++
      elementPieces "Prefix".toList (withSlash r.sPath) ++
      elementPieces "Status".toList (if r.bEnabled then "Enabled" else "Disabled").toList ++
      piecesIf (r.ftDate ≠ 0 || r.dwDays ≠ 0 || r.bExpiredDeleteMarkers)
        (treePieces "Expiration".toList []
          ((if r.ftDate ≠ 0 then
              elementPieces "Date".toList (formatISO8601Date r.ftDate true false)
            else piecesIf (r.dwDays ≠ 0) (elementPieces "Days".toList (fmtNum 0 r.dwDays))) ++
            piecesIf r.bExpiredDeleteMarkers
              (elementPieces "ExpiredObjectDeleteMarker".toList "true".toList))) ++
      piecesIf (r.dwNoncurrentDays ≠ 0)
        (treePieces "NoncurrentVersionExpiration".toList []
          (elementPieces "NoncurrentDays".toList (fmtNum 0 r.dwNoncurrentDays))) ++
      piecesIf (r.dwAbortIncompleteMultipartUploadDays ≠ 0)
        (treePieces "AbortIncompleteMultipartUpload".toList []
          (elementPieces "DaysAfterInitiation".toList
            (fmtNum 0 r.dwAbortIncompleteMultipartUploadDays))))

/-- A part of a multipart upload. -/
def partPieces (part : ℕ × CString) : List Piece :=
  treePieces "Part".toList []
    (elementPieces "PartNumber".toList (fmtNum 0 part.1) ++ elementPieces "ETag".toList part.2)

/-- The namespace of S3. -/
def s3Namespace : List (CString × CString × CString) :=
  [([], "xmlns".toList, "http://s3.amazonaws.com/doc/2006-03-01/".toList)]

/-- What is written in the declared document. -/
def XmlRequest.content : XmlRequest → List Piece
  | .deleteS3Send objects =>
      treePieces "Delete".toList []
        (elementPieces "Quiet".toList "true".toList ++ objects.flatMap objectPieces)
  | .writeACL acls =>
      treePieces "AccessControlPolicy".toList s3Namespace
        (treePieces "Owner".toList [] (elementPieces "ID".toList []) ++
          treePieces "AccessControlList".toList [] (acls.flatMap grantPieces))
  | .s3PutLifecycle rules =>
      treePieces "LifecycleConfiguration".toList [] (rules.flatMap rulePieces)
  | .s3MultiPartComplete parts =>
      treePieces "CompleteMultipartUpload".toList [] (parts.flatMap partPieces)
  | .s3PutBucketVersioning bOn =>
      treePieces "VersioningConfiguration".toList s3Namespace
        (elementPieces "Status".toList (if bOn then "Enabled" else "Suspended").toList)
  | .createS3Bucket sS3Region =>
      treePieces "CreateBucketConfiguration".toList s3Namespace
        (elementPieces "LocationConstraint".toList sS3Region)
  | .ecsAdminCreateUser sUser sNamespace sTags =>
      treePieces "user_create_param".toList []
        (elementPieces "user".toList sUser ++ elementPieces "namespace".toList sNamespace ++
          piecesIf (sTags ≠ []) (elementPieces "tags".toList sTags))
  | .ecsAdminCreateKeyForUser sNamespace sSecret =>
      treePieces "user_secret_key_create".toList []
        (elementPieces "existing_key_expiry_time_mins".toList "2".toList ++
          elementPieces "namespace".toList sNamespace ++ elementPieces "secretkey".toList sSecret)

/-- The document. -/
def XmlRequest.pieces (r : XmlRequest) : List Piece := documentPieces r.content

/-- The strings of the caller that are texts of the document. -/
def XmlRequest.strings : XmlRequest → List CString
  | .deleteS3Send objects => objects.flatMap fun e => [e.sKey, e.sVersionId]
  | .writeACL acls => acls.flatMap fun e => [e.sID]
  | .s3PutLifecycle rules => rules.flatMap fun r => [r.sRuleID, r.sPath]
  | .s3MultiPartComplete parts => parts.flatMap fun part => [part.2]
  | .s3PutBucketVersioning _ => []
  | .createS3Bucket sS3Region => [sS3Region]
  | .ecsAdminCreateUser sUser sNamespace sTags => [sUser, sNamespace, sTags]
  | .ecsAdminCreateKeyForUser sNamespace sSecret => [sNamespace, sSecret]

/-- `GetXml`: the bytes up to a NUL, as characters of the code page. -/
def getXml (page : CodePage) (buf : List UInt8) : CString :=
  (buf.takeWhile (· ≠ 0)).map page.toUnicode

/-- `CAnsiString` of a text in UTF-8, up to a NUL. -/
def xmlUTF8 (sXmlOut : CString) : List UInt8 :=
  (CodePage.utf8 (sXmlOut.takeWhile fun c => c.toNat ≠ 0)).takeWhile (· ≠ 0)

/-- The body that is sent. -/
def XmlRequest.body (page : CodePage) (r : XmlRequest) : List UInt8 :=
  xmlUTF8 (getXml page (CodePage.utf8 (write r.pieces)))

/-- What a server that decodes the body and parses it receives. -/
def XmlRequest.received (page : CodePage) (r : XmlRequest) : Option (List (CString × CString)) :=
  (CodePage.decodeUtf8 (r.body page)).map parse

/-- The document with its texts, as it was meant. -/
def XmlRequest.meant (r : XmlRequest) : List (CString × CString) :=
  r.pieces.map fun p => (p.markup.write, p.text)

/-- A character of XML. -/
def isXmlChar (c : Char) : Bool :=
  c = '\t' || c = '\n' || c = '\r' || 0x20 ≤ c.toNat && c.toNat ≤ 0xD7FF ||
    0xE000 ≤ c.toNat && c.toNat ≤ 0xFFFD || 0x10000 ≤ c.toNat

/-- Plain markups, and texts of which the strings are all that is not printable ASCII. -/
structure Carries (pieces : List Piece) (strings : List CString) : Prop where
  plain : Plain pieces
  texts : ∀ P : Char → Prop, (∀ c, 32 ≤ c.toNat → c.toNat < 128 → P c) →
    ((∀ p ∈ pieces, ∀ c ∈ p.text, P c) ↔ ∀ s ∈ strings, ∀ c ∈ s, P c)

/-- The names and the attributes that are written, and the texts that are the same every time. -/
theorem bodyTexts :
    (∀ name ∈ ["Object", "Key", "VersionId", "Grant", "Grantee", "ID", "Permission", "Rule",
        "Prefix", "Status", "Expiration", "Date", "Days", "ExpiredObjectDeleteMarker",
        "NoncurrentVersionExpiration", "NoncurrentDays", "AbortIncompleteMultipartUpload",
        "DaysAfterInitiation", "Part", "PartNumber", "ETag", "Delete", "Quiet",
        "AccessControlPolicy", "Owner", "AccessControlList", "LifecycleConfiguration",
        "CompleteMultipartUpload", "VersioningConfiguration", "CreateBucketConfiguration",
        "LocationConstraint", "user_create_param", "user", "namespace", "tags",
        "user_secret_key_create", "existing_key_expiry_time_mins", "secretkey"],
      plain name.toList = true) ∧
      plain Markup.declaration.write = true ∧
      plain (s3Namespace.flatMap writeAttribute) = true ∧
      plain (userAttributes.flatMap writeAttribute) = true ∧
      (∀ value ∈ ["true", "2", "Enabled", "Disabled", "Suspended", "NONE", "READ", "WRITE",
          "FULL_CONTROL", "READ_ACP", "WRITE_ACP", "INVALID"],
        printable value.toList = true) := by
  decide +kernel

/-- A text is plain if its parts are. -/
theorem plain_append {s t : CString} (hs : plain s = true) (ht : plain t = true) :
    plain (s ++ t) = true := by
  simp only [plain, printable, List.all_append, Bool.and_eq_true] at hs ht ⊢
  exact ⟨⟨hs.1, ht.1⟩, hs.2, ht.2⟩

namespace Carries

variable {pieces pieces' : List Piece} {strings strings' : List CString} {name value : CString}

/-- Nothing carries nothing. -/
theorem nil : Carries [] [] where
  plain _ hp := absurd hp List.not_mem_nil
  texts P _ := by simp

/-- Two parts of a body carry what they carry one behind the other. -/
theorem append (h : Carries pieces strings) (h' : Carries pieces' strings') :
    Carries (pieces ++ pieces') (strings ++ strings') where
  plain p hp := (List.mem_append.1 hp).elim (h.plain p) (h'.plain p)
  texts P hP := by
    simp only [List.forall_mem_append]
    exact and_congr (h.texts P hP) (h'.texts P hP)

/-- Strings may be left out, or be taken in, that are of printable characters alone. -/
theorem congr (h : Carries pieces strings)
    (hs : ∀ P : Char → Prop, (∀ c, 32 ≤ c.toNat → c.toNat < 128 → P c) →
      ((∀ s ∈ strings, ∀ c ∈ s, P c) ↔ ∀ s ∈ strings', ∀ c ∈ s, P c)) :
    Carries pieces strings' where
  plain := h.plain
  texts P hP := (h.texts P hP).trans (hs P hP)

/-- A part for each member of a list. -/
theorem flatMap {α : Type} {part : α → List Piece} {stringsOf : α → List CString}
    (h : ∀ a, Carries (part a) (stringsOf a)) (l : List α) :
    Carries (l.flatMap part) (l.flatMap stringsOf) := by
  induction l with
  | nil => exact nil
  | cons a l ih =>
      rw [List.flatMap_cons, List.flatMap_cons]
      exact (h a).append ih

/-- A markup without a text. -/
theorem markup {m : Markup} (h : Xml.plain m.write = true) : Carries [{ markup := m }] [] where
  plain p hp := List.mem_singleton.1 hp ▸ h
  texts P _ := by simp

/-- An element with a string of the caller. -/
theorem element (h : Xml.plain name = true) (value : CString) :
    Carries (elementPieces name value) [value] where
  plain p hp := by
    rcases List.mem_cons.1 hp with rfl | hp
    · exact plain_append h rfl
    · rw [List.mem_singleton.1 hp]
      exact plain_append (s := ['/']) (by decide) h
  texts P _ := by simp [elementPieces]

/-- An element with a text that is printable ASCII. -/
theorem constant (h : Xml.plain name = true)
    (hvalue : printable value = true) : Carries (elementPieces name value) [] :=
  (element h value).congr fun P hP => by
    have hall := of_printable hvalue
    simpa using fun c hc => hP c (hall c hc).1 (hall c hc).2

/-- An element with others. -/
theorem tree {attributes : List (CString × CString × CString)} (hname : Xml.plain name = true)
    (hattributes : Xml.plain (attributes.flatMap writeAttribute) = true)
    (h : Carries pieces strings) : Carries (treePieces name attributes pieces) strings :=
  ((markup (m := .start name attributes) (plain_append hname hattributes)).append
    (h.append (markup (m := .stop name) (plain_append (s := ['/']) (by decide) hname)))).congr
      fun P _ => by simp

/-- An element without attributes, with others. -/
theorem node (hname : Xml.plain name = true) (h : Carries pieces strings) :
    Carries (treePieces name [] pieces) strings :=
  tree hname rfl h

/-- Pieces whose texts are printable ASCII, under a condition. -/
theorem ite (h : Carries pieces []) (b : Bool) : Carries (piecesIf b pieces) [] := by
  cases b with
  | false => exact nil
  | true => exact h

/-- A string that is left out if it is empty. -/
theorem optional (h : Xml.plain name = true) (value : CString) :
    Carries (piecesIf (value ≠ []) (elementPieces name value)) [value] := by
  by_cases hnil : value = []
  · rw [hnil]
    exact nil.congr fun P _ => by simp
  · rw [piecesIf, if_pos (decide_eq_true hnil)]
    exact element h value

end Carries

/-- A text is printable if its parts are. -/
theorem printable_append (s t : CString) : printable (s ++ t) = (printable s && printable t) :=
  List.all_append

/-- Numbers are printable. -/
theorem printable_fmtNum (width n : ℕ) : printable (fmtNum width n) = true := by
  rw [printable, List.all_eq_true]
  intro c hc
  have hdigit := isDigit_of_mem_fmtNum hc
  simp only [Char.isDigit, Bool.and_eq_true, decide_eq_true_eq] at hdigit
  have hlow : 48 ≤ c.toNat := hdigit.1
  have hhigh : c.toNat ≤ 57 := hdigit.2
  rw [Bool.and_eq_true, decide_eq_true_eq, decide_eq_true_eq]
  omega

/-- Times are written with printable characters. -/
theorem printable_formatISO8601Date (ft : FileTime) :
    printable (formatISO8601Date ft true false) = true := by
  unfold formatISO8601Date
  split
  · rename_i st _
    have hms : printable ('.' :: fmtNum 3 st.wMilliseconds) = true := by
      rw [← List.singleton_append, printable_append, printable_fmtNum]
      rfl
    simp only [formatSystemTime, printable_append, printable_fmtNum, if_true, Bool.false_eq_true,
      if_false, hms]
    rfl
  · rfl

/-- The texts of the rights are printable. -/
theorem printable_getAclString (a : S3AclValues) : printable a.getAclString.toList = true := by
  obtain ⟨-, -, -, -, htexts⟩ := bodyTexts
  exact htexts a.getAclString (by cases a <;> simp [S3AclValues.getAclString])

/-- **A rule.** Its numbers, its date and its words are printable; the ID and the path are all that
comes from the caller. -/
theorem carries_rule (r : S3LifecycleRule) : Carries (rulePieces r) [r.sRuleID, r.sPath] := by
  obtain ⟨hnames, -, -, -, htexts⟩ := bodyTexts
  have hpath : Carries (elementPieces "Prefix".toList (withSlash r.sPath)) [r.sPath] :=
    (Carries.element (hnames "Prefix" (by simp)) _).congr fun P hP => by
      have hslash : P '/' := hP _ (by decide) (by decide)
      unfold withSlash
      split_ifs
      · simp only [List.forall_mem_singleton, List.forall_mem_append, hslash, and_true]
      · exact Iff.rfl
  have hstatus := Carries.constant (hnames "Status" (by simp))
    (htexts (if r.bEnabled then "Enabled" else "Disabled") (by cases r.bEnabled <;> simp))
  have hwhen : Carries
      (if r.ftDate ≠ 0 then elementPieces "Date".toList (formatISO8601Date r.ftDate true false)
        else piecesIf (r.dwDays ≠ 0) (elementPieces "Days".toList (fmtNum 0 r.dwDays))) [] := by
    split_ifs
    · exact Carries.constant (hnames "Date" (by simp)) (printable_formatISO8601Date _)
    · exact (Carries.constant (hnames "Days" (by simp)) (printable_fmtNum _ _)).ite _
  have hexpiration := (Carries.node (hnames "Expiration" (by simp))
    (hwhen.append ((Carries.constant (hnames "ExpiredObjectDeleteMarker" (by simp))
      (htexts "true" (by simp))).ite r.bExpiredDeleteMarkers))).ite
        (r.ftDate ≠ 0 || r.dwDays ≠ 0 || r.bExpiredDeleteMarkers)
  have hnoncurrent := (Carries.node (hnames "NoncurrentVersionExpiration" (by simp))
    (Carries.constant (hnames "NoncurrentDays" (by simp))
      (printable_fmtNum 0 r.dwNoncurrentDays))).ite (r.dwNoncurrentDays ≠ 0)
  have habort := (Carries.node (hnames "AbortIncompleteMultipartUpload" (by simp))
    (Carries.constant (hnames "DaysAfterInitiation" (by simp))
      (printable_fmtNum 0 r.dwAbortIncompleteMultipartUploadDays))).ite
        (r.dwAbortIncompleteMultipartUploadDays ≠ 0)
  exact Carries.node (hnames "Rule" (by simp))
    ((((((Carries.element (hnames "ID" (by simp)) r.sRuleID).append hpath).append hstatus).append
      hexpiration).append hnoncurrent).append habort)

/-- **What is written carries the strings of the caller.** The cases are the kinds of requests; each
body is put together of elements whose names and constant texts are in `bodyTexts`. -/
theorem carries_content (r : XmlRequest) : Carries r.content r.strings := by
  obtain ⟨hnames, -, hs3, huser, htexts⟩ := bodyTexts
  cases r with
  | deleteS3Send objects =>
      have hobject : ∀ e : S3DeleteEntry, Carries (objectPieces e) [e.sKey, e.sVersionId] :=
        fun e => Carries.node (hnames "Object" (by simp))
          ((Carries.element (hnames "Key" (by simp)) e.sKey).append
            (Carries.optional (hnames "VersionId" (by simp)) e.sVersionId))
      exact Carries.node (hnames "Delete" (by simp))
        ((Carries.constant (hnames "Quiet" (by simp)) (htexts "true" (by simp))).append
          (Carries.flatMap hobject objects))
  | writeACL acls =>
      have hgrant : ∀ e : AclEntry, Carries (grantPieces e) [e.sID] :=
        fun e => Carries.node (hnames "Grant" (by simp))
          ((Carries.tree (hnames "Grantee" (by simp)) huser
            (Carries.element (hnames "ID" (by simp)) e.sID)).append
              (Carries.constant (hnames "Permission" (by simp)) (printable_getAclString e.Acl)))
      exact Carries.tree (hnames "AccessControlPolicy" (by simp)) hs3
        ((Carries.node (hnames "Owner" (by simp))
          (Carries.constant (hnames "ID" (by simp)) rfl)).append
            (Carries.node (hnames "AccessControlList" (by simp))
              (Carries.flatMap hgrant acls)))
  | s3PutLifecycle rules =>
      exact Carries.node (hnames "LifecycleConfiguration" (by simp))
        (Carries.flatMap carries_rule rules)
  | s3MultiPartComplete parts =>
      have hpart : ∀ part : ℕ × CString, Carries (partPieces part) [part.2] :=
        fun part => Carries.node (hnames "Part" (by simp))
          ((Carries.constant (hnames "PartNumber" (by simp)) (printable_fmtNum 0 part.1)).append
            (Carries.element (hnames "ETag" (by simp)) part.2))
      exact Carries.node (hnames "CompleteMultipartUpload" (by simp))
        (Carries.flatMap hpart parts)
  | s3PutBucketVersioning bOn =>
      exact Carries.tree (hnames "VersioningConfiguration" (by simp)) hs3
        (Carries.constant (hnames "Status" (by simp))
          (htexts (if bOn then "Enabled" else "Suspended") (by cases bOn <;> simp)))
  | createS3Bucket sS3Region =>
      exact Carries.tree (hnames "CreateBucketConfiguration" (by simp)) hs3
        (Carries.element (hnames "LocationConstraint" (by simp)) sS3Region)
  | ecsAdminCreateUser sUser sNamespace sTags =>
      exact Carries.node (hnames "user_create_param" (by simp))
        (((Carries.element (hnames "user" (by simp)) sUser).append
          (Carries.element (hnames "namespace" (by simp)) sNamespace)).append
            (Carries.optional (hnames "tags" (by simp)) sTags))
  | ecsAdminCreateKeyForUser sNamespace sSecret =>
      exact Carries.node (hnames "user_secret_key_create" (by simp))
        (((Carries.constant (hnames "existing_key_expiry_time_mins" (by simp))
          (htexts "2" (by simp))).append
            (Carries.element (hnames "namespace" (by simp)) sNamespace)).append
              (Carries.element (hnames "secretkey" (by simp)) sSecret))

/-- **The pieces of each body carry the strings of its request.** In front of the content is the
declaration, which has no text. -/
theorem carries_pieces (r : XmlRequest) : Carries r.pieces r.strings :=
  (Carries.markup bodyTexts.2.1).append (carries_content r)

/-- `GetXml` recodes a text without the character 0. -/
theorem getXml_utf8 (page : CodePage) {s : CString} (h : ∀ c ∈ s, c.toNat ≠ 0) :
    getXml page (CodePage.utf8 s) = page.recode s := by
  have hall : ∀ b ∈ CodePage.utf8 s, decide (b ≠ 0) = true := fun b hb =>
    decide_eq_true fun h0 => CodePage.zero_notMem_utf8 h (h0 ▸ hb)
  rw [getXml, List.takeWhile_eq_self_iff.2 hall]
  rfl

/-- The writer's UTF-8 of a text without a `NUL` is its UTF-8. -/
theorem xmlUTF8_eq {s : CString} (h : ∀ c ∈ s, c.toNat ≠ 0) : xmlUTF8 s = CodePage.utf8 s := by
  have hchars : ∀ c ∈ s, decide (c.toNat ≠ 0) = true := fun c hc => decide_eq_true (h c hc)
  have hbytes : ∀ b ∈ CodePage.utf8 s, decide (b ≠ 0) = true := fun b hb =>
    decide_eq_true fun h0 => CodePage.zero_notMem_utf8 h (h0 ▸ hb)
  rw [xmlUTF8, List.takeWhile_eq_self_iff.2 hchars, List.takeWhile_eq_self_iff.2 hbytes]

/-- No character that a document can have is a `NUL`. -/
theorem ne_zero_of_isXmlChar {c : Char} (h : isXmlChar c = true) : c.toNat ≠ 0 := by
  intro h0
  have hc : c = Char.ofNat 0 := Char.toNat_inj.1 h0
  rw [hc] at h
  exact absurd h (by decide)

/-- **A request is received with its texts recoded.** The writer's UTF-8 is read in the code page
and made UTF-8 again, which the server decodes; and markups and escapes go through unchanged, as
they are ASCII. -/
theorem received_eq (page : CodePage) {r : XmlRequest}
    (h : ∀ s ∈ r.strings, ∀ c ∈ s, isXmlChar c = true) :
    r.received page =
      some (r.pieces.map fun p => (p.markup.write, page.recode p.text)) := by
  have hcarries := carries_pieces r
  have htexts : ∀ p ∈ r.pieces, ∀ c ∈ p.text, c.toNat ≠ 0 :=
    (hcarries.texts (fun c => c.toNat ≠ 0) fun c hc _ => by omega).2 fun s hs c hc =>
      ne_zero_of_isXmlChar (h s hs c hc)
  have hwrite := write_ne_zero hcarries.plain htexts
  have hplain : Plain (r.pieces.map (Piece.recode page)) := by
    intro p hp
    obtain ⟨q, hq, rfl⟩ := List.mem_map.1 hp
    exact hcarries.plain q hq
  rw [XmlRequest.received, XmlRequest.body, getXml_utf8 page hwrite,
    xmlUTF8_eq (page.recode_ne_zero hwrite), CodePage.decodeUtf8_utf8, Option.map_some,
    recode_write page hcarries.plain, parse_write hplain, List.map_map]
  rfl

/-- What is in an element is recoded, and no name or attribute. -/
theorem recode_treePieces (page : CodePage) (name : CString)
    (attributes : List (CString × CString × CString)) (pieces : List Piece) :
    (treePieces name attributes pieces).map (Piece.recode page) =
      treePieces name attributes (pieces.map (Piece.recode page)) := by
  unfold treePieces
  rw [List.cons_append, List.map_cons, List.map_append]
  rfl

/-- Pieces under a condition are recoded under it. -/
theorem recode_piecesIf (page : CodePage) (b : Bool) (pieces : List Piece) :
    (piecesIf b pieces).map (Piece.recode page) = piecesIf b (pieces.map (Piece.recode page)) := by
  cases b <;> rfl

/-- An object is recoded in its key and its version. -/
theorem recode_objectPieces (page : CodePage) (e : S3DeleteEntry) :
    (objectPieces e).map (Piece.recode page) = objectPieces (e.received page) := by
  have hnil : page.recode e.sVersionId = [] ↔ e.sVersionId = [] := by
    refine ⟨fun h => List.length_eq_zero_iff.1 (Nat.le_zero.1 ?_), fun h => by rw [h]; rfl⟩
    rw [← List.length_eq_zero_iff.2 h]
    exact page.length_le_recode e.sVersionId
  have hversion : decide ((e.received page).sVersionId ≠ []) = decide (e.sVersionId ≠ []) :=
    decide_eq_decide.2 (not_congr hnil)
  rw [objectPieces, recode_treePieces, List.map_append, recode_piecesIf, objectPieces, hversion]
  rfl

/-- **The objects of a bulk delete are read as `Post.received` has them.** An object has the element
of a version where it has one, before and after, as a text is recoded to none only if it is none. -/
theorem received_deleteS3Send (page : CodePage) (p : Post)
    (h : ∀ s ∈ (XmlRequest.deleteS3Send p.objects).strings, ∀ c ∈ s, isXmlChar c = true) :
    (XmlRequest.deleteS3Send p.objects).received page =
      some (XmlRequest.deleteS3Send (p.received page).objects).meant := by
  obtain ⟨-, -, -, -, htexts⟩ := bodyTexts
  have htrue : page.recode "true".toList = "true".toList :=
    (page.recode_eq_self_iff _).2 fun c hc => (of_printable (htexts "true" (by simp)) c hc).2
  have hquiet : (elementPieces "Quiet".toList "true".toList).map (Piece.recode page) =
      elementPieces "Quiet".toList "true".toList :=
    congrArg (elementPieces "Quiet".toList) htrue
  have hobjects : (p.objects.flatMap objectPieces).map (Piece.recode page) =
      (p.received page).objects.flatMap objectPieces := by
    rw [List.map_flatMap, Post.received, List.flatMap_map]
    exact List.flatMap_congr fun e _ => recode_objectPieces page e
  have hpieces : (XmlRequest.deleteS3Send p.objects).pieces.map (Piece.recode page) =
      (XmlRequest.deleteS3Send (p.received page).objects).pieces := by
    rw [XmlRequest.pieces, XmlRequest.content, documentPieces, List.map_cons, recode_treePieces,
      List.map_append, hquiet, hobjects]
    rfl
  rw [received_eq page h, XmlRequest.meant, ← hpieces, List.map_map]
  rfl

/-- **A request carries the strings of the caller** if and only if all of them are ASCII. The texts
that are not the caller's are ASCII anyway, and a text is the same when it is recoded just where it
is ASCII. -/
theorem body_carries (page : CodePage) (r : XmlRequest)
    (h : ∀ s ∈ r.strings, ∀ c ∈ s, isXmlChar c = true) :
    r.received page = some r.meant ↔ ∀ s ∈ r.strings, ∀ c ∈ s, c.toNat < 128 := by
  rw [received_eq page h, XmlRequest.meant, Option.some.injEq, List.map_inj_left,
    ← (carries_pieces r).texts (fun c => c.toNat < 128) fun _ _ => id]
  refine forall₂_congr fun p _ => ?_
  rw [Prod.mk.injEq, ← page.recode_eq_self_iff]
  exact and_iff_right rfl

/-- A key that is ASCII, and one that is not. -/
def asciiDelete : XmlRequest := .deleteS3Send [{ sKey := "a<b".toList }]

@[inherit_doc asciiDelete]
def accentDelete : XmlRequest := .deleteS3Send [{ sKey := "é".toList }]

/-- A key of ASCII characters comes through: the server reads what is meant. The `<` in it is
escaped and read back, which is not a matter of the code page. -/
theorem body_carries_ascii :
    asciiDelete.received CodePage.windows1252 = some asciiDelete.meant := by
  have hstrings : ∀ s ∈ asciiDelete.strings,
      s.all isXmlChar = true ∧ printable s = true := by decide +kernel
  exact (body_carries CodePage.windows1252 asciiDelete fun s hs =>
    List.all_eq_true.1 (hstrings s hs).1).2 fun s hs c hc =>
      (of_printable (hstrings s hs).2 c hc).2

/-- **Another object is deleted.** The two bytes of the letter are two characters of Windows-1252,
and the server looks for a key of these. -/
theorem accent_lost :
    (∀ s ∈ accentDelete.strings, ∀ c ∈ s, isXmlChar c = true) ∧
      accentDelete.received CodePage.windows1252 =
        some (XmlRequest.deleteS3Send [{ sKey := "Ã©".toList }]).meant ∧
      some (XmlRequest.deleteS3Send [{ sKey := "Ã©".toList }]).meant ≠ some accentDelete.meant := by
  have hall : ∀ s ∈ accentDelete.strings, s.all isXmlChar = true := by decide +kernel
  have hchars : ∀ s ∈ accentDelete.strings, ∀ c ∈ s, isXmlChar c = true := fun s hs =>
    List.all_eq_true.1 (hall s hs)
  refine ⟨hchars, ?_, by decide +kernel⟩
  rw [received_eq _ hchars]
  decide +kernel

/-- The policy that is read back in `readACL_writeACL` is the one that is written here. -/
theorem writeACL_eq (acls : List AclEntry) :
    writeACL acls = document (piecesNodes (XmlRequest.writeACL acls).content) := by
  have hgrant : ∀ e : AclEntry, piecesNodes (grantPieces e) = writeGrant e := by
    intro e
    simp only [grantPieces, piecesNodes_treePieces, piecesNodes_append, piecesNodes_elementPieces]
    rfl
  have hgrants : piecesNodes (acls.flatMap grantPieces) = acls.flatMap writeGrant := by
    rw [piecesNodes, List.flatMap_assoc]
    exact List.flatMap_congr fun e _ => hgrant e
  simp only [XmlRequest.content, piecesNodes_treePieces, piecesNodes_append,
    piecesNodes_elementPieces, hgrants]
  rfl

/-- The configuration that is read back in `s3GetLifecycle_s3PutLifecycle` is the one that is written
here. -/
theorem s3PutLifecycle_eq (rules : List S3LifecycleRule) :
    s3PutLifecycle rules = document (piecesNodes (XmlRequest.s3PutLifecycle rules).content) := by
  have hif : ∀ (b : Bool) (pieces : List Piece),
      piecesNodes (piecesIf b pieces) = writeIf b (piecesNodes pieces) := by
    intro b pieces
    cases b <;> rfl
  have hrule : ∀ r : S3LifecycleRule, piecesNodes (rulePieces r) = writeRule r := by
    intro r
    simp only [rulePieces, piecesNodes_treePieces, piecesNodes_append, piecesNodes_elementPieces,
      hif, apply_ite piecesNodes]
    rfl
  have hrules : piecesNodes (rules.flatMap rulePieces) = rules.flatMap writeRule := by
    rw [piecesNodes, List.flatMap_assoc]
    exact List.flatMap_congr fun r _ => hrule r
  simp only [XmlRequest.content, piecesNodes_treePieces, hrules]
  rfl

end Body
end ECSUtil

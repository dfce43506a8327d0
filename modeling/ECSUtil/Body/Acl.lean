/-
# Access control lists

`E_S3_ACL_VALUES`, `ACL_ENTRY` (`ECSUtil/ECSConnection.h`), `TranslateACLText`,
`XmlS3AclContext_CB`, and the scan of `ReadACL` and the body of `WriteACL`
(`ECSUtil/ECSConnection.cpp`), whose calls of the XML writer succeed.

`WriteACL` writes every grantee as a user with an ID, so a group is read back as a user
(`writeACL_readACL`).

A document is read by the events of its elements: `next_text`, `next_endElement` and `next_element`
say what the callback does with each kind of event, and `reads_grant` and `reads_grants` what it so
makes of one grant and of a list of them.  A text that is only white space is no event (`blank`).
-/

import Mathlib.Data.List.Basic
import Mathlib.Data.List.Infix
import Mathlib.Logic.Basic
import ECSUtil.Xml.Errors
import ECSUtil.Xml.Writer

namespace ECSUtil
namespace Body

open Xml

/-- `E_S3_ACL_VALUES`. -/
inductive S3AclValues
  | invalid
  | none
  | read
  | write
  | fullControl
  | readAcp
  | writeAcp
  deriving DecidableEq, Repr

/-- `ACL_ENTRY`. -/
structure AclEntry where
  sID : CString := []
  sDisplayName : CString := []
  Acl : S3AclValues := .invalid
  bGroup : Bool := false
  deriving DecidableEq, Repr

/-- `GetAclString`. -/
def S3AclValues.getAclString : S3AclValues → String
  | .none => "NONE"
  | .read => "READ"
  | .write => "WRITE"
  | .fullControl => "FULL_CONTROL"
  | .readAcp => "READ_ACP"
  | .writeAcp => "WRITE_ACP"
  | .invalid => "INVALID"

/-- `TranslateACLText`. -/
def translateACLText (pszEntry : CString) : S3AclValues :=
  let sValue := ((pszEntry.dropWhile Char.isWhitespace).reverse.dropWhile Char.isWhitespace).reverse
  (findPath
    [("NONE", S3AclValues.none), ("READ", .read), ("WRITE", .write), ("FULL_CONTROL", .fullControl),
      ("READ_ACP", .readAcp), ("WRITE_ACP", .writeAcp)] sValue).getD .invalid

/-- `XML_S3_ACL_CONTEXT`, with the list that it points to. -/
structure XmlS3AclContext where
  acls : List AclEntry := []
  Rec : AclEntry := {}
  sOwner : CString := []
  sDisplayName : CString := []
  bCanonicalUser : Bool := false
  bGroup : Bool := false
  deriving DecidableEq, Repr

/-- The texts that the callback takes from a policy. -/
inductive AclField
  | owner
  | ownerDisplayName
  | granteeId
  | granteeUri
  | granteeDisplayName
  | permission
  deriving DecidableEq, Repr

/-- Their paths, in the order they are looked at. -/
def aclTexts : List (String × AclField) :=
  [("//AccessControlPolicy/Owner/ID", .owner),
    ("//AccessControlPolicy/Owner/DisplayName", .ownerDisplayName),
    ("//AccessControlPolicy/AccessControlList/Grant/Grantee/ID", .granteeId),
    ("//AccessControlPolicy/AccessControlList/Grant/Grantee/URI", .granteeUri),
    ("//AccessControlPolicy/AccessControlList/Grant/Grantee/DisplayName", .granteeDisplayName),
    ("//AccessControlPolicy/AccessControlList/Grant/Permission", .permission)]

namespace XmlS3AclContext

/-- A text. -/
def text (c : XmlS3AclContext) (value : CString) : AclField → XmlS3AclContext
  | .owner => { c with sOwner := value }
  | .ownerDisplayName => { c with sDisplayName := value }
  | .granteeId => { c with Rec := { c.Rec with sID := value } }
  | .granteeUri => { c with Rec := { c.Rec with sID := value } }
  | .granteeDisplayName => { c with Rec := { c.Rec with sDisplayName := value } }
  | .permission => { c with Rec := { c.Rec with Acl := translateACLText value } }

/-- The end of a grant. -/
def endGrant (c : XmlS3AclContext) : XmlS3AclContext :=
  if c.Rec.sID ≠ [] then
    { c with acls := c.acls ++ [{ c.Rec with bGroup := c.bGroup }], Rec := {} }
  else { c with Rec := {} }

/-- What an attribute tells of the kind of a grantee. -/
def grantee (c : XmlS3AclContext) (a : CString × CString) : XmlS3AclContext :=
  if "type".toList <:+: a.1 then
    if compareNoCase a.2 "CanonicalUser".toList then { c with bCanonicalUser := true }
    else if compareNoCase a.2 "Group".toList then { c with bGroup := true }
    else c
  else c

end XmlS3AclContext

/-- `XML_S3_ACL_OWNER_GRANT_ELEMENT`, and that of a grantee. -/
def grantElement : CString := "//AccessControlPolicy/AccessControlList/Grant".toList

@[inherit_doc grantElement]
def granteeElement : CString := "//AccessControlPolicy/AccessControlList/Grant/Grantee".toList

/-- `XmlS3AclContext_CB`. -/
def xmlS3AclContextCB : Callback XmlS3AclContext := fun sXmlPath e c =>
  match e with
  | .text value =>
      if value ≠ [] then (0, ((findPath aclTexts sXmlPath).map (c.text value)).getD c) else (0, c)
  | .endElement => if compareNoCase sXmlPath grantElement then (0, c.endGrant) else (0, c)
  | .element attrList =>
      if compareNoCase sXmlPath granteeElement then
        (0, attrList.foldl XmlS3AclContext.grantee
          { c with bCanonicalUser := false, bGroup := false })
      else (0, c)

/-- `ReadACL`, after its request: its error, and the list. -/
def readACL (reply : Reply) (acls : List AclEntry) : S3Error × List AclEntry :=
  if reply.error.ifError then (reply.error, acls)
  else
    let r := scanXmlStream xmlS3AclContextCB reply.reading {}
    ((Test.failed.leaves r.1).getD reply.error, r.2.acls)

/-- A grant, as `WriteACL` writes it. -/
def writeGrant (e : AclEntry) : List Node :=
  tree "Grant".toList
    (treeWith "Grantee".toList
        [("xmlns".toList, "xsi".toList, "http://www.w3.org/2001/XMLSchema-instance".toList),
          ("xsi".toList, "type".toList, "CanonicalUser".toList)]
        (writeElement "ID".toList e.sID) ++
      writeElement "Permission".toList e.Acl.getAclString.toList)

/-- The body of `WriteACL`.  The owner of the new `S3_SERVICE_INFO` is empty. -/
def writeACL (acls : List AclEntry) : Reading :=
  document
    (treeWith "AccessControlPolicy".toList
      [([], "xmlns".toList, "http://s3.amazonaws.com/doc/2006-03-01/".toList)]
      (tree "Owner".toList (writeElement "ID".toList []) ++
        tree "AccessControlList".toList (acls.flatMap writeGrant)))

/-- No error of the callback is a failing `HRESULT`, so a scan goes to the end of a document. -/
theorem xmlS3AclContextCB_harmless : Callback.Harmless xmlS3AclContextCB := by
  intro p e c
  cases e with
  | text value =>
      simp only [xmlS3AclContextCB]
      split_ifs <;> rfl
  | _ =>
      simp only [xmlS3AclContextCB]
      split_ifs <;> rfl

/-- The text of a value is translated back. -/
theorem translateACLText_getAclString (a : S3AclValues) :
    translateACLText a.getAclString.toList = a := by
  cases a <;> decide +kernel

section

variable {stack : List CString} {name : CString} {nodes : List Node}
  {f : XmlS3AclContext → XmlS3AclContext}

/-- A text goes where its path says, and is passed over if it is empty or at no path of the table. -/
theorem next_text (value : CString) (c : XmlS3AclContext) :
    xmlS3AclContextCB.next stack (.text value) c =
      if value = [] then c else ((findPath aclTexts (path stack)).map (c.text value)).getD c := by
  simp only [Callback.next, xmlS3AclContextCB, ne_eq, ite_not]
  split_ifs <;> rfl

/-- The end of a grant puts it in the list; the end of another element does nothing. -/
theorem next_endElement (c : XmlS3AclContext) :
    xmlS3AclContextCB.next stack .endElement c =
      if compareNoCase (path stack) grantElement then c.endGrant else c := by
  simp only [Callback.next, xmlS3AclContextCB]
  split_ifs <;> rfl

/-- The start of a grantee takes its kind from the attributes; that of another element does nothing. -/
theorem next_element (attrList : List (CString × CString)) (c : XmlS3AclContext) :
    xmlS3AclContextCB.next stack (.element attrList) c =
      if compareNoCase (path stack) granteeElement then
        attrList.foldl XmlS3AclContext.grantee { c with bCanonicalUser := false, bGroup := false }
      else c := by
  simp only [Callback.next, xmlS3AclContextCB]
  split_ifs <;> rfl

/-- An element with a text that is taken. -/
theorem reads_text (stack : List CString) (name value : CString) (field : AclField)
    (hgrant : compareNoCase (path (stack ++ [name])) grantElement = false)
    (hgrantee : compareNoCase (path (stack ++ [name])) granteeElement = false)
    (hfield : findPath aclTexts (path (stack ++ [name])) = some field) :
    Reads xmlS3AclContextCB stack (writeElement name value) fun c =>
      if blank value then c else c.text value field := by
  refine (Reads.writeElement xmlS3AclContextCB_harmless name value).congr fun c => ?_
  simp only [Function.comp_apply, next_endElement, next_element, hgrant, hgrantee,
    Bool.false_eq_true, if_false]
  by_cases hblank : blank value = true
  · rw [if_pos hblank, if_pos hblank]
    rfl
  · have hne : value ≠ [] := fun h => hblank (h ▸ rfl)
    rw [if_neg hblank, if_neg hblank, next_text, if_neg hne, hfield]
    rfl

/-- An element of which only what it holds counts. -/
theorem reads_plain (stack : List CString) (name : CString)
    (attributes : List (CString × CString × CString))
    (hgrant : compareNoCase (path (stack ++ [name])) grantElement = false)
    (hgrantee : compareNoCase (path (stack ++ [name])) granteeElement = false)
    (h : Reads xmlS3AclContextCB (stack ++ [name]) nodes f) :
    Reads xmlS3AclContextCB stack (treeWith name attributes nodes) f := by
  refine (Reads.treeWith xmlS3AclContextCB_harmless attributes h).congr fun c => ?_
  simp only [Function.comp_apply, next_endElement, next_element, hgrant, hgrantee,
    Bool.false_eq_true, if_false]

/-- The elements of the list of grants, of a grant, and of a grantee. -/
def inList : List CString := ["AccessControlPolicy".toList, "AccessControlList".toList]

@[inherit_doc inList]
def inGrant : List CString := inList ++ ["Grant".toList]

@[inherit_doc inList]
def inGrantee : List CString := inGrant ++ ["Grantee".toList]

/-- The element of the owner. -/
def inOwner : List CString := ["AccessControlPolicy".toList, "Owner".toList]

/-- How the paths of a policy compare. -/
theorem aclPaths :
    (∀ stack ∈ [["AccessControlPolicy".toList], inOwner, inList, inOwner ++ ["ID".toList],
        inGrantee ++ ["ID".toList], inGrant ++ ["Permission".toList]],
      compareNoCase (path stack) grantElement = false ∧
        compareNoCase (path stack) granteeElement = false) ∧
      (compareNoCase (path inGrant) grantElement = true ∧
        compareNoCase (path inGrant) granteeElement = false) ∧
      (compareNoCase (path inGrantee) grantElement = false ∧
        compareNoCase (path inGrantee) granteeElement = true) ∧
      findPath aclTexts (path (inOwner ++ ["ID".toList])) = some .owner ∧
      findPath aclTexts (path (inGrantee ++ ["ID".toList])) = some .granteeId ∧
      findPath aclTexts (path (inGrant ++ ["Permission".toList])) = some .permission := by
  decide +kernel

/-- What a grant is read back as. -/
def readGrant (e : AclEntry) : Option AclEntry :=
  if blank e.sID then none else some { sID := e.sID, Acl := e.Acl }

/-- No value is read as white space. -/
theorem blank_getAclString (a : S3AclValues) : blank a.getAclString.toList = false := by
  cases a <;> decide +kernel

/-- The attributes of every grantee that is written. -/
def userAttributes : List (CString × CString × CString) :=
  [("xmlns".toList, "xsi".toList, "http://www.w3.org/2001/XMLSchema-instance".toList),
    ("xsi".toList, "type".toList, "CanonicalUser".toList)]

/-- An attribute that does not tell a type is passed over. -/
theorem grantee_other {c : XmlS3AclContext} {a : CString × CString}
    (h : ¬"type".toList <:+: a.1) : c.grantee a = c := if_neg h

/-- An attribute that tells a canonical user makes the grantee one. -/
theorem grantee_user {c : XmlS3AclContext} {a : CString × CString} (h : "type".toList <:+: a.1)
    (huser : compareNoCase a.2 "CanonicalUser".toList = true) :
    c.grantee a = { c with bCanonicalUser := true } := by
  unfold XmlS3AclContext.grantee
  rw [if_pos h, if_pos huser]

/-- They are those of a user. -/
theorem foldl_userAttributes (c : XmlS3AclContext) :
    (userAttributes.map fun a => (qualified a.1 a.2.1, a.2.2)).foldl XmlS3AclContext.grantee c =
      { c with bCanonicalUser := true } := by
  have hother : ¬"type".toList <:+: qualified "xmlns".toList "xsi".toList := by decide +kernel
  have htype : "type".toList <:+: qualified "xsi".toList "type".toList := by decide +kernel
  rw [userAttributes, List.map_cons, List.map_cons, List.map_nil, List.foldl_cons, List.foldl_cons,
    List.foldl_nil, grantee_user htype (compareNoCase_self _), grantee_other hother]

/-- **A grant is read back** as one of a user. The attribute of the grantee is read for what kind it
is, and the ID is taken from the element; the rights are read by their name. -/
theorem reads_grant (e : AclEntry) :
    ∃ f, Reads xmlS3AclContextCB inList (writeGrant e) f ∧ ∀ c, c.Rec = {} →
      (f c).Rec = {} ∧ (f c).acls = c.acls ++ (readGrant e).toList := by
  obtain ⟨hplain, ⟨h₁, h₂⟩, ⟨h₃, h₄⟩, -, hidField, hpermissionField⟩ := aclPaths
  obtain ⟨hid₁, hid₂⟩ := hplain (inGrantee ++ ["ID".toList]) (by simp)
  obtain ⟨hpermission₁, hpermission₂⟩ := hplain (inGrant ++ ["Permission".toList]) (by simp)
  have hid := reads_text inGrantee "ID".toList e.sID .granteeId hid₁ hid₂ hidField
  have hpermission := reads_text inGrant "Permission".toList e.Acl.getAclString.toList .permission
    hpermission₁ hpermission₂ hpermissionField
  have hgrant := Reads.tree xmlS3AclContextCB_harmless
    ((Reads.treeWith xmlS3AclContextCB_harmless userAttributes hid).append hpermission)
  refine ⟨_, hgrant, fun c hc => ?_⟩
  simp only [Function.comp_apply, next_endElement, next_element]
  rw [show inList ++ ["Grant".toList] = inGrant from rfl,
    show inGrant ++ ["Grantee".toList] = inGrantee from rfl, h₁, h₂, h₃, h₄]
  simp only [if_true, Bool.false_eq_true, if_false, foldl_userAttributes, blank_getAclString,
    XmlS3AclContext.text, translateACLText_getAclString]
  unfold readGrant XmlS3AclContext.endGrant
  by_cases hblank : blank e.sID = true
  · simp [hblank, hc]
  · have hne : e.sID ≠ [] := fun h => hblank (h ▸ rfl)
    simp [hblank, hne, hc]

/-- **A list of grants.** Each begins with an empty record, which the end of the grant before it has
left. -/
theorem reads_grants (acls : List AclEntry) :
    ∃ f, Reads xmlS3AclContextCB inList (acls.flatMap writeGrant) f ∧ ∀ c, c.Rec = {} →
      (f c).Rec = {} ∧ (f c).acls = c.acls ++ acls.filterMap readGrant := by
  induction acls with
  | nil => exact ⟨id, Reads.nil, fun c hc => ⟨hc, (List.append_nil _).symm⟩⟩
  | cons e l ih =>
      obtain ⟨f, hf, hacls⟩ := reads_grant e
      obtain ⟨g, hg, hrest⟩ := ih
      refine ⟨g ∘ f, hf.append hg, fun c hc => ?_⟩
      obtain ⟨hrec, he⟩ := hacls c hc
      obtain ⟨hrec', hl⟩ := hrest (f c) hrec
      refine ⟨hrec', ?_⟩
      rw [Function.comp_apply, hl, he, List.append_assoc]
      cases hr : readGrant e with
      | none => rw [List.filterMap_cons_none hr, Option.toList_none, List.nil_append]
      | some e' => rw [List.filterMap_cons_some hr, Option.toList_some, List.singleton_append]

/-- **A policy is read back** without an error. What comes back is `readGrant` of each entry that
was written, in order, which drops the flag of a group and an ID of white space. -/
theorem readACL_writeACL (acls : List AclEntry) :
    readACL { reading := writeACL acls } [] = ({}, acls.filterMap readGrant) := by
  obtain ⟨hplain, -, -, hownerField, -, -⟩ := aclPaths
  obtain ⟨hroot₁, hroot₂⟩ := hplain ["AccessControlPolicy".toList] (by simp)
  obtain ⟨howner₁, howner₂⟩ := hplain inOwner (by simp)
  obtain ⟨hlist₁, hlist₂⟩ := hplain inList (by simp)
  obtain ⟨hid₁, hid₂⟩ := hplain (inOwner ++ ["ID".toList]) (by simp)
  obtain ⟨f, hf, hacls⟩ := reads_grants acls
  have hid := reads_text inOwner "ID".toList [] .owner hid₁ hid₂ hownerField
  have howner := reads_plain ["AccessControlPolicy".toList] "Owner".toList [] howner₁ howner₂ hid
  have hlist := reads_plain ["AccessControlPolicy".toList] "AccessControlList".toList [] hlist₁
    hlist₂ hf
  have hroot := reads_plain [] "AccessControlPolicy".toList
    [([], "xmlns".toList, "http://s3.amazonaws.com/doc/2006-03-01/".toList)] hroot₁ hroot₂
    (howner.append hlist)
  have hscan : scanXmlStream xmlS3AclContextCB (writeACL acls) {} = _ := hroot.document {}
  unfold readACL
  rw [if_neg (show ¬({} : S3Error).ifError = true from Bool.false_ne_true)]
  dsimp only
  rw [hscan]
  exact Prod.ext rfl (hacls _ rfl).2

/-- What a list grants. -/
def grants (acls : List AclEntry) : List (CString × S3AclValues × Bool) :=
  acls.map fun e => (e.sID, e.Acl, e.bGroup)

/-- **A list of grants is read back as it was written** if and only if all of them are to users, and no
ID is only white space. -/
theorem writeACL_readACL (acls : List AclEntry) :
    (readACL { reading := writeACL acls } []).1.ifError = false ∧
      (grants (readACL { reading := writeACL acls } []).2 = grants acls ↔
        ∀ e ∈ acls, e.bGroup = false ∧ blank e.sID = false) := by
  rw [readACL_writeACL]
  refine ⟨rfl, ?_⟩
  dsimp only
  rw [grants, List.map_filterMap, grants, List.filterMap_eq_map_iff_forall_eq_some]
  refine forall₂_congr fun e _ => ?_
  unfold readGrant
  cases blank e.sID <;> cases e.bGroup <;> simp

/-- A grant to a group. -/
def groupGrant : AclEntry where
  sID := "AllUsers".toList
  Acl := .read
  bGroup := true

/-- **A grant to a group becomes one to a user.** `WriteACL` writes the same kind for every grantee,
and reads the flag of the group nowhere. -/
theorem group_lost :
    grants (readACL { reading := writeACL [groupGrant] } []).2 =
      [(groupGrant.sID, .read, false)] ∧
      grants [groupGrant] = [(groupGrant.sID, .read, true)] := by
  have hgrant : readGrant groupGrant = some { sID := groupGrant.sID, Acl := .read } := by
    decide +kernel
  rw [readACL_writeACL, List.filterMap_cons_some hgrant, List.filterMap_nil]
  exact ⟨rfl, rfl⟩

end

end Body
end ECSUtil

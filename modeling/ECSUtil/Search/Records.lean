/-
# The records of a search

`XML_S3_SEARCH_MD_CONTEXT` and `XmlS3SearchMDCB` (`ECSUtil/ECSConnection.cpp`), and what an object match, or a
`DIR_ENTRY` of a listing, has from the elements before its own.

Of the records of a search, the start of an object empties all but `sVersionId`; the two others are
emptied where their elements start.

Two contexts are compared before and behind an element, by what an object is to become (`Agree`):
each text and each end of an element keeps what they agree on, and adds what it sets.
-/

import ECSUtil.Listing.Records

namespace ECSUtil
namespace Search

open Xml

/-- `E_MD_SEARCH_FIELD`. -/
inductive MdSearchField
  | unknown
  | sysMD
  | userMD
  deriving DecidableEq, Repr

/-- `S3_METADATA_SEARCH_RESULT_MD_MAP`. -/
structure ResultMdMap where
  sKey : CString := []
  sValue : CString := []
  deriving DecidableEq, Repr

/-- `S3_METADATA_SEARCH_RESULT_QUERY_MD`. -/
structure ResultQueryMD where
  fieldType : MdSearchField := .unknown
  mdMapList : List ResultMdMap := []
  deriving DecidableEq, Repr

/-- `S3_METADATA_SEARCH_RESULT_OBJECT_MATCH`. -/
@[ext] structure ResultObjectMatch where
  sObjectName : CString := []
  sObjectId : CString := []
  sVersionId : CString := []
  queryMDList : List ResultQueryMD := []
  deriving DecidableEq, Repr

/-- `XML_S3_SEARCH_MD_CONTEXT`, with the result that it points to. -/
structure XmlS3SearchMDContext where
  sBucket : CString := []
  objectMatchList : List ResultObjectMatch := []
  sMarker : CString := []
  bIsTruncated : Bool := false
  objectRec : ResultObjectMatch := {}
  queryMDRec : ResultQueryMD := {}
  mdMapRec : ResultMdMap := {}
  deriving DecidableEq, Repr

/-- The texts that the callback takes from a reply. -/
inductive Field
  | name
  | nextMarker
  | isTruncated
  | objectName
  | objectId
  | versionId
  | queryMdsType
  | mdMapKey
  | mdMapValue
  deriving DecidableEq, Repr

/-- The paths of the texts, in the order they are looked at. -/
def texts : List (CString × Field) :=
  [("//BucketQueryResult/Name".toList, .name),
    ("//BucketQueryResult/NextMarker".toList, .nextMarker),
    ("//BucketQueryResult/IsTruncated".toList, .isTruncated),
    ("//BucketQueryResult/ObjectMatches/object/objectName".toList, .objectName),
    ("//BucketQueryResult/ObjectMatches/object/objectId".toList, .objectId),
    ("//BucketQueryResult/ObjectMatches/object/versionId".toList, .versionId),
    ("//BucketQueryResult/ObjectMatches/object/queryMds/type".toList, .queryMdsType),
    ("//BucketQueryResult/ObjectMatches/object/queryMds/mdMap/entry/key".toList, .mdMapKey),
    ("//BucketQueryResult/ObjectMatches/object/queryMds/mdMap/entry/value".toList, .mdMapValue)]

/-- `XML_S3_SEARCH_MD_OBJECT`. -/
def objectPath : CString := "//BucketQueryResult/ObjectMatches/object".toList

/-- `XML_S3_SEARCH_MD_OBJECT_QUERYMDS`. -/
def queryMdsPath : CString := "//BucketQueryResult/ObjectMatches/object/queryMds".toList

/-- `XML_S3_SEARCH_MD_OBJECT_QUERYMDS_MDMAP`. -/
def mdMapPath : CString := "//BucketQueryResult/ObjectMatches/object/queryMds/mdMap/entry".toList

/-- A path of some texts. -/
def field (sXmlPath : CString) : Option Field :=
  (texts.find? fun t => compareNoCase sXmlPath t.1).map Prod.snd

/-- A text of the reply. -/
def text (c : XmlS3SearchMDContext) (value : CString) : Field → XmlS3SearchMDContext
  | .name => { c with sBucket := value }
  | .nextMarker => { c with sMarker := value }
  | .isTruncated => { c with bIsTruncated := !compareNoCase value "false".toList }
  | .objectName => { c with objectRec := { c.objectRec with sObjectName := value } }
  | .objectId => { c with objectRec := { c.objectRec with sObjectId := value } }
  | .versionId => { c with objectRec := { c.objectRec with sVersionId := value } }
  | .queryMdsType =>
      if compareNoCase value "SYSMD".toList then
        { c with queryMDRec := { c.queryMDRec with fieldType := .sysMD } }
      else if compareNoCase value "USERMD".toList then
        { c with queryMDRec := { c.queryMDRec with fieldType := .userMD } }
      else c
  | .mdMapKey => { c with mdMapRec := { c.mdMapRec with sKey := value } }
  | .mdMapValue => { c with mdMapRec := { c.mdMapRec with sValue := value } }

/-- The start of an element. -/
def startElement (sXmlPath : CString) (c : XmlS3SearchMDContext) : XmlS3SearchMDContext :=
  if compareNoCase sXmlPath objectPath then
    { c with objectRec := { c.objectRec with sObjectId := [], sObjectName := [], queryMDList := [] } }
  else if compareNoCase sXmlPath queryMdsPath then
    { c with queryMDRec := { fieldType := .unknown, mdMapList := [] } }
  else if compareNoCase sXmlPath mdMapPath then { c with mdMapRec := { sKey := [], sValue := [] } }
  else c

/-- The end of an element. -/
def endElement (sXmlPath : CString) (c : XmlS3SearchMDContext) : XmlS3SearchMDContext :=
  if compareNoCase sXmlPath objectPath then
    { c with objectMatchList := c.objectMatchList ++ [c.objectRec] }
  else if compareNoCase sXmlPath queryMdsPath then
    { c with objectRec :=
        { c.objectRec with queryMDList := c.objectRec.queryMDList ++ [c.queryMDRec] } }
  else if compareNoCase sXmlPath mdMapPath then
    { c with queryMDRec :=
        { c.queryMDRec with mdMapList := c.queryMDRec.mdMapList ++ [c.mdMapRec] } }
  else c

/-- `XmlS3SearchMDCB`. -/
def xmlS3SearchMDCB : Callback XmlS3SearchMDContext := fun sXmlPath e c =>
  match e with
  | .text value =>
      match field sXmlPath with
      | some f => (0, text c value f)
      | none => (0, c)
  | .element _ => (0, startElement sXmlPath c)
  | .endElement => (0, endElement sXmlPath c)

/-- What is appended to the matches while some events are told. -/
def appended (es : List Told) (c : XmlS3SearchMDContext) : List ResultObjectMatch :=
  (xmlS3SearchMDCB.tell es c).objectMatchList.drop c.objectMatchList.length

/-- The version id that an event gives. -/
def versionText (e : Told) : Option CString :=
  match e.2 with
  | .text value => if field (path e.1) = some .versionId then some value else none
  | _ => none

/-- The last version id that some events give. -/
def lastVersionId (es : List Told) : CString := ((es.filterMap versionText).getLast?).getD []

/-- Two contexts agree on what an object is to become: on the other two records where `q` and `m`, on the
version id where `v`. -/
structure Agree (q m v : Prop) (c c' : XmlS3SearchMDContext) : Prop where
  name : c.objectRec.sObjectName = c'.objectRec.sObjectName
  id : c.objectRec.sObjectId = c'.objectRec.sObjectId
  list : c.objectRec.queryMDList = c'.objectRec.queryMDList
  query : q → c.queryMDRec = c'.queryMDRec
  map : m → c.mdMapRec = c'.mdMapRec
  version : v → c.objectRec.sVersionId = c'.objectRec.sVersionId

section

variable {q m v : Prop} {c c' : XmlS3SearchMDContext}

/-- Contexts that agree on more agree on less. -/
theorem Agree.weaken {q' m' v' : Prop} (h : Agree q m v c c') (hq : q' → q) (hm : m' → m)
    (hv : v' → v) : Agree q' m' v' c c' :=
  ⟨h.name, h.id, h.list, fun h' => h.query (hq h'), fun h' => h.map (hm h'),
    fun h' => h.version (hv h')⟩

/-- **A text keeps the agreement**, and a version id is agreed on then. The field that is set
becomes that of both; a text of another element is ignored in both. -/
theorem Agree.text (h : Agree q m v c c') (value : CString) (f : Field) :
    Agree q m (v ∨ f = .versionId) (text c value f) (text c' value f) := by
  have hv : f ≠ .versionId → (v ∨ f = .versionId) → v := fun hne hor => hor.resolve_right hne
  cases f with
  | versionId => exact ⟨h.name, h.id, h.list, h.query, h.map, fun _ => rfl⟩
  | objectName =>
      exact ⟨rfl, h.id, h.list, h.query, h.map, fun h' => h.version (hv (by decide) h')⟩
  | objectId =>
      exact ⟨h.name, rfl, h.list, h.query, h.map, fun h' => h.version (hv (by decide) h')⟩
  | mdMapKey =>
      refine ⟨h.name, h.id, h.list, h.query, fun hm => ?_, fun h' => h.version (hv (by decide) h')⟩
      show { c.mdMapRec with sKey := value } = { c'.mdMapRec with sKey := value }
      rw [h.map hm]
  | mdMapValue =>
      refine ⟨h.name, h.id, h.list, h.query, fun hm => ?_, fun h' => h.version (hv (by decide) h')⟩
      show { c.mdMapRec with sValue := value } = { c'.mdMapRec with sValue := value }
      rw [h.map hm]
  | queryMdsType =>
      have h := h.weaken (fun h => h) (fun h => h) (hv (by decide))
      generalize (v ∨ Field.queryMdsType = .versionId) = v' at h ⊢
      unfold Search.text
      dsimp only
      split_ifs
      · refine ⟨h.name, h.id, h.list, fun hq => ?_, h.map, h.version⟩
        show { c.queryMDRec with fieldType := .sysMD } = { c'.queryMDRec with fieldType := .sysMD }
        rw [h.query hq]
      · refine ⟨h.name, h.id, h.list, fun hq => ?_, h.map, h.version⟩
        show { c.queryMDRec with fieldType := .userMD } = { c'.queryMDRec with fieldType := .userMD }
        rw [h.query hq]
      · exact h
  | name | nextMarker | isTruncated =>
      exact ⟨h.name, h.id, h.list, h.query, h.map, fun h' => h.version (hv (by decide) h')⟩

/-- **An element other than an object**: from its start to its end the record that it fills is agreed on. -/
theorem Agree.element (p : CString) (hp : compareNoCase p objectPath = false) (h : Agree q m v c c') :
    ∃ q₁ m₁ : Prop, (q → q₁) ∧ (m → m₁) ∧ Agree q₁ m₁ v (startElement p c) (startElement p c') ∧
      ∀ {v : Prop} {c c'}, Agree q₁ m₁ v c c' → Agree q₁ m₁ v (endElement p c) (endElement p c') := by
  unfold startElement endElement
  simp only [hp, Bool.false_eq_true, if_false]
  split_ifs
  · refine ⟨True, m, fun _ => trivial, fun h => h, ⟨h.name, h.id, h.list, fun _ => rfl, h.map,
      h.version⟩, fun h => ⟨h.name, h.id, ?_, h.query, h.map, h.version⟩⟩
    dsimp only
    rw [h.list, h.query trivial]
  · refine ⟨q, True, fun h => h, fun _ => trivial, ⟨h.name, h.id, h.list, h.query, fun _ => rfl,
      h.version⟩, fun h => ⟨h.name, h.id, h.list, fun hq => ?_, h.map, h.version⟩⟩
    dsimp only
    rw [h.query hq, h.map trivial]
  · exact ⟨q, m, fun h => h, fun h => h, h, fun h => h⟩

/-- A path that is deeper is not that of an object. -/
theorem not_object {p : CString} (h : 4 < slashes p) : compareNoCase p objectPath = false := by
  rw [Bool.eq_false_iff]
  intro heq
  rw [slashes_eq heq] at h
  exact absurd h (by decide)

/-- **What is inside of an object** keeps the agreement. The induction is on what the object has
inside; none of its elements is an object. -/
theorem Agree.tell (d : Content) {stack : List CString} (hstack : 4 ≤ slashes (path stack))
    (h : Agree q m v c c') :
    Agree q m (v ∨ (d.told stack).filterMap versionText ≠ [])
      (xmlS3SearchMDCB.tell (d.told stack) c) (xmlS3SearchMDCB.tell (d.told stack) c') := by
  induction d generalizing stack q m v c c' with
  | nil => exact h.weaken (fun h => h) (fun h => h) fun hv => hv.resolve_right fun hne => hne rfl
  | text value rest ih =>
      unfold Content.told
      rw [Callback.tell_cons, Callback.tell_cons, List.filterMap_cons]
      cases hfield : field (path stack) with
      | none =>
          have hnext : ∀ c, xmlS3SearchMDCB.next stack (.text value) c = c := by
            intro c
            unfold Callback.next xmlS3SearchMDCB
            simp only [hfield]
          have hversion : versionText (stack, .text value) = none := by
            unfold versionText
            simp [hfield]
          rw [hnext, hnext, hversion]
          exact ih hstack h
      | some f =>
          have hnext : ∀ c, xmlS3SearchMDCB.next stack (.text value) c = Search.text c value f := by
            intro c
            unfold Callback.next xmlS3SearchMDCB
            simp only [hfield]
          rw [hnext, hnext]
          refine (ih hstack (h.text value f)).weaken (fun h => h) (fun h => h) ?_
          unfold versionText
          simp only [hfield, Option.some.injEq]
          by_cases hf : f = .versionId
          · exact fun _ => .inl (.inr hf)
          · simp only [hf, or_false]
            exact fun h => h
  | other rest ih => exact ih hstack h
  | empty name attributes rest ih =>
      have hdeep : 4 < slashes (path (stack ++ [name])) := by
        have := slashes_path stack [name]
        rw [List.length_singleton] at this
        omega
      obtain ⟨q₁, m₁, hq, hm, hstart, hend⟩ := h.element _ (not_object hdeep)
      exact ih hstack ((hend hstart).weaken hq hm fun hv => hv)
  | element name attributes inside rest ihInside ih =>
      have hdeep : 4 < slashes (path (stack ++ [name])) := by
        have := slashes_path stack [name]
        rw [List.length_singleton] at this
        omega
      obtain ⟨q₁, m₁, hq, hm, hstart, hend⟩ := h.element _ (not_object hdeep)
      have hinside := hend (ihInside (Nat.le_of_lt hdeep) hstart)
      have hrest := ih hstack (hinside.weaken hq hm fun hv => hv)
      unfold Content.told
      rw [Callback.tell_cons, Callback.tell_cons, Callback.tell_append, Callback.tell_append,
        Callback.tell_cons, Callback.tell_cons]
      refine hrest.weaken (fun h => h) (fun h => h) ?_
      rw [List.filterMap_cons_none rfl, List.filterMap_append, List.filterMap_cons_none rfl, ne_eq,
        List.append_eq_nil_iff, Classical.not_and_iff_not_or_not, or_assoc]
      exact fun h => h

/-- **The version id of the record** is the last that was given. -/
theorem tell_version (es : List Told) (c : XmlS3SearchMDContext) :
    (xmlS3SearchMDCB.tell es c).objectRec.sVersionId =
      ((es.filterMap versionText).getLast?).getD c.objectRec.sVersionId := by
  induction es generalizing c with
  | nil => rfl
  | cons e es ih =>
      have hnext : (xmlS3SearchMDCB.next e.1 e.2 c).objectRec.sVersionId =
          (versionText e).getD c.objectRec.sVersionId := by
        obtain ⟨stack, e⟩ := e
        unfold Callback.next xmlS3SearchMDCB versionText
        cases e with
        | element attrList =>
            dsimp only [startElement]
            split_ifs <;> rfl
        | endElement =>
            dsimp only [endElement]
            split_ifs <;> rfl
        | text value =>
            dsimp only
            cases field (path stack) with
            | none => rfl
            | some f =>
                cases f with
                | queryMdsType =>
                    dsimp only [text]
                    split_ifs <;> first | rfl | contradiction
                | _ => rfl
      rw [Callback.tell_cons, ih, hnext]
      cases hversion : versionText e with
      | none => rw [List.filterMap_cons_none hversion, Option.getD_none]
      | some version =>
          rw [List.filterMap_cons_some hversion, List.getLast?_cons, Option.getD_some]
          rfl

/-- Where no object ends, no match is appended. -/
theorem tell_matches {es : List Told} (h : ∀ e ∈ es, e.2 = .endElement →
      compareNoCase (path e.1) objectPath = false) (c : XmlS3SearchMDContext) :
    (xmlS3SearchMDCB.tell es c).objectMatchList = c.objectMatchList := by
  induction es generalizing c with
  | nil => rfl
  | cons e es ih =>
      rw [Callback.tell_cons, ih fun e he => h e (List.mem_cons_of_mem _ he)]
      obtain ⟨stack, e⟩ := e
      unfold Callback.next xmlS3SearchMDCB
      cases e with
      | element attrList =>
          dsimp only [startElement]
          split_ifs <;> rfl
      | endElement =>
          have hobject : compareNoCase (path stack) objectPath = false := h _ List.mem_cons_self rfl
          dsimp only [endElement]
          rw [hobject]
          split_ifs <;> first | rfl | contradiction
      | text value =>
          dsimp only
          cases field (path stack) with
          | none => rfl
          | some f =>
              cases f with
              | queryMdsType =>
                  dsimp only [text]
                  split_ifs <;> rfl
              | _ => rfl

variable {stack : List CString} {name : CString}
  {attributes : List (CString × CString × CString)} {inside : Content}

/-- **What an object appends** is the record at its end. The start of the object appends nothing,
and neither does what it has inside. -/
theorem appended_object (hobject : compareNoCase (path (stack ++ [name])) objectPath = true)
    (c : XmlS3SearchMDContext) :
    appended ((Content.single name attributes inside).told stack) c =
      [(xmlS3SearchMDCB.tell (inner (stack ++ [name]) attributes inside) c).objectRec] := by
  have hinner : ∀ e ∈ inner (stack ++ [name]) attributes inside, e.2 = .endElement →
      compareNoCase (path e.1) objectPath = false := by
    intro e he hend
    rcases List.mem_cons.1 he with rfl | he
    · exact absurd hend (by simp [start])
    · have hlt := Content.slashes_inside he fun value h => absurd (hend.symm.trans h) (by simp)
      rw [slashes_eq hobject] at hlt
      exact not_object hlt
  have hnext : ∀ c, xmlS3SearchMDCB.next (stack ++ [name]) .endElement c =
      { c with objectMatchList := c.objectMatchList ++ [c.objectRec] } := by
    intro c
    unfold Callback.next xmlS3SearchMDCB
    dsimp only [endElement]
    rw [if_pos hobject]
  unfold appended
  rw [told_single, Callback.tell_append, Callback.tell_cons, Callback.tell_nil, hnext]
  dsimp only
  rw [tell_matches hinner, List.drop_left]

/-- **What decides whether a match is from its element alone**: the version id, if the element gives
none. -/
theorem object_alone (hobject : compareNoCase (path (stack ++ [name])) objectPath = true)
    (before : List Told) {r : ResultObjectMatch}
    (h : appended ((Content.single name attributes inside).told stack)
      (xmlS3SearchMDCB.tell before {}) = [r]) :
    appended ((Content.single name attributes inside).told stack) {} = [r] ↔
      ((Content.single name attributes inside).told stack).filterMap versionText ≠ [] ∨
        lastVersionId before = [] := by
  set c := xmlS3SearchMDCB.tell before {} with hc
  have hversion : c.objectRec.sVersionId = lastVersionId before := tell_version before {}
  have hstart : ∀ c, xmlS3SearchMDCB.next (stack ++ [name]) (start attributes) c =
      { c with objectRec :=
        { c.objectRec with sObjectId := [], sObjectName := [], queryMDList := [] } } := by
    intro c
    unfold Callback.next xmlS3SearchMDCB start
    dsimp only [startElement]
    rw [if_pos hobject]
  have hgiven : ((Content.single name attributes inside).told stack).filterMap versionText =
      (inner (stack ++ [name]) attributes inside).filterMap versionText := by
    rw [told_single, List.filterMap_append]
    exact List.append_nil _
  have hagree : Agree False False
      (lastVersionId before = [] ∨
        (inner (stack ++ [name]) attributes inside).filterMap versionText ≠ [])
      (xmlS3SearchMDCB.tell (inner (stack ++ [name]) attributes inside) c)
      (xmlS3SearchMDCB.tell (inner (stack ++ [name]) attributes inside) {}) := by
    have hinit : Agree False False (lastVersionId before = [])
        (xmlS3SearchMDCB.next (stack ++ [name]) (start attributes) c)
        (xmlS3SearchMDCB.next (stack ++ [name]) (start attributes) {}) := by
      rw [hstart, hstart]
      exact ⟨rfl, rfl, rfl, False.elim, False.elim, fun hv => hversion.trans hv⟩
    have hslashes : slashes (path (stack ++ [name])) = 4 := slashes_eq hobject
    exact hinit.tell inside (Nat.le_of_eq hslashes.symm)
  rw [appended_object hobject] at h ⊢
  obtain rfl := List.singleton_inj.1 h
  rw [List.singleton_inj, hgiven]
  constructor
  · intro heq
    by_cases hnone : (inner (stack ++ [name]) attributes inside).filterMap versionText = []
    · refine .inr ?_
      have hv := congrArg ResultObjectMatch.sVersionId heq
      rw [tell_version, tell_version, hnone, hversion] at hv
      exact hv.symm
    · exact .inl hnone
  · intro hor
    have hv := hagree.version hor.symm
    exact ResultObjectMatch.ext hagree.name.symm hagree.id.symm hv.symm hagree.list.symm

end

/-- **What an entry has from those before it**: an entry that a listing appends, read from any number of
replies, is the one that its element alone gives under the prefix in force, if and only if the fields that the
element does not set are left new by the texts before that they can still be from.  A match is the one
that its element alone gives, if and only if the element gives a version id, or the last one given before
is empty. -/
theorem records_apart (before after : List Told) (stack : List CString) (name : CString)
    (attributes : List (CString × CString × CString)) (inside : Content) :
    (∀ x ∈ [Listing.listBucketResult, Listing.listVersionsResult], ∀ ds : List Content,
      (ds.flatMap fun d => d.told []) =
        before ++ (Content.single name attributes inside).told stack ++ after →
      x.entries.any (compareNoCase (path (stack ++ [name]))) = true →
      ∀ c : Listing.XmlDirListingContext, c.Rec = {} → ∀ r,
      x.appended ((Content.single name attributes inside).told stack)
        (x.callback.tell before c) = [r] →
      (x.appended ((Content.single name attributes inside).told stack)
          (x.callback.tell before c).alone = [r] ↔
        ∀ s : Listing.Slot, s ∈ x.slots ((Content.single name attributes inside).told stack) ∨
          s.Same (Listing.runActions x.bUnnamed (Listing.reach x.bUnnamed s
            (x.actions c.sObjName c.sPrefixNoObj before)) {}) {})) ∧
    ∀ d : Content,
      d.told [] = before ++ (Content.single name attributes inside).told stack ++ after →
      compareNoCase (path (stack ++ [name])) objectPath = true → ∀ r,
      appended ((Content.single name attributes inside).told stack)
        (xmlS3SearchMDCB.tell before {}) = [r] →
      (appended ((Content.single name attributes inside).told stack) {} = [r] ↔
        ((Content.single name attributes inside).told stack).filterMap versionText ≠ [] ∨
          lastVersionId before = []) := by
  refine ⟨fun x hx _ _ hentry c hc r h => ?_,
    fun _ _ hobject _ h => object_alone hobject before h⟩
  have hslashes : ∀ q ∈ x.entries, slashes q = 3 := by
    rcases List.mem_pair.1 hx with rfl | rfl <;> decide
  exact Listing.appended_alone hslashes hc before hentry h

/-- An element that holds a text. -/
def leafOf (name value : String) (rest : Content) : Content :=
  .element name.toList [] (.text value.toList .nil) rest

/-- What an entry holds that has an owner, and one that has none. -/
def ownedContents : Content :=
  leafOf "Key" "a" (.element "Owner".toList [] (leafOf "ID" "A" .nil) .nil)

@[inherit_doc ownedContents]
def unownedContents : Content := leafOf "Key" "b" .nil

/-- A listing of the two. -/
def ownedListing : Content :=
  .single "ListBucketResult".toList []
    (.element "Contents".toList [] ownedContents (.element "Contents".toList [] unownedContents .nil))

/-- The events before the second. -/
def ownedBefore : List Told :=
  (["ListBucketResult".toList], start []) ::
    (Content.single "Contents".toList [] ownedContents).told ["ListBucketResult".toList]

/-- **The second entry has the owner of the first.** -/
theorem owner_leaks :
    let x := Listing.listBucketResult
    let own := (Content.single "Contents".toList [] unownedContents).told ["ListBucketResult".toList]
    ownedListing.told [] = ownedBefore ++ own ++ [(["ListBucketResult".toList], .endElement)] ∧
      x.appended own (x.callback.tell ownedBefore {}) =
        [{ sName := "b".toList, properties := { sOwnerID := "A".toList } }] ∧
      x.appended own (x.callback.tell ownedBefore {}).alone = [{ sName := "b".toList }] := by
  decide

/-- In the listing of the two a field is from the first; a search with one object is as it should be. -/
theorem records_apart_owner :
    (¬ ∀ s : Listing.Slot, s ∈ Listing.listBucketResult.slots
        ((Content.single "Contents".toList [] unownedContents).told ["ListBucketResult".toList]) ∨
      s.Same (Listing.runActions false
        (Listing.reach false s (Listing.listBucketResult.actions [] [] ownedBefore)) {}) {}) ∧
    (((Content.single "object".toList [] (leafOf "versionId" "1" .nil)).told
        ["BucketQueryResult".toList, "ObjectMatches".toList]).filterMap versionText ≠ [] ∨
      lastVersionId [(["BucketQueryResult".toList], start []),
        (["BucketQueryResult".toList, "ObjectMatches".toList], start [])] = []) :=
  ⟨fun h => absurd
      (((records_apart ownedBefore [(["ListBucketResult".toList], .endElement)] _ _ []
        unownedContents).1 _ List.mem_cons_self [ownedListing] (by decide) (by decide)
        {} rfl { sName := "b".toList, properties := { sOwnerID := "A".toList } } (by decide)).2 h)
      (by decide),
    ((records_apart _ [(["BucketQueryResult".toList, "ObjectMatches".toList], .endElement),
        (["BucketQueryResult".toList], .endElement)] _ _ [] _).2
      (.single "BucketQueryResult".toList [] (.single "ObjectMatches".toList []
        (.single "object".toList [] (leafOf "versionId" "1" .nil)))) (by decide) (by decide)
      { sVersionId := "1".toList } (by decide)).1 (by decide)⟩

end Search
end ECSUtil

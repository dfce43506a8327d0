/-
# Lifecycle rules

`S3_LIFECYCLE_RULE` (`ECSUtil/ECSConnection.h`), `XmlS3LifecycleInfoCB`, the scan of
`S3GetLifecycle` and the body of `S3PutLifecycle` (`ECSUtil/ECSConnection.cpp`), whose calls of
the XML writer succeed.

The callback drops a rule that `IsEmpty`, which does not look at the days after which uploads are
aborted: `lifecycle_readBack`.

What is written of a rule is read back by its elements (`reads_rule`, `readElements_eq`), and
`readBack` is what the rule is then, before the callback keeps or drops it.  `readRule_eq_some_iff`
says when a rule is kept as it was, which `foldl_rules` carries over to the list of all rules.  An
ID that is only white space is no text to the callback (`blank`), and a date behind the last one
that Windows makes is not read.
-/

import ECSUtil.Conn.Format
import ECSUtil.Xml.Errors
import ECSUtil.Xml.Writer

namespace ECSUtil
namespace Body

open Xml

/-- `S3_LIFECYCLE_RULE`. -/
structure S3LifecycleRule where
  sRuleID : CString := []
  sPath : CString := []
  bEnabled : Bool := false
  bExpiredDeleteMarkers : Bool := false
  dwDays : ℕ := 0
  dwNoncurrentDays : ℕ := 0
  dwAbortIncompleteMultipartUploadDays : ℕ := 0
  ftDate : FileTime := 0
  deriving DecidableEq, Repr

/-- `S3_LIFECYCLE_RULE::IsEmpty`. -/
def S3LifecycleRule.isEmpty (r : S3LifecycleRule) : Bool :=
  r.sRuleID = [] ||
    r.dwDays = 0 && r.dwNoncurrentDays = 0 && r.ftDate = 0 && !r.bExpiredDeleteMarkers

/-- `XML_S3_LIFECYCLE_INFO_CONTEXT`, with the list that it points to. -/
structure XmlS3LifecycleInfoContext where
  lifecycleRules : List S3LifecycleRule := []
  LastRule : S3LifecycleRule := {}
  deriving DecidableEq, Repr

/-- The texts that the callback takes from a configuration. -/
inductive LifecycleField
  | id
  | path
  | status
  | days
  | date
  | noncurrentDays
  | abortDays
  | expireDeleteMarker
  deriving DecidableEq, Repr

/-- `XML_S3_LIFECYCLE_INFO_RULE`. -/
def ruleElement : CString := "//LifecycleConfiguration/Rule".toList

/-- The paths of the texts, in the order they are looked at. -/
def lifecycleTexts : List (String × LifecycleField) :=
  [("//LifecycleConfiguration/Rule/ID", .id),
    ("//LifecycleConfiguration/Rule/Prefix", .path),
    ("//LifecycleConfiguration/Rule/Status", .status),
    ("//LifecycleConfiguration/Rule/Expiration/Days", .days),
    ("//LifecycleConfiguration/Rule/Expiration/Date", .date),
    ("//LifecycleConfiguration/Rule/NoncurrentVersionExpiration/NoncurrentDays", .noncurrentDays),
    ("//LifecycleConfiguration/Rule/AbortIncompleteMultipartUpload/DaysAfterInitiation",
      .abortDays),
    ("//LifecycleConfiguration/Rule/Expiration/ExpiredObjectDeleteMarker", .expireDeleteMarker)]

/-- A text of a rule. -/
def S3LifecycleRule.text (r : S3LifecycleRule) (value : CString) :
    LifecycleField → S3LifecycleRule
  | .id => { r with sRuleID := value }
  | .path => { r with sPath := value }
  | .status => { r with bEnabled := compareNoCase value "enabled".toList }
  | .days => { r with dwDays := ttoi value, ftDate := 0 }
  | .date => { r with dwDays := 0, ftDate := (parseISO8601Date value).2 }
  | .noncurrentDays => { r with dwNoncurrentDays := ttoi value }
  | .abortDays => { r with dwAbortIncompleteMultipartUploadDays := ttoi value }
  | .expireDeleteMarker => { r with bExpiredDeleteMarkers := compareNoCase value "true".toList }

/-- The end of a rule. -/
def XmlS3LifecycleInfoContext.endRule (c : XmlS3LifecycleInfoContext) :
    XmlS3LifecycleInfoContext :=
  if c.LastRule.isEmpty then c
  else { lifecycleRules := c.lifecycleRules ++ [c.LastRule], LastRule := {} }

/-- `XmlS3LifecycleInfoCB`. -/
def xmlS3LifecycleInfoCB : Callback XmlS3LifecycleInfoContext := fun sXmlPath e c =>
  match e with
  | .text value =>
      if value ≠ [] then
        (0, { c with
          LastRule := ((findPath lifecycleTexts sXmlPath).map (c.LastRule.text value)).getD
            c.LastRule })
      else (0, c)
  | .element _ =>
      if compareNoCase sXmlPath ruleElement then (0, { c with LastRule := {} }) else (0, c)
  | .endElement => if compareNoCase sXmlPath ruleElement then (0, c.endRule) else (0, c)

/-- `S3GetLifecycle`, after its request that returned no error: its error, and the rules. -/
def s3GetLifecycle (reply : Reply) (rules : List S3LifecycleRule) :
    S3Error × List S3LifecycleRule :=
  if reply.error.ifError then (reply.error, rules)
  else if reply.dwSize = 0 then
    ({ reply.error with dwHttpError := HTTP_STATUS_SERVER_ERROR, s3Error := .malformedXML }, rules)
  else
    let r := scanXmlStream xmlS3LifecycleInfoCB reply.reading { lifecycleRules := rules }
    ((Test.failed.leaves r.1).getD reply.error, r.2.lifecycleRules)

/-- A path that always ends with a slash, if it is not empty. -/
def withSlash (sPath : CString) : CString :=
  if sPath ≠ [] ∧ sPath.getLast? ≠ some '/' then sPath ++ ['/'] else sPath

/-- Nodes that are written under a condition. -/
def writeIf (b : Bool) (nodes : List Node) : List Node := if b then nodes else []

/-- A rule, as `S3PutLifecycle` writes it. -/
def writeRule (r : S3LifecycleRule) : List Node :=
  tree "Rule".toList
    (writeElement "ID".toList r.sRuleID ++
      writeElement "Prefix".toList (withSlash r.sPath) ++
      writeElement "Status".toList (if r.bEnabled then "Enabled" else "Disabled").toList ++
      writeIf (r.ftDate ≠ 0 || r.dwDays ≠ 0 || r.bExpiredDeleteMarkers)
        (tree "Expiration".toList
          ((if r.ftDate ≠ 0 then
              writeElement "Date".toList (formatISO8601Date r.ftDate true false)
            else writeIf (r.dwDays ≠ 0) (writeElement "Days".toList (fmtNum 0 r.dwDays))) ++
            writeIf r.bExpiredDeleteMarkers
              (writeElement "ExpiredObjectDeleteMarker".toList "true".toList))) ++
      writeIf (r.dwNoncurrentDays ≠ 0)
        (tree "NoncurrentVersionExpiration".toList
          (writeElement "NoncurrentDays".toList (fmtNum 0 r.dwNoncurrentDays))) ++
      writeIf (r.dwAbortIncompleteMultipartUploadDays ≠ 0)
        (tree "AbortIncompleteMultipartUpload".toList
          (writeElement "DaysAfterInitiation".toList
            (fmtNum 0 r.dwAbortIncompleteMultipartUploadDays))))

/-- The body of `S3PutLifecycle`. -/
def s3PutLifecycle (rules : List S3LifecycleRule) : Reading :=
  document (tree "LifecycleConfiguration".toList (rules.flatMap writeRule))

/-- No error of the callback is a failing `HRESULT`, so a scan goes to the end of a document. -/
theorem xmlS3LifecycleInfoCB_harmless : Callback.Harmless xmlS3LifecycleInfoCB := by
  intro p e c
  cases e with
  | _ =>
      simp only [xmlS3LifecycleInfoCB]
      split_ifs <;> rfl

/-- A change of the rule that is being read. -/
def onRule (g : S3LifecycleRule → S3LifecycleRule) (c : XmlS3LifecycleInfoContext) :
    XmlS3LifecycleInfoContext :=
  { c with LastRule := g c.LastRule }

/-- The change that a text makes. -/
def readText (value : CString) (field : LifecycleField) (r : S3LifecycleRule) : S3LifecycleRule :=
  if blank value then r else r.text value field

section

variable {stack : List CString} {name : CString} {nodes : List Node}
  {f : XmlS3LifecycleInfoContext → XmlS3LifecycleInfoContext}

/-- A text goes to the rule that is open, by the table of paths. -/
theorem lifecycle_next_text (value : CString) (c : XmlS3LifecycleInfoContext) :
    xmlS3LifecycleInfoCB.next stack (.text value) c =
      if value = [] then c
      else
        onRule (fun r => ((findPath lifecycleTexts (path stack)).map (r.text value)).getD r) c := by
  simp only [Callback.next, xmlS3LifecycleInfoCB, ne_eq, ite_not]
  split_ifs <;> rfl

/-- The start of a rule begins an empty one. -/
theorem lifecycle_next_element (attrList : List (CString × CString))
    (c : XmlS3LifecycleInfoContext) :
    xmlS3LifecycleInfoCB.next stack (.element attrList) c =
      if compareNoCase (path stack) ruleElement then onRule (fun _ => {}) c else c := by
  simp only [Callback.next, xmlS3LifecycleInfoCB]
  split_ifs <;> rfl

/-- The end of a rule puts it in the list, unless it is empty. -/
theorem lifecycle_next_endElement (c : XmlS3LifecycleInfoContext) :
    xmlS3LifecycleInfoCB.next stack .endElement c =
      if compareNoCase (path stack) ruleElement then c.endRule else c := by
  simp only [Callback.next, xmlS3LifecycleInfoCB]
  split_ifs <;> rfl

/-- An element with a text that is taken. -/
theorem lifecycle_reads_text (value : CString) (field : LifecycleField)
    (h : compareNoCase (path (stack ++ [name])) ruleElement = false ∧
      findPath lifecycleTexts (path (stack ++ [name])) = some field) :
    Reads xmlS3LifecycleInfoCB stack (writeElement name value) (onRule (readText value field)) := by
  refine (Reads.writeElement xmlS3LifecycleInfoCB_harmless name value).congr fun c => ?_
  simp only [Function.comp_apply, lifecycle_next_endElement, lifecycle_next_element, h.1,
    Bool.false_eq_true, if_false]
  unfold onRule readText
  by_cases hblank : blank value = true
  · rw [if_pos hblank, if_pos hblank]
    rfl
  · have hne : value ≠ [] := fun h => hblank (h ▸ rfl)
    rw [if_neg hblank, if_neg hblank, lifecycle_next_text, if_neg hne, h.2]
    rfl

/-- An element of which only what it holds counts. -/
theorem lifecycle_reads_plain (h : compareNoCase (path (stack ++ [name])) ruleElement = false)
    (hf : Reads xmlS3LifecycleInfoCB (stack ++ [name]) nodes f) :
    Reads xmlS3LifecycleInfoCB stack (tree name nodes) f := by
  refine (Reads.tree xmlS3LifecycleInfoCB_harmless hf).congr fun c => ?_
  simp only [Function.comp_apply, lifecycle_next_endElement, lifecycle_next_element, h,
    Bool.false_eq_true, if_false]

/-- Nodes that are written under a condition. -/
theorem lifecycle_reads_writeIf (b : Bool) {g : S3LifecycleRule → S3LifecycleRule}
    (h : Reads xmlS3LifecycleInfoCB stack nodes (onRule g)) :
    Reads xmlS3LifecycleInfoCB stack (writeIf b nodes) (onRule fun r => if b then g r else r) := by
  cases b with
  | false => exact Reads.nil
  | true => exact h

end

/-- The elements of a rule, and those in it that hold others. -/
def inRule : List CString := ["LifecycleConfiguration".toList, "Rule".toList]

@[inherit_doc inRule]
def inExpiration : List CString := inRule ++ ["Expiration".toList]

@[inherit_doc inRule]
def inNoncurrent : List CString := inRule ++ ["NoncurrentVersionExpiration".toList]

@[inherit_doc inRule]
def inAbort : List CString := inRule ++ ["AbortIncompleteMultipartUpload".toList]

/-- The elements with the texts that are written. -/
def textElements : List (List CString × LifecycleField) :=
  [(inRule ++ ["ID".toList], .id), (inRule ++ ["Prefix".toList], .path),
    (inRule ++ ["Status".toList], .status), (inExpiration ++ ["Days".toList], .days),
    (inExpiration ++ ["Date".toList], .date),
    (inExpiration ++ ["ExpiredObjectDeleteMarker".toList], .expireDeleteMarker),
    (inNoncurrent ++ ["NoncurrentDays".toList], .noncurrentDays),
    (inAbort ++ ["DaysAfterInitiation".toList], .abortDays)]

/-- How the paths of a configuration compare. -/
theorem lifecyclePaths :
    (∀ t ∈ textElements, compareNoCase (path t.1) ruleElement = false ∧
        findPath lifecycleTexts (path t.1) = some t.2) ∧
      (∀ stack ∈ [["LifecycleConfiguration".toList], inExpiration, inNoncurrent, inAbort],
        compareNoCase (path stack) ruleElement = false) ∧
      compareNoCase (path inRule) ruleElement = true ∧
      blank "Enabled".toList = false ∧ blank "Disabled".toList = false ∧
      blank "true".toList = false ∧ compareNoCase "Enabled".toList "enabled".toList = true ∧
      compareNoCase "Disabled".toList "enabled".toList = false := by
  decide +kernel

/-- What the expiration of a rule is read back to. -/
def readExpiration (r : S3LifecycleRule) : S3LifecycleRule → S3LifecycleRule :=
  (fun r' =>
      if r.bExpiredDeleteMarkers then readText "true".toList .expireDeleteMarker r' else r') ∘
    fun r' =>
      if r.ftDate ≠ 0 then readText (formatISO8601Date r.ftDate true false) .date r'
      else if r.dwDays ≠ 0 then readText (fmtNum 0 r.dwDays) .days r'
      else r'

/-- What the elements of a rule are read back to. -/
def readElements (r : S3LifecycleRule) : S3LifecycleRule → S3LifecycleRule :=
  (fun r' =>
      if r.dwAbortIncompleteMultipartUploadDays ≠ 0 then
        readText (fmtNum 0 r.dwAbortIncompleteMultipartUploadDays) .abortDays r'
      else r') ∘
    (fun r' =>
      if r.dwNoncurrentDays ≠ 0 then
        readText (fmtNum 0 r.dwNoncurrentDays) .noncurrentDays r'
      else r') ∘
    readExpiration r ∘
    readText (if r.bEnabled then "Enabled" else "Disabled").toList .status ∘
    readText (withSlash r.sPath) .path ∘ readText r.sRuleID .id

/-- **The expiration of a rule.** Its elements are written under conditions, and a date has
precedence over days; what is not written is not read, and leaves the field as it was. -/
theorem reads_expiration (r : S3LifecycleRule) :
    Reads xmlS3LifecycleInfoCB inRule
      (writeIf (r.ftDate ≠ 0 || r.dwDays ≠ 0 || r.bExpiredDeleteMarkers)
        (tree "Expiration".toList
          ((if r.ftDate ≠ 0 then
              writeElement "Date".toList (formatISO8601Date r.ftDate true false)
            else writeIf (r.dwDays ≠ 0) (writeElement "Days".toList (fmtNum 0 r.dwDays))) ++
            writeIf r.bExpiredDeleteMarkers
              (writeElement "ExpiredObjectDeleteMarker".toList "true".toList))))
      (onRule (readExpiration r)) := by
  obtain ⟨htexts, hplain, -⟩ := lifecyclePaths
  have hdays := lifecycle_reads_text (fmtNum 0 r.dwDays) .days
    (htexts (inExpiration ++ ["Days".toList], .days) (by simp [textElements]))
  have hdate := lifecycle_reads_text (formatISO8601Date r.ftDate true false) .date
    (htexts (inExpiration ++ ["Date".toList], .date) (by simp [textElements]))
  have hmarker := lifecycle_reads_text "true".toList .expireDeleteMarker
    (htexts (inExpiration ++ ["ExpiredObjectDeleteMarker".toList], .expireDeleteMarker)
      (by simp [textElements]))
  have hwhen : Reads xmlS3LifecycleInfoCB inExpiration
      (if r.ftDate ≠ 0 then writeElement "Date".toList (formatISO8601Date r.ftDate true false)
        else writeIf (r.dwDays ≠ 0) (writeElement "Days".toList (fmtNum 0 r.dwDays)))
      (onRule fun r' =>
        if r.ftDate ≠ 0 then readText (formatISO8601Date r.ftDate true false) .date r'
        else if r.dwDays ≠ 0 then readText (fmtNum 0 r.dwDays) .days r'
        else r') := by
    by_cases hft : r.ftDate ≠ 0
    · simp only [if_pos hft]
      exact hdate
    · simp only [if_neg hft]
      refine (lifecycle_reads_writeIf (decide (r.dwDays ≠ 0)) hdays).congr fun c => ?_
      simp only [decide_eq_true_eq]
  have hall := lifecycle_reads_plain (hplain inExpiration (by simp))
    (hwhen.append (lifecycle_reads_writeIf r.bExpiredDeleteMarkers hmarker))
  refine (lifecycle_reads_writeIf (r.ftDate ≠ 0 || r.dwDays ≠ 0 || r.bExpiredDeleteMarkers)
    (g := readExpiration r) hall).congr fun c => ?_
  -- without any of them, nothing is read
  cases hb : (r.ftDate ≠ 0 || r.dwDays ≠ 0 || r.bExpiredDeleteMarkers) with
  | true => simp only [if_true]
  | false =>
      simp only [Bool.or_eq_false_iff, decide_eq_false_iff_not] at hb
      obtain ⟨⟨hft, hday⟩, hmark⟩ := hb
      unfold readExpiration
      simp only [if_neg hft, if_neg hday, hmark, Bool.false_eq_true, if_false]
      rfl

/-- **The elements of a rule.** The rule begins with an empty record, takes its elements in the
order they are written in, and is added at its end, if it is not empty. -/
theorem reads_rule (r : S3LifecycleRule) :
    Reads xmlS3LifecycleInfoCB ["LifecycleConfiguration".toList] (writeRule r)
      (XmlS3LifecycleInfoContext.endRule ∘ onRule fun _ => readElements r {}) := by
  obtain ⟨htexts, hplain, hrule, -⟩ := lifecyclePaths
  have hid := lifecycle_reads_text r.sRuleID .id
    (htexts (inRule ++ ["ID".toList], .id) (by simp [textElements]))
  have hpath := lifecycle_reads_text (withSlash r.sPath) .path
    (htexts (inRule ++ ["Prefix".toList], .path) (by simp [textElements]))
  have hstatus := lifecycle_reads_text (if r.bEnabled then "Enabled" else "Disabled").toList .status
    (htexts (inRule ++ ["Status".toList], .status) (by simp [textElements]))
  have hnoncurrent := lifecycle_reads_text (fmtNum 0 r.dwNoncurrentDays) .noncurrentDays
    (htexts (inNoncurrent ++ ["NoncurrentDays".toList], .noncurrentDays) (by simp [textElements]))
  have habort := lifecycle_reads_text (fmtNum 0 r.dwAbortIncompleteMultipartUploadDays) .abortDays
    (htexts (inAbort ++ ["DaysAfterInitiation".toList], .abortDays) (by simp [textElements]))
  have hbody := ((((hid.append hpath).append hstatus).append (reads_expiration r)).append
    (lifecycle_reads_writeIf (decide (r.dwNoncurrentDays ≠ 0))
      (lifecycle_reads_plain (hplain inNoncurrent (by simp)) hnoncurrent))).append
    (lifecycle_reads_writeIf (decide (r.dwAbortIncompleteMultipartUploadDays ≠ 0))
      (lifecycle_reads_plain (hplain inAbort (by simp)) habort))
  refine (Reads.tree xmlS3LifecycleInfoCB_harmless
    (show Reads _ (["LifecycleConfiguration".toList] ++ ["Rule".toList]) _ _ from hbody)).congr
    fun c => ?_
  have hstack : ["LifecycleConfiguration".toList] ++ ["Rule".toList] = inRule := rfl
  simp only [Function.comp_apply, lifecycle_next_endElement, lifecycle_next_element, hstack, hrule,
    if_true, onRule, readElements, decide_eq_true_eq]

/-- A text that is not only white space is read. -/
theorem readText_of_not_blank {value : CString} (h : blank value = false) (field : LifecycleField)
    (r : S3LifecycleRule) : readText value field r = r.text value field :=
  if_neg (h ▸ Bool.false_ne_true)

/-- A number is not read as white space. -/
theorem blank_fmtNum (width n : ℕ) : blank (fmtNum width n) = false := by
  obtain ⟨c, digits, hd⟩ := List.exists_cons_of_ne_nil (fmtNum_ne_nil width n)
  have hc : c.isDigit = true := isDigit_of_mem_fmtNum (hd ▸ List.mem_cons_self ..)
  have hspace : isXmlSpace c = false := by
    rw [← Bool.not_eq_true]
    intro h
    simp only [isXmlSpace, Bool.or_eq_true, decide_eq_true_eq] at h
    rcases h with ((rfl | rfl) | rfl) | rfl <;> exact absurd hc (by decide)
  rw [hd, blank, List.all_cons, hspace, Bool.false_and]

/-- A path that is not empty is not read as white space. -/
theorem blank_withSlash {sPath : CString} (h : sPath ≠ []) : blank (withSlash sPath) = false := by
  have hslash : '/' ∈ withSlash sPath := by
    unfold withSlash
    split_ifs with hif
    · simp
    · exact List.mem_of_getLast? (Decidable.not_not.1 fun hlast => hif ⟨h, hlast⟩)
  rw [← Bool.not_eq_true]
  exact fun hall => absurd (List.all_eq_true.1 hall _ hslash) (by decide)

/-- An empty prefix gets no slash. -/
theorem withSlash_nil : withSlash [] = [] := rfl

/-- What a date is read back as. -/
def readDate (ftDate : FileTime) : FileTime :=
  if ftDate = 0 ∨ blank (formatISO8601Date ftDate true false) then 0
  else (parseISO8601Date (formatISO8601Date ftDate true false)).2

/-- What a rule is read back as, before it is kept or dropped. -/
def readBack (r : S3LifecycleRule) : S3LifecycleRule :=
  { r with
    sRuleID := if blank r.sRuleID then [] else r.sRuleID
    sPath := withSlash r.sPath
    ftDate := readDate r.ftDate }

/-- A rule that is to be read back: its texts are ASCII, it does something, its days fit in an
`int`, its date is in whole seconds, and it has no two expirations. -/
structure S3LifecycleRule.Proper (r : S3LifecycleRule) : Prop where
  id : r.sRuleID ≠ []
  ascii : ∀ c ∈ r.sRuleID ++ r.sPath, c.toNat < 128
  action : r.dwDays ≠ 0 ∨ r.dwNoncurrentDays ≠ 0 ∨ r.dwAbortIncompleteMultipartUploadDays ≠ 0 ∨
    r.ftDate ≠ 0 ∨ r.bExpiredDeleteMarkers = true
  days : r.dwDays < 2 ^ 31
  noncurrentDays : r.dwNoncurrentDays < 2 ^ 31
  abortDays : r.dwAbortIncompleteMultipartUploadDays < 2 ^ 31
  expiration : r.ftDate = 0 ∨ r.dwDays = 0
  seconds : r.ftDate % 10000000 = 0

/-- The date or the days of a rule. -/
theorem readWhen_eq {r : S3LifecycleRule} (h : r.Proper) (r' : S3LifecycleRule)
    (hdays : r'.dwDays = 0) (hft : r'.ftDate = 0) :
    (if r.ftDate ≠ 0 then readText (formatISO8601Date r.ftDate true false) .date r'
      else if r.dwDays ≠ 0 then readText (fmtNum 0 r.dwDays) .days r'
      else r') = { r' with dwDays := r.dwDays, ftDate := readDate r.ftDate } := by
  have hsame : { r' with dwDays := 0, ftDate := 0 } = r' := by
    cases r'
    cases hdays
    cases hft
    rfl
  unfold readDate
  by_cases hdate : r.ftDate = 0
  · rw [if_neg (not_not.2 hdate), if_pos (Or.inl hdate)]
    by_cases hd : r.dwDays = 0
    · rw [if_neg (not_not.2 hd), hd, hsame]
    · rw [if_pos hd, readText_of_not_blank (blank_fmtNum 0 _), S3LifecycleRule.text,
        ttoi_fmtNum h.days]
  · have hd : r.dwDays = 0 := h.expiration.resolve_left hdate
    rw [if_pos hdate, hd]
    cases hblank : blank (formatISO8601Date r.ftDate true false) with
    | true => rw [if_pos (Or.inr rfl), readText, if_pos hblank, hsame]
    | false =>
        rw [if_neg (not_or.2 ⟨hdate, Bool.false_ne_true⟩), readText_of_not_blank hblank]
        rfl

/-- The expiration of a rule. -/
theorem readExpiration_eq {r : S3LifecycleRule} (h : r.Proper) (r' : S3LifecycleRule)
    (hdays : r'.dwDays = 0) (hft : r'.ftDate = 0) (hmark : r'.bExpiredDeleteMarkers = false) :
    readExpiration r r' =
      { r' with
        dwDays := r.dwDays
        ftDate := readDate r.ftDate
        bExpiredDeleteMarkers := r.bExpiredDeleteMarkers } := by
  obtain ⟨-, -, -, -, -, htrue, -⟩ := lifecyclePaths
  unfold readExpiration
  rw [Function.comp_apply, readWhen_eq h r' hdays hft]
  cases r.bExpiredDeleteMarkers with
  | false =>
      rw [if_neg Bool.false_ne_true, hmark]
  | true =>
      rw [if_pos rfl, readText_of_not_blank htrue, S3LifecycleRule.text, compareNoCase_self]

/-- **A rule is read back** but for its ID, its path and its date. Numbers and flags come back as
they are; an ID of white space does not, the path comes back as it is written, and so does the date,
in whole seconds. -/
theorem readElements_eq {r : S3LifecycleRule} (h : r.Proper) : readElements r {} = readBack r := by
  obtain ⟨-, -, -, henabled, hdisabled, -, hyes, hno⟩ := lifecyclePaths
  have hid : readText r.sRuleID .id {} =
      { sRuleID := if blank r.sRuleID then [] else r.sRuleID } := by
    unfold readText
    split_ifs <;> rfl
  have hpath : ∀ r' : S3LifecycleRule, r'.sPath = [] →
      readText (withSlash r.sPath) .path r' = { r' with sPath := withSlash r.sPath } := by
    intro r' h'
    by_cases hnil : r.sPath = []
    · rw [hnil, withSlash_nil, ← h', readText]
      exact if_pos (h'.symm ▸ rfl)
    · rw [readText_of_not_blank (blank_withSlash hnil)]
      rfl
  have hstatus : ∀ r' : S3LifecycleRule,
      readText (if r.bEnabled then "Enabled" else "Disabled").toList .status r' =
        { r' with bEnabled := r.bEnabled } := by
    intro r'
    cases r.bEnabled with
    | true => rw [if_pos rfl, readText_of_not_blank henabled, S3LifecycleRule.text, hyes]
    | false =>
        rw [if_neg Bool.false_ne_true, readText_of_not_blank hdisabled, S3LifecycleRule.text, hno]
  unfold readElements
  simp only [Function.comp_apply]
  rw [hid, hpath _ rfl, hstatus, readExpiration_eq h _ rfl rfl rfl]
  simp only [readText_of_not_blank (blank_fmtNum 0 _), S3LifecycleRule.text,
    ttoi_fmtNum h.noncurrentDays, ttoi_fmtNum h.abortDays]
  unfold readBack
  by_cases hn : r.dwNoncurrentDays = 0 <;>
    by_cases ha : r.dwAbortIncompleteMultipartUploadDays = 0 <;> simp [hn, ha]

/-- A date before the end is not read as white space. -/
theorem blank_formatISO8601Date {ft : FileTime} (h : ft < endOfTime) :
    blank (formatISO8601Date ft true false) = false := by
  obtain ⟨st, hst, -⟩ := systemTime_of_lt h
  have hT : 'T' ∈ formatISO8601Date ft true false := by
    unfold formatISO8601Date formatSystemTime
    simp [hst]
  rw [← Bool.not_eq_true]
  exact fun hall => absurd (List.all_eq_true.1 hall _ hT) (by decide)

/-- **A date in whole seconds is read back** if and only if it is before the end. The date is
written in whole seconds, so nothing of it is cut off; and one behind the last date that Windows
makes is not read. -/
theorem readDate_eq_iff {ft : FileTime} (h : ft % 10000000 = 0) :
    readDate ft = ft ↔ ft < endOfTime := by
  have hpos : 0 < endOfTime := by decide +kernel
  refine ⟨fun heq => ?_, fun hlt => ?_⟩
  · rw [← heq]
    unfold readDate
    split_ifs
    · exact hpos
    · exact parseISO8601Date_lt _
  · unfold readDate
    rw [blank_formatISO8601Date hlt, parseISO8601Date_format hlt]
    by_cases hzero : ft = 0
    · rw [if_pos (Or.inl hzero), hzero]
    · rw [if_neg (not_or.2 ⟨hzero, Bool.false_ne_true⟩)]
      exact Nat.div_mul_cancel (Nat.dvd_trans (by decide) (Nat.dvd_of_mod_eq_zero h))

/-- What is kept of a rule. -/
def readRule (r : S3LifecycleRule) : Option S3LifecycleRule :=
  if (readBack r).isEmpty then none else some (readBack r)

/-- When a rule has its say: one of the actions that `IsEmpty` looks at, an ID that is not only
white space, and a date that can be read. -/
def S3LifecycleRule.Kept (r : S3LifecycleRule) : Prop :=
  (r.dwDays ≠ 0 ∨ r.dwNoncurrentDays ≠ 0 ∨ r.ftDate ≠ 0 ∨ r.bExpiredDeleteMarkers = true) ∧
    blank r.sRuleID = false ∧ r.ftDate < endOfTime

/-- A rule as it should be read back. -/
def S3LifecycleRule.normalised (r : S3LifecycleRule) : S3LifecycleRule :=
  { r with sPath := withSlash r.sPath }

/-- A rule is read back as it was meant if its ID is told and its date can be written. -/
theorem readBack_eq_iff {r : S3LifecycleRule} (h : r.Proper) :
    readBack r = r.normalised ↔ blank r.sRuleID = false ∧ r.ftDate < endOfTime := by
  rw [← readDate_eq_iff h.seconds]
  unfold readBack S3LifecycleRule.normalised
  simp only [S3LifecycleRule.mk.injEq, true_and]
  refine and_congr ?_ Iff.rfl
  cases blank r.sRuleID with
  | false => simp
  | true => simpa using h.id

/-- **A rule is kept as it was** if and only if it has its say. `IsEmpty` looks at some of the
fields only, and a rule that sets none of them is dropped at its end. -/
theorem readRule_eq_some_iff {r : S3LifecycleRule} (h : r.Proper) :
    readRule r = some r.normalised ↔ r.Kept := by
  have hempty : r.normalised.isEmpty = false ↔
      r.dwDays ≠ 0 ∨ r.dwNoncurrentDays ≠ 0 ∨ r.ftDate ≠ 0 ∨ r.bExpiredDeleteMarkers = true := by
    simp only [S3LifecycleRule.isEmpty, S3LifecycleRule.normalised, h.id]
    grind
  unfold readRule S3LifecycleRule.Kept
  rw [← readBack_eq_iff h, ← hempty]
  split_ifs with hif
  · refine ⟨False.elim, fun ⟨h0, hback⟩ => ?_⟩
    rw [hback, h0] at hif
    exact (Bool.false_ne_true hif).elim
  · rw [Option.some.injEq]
    refine ⟨fun hback => ⟨?_, hback⟩, And.right⟩
    rw [← hback]
    exact Bool.not_eq_true _ ▸ hif

/-- The end of a rule keeps it, or drops it. -/
theorem endRule_onRule (r : S3LifecycleRule) (c : XmlS3LifecycleInfoContext) :
    (onRule (fun _ => r) c).endRule.lifecycleRules =
      c.lifecycleRules ++ if r.isEmpty then [] else [r] := by
  unfold XmlS3LifecycleInfoContext.endRule onRule
  dsimp only
  cases r.isEmpty with
  | true => exact (List.append_nil _).symm
  | false => rfl

/-- **A list of rules.** The induction is on the rules; what one leaves in the record the next one
does not see. -/
theorem foldl_rules {rules : List S3LifecycleRule} (h : ∀ r ∈ rules, r.Proper)
    (c : XmlS3LifecycleInfoContext) :
    (rules.foldl
      (fun c r => (XmlS3LifecycleInfoContext.endRule ∘ onRule fun _ => readElements r {}) c)
      c).lifecycleRules = c.lifecycleRules ++ rules.filterMap readRule := by
  induction rules generalizing c with
  | nil => exact (List.append_nil _).symm
  | cons r l ih =>
      rw [List.foldl_cons, ih fun r' hr' => h r' (List.mem_cons_of_mem _ hr'), Function.comp_apply,
        endRule_onRule, readElements_eq (h r (List.mem_cons_self ..)), List.append_assoc]
      congr 1
      by_cases hr : (readBack r).isEmpty = true
      · have hdrop : readRule r = none := if_pos hr
        rw [if_pos hr, List.filterMap_cons_none hdrop, List.nil_append]
      · have hkeep : readRule r = some (readBack r) := if_neg hr
        rw [if_neg hr, List.filterMap_cons_some hkeep, List.singleton_append]

/-- **A configuration is read back** without an error. So what a caller gets is `readRule` of each
rule that was put, in order, without those that are dropped. -/
theorem s3GetLifecycle_s3PutLifecycle {rules : List S3LifecycleRule} (h : ∀ r ∈ rules, r.Proper) :
    s3GetLifecycle { reading := s3PutLifecycle rules } [] = ({}, rules.filterMap readRule) := by
  obtain ⟨-, hplain, -⟩ := lifecyclePaths
  have hroot : Reads _ [] _ _ :=
    lifecycle_reads_plain (hplain ["LifecycleConfiguration".toList] (by simp))
      (Reads.flatMap reads_rule rules)
  have hscan : scanXmlStream xmlS3LifecycleInfoCB (s3PutLifecycle rules) {} = _ := hroot.document {}
  unfold s3GetLifecycle
  rw [if_neg (show ¬({} : S3Error).ifError = true from Bool.false_ne_true),
    if_neg (show ¬(6 : ℕ) = 0 by decide)]
  dsimp only
  rw [hscan]
  exact Prod.ext rfl (foldl_rules h {})

/-- **A configuration is read back as it was written**, with its paths normalised, if and only if each of
its rules has its say. -/
theorem lifecycle_readBack (rules : List S3LifecycleRule) (h : ∀ r ∈ rules, r.Proper) :
    (s3GetLifecycle { reading := s3PutLifecycle rules } []).1.ifError = false ∧
      ((s3GetLifecycle { reading := s3PutLifecycle rules } []).2 =
          rules.map S3LifecycleRule.normalised ↔ ∀ r ∈ rules, r.Kept) := by
  rw [s3GetLifecycle_s3PutLifecycle h]
  refine ⟨rfl, ?_⟩
  dsimp only
  rw [List.filterMap_eq_map_iff_forall_eq_some]
  exact forall₂_congr fun r hr => readRule_eq_some_iff (h r hr)

/-- A rule that only aborts uploads, and one that also expires objects. -/
def abortRule : S3LifecycleRule where
  sRuleID := "abort".toList
  bEnabled := true
  dwAbortIncompleteMultipartUploadDays := 7

@[inherit_doc abortRule]
def expiringRule : S3LifecycleRule := { abortRule with sPath := "logs".toList, dwDays := 30 }

/-- Their texts are ASCII. -/
theorem rules_ascii : ∀ r ∈ [abortRule, expiringRule],
    (r.sRuleID ++ r.sPath).all (fun c => c.toNat < 128) = true := by
  decide +kernel

/-- The rule that only aborts uploads is a proper one. -/
theorem abortRule_proper : abortRule.Proper where
  id := by decide +kernel
  ascii := by simpa only [List.all_eq_true, decide_eq_true_eq] using rules_ascii abortRule (by simp)
  action := by decide
  days := by decide
  noncurrentDays := by decide
  abortDays := by decide
  expiration := by decide
  seconds := by decide

/-- The rule with an expiration is a proper one. -/
theorem expiringRule_proper : expiringRule.Proper where
  id := by decide +kernel
  ascii := by
    simpa only [List.all_eq_true, decide_eq_true_eq] using rules_ascii expiringRule (by simp)
  action := by decide
  days := by decide
  noncurrentDays := by decide
  abortDays := by decide
  expiration := by decide
  seconds := by decide

/-- A rule with an expiration is read back as it was written. It sets a field that `IsEmpty` looks
at, so the callback keeps it, and nothing of it is white space alone. -/
theorem lifecycle_readBack_expiring :
    (s3GetLifecycle { reading := s3PutLifecycle [expiringRule] } []).2 =
      [expiringRule.normalised] := by
  have hproper : ∀ r ∈ [expiringRule], r.Proper := by
    simpa using expiringRule_proper
  refine (lifecycle_readBack [expiringRule] hproper).2.2 fun r hr => ?_
  rw [List.mem_singleton.1 hr]
  exact ⟨Or.inl (by decide +kernel), by decide +kernel, by decide +kernel⟩

/-- **A rule that only aborts uploads is lost.** `IsEmpty` does not look at the days after which
uploads are aborted, so the rule is taken for an empty one. -/
theorem abort_lost :
    abortRule.Proper ∧ (s3GetLifecycle { reading := s3PutLifecycle [abortRule] } []).2 = [] := by
  have hproper : ∀ r ∈ [abortRule], r.Proper := by
    simpa using abortRule_proper
  have hdrop : readRule abortRule = none := by decide +kernel
  rw [s3GetLifecycle_s3PutLifecycle hproper, List.filterMap_cons_none hdrop, List.filterMap_nil]
  exact ⟨abortRule_proper, rfl⟩

end Body
end ECSUtil

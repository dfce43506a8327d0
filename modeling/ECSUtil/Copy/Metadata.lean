/-
# Changing the metadata of an object

`UpdateMetadata` (`ECSUtil/ECSConnection.cpp`): the headers of the response to HEAD that start with
`x-amz-meta-` take the contents of the entries of their names, the entries that are left are added,
and the tags to delete are erased.

The merge changes no value (`lastOf_mergeHeaders`), but a header whose prefix is not in lower case is
not metadata to it: `updateMetadata_merges`.

The merge takes the entries of each header's name out of the list (`takeEntries_spec`), so what is
left names no header; and a name is looked up in the merged headers or in what is left
(`lastOf_mergeHeaders`).  The PUT then sends both, without the tags (`contents_updateHeaders`).
`metadataHeaders` is what the merge takes for the old metadata, which is where the prefix in lower
case comes in.
-/

import ECSUtil.Conn.Error
import ECSUtil.Copy.Headers

namespace ECSUtil
namespace Copy

/-- The first content of a header of a response. -/
def HeaderReq.front (r : HeaderReq) : CString := r.ContentList.headD []

/-- `ContentList.front() = s`. -/
def HeaderReq.setFront (r : HeaderReq) (s : CString) : HeaderReq :=
  { r with ContentList := s :: r.ContentList.tail }

/-- What `UpdateMetadata` takes for metadata. -/
def HeaderReq.isMetadata (r : HeaderReq) : Bool :=
  r.ContentList ≠ [] && startsWithPrefix r.sHeader

/-- A header takes the contents of the entries with its name, which are erased. -/
def takeEntries (r : HeaderReq) : List Header → HeaderReq × List Header
  | [] => (r, [])
  | h :: l =>
      if compareNoCase h.sHeader r.sHeader && r.ContentList ≠ [] then
        takeEntries (r.setFront h.sContents) l
      else ((takeEntries r l).1, h :: (takeEntries r l).2)

/-- Each header that is metadata does. -/
def mergeHeaders : List HeaderReq → List Header → List HeaderReq × List Header
  | [], MDList => ([], MDList)
  | r :: Req, MDList =>
      if r.isMetadata then
        let t := takeEntries r MDList
        let m := mergeHeaders Req t.2
        (t.1 :: m.1, m.2)
      else
        let m := mergeHeaders Req MDList
        (r :: m.1, m.2)

/-- A header of a response with its first content. -/
def HeaderReq.toHeader (r : HeaderReq) : Header := ⟨r.sHeader, r.front⟩

/-- The headers that are metadata. -/
def metadataHeaders (Req : List HeaderReq) : List Header :=
  (Req.filter HeaderReq.isMetadata).map HeaderReq.toHeader

/-- The headers of the PUT of `UpdateMetadata`, on top of those that HEAD left behind. -/
def updateHeaders (headers : Headers) (Req : List HeaderReq) (MDListParam : List Header)
    (pDeleteTagParam : Option (List CString)) (sSource : CString) : Headers :=
  let m := mergeHeaders Req MDListParam
  let headers := addHeaders m.2 (addHeaders (metadataHeaders m.1) headers)
  let headers := (pDeleteTagParam.getD []).foldl (fun h sTag => h.erase (lower sTag)) headers
  addHeaders [⟨"x-amz-copy-source".toList, sSource⟩,
    ⟨"x-amz-metadata-directive".toList, "REPLACE".toList⟩] headers

/-- `UpdateMetadata`: its error, and the headers that its PUT is sent with.  The response to HEAD is
its error and its lines. -/
def updateMetadata (init head put : Stamp) (response : S3Error × List CString) (putError : S3Error)
    (sSource : CString) (MDListParam : List Header) (pDeleteTagParam : Option (List CString)) :
    S3Error × Option Headers :=
  if response.1.ifError then (response.1, none)
  else
    (if putError.ifError then putError else {},
      some (sendHeaders put
        (updateHeaders (sendHeaders head (initHeader init)) (readHeaders response.2) MDListParam
          pDeleteTagParam sSource)))

/-- The metadata of an object: names are compared without regard to case. -/
def userMetadata (Req : List HeaderReq) : CString → Option CString :=
  lastOf ((Req.filter fun r => startsWithPrefix (lower r.sHeader)).map HeaderReq.toHeader)

/-- Metadata that is overridden, and from which names are deleted. -/
def updated (old new : CString → Option CString) (deleted : List CString) (key : CString) :
    Option CString :=
  if key ∈ deleted.map lower then none else (new key).or (old key)

/-- Entries of metadata. -/
def UserEntries (MDList : List Header) : Prop :=
  ∀ h ∈ MDList, trim h.sHeader = h.sHeader ∧ startsWithPrefix (lower h.sHeader) = true

/-- A header takes the last of the entries with its name for its content, and these entries are gone
from the list. -/
theorem takeEntries_spec {r : HeaderReq} (hr : r.ContentList ≠ []) (MDList : List Header) :
    (takeEntries r MDList).1.sHeader = r.sHeader ∧
      (takeEntries r MDList).1.ContentList ≠ [] ∧
      (takeEntries r MDList).1.front = (lastOf MDList (lower r.sHeader)).getD r.front ∧
      (takeEntries r MDList).2 = MDList.filter fun h => !compareNoCase h.sHeader r.sHeader := by
  induction MDList generalizing r with
  | nil => exact ⟨rfl, hr, rfl, rfl⟩
  | cons h l ih =>
      rw [takeEntries]
      cases hsame : compareNoCase h.sHeader r.sHeader with
      | true =>
          obtain ⟨h₁, h₂, h₃, h₄⟩ := ih (r := r.setFront h.sContents) (List.cons_ne_nil _ _)
          have hif : (true && decide (r.ContentList ≠ [])) = true := by simp [hr]
          rw [if_pos hif, lastOf, if_pos (compareNoCase_iff.1 hsame), Option.getD_or]
          refine ⟨h₁, h₂, h₃, ?_⟩
          rw [h₄, List.filter_cons_of_neg (by simp [hsame])]
          rfl
      | false =>
          obtain ⟨h₁, h₂, h₃, h₄⟩ := ih hr
          have hne : lower h.sHeader ≠ lower r.sHeader := fun heq => by
            rw [compareNoCase_iff.2 heq] at hsame
            exact Bool.noConfusion hsame
          rw [Bool.false_and, if_neg Bool.false_ne_true, lastOf, if_neg hne, Option.or_none]
          refine ⟨h₁, h₂, h₃, ?_⟩
          rw [h₄, List.filter_cons_of_pos (by simp [hsame])]

/-- Entries without those of a name. -/
theorem lastOf_filter_name (l : List Header) (name key : CString) :
    lastOf (l.filter fun h => !compareNoCase h.sHeader name) key =
      if key = lower name then none else lastOf l key := by
  induction l with
  | nil => exact (ite_self _).symm
  | cons h l ih =>
      cases hsame : compareNoCase h.sHeader name with
      | true =>
          rw [List.filter_cons_of_neg (by simp [hsame]), ih, lastOf, compareNoCase_iff.1 hsame]
          split_ifs with hkey hname
          · rfl
          · exact absurd hname.symm hkey
          · exact (Option.or_none).symm
      | false =>
          have hne : lower h.sHeader ≠ lower name := fun heq => by
            rw [compareNoCase_iff.2 heq] at hsame
            exact Bool.noConfusion hsame
          rw [List.filter_cons_of_pos (by simp [hsame]), lastOf, ih, lastOf]
          split_ifs with hkey hname hname
          · exact absurd (hname.trans hkey) hne
          · rfl
          · rfl
          · rfl

/-- The metadata of a response, header by header. -/
theorem metadataHeaders_cons (r : HeaderReq) (Req : List HeaderReq) :
    metadataHeaders (r :: Req) =
      if r.isMetadata then r.toHeader :: metadataHeaders Req else metadataHeaders Req := by
  unfold metadataHeaders
  split_ifs with h
  · rw [List.filter_cons_of_pos h, List.map_cons]
  · rw [List.filter_cons_of_neg h]

/-- No header of another name is found. -/
theorem lastOf_toHeader_eq_none {p : HeaderReq → Bool} {Req : List HeaderReq} {key : CString}
    (h : ∀ r ∈ Req, lower r.sHeader ≠ key) :
    lastOf ((Req.filter p).map HeaderReq.toHeader) key = none := by
  refine lastOf_eq_none.2 fun hd hm => ?_
  obtain ⟨r, hr, rfl⟩ := List.mem_map.1 hm
  exact h r (List.mem_filter.1 hr).1

/-- **The merge changes no value.** The entries of the list that have the name of a header become
its contents, and the others stay in the list; so a name has the value that the list gives it, or
that of the response. -/
theorem lastOf_mergeHeaders {Req : List HeaderReq}
    (h : Req.Pairwise fun r r' => lower r.sHeader ≠ lower r'.sHeader) (MDList : List Header)
    (key : CString) :
    (lastOf (mergeHeaders Req MDList).2 key).or
        (lastOf (metadataHeaders (mergeHeaders Req MDList).1) key) =
      (lastOf MDList key).or (lastOf (metadataHeaders Req) key) := by
  induction Req generalizing MDList with
  | nil => rfl
  | cons r Req ih =>
      obtain ⟨hr, hrest⟩ := List.pairwise_cons.1 h
      rw [mergeHeaders, metadataHeaders_cons]
      by_cases hmeta : r.isMetadata = true
      · have hcontent : r.ContentList ≠ [] := by
          simp only [HeaderReq.isMetadata, Bool.and_eq_true, decide_eq_true_eq] at hmeta
          exact hmeta.1
        obtain ⟨hname, hcontent', hfront, hleft⟩ := takeEntries_spec hcontent MDList
        have hmeta' : (takeEntries r MDList).1.isMetadata = true := by
          simp only [HeaderReq.isMetadata, Bool.and_eq_true, decide_eq_true_eq] at hmeta ⊢
          exact ⟨hcontent', hname ▸ hmeta.2⟩
        rw [if_pos hmeta, if_pos hmeta]
        dsimp only
        rw [metadataHeaders_cons, if_pos hmeta', lastOf, ← Option.or_assoc, ih hrest, lastOf, hleft,
          lastOf_filter_name]
        unfold HeaderReq.toHeader
        dsimp only
        rw [hname, hfront]
        by_cases hkey : key = lower r.sHeader
        · have hnone : lastOf (metadataHeaders Req) key = none :=
            lastOf_toHeader_eq_none fun r' hr' => hkey ▸ (hr r' hr').symm
          rw [if_pos hkey, if_pos hkey.symm, if_pos hkey.symm, hnone, ← hkey]
          cases lastOf MDList key <;> rfl
        · rw [if_neg hkey, if_neg (Ne.symm hkey), if_neg (Ne.symm hkey), Option.or_none,
            Option.or_none]
      · rw [if_neg hmeta, if_neg hmeta]
        dsimp only
        rw [metadataHeaders_cons, if_neg hmeta]
        exact ih hrest MDList

/-- A header that is metadata has a content. -/
theorem content_of_isMetadata {r : HeaderReq} (h : r.isMetadata = true) : r.ContentList ≠ [] := by
  simp only [HeaderReq.isMetadata, Bool.and_eq_true, decide_eq_true_eq] at h
  exact h.1

/-- The merge leaves the labels, and only takes entries away. -/
theorem mergeHeaders_labels (Req : List HeaderReq) (MDList : List Header) :
    (mergeHeaders Req MDList).1.map HeaderReq.sHeader = Req.map HeaderReq.sHeader ∧
      ∀ h ∈ (mergeHeaders Req MDList).2, h ∈ MDList := by
  induction Req generalizing MDList with
  | nil => exact ⟨rfl, fun _ => id⟩
  | cons r Req ih =>
      rw [mergeHeaders]
      split_ifs with hmeta
      · obtain ⟨hname, -, -, hleft⟩ := takeEntries_spec (content_of_isMetadata hmeta) MDList
        obtain ⟨hlabels, hsub⟩ := ih (takeEntries r MDList).2
        refine ⟨?_, fun h hm => ?_⟩
        · rw [List.map_cons, List.map_cons, hname, hlabels]
        · have hin := hsub h hm
          rw [hleft] at hin
          exact (List.mem_filter.1 hin).1
      · obtain ⟨hlabels, hsub⟩ := ih MDList
        exact ⟨by rw [List.map_cons, List.map_cons, hlabels], hsub⟩

/-- Metadata with trimmed names has trimmed names, whatever became of the contents. -/
theorem trimmed_metadataHeaders {Req Req' : List HeaderReq}
    (h : Req'.map HeaderReq.sHeader = Req.map HeaderReq.sHeader)
    (htrim : ∀ r ∈ Req, trim r.sHeader = r.sHeader) : Trimmed (metadataHeaders Req') := by
  intro hd hm
  obtain ⟨r', hr', rfl⟩ := List.mem_map.1 hm
  have hin : r'.sHeader ∈ Req.map HeaderReq.sHeader :=
    h ▸ List.mem_map.2 ⟨r', (List.mem_filter.1 hr').1, rfl⟩
  obtain ⟨r, hr, heq⟩ := List.mem_map.1 hin
  exact (heq ▸ htrim r hr : trim r'.sHeader = r'.sHeader)

/-- Erased tags are gone. -/
theorem contents_erase (headers : Headers) (tags : List CString) (key : CString) :
    contents (tags.foldl (fun h sTag => h.erase (lower sTag)) headers) key =
      if key ∈ tags.map lower then none else contents headers key := by
  induction tags generalizing headers with
  | nil => rfl
  | cons sTag tags ih =>
      rw [List.foldl_cons, ih]
      unfold contents
      rw [SortedMap.find_erase]
      simp only [List.map_cons, List.mem_cons]
      by_cases hkey : key = lower sTag
      · rw [if_pos hkey, if_pos (Or.inl hkey)]
        exact ite_self _
      · simp only [hkey, if_false, false_or]

/-- The source and its directive are headers of the requests' own. -/
theorem own_source (sSource : CString) : Own [⟨"x-amz-copy-source".toList, sSource⟩,
    ⟨"x-amz-metadata-directive".toList, "REPLACE".toList⟩] := by
  simp [Own]

/-- **The metadata of the PUT**: what the merge takes for the old metadata is overridden by the
entries, and the tags are deleted. -/
theorem contents_updateHeaders {headers : Headers} {Req : List HeaderReq} {MDList : List Header}
    (hReq : WellRead Req) (hMD : Trimmed MDList) (pDelete : Option (List CString))
    (sSource : CString) {key : CString} (hkey : startsWithPrefix key = true)
    (hnone : contents headers key = none) :
    contents (updateHeaders headers Req MDList pDelete sSource) key =
      updated (lastOf (metadataHeaders Req)) (lastOf MDList) (pDelete.getD []) key := by
  obtain ⟨hlabels, hsub⟩ := mergeHeaders_labels Req MDList
  have htrimmed := trimmed_metadataHeaders hlabels hReq.trimmed
  have hleft : Trimmed (mergeHeaders Req MDList).2 := fun h hm => hMD h (hsub h hm)
  unfold updateHeaders updated
  dsimp only
  rw [contents_addHeaders (own_source sSource).trimmed, (own_source sSource).lastOf hkey,
    Option.none_or, contents_erase, contents_addHeaders hleft, contents_addHeaders htrimmed, hnone,
    Option.or_none, lastOf_mergeHeaders hReq.distinct]

/-- What starts with the prefix still does in lower case. -/
theorem startsWithPrefix_lower {s : CString} (h : startsWithPrefix s = true) :
    startsWithPrefix (lower s) = true := by
  obtain ⟨t, rfl⟩ := List.isPrefixOf_iff_prefix.1 h
  have hlower : lower sAmzMetaPrefix = sAmzMetaPrefix := by decide +kernel
  rw [lower, List.map_append, ← lower, hlower]
  exact List.isPrefixOf_iff_prefix.2 (List.prefix_append _ _)

/-- Only the headers with a name tell its value. -/
theorem lastOf_filter_congr {p q : HeaderReq → Bool} {Req : List HeaderReq} {key : CString}
    (h : ∀ r ∈ Req, lower r.sHeader = key → p r = q r) :
    lastOf ((Req.filter p).map HeaderReq.toHeader) key =
      lastOf ((Req.filter q).map HeaderReq.toHeader) key := by
  have hskip : ∀ (p : HeaderReq → Bool) (r : HeaderReq) (l : List HeaderReq),
      lower r.sHeader ≠ key → lastOf (((r :: l).filter p).map HeaderReq.toHeader) key =
        lastOf ((l.filter p).map HeaderReq.toHeader) key := by
    intro p r l hne
    by_cases hp : p r = true
    · rw [List.filter_cons_of_pos hp, List.map_cons, lastOf,
        if_neg (show lower r.toHeader.sHeader ≠ key from hne), Option.or_none]
    · rw [List.filter_cons_of_neg hp]
  induction Req with
  | nil => rfl
  | cons r l ih =>
      have ih' := ih fun r' hr' => h r' (List.mem_cons_of_mem _ hr')
      by_cases hname : lower r.sHeader = key
      · have hr := h r (List.mem_cons_self ..) hname
        by_cases hp : p r = true
        · rw [List.filter_cons_of_pos hp, List.filter_cons_of_pos (hr ▸ hp), List.map_cons,
            List.map_cons, lastOf, lastOf, ih']
        · rw [List.filter_cons_of_neg hp, List.filter_cons_of_neg (hr ▸ hp), ih']
      · rw [hskip p r l hname, hskip q r l hname, ih']

/-- There is one header of each name. -/
theorem WellRead.eq_of_lower {Req : List HeaderReq} (h : WellRead Req) {r r' : HeaderReq}
    (hr : r ∈ Req) (hr' : r' ∈ Req) (heq : lower r.sHeader = lower r'.sHeader) : r = r' := by
  have hnodup : (Req.map fun r => lower r.sHeader).Nodup := List.pairwise_map.2 h.distinct
  exact List.inj_on_of_nodup_map hnodup hr hr' heq

/-- The merge and the user see the same metadata under a name, if and only if the header of that name
has its prefix in lower case. -/
theorem lastOf_metadataHeaders_iff {Req : List HeaderReq} (h : WellRead Req) {r : HeaderReq}
    (hr : r ∈ Req) (hmeta : startsWithPrefix (lower r.sHeader) = true) :
    lastOf (metadataHeaders Req) (lower r.sHeader) = userMetadata Req (lower r.sHeader) ↔
      startsWithPrefix r.sHeader = true := by
  have honly : ∀ r' ∈ Req, lower r'.sHeader = lower r.sHeader → r' = r := fun r' hr' heq =>
    h.eq_of_lower hr' hr heq
  refine ⟨fun heq => ?_, fun hstarts => lastOf_filter_congr fun r' hr' hname => ?_⟩
  · by_contra hno
    have hnone : lastOf (metadataHeaders Req) (lower r.sHeader) = none := by
      refine lastOf_eq_none.2 fun hd hm hname => ?_
      obtain ⟨r', hr', rfl⟩ := List.mem_map.1 hm
      obtain ⟨hin, hmeta'⟩ := List.mem_filter.1 hr'
      rw [honly r' hin hname, HeaderReq.isMetadata, Bool.and_eq_true] at hmeta'
      exact hno hmeta'.2
    rw [hnone] at heq
    exact lastOf_eq_none.1 heq.symm r.toHeader
      (List.mem_map.2 ⟨r, List.mem_filter.2 ⟨hr, hmeta⟩, rfl⟩) rfl
  · obtain rfl := honly r' hr' hname
    simp [HeaderReq.isMetadata, h.content r' hr', hstarts, hmeta]

/-- A name that no header has is no name to either. -/
theorem lastOf_metadataHeaders_of_notMem {Req : List HeaderReq} {key : CString}
    (h : ∀ r ∈ Req, lower r.sHeader ≠ key) :
    lastOf (metadataHeaders Req) key = userMetadata Req key :=
  lastOf_filter_congr fun r hr hname => absurd hname (h r hr)

/-- A tag is among others in lower case where it is the same as one of them. -/
theorem mem_map_lower {tags : List CString} {s : CString} :
    lower s ∈ tags.map lower ↔ ∃ sTag ∈ tags, compareNoCase sTag s = true := by
  simp only [List.mem_map, compareNoCase_iff]

/-- **The metadata of an object is updated** if and only if each name of it has its prefix in lower
case, or is overridden, or deleted. -/
theorem updateMetadata_merges (init head put : Stamp) (response : S3Error × List CString)
    (putError : S3Error) (sSource : CString) (MDListParam : List Header)
    (pDeleteTagParam : Option (List CString)) (hhead : response.1.ifError = false)
    (hMD : UserEntries MDListParam) :
    ∃ headers,
      (updateMetadata init head put response putError sSource MDListParam pDeleteTagParam).2 =
          some headers ∧
        Labelled headers ∧
        ((∀ key, startsWithPrefix key = true →
            contents headers key =
              updated (userMetadata (readHeaders response.2)) (lastOf MDListParam)
                (pDeleteTagParam.getD []) key) ↔
          ∀ r ∈ readHeaders response.2, startsWithPrefix (lower r.sHeader) = true →
            startsWithPrefix r.sHeader = true ∨
              (∃ h ∈ MDListParam, compareNoCase h.sHeader r.sHeader = true) ∨
              ∃ sTag ∈ pDeleteTagParam.getD [], compareNoCase sTag r.sHeader = true) := by
  have hread := wellRead_readHeaders response.2
  set Req := readHeaders response.2
  set tags := pDeleteTagParam.getD []
  refine ⟨_, by rw [updateMetadata, hhead]; rfl, ?_, ?_⟩
  · refine Labelled.sendHeaders (Labelled.addHeaders ?_ _) put
    have herase : ∀ (l : List CString) (h : Headers), Labelled h →
        Labelled (l.foldl (fun h sTag => h.erase (lower sTag)) h) := by
      intro l
      induction l with
      | nil => exact fun _ => id
      | cons sTag l ih => exact fun h hl => ih _ (hl.erase _)
    exact herase _ _ (Labelled.addHeaders (Labelled.addHeaders
      ((labelled_initHeader init).sendHeaders head) _) _)
  · have hcontents : ∀ key, startsWithPrefix key = true →
        contents (sendHeaders put (updateHeaders (sendHeaders head (initHeader init)) Req MDListParam
          pDeleteTagParam sSource)) key =
          updated (lastOf (metadataHeaders Req)) (lastOf MDListParam) tags key := fun key hkey => by
      have hnone : contents (sendHeaders head (initHeader init)) key = none := by
        rw [contents_sendHeaders_of_starts head _ hkey, contents_initHeader init hkey]
      rw [contents_sendHeaders_of_starts put _ hkey,
        contents_updateHeaders hread (fun h hm => (hMD h hm).1) pDeleteTagParam sSource hkey hnone]
    refine ⟨fun hall r hr hmeta => ?_, fun hcond key hkey => ?_⟩
    · by_contra hno
      obtain ⟨hstarts, hnew, htag⟩ : ¬startsWithPrefix r.sHeader = true ∧ _ ∧ _ := by
        simpa only [not_or] using hno
      have hkeep : lower r.sHeader ∉ tags.map lower := fun hm => htag (mem_map_lower.1 hm)
      have hfresh : lastOf MDListParam (lower r.sHeader) = none :=
        lastOf_eq_none.2 fun h hm heq => hnew ⟨h, hm, compareNoCase_iff.2 heq⟩
      have heq := hall _ hmeta
      rw [hcontents _ hmeta, updated, updated, if_neg hkeep, if_neg hkeep, hfresh, Option.none_or,
        Option.none_or] at heq
      exact hstarts ((lastOf_metadataHeaders_iff hread hr hmeta).1 heq)
    · rw [hcontents key hkey, updated, updated]
      by_cases hdel : key ∈ tags.map lower
      · rw [if_pos hdel, if_pos hdel]
      · rw [if_neg hdel, if_neg hdel]
        cases hnew : lastOf MDListParam key with
        | some v => rfl
        | none =>
            rw [Option.none_or, Option.none_or]
            by_cases hex : ∃ r ∈ Req, lower r.sHeader = key
            · obtain ⟨r, hr, rfl⟩ := hex
              refine (lastOf_metadataHeaders_iff hread hr hkey).2 ?_
              rcases hcond r hr hkey with h | ⟨h, hm, hsame⟩ | htag
              · exact h
              · exact absurd (compareNoCase_iff.1 hsame) (lastOf_eq_none.1 hnew h hm)
              · exact absurd (mem_map_lower.2 htag) hdel
            · exact lastOf_metadataHeaders_of_notMem fun r hr heq => hex ⟨r, hr, heq⟩

/-- A stamp. -/
def noon : Stamp where
  sHost := "h".toList
  sCanonicalTime := "12:00".toList
  sISO8601Time := "12:00".toList
  sPayloadHash := []
  bS3AuthV4 := false

/-- A response with one header of metadata, its prefix in lower case. -/
def lowerResponse : S3Error × List CString := ({}, ["x-amz-meta-Tag: red".toList])

/-- A response with one whose prefix is not. -/
def upperResponse : S3Error × List CString := ({}, ["X-Amz-Meta-Tag: red".toList])

/-- The name of both. -/
def tagName : CString := "x-amz-meta-tag".toList

/-- What is read of them. -/
theorem readHeaders_responses :
    readHeaders lowerResponse.2 = [⟨"x-amz-meta-Tag".toList, ["red".toList]⟩] ∧
      readHeaders upperResponse.2 = [⟨"X-Amz-Meta-Tag".toList, ["red".toList]⟩] ∧
      startsWithPrefix tagName = true ∧ startsWithPrefix "x-amz-meta-Tag".toList = true ∧
      trim tagName = tagName ∧ startsWithPrefix (lower tagName) = true ∧
      updated (userMetadata [⟨"x-amz-meta-Tag".toList, ["red".toList]⟩])
        (lastOf [⟨tagName, "blue".toList⟩]) [] tagName = some "blue".toList ∧
      updated (userMetadata [⟨"X-Amz-Meta-Tag".toList, ["red".toList]⟩]) (lastOf []) [] tagName =
        some "red".toList ∧
      updated (lastOf (metadataHeaders [⟨"X-Amz-Meta-Tag".toList, ["red".toList]⟩])) (lastOf []) []
        tagName = none := by
  decide +kernel

/-- An entry overrides the metadata of its name, whose prefix is in lower case. The server has told
the name in lower case, as the prefix is compared with case, so it is found in the response and
overridden. -/
theorem updateMetadata_merges_lower : ∃ headers,
    (updateMetadata noon noon noon lowerResponse {} "/b/k".toList [⟨tagName, "blue".toList⟩]
      none).2 = some headers ∧ contents headers tagName = some "blue".toList := by
  obtain ⟨hlines, -, hkey, hstarts, htrim, hlower, hupdated, -, -⟩ := readHeaders_responses
  have hMD : UserEntries [⟨tagName, "blue".toList⟩] := fun h hm => by
    rw [List.mem_singleton.1 hm]
    exact ⟨htrim, hlower⟩
  obtain ⟨headers, hsent, -, hiff⟩ := updateMetadata_merges noon noon noon lowerResponse {}
    "/b/k".toList [⟨tagName, "blue".toList⟩] none rfl hMD
  refine ⟨headers, hsent, ?_⟩
  rw [hlines] at hiff
  rw [hiff.2 (fun r hr _ => Or.inl (List.mem_singleton.1 hr ▸ hstarts)) tagName hkey]
  exact hupdated

/-- **Metadata is lost**: a name whose prefix is not in lower case is not sent, though nothing
overrides or deletes it. -/
theorem metadata_lost : ∃ headers,
    (updateMetadata noon noon noon upperResponse {} "/b/k".toList [] none).2 = some headers ∧
      contents headers tagName = none ∧
      updated (userMetadata (readHeaders upperResponse.2)) (lastOf []) [] tagName =
        some "red".toList := by
  obtain ⟨-, hlines, hkey, -, -, -, -, hmeant, hlost⟩ := readHeaders_responses
  have hnone : contents (sendHeaders noon (initHeader noon)) tagName = none := by
    rw [contents_sendHeaders_of_starts noon _ hkey, contents_initHeader noon hkey]
  refine ⟨_, rfl, ?_, hlines ▸ hmeant⟩
  rw [contents_sendHeaders_of_starts noon _ hkey,
    contents_updateHeaders (wellRead_readHeaders _) (by simp [Trimmed]) none _ hkey hnone, hlines]
  exact hlost

end Copy
end ECSUtil

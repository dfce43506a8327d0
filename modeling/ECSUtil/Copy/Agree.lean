/-
# Two ways to copy an object

An object below 5 GB is created by the request that copies it, and a larger one by the request that
initiates a multipart upload.  The first sends of a list only what starts with `x-amz-meta-`, the
second all of it: `copies_agree`.

What either request sends of a list is a function from names in lower case to contents (`lastOf`,
`contents_copyHeaders`), so the two are compared name by name.  A header of the list is sent by
both, or is one that the initiating request overwrites with a header of its own (`Own`), or the two
differ in it.

`RenameS3` makes its list from a response, where the names are trimmed and different
(`readSource_list`); but there, too, the tag of the source is among the headers that only the second
request sends (`etag_sent`).
-/

import ECSUtil.Copy.Copy

namespace ECSUtil
namespace Copy

open Xml

/-- The labels of the headers of an initiating request, without a list. -/
def ownKeys (t : Stamp) : List CString :=
  ["host".toList, "content-type".toList, t.date.sHeader] ++
    if t.bS3AuthV4 then ["x-amz-content-sha256".toList] else []

/-- A list of headers with different names. -/
def Distinct (l : List Header) : Prop := l.Pairwise fun h h' => lower h.sHeader ≠ lower h'.sHeader

/-- The headers of the request that creates the target of a copy. -/
def createdWith : List Request → Option Headers
  | .copy _ headers :: _ => some headers
  | .initiate _ headers :: _ => some headers
  | _ => none

/-- Some metadata, and nothing else of a list, is what a copy sends besides the headers that it sends
without a list, whatever the size of the object. -/
def SameMetadata (t : Stamp) (sSrcPath sTargetPath : CString) (bCopyMD : Bool)
    (MDList : List Header) : Prop :=
  ∃ metadata : CString → Option CString,
    (∀ key, metadata key ≠ none → startsWithPrefix key = true) ∧
      ∀ (replies : Replies) (ullObjSize : ℕ), ∃ headers own : Headers,
        createdWith (copyS3 replies t sSrcPath sTargetPath bCopyMD ullObjSize MDList).2 =
            some headers ∧
          createdWith (copyS3 replies t sSrcPath sTargetPath bCopyMD ullObjSize []).2 = some own ∧
          ∀ key, contents headers key = (metadata key).or (contents own key)

/-- The same of the two requests. -/
def SameHeaders (t : Stamp) (sSrcPath : CString) (bCopyMD : Bool) (MDList : List Header) : Prop :=
  ∃ metadata : CString → Option CString,
    (∀ key, metadata key ≠ none → startsWithPrefix key = true) ∧
      ∀ key,
        contents (copyHeaders t sSrcPath bCopyMD MDList) key =
            (metadata key).or (contents (copyHeaders t sSrcPath bCopyMD []) key) ∧
          contents (initiateHeaders t MDList) key =
            (metadata key).or (contents (initiateHeaders t []) key)

/-- What the request of a single copy takes of a list. -/
def isSent (h : Header) : Bool := h.sContents ≠ [] && startsWithPrefix h.sHeader

variable {t : Stamp}

/-- What is sent under a key depends on what is there under it. -/
theorem contents_sendHeaders_congr {headers headers' : Headers} {key : CString}
    (h : contents headers key = contents headers' key) :
    contents (sendHeaders t headers) key = contents (sendHeaders t headers') key := by
  unfold sendHeaders
  rw [contents_addHeaders (own_send t).trimmed, contents_addHeaders (own_send t).trimmed]
  simp only [contents_refresh, h]

/-- The host and the date are the request's own. -/
theorem contents_sendHeaders_own {headers headers' : Headers} {key : CString}
    (hkey : key = "host".toList ∨ key = t.date.sHeader)
    (h : (contents headers key).isSome) (h' : (contents headers' key).isSome) :
    contents (sendHeaders t headers) key = contents (sendHeaders t headers') key := by
  obtain ⟨v, hv⟩ := Option.isSome_iff_exists.1 h
  obtain ⟨w, hw⟩ := Option.isSome_iff_exists.1 h'
  have hlabel : key = "host".toList ∨ key = "x-amz-date".toList ∨ key = "date".toList := by
    refine hkey.imp_right fun hdate => ?_
    unfold Stamp.date at hdate
    split_ifs at hdate
    · exact .inl hdate
    · exact .inr hdate
  unfold sendHeaders
  rw [contents_addHeaders (own_send t).trimmed, contents_addHeaders (own_send t).trimmed]
  simp only [contents_refresh, hv, hw, Option.map_some]
  rcases hlabel with h0 | h0 | h0 <;> simp only [h0, if_true] <;> split_ifs <;> rfl

/-- Sending takes no header away. -/
theorem isSome_sendHeaders {headers : Headers} {key : CString}
    (h : (contents headers key).isSome = true) :
    (contents (sendHeaders t headers) key).isSome = true := by
  obtain ⟨v, hv⟩ := Option.isSome_iff_exists.1 h
  unfold sendHeaders
  rw [contents_addHeaders (own_send t).trimmed, Option.isSome_or, Bool.or_eq_true]
  right
  simp only [contents_refresh, hv, Option.map_some]
  split_ifs <;> rfl

/-- A name has a content behind a list if it is in the list, or had one before. -/
theorem isSome_addHeaders {l : List Header} (h : Trimmed l) {headers : Headers} {key : CString} :
    (contents (addHeaders l headers) key).isSome =
      ((lastOf l key).isSome || (contents headers key).isSome) := by
  rw [contents_addHeaders h, Option.isSome_or]

/-- The headers common to all requests. -/
theorem contents_initHeader_eq (t : Stamp) (key : CString) :
    contents (initHeader t) key = lastOf [⟨"host".toList, t.sHost⟩, t.date] key := by
  rw [initHeader, contents_addHeaders (own_date t).trimmed]
  exact Option.or_none

/-- The content type of a copy by parts is a header of its own. -/
theorem own_contentType : Own [⟨"content-type".toList, "application/octet-stream".toList⟩] := by
  simp [Own]

/-- The name of a header of its own is in lower case already. -/
theorem Own.lower_eq {l : List Header} (h : Own l) {hd : Header} (hm : hd ∈ l) :
    lower hd.sHeader = hd.sHeader := by
  obtain ⟨label, hlabel, heq⟩ := h hd hm
  rw [heq]
  exact (ownLabels label hlabel).2.1

/-- A key that is no label of theirs. -/
theorem Own.lastOf_eq_none {l : List Header} (h : Own l) {key : CString}
    (hkey : key ∉ l.map Header.sHeader) : Copy.lastOf l key = none := by
  refine Copy.lastOf_eq_none.2 fun hd hm heq => hkey ?_
  rw [← heq, h.lower_eq hm]
  exact List.mem_map_of_mem hm

/-- A key that is one. -/
theorem Own.isSome_lastOf {l : List Header} (h : Own l) {key : CString}
    (hkey : key ∈ l.map Header.sHeader) : (Copy.lastOf l key).isSome = true := by
  obtain ⟨hd, hm, rfl⟩ := List.mem_map.1 hkey
  rw [← Option.ne_none_iff_isSome]
  exact fun hnone => Copy.lastOf_eq_none.1 hnone hd hm (h.lower_eq hm)

/-- The own headers of an initiating request are overwritten. -/
theorem contents_initiateHeaders_own {MDList : List Header} (h : Trimmed MDList) {key : CString}
    (hkey : key ∈ ownKeys t) :
    contents (initiateHeaders t MDList) key = contents (initiateHeaders t []) key := by
  have hinit : ∀ l, Trimmed l → key ∈ ["host".toList, t.date.sHeader] →
      (contents (addHeaders [⟨"content-type".toList, "application/octet-stream".toList⟩]
        (addHeaders l (initHeader t))) key).isSome = true := by
    intro l hl hk
    rw [isSome_addHeaders own_contentType.trimmed, isSome_addHeaders hl, contents_initHeader_eq,
      (own_date t).isSome_lastOf hk, Bool.or_true, Bool.or_true]
  rcases List.mem_append.1 hkey with hkey | hkey
  · simp only [List.mem_cons, List.not_mem_nil, or_false] at hkey
    rcases hkey with hhost | htype | hdate
    · exact contents_sendHeaders_own (.inl hhost) (hinit _ h (by simp [hhost]))
        (hinit _ (by simp [Trimmed]) (by simp [hhost]))
    · refine contents_sendHeaders_congr ?_
      have hlabel : key ∈ [(⟨"content-type".toList, "application/octet-stream".toList⟩ : Header)].map
          Header.sHeader := by simp [htype]
      obtain ⟨v, hv⟩ := Option.isSome_iff_exists.1 (own_contentType.isSome_lastOf hlabel)
      rw [contents_addHeaders own_contentType.trimmed, contents_addHeaders own_contentType.trimmed,
        hv, Option.some_or, Option.some_or]
    · exact contents_sendHeaders_own (.inr hdate) (hinit _ h (by simp [hdate]))
        (hinit _ (by simp [Trimmed]) (by simp [hdate]))
  · obtain ⟨v, hv⟩ : ∃ v, lastOf (if t.bS3AuthV4 then
        [⟨"x-amz-content-sha256".toList, t.sPayloadHash⟩] else []) key = some v := by
      refine Option.isSome_iff_exists.1 ((own_send t).isSome_lastOf ?_)
      split_ifs at hkey ⊢
      · exact hkey
      · exact absurd hkey List.not_mem_nil
    unfold initiateHeaders sendHeaders
    rw [contents_addHeaders (own_send t).trimmed, contents_addHeaders (own_send t).trimmed, hv,
      Option.some_or, Option.some_or]

/-- What is not among them is there only if the list has it. -/
theorem contents_initiateHeaders_nil {key : CString} (hkey : key ∉ ownKeys t) :
    contents (initiateHeaders t []) key = none := by
  unfold ownKeys at hkey
  simp only [List.mem_append, List.mem_cons, List.not_mem_nil, or_false, not_or] at hkey
  obtain ⟨⟨hhost, htype, hdate⟩, hhash⟩ := hkey
  have hinner : contents (addHeaders [⟨"content-type".toList, "application/octet-stream".toList⟩]
      (addHeaders [] (initHeader t))) key = none := by
    rw [contents_addHeaders own_contentType.trimmed,
      own_contentType.lastOf_eq_none (by simpa using htype), Option.none_or]
    exact (contents_initHeader_eq t key).trans
      ((own_date t).lastOf_eq_none (by simpa using ⟨hhost, hdate⟩))
  have hsent : lastOf (if t.bS3AuthV4 then
      [⟨"x-amz-content-sha256".toList, t.sPayloadHash⟩] else []) key = none := by
    refine (own_send t).lastOf_eq_none ?_
    split_ifs at hhash ⊢
    · exact hhash
    · exact List.not_mem_nil
  unfold initiateHeaders sendHeaders
  rw [contents_addHeaders (own_send t).trimmed, hsent, Option.none_or]
  simp only [contents_refresh, hinner, Option.map_none, ite_self]

/-- The request that initiates an upload sends every name of the list. -/
theorem isSome_initiateHeaders {MDList : List Header} (h : Trimmed MDList) {key : CString}
    (hsome : (lastOf MDList key).isSome = true) :
    (contents (initiateHeaders t MDList) key).isSome = true := by
  refine isSome_sendHeaders ?_
  rw [isSome_addHeaders own_contentType.trimmed, isSome_addHeaders h, hsome, Bool.true_or,
    Bool.or_true]

/-- The request that initiates an upload sends of a name that is not in the list what it sends
without one. -/
theorem contents_initiateHeaders_of_none {MDList : List Header} (h : Trimmed MDList) {key : CString}
    (hnone : lastOf MDList key = none) :
    contents (initiateHeaders t MDList) key = contents (initiateHeaders t []) key := by
  refine contents_sendHeaders_congr ?_
  rw [contents_addHeaders own_contentType.trimmed, contents_addHeaders h, hnone, Option.none_or,
    contents_addHeaders own_contentType.trimmed]
  rfl

/-- The metadata of an initiating request is all of the list. -/
theorem contents_initiateHeaders_of_starts {MDList : List Header} (h : Trimmed MDList)
    {key : CString} (hkey : startsWithPrefix key = true) :
    contents (initiateHeaders t MDList) key = lastOf MDList key := by
  unfold initiateHeaders
  rw [contents_sendHeaders_of_starts t _ hkey, contents_addHeaders own_contentType.trimmed,
    own_contentType.lastOf hkey, Option.none_or, contents_addHeaders h, contents_initHeader t hkey,
    Option.or_none]

/-- The source of a single copy and its directive are headers of its own. -/
theorem own_copySource (sSrcPath : CString) (bCopyMD : Bool) :
    Own [⟨"x-amz-copy-source".toList, sSrcPath⟩,
      ⟨"x-amz-metadata-directive".toList, (if bCopyMD then "COPY" else "REPLACE").toList⟩] := by
  simp [Own]

variable {sSrcPath : CString} {bCopyMD : Bool} {MDList : List Header}

/-- What is sent of a trimmed list is trimmed. -/
theorem trimmed_filter (h : Trimmed MDList) : Trimmed (MDList.filter isSent) := fun hd hm =>
  h hd (List.mem_filter.1 hm).1

/-- What it takes of the list is metadata. -/
theorem lastOf_isSent_of_not_starts {key : CString} (hkey : ¬startsWithPrefix key = true) :
    lastOf (MDList.filter isSent) key = none := by
  refine lastOf_eq_none.2 fun hd hm heq => hkey ?_
  have hsent := (List.mem_filter.1 hm).2
  rw [isSent, Bool.and_eq_true] at hsent
  exact heq ▸ startsWithPrefix_lower hsent.2

/-- The metadata of the request of a single copy. -/
theorem contents_copyHeaders_of_starts (h : Trimmed MDList) {key : CString}
    (hkey : startsWithPrefix key = true) :
    contents (copyHeaders t sSrcPath bCopyMD MDList) key = lastOf (MDList.filter isSent) key := by
  unfold copyHeaders
  rw [contents_sendHeaders_of_starts t _ hkey]
  refine (contents_addHeaders (trimmed_filter h) _ key).trans ?_
  rw [contents_addHeaders (own_copySource sSrcPath bCopyMD).trimmed,
    (own_copySource sSrcPath bCopyMD).lastOf hkey, Option.none_or, contents_initHeader t hkey,
    Option.or_none]

/-- **What the request of a single copy sends** besides its own headers is what it takes of the
list. -/
theorem contents_copyHeaders (h : Trimmed MDList) (key : CString) :
    contents (copyHeaders t sSrcPath bCopyMD MDList) key =
      (lastOf (MDList.filter isSent) key).or (contents (copyHeaders t sSrcPath bCopyMD []) key) := by
  by_cases hkey : startsWithPrefix key = true
  · rw [contents_copyHeaders_of_starts h hkey,
      contents_copyHeaders_of_starts (show Trimmed [] by simp [Trimmed]) hkey]
    exact (Option.or_none).symm
  · have hnone : lastOf (MDList.filter isSent) key = none := lastOf_isSent_of_not_starts hkey
    rw [hnone, Option.none_or]
    refine contents_sendHeaders_congr ?_
    refine (contents_addHeaders (trimmed_filter h) _ key).trans ?_
    rw [hnone, Option.none_or]
    rfl

/-- Of a list with different names a name tells the header. -/
theorem Distinct.eq_of_lower (h : Distinct MDList) {hd hd' : Header} (hm : hd ∈ MDList)
    (hm' : hd' ∈ MDList) (heq : lower hd.sHeader = lower hd'.sHeader) : hd = hd' :=
  List.inj_on_of_nodup_map (show (MDList.map fun h => lower h.sHeader).Nodup from
    List.pairwise_map.2 h) hm hm' heq

/-- What is left out has another name. -/
theorem lastOf_filter_of_forall {p : Header → Bool} {l : List Header} {key : CString}
    (h : ∀ hd ∈ l, lower hd.sHeader = key → p hd = true) :
    lastOf (l.filter p) key = lastOf l key := by
  induction l with
  | nil => rfl
  | cons hd l ih =>
      have ih' := ih fun hd' hm => h hd' (List.mem_cons_of_mem _ hm)
      by_cases hp : p hd = true
      · rw [List.filter_cons_of_pos hp, lastOf, lastOf, ih']
      · have hne : lower hd.sHeader ≠ key := fun heq => hp (h hd (List.mem_cons_self ..) heq)
        rw [List.filter_cons_of_neg hp, lastOf, if_neg hne, Option.or_none, ih']

/-- The own headers are no metadata. -/
theorem not_starts_of_mem_ownKeys {key : CString} (hkey : key ∈ ownKeys t) :
    ¬startsWithPrefix key = true := by
  have hlabel : ∃ label ∈ ["host", "date", "x-amz-date", "x-amz-content-sha256",
      "x-amz-copy-source", "x-amz-metadata-directive", "content-type"], key = label.toList := by
    unfold ownKeys Stamp.date at hkey
    split_ifs at hkey <;> simp at hkey ⊢ <;> tauto
  obtain ⟨label, hm, rfl⟩ := hlabel
  rw [(ownLabels label hm).2.2]
  exact Bool.false_ne_true

/-- What the initiating request sends of a list must be metadata that the other one sends. -/
theorem SameHeaders.isSent_or_own (hsame : SameHeaders t sSrcPath bCopyMD MDList)
    (htrim : Trimmed MDList) (hdistinct : Distinct MDList) {h : Header} (hm : h ∈ MDList) :
    isSent h = true ∨ lower h.sHeader ∈ ownKeys t := by
  obtain ⟨metadata, hmeta, hsame⟩ := hsame
  by_contra hno
  obtain ⟨hsent, hkey⟩ := not_or.1 hno
  obtain ⟨hcopy, hinitiate⟩ := hsame (lower h.sHeader)
  -- the initiating request sends it, so it is some of the metadata
  have hlast : (lastOf MDList (lower h.sHeader)).isSome = true := by
    rw [Option.isSome_iff_ne_none, ne_eq, lastOf_eq_none]
    exact fun hall => hall h hm rfl
  have hsome := isSome_initiateHeaders (t := t) htrim hlast
  rw [hinitiate, contents_initiateHeaders_nil hkey, Option.or_none, Option.isSome_iff_ne_none]
    at hsome
  -- and so the other one sends it, too
  have hstarts := hmeta _ hsome
  rw [contents_copyHeaders_of_starts htrim hstarts,
    contents_copyHeaders_of_starts (show Trimmed [] by simp [Trimmed]) hstarts] at hcopy
  have hfound : lastOf (MDList.filter isSent) (lower h.sHeader) ≠ none := by
    rw [hcopy]
    exact fun h0 => hsome (Option.or_eq_none_iff.1 h0).1
  obtain ⟨hd, hd', hname⟩ : ∃ hd ∈ MDList.filter isSent, lower hd.sHeader = lower h.sHeader := by
    by_contra hex
    exact hfound (lastOf_eq_none.2 fun hd hd' heq => hex ⟨hd, hd', heq⟩)
  obtain ⟨hin, hsent'⟩ := List.mem_filter.1 hd'
  exact hsent (hdistinct.eq_of_lower hin hm hname ▸ hsent')

/-- And where it is, both send it. -/
theorem sameHeaders_of_forall (htrim : Trimmed MDList)
    (hall : ∀ h ∈ MDList, isSent h = true ∨ lower h.sHeader ∈ ownKeys t) :
    SameHeaders t sSrcPath bCopyMD MDList := by
  refine ⟨lastOf (MDList.filter isSent), fun key hne => ?_, fun key =>
    ⟨contents_copyHeaders htrim key, ?_⟩⟩
  · by_contra hno
    exact hne (lastOf_isSent_of_not_starts hno)
  · by_cases hkey : startsWithPrefix key = true
    · have hnil : contents (initiateHeaders t []) key = none :=
        contents_initiateHeaders_of_starts (by simp [Trimmed]) hkey
      rw [contents_initiateHeaders_of_starts htrim hkey, hnil, Option.or_none]
      refine (lastOf_filter_of_forall fun hd hm hname => ?_).symm
      exact (hall hd hm).resolve_right fun hown =>
        not_starts_of_mem_ownKeys hown (hname.symm ▸ hkey)
    · rw [lastOf_isSent_of_not_starts hkey, Option.none_or]
      by_cases hown : key ∈ ownKeys t
      · exact contents_initiateHeaders_own htrim hown
      · refine contents_initiateHeaders_of_none htrim (lastOf_eq_none.2 fun hd hm hname => ?_)
        rcases hall hd hm with hsent | hown'
        · rw [isSent, Bool.and_eq_true] at hsent
          exact hkey (hname ▸ startsWithPrefix_lower hsent.2)
        · exact hown (hname ▸ hown')

/-- A multipart copy begins with the request that initiates it. -/
theorem copyMultipart_head (replies : Replies) (t : Stamp) {sTargetPath : CString}
    (htarget : sTargetPath ≠ []) (ullObjSize : ℕ) (MDList : List Header) :
    ∃ sent, (copyMultipart replies t sTargetPath ullObjSize MDList).2 =
      .initiate sTargetPath (initiateHeaders t MDList) :: sent := by
  unfold copyMultipart
  rw [if_neg htarget]
  by_cases hinitiate : (s3MultiPartInitiate replies.initiate sTargetPath).1.ifError = true
  · exact ⟨_, congrArg Prod.snd (if_pos hinitiate)⟩
  · exact ⟨_, congrArg Prod.snd (if_neg hinitiate)⟩

/-- The target is created by the first request. -/
theorem createdWith_copyS3 (replies : Replies) (t : Stamp) (sSrcPath : CString)
    {sTargetPath : CString} (htarget : sTargetPath ≠ []) (bCopyMD : Bool) (ullObjSize : ℕ)
    (MDList : List Header) :
    createdWith (copyS3 replies t sSrcPath sTargetPath bCopyMD ullObjSize MDList).2 =
      some (if ullObjSize < singleCopyLimit then copyHeaders t sSrcPath bCopyMD MDList
        else initiateHeaders t MDList) := by
  by_cases h : ullObjSize < singleCopyLimit
  · rw [copyS3_of_lt replies t sSrcPath sTargetPath bCopyMD MDList h, if_pos h, createdWith]
  · obtain ⟨sent, hsent⟩ := copyMultipart_head replies t htarget ullObjSize MDList
    rw [copyS3_of_not_lt replies t sSrcPath sTargetPath bCopyMD MDList h, if_neg h, hsent,
      createdWith]

/-- A copy of any size agrees where the two requests do. -/
theorem sameMetadata_iff {sTargetPath : CString} (htarget : sTargetPath ≠ []) :
    SameMetadata t sSrcPath sTargetPath bCopyMD MDList ↔
      SameHeaders t sSrcPath bCopyMD MDList := by
  unfold SameMetadata SameHeaders
  refine exists_congr fun metadata => and_congr_right fun _ => ⟨fun h key => ?_, fun h => ?_⟩
  · let silent : Reply := ⟨{}, 0, true, ⟨S_OK, S_OK, S_OK, [], S_FALSE, S_FALSE_ne_S_OK⟩⟩
    let replies : Replies := ⟨silent, ({}, []), silent, silent, fun _ => silent, silent, {}⟩
    have hof : ∀ n, contents (if n < singleCopyLimit then copyHeaders t sSrcPath bCopyMD MDList
          else initiateHeaders t MDList) key =
        (metadata key).or (contents (if n < singleCopyLimit then
          copyHeaders t sSrcPath bCopyMD [] else initiateHeaders t []) key) := by
      intro n
      obtain ⟨headers, own, hheaders, hown, heq⟩ := h replies n
      rw [createdWith_copyS3 replies t sSrcPath htarget] at hheaders hown
      rw [Option.some.inj hheaders, Option.some.inj hown]
      exact heq key
    have hsmall := hof 0
    have hlarge := hof singleCopyLimit
    rw [if_pos (by decide), if_pos (by decide)] at hsmall
    rw [if_neg (Nat.lt_irrefl _), if_neg (Nat.lt_irrefl _)] at hlarge
    exact ⟨hsmall, hlarge⟩
  · intro replies ullObjSize
    refine ⟨_, _, createdWith_copyS3 replies t sSrcPath htarget bCopyMD ullObjSize MDList,
      createdWith_copyS3 replies t sSrcPath htarget bCopyMD ullObjSize [], fun key => ?_⟩
    split_ifs
    · exact (h key).1
    · exact (h key).2

/-- **The two ways to copy send the same metadata** and nothing else of a list, if and only if each of
its headers is metadata with a lower-case prefix and a content, or one that the initiating request
overwrites. -/
theorem copies_agree (t : Stamp) (sSrcPath sTargetPath : CString) (htarget : sTargetPath ≠ [])
    (bCopyMD : Bool) (MDList : List Header) (htrim : Trimmed MDList)
    (hdistinct : Distinct MDList) :
    SameMetadata t sSrcPath sTargetPath bCopyMD MDList ↔
      ∀ h ∈ MDList, isSent h = true ∨ lower h.sHeader ∈ ownKeys t :=
  (sameMetadata_iff htarget).trans
    ⟨fun hsame _ hm => hsame.isSent_or_own htrim hdistinct hm, sameHeaders_of_forall htrim⟩

/-- Metadata alone is sent by both. It is a header of the object's own metadata, which both ways of
copying send with the same contents. -/
theorem copies_agree_tag :
    SameMetadata noon "/b/k".toList "/b/l".toList false [⟨tagName, "red".toList⟩] := by
  obtain ⟨-, -, -, -, htrim, -, -, -, -⟩ := readHeaders_responses
  refine (copies_agree noon "/b/k".toList "/b/l".toList (by decide) false
    [⟨tagName, "red".toList⟩] ?_ ?_).2 ?_
  · exact fun h hm => List.mem_singleton.1 hm ▸ htrim
  · exact List.pairwise_singleton _ _
  · exact fun h hm => .inl (List.mem_singleton.1 hm ▸ by decide +kernel)

/-- An entry that replaces those of its name leaves the names different. -/
theorem distinct_writeMetadataEntry (hdistinct : Distinct MDList) (h : Header) :
    Distinct (writeMetadataEntry MDList h) := by
  refine List.pairwise_append.2 ⟨List.Pairwise.filter _ hdistinct, List.pairwise_singleton _ _, ?_⟩
  intro h' hm h'' hm''
  obtain rfl := List.mem_singleton.1 hm''
  have hother := (List.mem_filter.1 hm).2
  rw [Bool.not_eq_true', ← Bool.not_eq_true, compareNoCase_iff] at hother
  exact fun heq => hother heq.symm

/-- An entry with a trimmed name keeps a list trimmed. -/
theorem trimmed_writeMetadataEntry (htrim : Trimmed MDList) {h : Header}
    (hh : trim h.sHeader = h.sHeader) : Trimmed (writeMetadataEntry MDList h) := by
  intro h' hm
  rcases List.mem_append.1 hm with hm | hm
  · exact htrim h' (List.mem_filter.1 hm).1
  · obtain rfl := List.mem_singleton.1 hm
    exact hh

/-- **The list that `RenameS3` makes** has trimmed and different names, if the one it is given does.
Headers of the response are added by their names, which are different, and only where the list has
none of the name. -/
theorem readSource_list {Req : List HeaderReq} (hReq : WellRead Req) {MDList : List Header}
    (htrim : Trimmed MDList) (hdistinct : Distinct MDList) :
    Trimmed (readSource Req MDList).2 ∧ Distinct (readSource Req MDList).2 := by
  unfold readSource
  refine List.foldlRecOn (motive := fun s : ℕ × List Header => Trimmed s.2 ∧ Distinct s.2) Req _
    ⟨htrim, hdistinct⟩ fun s hs r hr => ?_
  split_ifs
  · exact hs
  · exact hs
  · exact ⟨trimmed_writeMetadataEntry hs.1 (hReq.trimmed r hr),
      distinct_writeMetadataEntry hs.2 r.toHeader⟩
  · exact hs
  · exact ⟨trimmed_writeMetadataEntry hs.1 (hReq.trimmed r hr),
      distinct_writeMetadataEntry hs.2 r.toHeader⟩

/-- The lines of the response for an object of 6 GB. -/
def bigSource : List CString :=
  ["Content-Length: 6442450944".toList, "ETag: 9".toList, "x-amz-meta-tag: red".toList]

/-- The list made of it. -/
theorem readSource_bigSource : (readSource (readHeaders bigSource) []).2 =
    [⟨"Content-Length".toList, "6442450944".toList⟩, ⟨"ETag".toList, "9".toList⟩,
      ⟨"x-amz-meta-tag".toList, "red".toList⟩] ∧
    isSent ⟨"ETag".toList, "9".toList⟩ = false ∧ lower "ETag".toList ∉ ownKeys noon := by
  decide +kernel

/-- **The tag of the source is sent** where an object is large, but not where it is not. `RenameS3`
puts all headers of the response into its list, and the multipart copy sends the list as it is; the
other one sends the metadata of it alone. -/
theorem etag_sent : ¬SameMetadata noon "/b/k".toList "/b/l".toList false
    (readSource (readHeaders bigSource) []).2 := by
  obtain ⟨hlist, hsent, hown⟩ := readSource_bigSource
  obtain ⟨htrim, hdistinct⟩ := readSource_list (wellRead_readHeaders bigSource)
    (show Trimmed [] by simp [Trimmed]) List.Pairwise.nil
  intro hsame
  rw [sameMetadata_iff (by decide)] at hsame
  have hm : (⟨"ETag".toList, "9".toList⟩ : Header) ∈ (readSource (readHeaders bigSource) []).2 := by
    simp [hlist]
  rcases hsame.isSent_or_own htrim hdistinct hm with h | h
  · exact Bool.false_ne_true (hsent.symm.trans h)
  · exact hown h

end Copy
end ECSUtil

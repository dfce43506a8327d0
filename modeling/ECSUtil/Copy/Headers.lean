/-
# The headers of a request

`HEADER_STRUCT`, `HEADER_REQ` (`ECSUtil/ECSConnection.h`), `AddHeader`, `InitHeader`, the headers that
`SendRequest` adds to a request without a body, and how `SendRequestInternal` takes all headers of a
response (`ECSUtil/ECSConnection.cpp`).

A list of headers is seen as the partial function from names in lower case to contents in which a
later header counts (`lastOf`), and `AddHeader` for each of them overrides the headers of the
request by it (`contents_addHeaders`).

The headers of a request are a map from labels in lower case to a label and a text; that each label
fits its place (`Labelled`) is kept by all functions that change them.  A header of the requests'
own (`Own`) is never metadata, so what is sent of the metadata does not depend on it
(`contents_initHeader`).
-/

import Mathlib.Data.Char
import Mathlib.Data.List.DropRight
import Mathlib.Data.List.Lex
import ECSUtil.Conn.Text
import ECSUtil.Lib.SortedMap

namespace ECSUtil
namespace Copy

/-- `MakeLower`. -/
def lower (s : CString) : CString := s.map Char.toLower

/-- `iswspace`. -/
def isSpace (c : Char) : Bool := iswspace c.toNat

/-- `TrimLeft` and `TrimRight`. -/
def trim (s : CString) : CString := Trim.trim isSpace s

/-- Two names are the same where they are so in lower case. -/
theorem compareNoCase_iff {a b : CString} : compareNoCase a b = true ↔ lower a = lower b := beq_iff_eq

/-- `HEADER_STRUCT`. -/
structure Header where
  sHeader : CString
  sContents : CString
  deriving DecidableEq, Repr

/-- `HEADER_REQ`. -/
structure HeaderReq where
  sHeader : CString
  ContentList : List CString
  deriving DecidableEq, Repr

/-- The headers of a request, by their labels in lower case. -/
abbrev Headers := SortedMap CString Header

/-- `AddHeader`. -/
def addHeader (pszHeaderLabel pszHeaderText : CString) (bOverride : Bool) (headers : Headers) :
    Headers :=
  let sHeaderLabel := trim pszHeaderLabel
  let hdr : Header := { sHeader := sHeaderLabel, sContents := pszHeaderText }
  if bOverride then headers.assign (lower sHeaderLabel) hdr
  else headers.insert (lower sHeaderLabel) hdr

/-- `AddHeader` for each header of a list. -/
def addHeaders (l : List Header) (headers : Headers) : Headers :=
  l.foldl (fun m h => addHeader h.sHeader h.sContents true m) headers

/-- What the headers common to all requests are made of: the host, the time in the two formats, and
the hash of an empty body. -/
structure Stamp where
  sHost : CString
  sCanonicalTime : CString
  sISO8601Time : CString
  sPayloadHash : CString
  bS3AuthV4 : Bool
  deriving DecidableEq, Repr

/-- The date of a request. -/
def Stamp.date (t : Stamp) : Header :=
  if t.bS3AuthV4 then ⟨"x-amz-date".toList, t.sISO8601Time⟩ else ⟨"date".toList, t.sCanonicalTime⟩

/-- `InitHeader`. -/
def initHeader (t : Stamp) : Headers :=
  addHeaders [⟨"host".toList, t.sHost⟩, t.date] SortedMap.empty

/-- A header that is there gets other contents. -/
def refresh (label text : CString) (headers : Headers) : Headers :=
  headers.modify label fun h => { h with sContents := text }

/-- The headers that `SendRequest` sends, without a body, and leaves behind. -/
def sendHeaders (t : Stamp) (headers : Headers) : Headers :=
  addHeaders (if t.bS3AuthV4 then [⟨"x-amz-content-sha256".toList, t.sPayloadHash⟩] else [])
    (refresh "host".toList t.sHost
      (refresh "x-amz-date".toList t.sISO8601Time
        (refresh "date".toList t.sCanonicalTime headers)))

/-- A line of a response: its label and its content. -/
def headerOf (line : CString) : Option Header :=
  if ':' ∈ line then
    some
      { sHeader := trim (line.takeWhile (· ≠ ':'))
        sContents := trim ((line.dropWhile (· ≠ ':')).drop 1) }
  else none

/-- See if we've already seen this label. -/
def addContent (h : Header) : List HeaderReq → List HeaderReq
  | [] => [{ sHeader := h.sHeader, ContentList := [h.sContents] }]
  | r :: rest =>
      if compareNoCase r.sHeader h.sHeader then
        { r with ContentList := r.ContentList ++ [h.sContents] } :: rest
      else r :: addContent h rest

/-- All headers of a response. -/
def readHeaders (lines : List CString) : List HeaderReq :=
  (lines.filterMap headerOf).foldl (fun l h => addContent h l) []

/-- `sAmzMetaPrefix`. -/
def sAmzMetaPrefix : CString := "x-amz-meta-".toList

/-- `Find(sAmzMetaPrefix) == 0`. -/
def startsWithPrefix (sHeader : CString) : Bool := sAmzMetaPrefix.isPrefixOf sHeader

/-- The contents of a header. -/
def contents (headers : Headers) (key : CString) : Option CString :=
  (headers.find key).map Header.sContents

/-- The contents of the last header with a name, in any case. -/
def lastOf : List Header → CString → Option CString
  | [], _ => none
  | h :: l, key => (lastOf l key).or (if lower h.sHeader = key then some h.sContents else none)

/-- Headers whose labels need no trimming. -/
def Trimmed (l : List Header) : Prop := ∀ h ∈ l, trim h.sHeader = h.sHeader

/-- A list has no content for a name that none of its headers has. -/
theorem lastOf_eq_none {l : List Header} {key : CString} :
    lastOf l key = none ↔ ∀ h ∈ l, lower h.sHeader ≠ key := by
  induction l with
  | nil => simp [lastOf]
  | cons h l ih =>
      rw [lastOf, Option.or_eq_none_iff, ih, List.forall_mem_cons, and_comm]
      refine and_congr_left fun _ => ?_
      split_ifs with heq
      · simp [heq]
      · simp [heq]

/-- A header that overrides is found under its trimmed name, and the others as before. -/
theorem contents_addHeader (label text : CString) (headers : Headers) (key : CString) :
    contents (addHeader label text true headers) key =
      if key = lower (trim label) then some text else contents headers key := by
  unfold contents addHeader
  rw [if_pos rfl, SortedMap.find_assign]
  split_ifs <;> rfl

/-- **A list of headers overrides** those that are there. Of headers with one name the last counts,
as each overrides the one before it; the names are compared in lower case. -/
theorem contents_addHeaders {l : List Header} (h : Trimmed l) (headers : Headers) (key : CString) :
    contents (addHeaders l headers) key = (lastOf l key).or (contents headers key) := by
  induction l generalizing headers with
  | nil => rfl
  | cons hd l ih =>
      have htrim : trim hd.sHeader = hd.sHeader := h hd (List.mem_cons_self ..)
      have hrest := ih (fun h' hm => h h' (List.mem_cons_of_mem _ hm))
        (addHeader hd.sHeader hd.sContents true headers)
      unfold addHeaders at hrest ⊢
      rw [List.foldl_cons, hrest, contents_addHeader, lastOf, Option.or_assoc, htrim]
      by_cases hkey : lower hd.sHeader = key
      · rw [if_pos hkey, if_pos hkey.symm, Option.some_or]
      · rw [if_neg hkey, if_neg (Ne.symm hkey), Option.none_or]

/-- Every header is under its label in lower case. -/
def Labelled (headers : Headers) : Prop := ∀ e ∈ headers, lower e.2.sHeader = e.1

/-- Each label fits its place after a header was added. -/
theorem Labelled.addHeader {headers : Headers} (h : Labelled headers) (label text : CString) :
    Labelled (addHeader label text true headers) := by
  intro e he
  have hfind := SortedMap.find_eq_some.2 he
  rw [Copy.addHeader, if_pos rfl, SortedMap.find_assign] at hfind
  split_ifs at hfind with hkey
  · rw [hkey, ← Option.some.inj hfind]
  · exact h e (SortedMap.find_eq_some.1 hfind)

/-- Each label fits its place after a list of headers was added. -/
theorem Labelled.addHeaders {headers : Headers} (h : Labelled headers) (l : List Header) :
    Labelled (addHeaders l headers) := by
  induction l generalizing headers with
  | nil => exact h
  | cons hd l ih => exact ih (h.addHeader hd.sHeader hd.sContents)

/-- Each label fits its place after a header was taken away. -/
theorem Labelled.erase {headers : Headers} (h : Labelled headers) (key : CString) :
    Labelled (headers.erase key) := fun e he => h e (SortedMap.mem_erase.1 he).1

/-- Each label fits its place after a header got a new text. -/
theorem Labelled.refresh {headers : Headers} (h : Labelled headers) (label text : CString) :
    Labelled (refresh label text headers) := by
  intro e he
  obtain ⟨v, hv, heq⟩ := SortedMap.mem_modify.1 he
  rw [heq]
  split_ifs <;> exact h (e.1, v) hv

/-- Each label fits its place after `SendRequest` added its headers. -/
theorem Labelled.sendHeaders {headers : Headers} (h : Labelled headers) (t : Stamp) :
    Labelled (sendHeaders t headers) :=
  (((h.refresh _ _).refresh _ _).refresh _ _).addHeaders _

/-- Each label fits its place in the headers that a request begins with. -/
theorem labelled_initHeader (t : Stamp) : Labelled (initHeader t) :=
  Labelled.addHeaders (fun _ he => absurd he SortedMap.not_mem_empty) _

/-- The labels of the requests' own headers. -/
theorem ownLabels : ∀ label ∈ ["host", "date", "x-amz-date", "x-amz-content-sha256",
    "x-amz-copy-source", "x-amz-metadata-directive", "content-type"],
    trim label.toList = label.toList ∧ lower label.toList = label.toList ∧
      startsWithPrefix label.toList = false := by
  decide +kernel

/-- Headers of the requests' own. -/
def Own (l : List Header) : Prop := ∀ h ∈ l, ∃ label ∈ ["host", "date", "x-amz-date",
    "x-amz-content-sha256", "x-amz-copy-source", "x-amz-metadata-directive", "content-type"],
    h.sHeader = label.toList

/-- Headers of the requests' own have trimmed names. -/
theorem Own.trimmed {l : List Header} (h : Own l) : Trimmed l := by
  intro hd hm
  obtain ⟨label, hlabel, heq⟩ := h hd hm
  rw [heq]
  exact (ownLabels label hlabel).1

/-- They are no metadata. -/
theorem Own.lastOf {l : List Header} (h : Own l) {key : CString}
    (hkey : startsWithPrefix key = true) : lastOf l key = none := by
  refine lastOf_eq_none.2 fun hd hm heq => ?_
  obtain ⟨label, hlabel, hhd⟩ := h hd hm
  obtain ⟨-, hlower, hno⟩ := ownLabels label hlabel
  rw [← heq, hhd, hlower, hno] at hkey
  exact Bool.false_ne_true hkey

/-- The host and the date are headers of the requests' own. -/
theorem own_date (t : Stamp) : Own [⟨"host".toList, t.sHost⟩, t.date] := by
  unfold Stamp.date Own
  split_ifs <;> simp

/-- The hash of the payload is a header of the requests' own. -/
theorem own_send (t : Stamp) :
    Own (if t.bS3AuthV4 then [⟨"x-amz-content-sha256".toList, t.sPayloadHash⟩] else []) := by
  unfold Own
  split_ifs <;> simp

/-- **The headers common to all requests are no metadata.** They are the host and the date, and the
name of neither begins with the prefix of metadata. -/
theorem contents_initHeader (t : Stamp) {key : CString} (hkey : startsWithPrefix key = true) :
    contents (initHeader t) key = none := by
  rw [initHeader, contents_addHeaders (own_date t).trimmed, (own_date t).lastOf hkey]
  rfl

/-- A new text is for a header that is there. -/
theorem contents_refresh (label text : CString) (headers : Headers) (key : CString) :
    contents (refresh label text headers) key =
      if key = label then (contents headers key).map fun _ => text else contents headers key := by
  unfold contents refresh
  rw [SortedMap.find_modify]
  split_ifs
  · rw [Option.map_map, Option.map_map]
    rfl
  · rfl

/-- A key that no header common to all requests has is left alone. -/
theorem contents_sendHeaders_of_starts (t : Stamp) (headers : Headers) {key : CString}
    (hkey : startsWithPrefix key = true) :
    contents (sendHeaders t headers) key = contents headers key := by
  have hne : ∀ label ∈ ["host", "date", "x-amz-date", "x-amz-content-sha256",
      "x-amz-copy-source", "x-amz-metadata-directive", "content-type"], key ≠ label.toList :=
    fun label hlabel heq => by
      rw [heq, (ownLabels label hlabel).2.2] at hkey
      exact Bool.false_ne_true hkey
  rw [sendHeaders, contents_addHeaders (own_send t).trimmed, (own_send t).lastOf hkey,
    Option.none_or, contents_refresh, if_neg (hne "host" (by simp)), contents_refresh,
    if_neg (hne "x-amz-date" (by simp)), contents_refresh, if_neg (hne "date" (by simp))]

/-- A text is trimmed once. -/
theorem trim_trim (s : CString) : trim (trim s) = trim s := by
  have htrim : ∀ s : CString,
      trim s = (s.dropWhile isSpace).rdropWhile isSpace := fun _ => rfl
  have hfront : (trim s).dropWhile isSpace = trim s := by
    obtain ⟨t, ht⟩ : trim s <+: s.dropWhile isSpace := by
      rw [htrim]
      exact List.rdropWhile_prefix ..
    cases hs : trim s with
    | nil => rfl
    | cons c l =>
        rw [hs, List.cons_append] at ht
        have hc : isSpace c = false := by
          have hne : s.dropWhile isSpace ≠ [] := ht ▸ List.cons_ne_nil _ _
          have hhead := List.head_dropWhile_not isSpace hne
          simpa only [← ht, List.head_cons] using hhead
        rw [List.dropWhile_cons_of_neg (hc ▸ Bool.false_ne_true)]
  rw [htrim (trim s), hfront]
  rw [htrim s]
  exact List.rdropWhile_idempotent ..

/-- What is read of a response: each label once, trimmed, and with a content. -/
structure WellRead (l : List HeaderReq) : Prop where
  distinct : l.Pairwise fun r r' => lower r.sHeader ≠ lower r'.sHeader
  trimmed : ∀ r ∈ l, trim r.sHeader = r.sHeader
  content : ∀ r ∈ l, r.ContentList ≠ []

/-- A content is added to a label that was there, or to a new one. -/
theorem mem_addContent {h : Header} {l : List HeaderReq} {r : HeaderReq}
    (hr : r ∈ addContent h l) :
    (∃ r' ∈ l, r.sHeader = r'.sHeader) ∨ r.sHeader = h.sHeader := by
  induction l with
  | nil => exact .inr (List.mem_singleton.1 hr ▸ rfl)
  | cons d l ih =>
      unfold addContent at hr
      split_ifs at hr
      · rcases List.mem_cons.1 hr with rfl | hr
        · exact .inl ⟨d, List.mem_cons_self .., rfl⟩
        · exact .inl ⟨r, List.mem_cons_of_mem _ hr, rfl⟩
      · rcases List.mem_cons.1 hr with rfl | hr
        · exact .inl ⟨r, List.mem_cons_self .., rfl⟩
        · exact (ih hr).imp_left fun ⟨r', hr', heq⟩ => ⟨r', List.mem_cons_of_mem _ hr', heq⟩

/-- What is read stays well read when one more line comes. -/
theorem WellRead.addContent {l : List HeaderReq} (hl : WellRead l) {h : Header}
    (htrim : trim h.sHeader = h.sHeader) : WellRead (addContent h l) := by
  induction l with
  | nil =>
      refine ⟨List.pairwise_singleton _ _, ?_, ?_⟩ <;>
        intro r hr <;> rw [Copy.addContent, List.mem_singleton] at hr <;> rw [hr]
      · exact htrim
      · exact List.cons_ne_nil _ _
  | cons d l ih =>
      obtain ⟨hdistinct, htrimmed, hcontent⟩ := hl
      rw [List.pairwise_cons] at hdistinct
      rw [List.forall_mem_cons] at htrimmed hcontent
      obtain ⟨ihd, iht, ihc⟩ := ih ⟨hdistinct.2, htrimmed.2, hcontent.2⟩
      unfold Copy.addContent
      split_ifs with hsame
      · exact ⟨List.pairwise_cons.2 hdistinct, List.forall_mem_cons.2 htrimmed,
          List.forall_mem_cons.2 ⟨by simp, hcontent.2⟩⟩
      · refine ⟨List.pairwise_cons.2 ⟨fun r hr => ?_, ihd⟩, List.forall_mem_cons.2 ⟨htrimmed.1, iht⟩,
          List.forall_mem_cons.2 ⟨hcontent.1, ihc⟩⟩
        rcases mem_addContent hr with ⟨r', hr', heq⟩ | heq
        · rw [heq]
          exact hdistinct.1 r' hr'
        · rw [heq]
          exact fun h0 => hsame (compareNoCase_iff.2 h0)

/-- **Every response is well read.** The labels and the contents are trimmed, and a label that was
seen before gets another content and no second entry. -/
theorem wellRead_readHeaders (lines : List CString) : WellRead (readHeaders lines) := by
  have htrimmed : Trimmed (lines.filterMap headerOf) := by
    intro h hm
    obtain ⟨line, -, hline⟩ := List.mem_filterMap.1 hm
    unfold headerOf at hline
    split_ifs at hline
    rw [← Option.some.inj hline]
    exact trim_trim _
  have hfold : ∀ (hs : List Header) (l : List HeaderReq), Trimmed hs → WellRead l →
      WellRead (hs.foldl (fun l h => Copy.addContent h l) l) := by
    intro hs
    induction hs with
    | nil => exact fun l _ hl => hl
    | cons h hs ih =>
        exact fun l ht hl => ih _ (fun h' hm => ht h' (List.mem_cons_of_mem _ hm))
          (hl.addContent (ht h (List.mem_cons_self ..)))
  exact hfold _ [] htrimmed ⟨List.Pairwise.nil, by simp, by simp⟩

end Copy
end ECSUtil

/-
# A server that lists

A conforming server: a bucket of keys, of which a request for a listing gets the next page of those
behind its prefix and its marker, in order.  Keys that have the delimiter behind the prefix stand
together as a common prefix.  The reply tells whether more remain, and the next marker only where a
delimiter was given.

What is asked for is what the server reads of the resource (`ListRequest.read`): the parameters of its
query, split and decoded.  It is what was meant where the delimiter separates no parameters
(`read_listResource`); of an `&` nothing is left, and a `#` cuts off the rest of the query.

In a reply a text that is only white space is a node of its own, which `ScanXmlStream` passes over
(`Xml.writeElement`), so a key of white space is an element without a text to the callback.

`reads_listing` is what `XmlDirListingS3CB` makes of a reply.
-/

import Mathlib.Data.Char
import Mathlib.Data.List.Dedup
import Mathlib.Data.List.Lex
import ECSUtil.Lib.Paging
import ECSUtil.Listing.Internal
import ECSUtil.Request.Tokens
import ECSUtil.Xml.Writer

namespace ECSUtil
namespace Listing

open Sign Xml Paging

/-- A request for a page, as a server reads it; no `max-keys` is zero, no marker is empty. -/
structure ListRequest where
  sBucket : CString
  bVersions : Bool
  cDelimiter : Option Char
  dwMaxKeys : ℕ
  sPrefix : CString
  markers : Markers
  deriving DecidableEq, Repr

/-- The text of a parameter, which is empty where there is none. -/
def textParam (sResource : CString) (name : String) : CString :=
  (Query.textOf sResource name.toList).getD []

/-- What a server reads of a resource. -/
def ListRequest.read (sResource : CString) : ListRequest where
  sBucket := (sResource.takeWhile fun c => c ≠ '?' && c ≠ '#').dropLast
  bVersions := ((Query.serverParams sResource).find? fun p => p.1 = CodePage.utf8 "versions".toList).isSome
  cDelimiter := (textParam sResource "delimiter").head?
  dwMaxKeys := ttoi (textParam sResource "max-keys")
  sPrefix := textParam sResource "prefix"
  markers :=
    ⟨textParam sResource "marker", textParam sResource "key-marker",
      textParam sResource "version-id-marker"⟩

/-- What is meant by the resource of a turn. -/
def listRequest (p : Params) (next : Option ListingNextMarkerContext) (markers : Markers) :
    ListRequest where
  sBucket := (splitPath p.pszPathIn).1
  bVersions := p.bS3Versions
  cDelimiter := p.cDelimiter
  dwMaxKeys := maxKeys p next
  sPrefix := listPrefix p
  markers := markers

/-- What a server tells of an object. -/
structure ObjectInfo where
  LastModified : CString := []
  ETag : CString := []
  Size : CString := []
  OwnerID : CString := []
  OwnerDisplayName : CString := []
  StorageClass : CString := []

/-- A text without a `NUL`, as a pointer to it or a document can have it. -/
def NoNul (s : CString) : Prop := ∀ c ∈ s, c.toNat ≠ 0

instance (s : CString) : Decidable (NoNul s) := List.decidableBAll (fun c : Char => c.toNat ≠ 0) s

/-- A server with a bucket: its keys, none of which is empty, and how many it lists at a time. -/
structure Server where
  keys : List CString
  keys_ne : ∀ key ∈ keys, key ≠ []
  keys_noNul : ∀ key ∈ keys, NoNul key
  info : CString → ObjectInfo := fun _ => {}
  pageSize : ℕ
  pos : 0 < pageSize

/-- What a key is listed as. -/
def group (sPrefix : CString) (cDelimiter : Option Char) (key : CString) : CString :=
  match cDelimiter with
  | some d =>
      if d ∈ key.drop sPrefix.length then
        sPrefix ++ (key.drop sPrefix.length).takeWhile (· ≠ d) ++ [d]
      else key
  | none => key

/-- An item is a common prefix, and no key. -/
def isCommonPrefix (sPrefix : CString) (cDelimiter : Option Char) (item : CString) : Bool :=
  cDelimiter.any (· ∈ item.drop sPrefix.length)

namespace Server

/-- The keys and common prefixes that a listing consists of, in order. -/
def items (srv : Server) (sPrefix : CString) (cDelimiter : Option Char) : List CString :=
  (((srv.keys.filter sPrefix.isPrefixOf).map (group sPrefix cDelimiter)).dedup).insertionSort
    (· ≤ ·)

/-- How many items a page has. -/
def limit (srv : Server) (dwMaxKeys : ℕ) : ℕ :=
  if dwMaxKeys = 0 then srv.pageSize else min srv.pageSize dwMaxKeys

/-- The marker of a request. -/
def marker (r : ListRequest) : Option CString :=
  if r.markers.sS3NextMarker = [] then none else some r.markers.sS3NextMarker

/-- The page that a request gets. -/
def page (srv : Server) (r : ListRequest) : Page CString :=
  Paging.page (srv.items r.sPrefix r.cDelimiter) (srv.limit r.dwMaxKeys) (marker r)

/-- A key in a reply. -/
def contents (srv : Server) (key : CString) : List Node :=
  tree "Contents".toList
    (writeElement "Key".toList key ++
      writeElement "LastModified".toList (srv.info key).LastModified ++
      writeElement "ETag".toList (srv.info key).ETag ++
      writeElement "Size".toList (srv.info key).Size ++
      tree "Owner".toList
        (writeElement "ID".toList (srv.info key).OwnerID ++
          writeElement "DisplayName".toList (srv.info key).OwnerDisplayName) ++
      writeElement "StorageClass".toList (srv.info key).StorageClass)

/-- A common prefix in a reply. -/
def commonPrefixes (item : CString) : List Node :=
  tree "CommonPrefixes".toList (writeElement "Prefix".toList item)

/-- The keys of a page. -/
def keysOf (srv : Server) (r : ListRequest) : List CString :=
  (srv.page r).items.filter fun item => !isCommonPrefix r.sPrefix r.cDelimiter item

/-- The common prefixes of a page. -/
def prefixesOf (srv : Server) (r : ListRequest) : List CString :=
  (srv.page r).items.filter (isCommonPrefix r.sPrefix r.cDelimiter)

/-- The next marker that a reply tells. -/
def nextMarker (srv : Server) (r : ListRequest) : CString :=
  if (srv.page r).more && r.cDelimiter.isSome then (srv.page r).items.getLast?.getD [] else []

/-- A reply. -/
def listing (srv : Server) (r : ListRequest) : Reading where
  nodes :=
    [.other] ++
      tree "ListBucketResult".toList
        (writeElement "Name".toList (r.sBucket.drop 1) ++
          writeElement "Prefix".toList r.sPrefix ++
          writeElement "Marker".toList r.markers.sS3NextMarker ++
          writeElement "NextMarker".toList (srv.nextMarker r) ++
          writeElement "MaxKeys".toList (toString (srv.limit r.dwMaxKeys)).toList ++
          writeElement "Delimiter".toList r.cDelimiter.toList ++
          writeElement "IsTruncated".toList (toString (srv.page r).more).toList ++
          (srv.keysOf r).flatMap srv.contents ++
          (srv.prefixesOf r).flatMap commonPrefixes)
  last := S_FALSE
  last_ne := S_FALSE_ne_S_OK

/-- What `SendRequest` returns. -/
def reply (srv : Server) (sResource : CString) : Reply where
  reading := srv.listing (.read sResource)

end Server

/-- `AppendQuery` puts the first query behind a `?`, and `&`s between the others. -/
theorem foldl_appendQuery (path q : CString) (qs : List CString) :
    ((q :: qs).foldl appendQuery (path, false)).1 = path ++ '?' :: ['&'].intercalate (q :: qs) := by
  rw [List.foldl_cons]
  change (qs.foldl appendQuery (path ++ '?' :: q, true)).1 = _
  induction qs generalizing q with
  | nil => rw [List.intercalate_singleton]; rfl
  | cons q' qs ih =>
      have hjoin : ['&'].intercalate ((q ++ '&' :: q') :: qs) = ['&'].intercalate (q :: q' :: qs) := by
        cases qs with
        | nil => simp [List.intercalate_cons_cons]
        | cons q'' qs => simp [List.intercalate_cons_cons]
      have happend : appendQuery (path ++ '?' :: q, true) q' = (path ++ '?' :: (q ++ '&' :: q'), true) := by
        simp [appendQuery]
      rw [List.foldl_cons, happend, ih, hjoin]

/-- The names of the parameters. -/
def paramNames : List String :=
  ["versions", "delimiter", "max-keys", "prefix", "marker", "key-marker", "version-id-marker"]

/-- They have nothing to split or to decode. -/
theorem paramNames_plain : ∀ name ∈ paramNames, name.toList ≠ [] ∧
    ('=' ∉ name.toList ∧ '#' ∉ name.toList ∧ '&' ∉ name.toList) ∧
      Query.unescape name.toList = CodePage.utf8 name.toList := by
  decide

/-- A parameter with a name of a listing and an encoded value separates nothing. -/
theorem plain_param {name : String} {value : CString} (hname : name ∈ paramNames)
    (hvalue : '#' ∉ value ∧ '&' ∉ value) : (param name value).Plain where
  name_ne := (paramNames_plain name hname).1
  name := (paramNames_plain name hname).2.1
  noEscape := (paramNames_plain name hname).2.2
  value _ hv := Option.some.inj hv ▸ hvalue

/-- A parameter that is left out without a value separates nothing, either. -/
theorem plain_paramUnless {name : String} {s value : CString} (hname : name ∈ paramNames)
    (hvalue : '#' ∉ value ∧ '&' ∉ value) : ∀ q ∈ paramUnless name s value, q.Plain := by
  unfold paramUnless
  split_ifs
  · exact fun q hq => absurd hq List.not_mem_nil
  · rintro q hq
    rw [List.mem_singleton.1 hq]
    exact plain_param hname hvalue

/-- A listing whose resource can be read: the name of the bucket has no `?` and no `#`, and the
delimiter separates no parameters. -/
structure Params.Readable (p : Params) : Prop where
  sBucket : '?' ∉ (splitPath p.pszPathIn).1 ∧ '#' ∉ (splitPath p.pszPathIn).1
  listPrefix : NoNul (listPrefix p)
  cDelimiter : p.cDelimiter ≠ some '&' ∧ p.cDelimiter ≠ some '#'

section

variable {p : Params} {next : Option ListingNextMarkerContext} {markers : Markers}

/-- The parameters of a listing separate nothing, if its delimiter does not. -/
theorem plain_listParams (hd : p.cDelimiter ≠ some '&' ∧ p.cDelimiter ≠ some '#') :
    ∀ q ∈ listParams p next markers, q.Plain := by
  have hencoded : ∀ s, '#' ∉ uriEncode s .allSAFE ∧ '&' ∉ uriEncode s .allSAFE := fun s =>
    ⟨Request.delimiter_notMem_uriEncode (.inr (.inl rfl)) s _,
      Request.delimiter_notMem_uriEncode (.inr (.inr (.inl rfl))) s _⟩
  have hdigits : ∀ n, '#' ∉ fmtNum 0 n ∧ '&' ∉ fmtNum 0 n := fun n =>
    ⟨fun h => absurd (isDigit_of_mem_fmtNum h) (by decide),
      fun h => absurd (isDigit_of_mem_fmtNum h) (by decide)⟩
  intro q hq
  simp only [listParams, List.mem_append] at hq
  rcases hq with (((((hq | hq) | hq) | hq) | hq) | hq) | hq
  · split_ifs at hq
    · obtain rfl := List.mem_singleton.1 hq
      obtain ⟨hne, hname, hescape⟩ := paramNames_plain "versions" (by decide)
      exact ⟨hne, hname, fun _ hv => absurd hv (by simp), hescape⟩
    · exact absurd hq List.not_mem_nil
  · obtain ⟨c, hc, rfl⟩ := List.mem_map.1 hq
    rw [Option.mem_toList] at hc
    refine plain_param (by decide) ⟨fun h => hd.2 ?_, fun h => hd.1 ?_⟩
    · rw [hc, List.mem_singleton.1 h]
    · rw [hc, List.mem_singleton.1 h]
  · split_ifs at hq
    · obtain rfl := List.mem_singleton.1 hq
      exact plain_param (by decide) (hdigits _)
    · exact absurd hq List.not_mem_nil
  · exact plain_paramUnless (by decide) (hencoded _) q hq
  · exact plain_paramUnless (by decide) (hencoded _) q hq
  · exact plain_paramUnless (by decide) (hencoded _) q hq
  · exact plain_paramUnless (by decide) (hencoded _) q hq

/-- **A server reads the parameters** that were appended. They were joined with a `?` and `&`s, and
none of them has one of these or a `#` in it, if the delimiter has not. -/
theorem serverParams_listResource (h : p.Readable) :
    Query.serverParams (listResource p next markers) =
      (listParams p next markers).map Query.Param.read := by
  have hpath : '?' ∉ (splitPath p.pszPathIn).1 ++ ['/'] ∧ '#' ∉ (splitPath p.pszPathIn).1 ++ ['/'] := by
    simp [h.sBucket]
  have hplain : ∀ q ∈ listParams p next markers, q.Plain := plain_listParams h.cDelimiter
  unfold listResource
  cases hps : listParams p next markers with
  | nil =>
      have hquery : Query.queryOf ((splitPath p.pszPathIn).1 ++ ['/']) = [] := by
        unfold Query.queryOf
        rw [List.takeWhile_eq_self_iff.2 (Query.ne_of_notMem hpath.2),
          List.dropWhile_eq_nil_iff.2 (Query.ne_of_notMem hpath.1), List.drop_nil]
      change Query.serverParams ((splitPath p.pszPathIn).1 ++ ['/']) = _
      unfold Query.serverParams
      rw [hquery]
      rfl
  | cons q qs =>
      rw [hps] at hplain
      rw [List.map_cons, foldl_appendQuery, ← List.map_cons]
      exact Query.serverParams_write hpath hplain

/-- A parameter is found under its name. -/
theorem find_param (name name' : String) (value : Option CString) :
    ([(⟨name.toList, value⟩ : Query.Param)].find? fun q => q.name = name'.toList) =
      if name = name' then some ⟨name.toList, value⟩ else none := by
  by_cases h : name = name'
  · rw [if_pos h]
    exact List.find?_cons_of_pos (by simp [h])
  · rw [if_neg h]
    exact List.find?_cons_of_neg (by simpa [String.toList_inj] using h)

/-- A parameter that is left out is not found. -/
theorem find_paramUnless (name name' : String) (s value : CString) :
    ((paramUnless name s value).find? fun q => q.name = name'.toList) =
      if name = name' then if s = [] then none else some (param name value) else none := by
  unfold paramUnless
  by_cases hs : s = []
  · rw [if_pos hs, if_pos hs, ite_self]
    rfl
  · rw [if_neg hs, if_neg hs]
    exact find_param name name' (some value)

/-- **What is found under a name.** The names are different, so the first that has the name is the
one that was appended under it, if it was appended at all. -/
theorem find_listParams (name : String) :
    ((listParams p next markers).find? fun q => q.name = name.toList) =
      (((((((if "versions" = name then
          if p.bS3Versions then some ⟨"versions".toList, none⟩ else none else none).or
        (if "delimiter" = name then p.cDelimiter.map fun c => param "delimiter" [c] else none)).or
        (if "max-keys" = name then
          if maxKeys p next = 0 then none else some (param "max-keys" (fmtNum 0 (maxKeys p next)))
          else none)).or
        (if "prefix" = name then
          if uriEncode (listPrefix p) .allSAFE = [] then none
          else some (param "prefix" (uriEncode (listPrefix p) .allSAFE)) else none)).or
        (if "marker" = name then
          if markers.sS3NextMarker = [] then none
          else some (param "marker" (uriEncode markers.sS3NextMarker .allSAFE)) else none)).or
        (if "key-marker" = name then
          if markers.sS3NextKeyMarker = [] then none
          else some (param "key-marker" (uriEncode markers.sS3NextKeyMarker .allSAFE)) else none)).or
        (if "version-id-marker" = name then
          if markers.sS3NextVersionIdMarker = [] then none
          else some (param "version-id-marker" (uriEncode markers.sS3NextVersionIdMarker .allSAFE))
          else none)) := by
  have hversions : ((if p.bS3Versions then [(⟨"versions".toList, none⟩ : Query.Param)] else []).find?
      fun q => q.name = name.toList) = if "versions" = name then
        if p.bS3Versions then some ⟨"versions".toList, none⟩ else none else none := by
    cases p.bS3Versions with
    | false => simp
    | true => exact find_param "versions" name none
  have hdelimiter : ((p.cDelimiter.toList.map fun c => param "delimiter" [c]).find?
      fun q => q.name = name.toList) = if "delimiter" = name then
        p.cDelimiter.map fun c => param "delimiter" [c] else none := by
    cases p.cDelimiter with
    | none => simp
    | some c => exact find_param "delimiter" name (some [c])
  have hmax : ((if maxKeys p next ≠ 0 then [param "max-keys" (fmtNum 0 (maxKeys p next))] else []).find?
      fun q => q.name = name.toList) = if "max-keys" = name then
        if maxKeys p next = 0 then none else some (param "max-keys" (fmtNum 0 (maxKeys p next)))
        else none := by
    by_cases h0 : maxKeys p next = 0
    · simp [h0]
    · rw [if_pos h0, if_neg h0]
      exact find_param "max-keys" name (some _)
  unfold listParams
  dsimp only
  simp only [List.find?_append, hversions, hdelimiter, hmax, find_paramUnless]

/-- A resource is the path of the bucket, and a query if it has one. -/
theorem takeWhile_listResource (h : p.Readable) :
    ((listResource p next markers).takeWhile fun c => c ≠ '?' && c ≠ '#') =
      (splitPath p.pszPathIn).1 ++ ['/'] := by
  have hpath : ∀ c ∈ (splitPath p.pszPathIn).1 ++ ['/'], (c ≠ '?' && c ≠ '#') = true := by
    intro c hc
    have hne : c ≠ '?' ∧ c ≠ '#' := by
      rcases List.mem_append.1 hc with hc | hc
      · exact ⟨fun h0 => h.sBucket.1 (h0 ▸ hc), fun h0 => h.sBucket.2 (h0 ▸ hc)⟩
      · rw [List.mem_singleton.1 hc]
        decide
    simp [hne]
  unfold listResource
  cases listParams p next markers with
  | nil => exact List.takeWhile_eq_self_iff.2 hpath
  | cons q qs =>
      rw [List.map_cons, foldl_appendQuery, List.takeWhile_append_of_pos hpath,
        List.takeWhile_cons_of_neg (by decide), List.append_nil]

/-- What is encoded comes back. -/
theorem decode_uriEncode {s : CString} (hs : NoNul s) (type : UriEncodeType) :
    CodePage.decodeUtf8 (Query.unescape (uriEncode s type)) = some s := by
  rw [uriEncode_eq hs, Query.unescape_encode, CodePage.decodeUtf8_utf8]

/-- The text of a parameter, none of which is an empty one. -/
def textFound (q : Option Query.Param) : CString :=
  (q.bind fun q => q.value.bind fun v => CodePage.decodeUtf8 (Query.unescape v)).getD []

/-- What is found of an encoded text is the text. -/
theorem textFound_param (name : String) {s : CString} (hs : NoNul s) :
    textFound (some (param name (uriEncode s .allSAFE))) = s := by
  change ((CodePage.decodeUtf8 (Query.unescape (uriEncode s .allSAFE))).getD []) = s
  rw [decode_uriEncode hs, Option.getD_some]

/-- What is found of an empty text that is left out is the empty text. -/
theorem textFound_unlessEmpty (name : String) {s : CString} (hs : NoNul s) :
    textFound (if s = [] then none else some (param name (uriEncode s .allSAFE))) = s := by
  split_ifs with h
  · exact h.symm
  · exact textFound_param name hs

/-- A parameter of the resource is what it is among the parameters that were put in. -/
theorem textParam_listResource (h : p.Readable) (name : String) :
    textParam (listResource p next markers) name =
      textFound ((listParams p next markers).find? fun q => q.name = name.toList) := by
  unfold textParam
  rw [Query.textOf_eq (plain_listParams h.cDelimiter) (serverParams_listResource h)]
  rfl

/-- **A server reads what was meant**, of a resource that can be read. Each value is found under its
name and decoded to what was encoded; `max-keys` is read as a number, which is small enough for
that. -/
theorem read_listResource (h : p.Readable) (hmax : maxKeys p next < 2 ^ 31)
    (hmarkers : NoNul markers.sS3NextMarker ∧ NoNul markers.sS3NextKeyMarker ∧
      NoNul markers.sS3NextVersionIdMarker) :
    ListRequest.read (listResource p next markers) = listRequest p next markers := by
  have hbucket : (((listResource p next markers).takeWhile fun c => c ≠ '?' && c ≠ '#').dropLast) =
      (splitPath p.pszPathIn).1 := by
    rw [takeWhile_listResource h, List.dropLast_concat]
  have hversions : ((Query.serverParams (listResource p next markers)).find? fun q =>
      q.1 = CodePage.utf8 "versions".toList).isSome = p.bS3Versions := by
    rw [serverParams_listResource h, Query.find_map_read (plain_listParams h.cDelimiter),
      Option.isSome_map, find_listParams]
    cases p.bS3Versions <;> simp
  have hdelimiter : (textParam (listResource p next markers) "delimiter").head? = p.cDelimiter := by
    rw [textParam_listResource h, find_listParams]
    cases hd : p.cDelimiter with
    | none => simp [textFound]
    | some c =>
        have hescape : Query.unescape [c] = CodePage.utf8 [c] := by
          refine (Query.unescape_eq_utf8_iff _).2 fun t ht => ?_
          rcases List.suffix_cons_iff.1 ht with rfl | ht
          · unfold Query.escapeAt
            split
            · rename_i heq
              exact absurd (List.cons.inj heq).2 (by simp)
            · rfl
          · rw [List.suffix_nil.1 ht]
            rfl
        simp [textFound, param, hescape, CodePage.decodeUtf8_utf8]
  have hmaxKeys : ttoi (textParam (listResource p next markers) "max-keys") = maxKeys p next := by
    rw [textParam_listResource h, find_listParams]
    by_cases h0 : maxKeys p next = 0
    · simp [h0, textFound]
      decide
    · have hdigits : Query.unescape (fmtNum 0 (maxKeys p next)) = CodePage.utf8 (fmtNum 0 (maxKeys p next)) :=
        (Query.unescape_eq_utf8_iff _).2 (Query.noEscape_of_notMem fun hm =>
          absurd (isDigit_of_mem_fmtNum hm) (by decide))
      simp [h0, textFound, param, hdigits, CodePage.decodeUtf8_utf8, ttoi_fmtNum hmax]
  have hprefix : textParam (listResource p next markers) "prefix" = listPrefix p := by
    rw [textParam_listResource h, find_listParams]
    simp only [uriEncode_eq_nil_iff h.listPrefix]
    simp [textFound_unlessEmpty _ h.listPrefix]
  have hmarker : textParam (listResource p next markers) "marker" = markers.sS3NextMarker := by
    rw [textParam_listResource h, find_listParams]
    simp [textFound_unlessEmpty _ hmarkers.1]
  have hkey : textParam (listResource p next markers) "key-marker" = markers.sS3NextKeyMarker := by
    rw [textParam_listResource h, find_listParams]
    simp [textFound_unlessEmpty _ hmarkers.2.1]
  have hid : textParam (listResource p next markers) "version-id-marker" =
      markers.sS3NextVersionIdMarker := by
    rw [textParam_listResource h, find_listParams]
    simp [textFound_unlessEmpty _ hmarkers.2.2]
  unfold ListRequest.read listRequest
  rw [hbucket, hversions, hdelimiter, hmaxKeys, hprefix, hmarker, hkey, hid]

end

/-- A text of an element, which is none of a field that is looked for or one that is.  White space alone
is no text. -/
def textOf (f : Option Field) (value : CString) (c : XmlDirListingContext) :
    XmlDirListingContext :=
  if blank value then c
  else match f with
    | some f => (c.text true value f).2
    | none => c

/-- An element of which only the text counts. -/
def Plain (stack : List CString) : Prop :=
  compareNoCase (path stack) listBucketResult.root = false ∧
    listBucketResult.entries.any (compareNoCase (path stack)) = false

instance (stack : List CString) : Decidable (Plain stack) := by unfold Plain; infer_instance

section

variable {stack : List CString} {name : CString} {c : XmlDirListingContext}

/-- A text of a reply goes where its path says. -/
theorem next_text (value : CString) :
    xmlDirListingS3CB.next stack (.text value) c =
      match listBucketResult.field (path stack) with
      | some f => (c.text true value f).2
      | none => c := by
  unfold Callback.next xmlDirListingS3CB ListingXml.callback
  dsimp only
  cases listBucketResult.field (path stack) <;> rfl

/-- An element of a reply tells only that it is the root. -/
theorem next_element :
    xmlDirListingS3CB.next stack (.element []) c =
      if compareNoCase (path stack) listBucketResult.root then { c with bGotRootElement := true }
      else c := by
  unfold Callback.next xmlDirListingS3CB ListingXml.callback
  dsimp only
  split_ifs <;> rfl

/-- The end of an entry ends its record. -/
theorem next_endElement :
    xmlDirListingS3CB.next stack .endElement c =
      if listBucketResult.entries.any (compareNoCase (path stack)) then c.endEntry false false
      else c := by
  unfold Callback.next xmlDirListingS3CB ListingXml.callback
  dsimp only
  split_ifs <;> rfl

/-- The callback ends no reading of a reply. -/
theorem harmless : Callback.Harmless xmlDirListingS3CB := listBucketResult.harmless

variable {nodes : List Node} {f : XmlDirListingContext → XmlDirListingContext}

/-- An element that holds others. -/
theorem reads_plain (h : Plain (stack ++ [name]))
    (hf : Reads xmlDirListingS3CB (stack ++ [name]) nodes f) :
    Reads xmlDirListingS3CB stack (tree name nodes) f := by
  refine (Reads.tree harmless hf).congr fun c => ?_
  rw [Function.comp_apply, Function.comp_apply, next_element, next_endElement, h.1, h.2]
  rfl

/-- An element with a text. -/
theorem reads_text (stack : List CString) (name : CString) (f : Option Field) (value : CString)
    (h : Plain (stack ++ [name])) (hf : listBucketResult.field (path (stack ++ [name])) = f) :
    Reads xmlDirListingS3CB stack (writeElement name value) (textOf f value) := by
  refine reads_plain h ((Reads.writeString harmless value).congr fun c => ?_)
  unfold textOf
  split_ifs
  · rfl
  · rw [next_text, hf]

/-- What the properties of a key do to the record. -/
def properties (info : ObjectInfo) (c : XmlDirListingContext) : XmlDirListingContext :=
  textOf (some .ownerDisplayName) info.OwnerDisplayName <|
    textOf (some .ownerId) info.OwnerID <|
      textOf (some .size) info.Size <|
        textOf (some .eTag) info.ETag <| textOf (some .lastModified) info.LastModified c

/-- The element of a reply, of a key in it, and of the owner of a key. -/
def inResult : List CString := ["ListBucketResult".toList]

@[inherit_doc inResult]
def inContents : List CString := inResult ++ ["Contents".toList]

@[inherit_doc inResult]
def inOwner : List CString := inContents ++ ["Owner".toList]

end

end Listing
end ECSUtil

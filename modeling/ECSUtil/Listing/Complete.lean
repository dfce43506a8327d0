/-
# All pages of a listing

`DirListingInternal` against a conforming server: its loop is a reader of pages
(`Paging.fetch`), whose marker is the last item of each page where a delimiter is given.
Without one no reply tells a next marker, and the one made of the first page stays.

`turn_spec` is what a turn makes of a page, whatever is told of it: a marker that is white space alone
is not, so the loop then ends too early or asks for the same page again.  Where everything is told
(`Told`) the loop reads the pages that the reader reads (`dirListingLoop_fetch`); in any case it lists no
more than what is told (`dirListingLoop_sound`).

`listing_complete` puts this together: when the listing ends and has every item with a name behind the path
once.
-/

import ECSUtil.Listing.Pages

namespace ECSUtil
namespace Listing

open Xml Paging

/-- The items of a listing, and how many a page of it has. -/
def Server.listed (srv : Server) (p : Params) : List CString := srv.items (listPrefix p) p.cDelimiter

@[inherit_doc Server.listed]
def Server.perPage (srv : Server) (p : Params) : ℕ := srv.limit (maxKeys p none)

/-- The marker of the next page. -/
def nextOf (cDelimiter : Option Char) : Option CString → Page CString → Option CString :=
  if cDelimiter.isSome then lastOf else firstOf

/-- The marker that is made of a page that is truncated. -/
def madeMarker (c : XmlDirListingContext) : CString :=
  if c.sS3NextMarker = [] then c.sLastFullObjName else c.sS3NextMarker

/-- **At a page**: the loop is about to ask for what is behind the marker. -/
structure At (p : Params) (marker : Option CString) (s : State) : Prop where
  sPathIn : s.context.sPathIn = p.pszPathIn
  sObjName : s.context.sObjName = p.pszObjName
  next : s.next = none
  markers : s.markers = { sS3NextMarker := marker.getD [] }
  sS3NextMarker : s.context.sS3NextMarker = marker.getD []
  sS3NextKeyMarker : s.context.sS3NextKeyMarker = []
  sS3NextVersionIdMarker : s.context.sS3NextVersionIdMarker = []
  sPrefix : blank (listPrefix p) → s.context.sPrefix = []
  sPrefixNoObj : blank (listPrefix p) → s.context.sPrefixNoObj = []
  sName : s.context.Rec.sName = []
  marker_ne : marker ≠ some []
  marker_noNul : NoNul (marker.getD [])
  sLastFullObjName : NoNul s.context.sLastFullObjName

section

variable {p : Params} {srv : Server} {marker : Option CString} {s : State}
  {c c' : XmlDirListingContext}

/-- The empty text has no NUL. -/
theorem noNul_nil : NoNul [] := fun _ h => absurd h List.not_mem_nil

/-- A page takes at least one item. -/
theorem Server.perPage_pos (srv : Server) (p : Params) : 0 < srv.perPage p := by
  have hpos := srv.pos
  unfold Server.perPage Server.limit
  split_ifs <;> omega

/-- A listing starts in front of all items. -/
theorem At.init : At p none (initState p none) :=
  ⟨rfl, rfl, rfl, rfl, rfl, rfl, rfl, fun _ => rfl, fun _ => rfl, rfl, by decide, noNul_nil, noNul_nil⟩

/-- The number of items that is asked for is no negative one for a server. -/
theorem maxKeys_lt (p : Params) : maxKeys p none < 2 ^ 31 := by
  unfold maxKeys maxKeys.dwMaxKeys
  dsimp only
  split_ifs <;> omega

/-- The server reads what is asked for. -/
theorem At.read (hp : p.Readable) (h : At p marker s) :
    ListRequest.read (listResource p none s.markers) = listRequest p none s.markers := by
  refine read_listResource hp (maxKeys_lt p) ?_
  rw [h.markers]
  exact ⟨h.marker_noNul, noNul_nil, noNul_nil⟩

/-- The page that the server hands out. -/
theorem At.page_eq (srv : Server) (h : At p marker s) :
    srv.page (listRequest p none s.markers) = page (srv.listed p) (srv.perPage p) marker := by
  have hmarker : Server.marker (listRequest p none s.markers) = marker := by
    unfold Server.marker listRequest
    rw [h.markers]
    cases marker with
    | none => rfl
    | some m => exact if_neg fun h0 => h.marker_ne (congrArg some h0)
  rw [Server.page, hmarker]
  rfl

/-- A next marker that is told is an item of the page. -/
theorem nextMarker_mem {r : ListRequest} (h : srv.nextMarker r ≠ []) :
    srv.nextMarker r ∈ (srv.page r).items := by
  unfold Server.nextMarker at h ⊢
  split_ifs at h ⊢
  · cases hlast : (srv.page r).items.getLast? with
    | none => rw [hlast] at h; exact absurd rfl h
    | some m => exact List.mem_of_getLast? hlast
  · exact absurd rfl h

/-- No `NUL` comes into a marker. -/
theorem At.noNul (h : At p marker s)
    (hread : PageRead p srv (listRequest p none s.markers) s.context c') :
    NoNul c'.sS3NextMarker ∧ NoNul c'.sLastFullObjName := by
  have hitem : ∀ item ∈ (srv.page (listRequest p none s.markers)).items, NoNul item := fun item hm =>
    noNul_of_mem_items (mem_items_of_mem_page hm)
  constructor
  · rw [hread.sS3NextMarker, h.sS3NextMarker]
    split_ifs with hb
    · exact h.marker_noNul
    · exact hitem _ (nextMarker_mem fun h0 => hb (by rw [h0]; rfl))
  · rw [hread.sLastFullObjName]
    cases hlast : (shown (srv.keysOf (listRequest p none s.markers))).getLast? with
    | none => exact h.sLastFullObjName
    | some key =>
        exact hitem key (List.mem_of_mem_filter (mem_of_mem_shown (List.mem_of_getLast? hlast)).1)

/-- All of a listing is told: its items, and the prefix that their names go without. -/
structure Told (p : Params) (srv : Server) : Prop where
  shownPrefix : p.shownPrefix = pathPrefix p
  items : ∀ item ∈ srv.listed p, blank item = false

/-- What is told of the items of a page is all of them. -/
theorem Told.shown_eq (ht : Told p srv) {markers : Markers} {l : List CString}
    (hl : ∀ item ∈ l, item ∈ (srv.page (listRequest p none markers)).items) : shown l = l :=
  List.filter_eq_self.2 fun item hm => by
    rw [ht.items item (mem_items_of_mem_page (hl item hm)), Bool.not_false]

/-- What is told of the keys of a page is all of them. -/
theorem Told.keysOf (ht : Told p srv) (markers : Markers) :
    shown (srv.keysOf (listRequest p none markers)) = srv.keysOf (listRequest p none markers) :=
  ht.shown_eq fun _ hm => List.mem_of_mem_filter hm

/-- What is told of the common prefixes of a page is all of them. -/
theorem Told.prefixesOf (ht : Told p srv) (markers : Markers) :
    shown (srv.prefixesOf (listRequest p none markers)) =
      srv.prefixesOf (listRequest p none markers) :=
  ht.shown_eq fun _ hm => List.mem_of_mem_filter hm

/-- **The marker of the next page**, which is not empty where everything is told. With a delimiter
the server tells the last item of the page; without one the last key is taken, but only of the first
page, as the marker is not emptied. -/
theorem At.nextMarker (ht : Told p srv) (h : At p marker s)
    (hmore : (page (srv.listed p) (srv.perPage p) marker).more)
    (hread : PageRead p srv (listRequest p none s.markers) s.context c') :
    nextOf p.cDelimiter marker (page (srv.listed p) (srv.perPage p) marker) =
        some (madeMarker c') ∧ madeMarker c' ≠ [] := by
  set pg := page (srv.listed p) (srv.perPage p) marker
  have hpage : srv.page (listRequest p none s.markers) = pg := h.page_eq srv
  obtain ⟨m, hm⟩ : ∃ m, pg.items.getLast? = some m :=
    Option.ne_none_iff_exists'.1 fun h0 =>
      items_ne_nil_of_more (srv.perPage_pos p) hmore (List.getLast?_eq_none_iff.1 h0)
  have hmem : m ∈ srv.listed p := mem_items_of_mem_page (hpage ▸ List.mem_of_getLast? hm)
  have hne : m ≠ [] := ne_nil_of_mem_items hmem
  have hmarker := hread.sS3NextMarker
  unfold Server.nextMarker at hmarker
  rw [hpage, hmore] at hmarker
  unfold madeMarker
  cases hd : p.cDelimiter with
  | some d =>
      have hsome : (listRequest p none s.markers).cDelimiter.isSome = true := by
        simp [listRequest, hd]
      rw [hsome, hm, Bool.and_self, if_pos rfl, Option.getD_some, ht.items m hmem,
        if_neg Bool.false_ne_true] at hmarker
      rw [hmarker, if_neg hne]
      exact ⟨hm, hne⟩
  | none =>
      have hnone : (listRequest p none s.markers).cDelimiter.isSome = false := by
        simp [listRequest, hd]
      rw [hnone, Bool.and_false, if_neg Bool.false_ne_true, if_pos (show blank [] = true from rfl),
        h.sS3NextMarker] at hmarker
      cases marker with
      | some m' =>
          have hne' : m' ≠ [] := fun h0 => h.marker_ne (congrArg some h0)
          rw [hmarker, Option.getD_some, if_neg hne']
          exact ⟨rfl, hne'⟩
      | none =>
          have hkeys : srv.keysOf (listRequest p none s.markers) = pg.items := by
            rw [Server.keysOf, hpage]
            exact List.filter_eq_self.2 fun item _ => by simp [isCommonPrefix, listRequest, hd]
          rw [hmarker, Option.getD_none, if_pos rfl, hread.sLastFullObjName, ht.keysOf, hkeys, hm]
          exact ⟨hm, hne⟩

/-- What has been read: the items that have a name are listed, and a key was seen if there
was one. -/
structure Got (p : Params) (got : List CString) (c : XmlDirListingContext) : Prop where
  names : (names c.dirList).Perm ((got.map (entryOf p)).filter fun e => e.1 ≠ [])
  bGotKey : ∀ item ∈ got, isCommonPrefix (listPrefix p) p.cDelimiter item = false →
    c.bGotKey = true

/-- **A page of new items** is added to what has been read. The items of the page are shown and have
not been read before, so their entries are new: different items are different entries. -/
theorem Got.page (ht : Told p srv) {got : List CString} (h : Got p got c)
    (hread : PageRead p srv (listRequest p none s.markers) c c')
    (hn : (got ++ (srv.page (listRequest p none s.markers)).items).Nodup)
    (hgot : ∀ item ∈ got, item ∈ srv.listed p) :
    Got p (got ++ (srv.page (listRequest p none s.markers)).items) c' := by
  set r := listRequest p none s.markers
  set items := (srv.page r).items with hitems
  have hperm : (srv.keysOf r ++ srv.prefixesOf r).Perm items :=
    List.perm_append_comm.trans (List.filter_append_perm _ items)
  have hin : ∀ item ∈ items, item ∈ srv.listed p := fun item hm => mem_items_of_mem_page hm
  have hes : ((srv.keysOf r ++ srv.prefixesOf r).map (entryOf p)).Nodup := by
    refine List.Nodup.map_on (fun x hx y hy he => ?_)
      (hperm.nodup_iff.2 (List.Nodup.of_append_right hn))
    exact entryOf_injective (hin x (hperm.mem_iff.1 hx)) (hin y (hperm.mem_iff.1 hy)) he
  have hnew : ∀ e ∈ (srv.keysOf r ++ srv.prefixesOf r).map (entryOf p),
      e ∉ Listing.names c.dirList := by
    intro e he hm
    obtain ⟨item, hitem, rfl⟩ := List.mem_map.1 he
    obtain ⟨item', hitem', he'⟩ := List.mem_map.1 (List.mem_of_mem_filter (h.names.mem_iff.1 hm))
    have hitem : item ∈ items := hperm.mem_iff.1 hitem
    obtain rfl := entryOf_injective (hgot item' hitem') (hin item hitem) he'
    exact List.disjoint_of_nodup_append hn hitem' hitem
  constructor
  · have hsplit : ((got ++ items).map (entryOf p)).filter (fun e => e.1 ≠ []) =
        (got.map (entryOf p)).filter (fun e => e.1 ≠ []) ++
          (items.map (entryOf p)).filter (fun e => e.1 ≠ []) := by
      rw [List.map_append, List.filter_append]
    have hnames := hread.names
    rw [ht.keysOf, ht.prefixesOf, ht.shownPrefix] at hnames
    rw [hnames]
    change (((srv.keysOf r ++ srv.prefixesOf r).map (entryOf p)).foldl addName _).Perm _
    rw [foldl_addName hes hnew, hsplit]
    exact h.names.append ((hperm.map _).filter _)
  · intro item hm hkey
    rw [hread.bGotKey, ht.keysOf]
    rcases List.mem_append.1 hm with hm | hm
    · rw [h.bGotKey item hm hkey, Bool.true_or]
    · have hne : item ∈ srv.keysOf r := List.mem_filter.2 ⟨hm, Bool.not_eq_eq_eq_not.2 hkey⟩
      have hempty : (srv.keysOf r).isEmpty = false :=
        List.isEmpty_eq_false_iff.2 (List.ne_nil_of_mem hne)
      rw [hempty, Bool.not_false, Bool.or_true]

/-- What a listing delivers: the items that have a name; an error only where there is nothing, which
it says. -/
structure Delivers (p : Params) (all : List CString) (r : Result) : Prop where
  names : (names r.dirList).Perm ((all.map (entryOf p)).filter fun e => e.1 ≠ [])
  error : r.error.ifError = true → ((all.map (entryOf p)).filter fun e => e.1 ≠ []) = [] ∧
    ∀ item ∈ all, isCommonPrefix (listPrefix p) p.cDelimiter item = true
  notFound : r.error.ifError = true → r.error.ifNotFound = true

/-- **The listing is complete**: each item whose name relative to the path is not empty is listed
once, and an error is returned only where there is no item. -/
structure Complete (p : Params) (srv : Server) (r : Result) : Prop where
  once : ∀ item ∈ srv.listed p, relative p item ≠ [] →
    (names r.dirList).count (entryOf p item) = 1
  error : r.error.ifError = true → srv.listed p = []

/-- Only such an item, and the one at the path itself, has no name. -/
theorem entryOf_ne_nil {item : CString} (h : relative p item ≠ [])
    (hslash : relative p item ≠ ['/']) : (entryOf p item).1 ≠ [] := by
  have hname : (trimSlash (relative p item)).1 ≠ [] := by
    intro h0
    have happend := trimSlash_append (relative p item)
    rw [h0, List.nil_append] at happend
    split_ifs at happend
    · exact hslash happend.symm
    · exact h happend.symm
  rw [entryOf_eq]
  split_ifs <;> exact hname

/-- A common prefix has a name behind the path. -/
theorem relative_ne_nil {item : CString}
    (hp : isCommonPrefix (listPrefix p) p.cDelimiter item = true) : relative p item ≠ [] := by
  intro h0
  have hle := List.drop_eq_nil_iff.1 h0
  have hnil : item.drop (listPrefix p).length = [] :=
    List.drop_eq_nil_iff.2 (hle.trans (pathPrefix_isPrefix p).length_le)
  rw [isCommonPrefix, hnil] at hp
  exact absurd hp (by simp)

/-- **What delivers all items is complete**, if none of them is a slash behind the path. An item
with a name is an entry with a name, unless the name is the slash that is cut off; and the entries
are in the list once each. -/
theorem Delivers.complete {r : Result} (h : Delivers p (srv.listed p) r)
    (hslash : ∀ item ∈ srv.listed p, relative p item ≠ ['/']) : Complete p srv r := by
  have hnodup : ((srv.listed p).map (entryOf p)).Nodup :=
    List.Nodup.map_on (fun x hx y hy he => entryOf_injective hx hy he)
      (items_sorted.imp fun h => h.ne)
  constructor
  · intro item hm hne
    rw [h.names.count_eq]
    refine List.count_eq_one_of_mem (hnodup.filter _) (List.mem_filter.2 ⟨?_, ?_⟩)
    · exact List.mem_map_of_mem hm
    · exact decide_eq_true (entryOf_ne_nil hne (hslash item hm))
  · intro he
    obtain ⟨hnone, hgroup⟩ := h.error he
    by_contra hne
    obtain ⟨item, hm⟩ := List.exists_mem_of_ne_nil _ hne
    have hname := entryOf_ne_nil (relative_ne_nil (hgroup item hm)) (hslash item hm)
    have hmem : entryOf p item ∈ ((srv.listed p).map (entryOf p)).filter fun e => e.1 ≠ [] :=
      List.mem_filter.2 ⟨List.mem_map_of_mem hm, decide_eq_true hname⟩
    rw [hnone] at hmem
    exact absurd hmem List.not_mem_nil

/-- At its start a listing has nothing. -/
theorem Got.init (p : Params) (n : Option ListingNextMarkerContext) :
    Got p [] (initState p n).context :=
  ⟨List.Perm.refl _, fun _ hm => absurd hm List.not_mem_nil⟩

end

end Listing
end ECSUtil

/-
# The pages of a listing

What a page of a conforming server does to the context of `DirListingInternal`, and what its items
are listed as.

A key or a common prefix that is only white space comes to the callback as an element without a text,
so nothing is listed for it; and where the prefix of the reply is such a text, the names go with it.
What the names go without is `Params.shownPrefix`, which is the prefix of the path in all other cases.

`readPage_spec` says what is left of a page: the entries of the items that are shown, those of the keys
in front, and the markers.  Different items are different entries (`entryOf_injective`).
-/

import ECSUtil.Listing.Server

namespace ECSUtil
namespace Listing

open Xml Paging

/-- The path of a listing behind the bucket. -/
def pathPrefix (p : Params) : CString := (splitPath p.pszPathIn).2.getD []

/-- The name of an item relative to the path. -/
def relative (p : Params) (item : CString) : CString := item.drop (pathPrefix p).length

/-- The prefix that names go without: white space alone is not told. -/
def Params.shownPrefix (p : Params) : CString :=
  if blank (listPrefix p) then [] else pathPrefix p

/-- What an item is listed as without a prefix: its name, and whether it is a folder. -/
def entryAt (p : Params) (q item : CString) : CString × Bool :=
  if isCommonPrefix (listPrefix p) p.cDelimiter item then
    ((trimSlash (item.drop q.length)).1, true)
  else trimSlash (item.drop q.length)

/-- What an item is listed as without the path. -/
def entryOf (p : Params) (item : CString) : CString × Bool := entryAt p (pathPrefix p) item

/-- The texts that are told. -/
def shown (l : List CString) : List CString := l.filter fun value => !blank value

/-- The names of a list, and which of them are folders. -/
def names (dirList : List DirEntry) : List (CString × Bool) :=
  dirList.map fun e => (e.sName, e.bDir)

/-- An entry is added, if it has a name and is not a folder that is there. -/
def addName (l : List (CString × Bool)) (e : CString × Bool) : List (CString × Bool) :=
  if e.1 = [] ∨ e.2 = true ∧ e ∈ l then l else l ++ [e]

/-- What a page's entries leave as it is. -/
structure Kept (c c' : XmlDirListingContext) : Prop where
  sPathIn : c'.sPathIn = c.sPathIn
  sObjName : c'.sObjName = c.sObjName
  bGotRootElement : c'.bGotRootElement = c.bGotRootElement
  bIsTruncated : c'.bIsTruncated = c.bIsTruncated
  sPrefix : c'.sPrefix = c.sPrefix
  sPrefixNoObj : c'.sPrefixNoObj = c.sPrefixNoObj
  sS3NextMarker : c'.sS3NextMarker = c.sS3NextMarker
  sS3NextKeyMarker : c'.sS3NextKeyMarker = c.sS3NextKeyMarker
  sS3NextVersionIdMarker : c'.sS3NextVersionIdMarker = c.sS3NextVersionIdMarker

section

variable {c c' : XmlDirListingContext} {p : Params}

/-- A context is kept where nothing is done. -/
theorem Kept.refl (c : XmlDirListingContext) : Kept c c :=
  ⟨rfl, rfl, rfl, rfl, rfl, rfl, rfl, rfl, rfl⟩

/-- A context that is kept twice is kept. -/
theorem Kept.trans {c'' : XmlDirListingContext} (h : Kept c c') (h' : Kept c' c'') : Kept c c'' :=
  ⟨h'.1.trans h.1, h'.2.trans h.2, h'.3.trans h.3, h'.4.trans h.4, h'.5.trans h.5, h'.6.trans h.6,
    h'.7.trans h.7, h'.8.trans h.8, h'.9.trans h.9⟩

/-- **Entries are read**: some names, those of keys in front, from a record that is without a name to
another. -/
structure Entered (es : List (CString × Bool)) (keys : List CString)
    (c c' : XmlDirListingContext) : Prop where
  kept : Kept c c'
  names : names c'.dirList = es.foldl addName (names c.dirList)
  bGotKey : c'.bGotKey = (c.bGotKey || !keys.isEmpty)
  sLastFullObjName : c'.sLastFullObjName = keys.getLast?.getD c.sLastFullObjName
  sName : c'.Rec.sName = []

/-- Where nothing is done no entry is made. -/
theorem Entered.refl (h : c.Rec.sName = []) : Entered [] [] c c :=
  ⟨Kept.refl c, rfl, (Bool.or_false _).symm, rfl, h⟩

/-- Two lists of entries are made one after the other. -/
theorem Entered.trans {es es' : List (CString × Bool)} {keys keys' : List CString}
    {c'' : XmlDirListingContext} (h : Entered es keys c c') (h' : Entered es' keys' c' c'') :
    Entered (es ++ es') (keys ++ keys') c c'' where
  kept := h.kept.trans h'.kept
  names := by rw [h'.names, h.names, List.foldl_append]
  bGotKey := by
    rw [h'.bGotKey, h.bGotKey, Bool.or_assoc]
    cases keys <;> simp
  sLastFullObjName := by
    rw [h'.sLastFullObjName, h.sLastFullObjName, List.getLast?_append]
    cases keys'.getLast? <;> rfl
  sName := h'.sName

end

section

variable {srv : Server} {sPrefix : CString} {cDelimiter : Option Char} {item : CString}

/-- An item stands for the keys behind the prefix that are grouped to it. -/
theorem mem_items : item ∈ srv.items sPrefix cDelimiter ↔
    ∃ key ∈ srv.keys, sPrefix <+: key ∧ group sPrefix cDelimiter key = item := by
  simp [Server.items, and_assoc]

/-- **The items of a listing are in order**, and each is one item. They are sorted, and a common
prefix that many keys have is in the list once. -/
theorem items_sorted : (srv.items sPrefix cDelimiter).Pairwise (· < ·) := by
  have hle : (srv.items sPrefix cDelimiter).Pairwise (· ≤ ·) := List.pairwise_insertionSort _ _
  have hne : (srv.items sPrefix cDelimiter).Nodup :=
    (List.perm_insertionSort _ _).nodup_iff.2 (List.nodup_dedup _)
  exact (hle.and hne).imp fun h => lt_of_le_of_ne h.1 h.2

/-- An item has the prefix. -/
theorem prefix_of_mem_items (h : item ∈ srv.items sPrefix cDelimiter) : sPrefix <+: item := by
  obtain ⟨key, -, hkey, rfl⟩ := mem_items.1 h
  unfold group
  cases cDelimiter with
  | none => exact hkey
  | some d =>
      dsimp only
      split_ifs
      · rw [List.append_assoc]
        exact List.prefix_append _ _
      · exact hkey

/-- No item is empty. -/
theorem ne_nil_of_mem_items (h : item ∈ srv.items sPrefix cDelimiter) : item ≠ [] := by
  obtain ⟨key, hkey, -, rfl⟩ := mem_items.1 h
  unfold group
  cases cDelimiter with
  | none => exact srv.keys_ne key hkey
  | some d =>
      dsimp only
      split_ifs
      · simp
      · exact srv.keys_ne key hkey

/-- A key is listed as a front of it. -/
theorem group_isPrefix {key : CString} (h : sPrefix <+: key) : group sPrefix cDelimiter key <+: key := by
  obtain ⟨rest, rfl⟩ := h
  unfold group
  cases cDelimiter with
  | none => exact List.prefix_rfl
  | some d =>
      dsimp only
      rw [List.drop_left]
      split_ifs with hd
      · obtain ⟨more, hmore⟩ := Query.exists_dropWhile hd
        have hsplit := List.takeWhile_append_dropWhile (p := fun c => decide (c ≠ d)) (l := rest)
        rw [hmore] at hsplit
        exact ⟨more, by rw [List.append_assoc, List.append_assoc, List.singleton_append, hsplit]⟩
      · exact List.prefix_rfl

/-- A server has no item with a NUL, for it has no such key. -/
theorem noNul_of_mem_items (h : item ∈ srv.items sPrefix cDelimiter) : NoNul item := by
  obtain ⟨key, hkey, hprefix, rfl⟩ := mem_items.1 h
  exact fun c hc => srv.keys_noNul key hkey c ((group_isPrefix hprefix).subset hc)

/-- A common prefix ends with the delimiter. -/
theorem getLast?_of_isCommonPrefix {d : Char} (h : item ∈ srv.items sPrefix (some d))
    (hp : isCommonPrefix sPrefix (some d) item = true) : item.getLast? = some d := by
  obtain ⟨key, -, hkey, rfl⟩ := mem_items.1 h
  unfold group at hp ⊢
  dsimp only at hp ⊢
  split_ifs at hp ⊢ with hd
  · simp
  · exact absurd (by simpa [isCommonPrefix] using hp) hd

end

/-- The prefix of a listing begins with that of its path. -/
theorem pathPrefix_isPrefix (p : Params) : pathPrefix p <+: listPrefix p := by
  unfold pathPrefix listPrefix
  cases (splitPath p.pszPathIn).2 with
  | none => exact List.nil_prefix
  | some rest => exact List.prefix_append _ _

/-- **What a reply does to the context.** -/
structure PageRead (p : Params) (srv : Server) (r : ListRequest) (c c' : XmlDirListingContext) :
    Prop where
  sPathIn : c'.sPathIn = c.sPathIn
  sObjName : c'.sObjName = c.sObjName
  sS3NextKeyMarker : c'.sS3NextKeyMarker = c.sS3NextKeyMarker
  sS3NextVersionIdMarker : c'.sS3NextVersionIdMarker = c.sS3NextVersionIdMarker
  bGotRootElement : c'.bGotRootElement = true
  bIsTruncated : c'.bIsTruncated = (srv.page r).more
  sPrefix : blank (listPrefix p) → c'.sPrefix = c.sPrefix
  sPrefixNoObj : c'.sPrefixNoObj = p.shownPrefix
  sS3NextMarker : c'.sS3NextMarker =
    if blank (srv.nextMarker r) then c.sS3NextMarker else srv.nextMarker r
  names : names c'.dirList = ((shown (srv.keysOf r) ++ shown (srv.prefixesOf r)).map
    (entryAt p p.shownPrefix)).foldl addName (names c.dirList)
  bGotKey : c'.bGotKey = (c.bGotKey || !(shown (srv.keysOf r)).isEmpty)
  sLastFullObjName : c'.sLastFullObjName = (shown (srv.keysOf r)).getLast?.getD c.sLastFullObjName
  sName : c'.Rec.sName = []

/-- An item of a page is one of the listing. -/
theorem mem_items_of_mem_page {srv : Server} {r : ListRequest} {item : CString}
    (h : item ∈ (srv.page r).items) : item ∈ srv.items r.sPrefix r.cDelimiter :=
  (List.filter_sublist.subset : _ ⊆ srv.items r.sPrefix r.cDelimiter) (List.mem_of_mem_take h)

/-- What is shown is on the list, and is no white space. -/
theorem mem_of_mem_shown {l : List CString} {value : CString} (h : value ∈ shown l) :
    value ∈ l ∧ blank value = false := by
  obtain ⟨hm, hb⟩ := List.mem_filter.1 h
  exact ⟨hm, Bool.not_eq_eq_eq_not.1 hb⟩

/-- A name is what `trimSlash` makes of it, and the slash. -/
theorem trimSlash_append (name : CString) :
    (trimSlash name).1 ++ (if (trimSlash name).2 then ['/'] else []) = name := by
  unfold trimSlash
  by_cases h : name.getLast? = some '/'
  · simp only [h, if_true]
    exact List.dropLast_append_getLast? '/' h
  · simp [h]

section

variable {p : Params} {srv : Server} {item item' : CString}

/-- An item is the prefix of the path and its name behind it. -/
theorem relative_append (h : item ∈ srv.items (listPrefix p) p.cDelimiter) :
    pathPrefix p ++ relative p item = item := by
  obtain ⟨rest, rfl⟩ := (pathPrefix_isPrefix p).trans (prefix_of_mem_items h)
  simp [relative]

/-- The entry of an item is its name without a slash at the end, and is a directory if there was one
or the item is a common prefix. -/
theorem entryOf_eq : entryOf p item =
    if isCommonPrefix (listPrefix p) p.cDelimiter item then ((trimSlash (relative p item)).1, true)
    else trimSlash (relative p item) := rfl

/-- What stands behind the name of a common prefix. -/
def suffix (cDelimiter : Option Char) : CString := if cDelimiter = some '/' then ['/'] else []

/-- **The entry of a common prefix** tells the common prefix. It ends with the delimiter, which is
put back where it is the slash that was cut off, or left where it is another one. -/
theorem entry_of_isCommonPrefix (h : item ∈ srv.items (listPrefix p) p.cDelimiter)
    (hp : isCommonPrefix (listPrefix p) p.cDelimiter item = true) :
    (entryOf p item).1 ++ suffix p.cDelimiter = relative p item ∧ (entryOf p item).2 = true := by
  rw [entryOf_eq, if_pos hp]
  refine ⟨?_, rfl⟩
  cases hd : p.cDelimiter with
  | none => rw [hd] at hp; exact absurd hp (by simp [isCommonPrefix])
  | some d =>
      rw [hd] at h hp
      have hlast : (relative p item).getLast? = some d := by
        have hitem := getLast?_of_isCommonPrefix h hp
        have hlen : (pathPrefix p).length < item.length := by
          have hmem : d ∈ item.drop (listPrefix p).length := by simpa [isCommonPrefix] using hp
          have hlt := List.length_pos_of_mem hmem
          have hle := (pathPrefix_isPrefix p).length_le
          rw [List.length_drop] at hlt
          omega
        rw [relative, List.getLast?_drop, if_neg (by omega), hitem]
      rw [suffix]
      by_cases hslash : d = '/'
      · subst hslash
        rw [if_pos rfl, trimSlash, if_pos hlast]
        exact List.dropLast_append_getLast? '/' hlast
      · have hne : ¬(relative p item).getLast? = some '/' := by
          rw [hlast]
          exact fun h => hslash (Option.some.inj h)
        rw [if_neg fun h => hslash (Option.some.inj h), trimSlash, if_neg hne, List.append_nil]

/-- **The entry of a key** tells the key. A slash at its end is cut off and the entry is a folder
then, so nothing of the key is lost. -/
theorem entry_of_key (hp : isCommonPrefix (listPrefix p) p.cDelimiter item = false) :
    (entryOf p item).1 ++ (if (entryOf p item).2 then ['/'] else []) = relative p item := by
  rw [entryOf_eq, if_neg (by simp [hp])]
  exact trimSlash_append _

/-- A common prefix and a key are different entries. -/
theorem entry_ne (h : item ∈ srv.items (listPrefix p) p.cDelimiter)
    (h' : item' ∈ srv.items (listPrefix p) p.cDelimiter)
    (hp : isCommonPrefix (listPrefix p) p.cDelimiter item = true)
    (hp' : isCommonPrefix (listPrefix p) p.cDelimiter item' = false)
    (he : entryOf p item = entryOf p item') : False := by
  obtain ⟨hrel, hdir⟩ := entry_of_isCommonPrefix h hp
  have hrel' := entry_of_key hp'
  rw [← he, hdir, if_pos rfl] at hrel'
  unfold suffix at hrel
  split_ifs at hrel with hslash
  · have heq : item = item' := by
      rw [← relative_append h, ← relative_append h', ← hrel, ← hrel']
    exact absurd (hp.symm.trans (heq ▸ hp')) (by decide)
  · -- The key would have the delimiter behind the prefix, too.
    have heq : item' = item ++ ['/'] := by
      rw [List.append_nil] at hrel
      rw [← relative_append h', ← hrel', hrel, ← List.append_assoc, relative_append h]
    cases hd : p.cDelimiter with
    | none => rw [hd] at hp; exact absurd hp (by simp [isCommonPrefix])
    | some d =>
        rw [hd] at hp hp'
        have hmem : d ∈ item.drop (listPrefix p).length := by simpa [isCommonPrefix] using hp
        have hmem' : d ∈ item'.drop (listPrefix p).length := by
          rw [heq, List.drop_append]
          exact List.mem_append_left _ hmem
        exact absurd hmem' (by simpa [isCommonPrefix] using hp')

/-- **Different items are different entries.** An entry tells the item behind the path, and whether
it is a common prefix shows at the delimiter in it. -/
theorem entryOf_injective (h : item ∈ srv.items (listPrefix p) p.cDelimiter)
    (h' : item' ∈ srv.items (listPrefix p) p.cDelimiter) (he : entryOf p item = entryOf p item') :
    item = item' := by
  rw [← relative_append h, ← relative_append h']
  cases hp : isCommonPrefix (listPrefix p) p.cDelimiter item with
  | true =>
      cases hp' : isCommonPrefix (listPrefix p) p.cDelimiter item' with
      | true =>
          rw [← (entry_of_isCommonPrefix h hp).1, ← (entry_of_isCommonPrefix h' hp').1, he]
      | false => exact (entry_ne h h' hp hp' he).elim
  | false =>
      cases hp' : isCommonPrefix (listPrefix p) p.cDelimiter item' with
      | true => exact (entry_ne h' h hp' hp he.symm).elim
      | false => rw [← entry_of_key hp, ← entry_of_key hp', he]

end

/-- **Entries that are new** are all added, but for those without a name. The induction is on the
entries; none of them is there when its turn comes, so only the name decides. -/
theorem foldl_addName {l es : List (CString × Bool)} (hn : es.Nodup) (hl : ∀ e ∈ es, e ∉ l) :
    es.foldl addName l = l ++ es.filter fun e => e.1 ≠ [] := by
  induction es generalizing l with
  | nil => simp
  | cons e es ih =>
      obtain ⟨he, hn⟩ := List.nodup_cons.1 hn
      have hel := hl e (List.mem_cons_self ..)
      have hes := fun e' hm => hl e' (List.mem_cons_of_mem _ hm)
      rw [List.foldl_cons]
      by_cases hname : e.1 = []
      · rw [addName, if_pos (.inl hname), ih hn hes]
        simp [hname]
      · rw [addName, if_neg fun h => h.elim hname fun h => hel h.2, ih hn ?_]
        · simp [hname]
        · intro e' hm hm'
          rcases List.mem_append.1 hm' with hm' | hm'
          · exact hes e' hm hm'
          · exact he (List.mem_singleton.1 hm' ▸ hm)

end Listing
end ECSUtil

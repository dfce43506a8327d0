/-
# The records of a listing

What a `DIR_ENTRY` that the callbacks of a listing append has from the elements before its own.

The record is one for the whole listing (`XML_DIR_LISTING_CONTEXT::Rec`): the texts of an element are put
into it, and the end of an entry empties it, but for `bDir` and `sOwnerID`, and in a listing without
versions only where the entry has a name.  Of the texts of a document this leaves `Action`s, and
`reach` tells which of them a field of the record still has at the next element.
-/

import Mathlib.Data.List.Induction
import ECSUtil.Listing.Callback
import ECSUtil.Xml.Content

namespace ECSUtil
namespace Listing

open Xml

/-- The fields of a `DIR_ENTRY`. -/
inductive Slot
  | sName
  | bDir
  | ftLastMod
  | llSize
  | dwRetentionSeconds
  | bIsLatest
  | bDeleted
  | sVersionId
  | sETag
  | sOwnerDisplayName
  | sOwnerID
  deriving DecidableEq, Repr

/-- Two records have the same in a field. -/
def Slot.Same (r r' : DirEntry) : Slot → Prop
  | sName => r.sName = r'.sName
  | bDir => r.bDir = r'.bDir
  | ftLastMod => r.properties.ftLastMod = r'.properties.ftLastMod
  | llSize => r.properties.llSize = r'.properties.llSize
  | dwRetentionSeconds => r.properties.dwRetentionSeconds = r'.properties.dwRetentionSeconds
  | bIsLatest => r.properties.bIsLatest = r'.properties.bIsLatest
  | bDeleted => r.properties.bDeleted = r'.properties.bDeleted
  | sVersionId => r.properties.sVersionId = r'.properties.sVersionId
  | sETag => r.properties.sETag = r'.properties.sETag
  | sOwnerDisplayName => r.properties.sOwnerDisplayName = r'.properties.sOwnerDisplayName
  | sOwnerID => r.properties.sOwnerID = r'.properties.sOwnerID

/-- The fields that a text sets. -/
def Field.slots (value : CString) : Field → List Slot
  | .key | .commonPrefix => [.sName, .bDir]
  | .versionId => [.sVersionId]
  | .isLatest => [.bIsLatest]
  | .lastModified => [.ftLastMod]
  | .eTag => [.sETag]
  | .size => if scanf [.num none] value = [] then [] else [.llSize]
  | .ownerId => [.sOwnerID]
  | .ownerDisplayName => [.sOwnerDisplayName]
  | .keyPrefix | .isTruncated | .nextMarker | .nextKeyMarker | .nextVersionIdMarker => []

/-- What a text makes of the record, where names are relative to a prefix. -/
def Field.give (sPrefixNoObj value : CString) (f : Field) (r : DirEntry) : DirEntry :=
  (({ sPrefixNoObj := sPrefixNoObj, Rec := r } : XmlDirListingContext).text false value f).2.Rec

/-- What a text makes of the prefix. -/
def Field.givePrefix (sObjName sPrefixNoObj value : CString) (f : Field) : CString :=
  (({ sObjName := sObjName, sPrefixNoObj := sPrefixNoObj } : XmlDirListingContext).text
    false value f).2.sPrefixNoObj

/-- What is done to the record: a text, with the prefix in force, or the end of an entry. -/
inductive Action
  | give (sPrefixNoObj value : CString) (f : Field)
  | finish
  deriving DecidableEq, Repr

namespace Action

/-- A text. -/
def isGive : Action → Bool
  | give _ _ _ => true
  | finish => false

/-- The fields that an action sets. -/
def slots : Action → List Slot
  | give _ value f => f.slots value
  | finish => []

/-- The end of an entry empties the record where `bUnnamed` or the record has a name. -/
def run (bUnnamed : Bool) (r : DirEntry) : Action → DirEntry
  | give sPrefixNoObj value f => f.give sPrefixNoObj value r
  | finish =>
      if bUnnamed || r.sName ≠ [] then { r with sName := [], properties := r.properties.empty } else r

end Action

/-- What some actions make of a record. -/
def runActions (bUnnamed : Bool) (as : List Action) (r : DirEntry) : DirEntry :=
  as.foldl (Action.run bUnnamed) r

/-- The actions of some events. -/
def ListingXml.actions (x : ListingXml) (sObjName : CString) : CString → List Told → List Action
  | _, [] => []
  | sPrefixNoObj, (stack, .text value) :: es =>
      match x.field (path stack) with
      | some f =>
          .give sPrefixNoObj value f ::
            x.actions sObjName (f.givePrefix sObjName sPrefixNoObj value) es
      | none => x.actions sObjName sPrefixNoObj es
  | sPrefixNoObj, (stack, .endElement) :: es =>
      if x.entries.any (compareNoCase (path stack)) then
        .finish :: x.actions sObjName sPrefixNoObj es
      else x.actions sObjName sPrefixNoObj es
  | sPrefixNoObj, (_, .element _) :: es => x.actions sObjName sPrefixNoObj es

/-- The texts since the last end of an entry that emptied the record. -/
def kept (bUnnamed : Bool) (as : List Action) : List Action :=
  as.foldl (fun ts a => match a with
    | .give _ _ _ => ts ++ [a]
    | .finish => if bUnnamed || (runActions bUnnamed ts {}).sName ≠ [] then [] else ts) []

/-- **The texts that a field can still be from**: all of them for the two fields that the end of an entry
keeps. -/
def reach (bUnnamed : Bool) (s : Slot) (as : List Action) : List Action :=
  if s = .bDir ∨ s = .sOwnerID then as.filter Action.isGive else kept bUnnamed as

/-- The fields that some events set. -/
def ListingXml.slots (x : ListingXml) (es : List Told) : List Slot :=
  es.flatMap fun e => match e.2 with
    | .text value => ((x.field (path e.1)).map (Field.slots value)).getD []
    | _ => []

/-- What is appended to the list while some events are told. -/
def ListingXml.appended (x : ListingXml) (es : List Told) (c : XmlDirListingContext) :
    List DirEntry :=
  (x.callback.tell es c).dirList.drop c.dirList.length

/-- The entry of a deleted object. -/
def DirEntry.mark (r : DirEntry) (bDeleted : Bool) : DirEntry :=
  if bDeleted then { r with properties := { r.properties with bDeleted := true } } else r

/-- What the end of an entry appends. -/
def pushed (bUnnamed bDeleted : Bool) (dirList : List DirEntry) (r : DirEntry) : List DirEntry :=
  if (bUnnamed || r.sName ≠ []) && !(r.bDir && dirList.any fun e => e.bDir && e.sName = r.sName) then
    [r.mark bDeleted]
  else []

/-- A new context with the prefix of another. -/
def XmlDirListingContext.alone (c : XmlDirListingContext) : XmlDirListingContext :=
  { sObjName := c.sObjName, sPrefixNoObj := c.sPrefixNoObj }

section

variable {s : Slot} {r r' r'' : DirEntry}

/-- A record agrees with itself on a slot. -/
theorem Slot.Same.rfl : s.Same r r := by cases s <;> exact Eq.refl _

/-- To agree on a slot goes both ways. -/
theorem Slot.Same.symm (h : s.Same r r') : s.Same r' r := by cases s <;> exact Eq.symm h

/-- To agree on a slot is passed on. -/
theorem Slot.Same.trans (h : s.Same r r') (h' : s.Same r' r'') : s.Same r r'' := by
  cases s <;> exact Eq.trans h h'

/-- Records that have the same in all of the fields are the same. -/
theorem Slot.same_all : (∀ s : Slot, s.Same r r') ↔ r = r' := by
  constructor
  · intro h
    obtain ⟨name, dir, m, n, d, l, del, v, e, dn, o⟩ := r
    obtain ⟨name', dir', m', n', d', l', del', v', e', dn', o'⟩ := r'
    obtain rfl : name = name' := h .sName
    obtain rfl : dir = dir' := h .bDir
    obtain rfl : m = m' := h .ftLastMod
    obtain rfl : n = n' := h .llSize
    obtain rfl : d = d' := h .dwRetentionSeconds
    obtain rfl : l = l' := h .bIsLatest
    obtain rfl : del = del' := h .bDeleted
    obtain rfl : v = v' := h .sVersionId
    obtain rfl : e = e' := h .sETag
    obtain rfl : dn = dn' := h .sOwnerDisplayName
    obtain rfl : o = o' := h .sOwnerID
    rfl
  · rintro rfl s
    exact Slot.Same.rfl

/-- What a text does to the record of the context is said by its field and the prefix. -/
theorem Field.give_eq (c : XmlDirListingContext) (b : Bool) (value : CString) (f : Field) :
    (c.text b value f).2.Rec = f.give c.sPrefixNoObj value c.Rec := by cases f <;> rfl

/-- What a text does to the prefix that the names go without is said by its field. -/
theorem Field.givePrefix_eq (c : XmlDirListingContext) (b : Bool) (value : CString) (f : Field) :
    (c.text b value f).2.sPrefixNoObj = f.givePrefix c.sObjName c.sPrefixNoObj value := by
  cases f <;> rfl

/-- A text leaves the name of the object and the list alone. -/
theorem Field.text_frame (c : XmlDirListingContext) (b : Bool) (value : CString) (f : Field) :
    (c.text b value f).2.sObjName = c.sObjName ∧ (c.text b value f).2.dirList = c.dirList := by
  cases f <;> exact ⟨rfl, rfl⟩

/-- **A field that a text sets** is the same whatever it was before. A slot is what a later reader
sees of the record; a text sets all the slots of its field, and does not look at what they were. -/
theorem Field.give_same (p value : CString) {f : Field} (hs : s ∈ f.slots value) :
    s.Same (f.give p value r) (f.give p value r') := by
  cases f with
  | key | commonPrefix =>
      rcases List.mem_pair.1 hs with rfl | rfl <;> exact Eq.refl _
  | size =>
      unfold slots at hs
      unfold give XmlDirListingContext.text XmlDirListingContext.modifyProperties
      cases hscan : scanf [.num none] value with
      | nil => exact absurd hs (by simp [hscan])
      | cons n l =>
          rw [if_neg (by simp [hscan]), List.mem_singleton] at hs
          subst hs
          exact Eq.refl _
  | versionId | isLatest | lastModified | eTag | ownerId | ownerDisplayName =>
      rw [List.mem_singleton.1 hs]
      exact Eq.refl _
  | keyPrefix | isTruncated | nextMarker | nextKeyMarker | nextVersionIdMarker =>
      exact absurd hs List.not_mem_nil

/-- The other fields stay as they are. -/
theorem Field.give_frame (p value : CString) {f : Field} (hs : s ∉ f.slots value) :
    s.Same (f.give p value r) r := by
  cases f with
  | size =>
      unfold slots at hs
      unfold give XmlDirListingContext.text XmlDirListingContext.modifyProperties
      cases hscan : scanf [.num none] value with
      | nil => exact Slot.Same.rfl
      | cons n l =>
          rw [if_neg (by simp [hscan]), List.mem_singleton] at hs
          cases s <;> first | exact Eq.refl _ | exact absurd (Eq.refl _) hs
  | key | commonPrefix =>
      cases s <;> first | exact Eq.refl _ | exact absurd (by simp [slots]) hs
  | versionId | isLatest | lastModified | eTag | ownerId | ownerDisplayName =>
      cases s <;> first | exact Eq.refl _ | exact absurd (by simp [slots]) hs
  | keyPrefix | isTruncated | nextMarker | nextKeyMarker | nextVersionIdMarker =>
      exact Slot.Same.rfl

/-- **After some texts** a field is the same if one of them sets it, or it was the same. The
induction is on the texts: the last one that sets the slot decides, and where there is none the
record from before shows through. -/
theorem runActions_same (b : Bool) {as : List Action} (has : ∀ a ∈ as, a.isGive = true) :
    s.Same (runActions b as r) (runActions b as r') ↔ s ∈ as.flatMap Action.slots ∨ s.Same r r' := by
  induction as generalizing r r' with
  | nil => exact ⟨.inr, fun h => h.resolve_left List.not_mem_nil⟩
  | cons a as ih =>
      have hstep : s.Same (runActions b as (a.run b r)) (runActions b as (a.run b r')) ↔ _ :=
        ih fun a h => has a (List.mem_cons_of_mem _ h)
      rw [List.flatMap_cons, List.mem_append]
      refine Iff.trans hstep ?_
      cases a with
      | finish => exact absurd (has _ List.mem_cons_self) (by decide)
      | give p value f =>
          by_cases hs : s ∈ f.slots value
          · exact ⟨fun _ => .inl (.inl hs), fun _ => .inr (Field.give_same p value hs)⟩
          · have hr := Field.give_frame (r := r) p value hs
            have hr' := Field.give_frame (r := r') p value hs
            constructor
            · rintro (h | h)
              · exact .inl (.inr h)
              · exact .inr (hr.symm.trans (Slot.Same.trans h hr'))
            · rintro ((h | h) | h)
              · exact absurd h hs
              · exact .inl h
              · exact .inr (hr.trans (h.trans hr'.symm))

/-- Actions run one after the other. -/
theorem runActions_append (b : Bool) (as as' : List Action) :
    runActions b (as ++ as') r = runActions b as' (runActions b as r) := List.foldl_append

/-- A text is kept until the end of its entry. -/
theorem kept_concat_give (b : Bool) (as : List Action) (p value : CString) (f : Field) :
    kept b (as ++ [.give p value f]) = kept b as ++ [.give p value f] := by
  unfold kept
  rw [List.foldl_append]
  rfl

/-- The end of an entry drops what was kept, unless it has no name and the listing no versions. -/
theorem kept_concat_finish (b : Bool) (as : List Action) :
    kept b (as ++ [.finish]) =
      if b || (runActions b (kept b as) {}).sName ≠ [] then [] else kept b as := by
  unfold kept
  rw [List.foldl_append]
  rfl

/-- **What a field has from the texts before**: what the texts leave in it that it can still be
from. The end of an entry empties all fields but two, so of the others only the texts behind the
last such end count, and of these two every text does. -/
theorem runActions_reach (b : Bool) (as : List Action) :
    s.Same (runActions b as {}) (runActions b (reach b s as) {}) := by
  induction as using List.reverseRecOn generalizing s with
  | nil =>
      unfold reach
      split_ifs <;> exact Slot.Same.rfl
  | append_singleton as a ih =>
      rw [runActions_append]
      cases a with
      | give p value f =>
          have hreach : reach b s (as ++ [.give p value f]) = reach b s as ++ [.give p value f] := by
            unfold reach
            split_ifs
            · rw [List.filter_append]
              rfl
            · exact kept_concat_give b as p value f
          rw [hreach, runActions_append]
          exact (runActions_same b fun a ha => List.mem_singleton.1 ha ▸ rfl).2 (.inr ih)
      | finish =>
          -- the name is from the texts that are kept
          have hname : (runActions b as {}).sName = (runActions b (kept b as) {}).sName :=
            ih (s := .sName)
          have hrun : runActions b [.finish] (runActions b as {}) =
              (Action.finish).run b (runActions b as {}) := rfl
          rw [hrun]
          unfold Action.run
          rw [hname]
          have hs := ih (s := s)
          unfold reach at hs ⊢
          rw [kept_concat_finish, List.filter_append,
            show [Action.finish].filter Action.isGive = [] from rfl, List.append_nil]
          by_cases hempty : (b || decide ((runActions b (kept b as) {}).sName ≠ [])) = true
          · simp only [if_pos hempty]
            by_cases hsticky : s = .bDir ∨ s = .sOwnerID
            · rw [if_pos hsticky] at hs ⊢
              rcases hsticky with rfl | rfl <;> exact hs
            · rw [if_neg hsticky]
              cases s <;> first | exact Eq.refl _ | exact absurd (by decide) hsticky
          · simp only [if_neg hempty]
            exact hs

end

section

variable {x : ListingXml} {c : XmlDirListingContext} {es : List Told}

/-- **What the end of an entry does** to a context. The list gets the record where it has a name,
and the record is emptied of what the code empties, which is not all of it. -/
theorem endEntry_record (c : XmlDirListingContext) (b d : Bool) :
    (c.endEntry b d).Rec = (Action.finish).run b c.Rec ∧
      (c.endEntry b d).sObjName = c.sObjName ∧ (c.endEntry b d).sPrefixNoObj = c.sPrefixNoObj ∧
      (c.endEntry b d).dirList = c.dirList ++ pushed b d c.dirList c.Rec := by
  unfold XmlDirListingContext.endEntry Action.run pushed
  by_cases hname : (b || decide (c.Rec.sName ≠ [])) = true
  · simp only [hname, Bool.true_and]
    unfold XmlDirListingContext.push DirEntry.mark
    by_cases hdup : (c.Rec.bDir && c.dirList.any fun e => e.bDir && decide (e.sName = c.Rec.sName)) =
        true
    · simp only [hdup, if_true, Bool.not_true, Bool.false_eq_true, if_false, List.append_nil]
      exact ⟨rfl, rfl, rfl, rfl⟩
    · rw [Bool.not_eq_true] at hdup
      simp only [hdup, Bool.false_eq_true, if_false, Bool.not_false, if_true]
      cases d <;> exact ⟨rfl, rfl, rfl, rfl⟩
  · rw [Bool.not_eq_true] at hname
    simp only [hname, Bool.false_eq_true, if_false, Bool.false_and, List.append_nil]
    exact ⟨trivial, trivial, trivial, trivial⟩

/-- **The record follows the actions**, and the name of the object stays. So what an entry is made
of depends on the events before it only by the record, and on the name of the object, which the
caller has given. -/
theorem tell_record (x : ListingXml) (es : List Told) (c : XmlDirListingContext) :
    (x.callback.tell es c).Rec =
        runActions x.bUnnamed (x.actions c.sObjName c.sPrefixNoObj es) c.Rec ∧
      (x.callback.tell es c).sObjName = c.sObjName := by
  induction es generalizing c with
  | nil => exact ⟨rfl, rfl⟩
  | cons e es ih =>
      obtain ⟨stack, e⟩ := e
      rw [Callback.tell_cons]
      cases e with
      | element attrList =>
          unfold ListingXml.actions
          have hnext : x.callback.next stack (.element attrList) c =
              if compareNoCase (path stack) x.root then { c with bGotRootElement := true } else c := by
            unfold Callback.next ListingXml.callback
            dsimp only
            split_ifs <;> rfl
          dsimp only
          rw [hnext]
          split_ifs
          · exact ih _
          · exact ih c
      | text value =>
          unfold ListingXml.actions
          cases hfield : x.field (path stack) with
          | none =>
              have hnext : x.callback.next stack (.text value) c = c := by
                unfold Callback.next ListingXml.callback
                simp only [hfield]
              dsimp only
              rw [hnext]
              exact ih c
          | some f =>
              have hnext : x.callback.next stack (.text value) c =
                  (c.text x.bLastFullObjName value f).2 := by
                unfold Callback.next ListingXml.callback
                simp only [hfield]
              dsimp only
              rw [hnext]
              obtain ⟨hrec, hobj⟩ := ih (c.text x.bLastFullObjName value f).2
              rw [Field.give_eq, Field.givePrefix_eq, (Field.text_frame c _ value f).1] at hrec
              exact ⟨hrec, hobj.trans (Field.text_frame c _ value f).1⟩
      | endElement =>
          unfold ListingXml.actions
          by_cases hentry : x.entries.any (compareNoCase (path stack)) = true
          · have hnext : x.callback.next stack .endElement c =
                c.endEntry x.bUnnamed (x.deleted.any (compareNoCase (path stack))) := by
              unfold Callback.next ListingXml.callback
              simp only [if_pos hentry]
            simp only [if_pos hentry]
            rw [hnext]
            obtain ⟨hRec, hobj, hpre, -⟩ :=
              endEntry_record c x.bUnnamed (x.deleted.any (compareNoCase (path stack)))
            obtain ⟨ihRec, ihobj⟩ :=
              ih (c.endEntry x.bUnnamed (x.deleted.any (compareNoCase (path stack))))
            rw [hRec, hobj, hpre] at ihRec
            exact ⟨ihRec, ihobj.trans hobj⟩
          · have hnext : x.callback.next stack .endElement c = c := by
              unfold Callback.next ListingXml.callback
              simp only [if_neg hentry]
            simp only [if_neg hentry]
            rw [hnext]
            exact ih c

/-- The fields that the actions set are those that the events set. -/
theorem actions_slots (x : ListingXml) (sObjName p : CString) (es : List Told) :
    (x.actions sObjName p es).flatMap Action.slots = x.slots es := by
  induction es generalizing p with
  | nil => rfl
  | cons e es ih =>
      obtain ⟨stack, e⟩ := e
      unfold ListingXml.slots at ih ⊢
      rw [List.flatMap_cons]
      unfold ListingXml.actions
      cases e with
      | element attrList => exact ih p
      | text value =>
          dsimp only
          cases x.field (path stack) with
          | none => exact ih p
          | some f =>
              dsimp only
              rw [List.flatMap_cons, ih]
              rfl
      | endElement =>
          dsimp only
          split_ifs
          · rw [List.flatMap_cons, ih]
            rfl
          · exact ih p

/-- **Where no entry ends**, the actions are texts, and the list stays. An entry ends with the end
of its element only, so between two ends the callback does nothing but to store texts. -/
theorem tell_inside (h : ∀ e ∈ es, e.2 = .endElement →
      x.entries.any (compareNoCase (path e.1)) = false) (c : XmlDirListingContext)
    (sObjName p : CString) :
    (∀ a ∈ x.actions sObjName p es, a.isGive = true) ∧
      (x.callback.tell es c).dirList = c.dirList := by
  induction es generalizing c p with
  | nil => exact ⟨fun a ha => absurd ha List.not_mem_nil, rfl⟩
  | cons e es ih =>
      obtain ⟨stack, e⟩ := e
      have ih := fun c p => ih (fun e he => h e (List.mem_cons_of_mem _ he)) c p
      rw [Callback.tell_cons]
      unfold ListingXml.actions
      cases e with
      | element attrList =>
          refine ⟨(ih c p).1, (ih _ p).2.trans ?_⟩
          unfold Callback.next ListingXml.callback
          dsimp only
          split_ifs <;> rfl
      | text value =>
          refine ⟨?_, (ih _ p).2.trans ?_⟩
          · dsimp only
            cases x.field (path stack) with
            | none => exact (ih c p).1
            | some f =>
                intro a ha
                rcases List.mem_cons.1 ha with rfl | ha
                · rfl
                · exact (ih c _).1 a ha
          · unfold Callback.next ListingXml.callback
            dsimp only
            cases x.field (path stack) with
            | none => rfl
            | some f => exact (Field.text_frame c _ value f).2
      | endElement =>
          have hentry : x.entries.any (compareNoCase (path stack)) = false :=
            h _ List.mem_cons_self rfl
          refine ⟨?_, (ih _ p).2.trans ?_⟩
          · simp only [hentry, Bool.false_eq_true, if_false]
            exact (ih c p).1
          · unfold Callback.next ListingXml.callback
            simp only [hentry, Bool.false_eq_true, if_false]

variable {stack : List CString} {name : CString}
  {attributes : List (CString × CString × CString)} {inside : Content}

/-- No entry ends inside of an entry. -/
theorem inner_not_entry (hx : ∀ q ∈ x.entries, slashes q = 3)
    (hentry : x.entries.any (compareNoCase (path stack)) = true) :
    ∀ e ∈ inner stack attributes inside, e.2 = .endElement →
      x.entries.any (compareNoCase (path e.1)) = false := by
  intro e he hend
  have hdeep : ∀ p, x.entries.any (compareNoCase p) = true → slashes p = 3 := by
    intro p hp
    obtain ⟨q, hq, hpq⟩ := List.any_eq_true.1 hp
    rw [slashes_eq hpq, hx q hq]
  rcases List.mem_cons.1 he with rfl | he
  · exact absurd hend (by simp [start])
  · have hlt := Content.slashes_inside he fun value h => absurd (hend.symm.trans h) (by simp)
    rw [hdeep _ hentry] at hlt
    rw [Bool.eq_false_iff]
    intro h
    rw [hdeep _ h] at hlt
    exact absurd hlt (by decide)

/-- **What an entry appends**: its record, with the texts of the element put into the one before.
The end of the element is told last, and the events inside it end no entry, as their paths have more
slashes. -/
theorem appended_entry (hx : ∀ q ∈ x.entries, slashes q = 3)
    (hentry : x.entries.any (compareNoCase (path (stack ++ [name]))) = true)
    (c : XmlDirListingContext) :
    x.appended ((Content.single name attributes inside).told stack) c =
      pushed x.bUnnamed (x.deleted.any (compareNoCase (path (stack ++ [name])))) c.dirList
        (runActions x.bUnnamed
          (x.actions c.sObjName c.sPrefixNoObj (inner (stack ++ [name]) attributes inside))
          c.Rec) := by
  obtain ⟨hRec, -⟩ := tell_record x (inner (stack ++ [name]) attributes inside) c
  have hinner : ∀ e ∈ inner (stack ++ [name]) attributes inside, e.2 = .endElement →
      x.entries.any (compareNoCase (path e.1)) = false := inner_not_entry hx hentry
  obtain ⟨-, hlist⟩ := tell_inside hinner c [] []
  have hnext : ∀ c, x.callback.next (stack ++ [name]) .endElement c =
      c.endEntry x.bUnnamed (x.deleted.any (compareNoCase (path (stack ++ [name])))) := by
    intro c
    unfold Callback.next ListingXml.callback
    simp only [if_pos hentry]
  unfold ListingXml.appended
  rw [told_single, Callback.tell_append, Callback.tell_cons, Callback.tell_nil, hnext,
    (endEntry_record _ _ _).2.2.2, hlist, hRec, List.drop_left]

/-- No text says that an object is deleted. -/
theorem Field.bDeleted_notMem (value : CString) (f : Field) : Slot.bDeleted ∉ f.slots value := by
  cases f with
  | size =>
      unfold slots
      split_ifs
      · exact List.not_mem_nil
      · exact fun h => absurd (List.mem_singleton.1 h) (by decide)
  | _ => simp [slots]

/-- The record is not that of a deleted object, before its end. -/
theorem runActions_bDeleted (b : Bool) (as : List Action) {r : DirEntry}
    (h : Slot.bDeleted.Same r {}) : Slot.bDeleted.Same (runActions b as r) {} := by
  induction as generalizing r with
  | nil => exact h
  | cons a as ih =>
      refine ih ?_
      cases a with
      | give p value f => exact (Field.give_frame p value (f.bDeleted_notMem value)).trans h
      | finish =>
          unfold Action.run
          dsimp only
          split_ifs
          · exact Eq.refl _
          · exact h

/-- Two records that agree on the mark are the same if they are so when marked. -/
theorem DirEntry.mark_inj {r r' : DirEntry} {d : Bool}
    (h : Slot.bDeleted.Same r r') : r.mark d = r'.mark d ↔ r = r' := by
  cases d with
  | false => exact Iff.rfl
  | true =>
      refine ⟨fun heq => ?_, fun heq => heq ▸ rfl⟩
      refine Slot.same_all.1 fun s => ?_
      have hs := Slot.same_all.2 heq s
      cases s with
      | bDeleted => exact h
      | _ => exact hs

/-- A record appended to a list is that appended to an empty one, if and only if it is the same. -/
theorem pushed_iff {b d : Bool} {dirList : List DirEntry} {r r' rec₁ : DirEntry}
    (hd : Slot.bDeleted.Same r r') (h : pushed b d dirList r = [rec₁]) :
    pushed b d [] r' = [rec₁] ↔ r = r' := by
  unfold pushed at h ⊢
  split_ifs at h with hpush
  obtain rfl := List.singleton_inj.1 h
  rw [Bool.and_eq_true] at hpush
  simp only [List.any_nil, Bool.and_false, Bool.not_false, Bool.and_true]
  constructor
  · intro h'
    split_ifs at h' with hname
    exact ((DirEntry.mark_inj hd).1 (List.singleton_inj.1 h').symm)
  · rintro rfl
    rw [if_pos hpush.1]

/-- **What decides whether an entry is from its element alone**: each field that the element does not set
is as in a new record, after the texts before that it can still be from. -/
theorem appended_alone (hx : ∀ q ∈ x.entries, slashes q = 3) {c : XmlDirListingContext}
    (hc : c.Rec = {}) (before : List Told)
    (hentry : x.entries.any (compareNoCase (path (stack ++ [name]))) = true) {r : DirEntry}
    (h : x.appended ((Content.single name attributes inside).told stack)
      (x.callback.tell before c) = [r]) :
    x.appended ((Content.single name attributes inside).told stack)
        (x.callback.tell before c).alone = [r] ↔
      ∀ s : Slot, s ∈ x.slots ((Content.single name attributes inside).told stack) ∨
        s.Same (runActions x.bUnnamed
          (reach x.bUnnamed s (x.actions c.sObjName c.sPrefixNoObj before)) {}) {} := by
  set own := (Content.single name attributes inside).told stack with hown
  set c₁ := x.callback.tell before c with hc₁
  set as := x.actions c₁.sObjName c₁.sPrefixNoObj (inner (stack ++ [name]) attributes inside)
    with has
  have hgive : ∀ a ∈ as, a.isGive = true :=
    (tell_inside (inner_not_entry hx hentry) c₁ _ _).1
  have hslots : as.flatMap Action.slots = x.slots own := by
    rw [has, actions_slots, hown, told_single]
    unfold ListingXml.slots
    rw [List.flatMap_append, List.flatMap_singleton, List.append_nil]
  have hbefore : ∀ s : Slot, s.Same c₁.Rec (runActions x.bUnnamed
      (reach x.bUnnamed s (x.actions c.sObjName c.sPrefixNoObj before)) {}) := by
    intro s
    rw [hc₁, (tell_record x before c).1, hc]
    exact runActions_reach x.bUnnamed _
  have hsame : ∀ s : Slot, s.Same (runActions x.bUnnamed as c₁.Rec) (runActions x.bUnnamed as {}) ↔
      s ∈ x.slots own ∨ s.Same (runActions x.bUnnamed
        (reach x.bUnnamed s (x.actions c.sObjName c.sPrefixNoObj before)) {}) {} := by
    intro s
    rw [runActions_same x.bUnnamed hgive, hslots]
    refine or_congr_right ⟨fun h => (hbefore s).symm.trans h, fun h => (hbefore s).trans h⟩
  rw [appended_entry hx hentry] at h ⊢
  refine (pushed_iff (r := runActions x.bUnnamed as c₁.Rec) ?_ h).trans ?_
  · have hnew : Slot.bDeleted.Same c₁.Rec {} := by
      rw [hc₁, (tell_record x before c).1, hc]
      exact runActions_bDeleted _ _ Slot.Same.rfl
    exact (runActions_bDeleted _ as hnew).trans (runActions_bDeleted _ as Slot.Same.rfl).symm
  · rw [← Slot.same_all]
    exact forall_congr' hsame

end

end Listing
end ECSUtil

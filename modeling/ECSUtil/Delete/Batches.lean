/-
# The batches of a deletion

Every run of `DeleteS3` on the keys of one bucket is a run of `Batch`: entries are collected, and
`DeleteS3Send` sends the largest ones.  A folder must wait for the keys beneath it, which are
larger.

What the recursion keeps is said once (`deleteS3Internal_keeps`): whatever each entry that is collected
keeps.  `Inv` is kept by every run, `Quiet` says that nothing is sent before there is too much for a request.

What is sent is what a server reads of the requests.  A key that is not ASCII is read as a longer one, so
there is always one that is not read at all (`Inv.ascii_of_sent`); else what is sent is what is written, and
is good if and only if nothing is collected too late (`Inv.sends_iff`).

`bulk_delete` says when each entry is sent once and no folder before a key beneath it.
-/

import Mathlib.Data.List.Induction
import ECSUtil.Delete.Send
import ECSUtil.Xml.Document

namespace ECSUtil
namespace Delete

open Xml

/-- An object of a request, as the entry that it was. -/
def fullEntry (sBucket : CString) (e : S3DeleteEntry) : S3DeleteEntry :=
  { e with sKey := '/' :: sBucket ++ '/' :: e.sKey }

/-- What happened, as the batches see it. -/
def events (log : List Event) : List (Batch.Event S3DeleteEntry) :=
  log.map fun e => match e with
    | .collect e => .add e
    | .post p => .batch (p.objects.map (fullEntry p.sBucket))

/-- The entries collected, in order. -/
def collected (log : List Event) : List S3DeleteEntry := Batch.added (events log)

/-- The entries that are written in the requests, in order. -/
def written (log : List Event) : List S3DeleteEntry := Batch.sent (events log)

/-- The entries sent, in order: those that a server reads. -/
def sent (page : CodePage) (log : List Event) : List S3DeleteEntry :=
  log.flatMap fun e => match e with
    | .collect _ => []
    | .post p => (p.received page).objects.map (fullEntry p.sBucket)

/-- A key beneath a folder. -/
def Beneath (folder e : S3DeleteEntry) : Prop :=
  folder.sKey.getLast? = some '/' ∧ folder.sKey <+: e.sKey ∧ folder.sKey ≠ e.sKey

/-- A key of a bucket. -/
def InBucket (sBucket : CString) (e : S3DeleteEntry) : Prop :=
  '/' :: sBucket ++ ['/'] <+: e.sKey

/-- The object of an entry, without the bucket. -/
def objectOf (sBucket : CString) (e : S3DeleteEntry) : S3DeleteEntry :=
  { e with sKey := e.sKey.drop (sBucket.length + 2) }

/-- The key behind the bucket and the version are ASCII. -/
def Ascii (sBucket : CString) (e : S3DeleteEntry) : Prop :=
  (∀ c ∈ (objectOf sBucket e).sKey, c.toNat < 128) ∧ ∀ c ∈ e.sVersionId, c.toNat < 128

instance (sBucket : CString) (e : S3DeleteEntry) : Decidable (Ascii sBucket e) :=
  decidable_of_iff ((objectOf sBucket e).sKey.all (·.toNat < 128) && e.sVersionId.all (·.toNat < 128))
    (by simp [Ascii])

/-- An entry as a server reads it. -/
def receivedIn (page : CodePage) (sBucket : CString) (e : S3DeleteEntry) : S3DeleteEntry :=
  fullEntry sBucket ((objectOf sBucket e).received page)

section

variable {α : Type}

/-- What is left of a list without repetitions is some of it. -/
theorem unique_sublist [DecidableEq α] (l : List α) : (unique l).Sublist l := by
  induction l with
  | nil => exact List.Sublist.refl _
  | cons a l ih =>
      cases l with
      | nil => exact List.Sublist.refl _
      | cons b l =>
          unfold unique
          split_ifs
          · exact ih.cons a
          · exact ih.cons_cons a

/-- A list without its repetitions has the same members. -/
theorem mem_unique [DecidableEq α] {l : List α} {a : α} : a ∈ unique l ↔ a ∈ l := by
  induction l with
  | nil => exact Iff.rfl
  | cons b l ih =>
      cases l with
      | nil => exact Iff.rfl
      | cons c l =>
          unfold unique
          split_ifs with h
          · rw [ih, h]
            simp
          · rw [List.mem_cons, ih]
            simp only [List.mem_cons]

/-- **What is left of a list in order** is in order, each item once. `unique` drops an item that is
equal to the one before it, and in a list in order equal items are side by side. -/
theorem unique_sorted [DecidableEq α] [LinearOrder α] {l : List α} (h : l.Pairwise (· ≤ ·)) :
    (unique l).Pairwise (· < ·) := by
  induction l with
  | nil => exact List.Pairwise.nil
  | cons a l ih =>
      cases l with
      | nil => exact List.pairwise_singleton _ _
      | cons b l =>
          obtain ⟨ha, hl⟩ := List.pairwise_cons.1 h
          unfold unique
          split_ifs with hab
          · exact ih hl
          · refine List.pairwise_cons.2 ⟨fun c hc => ?_, ih hl⟩
            have hlt : a < b := lt_of_le_of_ne (ha b (List.mem_cons_self ..)) hab
            rcases List.mem_cons.1 (mem_unique.1 hc) with rfl | hc
            · exact hlt
            · exact hlt.trans_le ((List.pairwise_cons.1 hl).1 c hc)

end

section

variable {sBucket : CString} {e e' : S3DeleteEntry} {l : List S3DeleteEntry}

/-- A text is smaller than one that it is the front of. -/
theorem lt_append_cons (k : CString) (c : Char) (t : CString) : k < k ++ c :: t := by
  induction k with
  | nil => exact List.nil_lt_cons c t
  | cons a k ih => exact List.cons_lt_cons_iff.2 (.inr ⟨rfl, ih⟩)

/-- **A key beneath a folder is larger.** Its path continues that of the folder, and keys are
compared as texts; so sorting puts it behind the folder. -/
theorem lt_of_beneath (h : Beneath e e') : e < e' := by
  obtain ⟨-, ⟨t, ht⟩, hne⟩ := h
  cases t with
  | nil => exact absurd (by simpa using ht) hne
  | cons c t =>
      have hkey : e.sKey < e'.sKey := ht ▸ lt_append_cons _ c t
      exact Prod.Lex.toLex_lt_toLex.2 (.inl hkey)

/-- The bucket of a key of a bucket. -/
theorem bucketOf_of_inBucket (hslash : '/' ∉ sBucket) (h : InBucket sBucket e) :
    bucketOf e.sKey = some sBucket := by
  obtain ⟨t, ht⟩ := h
  have hkey : e.sKey = '/' :: (sBucket ++ '/' :: t) := by rw [← ht]; simp
  rw [hkey]
  have hall : ∀ c ∈ sBucket, (decide (c ≠ '/')) = true := fun c hc =>
    decide_eq_true fun h0 => hslash (h0 ▸ hc)
  simp only [bucketOf]
  rw [if_pos (by simp), List.takeWhile_append_of_pos hall]
  simp

/-- **The objects of a request** are the entries without their bucket. All keys are of one bucket,
so the test of the bucket fails for none of them, and each is cut behind it. -/
theorem objectsOf_eq (hb : sBucket ≠ []) (h : ∀ e ∈ l, InBucket sBucket e) :
    objectsOf sBucket l =
      .ok ⟨sBucket, l.map (objectOf sBucket)⟩ := by
  induction l with
  | nil => rfl
  | cons e l ih =>
      have he := h e (List.mem_cons_self ..)
      unfold objectsOf
      rw [if_neg hb]
      dsimp only
      rw [if_pos (List.isPrefixOf_iff_prefix.2 he),
        ih fun e' hm => h e' (List.mem_cons_of_mem _ hm)]
      rfl

@[inherit_doc objectsOf_eq]
theorem objectsOf_nil_eq (hb : sBucket ≠ []) (hslash : '/' ∉ sBucket)
    (h : ∀ e ∈ l, InBucket sBucket e) (hl : l ≠ []) :
    objectsOf [] l =
      .ok ⟨sBucket, l.map (objectOf sBucket)⟩ := by
  rw [← objectsOf_eq hb h]
  cases l with
  | nil => exact absurd rfl hl
  | cons e l =>
      unfold objectsOf
      rw [if_pos rfl, if_neg hb, bucketOf_of_inBucket hslash (h e (List.mem_cons_self ..))]

/-- An object of a request with its bucket is the entry. -/
theorem fullEntry_objectOf (h : InBucket sBucket e) : fullEntry sBucket (objectOf sBucket e) = e := by
  obtain ⟨t, ht⟩ := h
  have hdrop : e.sKey.drop (sBucket.length + 2) = t := by
    rw [← ht, List.drop_append_of_le_length (by simp)]
    simp
  unfold fullEntry objectOf
  dsimp only
  rw [hdrop]
  congr 1
  rw [← ht]
  simp

/-- An object that is made an entry is the object of that entry. -/
theorem objectOf_fullEntry (sBucket : CString) (e : S3DeleteEntry) :
    objectOf sBucket (fullEntry sBucket e) = e := by
  unfold objectOf fullEntry
  simp

/-- **A server reads an entry that is ASCII.** The code page keeps ASCII and so does UTF-8, so the
body is read as it was written. -/
theorem receivedIn_of_ascii (page : CodePage) (h : InBucket sBucket e) (ha : Ascii sBucket e) :
    receivedIn page sBucket e = e := by
  have hkey := (page.recode_eq_self_iff _).2 ha.1
  have hversion := (page.recode_eq_self_iff _).2 ha.2
  have hobject : (objectOf sBucket e).received page = objectOf sBucket e :=
    congrArg₂ S3DeleteEntry.mk hkey hversion
  rw [receivedIn, hobject, fullEntry_objectOf h]

/-- Of another one it reads more characters. -/
theorem length_lt_receivedIn (page : CodePage) (h : InBucket sBucket e) (ha : ¬Ascii sBucket e) :
    e.sKey.length + e.sVersionId.length < (receivedIn page sBucket e).sKey.length +
      (receivedIn page sBucket e).sVersionId.length := by
  have hlen : e.sKey.length = sBucket.length + 2 + (objectOf sBucket e).sKey.length := by
    have hfull := congrArg (fun e => e.sKey.length) (fullEntry_objectOf h)
    simp only [fullEntry, List.length_append, List.length_cons] at hfull
    omega
  have hreceived : (receivedIn page sBucket e).sKey.length =
      sBucket.length + 2 + (page.recode (objectOf sBucket e).sKey).length := by
    simp only [receivedIn, fullEntry, S3DeleteEntry.received, List.length_append, List.length_cons]
    omega
  have hversion : (receivedIn page sBucket e).sVersionId = page.recode e.sVersionId := rfl
  have hle := page.length_le_recode (objectOf sBucket e).sKey
  have hle' := page.length_le_recode e.sVersionId
  rw [hlen, hreceived, hversion]
  rcases not_and_or.1 ha with ha | ha
  · have hlt := page.length_lt_recode ha
    omega
  · have hlt := page.length_lt_recode ha
    omega

end

/-- The run of the batches. -/
def view {σ : Type} (s : State σ) : Batch.State S3DeleteEntry where
  buffer := s.S3DeletePathList
  log := events s.log

/-- Every request succeeds. -/
structure Server.Succeeds {σ : Type} (srv : Server σ) : Prop where
  dirListing : ∀ sKey server, (srv.dirListing sKey server).1.1.ifError = true →
    (srv.dirListing sKey server).1.1.ifNotFound = true
  post : ∀ p server, postError (srv.post p server).1 = none

/-- What a run keeps, with `n` entries in the list at most. -/
structure Inv {σ : Type} (sBucket : CString) (n : ℕ) (s : State σ) : Prop where
  run : Batch.Run (view s)
  inBucket : ∀ e ∈ collected s.log, InBucket sBucket e
  length : s.S3DeletePathList.length ≤ n
  posts : ∀ p, .post p ∈ s.log → p.sBucket = sBucket ∧ p.objects.length ≤ MaxS3DeleteObjects

section

variable {σ : Type} {srv : Server σ} {sBucket : CString} {s : State σ} {n : ℕ}

/-- The stop of a run in which a request failed, or the levels were not enough. -/
def Server.Fails (srv : Server σ) (stop : Stop) : Prop := srv.Succeeds → stop = .levels

/-- The batches see one event after the other. -/
theorem events_snoc (log : List Event) (e : Event) :
    events (log ++ [e]) = events log ++ events [e] := List.map_append

/-- A request collects nothing. -/
@[simp] theorem collected_post (log : List Event) (p : Post) :
    collected (log ++ [.post p]) = collected log := by
  rw [collected, events_snoc]
  exact Batch.added_batch _ _

/-- An entry that is collected is the last one so far. -/
@[simp] theorem collected_collect (log : List Event) (e : S3DeleteEntry) :
    collected (log ++ [.collect e]) = collected log ++ [e] := by
  rw [collected, events_snoc]
  exact Batch.added_add _ _

/-- What is in the list was collected. -/
theorem Inv.collected_of_mem (h : Inv sBucket n s) {e : S3DeleteEntry}
    (hm : e ∈ s.S3DeletePathList) : e ∈ collected s.log :=
  (h.run.added_iff e).2 (.inr hm)

/-- A request collects nothing, and is one request at most. -/
theorem deleteS3Send_log (srv : Server σ) (s : State σ) :
    (deleteS3Send srv s).Meets
      (fun s' => s'.log = s.log ∨ ∃ p, s'.log = s.log ++ [.post p]) fun _ => True := by
  unfold deleteS3Send
  split_ifs
  · exact Except.meets_ok (.inl rfl)
  · dsimp only
    split
    · trivial
    · split
      · trivial
      · exact Except.meets_ok (.inr ⟨_, rfl⟩)

/-- To send a request collects nothing. -/
theorem deleteS3Send_collected (srv : Server σ) (s : State σ) :
    (deleteS3Send srv s).Meets (fun s' => collected s'.log = collected s.log) fun _ => True := by
  refine (deleteS3Send_log srv s).imp (fun s' hlog => ?_) fun _ h => h
  rcases hlog with hlog | ⟨p, hlog⟩
  · rw [hlog]
  · rw [hlog, collected_post]

/-- What is in the list is of the bucket. -/
theorem Inv.inBucket_of_mem (h : Inv sBucket n s) : ∀ e ∈ s.S3DeletePathList, InBucket sBucket e :=
  fun e hm => h.inBucket e (h.collected_of_mem hm)

/-- The list of a request, in order. -/
def sortedList (s : State σ) : List S3DeleteEntry :=
  unique (s.S3DeletePathList.insertionSort (· ≤ ·))

/-- The list in order has the same members. -/
theorem mem_sortedList {e : S3DeleteEntry} : e ∈ sortedList s ↔ e ∈ s.S3DeletePathList := by
  rw [sortedList, mem_unique, List.mem_insertionSort]

/-- The list in order has each member once. -/
theorem sortedList_sorted (s : State σ) : (sortedList s).Pairwise (· < ·) :=
  unique_sorted (List.pairwise_insertionSort _ _)

/-- The list in order has no more entries than the list. -/
theorem sortedList_length_le (s : State σ) :
    (sortedList s).length ≤ s.S3DeletePathList.length := by
  have hle := (unique_sublist (s.S3DeletePathList.insertionSort (· ≤ ·))).length_le
  rwa [List.length_insertionSort] at hle

/-- **A request** has the largest entries and leaves the others. The list is sorted and each entry
is kept once; then they are taken from the end, a thousand at most, which is why a key comes before
its folder. -/
theorem deleteS3Send_eq (srv : Server σ) (hb : sBucket ≠ []) (hslash : '/' ∉ sBucket)
    (h : ∀ e ∈ s.S3DeletePathList, InBucket sBucket e) (hne : s.S3DeletePathList ≠ []) :
    ∃ p : Post, p.sBucket = sBucket ∧ p.objects.map (fullEntry p.sBucket) =
        (sortedList s).reverse.take MaxS3DeleteObjects ∧
      deleteS3Send srv s = match postError (srv.post (p.received srv.page) s.server).1 with
        | some Error => .error (.thrown Error)
        | none => .ok
            { server := (srv.post (p.received srv.page) s.server).2
              S3DeletePathList := (sortedList s).take ((sortedList s).length - MaxS3DeleteObjects)
              log := s.log ++ [.post p] } := by
  set batch := (sortedList s).reverse.take MaxS3DeleteObjects with hbatch
  have hin : ∀ e ∈ batch, InBucket sBucket e := fun e hm =>
    h e (mem_sortedList.1 (List.mem_reverse.1 (List.mem_of_mem_take hm)))
  have hnonempty : batch ≠ [] := by
    obtain ⟨e, hm⟩ := List.exists_mem_of_ne_nil _ hne
    have hpos := List.length_pos_of_mem (mem_sortedList.2 hm)
    intro h0
    have hlen := congrArg List.length h0
    rw [hbatch, List.length_take, List.length_reverse, List.length_nil] at hlen
    have hmax : 0 < MaxS3DeleteObjects := by decide
    omega
  refine ⟨⟨sBucket, batch.map (objectOf sBucket)⟩, rfl, ?_, ?_⟩
  · dsimp only
    rw [List.map_map]
    exact (List.map_congr_left fun e hm => fullEntry_objectOf (hin e hm)).trans (List.map_id' _)
  · unfold deleteS3Send
    rw [if_neg hne]
    dsimp only
    rw [show unique (s.S3DeletePathList.insertionSort (· ≤ ·)) = sortedList s from rfl, ← hbatch]
    exact objectsOf_nil_eq hb hslash hin hnonempty ▸ rfl

/-- **A request keeps** what a run keeps. What is sent was collected and is in the bucket, and what
is left is in the list; a request that failed is the only way to stop. -/
theorem deleteS3Send_meets (srv : Server σ) (hb : sBucket ≠ []) (hslash : '/' ∉ sBucket) (h : Inv sBucket n s) :
    (deleteS3Send srv s).Meets (Inv sBucket (n - MaxS3DeleteObjects)) srv.Fails := by
  by_cases hnil : s.S3DeletePathList = []
  · unfold deleteS3Send
    rw [if_pos hnil]
    exact Except.meets_ok ⟨h.run, h.inBucket, by simp [hnil], h.posts⟩
  obtain ⟨p, hbucket, hp, hsend⟩ := deleteS3Send_eq srv hb hslash h.inBucket_of_mem hnil
  obtain ⟨hdesc, hsplit, hbelow⟩ := Batch.largest_spec (sortedList_sorted s) MaxS3DeleteObjects
  have hlength := (sortedList_length_le s).trans h.length
  rw [hsend]
  cases herror : postError (srv.post (p.received srv.page) s.server).1 with
  | some Error => exact fun hs => absurd (hs.post _ _) (by rw [herror]; simp)
  | none =>
      have hevent : events [.post p] =
          [.batch ((sortedList s).reverse.take MaxS3DeleteObjects)] :=
        congrArg (fun l => [Batch.Event.batch l]) hp
      have hrun := h.run.batch hdesc (fun e => mem_sortedList.symm.trans (hsplit e)) hbelow
      refine Except.meets_ok ⟨?_, fun e hm => ?_, ?_, fun p' hm => ?_⟩
      · unfold view
        dsimp only
        rw [events_snoc, hevent]
        exact hrun
      · exact h.inBucket e ((collected_post s.log p) ▸ hm)
      · rw [List.length_take]
        omega
      · rcases List.mem_append.1 hm with hm | hm
        · exact h.posts p' hm
        · obtain rfl := Event.post.inj (List.mem_singleton.1 hm)
          have hlen := congrArg List.length hp
          rw [List.length_map, List.length_take] at hlen
          exact ⟨hbucket, by omega⟩

/-- A run in which one more entry of the bucket is collected keeps what it keeps, with one more in
the list. -/
theorem Inv.collect {e : S3DeleteEntry} (h : Inv sBucket n s) (he : InBucket sBucket e) :
    Inv sBucket (n + 1)
      { s with
        S3DeletePathList := s.S3DeletePathList ++ [e]
        log := s.log ++ [.collect e] } := by
  constructor
  · have hrun := h.run.add e
    unfold view
    rw [events_snoc]
    exact hrun
  · intro e' hm
    rw [collected_collect] at hm
    rcases List.mem_append.1 hm with hm | hm
    · exact h.inBucket e' hm
    · exact List.mem_singleton.1 hm ▸ he
  · simpa using h.length
  · intro p hm
    rcases List.mem_append.1 hm with hm | hm
    · exact h.posts p hm
    · exact absurd (List.mem_singleton.1 hm) Event.noConfusion

/-- **An entry is collected.** The list has a thousand entries at most in between; with one more a
request is sent, and takes it back below that. -/
theorem collect_meets (hb : sBucket ≠ []) (hslash : '/' ∉ sBucket) {e : S3DeleteEntry}
    (he : InBucket sBucket e) (h : Inv sBucket MaxS3DeleteObjects s) :
    (collect srv e s).Meets (Inv sBucket MaxS3DeleteObjects) srv.Fails := by
  have h' := h.collect he
  unfold collect
  dsimp only
  split_ifs with hmax
  · refine (deleteS3Send_meets srv hb hslash h').imp (fun s' hs' => ?_) fun _ he => he
    exact ⟨hs'.run, hs'.inBucket, hs'.length.trans (by decide), hs'.posts⟩
  · exact ⟨h'.run, h'.inBucket, Nat.le_of_not_lt hmax, h'.posts⟩

/-- **What each entry that is collected keeps, a run keeps**, of entries of a kind that the children of
a folder are of, too; and its errors are those of a listing, of an entry, or of the levels. -/
theorem deleteS3Internal_keeps {I : State σ → Prop} {P : S3DeleteEntry → Prop} {E : Stop → Prop}
    (hserver : ∀ (s : State σ) server, I s → I { s with server := server })
    (hcollect : ∀ e s, P e → I s → (collect srv e s).Meets I E)
    (hchild : ∀ e (s : State σ), P e → I s → (srv.dirListing e.sKey s.server).1.1.ifError = false →
      ∀ d ∈ (srv.dirListing e.sKey s.server).1.2, P (child e.sKey d))
    (hthrown : ∀ (e : S3DeleteEntry) (s : State σ), (srv.dirListing e.sKey s.server).1.1.ifError = true →
      (srv.dirListing e.sKey s.server).1.1.ifNotFound = false →
        E (.thrown (srv.dirListing e.sKey s.server).1.1))
    (hlevels : E .levels) (level : ℕ) {l : List S3DeleteEntry} (hl : ∀ e ∈ l, P e) (h : I s) :
    (deleteS3Internal srv level l s).Meets I E := by
  induction level generalizing l s with
  | zero => exact hlevels
  | succ level ih =>
      refine Except.meets_foldlM h fun s e hm hs => ?_
      have he := hl e hm
      unfold deletePath
      split_ifs with hfolder
      · dsimp only
        split_ifs with herror hok
        · simp only [Bool.and_eq_true, Bool.not_eq_true'] at herror
          exact hthrown e s herror.1 herror.2
        · refine (ih (fun e' hm => ?_) (hserver s _ hs)).bind fun s' hs' => hcollect e s' he hs'
          obtain ⟨d, hd, rfl⟩ := List.mem_map.1 hm
          exact hchild e s he hs (by simpa using hok) d hd
        · exact hcollect e _ he (hserver s _ hs)
      · exact hcollect e s he hs

/-- **All levels.** The induction is on the levels, and at each of them on the list; a folder is
listed first, and comes itself behind what is in it. -/
theorem deleteS3Internal_meets (hb : sBucket ≠ []) (hslash : '/' ∉ sBucket) (level : ℕ)
    {l : List S3DeleteEntry} (hl : ∀ e ∈ l, InBucket sBucket e)
    (h : Inv sBucket MaxS3DeleteObjects s) :
    (deleteS3Internal srv level l s).Meets (Inv sBucket MaxS3DeleteObjects) srv.Fails := by
  refine deleteS3Internal_keeps (fun s server hs => ⟨hs.run, hs.inBucket, hs.length, hs.posts⟩)
    (fun e s he hs => collect_meets hb hslash he hs) (fun e s he _ _ d _ => ?_)
    (fun e s herror hfound hs => ?_) (fun _ => rfl) level hl h
  · exact he.trans (by rw [child, List.append_assoc]; exact List.prefix_append _ _)
  · exact absurd (hfound.symm.trans (hs.dirListing _ _ herror)) (by decide)

/-- At first nothing is in the list, and nothing was sent. -/
theorem Inv.init (server : σ) : Inv sBucket MaxS3DeleteObjects ({ server := server } : State σ) :=
  ⟨.refl, fun _ hm => absurd hm List.not_mem_nil, Nat.zero_le _,
    fun _ hm => absurd hm List.not_mem_nil⟩

/-- **A whole run** leaves nothing in the list. Behind the entries there is a last request for what
is left, which is a thousand at most, so nothing is. -/
theorem deleteS3_meets (srv : Server σ) (hb : sBucket ≠ []) (hslash : '/' ∉ sBucket) (level : ℕ)
    {pathList : List S3DeleteEntry} (hl : ∀ e ∈ pathList, InBucket sBucket e) (server : σ) :
    (deleteS3 srv level pathList server).Meets (Inv sBucket 0) srv.Fails := by
  refine (deleteS3Internal_meets hb hslash level hl (Inv.init server)).bind fun s hs => ?_
  rw [← Nat.sub_self MaxS3DeleteObjects]
  exact deleteS3Send_meets srv hb hslash hs

/-- **Everything is sent, in safe batches and order.** -/
structure Sends (page : CodePage) (s : State σ) : Prop where
  once : ∀ e ∈ collected s.log, (sent page s.log).count e = 1
  batches : ∀ p, .post p ∈ s.log → p.objects.length ≤ MaxS3DeleteObjects
  ordered : (sent page s.log).Pairwise fun folder e => ¬Beneath folder e
  empty : s.S3DeletePathList = []

/-- A server reads of each entry what becomes of it. -/
theorem sent_eq (page : CodePage) {log : List Event} (h : ∀ p, .post p ∈ log → p.sBucket = sBucket) :
    sent page log = (written log).map (receivedIn page sBucket) := by
  unfold sent written Batch.sent events
  rw [List.flatMap_map, List.map_flatMap]
  refine List.flatMap_congr fun e he => ?_
  cases e with
  | collect e => rfl
  | post p =>
      dsimp only [Post.received]
      rw [List.map_map, List.map_map]
      refine List.map_congr_left fun e _ => ?_
      simp only [Function.comp_apply, h p he, receivedIn, objectOf_fullEntry]

/-- At the end what was collected was written. -/
theorem Inv.mem_written (h : Inv sBucket 0 s) (e : S3DeleteEntry) :
    e ∈ collected s.log ↔ e ∈ written s.log := by
  have hempty : s.S3DeletePathList = [] := List.length_eq_zero_iff.1 (Nat.le_zero.1 h.length)
  have hiff := h.run.added_iff e
  rw [show (view s).buffer = [] from hempty] at hiff
  simp only [List.not_mem_nil, or_false] at hiff
  exact hiff

/-- **What is sent is what was collected only if all of it is ASCII**: a shortest entry that is not is not
read in any request. -/
theorem Inv.ascii_of_sent (page : CodePage) (h : Inv sBucket 0 s)
    (hsent : ∀ e ∈ collected s.log, e ∈ sent page s.log) : ∀ e ∈ collected s.log, Ascii sBucket e := by
  have hsize : ∀ n, ∀ e ∈ collected s.log, e.sKey.length + e.sVersionId.length = n →
      Ascii sBucket e := by
    intro n
    induction n using Nat.strong_induction_on with
    | _ n ih =>
        intro e hm hn
        have hread := hsent e hm
        rw [sent_eq page fun p hp => (h.posts p hp).1] at hread
        obtain ⟨e', hm', rfl⟩ := List.mem_map.1 hread
        have hm' := (h.mem_written e').2 hm'
        have ha : Ascii sBucket e' := by
          by_contra ha
          exact ha (ih _ (hn ▸ length_lt_receivedIn page (h.inBucket e' hm') ha) e' hm' rfl)
        rwa [receivedIn_of_ascii page (h.inBucket e' hm') ha]
  exact fun e hm => hsize _ e hm rfl

/-- Where all that was collected is ASCII, what is sent is what is written. -/
theorem Inv.sent_of_ascii (page : CodePage) (h : Inv sBucket 0 s)
    (ha : ∀ e ∈ collected s.log, Ascii sBucket e) : sent page s.log = written s.log := by
  rw [sent_eq page fun p hp => (h.posts p hp).1]
  refine (List.map_congr_left fun e hm => ?_).trans (List.map_id' _)
  have hm := (h.mem_written e).2 hm
  exact receivedIn_of_ascii page (h.inBucket e hm) (ha e hm)

/-- **What is sent at the end of a run is good** if and only if all of it is ASCII and nothing was
collected too late. -/
theorem Inv.sends_iff (page : CodePage) (h : Inv sBucket 0 s) :
    Sends page s ↔
      (∀ e ∈ collected s.log, Ascii sBucket e) ∧ Batch.NoneLate Beneath (events s.log) := by
  have hempty : s.S3DeletePathList = [] := List.length_eq_zero_iff.1 (Nat.le_zero.1 h.length)
  have hgood := h.run.good_iff fun _ _ => lt_of_beneath
  constructor
  · intro hs
    have ha := h.ascii_of_sent page fun e hm =>
      List.count_pos_iff.1 (by rw [hs.once e hm]; decide)
    have hsame := h.sent_of_ascii page ha
    have hordered : (written s.log).Pairwise fun folder e => ¬Beneath folder e := hsame ▸ hs.ordered
    refine ⟨ha, hgood.1 ⟨List.nodup_iff_count_le_one.2 fun e => ?_, hordered, fun a _ b hm => ?_⟩⟩
    · by_cases he : e ∈ written s.log
      · exact (hsame ▸ hs.once e ((h.mem_written e).2 he)).le
      · rw [show Batch.sent (view s).log = written s.log from rfl, List.count_eq_zero.2 he]
        exact Nat.zero_le _
    · rw [show (view s).buffer = [] from hempty] at hm
      exact absurd hm List.not_mem_nil
  · rintro ⟨ha, hnone⟩
    have hsame := h.sent_of_ascii page ha
    obtain ⟨honce, hordered, -⟩ := hgood.2 hnone
    refine ⟨fun e he => ?_, fun p hp => (h.posts p hp).2, hsame ▸ hordered, hempty⟩
    rw [hsame]
    exact List.count_eq_one_of_mem honce ((h.mem_written e).1 he)

/-- Nothing is sent as long as no more entries are collected than a request takes. -/
structure Quiet (s : State σ) : Prop where
  length : s.S3DeletePathList.length ≤ (collected s.log).length
  written : (collected s.log).length ≤ MaxS3DeleteObjects → written s.log = []

/-- To collect an entry writes none. -/
theorem written_collect (log : List Event) (e : S3DeleteEntry) :
    written (log ++ [.collect e]) = written log := by
  rw [written, events_snoc]
  exact Batch.sent_add _ _

/-- **An entry more** is sent only if it is one too many. As long as they are a thousand at most the
list only gets longer, and no request is made. -/
theorem collect_quiet (e : S3DeleteEntry) (h : Quiet s) :
    (collect srv e s).Meets Quiet fun _ => True := by
  have h' : Quiet { s with
      S3DeletePathList := s.S3DeletePathList ++ [e]
      log := s.log ++ [.collect e] } := by
    have hlen : (collected (s.log ++ [.collect e])).length = (collected s.log).length + 1 := by
      rw [collected_collect, List.length_append, List.length_singleton]
    refine ⟨?_, fun hle => ?_⟩
    · dsimp only
      rw [hlen, List.length_append, List.length_singleton]
      exact Nat.succ_le_succ h.length
    · dsimp only at hle ⊢
      rw [written_collect]
      exact h.written (by omega)
  unfold collect
  dsimp only
  split_ifs with hmax
  · set s' : State σ := { s with
      S3DeletePathList := s.S3DeletePathList ++ [e]
      log := s.log ++ [.collect e] }
    have hmany : MaxS3DeleteObjects < (collected s'.log).length := hmax.trans_le h'.length
    unfold deleteS3Send
    rw [if_neg (List.ne_nil_of_length_pos ((Nat.zero_le _).trans_lt hmax))]
    dsimp only
    split
    · trivial
    · rename_i p _
      split
      · trivial
      · refine Except.meets_ok ⟨?_, fun hle => ?_⟩
        · dsimp only
          rw [collected_post]
          refine (List.length_take_le' _ _).trans ?_
          exact (sortedList_length_le s').trans h'.length
        · dsimp only at hle
          rw [collected_post] at hle
          exact absurd hle (Nat.not_le.2 hmany)
  · exact h'

/-- **A deletion of no more entries than a request takes** has one request. That is the last one,
behind all of the entries, so nothing is collected after it. -/
theorem noneLate_of_few {level : ℕ} {pathList : List S3DeleteEntry} {server : σ}
    (hok : deleteS3 srv level pathList server = .ok s)
    (hfew : (collected s.log).length ≤ MaxS3DeleteObjects) :
    Batch.NoneLate Beneath (events s.log) := by
  have hquiet : (deleteS3Internal srv level pathList { server := server }).Meets Quiet
      fun _ => True :=
    deleteS3Internal_keeps (P := fun _ => True) (fun s server hs => ⟨hs.length, hs.written⟩)
      (fun e s _ hs => collect_quiet e hs) (fun _ _ _ _ _ _ _ => trivial) (fun _ _ _ _ => trivial)
      trivial level (fun _ _ => trivial) ⟨Nat.zero_le _, fun _ => rfl⟩
  have hnone : ∀ log : List Event, written log = [] → Batch.NoneLate Beneath (events log) := by
    intro log
    induction log using List.reverseRecOn with
    | nil => exact fun _ => Past.nil
    | append_singleton log e ih =>
        intro h0
        rw [events_snoc]
        cases e with
        | collect e =>
            rw [written_collect] at h0
            refine Batch.noneLate_add.2 ⟨ih h0, fun a ha => ?_⟩
            rw [show Batch.sent (events log) = [] from h0] at ha
            exact absurd ha List.not_mem_nil
        | post p =>
            rw [written, events_snoc] at h0
            have hsplit : written log ++ p.objects.map (fullEntry p.sBucket) = [] :=
              (Batch.sent_batch _ _).symm.trans h0
            exact Batch.noneLate_batch.2 (ih (List.append_eq_nil_iff.1 hsplit).1)
  unfold deleteS3 at hok
  cases hrun : deleteS3Internal srv level pathList { server := server } with
  | error stop =>
      rw [hrun] at hok
      exact absurd hok (by simp [bind, Except.bind])
  | ok s₁ =>
      rw [hrun] at hok hquiet
      have h₁ : Quiet s₁ := hquiet
      -- What is left is sent at the end, after which nothing is collected.
      have hlast := deleteS3Send_log srv s₁
      have hsame := deleteS3Send_collected srv s₁
      change deleteS3Send srv s₁ = .ok s at hok
      rw [hok] at hlast hsame
      have hsame : collected s.log = collected s₁.log := hsame
      have hbefore := hnone s₁.log (h₁.written (hsame ▸ hfew))
      rcases hlast with hlog | ⟨p, hlog⟩
      · rw [hlog]
        exact hbefore
      · rw [hlog, events_snoc]
        exact Batch.noneLate_batch.2 hbefore

/-- A reply to a POST that tells no error. -/
def noErrors : Reply where
  reading := ⟨S_OK, S_OK, S_OK, tree "DeleteResult".toList [], S_FALSE, S_FALSE_ne_S_OK⟩

/-- A server on which every request succeeds, and no folder has anything in it. -/
def emptyServer : Server Unit where
  page := CodePage.windows1252
  dirListing _ _ := (({}, []), ())
  post _ _ := (noErrors, ())

/-- Keys of one bucket, none of them a folder, each larger than those before. -/
def plainKey (n : ℕ) : S3DeleteEntry where
  sKey := "/b/".toList ++ List.replicate (n + 1) 'a'

/-- The keys of the example are in order. -/
theorem plainKey_lt {m n : ℕ} (h : m < n) : plainKey m < plainKey n := by
  obtain ⟨k, rfl⟩ := Nat.exists_eq_add_of_lt h
  have hkey : (plainKey (m + k + 1)).sKey =
      (plainKey m).sKey ++ 'a' :: List.replicate k 'a' := by
    unfold plainKey
    dsimp only
    rw [show m + k + 1 + 1 = m + 1 + (k + 1) by omega, List.replicate_add, List.append_assoc]
    rfl
  exact Prod.Lex.toLex_lt_toLex.2 (.inl (hkey ▸ lt_append_cons _ _ _))

/-- The keys of the example are all in one bucket. -/
theorem plainKey_inBucket (n : ℕ) : InBucket "b".toList (plainKey n) := List.prefix_append _ _

/-- None of the keys of the example is a folder. -/
theorem plainKey_getLast? (n : ℕ) : (plainKey n).sKey.getLast? ≠ some '/' := by
  unfold plainKey
  rw [List.replicate_succ', ← List.append_assoc, List.getLast?_concat]
  decide

/-- Nothing is collected too late where no entry is collected twice, or after a folder it is
beneath. -/
theorem noneLate_of_distinct (hb : sBucket ≠ []) (hslash : '/' ∉ sBucket) {level : ℕ}
    {pathList : List S3DeleteEntry} (hl : ∀ e ∈ pathList, InBucket sBucket e) {server : σ}
    (hok : deleteS3 srv level pathList server = .ok s)
    (h : (collected s.log).Pairwise fun a b => a ≠ b ∧ ¬Beneath a b) :
    Batch.NoneLate Beneath (events s.log) := by
  have hrun := deleteS3_meets srv hb hslash level hl server
  rw [hok] at hrun
  exact Batch.noneLate_of_pairwise (show Inv sBucket 0 s from hrun).run
    (h.imp fun hab => not_or.2 hab)

/-- **The requests of a deletion** of entries of which none is collected twice, and none after a folder it is
beneath, or which are no more than a request takes, are good if and only if all entries are ASCII; and where
all requests succeed, no error is thrown. -/
theorem bulk_delete (hb : sBucket ≠ []) (hslash : '/' ∉ sBucket) (srv : Server σ) (level : ℕ)
    {pathList : List S3DeleteEntry} (hl : ∀ e ∈ pathList, InBucket sBucket e) (server : σ) :
    (srv.Succeeds → ∀ Error, deleteS3 srv level pathList server ≠ .error (.thrown Error)) ∧
      ∀ s, deleteS3 srv level pathList server = .ok s →
        (collected s.log).length ≤ MaxS3DeleteObjects ∨
            (collected s.log).Pairwise (fun a b => a ≠ b ∧ ¬Beneath a b) →
          (Sends srv.page s ↔ ∀ e ∈ collected s.log, Ascii sBucket e) := by
  have hrun := deleteS3_meets srv hb hslash level hl server
  constructor
  · intro hs Error herror
    rw [herror] at hrun
    exact absurd (hrun hs) (by simp)
  · intro s hok hentries
    rw [hok] at hrun
    have hnone : Batch.NoneLate Beneath (events s.log) :=
      hentries.elim (noneLate_of_few hok) (noneLate_of_distinct hb hslash hl hok)
    rw [(show Inv sBucket 0 s from hrun).sends_iff srv.page]
    exact and_iff_left hnone

/-- **A key and its folder are sent once**, the key first. The key is larger than its folder, so it
stands in front of it in the request, which is taken from the end of the sorted list. -/
theorem bulk_delete_folder : ∃ s,
    deleteS3 emptyServer 2 [{ sKey := "/b/a/".toList }, { sKey := "/b/a/x".toList }] () = .ok s ∧
      Sends emptyServer.page s := by
  have hl : ∀ e ∈ [({ sKey := "/b/a/".toList } : S3DeleteEntry), { sKey := "/b/a/x".toList }],
      InBucket "b".toList e := by
    unfold InBucket
    decide
  refine ⟨_, rfl, ((bulk_delete (by decide) (by decide) emptyServer 2 hl ()).2 _ rfl
    (.inl (by decide))).2 ?_⟩
  decide

end

section

variable {σ : Type} {srv : Server σ}

/-- A key that is no folder is collected. -/
theorem deletePath_plainKey
    {recurse : List S3DeleteEntry → State σ → Except Stop (State σ)} (s : State σ) (n : ℕ) :
    deletePath srv recurse s (plainKey n) = collect srv (plainKey n) s := by
  unfold deletePath
  rw [if_neg (plainKey_getLast? n)]

/-- While there is room for one more, an entry is only put in the list. -/
theorem collect_of_lt {e : S3DeleteEntry} {s : State σ}
    (h : s.S3DeletePathList.length < MaxS3DeleteObjects) :
    collect srv e s = .ok { s with
      S3DeletePathList := s.S3DeletePathList ++ [e]
      log := s.log ++ [.collect e] } := by
  unfold collect
  dsimp only
  rw [if_neg (by rw [List.length_append, List.length_singleton]; omega)]

/-- The entry for which there is no more room makes a request. -/
theorem collect_of_eq {e : S3DeleteEntry} {s : State σ}
    (h : s.S3DeletePathList.length = MaxS3DeleteObjects) :
    collect srv e s = deleteS3Send srv { s with
      S3DeletePathList := s.S3DeletePathList ++ [e]
      log := s.log ++ [.collect e] } := by
  unfold collect
  dsimp only
  rw [if_pos (by rw [List.length_append, List.length_singleton]; omega)]

/-- As long as they are not too many, keys are only collected. -/
theorem collect_plainKeys (srv : Server σ)
    (recurse : List S3DeleteEntry → State σ → Except Stop (State σ)) {l : List ℕ} {s : State σ}
    (h : s.S3DeletePathList.length + l.length ≤ MaxS3DeleteObjects) :
    (l.map plainKey).foldlM (deletePath srv recurse) s =
      .ok { s with
        S3DeletePathList := s.S3DeletePathList ++ l.map plainKey
        log := s.log ++ (l.map plainKey).map .collect } := by
  induction l generalizing s with
  | nil => simp [pure, Except.pure]
  | cons n l ih =>
      rw [List.length_cons] at h
      rw [List.map_cons, List.foldlM_cons, deletePath_plainKey, collect_of_lt (by omega)]
      refine (ih ?_).trans ?_
      · dsimp only
        rw [List.length_append, List.length_singleton]
        omega
      · simp

end

/-- The largest entry is in the next request. -/
theorem mem_batch_of_largest {σ : Type} {s : State σ} {e : S3DeleteEntry}
    (hm : e ∈ s.S3DeletePathList) (hmax : ∀ e' ∈ s.S3DeletePathList, e' ≤ e) :
    e ∈ (sortedList s).reverse.take MaxS3DeleteObjects := by
  obtain ⟨-, hsplit, hbelow⟩ := Batch.largest_spec (sortedList_sorted s) MaxS3DeleteObjects
  have hmem := mem_sortedList.2 hm
  refine ((hsplit e).1 hmem).resolve_right fun hrest => ?_
  have hpos : 0 < ((sortedList s).reverse.take MaxS3DeleteObjects).length := by
    have hlen := List.length_pos_of_mem hmem
    rw [List.length_take, List.length_reverse]
    exact Nat.lt_min.2 ⟨by decide, hlen⟩
  obtain ⟨e', he'⟩ := List.exists_mem_of_length_pos hpos
  have hle := hmax e' (mem_sortedList.1 ((hsplit e').2 (.inl he')))
  exact absurd (hbelow e' he' e hrest) (not_lt.2 hle)

/-- **A key is sent twice** where it is the largest of one key more than a request takes, and is
collected again after that request. -/
theorem not_sends {first : List ℕ} {n : ℕ} (hlen : first.length = MaxS3DeleteObjects)
    (hlt : ∀ m ∈ first, m < n) :
    ∃ s, deleteS3 emptyServer 1 ((first ++ [n, n]).map plainKey) () = .ok s ∧
      ¬Sends emptyServer.page s := by
  have hin : ∀ {l : List ℕ}, ∀ e ∈ l.map plainKey, InBucket "b".toList e := fun e hm => by
    obtain ⟨m, -, rfl⟩ := List.mem_map.1 hm
    exact plainKey_inBucket m
  have hpost : ∀ p server, postError (emptyServer.post p server).1 = none := fun _ _ => rfl
  have hfirst := collect_plainKeys emptyServer (deleteS3Internal emptyServer 0)
    (l := first) (s := { server := () }) (by simp [hlen])
  rw [List.nil_append, List.nil_append] at hfirst
  generalize hkeys : first.map plainKey = keys at hfirst
  -- With the largest, the keys are one too many.
  obtain ⟨s₁, hs₁⟩ : ∃ s₁ : State Unit, s₁ =
      { server := ()
        S3DeletePathList := keys ++ [plainKey n]
        log := keys.map .collect ++ [.collect (plainKey n)] } := ⟨_, rfl⟩
  have hlist₁ : s₁.S3DeletePathList = keys ++ [plainKey n] := by rw [hs₁]
  have hlen₁ : s₁.S3DeletePathList.length = MaxS3DeleteObjects + 1 := by
    rw [hlist₁, ← hkeys, List.length_append, List.length_map, hlen, List.length_singleton]
  have hin₁ : ∀ e ∈ s₁.S3DeletePathList, InBucket "b".toList e := fun e hm => by
    rw [hlist₁] at hm
    rcases List.mem_append.1 hm with hm | hm
    · exact hin e (hkeys ▸ hm)
    · exact List.mem_singleton.1 hm ▸ plainKey_inBucket n
  have hmax : ∀ e ∈ s₁.S3DeletePathList, e ≤ plainKey n := fun e hm => by
    rw [hlist₁, ← hkeys] at hm
    rcases List.mem_append.1 hm with hm | hm
    · obtain ⟨m, hm', rfl⟩ := List.mem_map.1 hm
      exact (plainKey_lt (hlt m hm')).le
    · exact (List.mem_singleton.1 hm).le
  have hkey : plainKey n ∈ s₁.S3DeletePathList := by rw [hlist₁]; simp
  obtain ⟨p, -, hp, hsend⟩ := deleteS3Send_eq emptyServer (by decide) (by decide) hin₁
    (List.ne_nil_of_mem hkey)
  have hbatch := mem_batch_of_largest hkey hmax
  rw [hpost] at hsend
  generalize hrest : (sortedList s₁).take ((sortedList s₁).length - MaxS3DeleteObjects) = rest
    at hsend
  have hrestlen : rest.length < MaxS3DeleteObjects := by
    have hle := sortedList_length_le s₁
    have htwo : 2 ≤ MaxS3DeleteObjects := by decide
    rw [← hrest, List.length_take]
    omega
  -- Then it is collected again, and the last request has what is left.
  obtain ⟨s₂, hs₂⟩ : ∃ s₂ : State Unit, s₂ =
      { server := ()
        S3DeletePathList := rest ++ [plainKey n]
        log := s₁.log ++ [.post p] ++ [.collect (plainKey n)] } := ⟨_, rfl⟩
  have hin₂ : ∀ e ∈ s₂.S3DeletePathList, InBucket "b".toList e := fun e hm => by
    rw [hs₂] at hm
    rcases List.mem_append.1 hm with hm | hm
    · exact hin₁ e (mem_sortedList.1 (List.mem_of_mem_take (hrest ▸ hm)))
    · exact List.mem_singleton.1 hm ▸ plainKey_inBucket n
  obtain ⟨p', -, -, hsend'⟩ := deleteS3Send_eq emptyServer (by decide) (by decide) hin₂
    (by rw [hs₂]; simp)
  rw [hpost] at hsend'
  have hrun : deleteS3 emptyServer 1 ((first ++ [n, n]).map plainKey) () =
      deleteS3Send emptyServer s₂ := by
    unfold deleteS3 deleteS3Internal
    have hsecond : collect emptyServer (plainKey n)
        { server := (), S3DeletePathList := keys, log := keys.map .collect } =
        deleteS3Send emptyServer s₁ := by
      rw [collect_of_eq (by rw [← hkeys, List.length_map, hlen]), hs₁]
    rw [List.map_append, hkeys, List.foldlM_append, hfirst, Except.ok_bind, List.map_cons,
      List.foldlM_cons, deletePath_plainKey, hsecond, hsend, Except.ok_bind, List.map_cons,
      List.foldlM_cons, deletePath_plainKey, collect_of_lt hrestlen, Except.ok_bind, List.map_nil,
      List.foldlM_nil, hs₂]
    rfl
  refine ⟨_, hrun.trans hsend', fun h => ?_⟩
  have hinv := deleteS3_meets emptyServer (by decide) (by decide) 1
    (hin (l := first ++ [n, n])) ()
  rw [hrun, hsend'] at hinv
  have hnone := ((show Inv "b".toList 0 _ from hinv).sends_iff _).1 h |>.2
  have hadd : Batch.NoneLate Beneath
      (events s₁.log ++ [.batch (p.objects.map (fullEntry p.sBucket))] ++ [.add (plainKey n)]) := by
    dsimp only at hnone
    rw [events_snoc, hs₂, events_snoc, events_snoc] at hnone
    exact Past.init hnone
  refine (Batch.noneLate_add.1 hadd).2 (plainKey n) ?_ (.inl rfl)
  rw [Batch.sent_batch, hp]
  exact List.mem_append_right _ hbatch

/-- **A key that is sent twice, and one of which another is sent.** In the first run the largest key
goes out with the first thousand and is collected again behind them; in the second the body is
encoded twice. -/
theorem sent_twice :
    (∃ s, deleteS3 emptyServer 1
      ((List.range MaxS3DeleteObjects ++ [MaxS3DeleteObjects, MaxS3DeleteObjects]).map plainKey) () =
        .ok s ∧ ¬Sends emptyServer.page s) ∧
      ∃ s, deleteS3 emptyServer 1 [{ sKey := "/b/é".toList }] () = .ok s ∧
        sent emptyServer.page s.log = [{ sKey := "/b/Ã©".toList }] ∧ ¬Sends emptyServer.page s := by
  refine ⟨not_sends List.length_range fun _ => List.mem_range.1, _, rfl, by decide +kernel, fun h => ?_⟩
  have hone := h.once { sKey := "/b/é".toList } (by decide)
  exact absurd hone (by decide +kernel)

end Delete
end ECSUtil

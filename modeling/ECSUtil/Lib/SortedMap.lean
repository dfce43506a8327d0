/-
# Maps sorted by their keys

An ordered map, such as `std::map`, is the list of its entries in the order of
their keys.  That the keys ascend is a field of the structure, so a key has one
entry at most (`SortedMap.unique`) and no operation can break that.  Insertion does
nothing where the key is already there, as `std::map::insert` does, so a map that is
made of a list has of each key the first entry; of distinct keys it has all, in whatever
order they come (`SortedMap.ofList_eq_of_perm`).

What is found under a key is said by membership (`find_eq_some`, `find_eq_none`), so each operation
has one lemma on what its entries are (`mem_filter`, `mem_modify`, `mem_insert` and the like), in
the simp set where it is a rewriting.
-/

import Mathlib.Data.List.Induction
import Mathlib.Data.List.Nodup
import Mathlib.Order.Lattice

/-- A finite map from `κ` to `ν`, its entries by ascending key. -/
structure SortedMap (κ ν : Type*) [LinearOrder κ] where
  /-- The entries. -/
  entries : List (κ × ν)
  sorted : entries.Pairwise fun e f => e.1 < f.1

namespace SortedMap

variable {κ ν : Type*} [LinearOrder κ]

instance : Membership (κ × ν) (SortedMap κ ν) := ⟨fun m e => e ∈ m.entries⟩

/-- The map without entries. -/
def empty : SortedMap κ ν := ⟨[], .nil⟩

/-- The entries from the first whose key is not below `k` on. -/
def lowerBound (m : SortedMap κ ν) (k : κ) : List (κ × ν) :=
  m.entries.dropWhile fun e => e.1 < k

/-- The value of a key. -/
def find (m : SortedMap κ ν) (k : κ) : Option ν :=
  (m.entries.find? fun e => e.1 = k).map Prod.snd

/-- The entries with one more, where its key is not among theirs. -/
def insertEntry (k : κ) (v : ν) : List (κ × ν) → List (κ × ν)
  | [] => [(k, v)]
  | e :: es =>
      if k < e.1 then (k, v) :: e :: es
      else if k = e.1 then e :: es
      else e :: insertEntry k v es

/-- The key of an entry of the new list is the new one, or that of an old entry. -/
theorem fst_of_mem_insertEntry {k : κ} {v : ν} {es : List (κ × ν)} {e : κ × ν}
    (h : e ∈ insertEntry k v es) : e = (k, v) ∨ e ∈ es := by
  induction es with
  | nil => exact .inl (List.mem_singleton.1 h)
  | cons f es ih =>
      unfold insertEntry at h
      split_ifs at h
      · exact List.mem_cons.1 h
      · exact .inr h
      · rcases List.mem_cons.1 h with rfl | h
        · exact .inr List.mem_cons_self
        · exact (ih h).imp_right (List.mem_cons_of_mem f)

/-- Where the key was not, the new entry and all old ones are in the list. -/
theorem mem_insertEntry {k : κ} {v : ν} {es : List (κ × ν)} (hk : ∀ e ∈ es, e.1 ≠ k)
    {e : κ × ν} (h : e = (k, v) ∨ e ∈ es) : e ∈ insertEntry k v es := by
  induction es with
  | nil => simpa [insertEntry] using h
  | cons f es ih =>
      unfold insertEntry
      have hne : ¬k = f.1 := fun heq => hk f List.mem_cons_self heq.symm
      rw [if_neg hne]
      have ih' := ih fun g hg => hk g (List.mem_cons_of_mem _ hg)
      split_ifs
      · exact List.mem_cons.2 h
      · rcases h with h | h
        · exact List.mem_cons_of_mem _ (ih' (.inl h))
        · rcases List.mem_cons.1 h with rfl | h
          · exact List.mem_cons_self
          · exact List.mem_cons_of_mem _ (ih' (.inr h))

/-- The keys ascend, still. -/
theorem sorted_insertEntry (k : κ) (v : ν) {es : List (κ × ν)}
    (h : es.Pairwise fun e f => e.1 < f.1) :
    (insertEntry k v es).Pairwise fun e f => e.1 < f.1 := by
  induction es with
  | nil => exact List.pairwise_singleton _ _
  | cons f es ih =>
      unfold insertEntry
      obtain ⟨hf, hes⟩ := List.pairwise_cons.1 h
      split_ifs with hlt heq
      · refine List.pairwise_cons.2 ⟨fun e he => ?_, h⟩
        rcases List.mem_cons.1 he with rfl | he
        · exact hlt
        · exact hlt.trans (hf e he)
      · exact h
      · refine List.pairwise_cons.2 ⟨fun e he => ?_, ih hes⟩
        rcases fst_of_mem_insertEntry he with rfl | he
        · exact lt_of_le_of_ne (not_lt.1 hlt) (Ne.symm heq)
        · exact hf e he

/-- `std::map::insert`. -/
def insert (m : SortedMap κ ν) (k : κ) (v : ν) : SortedMap κ ν :=
  ⟨insertEntry k v m.entries, sorted_insertEntry k v m.sorted⟩

/-- The entries that pass a test. -/
def filter (p : κ × ν → Bool) (m : SortedMap κ ν) : SortedMap κ ν :=
  ⟨m.entries.filter p, m.sorted.filter p⟩

/-- Without the entry of a key. -/
def erase (m : SortedMap κ ν) (k : κ) : SortedMap κ ν := m.filter fun e => e.1 ≠ k

/-- Every value changed by a function of the entry. -/
def mapValues (f : κ × ν → ν) (m : SortedMap κ ν) : SortedMap κ ν where
  entries := m.entries.map fun e => (e.1, f e)
  sorted := List.pairwise_map.2 m.sorted

/-- The value of a key changed. -/
def modify (m : SortedMap κ ν) (k : κ) (f : ν → ν) : SortedMap κ ν :=
  m.mapValues fun e => if e.1 = k then f e.2 else e.2

variable {m : SortedMap κ ν} {k : κ} {v : ν} {e : κ × ν}

/-- An empty map has no entry. -/
@[simp] theorem not_mem_empty : e ∉ (empty : SortedMap κ ν) := List.not_mem_nil

/-- The entries that are left are those that pass the test. -/
@[simp] theorem mem_filter {p : κ × ν → Bool} : e ∈ m.filter p ↔ e ∈ m ∧ p e = true :=
  List.mem_filter

/-- The entries that are left are those with another key. -/
@[simp] theorem mem_erase : e ∈ m.erase k ↔ e ∈ m ∧ e.1 ≠ k := by
  simp [erase]

/-- Every entry is there, with its value changed. -/
@[simp] theorem mem_mapValues {f : κ × ν → ν} :
    e ∈ m.mapValues f ↔ ∃ d ∈ m, (d.1, f d) = e := List.mem_map

/-- Every entry is there, with the value of the one key changed. -/
@[simp] theorem mem_modify {f : ν → ν} :
    e ∈ m.modify k f ↔ ∃ v, (e.1, v) ∈ m ∧ e.2 = if e.1 = k then f v else v := by
  simp only [modify, mem_mapValues]
  constructor
  · rintro ⟨⟨k', v⟩, hd, rfl⟩
    exact ⟨v, hd, rfl⟩
  · rintro ⟨v, hv, he⟩
    exact ⟨(e.1, v), hv, Prod.ext rfl he.symm⟩

/-- The entries from a key on are entries. -/
theorem mem_of_mem_lowerBound (h : e ∈ m.lowerBound k) : e ∈ m :=
  (List.dropWhile_sublist _).subset h

/-- **One entry for each key.** -/
theorem unique {d e : κ × ν} (hd : d ∈ m) (he : e ∈ m) (h : d.1 = e.1) : d = e := by
  have hkeys : (m.entries.map Prod.fst).Nodup :=
    List.pairwise_map.2 (m.sorted.imp fun hlt => ne_of_lt hlt)
  exact List.inj_on_of_nodup_map hkeys hd he h

/-- What is found is the entry of the key. -/
theorem find_eq_some : m.find k = some v ↔ (k, v) ∈ m := by
  unfold find
  constructor
  · intro h
    obtain ⟨e, he, rfl⟩ := Option.map_eq_some_iff.1 h
    have hk : e.1 = k := by simpa using List.find?_some he
    exact hk ▸ List.mem_of_find?_eq_some he
  · intro h
    have hany : ∃ e ∈ m.entries, (decide (e.1 = k)) = true := ⟨_, h, decide_eq_true rfl⟩
    obtain ⟨e, he⟩ := Option.isSome_iff_exists.1 (List.find?_isSome.2 hany)
    have hk : e.1 = k := by simpa using List.find?_some he
    rw [he, Option.map_some, unique (List.mem_of_find?_eq_some he) h hk]

/-- Nothing is found where the key has no entry. -/
theorem find_eq_none : m.find k = none ↔ ∀ e ∈ m, e.1 ≠ k := by
  unfold find
  rw [Option.map_eq_none_iff, List.find?_eq_none]
  simp only [decide_eq_true_eq]
  exact Iff.rfl

/-- **A change at one key.**  The other entries stay, and the one of the key is changed. -/
theorem mem_modify_of_mem {f : ν → ν} (h : (k, v) ∈ m) :
    e ∈ m.modify k f ↔ (e ∈ m ∧ e.1 ≠ k) ∨ e = (k, f v) := by
  obtain ⟨k', u⟩ := e
  rw [mem_modify]
  constructor
  · rintro ⟨w, hw, he⟩
    split_ifs at he with hkey
    · obtain rfl : w = v := (Prod.mk.inj (unique hw h hkey)).2
      exact .inr (Prod.ext hkey he)
    · obtain rfl : u = w := he
      exact .inl ⟨hw, hkey⟩
  · rintro (⟨he, hkey⟩ | he)
    · exact ⟨u, he, by rw [if_neg hkey]⟩
    · obtain ⟨rfl, rfl⟩ := Prod.mk.inj he
      exact ⟨v, h, by rw [if_pos rfl]⟩

/-- **Insertion.**  Under a new key there is one entry more. -/
theorem mem_insert (h : m.find k = none) : e ∈ m.insert k v ↔ e = (k, v) ∨ e ∈ m :=
  ⟨fst_of_mem_insertEntry, mem_insertEntry (find_eq_none.1 h)⟩

/-- A key that is there is not inserted. -/
theorem insert_of_mem {w : ν} (h : (k, w) ∈ m) : m.insert k v = m := by
  obtain ⟨es, hes⟩ := m
  have hins : insertEntry k v es = es := by
    replace h : (k, w) ∈ es := h
    induction es with
    | nil => exact absurd h List.not_mem_nil
    | cons f es ih =>
        unfold insertEntry
        obtain ⟨hf, hsorted⟩ := List.pairwise_cons.1 hes
        rcases List.mem_cons.1 h with rfl | h
        · rw [if_neg (lt_irrefl k), if_pos rfl]
        · have hlt : f.1 < k := hf _ h
          rw [if_neg hlt.asymm, if_neg hlt.ne', ih hsorted h]
  unfold insert
  congr

/-- **An entry is added and changed.** -/
theorem mem_modify_insert (h : m.find k = none) {f : ν → ν} :
    e ∈ (m.insert k v).modify k f ↔ (e ∈ m ∧ e.1 ≠ k) ∨ e = (k, f v) := by
  rw [mem_modify_of_mem ((mem_insert h).2 (.inl rfl)), mem_insert h]
  refine or_congr_left (and_congr_left fun hne => or_iff_right ?_)
  rintro rfl
  exact hne rfl

/-- Nothing is found in an empty map. -/
@[simp] theorem find_empty : (empty : SortedMap κ ν).find k = none := rfl

/-- What is found without the entry of a key. -/
theorem find_erase (m : SortedMap κ ν) (k k' : κ) :
    (m.erase k).find k' = if k' = k then none else m.find k' := by
  refine Option.ext fun v => ?_
  rw [find_eq_some, mem_erase]
  split_ifs with h
  · simp [h]
  · rw [find_eq_some]
    exact and_iff_left h

/-- What is found after a change. -/
theorem find_modify (m : SortedMap κ ν) (k : κ) (f : ν → ν) (k' : κ) :
    (m.modify k f).find k' = if k' = k then (m.find k').map f else m.find k' := by
  refine Option.ext fun v => ?_
  rw [find_eq_some, mem_modify]
  split_ifs
  · rw [Option.map_eq_some_iff]
    exact exists_congr fun w => and_congr find_eq_some.symm eq_comm
  · rw [find_eq_some]
    exact exists_eq_right'

/-- What is found after an insertion of a new key. -/
theorem find_insert (h : m.find k = none) (v : ν) (k' : κ) :
    (m.insert k v).find k' = if k' = k then some v else m.find k' := by
  refine Option.ext fun w => ?_
  rw [find_eq_some, mem_insert h]
  split_ifs with hk
  · subst hk
    have hnone : (k', w) ∉ m := fun hw => find_eq_none.1 h _ hw rfl
    simp [hnone, eq_comm]
  · rw [find_eq_some]
    simp [hk]

/-- `insert`, and a change of the value that was there. -/
def assign (m : SortedMap κ ν) (k : κ) (v : ν) : SortedMap κ ν :=
  (m.insert k v).modify k fun _ => v

/-- **What is found after an assignment.** -/
theorem find_assign (m : SortedMap κ ν) (k : κ) (v : ν) (k' : κ) :
    (m.assign k v).find k' = if k' = k then some v else m.find k' := by
  have hmem : ∀ e, e ∈ m.assign k v ↔ (e ∈ m ∧ e.1 ≠ k) ∨ e = (k, v) := by
    intro e
    unfold assign
    cases hk : m.find k with
    | none => exact mem_modify_insert hk
    | some w =>
        rw [insert_of_mem (find_eq_some.1 hk)]
        exact mem_modify_of_mem (find_eq_some.1 hk)
  refine Option.ext fun w => ?_
  rw [find_eq_some, hmem]
  split_ifs with h
  · simp [h, eq_comm]
  · rw [find_eq_some]
    simp [h]

/-- What is found after one value was assigned to several keys. -/
theorem find_foldl_assign (ks : List κ) (m : SortedMap κ ν) (v : ν) (k : κ) :
    (ks.foldl (fun m k' => m.assign k' v) m).find k = if k ∈ ks then some v else m.find k := by
  induction ks generalizing m with
  | nil => simp
  | cons k' ks ih =>
      rw [List.foldl_cons, ih, find_assign]
      by_cases hk : k ∈ ks <;> simp [hk]

/-- The entries inserted one after the other: of a key the first one stays. -/
def ofList (l : List (κ × ν)) : SortedMap κ ν := l.foldl (fun m e => m.insert e.1 e.2) empty

/-- A key that is not there gets an entry. -/
theorem insertEntry_perm {es : List (κ × ν)} (hk : ∀ e ∈ es, e.1 ≠ k) :
    (insertEntry k v es).Perm ((k, v) :: es) := by
  induction es with
  | nil => exact List.Perm.refl _
  | cons f es ih =>
      unfold insertEntry
      have hne : ¬k = f.1 := fun heq => hk f List.mem_cons_self heq.symm
      rw [if_neg hne]
      split_ifs
      · exact List.Perm.refl _
      · have ih' := ih fun e he => hk e (List.mem_cons_of_mem f he)
        exact (ih'.cons f).trans (List.Perm.swap _ _ _)

/-- No key is there twice. -/
theorem nodup_keys (m : SortedMap κ ν) : (m.entries.map Prod.fst).Nodup :=
  List.pairwise_map.2 (m.sorted.imp fun hlt => ne_of_lt hlt)

/-- A map is its entries, in any order. -/
theorem eq_of_perm {m m' : SortedMap κ ν} (h : m.entries.Perm m'.entries) : m = m' := by
  obtain ⟨es, hes⟩ := m
  obtain ⟨es', hes'⟩ := m'
  have heq : es = es' :=
    List.Perm.eq_of_pairwise (fun _ _ _ _ h h' => absurd (h.trans h') (lt_irrefl _)) hes hes' h
  subst heq
  rfl

/-- The last entry of a list is inserted last. -/
theorem ofList_concat (l : List (κ × ν)) (e : κ × ν) :
    ofList (l ++ [e]) = (ofList l).insert e.1 e.2 := by
  unfold ofList
  rw [List.foldl_append]
  rfl

/-- Some of the entries stay. -/
theorem exists_sublist_ofList (l : List (κ × ν)) :
    ∃ kept, List.Sublist kept l ∧ (ofList l).entries.Perm kept := by
  induction l using List.reverseRecOn with
  | nil => exact ⟨[], List.Sublist.refl _, List.Perm.refl _⟩
  | append_singleton l e ih =>
      obtain ⟨kept, hsub, hperm⟩ := ih
      rw [ofList_concat]
      cases hfind : (ofList l).find e.1 with
      | some w =>
          rw [insert_of_mem (find_eq_some.1 hfind)]
          exact ⟨kept, hsub.trans (List.sublist_append_left l [e]), hperm⟩
      | none =>
          refine ⟨kept ++ [e], hsub.append (List.Sublist.refl _), ?_⟩
          have hone := insertEntry_perm (v := e.2) (find_eq_none.1 hfind)
          exact (hone.trans (hperm.cons e)).trans (List.perm_append_singleton e kept).symm

/-- **Of distinct keys all entries stay.** -/
theorem entries_ofList {l : List (κ × ν)} (h : (l.map Prod.fst).Nodup) : (ofList l).entries.Perm l := by
  induction l using List.reverseRecOn with
  | nil => exact List.Perm.refl _
  | append_singleton l e ih =>
      rw [List.map_append, List.map_singleton] at h
      obtain ⟨hl, -, hdisjoint⟩ := List.nodup_append.1 h
      have ih' := ih hl
      have hnew : ∀ d ∈ (ofList l).entries, d.1 ≠ e.1 := fun d hd =>
        hdisjoint _ (List.mem_map_of_mem (ih'.mem_iff.1 hd)) _ (List.mem_singleton_self _)
      rw [ofList_concat]
      have hone := insertEntry_perm (v := e.2) hnew
      exact (hone.trans (ih'.cons e)).trans (List.perm_append_singleton e l).symm

/-- The entries of a map make it again. -/
theorem ofList_entries (m : SortedMap κ ν) : ofList m.entries = m := eq_of_perm (entries_ofList m.nodup_keys)

/-- **Their order does not matter.** -/
theorem ofList_eq_of_perm {l l' : List (κ × ν)} (hperm : l.Perm l') (h : (l.map Prod.fst).Nodup) :
    ofList l = ofList l' :=
  eq_of_perm (((entries_ofList h).trans hperm).trans
    (entries_ofList ((hperm.map Prod.fst).nodup_iff.1 h)).symm)

end SortedMap

/-
# Cells shared by slots

Slots that are empty or name a cell, several of them perhaps the same cell, and cells that count
the slots naming them (`Inv`).  A slot is given a new cell, joins a cell, leaves it, or is the last
to leave and the cell is freed: each keeps the counts right.  What a cell holds is the value of its
slots (`contents`), and a cell that counts one slot belongs to it alone (`Inv.alone`), so a
change of the cell changes the value of no other slot.

How many slots name a cell is counted slot by slot (`names`), so a slot that changes takes one away
from a cell and gives one to another (`sharers_setSlot`).  All operations are changes of one slot
and of the cells that it named and names (`Inv.update`).
-/

import Mathlib.Data.List.Basic
import Mathlib.Logic.Function.Basic

/-- Cells of type `α`, and slots: `none` for a slot that is gone, `some none` for an empty one. -/
structure Shared (α : Type*) where
  cell : ℕ → Option α := fun _ => none
  /-- The next cell that is not used. -/
  next : ℕ := 0
  slots : List (Option (Option ℕ)) := []

namespace Shared

variable {α β : Type*}

/-- How many slots name a cell. -/
def sharers (s : Shared α) (id : ℕ) : ℕ := s.slots.count (some (some id))

def setCell (s : Shared α) (id : ℕ) (x : Option α) : Shared α :=
  { s with cell := Function.update s.cell id x }

def setSlot (s : Shared α) (i : ℕ) (p : Option (Option ℕ)) : Shared α :=
  { s with slots := s.slots.set i p }

/-- A cell is taken for a slot. -/
def alloc (s : Shared α) (i : ℕ) (a : α) : Shared α :=
  { s.setCell s.next (some a) with
    next := s.next + 1
    slots := s.slots.set i (some (some s.next)) }

/-- A new slot, which is empty. -/
def push (s : Shared α) : Shared α := { s with slots := s.slots ++ [some none] }

/-- The cells count the slots that name them. -/
structure Inv (refs : α → ℕ) (s : Shared α) : Prop where
  count : ∀ id, s.sharers id = (s.cell id).elim 0 refs
  used : ∀ {id a}, s.cell id = some a → 0 < refs a
  fresh : ∀ id, s.next ≤ id → s.cell id = none

/-- A slot names a cell, or it does not. -/
def names (p : Option (Option ℕ)) (id : ℕ) : ℕ := if p = some (some id) then 1 else 0

variable {refs : α → ℕ} {s : Shared α} {i j id : ℕ} {a a' : α} {p q : Option (Option ℕ)}

/-- A slot names its cell once. -/
theorem names_self (id : ℕ) : names (some (some id)) id = 1 := if_pos rfl

/-- A slot names no other cell than its own. -/
theorem names_of_ne {id' : ℕ} (h : id' ≠ id) : names (some (some id)) id' = 0 := by
  refine if_neg fun hp => h ?_
  exact (Option.some.inj (Option.some.inj hp)).symm

/-- An empty slot names no cell. -/
theorem names_none (id : ℕ) : names (some none) id = 0 := if_neg (by simp)

/-- A slot that is gone names no cell. -/
theorem names_gone (id : ℕ) : names none id = 0 := if_neg (by simp)

/-- Where a slot changes, the cell it named has one slot fewer, and the one it names one more. -/
theorem sharers_setSlot (hi : s.slots[i]? = some p) (id : ℕ) :
    (s.setSlot i q).sharers id + names p id = s.sharers id + names q id := by
  obtain ⟨hlt, hget⟩ := List.getElem?_eq_some_iff.1 hi
  have hcount := List.count_set (a := q) (b := some (some id)) hlt
  have hin : s.slots[i] = some (some id) →
      s.slots.count (some (some id)) - 1 + 1 = s.slots.count (some (some id)) := fun h =>
    Nat.sub_add_cancel (List.count_pos_iff.2 (h ▸ List.getElem_mem hlt))
  unfold sharers setSlot names
  rw [hcount, hget]
  rw [hget] at hin
  by_cases hp : p = some (some id) <;> by_cases hq : q = some (some id) <;>
    simp only [hp, hq, beq_self_eq_true, beq_iff_eq, if_true, if_false] <;>
    first | omega | exact hin hp | exact congrArg (· + 1) (hin hp)

/-- A new slot is empty, so no cell has one more. -/
theorem sharers_push (id : ℕ) : s.push.sharers id = s.sharers id := by
  unfold sharers push
  rw [List.count_append, List.count_singleton]
  simp

/-- **A slot goes from one state to another**, and a cell changes with it. -/
theorem Inv.update (h : s.Inv refs) (hi : s.slots[i]? = some p) {id₀ : ℕ} {x : Option α}
    (hid : id₀ < s.next) (hcell : x.elim 0 refs + names p id₀ = (s.cell id₀).elim 0 refs + names q id₀)
    (hother : ∀ id ≠ id₀, names p id = names q id) (hused : ∀ a, x = some a → 0 < refs a) :
    ((s.setCell id₀ x).setSlot i q).Inv refs := by
  refine ⟨fun id => ?_, fun {id a} hget => ?_, fun id hle => ?_⟩
  · have hsharers := sharers_setSlot (q := q) (s := s.setCell id₀ x) hi id
    have hcount : (s.setCell id₀ x).sharers id = (s.cell id).elim 0 refs := h.count id
    show _ = (Function.update s.cell id₀ x id).elim 0 refs
    by_cases hne : id = id₀
    · subst hne
      rw [Function.update_self]
      omega
    · have := hother id hne
      rw [Function.update_of_ne hne]
      omega
  · have hcase : Function.update s.cell id₀ x id = some a := hget
    by_cases hne : id = id₀
    · subst hne
      rw [Function.update_self] at hcase
      exact hused a hcase
    · rw [Function.update_of_ne hne] at hcase
      exact h.used hcase
  · have hne : id ≠ id₀ := by
      rintro rfl
      exact absurd hle (by show ¬s.next ≤ id; omega)
    show Function.update s.cell id₀ x id = none
    rw [Function.update_of_ne hne]
    exact h.fresh id hle

/-- A cell that is there was taken before the next one. -/
theorem Inv.lt_next (h : s.Inv refs) (hc : s.cell id = some a) : id < s.next := by
  by_contra hle
  rw [h.fresh id (by omega)] at hc
  exact absurd hc (by simp)

/-- The slot is in a list of slots that name a cell, so the cell is there. -/
theorem Inv.cell_of_slot (h : s.Inv refs) (hi : s.slots[i]? = some (some (some id))) :
    ∃ a, s.cell id = some a := by
  cases hc : s.cell id with
  | some a => exact ⟨a, rfl⟩
  | none =>
      have hcount := h.count id
      rw [hc] at hcount
      exact absurd (List.mem_of_getElem? hi) (List.count_eq_zero.1 hcount)

/-- A cell changes, and its count does not. -/
theorem Inv.modify (h : s.Inv refs) (hc : s.cell id = some a) (hrefs : refs a' = refs a) :
    (s.setCell id (some a')).Inv refs := by
  refine ⟨fun id' => ?_, fun {id' b} hget => ?_, fun id' hle => ?_⟩
  · show s.sharers id' = (Function.update s.cell id (some a') id').elim 0 refs
    rw [h.count id']
    by_cases hne : id' = id
    · subst hne
      rw [Function.update_self, hc]
      exact hrefs.symm
    · rw [Function.update_of_ne hne]
  · have hcase : Function.update s.cell id (some a') id' = some b := hget
    by_cases hne : id' = id
    · subst hne
      rw [Function.update_self] at hcase
      obtain rfl := Option.some.inj hcase
      exact hrefs ▸ h.used hc
    · rw [Function.update_of_ne hne] at hcase
      exact h.used hcase
  · have hne : id' ≠ id := by
      rintro rfl
      have hlt : id' < s.next := h.lt_next hc
      exact absurd hle (Nat.not_le.2 hlt)
    show Function.update s.cell id (some a') id' = none
    rw [Function.update_of_ne hne]
    exact h.fresh id' hle

/-- An empty slot joins a cell. -/
theorem Inv.join (h : s.Inv refs) (hi : s.slots[i]? = some (some none)) (hc : s.cell id = some a)
    (hrefs : refs a' = refs a + 1) :
    ((s.setCell id (some a')).setSlot i (some (some id))).Inv refs := by
  refine h.update hi (h.lt_next hc) ?_ (fun id' hne => ?_) ?_
  · rw [hc, names_none, names_self]
    exact hrefs
  · rw [names_none, names_of_ne hne]
  · rintro b hb
    rw [← Option.some.inj hb, hrefs]
    exact Nat.succ_pos _

/-- A slot leaves a cell that others share. -/
theorem Inv.leave (h : s.Inv refs) (hi : s.slots[i]? = some (some (some id)))
    (hc : s.cell id = some a) (hrefs : refs a' + 1 = refs a) (hpos : 0 < refs a') :
    ((s.setCell id (some a')).setSlot i (some none)).Inv refs := by
  refine h.update hi (h.lt_next hc) ?_ (fun id' hne => ?_) ?_
  · rw [hc, names_none, names_self]
    exact hrefs
  · rw [names_none, names_of_ne hne]
  · rintro b hb
    rw [← Option.some.inj hb]
    exact hpos

/-- The last slot leaves, and the cell is freed. -/
theorem Inv.free (h : s.Inv refs) (hi : s.slots[i]? = some (some (some id)))
    (hc : s.cell id = some a) (hrefs : refs a = 1) :
    ((s.setCell id none).setSlot i (some none)).Inv refs := by
  refine h.update hi (h.lt_next hc) ?_ (fun id' hne => ?_) ?_
  · rw [hc, names_none, names_self]
    exact hrefs.symm
  · rw [names_none, names_of_ne hne]
  · intro b hb
    exact absurd hb (by simp)

/-- An empty slot is given a cell of its own. -/
theorem Inv.alloc (h : s.Inv refs) (hi : s.slots[i]? = some (some none)) (hrefs : refs a = 1) :
    (s.alloc i a).Inv refs := by
  have hgrown : Inv refs { s with next := s.next + 1 } :=
    ⟨h.count, h.used, fun id hle => h.fresh id (Nat.le_of_succ_le hle)⟩
  have hempty : s.cell s.next = none := h.fresh _ (Nat.le_refl _)
  refine hgrown.update (x := some a) hi (Nat.lt_succ_self s.next) ?_ (fun id' hne => ?_) ?_
  · show refs a + names (some none) s.next = (s.cell s.next).elim 0 refs + _
    rw [hempty, names_none, names_self]
    exact hrefs
  · rw [names_none, names_of_ne hne]
  · rintro b hb
    rw [← Option.some.inj hb, hrefs]
    exact Nat.one_pos

/-- A new slot keeps the counts right. -/
theorem Inv.push (h : s.Inv refs) : s.push.Inv refs :=
  ⟨fun id => (sharers_push id).trans (h.count id), h.used, h.fresh⟩

/-- An empty slot goes. -/
theorem Inv.drop (h : s.Inv refs) (hi : s.slots[i]? = some (some none)) :
    (s.setSlot i none).Inv refs := by
  refine ⟨fun id => ?_, h.used, h.fresh⟩
  have hsharers := sharers_setSlot (q := none) hi id
  rw [names_none, names_gone] at hsharers
  exact (Nat.add_right_cancel hsharers).trans (h.count id)

/-- **A cell that counts one slot belongs to it alone.** -/
theorem Inv.alone (h : s.Inv refs) (hi : s.slots[i]? = some (some (some id)))
    (hc : s.cell id = some a) (hrefs : refs a = 1) (hj : s.slots[j]? = some (some (some id))) :
    j = i := by
  by_contra hne
  have hsharers := sharers_setSlot (q := some none) hi id
  have hcount := h.count id
  rw [hc] at hcount
  rw [names_self, names_none, hcount, Option.elim_some, hrefs] at hsharers
  have hmem : some (some id) ∈ (s.setSlot i (some none)).slots := by
    refine List.mem_of_getElem? (i := j) ?_
    show (s.slots.set i (some none))[j]? = _
    rw [List.getElem?_set_ne (Ne.symm hne)]
    exact hj
  exact List.count_eq_zero.1 (Nat.add_right_cancel hsharers) hmem

section Values

variable (val : α → β) (zero : β)

/-- What a slot holds. -/
def value (s : Shared α) (p : Option ℕ) : β := (p.bind s.cell).elim zero val

/-- What the slots hold. -/
def contents (s : Shared α) : List (Option β) := s.slots.map (Option.map (s.value val zero))

variable {val zero} {s' : Shared α}

/-- A slot that is there holds its value. -/
theorem contents_get {p : Option ℕ} (hi : s.slots[i]? = some (some p)) :
    (s.contents val zero)[i]? = some (some (s.value val zero p)) := by
  rw [contents, List.getElem?_map, hi]
  rfl

/-- **Where the cells of the other slots hold what they held**, one slot changes. -/
theorem contents_setSlot (hslots : s'.slots = s.slots.set i q)
    (hother : ∀ j id, j ≠ i → s.slots[j]? = some (some (some id)) →
      (s'.cell id).map val = (s.cell id).map val) :
    s'.contents val zero = (s.contents val zero).set i (q.map (s'.value val zero)) := by
  refine List.ext_getElem? fun j => ?_
  unfold contents
  rw [hslots, List.getElem?_map, List.getElem?_set, List.getElem?_set, List.length_map]
  by_cases hij : i = j
  · subst hij
    simp only [if_true]
    split_ifs <;> rfl
  · rw [if_neg hij, if_neg hij, List.getElem?_map]
    cases hj : s.slots[j]? with
    | none => rfl
    | some p =>
        cases p with
        | none => rfl
        | some p =>
            cases p with
            | none => rfl
            | some id =>
                have hval := hother j id (Ne.symm hij) hj
                have helim : (s'.cell id).elim zero val = (s.cell id).elim zero val := by
                  cases h' : s'.cell id <;> cases h : s.cell id <;> rw [h', h] at hval <;>
                    simp_all
                exact congrArg (fun v => some (some v)) helim

/-- A new slot holds the value of an empty one. -/
theorem contents_push : s.push.contents val zero = s.contents val zero ++ [some zero] :=
  List.map_append

/-- A slot that is gone holds no value. -/
theorem contents_drop (s : Shared α) (i : ℕ) :
    (s.setSlot i none).contents val zero = (s.contents val zero).set i none := by
  exact contents_setSlot (q := none) rfl fun _ _ _ _ => rfl

/-- A cell that holds what it held. -/
theorem contents_setCell (hc : s.cell id = some a) (hval : val a' = val a) :
    (s.setCell id (some a')).contents val zero = s.contents val zero := by
  have hvalue : (s.setCell id (some a')).value val zero = s.value val zero := by
    funext p
    cases p with
    | none => rfl
    | some id' =>
        show (Function.update s.cell id (some a') id').elim zero val = (s.cell id').elim zero val
        by_cases hne : id' = id
        · subst hne
          rw [Function.update_self, hc]
          exact hval
        · rw [Function.update_of_ne hne]
  unfold contents
  rw [hvalue]
  rfl

/-- **The cell of one slot changes the value of that slot only.** -/
theorem Inv.contents_modify (h : s.Inv refs) (hi : s.slots[i]? = some (some (some id)))
    (hc : s.cell id = some a) (hrefs : refs a = 1) :
    (s.setCell id (some a')).contents val zero = (s.contents val zero).set i (some (val a')) := by
  have hslots : (s.setCell id (some a')).slots = s.slots.set i (some (some id)) := by
    refine List.ext_getElem? fun j => ?_
    obtain ⟨hlt, -⟩ := List.getElem?_eq_some_iff.1 hi
    rw [List.getElem?_set]
    split_ifs with hij
    · subst hij
      exact hi
    · rfl
  rw [contents_setSlot hslots fun j id' hne hj => ?_]
  · show (s.contents val zero).set i (some ((Function.update s.cell id (some a') id).elim zero val)) = _
    rw [Function.update_self]
    rfl
  · have hid : id' ≠ id := by
      rintro rfl
      exact hne (h.alone hi hc hrefs hj)
    show (Function.update s.cell id (some a') id').map val = _
    rw [Function.update_of_ne hid]

/-- A slot goes from one cell to another, or to none; the cells hold what they held. -/
theorem contents_moved {x : Option α} {q : Option ℕ}
    (hother : ∀ j, j ≠ i → s.slots[j]? = some (some (some id)) → x.map val = (s.cell id).map val) :
    ((s.setCell id x).setSlot i (some q)).contents val zero =
      (s.contents val zero).set i (some (((s.setCell id x).setSlot i (some q)).value val zero q)) := by
  refine contents_setSlot (q := some q) rfl fun j id' hne hj => ?_
  show (Function.update s.cell id x id').map val = _
  by_cases hid : id' = id
  · subst hid
    rw [Function.update_self]
    exact hother j hne hj
  · rw [Function.update_of_ne hid]

/-- The slot that leaves a cell is empty. -/
theorem contents_leave (hc : s.cell id = some a) (hval : val a' = val a) :
    ((s.setCell id (some a')).setSlot i (some none)).contents val zero =
      (s.contents val zero).set i (some zero) := by
  refine contents_moved fun j _ _ => ?_
  rw [hc, Option.map_some, Option.map_some, hval]

/-- The slot that was the last of a cell is empty. -/
theorem Inv.contents_free (h : s.Inv refs) (hi : s.slots[i]? = some (some (some id)))
    (hc : s.cell id = some a) (hrefs : refs a = 1) :
    ((s.setCell id none).setSlot i (some none)).contents val zero =
      (s.contents val zero).set i (some zero) := by
  refine contents_moved fun j hne hj => ?_
  exact absurd (h.alone hi hc hrefs hj) hne

/-- The slot that joins a cell holds what the cell holds. -/
theorem contents_join (hc : s.cell id = some a) (hval : val a' = val a) :
    ((s.setCell id (some a')).setSlot i (some (some id))).contents val zero =
      (s.contents val zero).set i (some (val a)) := by
  rw [contents_moved fun j _ _ => by rw [hc, Option.map_some, Option.map_some, hval]]
  show (s.contents val zero).set i (some ((Function.update s.cell id (some a') id).elim zero val)) = _
  rw [Function.update_self, Option.elim_some, hval]

/-- The slot of a new cell holds what the cell holds. -/
theorem Inv.contents_alloc (h : s.Inv refs) :
    (s.alloc i a).contents val zero = (s.contents val zero).set i (some (val a)) := by
  have hempty : s.cell s.next = none := h.fresh _ (Nat.le_refl _)
  rw [contents_setSlot (s := s) (q := some (some s.next)) rfl fun j id hne hj => ?_]
  · show (s.contents val zero).set i
      (some ((Function.update s.cell s.next (some a) s.next).elim zero val)) = _
    rw [Function.update_self]
    rfl
  · have hid : id ≠ s.next := by
      rintro rfl
      obtain ⟨b, hb⟩ := h.cell_of_slot hj
      exact absurd (hempty.symm.trans hb) (by simp)
    show (Function.update s.cell s.next (some a) id).map val = _
    rw [Function.update_of_ne hid]

end Values

end Shared

/-
# Duplicates in access control lists

`RemoveACLDups` (`ECSUtil/ECSConnection.cpp`): an entry is merged into an earlier one with the same
ID, which keeps the larger of the two values of the enumeration, and the pass starts over.  One
`READ` and one `WRITE` entry are both kept.

The values are in the order of the rights they grant up to `FULL_CONTROL`, but `READ_ACP` and
`WRITE_ACP` are behind it and grant one right each: `removeACLDups_keeps`.

A turn of the loop merges one pair and starts over (`eraseOne_eq_some`), so the loop is a run of
steps `Merge`, of which each takes an entry away, and ends with a list that has no pair to merge
(`unique_of_eraseOne`).  No step loses a right where the two rights are kept apart
(`Merge.granted`), and where nobody lost a right, they were (`apart_of_rights`).
-/

import Mathlib.Data.List.Pairwise
import ECSUtil.Body.Acl
import ECSUtil.Lib.Loop

namespace ECSUtil
namespace Body

/-- The value of the enumeration. -/
def S3AclValues.toInt : S3AclValues → ℕ
  | .invalid => 0
  | .none => 1
  | .read => 2
  | .write => 3
  | .fullControl => 4
  | .readAcp => 5
  | .writeAcp => 6

/-- One is `READ` and the other `WRITE`. -/
def keepBoth (a b : S3AclValues) : Bool :=
  (a == .read && b == .write) || (a == .write && b == .read)

/-- The larger of two values. -/
def S3AclValues.larger (a b : S3AclValues) : S3AclValues := if a.toInt < b.toInt then b else a

/-- The inner loop: what `itOuter` becomes, and the entries behind it, where one was erased. -/
def eraseInner (itOuter : AclEntry) : List AclEntry → Option (AclEntry × List AclEntry)
  | [] => none
  | itInner :: rest =>
      if itOuter.sID = itInner.sID ∧ keepBoth itOuter.Acl itInner.Acl = false then
        some ({ itOuter with Acl := itOuter.Acl.larger itInner.Acl }, rest)
      else (eraseInner itOuter rest).map fun r => (r.1, itInner :: r.2)

/-- The outer loop: the list, where an entry was erased. -/
def eraseOne : List AclEntry → Option (List AclEntry)
  | [] => none
  | itOuter :: rest =>
      match eraseInner itOuter rest with
      | some r => some (r.1 :: r.2)
      | none => (eraseOne rest).map (itOuter :: ·)

/-- A turn of the loop of `RemoveACLDups`. -/
def removeTurn (AclList : List AclEntry) : List AclEntry ⊕ List AclEntry :=
  match eraseOne AclList with
  | some l => .inl l
  | none => .inr AclList

/-- `RemoveACLDups`, with the turns its loop may take. -/
def removeACLDups (turns : ℕ) (AclList : List AclEntry) : Option (List AclEntry) :=
  Loop.run removeTurn turns AclList

inductive Right
  | read
  | write
  | readAcp
  | writeAcp
  deriving DecidableEq, Repr

/-- The rights that an entry grants. -/
def S3AclValues.grants : S3AclValues → Right → Bool
  | .invalid, _ => false
  | .none, _ => false
  | .read, right => right == .read
  | .write, right => right == .write
  | .fullControl, _ => true
  | .readAcp, right => right == .readAcp
  | .writeAcp, right => right == .writeAcp

/-- A list grants somebody a right. -/
def Granted (AclList : List AclEntry) (sID : CString) (right : Right) : Prop :=
  ∃ e ∈ AclList, e.sID = sID ∧ e.Acl.grants right = true

/-- No ID occurs twice, except as one `READ` together with one `WRITE`. -/
def Unique (AclList : List AclEntry) : Prop :=
  ∀ sID, let values := (AclList.filter fun e => e.sID = sID).map AclEntry.Acl
    values.length ≤ 1 ∨ values = [.read, .write] ∨ values = [.write, .read]

/-- **What is left of a list without its duplicates.** -/
structure Deduplicated (AclList r : List AclEntry) : Prop where
  unique : Unique r
  rights : ∀ sID right, Granted AclList sID right → Granted r sID right
  stable : ∃ turns, removeACLDups turns r = some r

/-- Who has the right to read or to write the list has no other right. -/
def Apart (AclList : List AclEntry) : Prop :=
  ∀ e ∈ AclList, ∀ e' ∈ AclList, e.sID = e'.sID → e.Acl = .readAcp ∨ e.Acl = .writeAcp →
    e'.Acl = e.Acl ∨ e'.Acl = .none ∨ e'.Acl = .invalid

section

variable {l l' : List AclEntry} {e i : AclEntry} {sID : CString}

/-- An entry is merged into an earlier one. -/
inductive Merge : List AclEntry → List AclEntry → Prop
  | mk (front : List AclEntry) (e : AclEntry) (between : List AclEntry) (i : AclEntry)
      (rest : List AclEntry) (hid : e.sID = i.sID) (hboth : keepBoth e.Acl i.Acl = false) :
      Merge (front ++ e :: (between ++ i :: rest))
        (front ++ { e with Acl := e.Acl.larger i.Acl } :: (between ++ rest))

/-- What the inner loop does. -/
theorem eraseInner_eq_some {r : AclEntry × List AclEntry} (h : eraseInner e l = some r) :
    ∃ between i rest, l = between ++ i :: rest ∧ e.sID = i.sID ∧ keepBoth e.Acl i.Acl = false ∧
      r = ({ e with Acl := e.Acl.larger i.Acl }, between ++ rest) := by
  induction l generalizing r with
  | nil => exact absurd h (by simp [eraseInner])
  | cons i rest ih =>
      rw [eraseInner] at h
      by_cases hmerge : e.sID = i.sID ∧ keepBoth e.Acl i.Acl = false
      · rw [if_pos hmerge] at h
        exact ⟨[], i, rest, rfl, hmerge.1, hmerge.2, (Option.some.inj h).symm⟩
      · rw [if_neg hmerge] at h
        obtain ⟨r', hr', rfl⟩ := Option.map_eq_some_iff.1 h
        obtain ⟨between, i', rest', rfl, hid, hboth, rfl⟩ := ih hr'
        exact ⟨i :: between, i', rest', rfl, hid, hboth, rfl⟩

/-- Nothing is merged into an entry where all with its ID are to be kept beside it. -/
theorem eraseInner_eq_none : eraseInner e l = none ↔
    ∀ i ∈ l, e.sID = i.sID → keepBoth e.Acl i.Acl = true := by
  induction l with
  | nil => simp [eraseInner]
  | cons i rest ih =>
      rw [eraseInner, List.forall_mem_cons, ← ih]
      split_ifs with hmerge
      · exact iff_of_false (by simp) fun h => by simp [h.1 hmerge.1] at hmerge
      · rw [Option.map_eq_none_iff]
        refine (and_iff_right fun hid => ?_).symm
        exact Bool.not_eq_false _ ▸ fun hboth => hmerge ⟨hid, hboth⟩

/-- **What a turn does**: an entry is merged, or there is none to be merged. Two entries of one
grantee are found, one of them is erased, and the other has the larger value of the two. -/
theorem eraseOne_eq_some (h : eraseOne l = some l') : Merge l l' := by
  induction l generalizing l' with
  | nil => exact absurd h (by simp [eraseOne])
  | cons e rest ih =>
      rw [eraseOne] at h
      cases hinner : eraseInner e rest with
      | some r =>
          rw [hinner] at h
          obtain ⟨between, i, rest', rfl, hid, hboth, rfl⟩ := eraseInner_eq_some hinner
          obtain rfl := Option.some.inj h
          exact .mk [] e between i rest' hid hboth
      | none =>
          rw [hinner] at h
          obtain ⟨l₁, hl₁, rfl⟩ := Option.map_eq_some_iff.1 h
          obtain ⟨front, e', between, i, rest', hid, hboth⟩ := ih hl₁
          exact .mk (e :: front) e' between i rest' hid hboth

/-- No pair of the list is merged where all pairs with one ID are to be kept. -/
theorem eraseOne_eq_none : eraseOne l = none ↔
    l.Pairwise fun e i => e.sID = i.sID → keepBoth e.Acl i.Acl = true := by
  induction l with
  | nil => simp [eraseOne]
  | cons e rest ih =>
      rw [eraseOne, List.pairwise_cons, ← ih, ← eraseInner_eq_none]
      cases eraseInner e rest <;> simp

/-- A turn that goes on has merged a pair. -/
theorem removeTurn_eq_inl (h : removeTurn l = .inl l') : Merge l l' := by
  unfold removeTurn at h
  cases hone : eraseOne l with
  | some l₁ =>
      rw [hone] at h
      exact Sum.inl.inj h ▸ eraseOne_eq_some hone
  | none =>
      rw [hone] at h
      exact absurd h (by simp)

/-- A turn that ends has found no pair to merge. -/
theorem removeTurn_eq_inr (h : removeTurn l = .inr l') : l' = l ∧ eraseOne l = none := by
  unfold removeTurn at h
  cases hone : eraseOne l with
  | some l₁ =>
      rw [hone] at h
      exact absurd h (by simp)
  | none =>
      rw [hone] at h
      exact ⟨(Sum.inr.inj h).symm, rfl⟩

/-- A merge takes an entry away, so the passes come to an end. -/
theorem Merge.length (h : Merge l l') : l'.length < l.length := by
  obtain ⟨front, e, between, i, rest, -, -⟩ := h
  simp only [List.length_append, List.length_cons]
  omega

/-- The values that somebody has come from the list. -/
theorem Merge.of_mem (h : Merge l l') (he : e ∈ l') : ∃ e₀ ∈ l, e₀.sID = e.sID ∧ e₀.Acl = e.Acl := by
  obtain ⟨front, e₁, between, i, rest, hid, -⟩ := h
  simp only [List.mem_append, List.mem_cons] at he
  rcases he with he | rfl | he | he
  · exact ⟨e, by simp [he], rfl, rfl⟩
  · by_cases hlt : e₁.Acl.toInt < i.Acl.toInt
    · exact ⟨i, by simp, hid.symm, (if_pos hlt).symm⟩
    · exact ⟨e₁, by simp, rfl, (if_neg hlt).symm⟩
  · exact ⟨e, by simp [he], rfl, rfl⟩
  · exact ⟨e, by simp [he], rfl, rfl⟩

/-- A merge keeps the two rights apart that the list kept apart. -/
theorem Merge.apart (h : Merge l l') (hl : Apart l) : Apart l' := by
  intro e he e' he' hid hacp
  obtain ⟨e₀, he₀, hid₀, hacl₀⟩ := h.of_mem he
  obtain ⟨e₁, he₁, hid₁, hacl₁⟩ := h.of_mem he'
  have := hl e₀ he₀ e₁ he₁ (hid₀.trans (hid.trans hid₁.symm)) (hacl₀ ▸ hacp)
  rwa [hacl₀, hacl₁] at this

/-- Which pairs are kept does not depend on the order. -/
theorem keepBoth_comm (a b : S3AclValues) : keepBoth a b = keepBoth b a := by
  cases a <;> cases b <;> rfl

/-- There is one pair only of which both are kept. -/
theorem keepBoth_iff {a b : S3AclValues} : keepBoth a b = true ↔
    a = .read ∧ b = .write ∨ a = .write ∧ b = .read := by
  simp [keepBoth]

/-- Which of two values is the larger one does not depend on their order. -/
theorem larger_comm (a b : S3AclValues) : a.larger b = b.larger a := by
  cases a <;> cases b <;> rfl

/-- No value is larger than the larger one. -/
theorem le_larger (a b : S3AclValues) : a.toInt ≤ (a.larger b).toInt := by
  unfold S3AclValues.larger
  split_ifs <;> omega

/-- Each entry is still there, or was merged with another one. -/
theorem Merge.mem (h : Merge l l') (he : e ∈ l) : e ∈ l' ∨ ∃ x ∈ l, x.sID = e.sID ∧
    keepBoth e.Acl x.Acl = false ∧ ∃ e' ∈ l', e'.sID = e.sID ∧ e'.Acl = e.Acl.larger x.Acl := by
  obtain ⟨front, e₁, between, i, rest, hid, hboth⟩ := h
  simp only [List.mem_append, List.mem_cons] at he ⊢
  rcases he with he | rfl | he | rfl | he
  · exact .inl (.inl he)
  · exact .inr ⟨i, by simp, hid.symm, hboth, _, .inr (.inl rfl), rfl, rfl⟩
  · exact .inl (.inr (.inr (.inl he)))
  · exact .inr ⟨e₁, by simp, hid, keepBoth_comm _ _ ▸ hboth, _, .inr (.inl rfl), hid,
      larger_comm _ _⟩
  · exact .inl (.inr (.inr (.inr he)))

/-- The largest value of an ID is still there. -/
theorem Merge.exists_ge (h : Merge l l') (he : e ∈ l) :
    ∃ e' ∈ l', e'.sID = e.sID ∧ e.Acl.toInt ≤ e'.Acl.toInt := by
  rcases h.mem he with he' | ⟨x, -, -, -, e', he', hid, hacl⟩
  · exact ⟨e, he', rfl, Nat.le_refl _⟩
  · exact ⟨e', he', hid, hacl ▸ le_larger _ _⟩

/-- Two values that do not belong apart lose nothing. -/
theorem grants_larger {a b : S3AclValues} {right : Right} (hboth : keepBoth a b = false)
    (hb : b = .readAcp ∨ b = .writeAcp → a = b ∨ a = .none ∨ a = .invalid)
    (h : a.grants right = true) : (a.larger b).grants right = true := by
  unfold S3AclValues.larger
  split_ifs with hlt
  · -- the right is one of `b` as well
    by_cases hacp : b = .readAcp ∨ b = .writeAcp
    · rcases hb hacp with rfl | rfl | rfl
      · exact h
      · exact absurd h Bool.false_ne_true
      · exact absurd h Bool.false_ne_true
    · obtain ⟨hread, hwrite⟩ := not_or.1 hacp
      cases b with
      | fullControl => rfl
      | readAcp => exact absurd rfl hread
      | writeAcp => exact absurd rfl hwrite
      | _ =>
          cases a <;> first
            | exact absurd hlt (by decide)
            | exact absurd hboth (by decide)
            | exact absurd h Bool.false_ne_true
  · exact h

/-- **Nobody loses a right** in a list that keeps the two rights apart. Up to `FULL_CONTROL` the
larger value has the rights of the smaller one; and who has one of the two values behind it has no
other right, by the hypothesis. -/
theorem Merge.granted (h : Merge l l') (hl : Apart l) {right : Right}
    (hgranted : Granted l sID right) : Granted l' sID right := by
  obtain ⟨e, he, rfl, hright⟩ := hgranted
  rcases h.mem he with he' | ⟨x, hx, hid, hboth, e', he', hid', hacl⟩
  · exact ⟨e, he', rfl, hright⟩
  · refine ⟨e', he', hid', ?_⟩
    rw [hacl]
    exact grants_larger hboth (hl x hx e he hid) hright

/-- **A list without entries to be merged.** Every two entries are compared, so where none is erased
no two have one ID, but for a `READ` and a `WRITE`. -/
theorem unique_of_eraseOne (h : eraseOne l = none) : Unique l := by
  intro sID values
  have hpair : (l.filter fun e => e.sID = sID).Pairwise
      fun e i => keepBoth e.Acl i.Acl = true := by
    refine ((eraseOne_eq_none.1 h).filter _).imp_of_mem fun he hi hboth => ?_
    have he := of_decide_eq_true (List.mem_filter.1 he).2
    have hi := of_decide_eq_true (List.mem_filter.1 hi).2
    exact hboth (he.trans hi.symm)
  have hvalues : values.Pairwise fun a b => keepBoth a b = true := List.pairwise_map.2 hpair
  clear_value values
  match values, hvalues with
  | [], _ => exact .inl (Nat.zero_le _)
  | [a], _ => exact .inl (Nat.le_refl _)
  | [a, b], hab =>
      have hboth := List.rel_of_pairwise_cons hab (List.mem_singleton_self b)
      rcases keepBoth_iff.1 hboth with ⟨rfl, rfl⟩ | ⟨rfl, rfl⟩
      · exact .inr (.inl rfl)
      · exact .inr (.inr rfl)
  | a :: b :: c :: _, habc =>
      -- of three values, two are the same
      have hab := List.rel_of_pairwise_cons habc (List.mem_cons_self)
      have hac := List.rel_of_pairwise_cons habc (List.mem_cons_of_mem _ List.mem_cons_self)
      have hbc := List.rel_of_pairwise_cons (List.Pairwise.of_cons habc) List.mem_cons_self
      rcases keepBoth_iff.1 hab with ⟨rfl, rfl⟩ | ⟨rfl, rfl⟩ <;>
        rcases keepBoth_iff.1 hac with ⟨hac, rfl⟩ | ⟨hac, rfl⟩ <;>
        first | exact absurd hac (by decide) | exact absurd hbc (by decide)

end

/-- The loop keeps what every merge keeps. -/
theorem run_keeps {P : List AclEntry → Prop} (hP : ∀ {l l'}, Merge l l' → P l → P l')
    {turns : ℕ} {l r : List AclEntry} (hl : P l) (hr : removeACLDups turns l = some r) :
    P r ∧ eraseOne r = none :=
  Loop.of_run (I := P) (Q := fun r => P r ∧ eraseOne r = none)
    (fun l r hl h => by
      obtain ⟨rfl, hnone⟩ := removeTurn_eq_inr h
      exact ⟨hl, hnone⟩)
    (fun l l' hl h => hP (removeTurn_eq_inl h) hl) hl hr

/-- The loop comes to an end. -/
theorem exists_removeACLDups (l : List AclEntry) : ∃ turns r, removeACLDups turns l = some r := by
  have hends : Loop.Ends removeTurn (fun _ => True) l :=
    Loop.ends_of_measure (I := fun _ => True) List.length (fun _ _ _ _ => trivial)
      (fun l l' _ h => ⟨trivial, (removeTurn_eq_inl h).length⟩) trivial
  obtain ⟨turns, r, hr, -⟩ := hends
  exact ⟨turns, r, hr⟩

/-- A value that is no smaller than one of the two and grants what it does is that one. -/
theorem eq_of_grants {a b : S3AclValues} (ha : a = .readAcp ∨ a = .writeAcp)
    (hle : a.toInt ≤ b.toInt) (hb : ∀ right, a.grants right = true → b.grants right = true) :
    b = a := by
  rcases ha with rfl | rfl <;> cases b <;>
    first | rfl | exact absurd hle (by decide) | exact absurd (hb .readAcp rfl) (by decide)

/-- Any other value grants something else. -/
theorem exists_right {a b : S3AclValues} (ha : a = .readAcp ∨ a = .writeAcp)
    (hb : ¬(b = a ∨ b = .none ∨ b = .invalid)) :
    ∃ right, b.grants right = true ∧ a.grants right = false := by
  cases b with
  | invalid => exact absurd (.inr (.inr rfl)) hb
  | none => exact absurd (.inr (.inl rfl)) hb
  | read => exact ⟨.read, rfl, by rcases ha with rfl | rfl <;> rfl⟩
  | write => exact ⟨.write, rfl, by rcases ha with rfl | rfl <;> rfl⟩
  | fullControl => exact ⟨.read, rfl, by rcases ha with rfl | rfl <;> rfl⟩
  | readAcp =>
      rcases ha with rfl | rfl
      · exact absurd (.inl rfl) hb
      · exact ⟨.readAcp, rfl, rfl⟩
  | writeAcp =>
      rcases ha with rfl | rfl
      · exact ⟨.writeAcp, rfl, rfl⟩
      · exact absurd (.inl rfl) hb

/-- **Where nobody lost a right**, the two rights were kept apart. The entry that is left of a
grantee has the largest of the values, and a right that is not in it would have been lost. -/
theorem apart_of_rights {l r : List AclEntry}
    (hlarge : ∀ e ∈ l, ∃ e' ∈ r, e'.sID = e.sID ∧ e.Acl.toInt ≤ e'.Acl.toInt)
    (hnone : eraseOne r = none)
    (hrights : ∀ sID right, Granted l sID right → Granted r sID right) : Apart l := by
  intro e he e' he' hid hacp
  obtain ⟨m, hm, hmid, hle⟩ := hlarge e he
  -- the ID has no other entry in the end
  have halone : ∀ x ∈ r, x.sID = m.sID → x = m := by
    intro x hx hxid
    by_contra hne
    have hsymm : Std.Symm fun e i : AclEntry => e.sID = i.sID → keepBoth e.Acl i.Acl = true :=
      ⟨fun a b hab hba => keepBoth_comm _ _ ▸ hab hba.symm⟩
    have hboth := (eraseOne_eq_none.1 hnone).forall hx hm hne hxid
    rcases keepBoth_iff.1 hboth with ⟨-, hm'⟩ | ⟨-, hm'⟩ <;> rw [hm'] at hle <;>
      rcases hacp with hacp | hacp <;> rw [hacp] at hle <;> exact absurd hle (by decide)
  have hgrants : ∀ right, Granted l e.sID right → m.Acl.grants right = true := by
    intro right h
    obtain ⟨x, hx, hxid, hright⟩ := hrights _ _ h
    exact halone x hx (hxid.trans hmid.symm) ▸ hright
  have hacl : m.Acl = e.Acl :=
    eq_of_grants hacp hle fun right h => hgrants right ⟨e, he, rfl, h⟩
  by_contra hother
  obtain ⟨right, hright, hnot⟩ := exists_right hacp hother
  have hyes := hgrants right ⟨e', he', hid.symm, hright⟩
  rw [hacl, hnot] at hyes
  exact Bool.false_ne_true hyes

/-- A list of which duplicates were removed without a loss kept the two rights apart. -/
theorem apart_of_deduplicated {turns : ℕ} {AclList r : List AclEntry}
    (hr : removeACLDups turns AclList = some r) (h : Deduplicated AclList r) : Apart AclList := by
  obtain ⟨hlarge, hnone⟩ := run_keeps
    (P := fun l => ∀ e ∈ AclList, ∃ e' ∈ l, e'.sID = e.sID ∧ e.Acl.toInt ≤ e'.Acl.toInt)
    (fun hmerge hl e he => by
      obtain ⟨e₁, he₁, hid₁, hle₁⟩ := hl e he
      obtain ⟨e₂, he₂, hid₂, hle₂⟩ := hmerge.exists_ge he₁
      exact ⟨e₂, he₂, hid₂.trans hid₁, Nat.le_trans hle₁ hle₂⟩)
    (fun e he => ⟨e, he, rfl, Nat.le_refl _⟩) hr
  exact apart_of_rights hlarge hnone h.rights

/-- **Duplicates are removed, and nobody loses a right**, if and only if nobody has the right to read
or to write the list together with another right. -/
theorem removeACLDups_keeps (AclList : List AclEntry) :
    (∃ turns r, removeACLDups turns AclList = some r ∧ Deduplicated AclList r) ↔
      Apart AclList := by
  constructor
  · rintro ⟨turns, r, hr, hdedup⟩
    exact apart_of_deduplicated hr hdedup
  · intro hapart
    obtain ⟨turns, r, hr⟩ := exists_removeACLDups AclList
    obtain ⟨⟨-, hrights⟩, hnone⟩ := run_keeps
      (P := fun l => Apart l ∧ ∀ sID right, Granted AclList sID right → Granted l sID right)
      (fun hmerge hl => ⟨hmerge.apart hl.1, fun sID right h =>
        hmerge.granted hl.1 (hl.2 sID right h)⟩)
      ⟨hapart, fun _ _ h => h⟩ hr
    have hturn : removeTurn r = .inr r := by
      unfold removeTurn
      rw [hnone]
    exact ⟨turns, r, hr, unique_of_eraseOne hnone, hrights, 1, Loop.run_of_inr hturn 0⟩

/-- Full control together with the right to read the list. -/
def ownerAcls : List AclEntry :=
  [{ sID := "u".toList, Acl := .fullControl }, { sID := "u".toList, Acl := .readAcp }]

/-- Full control is lost. The value of `READ_ACP` is larger than that of `FULL_CONTROL`, so of the
two entries of the owner the one with more rights is erased. -/
theorem removeACLDups_loses :
    ¬∃ turns r, removeACLDups turns ownerAcls = some r ∧ Deduplicated ownerAcls r := by
  rintro ⟨turns, r, hr, hdedup⟩
  have hapart := apart_of_deduplicated hr hdedup
  exact absurd (hapart _ (List.mem_cons_of_mem _ List.mem_cons_self) _ List.mem_cons_self rfl
    (.inl rfl)) (by decide)

example : removeACLDups 3 [{ sID := "u".toList, Acl := .read },
    { sID := "u".toList, Acl := .write }, { sID := "u".toList, Acl := .read }] =
      some [{ sID := "u".toList, Acl := .read }, { sID := "u".toList, Acl := .write }] := by
  decide

end Body
end ECSUtil

/-
# Locks that are taken in an order

Programs whose locks are held for a section (`Sections`), any number of them as threads
(`LockOrder.system`), over reader-writer locks some of which a thread may take again (`LockOrder`).  A
section keeps to the order (`Keeps`) when it asks for a lock only above those that the thread has.

Some locks are outside of the order (`gated`).  They are asked for alone, or by a thread that has one
lock, the gate, exclusively, and so is the only one to do it.

Threads that keep to the order do not wait for each other in a circle: some thread that is not at its
end has what it needs, whatever a lock does with readers while a writer waits (`exists_moves`).
-/

import Mathlib.Data.List.Basic
import Mathlib.Data.Set.Finite.Basic
import Mathlib.Data.Set.Finite.Lemmas
import ECSUtil.Lib.StepSystem

/-- Locks and the order they are taken in. -/
structure LockOrder (κ : Type*) where
  rank : κ → ℕ
  /-- A thread that has the lock may take it again. -/
  recursive : κ → Bool
  /-- The lock is outside of the order. -/
  gated : κ → Bool
  gate : κ

/-- What a program does with locks. -/
inductive Sections (κ : Type*)
  | skip
  | seq (c d : Sections κ)
  /-- One of them. -/
  | any (c : ℕ → Sections κ)
  /-- Any number of times. -/
  | loop (c : Sections κ)
  /-- The lock is held for `c`, exclusively or shared. -/
  | lock (k : κ) (bWrite : Bool) (c : Sections κ)

namespace Sections

variable {κ : Type*}

/-- One after another. -/
def seqs (l : List (Sections κ)) : Sections κ := l.foldr seq skip

/-- It is done or not. -/
def maybe (c : Sections κ) : Sections κ := any fun n => if n = 0 then skip else c

end Sections

namespace LockOrder

variable {κ : Type*}

/-- What a thread has to do: a section, or to release a lock. -/
inductive Todo (κ : Type*)
  | run (c : Sections κ)
  | release (k : κ) (bWrite : Bool)

/-- The locks that are to be released, each with its mode. -/
def held (l : List (Todo κ)) : List (κ × Bool) :=
  l.filterMap fun
    | .run _ => none
    | .release k bWrite => some (k, bWrite)

/-- The lock a thread asks for next. -/
def asks : List (Todo κ) → Option (κ × Bool)
  | .run (.lock k bWrite _) :: _ => some (k, bWrite)
  | _ => none

/-- The thread has the lock in a mode that will do, and may take it again. -/
def Again (O : LockOrder κ) (l : List (κ × Bool)) (k : κ) (bWrite : Bool) : Prop :=
  O.recursive k = true ∧ ((k, true) ∈ l ∨ (bWrite = false ∧ (k, false) ∈ l))

/-- The order lets a thread with some locks ask for one. -/
def May (O : LockOrder κ) (l : List (κ × Bool)) (k : κ) (bWrite : Bool) : Prop :=
  O.Again l k bWrite ∨
    (∀ e ∈ l, e.1 ≠ k) ∧
      if O.gated k then l = [] ∨ (O.gate, true) ∈ l
      else ∀ e ∈ l, if O.gated e.1 then (O.gate, true) ∈ l else O.rank e.1 < O.rank k

/-- A section of a thread with some locks keeps to the order. -/
def Keeps (O : LockOrder κ) : List (κ × Bool) → Sections κ → Prop
  | _, .skip => True
  | l, .seq c d => Keeps O l c ∧ Keeps O l d
  | l, .any c => ∀ n, Keeps O l (c n)
  | l, .loop c => Keeps O l c
  | l, .lock k bWrite c => O.May l k bWrite ∧ Keeps O ((k, bWrite) :: l) c

/-- Each section keeps to the order with what the thread has when it comes to it. -/
def Ordered (O : LockOrder κ) : List (Todo κ) → Prop
  | [] => True
  | .run c :: l => O.Keeps (held l) c ∧ Ordered O l
  | .release _ _ :: l => Ordered O l

/-- No thread has the lock in a mode that is in the way. -/
def Free (s : List (List (Todo κ))) (k : κ) (bWrite : Bool) : Prop :=
  ∀ l ∈ s, ∀ e ∈ held l, e.1 = k → bWrite = false ∧ e.2 = false

/-- A thread goes on; `n` is the choice it makes. -/
def next (O : LockOrder κ) [DecidableEq κ] (s : List (List (Todo κ))) (n : ℕ) :
    List (Todo κ) → Option (List (Todo κ))
  | [] => none
  | .release _ _ :: l => some l
  | .run .skip :: l => some l
  | .run (.seq c d) :: l => some (.run c :: .run d :: l)
  | .run (.any c) :: l => some (.run (c n) :: l)
  | .run (.loop c) :: l => some (if n = 0 then l else .run c :: .run (.loop c) :: l)
  | .run (.lock k bWrite c) :: l =>
      haveI : Decidable (O.Again (held l) k bWrite) := inferInstanceAs (Decidable (_ ∧ _))
      haveI : Decidable (Free s k bWrite) := inferInstanceAs (Decidable (∀ l ∈ s, ∀ e ∈ held l, _))
      if O.Again (held l) k bWrite ∨ Free s k bWrite then some (.run c :: .release k bWrite :: l)
      else none

/-- The threads: an action is a thread and the choice it makes. -/
def system (O : LockOrder κ) [DecidableEq κ] (start : List (Sections κ)) :
    StepSystem (List (List (Todo κ))) (ℕ × ℕ) where
  init s := s = start.map fun c => [.run c]
  step s a := (s[a.1]?).bind fun l => (O.next s a.2 l).map fun l' => s.set a.1 l'

/-- A thread has what it needs: it asks for no lock, or for one that it has already, or for one that no
thread has in any mode. -/
def Moves (O : LockOrder κ) (s : List (List (Todo κ))) (l : List (Todo κ)) : Prop :=
  l ≠ [] ∧ ∀ k bWrite, asks l = some (k, bWrite) →
    O.Again (held l) k bWrite ∨ ∀ l' ∈ s, ∀ e ∈ held l', e.1 ≠ k

/-- A lock that a thread has exclusively no other one has. -/
def Exclusive (s : List (List (Todo κ))) : Prop :=
  ∀ (i j : ℕ) (l l' : List (Todo κ)) (k : κ) (b : Bool), s[i]? = some l → s[j]? = some l' →
    (k, true) ∈ held l → (k, b) ∈ held l' → i = j

/-- **The invariant**: what each thread has and is going to do keeps to the order, and a lock that is held
exclusively is held by one thread. -/
structure Inv (O : LockOrder κ) (s : List (List (Todo κ))) : Prop where
  ordered : ∀ l ∈ s, O.Ordered l
  exclusive : Exclusive s

variable {O : LockOrder κ} {s s' : List (List (Todo κ))} {l l' : List (Todo κ)} {k : κ} {b : Bool}

/-- Who has nothing to do has nothing to release. -/
@[simp] theorem held_nil : held ([] : List (Todo κ)) = [] := rfl

/-- What is to be run holds nothing yet. -/
@[simp] theorem held_run (c : Sections κ) (l : List (Todo κ)) : held (.run c :: l) = held l := rfl

/-- A lock that is to be released is held. -/
@[simp] theorem held_release (k : κ) (b : Bool) (l : List (Todo κ)) :
    held (.release k b :: l) = (k, b) :: held l := rfl

/-- The locks that a thread has are no obstacle to those of this rank. -/
def Fits (O : LockOrder κ) (l : List (κ × Bool)) (r : ℕ) : Prop :=
  ∀ e ∈ l, if O.gated e.1 then (O.gate, true) ∈ l else O.rank e.1 < r

/-- A thread may ask for a lock of the order, again or because of its rank. -/
def Can (O : LockOrder κ) (l : List (κ × Bool)) (k : κ) (bWrite : Bool) : Prop :=
  O.Again l k bWrite ∨ (O.gated k = false ∧ O.Fits l (O.rank k))

section

variable {l : List (κ × Bool)} {k k' : κ} {b b' : Bool} {c : Sections κ} {r r' : ℕ}

/-- Locks that are no obstacle to a rank are none to a higher one. -/
theorem Fits.mono (h : O.Fits l r) (hle : r ≤ r') : O.Fits l r' := by
  intro e he
  have he' := h e he
  split_ifs at he' ⊢
  · exact he'
  · exact Nat.lt_of_lt_of_le he' hle

/-- One more lock, below the rank. -/
theorem Fits.cons (h : O.Fits l r) (hk : O.gated k = false) (hlt : O.rank k < r) :
    O.Fits ((k, b) :: l) r := by
  intro e he
  rcases List.mem_cons.1 he with rfl | he
  · rw [if_neg (Bool.eq_false_iff.1 hk)]
    exact hlt
  · have he' := h e he
    split_ifs at he' ⊢
    · exact List.mem_cons_of_mem _ he'
    · exact he'

/-- One more lock outside of the order, with the gate. -/
theorem Fits.cons_gated (h : O.Fits l r) (hk : O.gated k = true) (hgate : (O.gate, true) ∈ l) :
    O.Fits ((k, b) :: l) r := by
  intro e he
  rcases List.mem_cons.1 he with rfl | he
  · rw [if_pos hk]
    exact List.mem_cons_of_mem _ hgate
  · have he' := h e he
    split_ifs at he' ⊢
    · exact List.mem_cons_of_mem _ he'
    · exact he'

/-- A lock whose rank is above those that a thread has may be asked for, unless it is outside of the
order. -/
theorem Fits.can (h : O.Fits l (O.rank k)) (hk : O.gated k = false) : O.Can l k b := .inr ⟨hk, h⟩

/-- What the order lets a thread ask for by its rank, it lets it ask for. -/
theorem Can.may (h : O.Can l k b) : O.May l k b := by
  refine h.imp id fun ⟨hk, hfits⟩ => ⟨?_, ?_⟩
  · rintro e he rfl
    have he' := hfits e he
    rw [if_neg (Bool.eq_false_iff.1 hk)] at he'
    exact Nat.lt_irrefl _ he'
  · rw [if_neg (Bool.eq_false_iff.1 hk)]
    exact hfits

/-- One more lock, below. -/
theorem Can.cons (h : O.Can l k b) (hk : O.gated k' = false) (hlt : O.rank k' < O.rank k) :
    O.Can ((k', b') :: l) k b := by
  refine h.imp ?_ fun ⟨hgated, hfits⟩ => ⟨hgated, hfits.cons hk hlt⟩
  exact fun ⟨hr, h⟩ => ⟨hr, h.imp (List.mem_cons_of_mem _) (And.imp id (List.mem_cons_of_mem _))⟩

/-- What a thread may have exclusively it may share. -/
theorem Can.shared (h : O.Can l k true) : O.Can l k b := by
  refine h.imp_left fun ⟨hr, h⟩ => ⟨hr, .inl ?_⟩
  exact h.resolve_right fun h => Bool.noConfusion h.1

/-- A lock that the thread has just taken. -/
theorem Can.self (hr : O.recursive k = true) (hb : b = true → b' = true) :
    O.Can ((k, b') :: l) k b := by
  refine .inl ⟨hr, ?_⟩
  rcases b' with _ | _
  · exact .inr ⟨Bool.eq_false_iff.2 fun h => Bool.noConfusion (hb h), List.mem_cons_self⟩
  · exact .inl List.mem_cons_self

/-- A section under a lock keeps to the order if the lock may be asked for and the section does. -/
theorem Keeps.lock (h : O.Can l k b) (hc : O.Keeps ((k, b) :: l) c) : O.Keeps l (.lock k b c) :=
  ⟨h.may, hc⟩

/-- A section that is done or not keeps to the order if it does when it is done. -/
theorem Keeps.maybe (hc : O.Keeps l c) : O.Keeps l (.maybe c) := by
  intro n
  dsimp only
  split_ifs
  · exact trivial
  · exact hc

/-- No section at all keeps to the order. -/
theorem Keeps.nil : O.Keeps l (.seqs []) := trivial

/-- Sections keep to the order if the first one and the others do. -/
theorem Keeps.cons {cs : List (Sections κ)} (hc : O.Keeps l c) (hcs : O.Keeps l (.seqs cs)) :
    O.Keeps l (.seqs (c :: cs)) := ⟨hc, hcs⟩

end

/-- **What a step of a thread does to its locks**: it has no new one, or one that it had in that mode
already, or one that was free. -/
theorem held_next [DecidableEq κ] {n : ℕ} (h : O.next s n l = some l') :
    ∀ e ∈ held l', e ∈ held l ∨ (e.1, true) ∈ held l ∨ (e.2 = false ∧ (e.1, false) ∈ held l) ∨
      Free s e.1 e.2 := by
  intro e he
  match l, h with
  | .release k b :: l, h =>
      obtain rfl := Option.some.inj h
      exact .inl (List.mem_cons_of_mem _ he)
  | .run .skip :: l, h =>
      obtain rfl := Option.some.inj h
      exact .inl he
  | .run (.seq c d) :: l, h =>
      obtain rfl := Option.some.inj h
      exact .inl he
  | .run (.any c) :: l, h =>
      obtain rfl := Option.some.inj h
      exact .inl he
  | .run (.loop c) :: l, h =>
      obtain rfl := Option.some.inj h
      split_ifs at he <;> exact .inl he
  | .run (.lock k b c) :: l, h =>
      obtain ⟨hgranted, h⟩ := Option.ite_none_right_eq_some.1 h
      obtain rfl := Option.some.inj h
      rcases List.mem_cons.1 he with rfl | he
      · rcases hgranted with ⟨-, hwrite | hread⟩ | hfree
        · exact .inr (.inl hwrite)
        · exact .inr (.inr (.inl hread))
        · exact .inr (.inr (.inr hfree))
      · exact .inl he

/-- A step of a thread keeps to the order. -/
theorem ordered_next [DecidableEq κ] {n : ℕ} (hl : O.Ordered l) (h : O.next s n l = some l') :
    O.Ordered l' := by
  match l, hl, h with
  | .release k b :: l, hl, h => exact Option.some.inj h ▸ hl
  | .run .skip :: l, hl, h => exact Option.some.inj h ▸ hl.2
  | .run (.seq c d) :: l, hl, h => exact Option.some.inj h ▸ ⟨hl.1.1, hl.1.2, hl.2⟩
  | .run (.any c) :: l, hl, h => exact Option.some.inj h ▸ ⟨hl.1 n, hl.2⟩
  | .run (.loop c) :: l, hl, h =>
      obtain rfl := Option.some.inj h
      split_ifs
      · exact hl.2
      · exact ⟨hl.1, hl.1, hl.2⟩
  | .run (.lock k b c) :: l, hl, h =>
      obtain ⟨-, h⟩ := Option.ite_none_right_eq_some.1 h
      exact Option.some.inj h ▸ ⟨hl.1.2, hl.2⟩

/-- **Every step keeps the invariant.** A thread takes its own next step; what the others hold and
ask for is the same. -/
theorem inv_step [DecidableEq κ] {start : List (Sections κ)} {a : ℕ × ℕ} (h : O.Inv s)
    (hs : (O.system start).step s a = some s') : O.Inv s' := by
  obtain ⟨l, hl, hs⟩ := Option.bind_eq_some_iff.1 hs
  obtain ⟨l', hnext, rfl⟩ := Option.map_eq_some_iff.1 hs
  have hmem : l ∈ s := List.mem_of_getElem? hl
  -- whoever else has a lock of the thread has it so that both may
  have hnew : ∀ (j : ℕ) (m : List (Todo κ)) (k : κ) (b b' : Bool), s[j]? = some m → j ≠ a.1 →
      (k, b) ∈ held l' → (k, b') ∈ held m → b = true ∨ b' = true → False := by
    intro j m k b b' hj hne hk hk' hb
    rcases held_next hnext _ hk with hold | hold | ⟨hread, hold⟩ | hfree
    · rcases hb with rfl | rfl
      · exact hne (h.exclusive a.1 j l m k b' hl hj hold hk').symm
      · exact hne (h.exclusive j a.1 m l k b hj hl hk' hold)
    · exact hne (h.exclusive a.1 j l m k b' hl hj hold hk').symm
    · rcases hb with rfl | rfl
      · exact Bool.noConfusion hread
      · exact hne (h.exclusive j a.1 m l k false hj hl hk' hold)
    · obtain ⟨hb₁, hb₂⟩ := hfree m (List.mem_of_getElem? hj) (k, b') hk' rfl
      rcases hb with rfl | rfl
      · exact Bool.noConfusion hb₁
      · exact Bool.noConfusion hb₂
  refine ⟨fun m hm => ?_, fun i j m m' k b hi hj hk hk' => ?_⟩
  · rcases List.mem_or_eq_of_mem_set hm with hm | rfl
    · exact h.ordered m hm
    · exact ordered_next (h.ordered l hmem) hnext
  · rw [List.getElem?_set] at hi hj
    split_ifs at hi hj with hai hlt haj hlt haj
    · exact hai.symm.trans haj
    · obtain rfl := Option.some.inj hi
      exact (hnew j m' k true b hj (Ne.symm haj) hk hk' (.inl rfl)).elim
    · obtain rfl := Option.some.inj hj
      exact (hnew i m k b true hi (Ne.symm hai) hk' hk (.inr rfl)).elim
    · exact h.exclusive i j m m' k b hi hj hk hk'

/-- The invariant holds in every state that threads lead to which keep to the order. -/
theorem inv_reachable [DecidableEq κ] {start : List (Sections κ)} (hstart : ∀ c ∈ start, O.Keeps [] c)
    (h : (O.system start).Reachable s) : O.Inv s := by
  refine StepSystem.ReachableBy.invariant (I := O.Inv) ?_ (fun _ _ _ hI _ hs => inv_step hI hs) h
  rintro _ rfl
  refine ⟨fun l hl => ?_, fun i j l l' k b hi hj hk hk' => ?_⟩
  · obtain ⟨c, hc, rfl⟩ := List.mem_map.1 hl
    exact ⟨hstart c hc, trivial⟩
  · obtain ⟨c, -, rfl⟩ := List.mem_map.1 (List.mem_of_getElem? hi)
    exact absurd hk List.not_mem_nil

/-- A thread that has what it needs goes on. -/
theorem next_of_moves [DecidableEq κ] (h : O.Moves s l) (n : ℕ) : ∃ l', O.next s n l = some l' := by
  match l, h with
  | [], h => exact absurd rfl h.1
  | .release k b :: l, _ => exact ⟨_, rfl⟩
  | .run .skip :: l, _ => exact ⟨_, rfl⟩
  | .run (.seq c d) :: l, _ => exact ⟨_, rfl⟩
  | .run (.any c) :: l, _ => exact ⟨_, rfl⟩
  | .run (.loop c) :: l, _ => exact ⟨_, rfl⟩
  | .run (.lock k b c) :: l, h =>
      refine ⟨_, Option.ite_none_right_eq_some.2 ⟨?_, rfl⟩⟩
      refine (h.2 k b rfl).imp_right fun hfree l' hl' e he hk => ?_
      exact absurd hk (hfree l' hl' e he)

/-- What is known of a thread that does not move: it asks for a lock that it does not have and another
thread has. -/
theorem waits_of_not_moves (h : O.Inv s) (hl : l ∈ s) (hne : l ≠ []) (hstop : ¬O.Moves s l) :
    ∃ k b l', asks l = some (k, b) ∧ O.May (held l) k b ∧ (∀ e ∈ held l, e.1 ≠ k) ∧
      l' ∈ s ∧ ∃ b', (k, b') ∈ held l' := by
  have hwait : ∃ k b, asks l = some (k, b) ∧ ¬O.Again (held l) k b ∧
      ∃ l' ∈ s, ∃ e ∈ held l', e.1 = k := by
    by_contra hnone
    refine hstop ⟨hne, fun k b hasks => or_iff_not_imp_left.2 fun hagain l' hl' e he hk => ?_⟩
    exact hnone ⟨k, b, hasks, hagain, l', hl', e, he, hk⟩
  obtain ⟨k, b, hasks, hagain, l', hl', ⟨k', b'⟩, he, rfl⟩ := hwait
  have hmay : O.May (held l) k' b := by
    match l, hasks, h.ordered l hl with
    | .run (.lock k b c) :: l, hasks, hordered =>
        obtain ⟨rfl, rfl⟩ := Prod.mk.inj (Option.some.inj hasks)
        exact hordered.1.1
  exact ⟨k', b, l', hasks, hmay, (hmay.resolve_left hagain).1, hl', b', he⟩

/-- A thread that has something and asks for a lock outside of the order has the gate. -/
theorem gate_of_asks {e : κ × Bool} (hmay : O.May (held l) k b) (hnew : ∀ e ∈ held l, e.1 ≠ k)
    (he : e ∈ held l) (hgated : O.gated k = true ∨ O.gated e.1 = true) :
    (O.gate, true) ∈ held l := by
  rcases hmay with ⟨-, h | ⟨-, h⟩⟩ | ⟨-, h⟩
  · exact absurd rfl (hnew _ h)
  · exact absurd rfl (hnew _ h)
  · split_ifs at h with hk
    · rcases h with h | h
      · rw [h] at he
        exact absurd he List.not_mem_nil
      · exact h
    · have he' := h e he
      rw [if_pos (hgated.resolve_left hk)] at he'
      exact he'

/-- A thread asks for a lock of the order above those that it has. -/
theorem rank_lt_of_asks {e : κ × Bool} (hmay : O.May (held l) k b) (hnew : ∀ e ∈ held l, e.1 ≠ k)
    (he : e ∈ held l) (hk : O.gated k = false) (hgated : O.gated e.1 = false) :
    O.rank e.1 < O.rank k := by
  rcases hmay with ⟨-, h | ⟨-, h⟩⟩ | ⟨-, h⟩
  · exact absurd rfl (hnew _ h)
  · exact absurd rfl (hnew _ h)
  · rw [if_neg (Bool.eq_false_iff.1 hk)] at h
    have he' := h e he
    rw [if_neg (Bool.eq_false_iff.1 hgated)] at he'
    exact he'

/-- **No circle**: while some thread is not at its end, one has what it needs. If all of them
waited, who has the highest lock that one asks for would ask for a higher one, or for one that only
the holder of the gate may ask for. -/
theorem exists_moves (h : O.Inv s) (hs : ∃ l ∈ s, l ≠ []) : ∃ l ∈ s, O.Moves s l := by
  by_contra hnone
  have hstop : ∀ l ∈ s, ¬O.Moves s l := fun l hl hmoves => hnone ⟨l, hl, hmoves⟩
  have hwaits := fun l hl hne => waits_of_not_moves h (l := l) hl hne (hstop l hl)
  -- the thread that has a lock outside of the order, or asks for one with something else, has the gate;
  -- what it asks for another thread has that waits too and has the gate then
  have hgate : ∀ l ∈ s, ∀ (k : κ) (b : Bool), (k, b) ∈ held l → (O.gate, true) ∈ held l →
      ∀ k' b', asks l = some (k', b') → O.gated k' = true → False := by
    intro l hl k b hk hgate k' b' hasks hgated
    obtain ⟨k₁, b₁, l₁, hasks₁, -, hnew₁, hl₁, b₂, hk₁⟩ := hwaits l hl (by rintro rfl; cases hasks)
    obtain ⟨rfl, rfl⟩ := Prod.mk.inj (Option.some.inj (hasks₁.symm.trans hasks))
    obtain ⟨k₂, b₃, -, -, hmay₂, hnew₂, -, -⟩ := hwaits l₁ hl₁ (by rintro rfl; cases hk₁)
    have hgate₁ := gate_of_asks hmay₂ hnew₂ hk₁ (.inr hgated)
    obtain ⟨i, hi⟩ := List.getElem?_of_mem hl
    obtain ⟨j, hj⟩ := List.getElem?_of_mem hl₁
    obtain rfl := h.exclusive i j l l₁ O.gate true hi hj hgate hgate₁
    obtain rfl := Option.some.inj (hi.symm.trans hj)
    exact hnew₁ _ hk₁ rfl
  by_cases hasked : ∃ l ∈ s, ∃ k b, asks l = some (k, b) ∧ O.gated k = false
  · -- the one that asks highest
    obtain ⟨l₀, hl₀, k₀, b₀, hasks₀, hk₀⟩ := hasked
    have hfinite : {e | e ∈ s.filterMap asks ∧ O.gated e.1 = false}.Finite :=
      (List.finite_toSet _).subset fun _ he => he.1
    obtain ⟨⟨k, b⟩, ⟨hmem, hk⟩, hmax⟩ := Set.exists_max_image _ (fun e => O.rank e.1) hfinite
      ⟨(k₀, b₀), List.mem_filterMap.2 ⟨l₀, hl₀, hasks₀⟩, hk₀⟩
    obtain ⟨l, hl, hasks⟩ := List.mem_filterMap.1 hmem
    obtain ⟨k₁, b₁, l₁, hasks₁, -, -, hl₁, b₂, hheld⟩ := hwaits l hl (by rintro rfl; cases hasks)
    obtain ⟨rfl, rfl⟩ := Prod.mk.inj (Option.some.inj (hasks₁.symm.trans hasks))
    obtain ⟨k₂, b₃, -, hasks₂, hmay₂, hnew₂, -, -⟩ := hwaits l₁ hl₁ (by rintro rfl; cases hheld)
    rcases hgated : O.gated k₂ with _ | _
    · have hlt := rank_lt_of_asks hmay₂ hnew₂ hheld hgated hk
      have hle := hmax (k₂, b₃) ⟨List.mem_filterMap.2 ⟨l₁, hl₁, hasks₂⟩, hgated⟩
      exact absurd hlt (Nat.not_lt.2 hle)
    · exact hgate l₁ hl₁ k₁ b₂ hheld (gate_of_asks hmay₂ hnew₂ hheld (.inl hgated)) k₂ b₃ hasks₂ hgated
  · obtain ⟨l, hl, hne⟩ := hs
    have hgated : ∀ l ∈ s, ∀ k b, asks l = some (k, b) → O.gated k = true := fun l hl k b hasks =>
      Bool.not_eq_false _ ▸ fun hk => hasked ⟨l, hl, k, b, hasks, hk⟩
    obtain ⟨k, b, l₁, hasks, -, -, hl₁, b₁, hheld⟩ := hwaits l hl hne
    obtain ⟨k₂, b₃, -, hasks₂, hmay₂, hnew₂, -, -⟩ := hwaits l₁ hl₁ (by rintro rfl; cases hheld)
    have hk₂ := hgated l₁ hl₁ k₂ b₃ hasks₂
    exact hgate l₁ hl₁ k b₁ hheld (gate_of_asks hmay₂ hnew₂ hheld (.inl hk₂)) k₂ b₃ hasks₂ hk₂

end LockOrder

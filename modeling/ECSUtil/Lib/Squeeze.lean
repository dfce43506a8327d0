/-
# Runs of one element

What is left of a list when every run of one element becomes a single one (`collapse`): there are no two
of them side by side, the ends are the same, and it does not matter which of two neighbours is deleted
first.  A loop that deletes one of two neighbours as long as it finds any ends with it (`run_turn`).

Which of the neighbours a turn of the loop deletes does not matter, as what is left of a run is one
element (`collapse_twice`), and the list gets shorter by one each time; with no two neighbours left
there is no run of more than one (`not_infix_collapse`).
-/

import Mathlib.Data.List.Infix
import ECSUtil.Lib.Loop

namespace Squeeze

variable {α : Type*} [DecidableEq α]

/-- The first place where a list is in another. -/
def find (s sub : List α) : Option ℕ := (List.range s.length).find? fun i => sub.isPrefixOf (s.drop i)

/-- One of two neighbours is deleted, if there are any. -/
def turn (b : α) (s : List α) : List α ⊕ List α :=
  match find s [b, b] with
  | some i => .inl (s.eraseIdx i)
  | none => .inr s

/-- One of each run. -/
def collapse (b : α) : List α → List α
  | [] => []
  | c :: s => if c = b ∧ s.head? = some b then collapse b s else c :: collapse b s

variable {b : α} {s t sub : List α}

/-- What is found is in the list, behind as many elements. -/
theorem find_eq_some {i : ℕ} (h : find s sub = some i) : ∃ u v, s = u ++ (sub ++ v) ∧ u.length = i := by
  unfold find at h
  have hpre : sub <+: s.drop i :=
    List.isPrefixOf_iff_prefix.1 (List.find?_some (p := fun i => sub.isPrefixOf (s.drop i)) h)
  obtain ⟨v, hv⟩ := hpre
  have hlt := List.mem_range.1 (List.mem_of_find?_eq_some h)
  exact ⟨s.take i, v, by rw [hv, List.take_append_drop], List.length_take_of_le hlt.le⟩

/-- What is not found is not in the list. -/
theorem find_eq_none (hsub : sub ≠ []) (h : find s sub = none) : ¬sub <:+: s := by
  rintro ⟨u, v, rfl⟩
  unfold find at h
  rw [List.find?_eq_none] at h
  have hpos := List.length_pos_iff.2 hsub
  refine h u.length (List.mem_range.2 ?_) (List.isPrefixOf_iff_prefix.2 ?_)
  · simp only [List.length_append]
    omega
  · rw [List.append_assoc, List.drop_left]
    exact List.prefix_append sub v

/-- **One of two neighbours can go.** -/
theorem collapse_twice (u v : List α) : collapse b (u ++ b :: b :: v) = collapse b (u ++ b :: v) := by
  induction u with
  | nil =>
      rw [List.nil_append, collapse, if_pos ⟨rfl, rfl⟩]
      rfl
  | cons c u ih =>
      have hhead : (u ++ b :: b :: v).head? = (u ++ b :: v).head? := by cases u <;> rfl
      rw [List.cons_append, List.cons_append, collapse, collapse, ih, hhead]

/-- Without two neighbours there is nothing to do. -/
theorem collapse_of_not_infix (h : ¬[b, b] <:+: s) : collapse b s = s := by
  induction s with
  | nil => rfl
  | cons c s ih =>
      rw [collapse, ih fun hs => h (hs.trans (List.suffix_cons c s).isInfix), if_neg]
      rintro ⟨rfl, hhead⟩
      obtain ⟨s', rfl⟩ := List.head?_eq_some_iff.1 hhead
      exact h ⟨[], s', rfl⟩

/-- The first element stays. -/
theorem head?_collapse (b : α) (s : List α) : (collapse b s).head? = s.head? := by
  induction s with
  | nil => rfl
  | cons c s ih =>
      unfold collapse
      split_ifs with h
      · rw [ih, h.2, h.1, List.head?_cons]
      · rfl

/-- No list becomes empty. -/
theorem collapse_eq_nil_iff : collapse b s = [] ↔ s = [] := by
  rw [← List.head?_eq_none_iff, head?_collapse, List.head?_eq_none_iff]

/-- The last element stays. -/
theorem getLast?_collapse (b : α) (s : List α) : (collapse b s).getLast? = s.getLast? := by
  induction s with
  | nil => rfl
  | cons c s ih =>
      unfold collapse
      split_ifs with h
      · obtain ⟨s', rfl⟩ := List.head?_eq_some_iff.1 h.2
        rw [ih, List.getLast?_cons_cons]
      · cases s with
        | nil => rfl
        | cons d s =>
            obtain ⟨e, u, hu⟩ := List.exists_cons_of_ne_nil (mt collapse_eq_nil_iff.1 (List.cons_ne_nil d s))
            rw [hu] at ih ⊢
            rw [List.getLast?_cons_cons, ih, List.getLast?_cons_cons]

/-- **No two neighbours are left.** -/
theorem not_infix_collapse (b : α) (s : List α) : ¬[b, b] <:+: collapse b s := by
  induction s with
  | nil => exact fun h => absurd (List.infix_nil.1 h) (List.cons_ne_nil _ _)
  | cons c s ih =>
      unfold collapse
      split_ifs with h
      · exact ih
      · intro hin
        rcases List.infix_cons_iff.1 hin with hpre | hin
        · obtain ⟨rfl, v, hv⟩ := List.cons_prefix_cons.1 hpre
          refine h ⟨rfl, ?_⟩
          rw [← head?_collapse b, ← hv]
          rfl
        · exact ih hin

/-- **The loop ends** with one of each run. -/
theorem run_turn (b : α) (s : List α) {turns : ℕ} (h : s.length < turns) :
    ECSUtil.Loop.run (turn b) turns s = some (collapse b s) := by
  induction turns generalizing s with
  | zero => exact absurd h (Nat.not_lt_zero _)
  | succ turns ih =>
      cases hfind : find s [b, b] with
      | none =>
          have hbody : turn b s = .inr s := by
            unfold turn
            rw [hfind]
          rw [ECSUtil.Loop.run_of_inr hbody, collapse_of_not_infix (find_eq_none (by simp) hfind)]
      | some i =>
          obtain ⟨u, v, rfl, rfl⟩ := find_eq_some hfind
          have hbody : turn b (u ++ ([b, b] ++ v)) = .inl (u ++ b :: v) := by
            unfold turn
            rw [hfind]
            dsimp only
            rw [List.eraseIdx_append_of_length_le (Nat.le_refl _), Nat.sub_self]
            rfl
          rw [ECSUtil.Loop.run_of_inl hbody, ih]
          · exact congrArg some (collapse_twice u v).symm
          · simp only [List.length_append, List.length_cons, List.length_nil] at h ⊢
            omega

end Squeeze

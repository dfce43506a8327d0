/-
# The names of buckets

`ValidateS3BucketName` (`ECSUtil/ECSConnection.cpp`) and the language it is to accept
(`BucketName`).  The scan for an IP address never clears `bAllNum`, so every name with three dots
passes for one: `validate_iff`.

What is accepted is stated first, without the scan (`validate_eq_true`): every well-formed name that
has not just three dots.  Then a well-formed name is an address if and only if it has three dots and
digits between (`WellFormed.address_iff`), so what is misjudged are the names with three dots that
are no address.

How characters are classified is a parameter (`CharClass`), of which the result needs only that a
dot is no digit; it holds for every locale.
-/

import Mathlib.Data.Nat.Notation
import ECSUtil.Conn.Text

namespace ECSUtil
namespace Bucket

/-- How the C library classifies characters. -/
structure CharClass where
  iswdigit : Char → Bool
  iswlower : Char → Bool
  iswupper : Char → Bool
  digit_dot : iswdigit '.' = false

/-- The class of characters that are ASCII. -/
def ascii : CharClass where
  iswdigit := Char.isDigit
  iswlower := Char.isLower
  iswupper := Char.isUpper
  digit_dot := rfl

/-- Whether there are two dots in a row. -/
def twoDots : CString → Bool
  | '.' :: '.' :: _ => true
  | _ :: rest => twoDots rest
  | [] => false

variable (cls : CharClass)

/-- A character that may stand in a name. -/
def allowed (ch : Char) : Bool :=
  ch == '.' || ch == '-' || cls.iswdigit ch || cls.iswlower ch || cls.iswupper ch || ch == '_'

/-- The scan for an IP address: `iDots` and `bAllNum`. -/
def scanAddress (sBucket : CString) : ℕ × Bool :=
  sBucket.foldl
    (fun s ch => (if ch = '.' then s.1 + 1 else s.1, if !cls.iswdigit ch then true else s.2))
    (0, true)

/-- `ValidateS3BucketName`. -/
def validateS3BucketName (sBucket : CString) : Bool :=
  if sBucket.length < 3 ∨ sBucket.length > 63 ∨ sBucket.head? = some '.' ∨
      sBucket.getLast? = some '.' ∨ twoDots sBucket = true then false
  else if sBucket.any fun ch => !allowed cls ch then false
  else !((scanAddress cls sBucket).2 && (scanAddress cls sBucket).1 == 3)

/-- A label of an IP address. -/
def Numeric (label : CString) : Prop := label ≠ [] ∧ ∀ ch ∈ label, cls.iswdigit ch = true

/-- `nnn.nnn.nnn.nnn`. -/
def Address (s : CString) : Prop :=
  ∃ a b c d, s = a ++ '.' :: (b ++ '.' :: (c ++ '.' :: d)) ∧
    Numeric cls a ∧ Numeric cls b ∧ Numeric cls c ∧ Numeric cls d

/-- The characters of a name, and where its dots are. -/
structure WellFormed (s : CString) : Prop where
  length : 3 ≤ s.length ∧ s.length ≤ 63
  chars : ∀ ch ∈ s, cls.iswlower ch = true ∨ cls.iswupper ch = true ∨ cls.iswdigit ch = true ∨
    ch = '.' ∨ ch = '-' ∨ ch = '_'
  first : ∀ rest, s ≠ '.' :: rest
  last : ∀ front, s ≠ front ++ ['.']
  apart : ∀ front rest, s ≠ front ++ '.' :: '.' :: rest

/-- **The names of buckets.** -/
structure BucketName (s : CString) : Prop extends WellFormed cls s where
  notAddress : ¬Address cls s

/-- A name with three dots that is no address. -/
def Misjudged (s : CString) : Prop :=
  WellFormed cls s ∧ s.count '.' = 3 ∧ ∃ ch ∈ s, ch ≠ '.' ∧ cls.iswdigit ch = false

section

variable {cls} {s : CString}

/-- Two dots are found where there are two side by side. -/
theorem twoDots_iff : twoDots s = true ↔ ∃ front rest, s = front ++ '.' :: '.' :: rest := by
  fun_induction twoDots s with
  | case1 rest => exact iff_of_true rfl ⟨[], rest, rfl⟩
  | case2 ch rest hne ih =>
      rw [ih]
      constructor
      · rintro ⟨front, rest', rfl⟩
        exact ⟨ch :: front, rest', rfl⟩
      · rintro ⟨_ | ⟨ch', front⟩, rest', h⟩
        · obtain ⟨rfl, rfl⟩ := List.cons.inj h
          exact absurd rfl (hne rest' rfl)
        · exact ⟨front, rest', (List.cons.inj h).2⟩
  | case3 => exact iff_of_false Bool.false_ne_true fun ⟨front, rest, h⟩ => by simp at h

/-- What the scan makes of `bAllNum` is what it was set to. -/
theorem scanAddress_eq (s : CString) : scanAddress cls s = (s.count '.', true) := by
  have hscan : ∀ n, s.foldl
      (fun s ch => (if ch = '.' then s.1 + 1 else s.1, if !cls.iswdigit ch then true else s.2))
      (n, true) = (n + s.count '.', true) := by
    induction s with
    | nil => exact fun n => rfl
    | cons ch rest ih =>
        intro n
        rw [List.foldl_cons, List.count_cons]
        simp only [ite_self]
        rw [ih]
        by_cases h : ch = '.'
        · simp only [h, if_true, beq_self_eq_true, Nat.add_right_comm n 1, Nat.add_assoc]
        · simp [h]
  rw [scanAddress, hscan, Nat.zero_add]

/-- The characters that a name may have. -/
theorem allowed_iff {ch : Char} : allowed cls ch = true ↔ cls.iswlower ch = true ∨
    cls.iswupper ch = true ∨ cls.iswdigit ch = true ∨ ch = '.' ∨ ch = '-' ∨ ch = '_' := by
  simp only [allowed, Bool.or_eq_true, beq_iff_eq]
  constructor
  · rintro (((((h | h) | h) | h) | h) | h) <;> simp [h]
  · rintro (h | h | h | h | h | h) <;> simp [h]

/-- The checks before the scan. -/
theorem wellFormed_iff : WellFormed cls s ↔
    ¬(s.length < 3 ∨ s.length > 63 ∨ s.head? = some '.' ∨ s.getLast? = some '.' ∨
      twoDots s = true) ∧ (s.any fun ch => !allowed cls ch) = false := by
  have hchars : (s.any fun ch => !allowed cls ch) = false ↔ ∀ ch ∈ s, allowed cls ch = true := by
    simp [List.any_eq_false]
  simp only [hchars, allowed_iff, not_or, List.head?_eq_some_iff, List.getLast?_eq_some_iff,
    twoDots_iff, not_exists]
  constructor
  · rintro ⟨hlength, hchars, hfirst, hlast, hapart⟩
    exact ⟨⟨by omega, by omega, hfirst, hlast, hapart⟩, hchars⟩
  · rintro ⟨⟨hshort, hlong, hfirst, hlast, hapart⟩, hchars⟩
    exact ⟨⟨by omega, by omega⟩, hchars, hfirst, hlast, hapart⟩

/-- **What is accepted**: every well-formed name that has not just three dots. The flag for the
digits is never cleared, so it is the count of the dots alone that decides about an address. -/
theorem validate_eq_true : validateS3BucketName cls s = true ↔
    WellFormed cls s ∧ s.count '.' ≠ 3 := by
  rw [wellFormed_iff, validateS3BucketName, scanAddress_eq]
  by_cases hdots : s.length < 3 ∨ s.length > 63 ∨ s.head? = some '.' ∨ s.getLast? = some '.' ∨
      twoDots s = true
  · rw [if_pos hdots]
    exact iff_of_false Bool.false_ne_true fun h => h.1.1 hdots
  · rw [if_neg hdots]
    cases hchars : s.any fun ch => !allowed cls ch with
    | true => simp
    | false => simp [hdots]

/-- A text is cut at its first dot. -/
theorem exists_label {n : ℕ} (h : s.count '.' = n + 1) :
    ∃ label rest, s = label ++ '.' :: rest ∧ '.' ∉ label ∧ rest.count '.' = n := by
  have hmem : '.' ∈ s := List.count_pos_iff.1 (by omega)
  obtain ⟨label, rest, rfl, hlabel⟩ := List.eq_append_cons_of_mem hmem
  rw [List.count_append, List.count_cons_self, List.count_eq_zero_of_not_mem hlabel] at h
  exact ⟨label, rest, rfl, hlabel, by omega⟩

/-- A label of digits has no dot. -/
theorem Numeric.count {label : CString} (h : Numeric cls label) : label.count '.' = 0 := by
  refine List.count_eq_zero_of_not_mem fun hmem => ?_
  exact absurd ((h.2 '.' hmem).symm.trans cls.digit_dot) (by simp)

/-- **A well-formed name is an address** if and only if it has three dots, and digits between. A
well-formed name has no empty part, so each part is a number as soon as it has nothing but digits. -/
theorem WellFormed.address_iff (h : WellFormed cls s) : Address cls s ↔
    s.count '.' = 3 ∧ ∀ ch ∈ s, ch ≠ '.' → cls.iswdigit ch = true := by
  constructor
  · rintro ⟨a, b, c, d, rfl, ha, hb, hc, hd⟩
    refine ⟨?_, fun ch hch hne => ?_⟩
    · simp only [List.count_append, List.count_cons_self, ha.count, hb.count, hc.count, hd.count]
    · simp only [List.mem_append, List.mem_cons, hne, false_or] at hch
      rcases hch with hch | hch | hch | hch
      · exact ha.2 ch hch
      · exact hb.2 ch hch
      · exact hc.2 ch hch
      · exact hd.2 ch hch
  · rintro ⟨hcount, hdigits⟩
    obtain ⟨a, s₁, rfl, ha, hcount⟩ := exists_label hcount
    obtain ⟨b, s₂, rfl, hb, hcount⟩ := exists_label hcount
    obtain ⟨c, d, rfl, hc, hcount⟩ := exists_label hcount
    have hd : '.' ∉ d := List.count_eq_zero.1 hcount
    refine ⟨a, b, c, d, rfl, ⟨?_, fun ch hch => ?_⟩, ⟨?_, fun ch hch => ?_⟩,
      ⟨?_, fun ch hch => ?_⟩, ⟨?_, fun ch hch => ?_⟩⟩
    · rintro rfl
      exact h.first _ rfl
    · exact hdigits ch (by simp [hch]) fun heq => ha (heq ▸ hch)
    · rintro rfl
      exact h.apart a (c ++ '.' :: d) rfl
    · exact hdigits ch (by simp [hch]) fun heq => hb (heq ▸ hch)
    · rintro rfl
      exact h.apart (a ++ '.' :: b) d (by simp)
    · exact hdigits ch (by simp [hch]) fun heq => hc (heq ▸ hch)
    · rintro rfl
      exact h.last (a ++ '.' :: (b ++ '.' :: c)) (by simp)
    · exact hdigits ch (by simp [hch]) fun heq => hd (heq ▸ hch)

end

/-- **A name is judged as it should be**, unless it has three dots and is no address. The two sides
differ just for a well-formed name with three dots and a character that is no digit, which is
refused. -/
theorem validate_iff (s : CString) :
    (validateS3BucketName cls s = true ↔ BucketName cls s) ↔ ¬Misjudged cls s := by
  rw [validate_eq_true]
  by_cases h : WellFormed cls s
  · have hname : BucketName cls s ↔ ¬Address cls s := ⟨fun hn => hn.notAddress, fun hn => ⟨h, hn⟩⟩
    have hother : (∀ ch ∈ s, ch ≠ '.' → cls.iswdigit ch = true) ↔
        ¬∃ ch ∈ s, ch ≠ '.' ∧ cls.iswdigit ch = false := by
      simp
    rw [hname, h.address_iff, hother]
    unfold Misjudged
    by_cases hcount : s.count '.' = 3 <;> simp [h, hcount]
  · exact iff_of_true (iff_of_false (fun hv => h hv.1) fun hn => h hn.toWellFormed)
      fun hm => h hm.1

/-- A name like that of a host is refused. It is well formed and no address, but has three dots. -/
theorem validate_three_dots :
    ¬(validateS3BucketName ascii "my.bucket.example.com".toList = true ↔
      BucketName ascii "my.bucket.example.com".toList) := by
  have hform : WellFormed ascii "my.bucket.example.com".toList :=
    wellFormed_iff.2 ⟨by decide, by decide⟩
  have hname : BucketName ascii "my.bucket.example.com".toList := by
    refine ⟨hform, fun haddress => ?_⟩
    have hdigit := (hform.address_iff.1 haddress).2 'm' (by decide) (by decide)
    exact absurd hdigit (by decide)
  exact fun h => absurd (h.2 hname) (by decide)

example : validateS3BucketName ascii "my-bucket".toList = true := by decide

end Bucket
end ECSUtil

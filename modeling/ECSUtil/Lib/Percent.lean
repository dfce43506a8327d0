/-
# Percent-encoding

Bytes are encoded over a set of safe bytes (`SafeSet`): a safe one as its character, every other one
as `%` and two hexadecimal digits in upper case.  The encoding is read back (`decode_encode`), and
it is the only one of its form (`Form.unique`).

`decode` reads any text with escapes in either case, so that an encoding comes back says that it is
decoded by anybody; which of the texts that are decoded to the same bytes the encoding is, `Form`
says: safe characters as they are, and the digits in upper case.
-/

import Mathlib.Data.List.Basic

namespace Percent

/-- The bytes that stand for themselves: ASCII characters, and not `%`. -/
structure SafeSet where
  mem : UInt8 → Bool
  ascii : ∀ b, mem b = true → b.toNat < 128
  percent : ∀ b, mem b = true → b.toNat ≠ '%'.toNat

/-- The hexadecimal digits, in upper case. -/
def upperHex : List Char := "0123456789ABCDEF".toList

def hexDigit (n : ℕ) : Char := upperHex.getD n '0'

/-- The value of a hexadecimal digit, in either case. -/
def hexValue (c : Char) : Option ℕ :=
  if '0' ≤ c ∧ c ≤ '9' then some (c.toNat - '0'.toNat)
  else if 'A' ≤ c ∧ c ≤ 'F' then some (c.toNat - 'A'.toNat + 10)
  else if 'a' ≤ c ∧ c ≤ 'f' then some (c.toNat - 'a'.toNat + 10)
  else none

/-- `%XX`. -/
def escape (b : UInt8) : List Char := ['%', hexDigit (b.toNat / 16), hexDigit (b.toNat % 16)]

def encodeByte (safe : SafeSet) (b : UInt8) : List Char :=
  if safe.mem b then [Char.ofNat b.toNat] else escape b

def encode (safe : SafeSet) (bytes : List UInt8) : List Char := bytes.flatMap (encodeByte safe)

/-- Each `%XX` is replaced by its byte; the other characters are ASCII. -/
def decode : List Char → Option (List UInt8)
  | [] => some []
  | c :: rest =>
      if c = '%' then
        match rest with
        | h :: l :: rest =>
            match hexValue h, hexValue l with
            | some a, some b => (decode rest).map (UInt8.ofNat (16 * a + b) :: ·)
            | _, _ => none
        | _ => none
      else if c.toNat < 128 then (decode rest).map (UInt8.ofNat c.toNat :: ·)
      else none

/-- A digit has its value. -/
theorem hexValue_hexDigit {n : ℕ} (h : n < 16) : hexValue (hexDigit n) = some n := by
  have hall : ∀ n < 16, hexValue (hexDigit n) = some n := by decide +kernel
  exact hall n h

/-- A digit is one of those in upper case. -/
theorem hexDigit_mem {n : ℕ} (h : n < 16) : hexDigit n ∈ upperHex := by
  have hall : ∀ n < 16, hexDigit n ∈ upperHex := by decide +kernel
  exact hall n h

/-- A character of a byte that is ASCII. -/
theorem toNat_ofNat_byte (b : UInt8) : (Char.ofNat b.toNat).toNat = b.toNat := by
  have hb := b.toNat_lt
  have hvalid : b.toNat.isValidChar := .inl (by omega)
  unfold Char.ofNat
  rw [dif_pos hvalid]
  rfl

/-- A safe byte is no `%`. -/
theorem ofNat_safe_ne {safe : SafeSet} {b : UInt8} (h : safe.mem b = true) :
    Char.ofNat b.toNat ≠ '%' := by
  intro hc
  have hnat := congrArg Char.toNat hc
  rw [toNat_ofNat_byte] at hnat
  exact safe.percent b h hnat

/-- An escape is decoded to its byte. -/
theorem decode_escape (b : UInt8) (rest : List Char) :
    decode (escape b ++ rest) = (decode rest).map (b :: ·) := by
  have hb := b.toNat_lt
  have hbyte : UInt8.ofNat (16 * (b.toNat / 16) + b.toNat % 16) = b := by
    rw [Nat.div_add_mod, UInt8.ofNat_toNat]
  show decode ('%' :: hexDigit (b.toNat / 16) :: hexDigit (b.toNat % 16) :: rest) = _
  rw [decode, if_pos rfl, hexValue_hexDigit (by omega), hexValue_hexDigit (by omega)]
  dsimp only
  rw [hbyte]

/-- A safe byte is decoded as it is. -/
theorem decode_safe {safe : SafeSet} {b : UInt8} (h : safe.mem b = true) (rest : List Char) :
    decode (Char.ofNat b.toNat :: rest) = (decode rest).map (b :: ·) := by
  have hascii := safe.ascii b h
  rw [decode.eq_def]
  dsimp only
  rw [if_neg (ofNat_safe_ne h), toNat_ofNat_byte, if_pos hascii, UInt8.ofNat_toNat]

/-- A byte is decoded as it was, whether it was escaped or not. -/
theorem decode_encodeByte (safe : SafeSet) (b : UInt8) (rest : List Char) :
    decode (encodeByte safe b ++ rest) = (decode rest).map (b :: ·) := by
  unfold encodeByte
  split_ifs with hsafe
  · exact decode_safe hsafe rest
  · exact decode_escape b rest

/-- Bytes are encoded one after the other. -/
theorem encode_cons (safe : SafeSet) (b : UInt8) (bytes : List UInt8) :
    encode safe (b :: bytes) = encodeByte safe b ++ encode safe bytes := List.flatMap_cons

/-- **What is encoded is read back.** The induction is on the bytes: a safe one stands for itself,
and the two digits of another are its value. -/
theorem decode_encode (safe : SafeSet) (bytes : List UInt8) :
    decode (encode safe bytes) = some bytes := by
  induction bytes with
  | nil => rfl
  | cons b bytes ih => rw [encode_cons, decode_encodeByte, ih, Option.map_some]

/-- Only no bytes are encoded to nothing. -/
theorem encode_eq_nil_iff {safe : SafeSet} {bytes : List UInt8} :
    encode safe bytes = [] ↔ bytes = [] := by
  constructor
  · intro h
    have hdecode := decode_encode safe bytes
    rw [h] at hdecode
    exact (Option.some.inj hdecode).symm
  · rintro rfl
    rfl

/-- Safe characters, and `%XX` with digits in upper case for bytes that are not safe. -/
inductive Form (safe : SafeSet) : List Char → Prop
  | nil : Form safe []
  | safe {c : Char} {rest : List Char} : safe.mem (UInt8.ofNat c.toNat) = true →
      c.toNat < 128 → Form safe rest → Form safe (c :: rest)
  | escape {h l : Char} {b : UInt8} {rest : List Char} : h ∈ upperHex → l ∈ upperHex →
      hexValue h = some (b.toNat / 16) → hexValue l = some (b.toNat % 16) → safe.mem b = false →
      Form safe rest → Form safe ('%' :: h :: l :: rest)

/-- The encoding of a byte has the form. -/
theorem form_encodeByte (safe : SafeSet) (b : UInt8) {rest : List Char} (h : Form safe rest) :
    Form safe (encodeByte safe b ++ rest) := by
  have hb := b.toNat_lt
  unfold encodeByte
  split_ifs with hsafe
  · refine .safe ?_ ?_ h
    · rw [toNat_ofNat_byte, UInt8.ofNat_toNat]
      exact hsafe
    · rw [toNat_ofNat_byte]
      exact safe.ascii b hsafe
  · exact .escape (hexDigit_mem (by omega)) (hexDigit_mem (by omega))
      (hexValue_hexDigit (by omega)) (hexValue_hexDigit (by omega)) (Bool.eq_false_iff.2 hsafe) h

/-- The encoding of bytes has the form. -/
theorem form_encode (safe : SafeSet) (bytes : List UInt8) : Form safe (encode safe bytes) := by
  induction bytes with
  | nil => exact .nil
  | cons b bytes ih => exact encode_cons safe b bytes ▸ form_encodeByte safe b ih

/-- **What is not safe is not in an encoded text**, `%` and the digits apart. Such a character would
have been escaped. -/
theorem Form.notMem {safe : SafeSet} {e : List Char} (h : Form safe e) {c : Char}
    (hsafe : safe.mem (UInt8.ofNat c.toNat) = false) (hc : c ≠ '%') (hhex : c ∉ upperHex) : c ∉ e := by
  induction h with
  | nil => exact List.not_mem_nil
  | @safe d rest hmem _ _ ih =>
      rw [List.mem_cons, not_or]
      refine ⟨?_, ih⟩
      rintro rfl
      exact Bool.false_ne_true (hsafe.symm.trans hmem)
  | @escape h l b rest hh hl _ _ _ _ ih =>
      simp only [List.mem_cons, not_or]
      refine ⟨hc, ?_, ?_, ih⟩
      · rintro rfl
        exact hhex hh
      · rintro rfl
        exact hhex hl

/-- In upper case the value tells the digit. -/
theorem hexDigit_of_hexValue {c : Char} (hc : c ∈ upperHex) {n : ℕ} (h : hexValue c = some n) :
    hexDigit n = c := by
  have hall : upperHex.all fun c => (hexValue c).map hexDigit = some c := by decide +kernel
  have hdigit : (hexValue c).map hexDigit = some c := of_decide_eq_true (List.all_eq_true.1 hall c hc)
  rw [h] at hdigit
  exact Option.some.inj hdigit

/-- **What has the form is an encoding.** The induction is on the form, with one byte for each of
its pieces. -/
theorem Form.exists_encode {safe : SafeSet} {e : List Char} (h : Form safe e) :
    ∃ bytes, e = encode safe bytes := by
  induction h with
  | nil => exact ⟨[], rfl⟩
  | @safe c rest hmem hascii _ ih =>
      obtain ⟨bytes, rfl⟩ := ih
      have hbyte : encodeByte safe (UInt8.ofNat c.toNat) = [c] := by
        rw [encodeByte, if_pos hmem, UInt8.toNat_ofNat', Nat.mod_eq_of_lt (by omega),
          Char.ofNat_toNat]
      exact ⟨UInt8.ofNat c.toNat :: bytes, by rw [encode_cons, hbyte]; rfl⟩
  | @escape h l b rest hh hl hhv hlv hmem _ ih =>
      obtain ⟨bytes, rfl⟩ := ih
      have hbyte : encodeByte safe b = ['%', h, l] := by
        rw [encodeByte, if_neg (Bool.eq_false_iff.1 hmem), Percent.escape,
          hexDigit_of_hexValue hh hhv, hexDigit_of_hexValue hl hlv]
      exact ⟨b :: bytes, by rw [encode_cons, hbyte]; rfl⟩

/-- **Two texts of the form that are read as the same bytes are the same.** Each is the encoding of
the bytes that it is read as. -/
theorem Form.unique {safe : SafeSet} {e e' : List Char} (h : Form safe e) (h' : Form safe e')
    (heq : decode e = decode e') : e = e' := by
  obtain ⟨bytes, rfl⟩ := h.exists_encode
  obtain ⟨bytes', rfl⟩ := h'.exists_encode
  rw [decode_encode, decode_encode] at heq
  rw [Option.some.inj heq]

end Percent

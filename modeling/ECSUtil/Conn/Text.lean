/-
# Texts

A `CString` or `CStringW` that is taken apart is a list of characters here, one that
is only passed on a `String`.  `CompareNoCase` folds the letters `A` to `Z`, and
`_stscanf_s` is modelled for the formats the source gives it: numbers with and
without a width, and literal characters.

Where the UTF-16 units of a text matter it is a list of units, so what both kinds
of text need is defined once, for characters of any type: `TrimLeft` and
`TrimRight` are `Trim.trim` with `iswspace`, and `BinaryToHexString` is
`hexStringBy` with the characters of the digits.
-/

import Mathlib.Data.Int.Notation
import Mathlib.Data.List.Basic
import ECSUtil.Lib.Trim

namespace ECSUtil

/-- `CString`, `CStringW`. -/
abbrev CString := List Char

/-- `a.CompareNoCase(b) == 0`. -/
def compareNoCase (a b : CString) : Bool := a.map Char.toLower == b.map Char.toLower

/-- `iswspace` of a character code. -/
def iswspace (n : ℕ) : Bool :=
  [0x20, 0x85, 0xa0, 0x1680, 0x2028, 0x2029, 0x202f, 0x205f, 0x3000].contains n ||
    (0x9 ≤ n && n ≤ 0xd) || (0x2000 ≤ n && n ≤ 0x200a)

/-- `BinaryToHexString`: two digits for each byte. -/
def hexStringBy {α : Type*} (digit : Fin 16 → α) (data : List UInt8) : List α :=
  data.flatMap fun b => [digit ⟨b.toNat / 16, by have := b.toNat_lt; omega⟩,
    digit ⟨b.toNat % 16, by omega⟩]

/-- A text is the same as itself, with any letters. -/
theorem compareNoCase_self (a : CString) : compareNoCase a a = true := by simp [compareNoCase]

/-- One item of a `scanf` format. -/
inductive Directive
  /-- `%d` and its like, with the width given. -/
  | num (width : Option ℕ)
  | lit (c : Char)
  deriving DecidableEq, Repr

/-- The number at the start of a text, of `width` characters at most, and the text
behind it. -/
def scanNumber (width : Option ℕ) (s : CString) : Option (ℤ × CString) :=
  let s := s.dropWhile Char.isWhitespace
  let signs := if s.head? = some '-' ∨ s.head? = some '+' then 1 else 0
  let rest := s.drop signs
  let digits := (match width with
    | some w => rest.take (w - signs)
    | none => rest).takeWhile Char.isDigit
  let value : ℕ := digits.foldl (fun n c => 10 * n + (c.toNat - '0'.toNat)) 0
  if digits = [] then none
  else some (if s.head? = some '-' then -(value : ℤ) else value, rest.drop digits.length)

/-- The numbers that `_stscanf_s` assigns. -/
def scanf : List Directive → CString → List ℤ
  | .lit c :: fmt, c' :: s => if c = c' then scanf fmt s else []
  | .num width :: fmt, s =>
      match scanNumber width s with
      | some (n, s') => n :: scanf fmt s'
      | none => []
  | _, _ => []

end ECSUtil

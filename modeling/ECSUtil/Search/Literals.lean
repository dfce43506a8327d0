/-
# The literals of a search expression

The loop of `S3SearchMD` (`ECSUtil/ECSConnection.cpp`) that rewrites the literals of an expression, and
`BinaryToHexString` (`ECSUtil/fmtnum.cpp`).

A literal stands between two back quotes.  It is replaced by the hexadecimal digits of its UTF-16 units
between two double quotes, and the search for the next one starts at the front again.  What is put
in has no back quote, so the quotes pair up from the left: `literals_rewritten`.

What the expression is to become is said without the functions of the source: what is left of a text without
the white space around it (`Trim.Trimmed`), which digits a UTF-16 unit has (`HexDigits`: they are read back as
the unit), and how the back quotes pair up (`Rewritten`).
-/

import Mathlib.Data.List.Basic
import Mathlib.Data.List.Count
import ECSUtil.Conn.Text
import ECSUtil.Lib.Loop

namespace ECSUtil
namespace Search

/-- A UTF-16 unit of a `CString`, which ends at the first zero. -/
abbrev WChar := { u : UInt16 // u ≠ 0 }

/-- A back quote. -/
def backQuote : WChar := ⟨0x60, by decide⟩

/-- `_T('"')`. -/
def doubleQuote : WChar := ⟨0x22, by decide⟩

/-- `iswspace`. -/
def isSpace (c : WChar) : Bool := iswspace c.1.toNat

/-- `Find` of one character, from a position on. -/
def find (s : List WChar) (c : WChar) (iStart : ℕ) : Option ℕ :=
  ((s.drop iStart).findIdx? fun d => d = c).map fun i => iStart + i

/-- `DEC2HEX`. -/
def DEC2HEX (n : Fin 16) : WChar :=
  ⟨UInt16.ofNat (if n.1 < 10 then 0x30 + n.1 else 0x57 + n.1), by revert n; decide⟩


/-- `Buf`: two bytes for each character. -/
def toBuf (s : List WChar) : List UInt8 :=
  s.flatMap fun Ch => [(Ch.1 >>> (8 : UInt16)).toUInt8, (Ch.1 &&& (0xff : UInt16)).toUInt8]

/-- One turn of the loop. -/
def literalTurn (sExpr : List WChar) : List WChar ⊕ List WChar :=
  match find sExpr backQuote 0 with
  | none => .inr sExpr
  | some iOpen =>
      match find sExpr backQuote (iOpen + 1) with
      | none => .inr sExpr
      | some iClose =>
          let sStr := (sExpr.drop (iOpen + 1)).take (iClose - iOpen - 1)
          .inl (sExpr.take iOpen ++ doubleQuote :: (hexStringBy DEC2HEX (toBuf sStr) ++
            doubleQuote :: sExpr.drop (iClose + 1)))

/-- The value of a digit: `0` to `9`, or `a` to `f` in lower case. -/
def digitValue (c : WChar) : Option ℕ :=
  if 0x30 ≤ c.1.toNat ∧ c.1.toNat ≤ 0x39 then some (c.1.toNat - 0x30)
  else if 0x61 ≤ c.1.toNat ∧ c.1.toNat ≤ 0x66 then some (c.1.toNat - 0x57)
  else none

/-- **The digits of some units**: four for each, which are read back as the unit, the highest one first. -/
inductive HexDigits : List WChar → List WChar → Prop
  | nil : HexDigits [] []
  | unit {c d₃ d₂ d₁ d₀ : WChar} {v₃ v₂ v₁ v₀ : ℕ} {units digits : List WChar}
      (h₃ : digitValue d₃ = some v₃) (h₂ : digitValue d₂ = some v₂) (h₁ : digitValue d₁ = some v₁)
      (h₀ : digitValue d₀ = some v₀) (hc : c.1.toNat = ((v₃ * 16 + v₂) * 16 + v₁) * 16 + v₀)
      (h : HexDigits units digits) : HexDigits (c :: units) (d₃ :: d₂ :: d₁ :: d₀ :: digits)

/-- Four digits for a unit, as the loop writes them. -/
def hexDigits (c : WChar) : List WChar :=
  [DEC2HEX ⟨c.1.toNat / 4096 % 16, Nat.mod_lt _ (by decide)⟩,
    DEC2HEX ⟨c.1.toNat / 256 % 16, Nat.mod_lt _ (by decide)⟩,
    DEC2HEX ⟨c.1.toNat / 16 % 16, Nat.mod_lt _ (by decide)⟩,
    DEC2HEX ⟨c.1.toNat % 16, Nat.mod_lt _ (by decide)⟩]

/-- **What an expression is to become**: the back quotes are paired from the left, and what is between
the two of a pair becomes its digits between double quotes. -/
inductive Rewritten : List WChar → List WChar → Prop
  /-- There is no pair. -/
  | rest {s : List WChar} (h : s.count backQuote ≤ 1) : Rewritten s s
  | pair {s segment digits rest rest' : List WChar} (hs : backQuote ∉ s) (hsegment : backQuote ∉ segment)
      (hdigits : HexDigits segment digits) (h : Rewritten rest rest') :
      Rewritten (s ++ backQuote :: (segment ++ backQuote :: rest))
        (s ++ doubleQuote :: (digits ++ doubleQuote :: rest'))

section

variable {s t r : List WChar} {c : WChar}

/-- A character that is not found is not behind the place. -/
theorem find_eq_none {i : ℕ} : find s c i = none ↔ c ∉ s.drop i := by
  unfold find
  rw [Option.map_eq_none_iff, List.findIdx?_eq_none_iff]
  constructor
  · intro h hc
    exact absurd (h c hc) (by simp)
  · intro h d hd
    rw [decide_eq_false_iff_not]
    rintro rfl
    exact h hd

/-- **Where a character is found**, it is the first one. What is in front of it from the start of
the search on does not have the character. -/
theorem find_eq_some {i j : ℕ} (h : find s c i = some j) :
    ∃ a b, s.drop i = a ++ c :: b ∧ c ∉ a ∧ j = i + a.length := by
  obtain ⟨k, hk, rfl⟩ := Option.map_eq_some_iff.1 h
  obtain ⟨hlt, hc, hfirst⟩ := List.findIdx?_eq_some_iff_getElem.1 hk
  refine ⟨(s.drop i).take k, (s.drop i).drop (k + 1), ?_, fun hmem => ?_, ?_⟩
  · have heq : (s.drop i)[k] = c := of_decide_eq_true hc
    rw [← heq, List.getElem_cons_drop, List.take_append_drop]
  · obtain ⟨n, hn, hget⟩ := List.getElem_of_mem hmem
    rw [List.length_take] at hn
    rw [List.getElem_take] at hget
    exact hfirst n (by omega) (decide_eq_true hget)
  · rw [List.length_take]
    omega

/-- The digit is that of the number, whatever its bound. -/
theorem dec2Hex_congr {a b : ℕ} (ha : a < 16) (hb : b < 16) (h : a = b) :
    DEC2HEX ⟨a, ha⟩ = DEC2HEX ⟨b, hb⟩ := by
  subst h
  rfl

/-- A unit is written as the digits of its two bytes. -/
theorem hexStringBy_unit (c : WChar) :
    hexStringBy DEC2HEX [(c.1 >>> (8 : UInt16)).toUInt8, (c.1 &&& (0xff : UInt16)).toUInt8] =
      hexDigits c := by
  have hlt := c.1.toNat_lt
  have hhigh : (c.1 >>> (8 : UInt16)).toUInt8.toNat = c.1.toNat / 256 := by
    rw [UInt16.toNat_toUInt8, UInt16.toNat_shiftRight]
    show c.1.toNat >>> 8 % 256 = _
    rw [Nat.shiftRight_eq_div_pow]
    omega
  have hlow : (c.1 &&& (0xff : UInt16)).toUInt8.toNat = c.1.toNat % 256 := by
    rw [UInt16.toNat_toUInt8, UInt16.toNat_and]
    show (c.1.toNat &&& (2 ^ 8 - 1)) % 256 = _
    rw [Nat.and_two_pow_sub_one_eq_mod]
    omega
  unfold hexStringBy hexDigits
  simp only [List.flatMap_cons, List.flatMap_nil, List.append_nil, List.cons_append,
    List.nil_append, List.cons.injEq, and_true]
  exact ⟨dec2Hex_congr _ _ (by omega), dec2Hex_congr _ _ (by omega), dec2Hex_congr _ _ (by omega),
    dec2Hex_congr _ _ (by omega)⟩

/-- The digits of a text are those of its units, one after the other. -/
theorem hexStringBy_toBuf (s : List WChar) : hexStringBy DEC2HEX (toBuf s) = s.flatMap hexDigits := by
  unfold hexStringBy toBuf
  rw [List.flatMap_assoc]
  exact List.flatMap_congr fun c _ => hexStringBy_unit c

/-- The characters of the table are the digits. -/
theorem digitValue_dec2Hex (n : Fin 16) : digitValue (DEC2HEX n) = some n.1 := by
  revert n
  decide

/-- **The digits that are written are those of the units.** The induction is on the units; each of
them is four digits, of two bytes in the order of memory. -/
theorem hexDigits_flatMap (s : List WChar) : HexDigits s (s.flatMap hexDigits) := by
  induction s with
  | nil => exact .nil
  | cons c s ih =>
      have hlt := c.1.toNat_lt
      exact .unit (digitValue_dec2Hex _) (digitValue_dec2Hex _) (digitValue_dec2Hex _) (digitValue_dec2Hex _)
        (by dsimp only; omega) ih

/-- A value is that of one digit only. -/
theorem digitValue_inj {c d : WChar} {v : ℕ} (hc : digitValue c = some v) (hd : digitValue d = some v) : c = d := by
  have hv : ∀ {e : WChar}, digitValue e = some v → v < 16 ∧ e.1.toNat = if v < 10 then v + 0x30 else v + 0x57 := by
    intro e he
    unfold digitValue at he
    split_ifs at he with h₁ h₂
    · obtain rfl := Option.some.inj he
      rw [if_pos (by omega)]
      omega
    · obtain rfl := Option.some.inj he
      rw [if_neg (by omega)]
      omega
  exact Subtype.ext (UInt16.toNat_inj.1 ((hv hc).2.trans (hv hd).2.symm))

/-- A digit stands for a number below sixteen. -/
theorem digitValue_lt {c : WChar} {v : ℕ} (hc : digitValue c = some v) : v < 16 := by
  unfold digitValue at hc
  split_ifs at hc
  · obtain rfl := Option.some.inj hc
    omega
  · obtain rfl := Option.some.inj hc
    omega

/-- Units have one row of digits. -/
theorem HexDigits.unique {digits digits' : List WChar} (h : HexDigits s digits) (h' : HexDigits s digits') :
    digits = digits' := by
  induction h generalizing digits' with
  | nil => cases h'; rfl
  | @unit c d₃ d₂ d₁ d₀ v₃ v₂ v₁ v₀ units digits h₃ h₂ h₁ h₀ hc _ ih =>
      cases h' with
      | @unit _ d₃' d₂' d₁' d₀' v₃' v₂' v₁' v₀' _ digits' h₃' h₂' h₁' h₀' hc' h =>
          have hlt := digitValue_lt h₀
          have hlt' := digitValue_lt h₀'
          have hlt₁ := digitValue_lt h₁
          have hlt₁' := digitValue_lt h₁'
          have hlt₂ := digitValue_lt h₂
          have hlt₂' := digitValue_lt h₂'
          obtain ⟨rfl, rfl, rfl, rfl⟩ : v₃ = v₃' ∧ v₂ = v₂' ∧ v₁ = v₁' ∧ v₀ = v₀' := by omega
          rw [digitValue_inj h₃ h₃', digitValue_inj h₂ h₂', digitValue_inj h₁ h₁', digitValue_inj h₀ h₀', ih h]

/-- The digits have no back quote. -/
theorem backQuote_notMem_hexDigits (s : List WChar) : backQuote ∉ s.flatMap hexDigits := by
  have hdigit : ∀ n, DEC2HEX n ≠ backQuote := by decide
  intro h
  obtain ⟨c, -, hc⟩ := List.mem_flatMap.1 h
  simp only [hexDigits, List.mem_cons, List.not_mem_nil, or_false] at hc
  rcases hc with hc | hc | hc | hc <;> exact hdigit _ hc.symm

/-- What has no back quote stays in front. -/
theorem Rewritten.of_append (hs : backQuote ∉ s) (h : Rewritten (s ++ t) r) :
    ∃ r', r = s ++ r' ∧ Rewritten t r' := by
  generalize hst : s ++ t = x at h
  cases h with
  | rest h =>
      subst hst
      rw [List.count_append] at h
      exact ⟨t, rfl, .rest (by omega)⟩
  | @pair a segment digits rest rest' ha hsegment hdigits h =>
      -- the first back quote is behind it
      rcases List.append_eq_append_iff.1 hst with ⟨b, rfl, rfl⟩ | ⟨b, rfl, hb⟩
      · refine ⟨b ++ doubleQuote :: (digits ++ doubleQuote :: rest'),
          List.append_assoc .., .pair (fun hno => ha (List.mem_append_right _ hno)) hsegment hdigits h⟩
      · cases b with
        | nil =>
            rw [List.nil_append] at hb
            subst hb
            rw [List.append_nil] at hs ⊢
            exact ⟨_, rfl, .pair (s := []) List.not_mem_nil hsegment hdigits h⟩
        | cons c b =>
            rw [List.cons_append, List.cons.injEq] at hb
            exact absurd (hb.1 ▸ List.mem_append_right _ List.mem_cons_self) hs

/-- The first back quote is at one place. -/
theorem append_backQuote_inj {a b : List WChar} (ha : backQuote ∉ a) (hb : backQuote ∉ b)
    (h : a ++ backQuote :: s = b ++ backQuote :: t) : a = b ∧ s = t := by
  induction a generalizing b with
  | nil =>
      cases b with
      | nil => exact ⟨rfl, (List.cons.inj h).2⟩
      | cons d b => exact absurd ((List.cons.inj h).1 ▸ List.mem_cons_self) hb
  | cons c a ih =>
      cases b with
      | nil => exact absurd ((List.cons.inj h).1 ▸ List.mem_cons_self) ha
      | cons d b =>
          obtain ⟨rfl, htail⟩ := List.cons.inj h
          obtain ⟨rfl, rfl⟩ := ih (List.not_mem_of_not_mem_cons ha)
            (List.not_mem_of_not_mem_cons hb) htail
          exact ⟨rfl, rfl⟩

/-- There is one result only. -/
theorem Rewritten.unique {r' : List WChar} (h : Rewritten s r) (h' : Rewritten s r') : r = r' := by
  induction h generalizing r' with
  | @rest s h =>
      cases h' with
      | rest _ => rfl
      | pair _ _ _ _ =>
          rw [List.count_append, List.count_cons_self, List.count_append, List.count_cons_self] at h
          omega
  | @pair a segment digits rest rest' ha hsegment hdigits _ ih =>
      generalize hx : a ++ backQuote :: (segment ++ backQuote :: rest) = x at h'
      cases h' with
      | rest h =>
          subst hx
          rw [List.count_append, List.count_cons_self, List.count_append, List.count_cons_self] at h
          omega
      | @pair b segment' digits' rest₁ rest₁' hb hsegment' hdigits' h =>
          -- the same two quotes are the first ones
          obtain ⟨rfl, hbehind⟩ := append_backQuote_inj ha hb hx
          obtain ⟨rfl, rfl⟩ := append_backQuote_inj hsegment hsegment' hbehind
          rw [ih h, hdigits.unique hdigits']

/-- **What a turn does**: there is no pair, or the first one is replaced. The literal between the
quotes becomes its digits, and the turn after it looks at the text that comes out. -/
theorem literalTurn_cases (s : List WChar) :
    (s.count backQuote ≤ 1 ∧ literalTurn s = .inr s) ∨
    ∃ a segment rest : List WChar, backQuote ∉ a ∧ backQuote ∉ segment ∧
      s = a ++ backQuote :: (segment ++ backQuote :: rest) ∧
      literalTurn s =
        .inl (a ++ doubleQuote :: (segment.flatMap hexDigits ++ doubleQuote :: rest)) := by
  unfold literalTurn
  cases hopen : find s backQuote 0 with
  | none =>
      have hnone : backQuote ∉ s := find_eq_none.1 hopen
      exact .inl ⟨(List.count_eq_zero.2 hnone).symm ▸ Nat.zero_le 1, rfl⟩
  | some iOpen =>
      dsimp only
      obtain ⟨a, b, hs, ha, hiOpen⟩ := find_eq_some hopen
      rw [List.drop_zero] at hs
      rw [Nat.zero_add] at hiOpen
      have hbehind : s.drop (iOpen + 1) = b := by
        rw [hs, hiOpen, ← List.drop_drop, List.drop_left]
        rfl
      cases hclose : find s backQuote (iOpen + 1) with
      | none =>
          have hnone : backQuote ∉ b := hbehind ▸ find_eq_none.1 hclose
          have hfront := List.count_eq_zero.2 ha
          have hrest := List.count_eq_zero.2 hnone
          refine .inl ⟨?_, rfl⟩
          rw [hs, List.count_append, List.count_cons_self]
          omega
      | some iClose =>
          dsimp only
          obtain ⟨segment, rest, hb, hsegment, hiClose⟩ := find_eq_some hclose
          rw [hbehind] at hb
          refine .inr ⟨a, segment, rest, ha, hsegment, hb ▸ hs, ?_⟩
          have hstr : (s.drop (iOpen + 1)).take (iClose - iOpen - 1) = segment := by
            rw [hbehind, hb, show iClose - iOpen - 1 = segment.length by omega, List.take_left]
          have hfront : s.take iOpen = a := by rw [hs, hiOpen, List.take_left]
          have hrest : s.drop (iClose + 1) = rest := by
            rw [show iClose + 1 = iOpen + 1 + (segment.length + 1) by omega, ← List.drop_drop,
              hbehind, hb, ← List.drop_drop, List.drop_left]
            rfl
          rw [hstr, hfront, hrest, hexStringBy_toBuf]

/-- What a turn leaves becomes what the expression was to become. -/
theorem Rewritten.of_turn {a segment rest : List WChar} (ha : backQuote ∉ a)
    (hsegment : backQuote ∉ segment)
    (h : Rewritten (a ++ doubleQuote :: (segment.flatMap hexDigits ++ doubleQuote :: rest)) r) :
    Rewritten (a ++ backQuote :: (segment ++ backQuote :: rest)) r := by
  have hquote : backQuote ≠ doubleQuote := by decide
  have hfront : backQuote ∉ a ++ doubleQuote :: (segment.flatMap hexDigits ++ [doubleQuote]) := by
    intro hmem
    rcases List.mem_append.1 hmem with h | h
    · exact ha h
    · rcases List.mem_cons.1 h with h | h
      · exact hquote h
      · rcases List.mem_append.1 h with h | h
        · exact backQuote_notMem_hexDigits _ h
        · exact hquote (List.mem_singleton.1 h)
  have hsplit : a ++ doubleQuote :: (segment.flatMap hexDigits ++ doubleQuote :: rest) =
      (a ++ doubleQuote :: (segment.flatMap hexDigits ++ [doubleQuote])) ++ rest := by simp
  rw [hsplit] at h
  obtain ⟨rest', rfl, hrest⟩ := h.of_append hfront
  have hpair := Rewritten.pair ha hsegment (hexDigits_flatMap segment) hrest
  simpa only [List.append_assoc, List.cons_append, List.nil_append] using hpair

end

/-- **The literals of an expression**: for every text the loop, which starts from the trimmed expression, ends,
and what it ends with is what is left of the expression without the white space around it, its literals
rewritten.  There is one such text only. -/
theorem literals_rewritten (sExpression : List WChar) :
    Loop.Ends literalTurn
      (fun sExpr => ∃ s, Trim.Trimmed isSpace sExpression s ∧ Rewritten s sExpr ∧
        ∀ s' r, Trim.Trimmed isSpace sExpression s' → Rewritten s' r → r = sExpr)
      (Trim.trim isSpace sExpression) := by
  have htrimmed := Trim.trimmed_trim isSpace sExpression
  refine Loop.ends_of_measure
    (I := fun sExpr => ∀ r, Rewritten sExpr r → Rewritten (Trim.trim isSpace sExpression) r)
    (fun sExpr => sExpr.count backQuote) (fun s r hI hend => ?_) (fun s s' hI hturn => ?_)
    fun r h => h
  · rcases literalTurn_cases s with ⟨hcount, heq⟩ | ⟨a, segment, rest, -, -, -, heq⟩
    · obtain rfl : s = r := Sum.inr.inj (heq.symm.trans hend)
      have hdone := hI s (.rest hcount)
      refine ⟨_, htrimmed, hdone, fun s' r hs' hr => ?_⟩
      obtain rfl := hs'.unique htrimmed
      exact hr.unique hdone
    · exact absurd (heq.symm.trans hend) (by simp)
  · rcases literalTurn_cases s with ⟨-, heq⟩ | ⟨a, segment, rest, ha, hsegment, rfl, heq⟩
    · exact absurd (heq.symm.trans hturn) (by simp)
    · obtain rfl := Sum.inl.inj (heq.symm.trans hturn)
      refine ⟨fun r hr => hI r (hr.of_turn ha hsegment), ?_⟩
      have hquote : doubleQuote ≠ backQuote := by decide
      have hdigits := List.count_eq_zero.2 (backQuote_notMem_hexDigits segment)
      simp only [List.count_append, List.count_cons_self, List.count_cons_of_ne hquote, hdigits]
      omega

/-- A text, from its units up to a zero. -/
def ofUnits (units : List UInt16) : List WChar :=
  units.filterMap fun u => if h : u ≠ 0 then some ⟨u, h⟩ else none

/-- A literal of one letter, an empty one, and a back quote that is not paired, between a blank and a
tabulator. -/
theorem literals_rewritten_three :
    ∃ s, Trim.Trimmed isSpace (ofUnits [0x20, 0x60, 0x41, 0x60, 0x60, 0x60, 0x60, 0x9]) s ∧
      Rewritten s (ofUnits [0x22, 0x30, 0x30, 0x34, 0x31, 0x22, 0x22, 0x22, 0x60]) := by
  obtain ⟨turns, r, hrun, s, hs, hr, -⟩ :=
    literals_rewritten (ofUnits [0x20, 0x60, 0x41, 0x60, 0x60, 0x60, 0x60, 0x9])
  have hrun' : Loop.run literalTurn 3 (Trim.trim isSpace (ofUnits [0x20, 0x60, 0x41, 0x60, 0x60, 0x60, 0x60, 0x9])) =
      some (ofUnits [0x22, 0x30, 0x30, 0x34, 0x31, 0x22, 0x22, 0x22, 0x60]) := by
    decide
  exact ⟨s, hs, Loop.run_inj hrun hrun' ▸ hr⟩

end Search
end ECSUtil

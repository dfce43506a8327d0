/-
# The order of buffers

`CBuffer::Compare` (`ECSUtil/cbuffer.cpp`) and the operators over it: the difference of the sizes as an
`int`, and the bytes where the sizes are the same.  The difference wraps around, so that the order
goes round in a circle of 2^32 sizes.  It is a strict total order of three buffers exactly where their
sizes lie in less than half of the circle (`compare_ordered`).

The three parts of an order have a theorem each: zero stands for the same contents only
(`compare_eq_zero_iff`), the other way round the sign is the opposite one unless the sizes are half
of the circle apart (`compare_opposite`), and the order is transitive for sizes that lie in less
than half of the circle (`compare_trans`).
-/

import ECSUtil.Buffer.Values

namespace ECSUtil
namespace Buffer

/-- A number as an `int`. -/
def toInt (n : ℤ) : ℤ := (n + 0x80000000) % 0x100000000 - 0x80000000

/-- `memcmp`: the first difference of the bytes. -/
def memcmp : Bytes → Bytes → ℕ → ℤ
  | a :: as, b :: bs, n + 1 => if a = b then memcmp as bs n else (a.toNat : ℤ) - b.toNat
  | _, _, _ => 0

namespace Memory

/-- `Compare`. -/
def compare (s : Memory) (i j : ℕ) : ℤ :=
  let nSize := s.getBufSize i
  let iDiff := toInt ((nSize : ℤ) - s.getBufSize j)
  if iDiff = 0 ∧ nSize ≠ 0 then memcmp (s.getBytes i) (s.getBytes j) nSize else iDiff

/-- **A strict total order** of objects. -/
structure Ordered (s : Memory) (l : List ℕ) : Prop where
  zero : ∀ i ∈ l, ∀ j ∈ l, s.compare i j = 0 ↔ s.getBytes i = s.getBytes j
  opposite : ∀ i ∈ l, ∀ j ∈ l, s.compare i j < 0 ↔ 0 < s.compare j i
  trans : ∀ i ∈ l, ∀ j ∈ l, ∀ k ∈ l, s.compare i j < 0 → s.compare j k < 0 → s.compare i k < 0

end Memory

/-- From one of the sizes on, all of them lie in less than half of the circle. -/
def InHalf (l : List ℕ) : Prop :=
  ∃ x ∈ l, ∀ y ∈ l, ((y : ℤ) - x) % 0x100000000 < 0x80000000

/-- Bytes are the same as themselves. -/
theorem memcmp_self (a : Bytes) (n : ℕ) : memcmp a a n = 0 := by
  induction a generalizing n with
  | nil => rfl
  | cons x a ih =>
      cases n with
      | zero => rfl
      | succ n =>
          rw [memcmp, if_pos rfl]
          exact ih n

/-- The bytes are the same where no difference is found. -/
theorem eq_of_memcmp {a b : Bytes} (hlength : a.length = b.length) (h : memcmp a b a.length = 0) :
    a = b := by
  induction a generalizing b with
  | nil => exact (List.length_eq_zero_iff.1 hlength.symm).symm
  | cons x a ih =>
      cases b with
      | nil => exact absurd hlength (by simp)
      | cons y b =>
          rw [List.length_cons, memcmp] at h
          by_cases hxy : x = y
          · rw [if_pos hxy] at h
            rw [hxy, ih (Nat.succ.inj hlength) h]
          · rw [if_neg hxy] at h
            exact absurd (UInt8.toNat_inj.1 (by omega)) hxy

/-- The other way round, the difference is the opposite one. -/
theorem memcmp_neg (a b : Bytes) (n : ℕ) : memcmp b a n = -memcmp a b n := by
  induction a generalizing b n with
  | nil => cases b <;> rfl
  | cons x a ih =>
      cases b with
      | nil => rfl
      | cons y b =>
          cases n with
          | zero => rfl
          | succ n =>
              rw [memcmp, memcmp]
              by_cases hxy : x = y
              · rw [if_pos hxy, if_pos hxy.symm]
                exact ih b n
              · rw [if_neg hxy, if_neg (Ne.symm hxy)]
                omega

/-- The order of the bytes is transitive. -/
theorem memcmp_trans {a b c : Bytes} {n : ℕ} (hab : memcmp a b n < 0) (hbc : memcmp b c n < 0) :
    memcmp a c n < 0 := by
  induction n generalizing a b c with
  | zero => cases a <;> cases b <;> exact absurd hab (Int.lt_irrefl 0)
  | succ n ih =>
      rcases a with _ | ⟨x, a⟩
      · exact absurd hab (Int.lt_irrefl 0)
      rcases b with _ | ⟨y, b⟩
      · exact absurd hbc (Int.lt_irrefl 0)
      rcases c with _ | ⟨z, c⟩
      · exact absurd hbc (Int.lt_irrefl 0)
      rw [memcmp] at hab hbc ⊢
      by_cases hxy : x = y <;> by_cases hyz : y = z
      · subst hxy hyz
        rw [if_pos rfl] at hab hbc ⊢
        exact ih hab hbc
      · subst hxy
        rw [if_neg hyz] at hbc ⊢
        exact hbc
      · subst hyz
        rw [if_neg hxy] at hab ⊢
        exact hab
      · rw [if_neg hxy] at hab
        rw [if_neg hyz] at hbc
        have hxz : x ≠ z := by
          rintro rfl
          omega
        rw [if_neg hxz]
        omega

variable {s : Memory} {i j k : ℕ} {u v w : Bytes}

namespace Memory

/-- Buffers of different sizes. -/
theorem compare_of_ne (hs : s.Counted) (hi : Live s.values i u) (hj : Live s.values j v)
    (hu : u.length < 0x100000000) (hv : v.length < 0x100000000) (hne : u.length ≠ v.length) :
    s.compare i j = toInt ((u.length : ℤ) - v.length) := by
  unfold compare
  rw [(getBytes_eq hs hi).1, (getBytes_eq hs hj).1]
  refine if_neg fun h => ?_
  have hzero := h.1
  unfold toInt at hzero
  omega

/-- Buffers of the same size. -/
theorem compare_of_eq (hs : s.Counted) (hi : Live s.values i u) (hj : Live s.values j v)
    (heq : u.length = v.length) : s.compare i j = memcmp u v u.length := by
  have hzero : toInt ((u.length : ℤ) - v.length) = 0 := by
    rw [heq, Int.sub_self]
    rfl
  unfold compare
  rw [(getBytes_eq hs hi).1, (getBytes_eq hs hi).2, (getBytes_eq hs hj).1, (getBytes_eq hs hj).2]
  dsimp only
  rw [hzero]
  by_cases hempty : u.length = 0
  · rw [if_neg fun h => h.2 hempty, hempty]
    cases u <;> cases v <;> rfl
  · rw [if_pos ⟨rfl, hempty⟩]

/-- **Zero for the same contents only**, whatever the sizes. Only contents of the same size are
compared by `memcmp`; otherwise the difference of the sizes is what is returned, and it is not zero
below 2^32. -/
theorem compare_eq_zero_iff (hs : s.Counted) (hi : Live s.values i u) (hj : Live s.values j v)
    (hu : u.length < 0x100000000) (hv : v.length < 0x100000000) : s.compare i j = 0 ↔ u = v := by
  by_cases heq : u.length = v.length
  · rw [compare_of_eq hs hi hj heq]
    refine ⟨eq_of_memcmp heq, ?_⟩
    rintro rfl
    exact memcmp_self u u.length
  · rw [compare_of_ne hs hi hj hu hv heq]
    unfold toInt
    constructor
    · intro h
      exact absurd h (by omega)
    · rintro rfl
      exact absurd rfl heq

/-- **The other way round** the sign is the opposite one, unless the sizes are half of the circle
apart. The difference of the sizes is taken as an `int`, so half of the circle is negative in both
directions. -/
theorem compare_opposite (hs : s.Counted) (hi : Live s.values i u) (hj : Live s.values j v)
    (hu : u.length < 0x100000000) (hv : v.length < 0x100000000)
    (hhalf : ((v.length : ℤ) - u.length) % 0x100000000 ≠ 0x80000000) :
    s.compare i j < 0 ↔ 0 < s.compare j i := by
  by_cases heq : u.length = v.length
  · rw [compare_of_eq hs hi hj heq, compare_of_eq hs hj hi heq.symm, ← heq, memcmp_neg u v]
    omega
  · rw [compare_of_ne hs hi hj hu hv heq, compare_of_ne hs hj hi hv hu (Ne.symm heq)]
    unfold toInt
    omega

/-- **Transitivity**, for sizes that lie in less than half of the circle from `x` on. Within half of
the circle the differences add up without a wrap, so the order of the sizes is that of numbers; for
the same size it is the order of the bytes. -/
theorem compare_trans (hs : s.Counted) (hi : Live s.values i u) (hj : Live s.values j v)
    (hk : Live s.values k w) (hu : u.length < 0x100000000) (hv : v.length < 0x100000000)
    (hw : w.length < 0x100000000) {x : ℕ} (hux : ((u.length : ℤ) - x) % 0x100000000 < 0x80000000)
    (hvx : ((v.length : ℤ) - x) % 0x100000000 < 0x80000000)
    (hwx : ((w.length : ℤ) - x) % 0x100000000 < 0x80000000) (hij : s.compare i j < 0)
    (hjk : s.compare j k < 0) : s.compare i k < 0 := by
  by_cases huv : u.length = v.length <;> by_cases hvw : v.length = w.length
  · rw [compare_of_eq hs hi hj huv] at hij
    rw [compare_of_eq hs hj hk hvw, ← huv] at hjk
    rw [compare_of_eq hs hi hk (huv.trans hvw)]
    exact memcmp_trans hij hjk
  · rw [compare_of_ne hs hj hk hv hw hvw] at hjk
    rw [compare_of_ne hs hi hk hu hw (huv ▸ hvw), huv]
    exact hjk
  · rw [compare_of_ne hs hi hj hu hv huv] at hij
    rw [compare_of_ne hs hi hk hu hw (hvw ▸ huv), ← hvw]
    exact hij
  · rw [compare_of_ne hs hi hj hu hv huv] at hij
    rw [compare_of_ne hs hj hk hv hw hvw] at hjk
    unfold toInt at hij hjk
    rw [compare_of_ne hs hi hk hu hw (by omega)]
    unfold toInt
    omega

end Memory

/-- Where the signs are opposite, the sizes are not half of the circle apart. -/
theorem size_of_opposite (hs : s.Counted) (hi : Live s.values i u) (hj : Live s.values j v)
    (hu : u.length < 0x100000000) (hv : v.length < 0x100000000)
    (h : s.compare i j < 0 ↔ 0 < s.compare j i) :
    ((v.length : ℤ) - u.length) % 0x100000000 ≠ 0x80000000 := by
  by_cases heq : u.length = v.length
  · omega
  · rw [Memory.compare_of_ne hs hi hj hu hv heq, Memory.compare_of_ne hs hj hi hv hu (Ne.symm heq)] at h
    unfold toInt at h
    omega

/-- Where the order is transitive, three different sizes do not go round the circle. -/
theorem size_of_trans (hs : s.Counted) (hi : Live s.values i u) (hj : Live s.values j v)
    (hk : Live s.values k w) (hu : u.length < 0x100000000) (hv : v.length < 0x100000000)
    (hw : w.length < 0x100000000) (huv : u.length ≠ v.length) (hvw : v.length ≠ w.length)
    (huw : u.length ≠ w.length)
    (h : s.compare i j < 0 → s.compare j k < 0 → s.compare i k < 0) :
    toInt ((u.length : ℤ) - v.length) < 0 → toInt ((v.length : ℤ) - w.length) < 0 →
      toInt ((u.length : ℤ) - w.length) < 0 := by
  rwa [Memory.compare_of_ne hs hi hj hu hv huv, Memory.compare_of_ne hs hj hk hv hw hvw,
    Memory.compare_of_ne hs hi hk hu hw huw] at h

/-- One size is before another one where it is less than half of the circle behind. -/
theorem toInt_neg_iff {x y : ℤ} (h : (y - x) % 0x100000000 ≠ 0) :
    toInt (x - y) < 0 ↔ (y - x) % 0x100000000 ≤ 0x80000000 := by
  unfold toInt
  omega

/-- There and back is once round the circle. -/
theorem mod_add_mod {m n : ℕ} (hm : m < 0x100000000) (hn : n < 0x100000000) (hne : m ≠ n) :
    ((n : ℤ) - m) % 0x100000000 + ((m : ℤ) - n) % 0x100000000 = 0x100000000 := by
  omega

/-- What holds of three is said of each. -/
theorem forall_mem_three {p : ℕ → Prop} {a b c : ℕ} : (∀ x ∈ [a, b, c], p x) ↔ p a ∧ p b ∧ p c := by
  simp

/-- **`Compare` is a strict total order of three buffers** exactly where their sizes, from one of
them on and modulo 2^32, lie in less than 2^31. -/
theorem compare_ordered (hs : s.Counted) (hi : Live s.values i u) (hj : Live s.values j v)
    (hk : Live s.values k w) (hu : u.length < 0x100000000) (hv : v.length < 0x100000000)
    (hw : w.length < 0x100000000) :
    s.Ordered [i, j, k] ↔ InHalf [u.length, v.length, w.length] := by
  have hlive : ∀ x ∈ [i, j, k], ∃ y, Live s.values x y ∧ y.length ∈ [u.length, v.length, w.length] ∧
      y.length < 0x100000000 :=
    forall_mem_three.2 ⟨⟨u, hi, by simp, hu⟩, ⟨v, hj, by simp, hv⟩, ⟨w, hk, by simp, hw⟩⟩
  constructor
  · intro h
    have hii : i ∈ [i, j, k] := by simp
    have hjj : j ∈ [i, j, k] := by simp
    have hkk : k ∈ [i, j, k] := by simp
    have huv := size_of_opposite hs hi hj hu hv (h.opposite i hii j hjj)
    have hvw := size_of_opposite hs hj hk hv hw (h.opposite j hjj k hkk)
    have huw := size_of_opposite hs hi hk hu hw (h.opposite i hii k hkk)
    by_contra hno
    have hfrom : ∀ x ∈ [u.length, v.length, w.length],
        ¬(((u.length : ℤ) - x) % 0x100000000 < 0x80000000 ∧
          ((v.length : ℤ) - x) % 0x100000000 < 0x80000000 ∧
          ((w.length : ℤ) - x) % 0x100000000 < 0x80000000) :=
      fun x hx hall => hno ⟨x, hx, forall_mem_three.2 hall⟩
    obtain ⟨hfromu, hfromv, hfromw⟩ := forall_mem_three.1 hfrom
    by_cases huv' : u.length = v.length
    · omega
    by_cases hvw' : v.length = w.length
    · omega
    by_cases huw' : u.length = w.length
    · omega
    -- the three sizes are different, and go round one way or the other
    have hround := size_of_trans hs hi hj hk hu hv hw huv' hvw' huw'
      (h.trans i hii j hjj k hkk)
    have hback := size_of_trans hs hk hj hi hw hv hu (Ne.symm hvw') (Ne.symm huv') (Ne.symm huw')
      (h.trans k hkk j hjj i hii)
    rw [toInt_neg_iff (by omega), toInt_neg_iff (by omega), toInt_neg_iff (by omega)] at hround hback
    have hback_uv := mod_add_mod hu hv huv'
    have hback_vw := mod_add_mod hv hw hvw'
    have hback_uw := mod_add_mod hu hw huw'
    have hself : ∀ n : ℕ, ((n : ℤ) - n) % 0x100000000 = 0 := fun n => by omega
    rw [hself] at hfromu hfromv hfromw
    generalize ((v.length : ℤ) - u.length) % 0x100000000 = p at *
    generalize ((w.length : ℤ) - v.length) % 0x100000000 = q at *
    generalize ((w.length : ℤ) - u.length) % 0x100000000 = r at *
    generalize ((u.length : ℤ) - v.length) % 0x100000000 = p' at *
    generalize ((v.length : ℤ) - w.length) % 0x100000000 = q' at *
    generalize ((u.length : ℤ) - w.length) % 0x100000000 = r' at *
    omega
  · rintro ⟨x, -, hx⟩
    refine ⟨fun a ha b hb => ?_, fun a ha b hb => ?_, fun a ha b hb c hc => ?_⟩
    · obtain ⟨y, hy, -, hylt⟩ := hlive a ha
      obtain ⟨z, hz, -, hzlt⟩ := hlive b hb
      rw [Memory.compare_eq_zero_iff hs hy hz hylt hzlt, (Memory.getBytes_eq hs hy).2,
        (Memory.getBytes_eq hs hz).2]
    · obtain ⟨y, hy, hyin, hylt⟩ := hlive a ha
      obtain ⟨z, hz, hzin, hzlt⟩ := hlive b hb
      have hyx := hx _ hyin
      have hzx := hx _ hzin
      exact Memory.compare_opposite hs hy hz hylt hzlt (by omega)
    · obtain ⟨y, hy, hyin, hylt⟩ := hlive a ha
      obtain ⟨z, hz, hzin, hzlt⟩ := hlive b hb
      obtain ⟨t, ht, htin, htlt⟩ := hlive c hc
      exact Memory.compare_trans hs hy hz ht hylt hzlt htlt (hx _ hyin) (hx _ hzin) (hx _ htin)

/-- Three short buffers. Their sizes are far less than half of the circle apart. -/
theorem compare_ordered_short : ∃ s : Memory, s.values = [some [1], some [2], some [1, 2]] ∧
    s.Ordered [0, 1, 2] := by
  have hreach : ∃ s, system.ReachableBy (fun s op => op.Ok s.values) s ∧
      s.values = [some [1], some [2], some [1, 2]] := by
    refine ⟨_, .step (a := .constructFrom [1, 2]) (.step (a := .constructFrom [2])
      (.step (a := .constructFrom [1]) (.init rfl) ?_ rfl) ?_ rfl) ?_ rfl, rfl⟩
    · exact (by decide : [1].length < 0x100000000)
    · exact (by decide : [2].length < 0x100000000)
    · exact (by decide : [1, 2].length < 0x100000000)
  obtain ⟨s, hreach, hvalues⟩ := hreach
  have hlive : Live s.values 0 [1] ∧ Live s.values 1 [2] ∧ Live s.values 2 [1, 2] := by
    rw [hvalues]
    exact ⟨rfl, rfl, rfl⟩
  have hhalf : InHalf [[1].length, [2].length, [1, 2].length] :=
    ⟨1, by decide, forall_mem_three.2 ⟨by decide, by decide, by decide⟩⟩
  exact ⟨s, hvalues, (compare_ordered (counted_reachable hreach) hlive.1 hlive.2.1 hlive.2.2
    (by decide) (by decide) (by decide)).2 hhalf⟩

/-- A buffer with these bytes, and an empty one. -/
theorem exists_reachable {src : Bytes} (h : src.length < 0x100000000) : ∃ s : Memory,
    system.ReachableBy (fun s op => op.Ok s.values) s ∧ s.values = [some src, some []] := by
  have hfirst : system.ReachableBy (fun s op => op.Ok s.values) {} := .init rfl
  have hok : (Op.constructFrom src).Ok (Memory.values {}) := h
  obtain ⟨s₁, hexec₁, hcounted₁, hvalues₁⟩ := exec_spec (counted_reachable hfirst) hok
  have hok₁ : Op.construct.Ok s₁.values := trivial
  obtain ⟨s₂, hexec₂, -, hvalues₂⟩ := exec_spec hcounted₁ hok₁
  refine ⟨s₂, (hfirst.step hok hexec₁).step hok₁ hexec₂, ?_⟩
  rw [show s₂.values = s₁.values ++ [some []] from hvalues₂,
    show s₁.values = Memory.values {} ++ [some src] from hvalues₁]
  rfl

/-- **2^31 bytes and none**: each of the two is before the other one. The difference of the sizes is
2^31 and as an `int` negative, whichever is taken first. -/
theorem compare_half : ∃ s : Memory, system.ReachableBy (fun s op => op.Ok s.values) s ∧
    s.values = [some (List.replicate 0x80000000 0), some []] ∧ s.compare 0 1 < 0 ∧ s.compare 1 0 < 0 := by
  have hlength : (List.replicate 0x80000000 (0 : UInt8)).length = 0x80000000 := List.length_replicate
  generalize List.replicate 0x80000000 (0 : UInt8) = src at hlength ⊢
  obtain ⟨s, hreach, hvalues⟩ := exists_reachable (by omega : src.length < 0x100000000)
  have hcounted := counted_reachable hreach
  have hlive : Live s.values 0 src ∧ Live s.values 1 [] := by
    rw [hvalues]
    exact ⟨rfl, rfl⟩
  refine ⟨s, hreach, hvalues, ?_, ?_⟩
  · rw [Memory.compare_of_ne hcounted hlive.1 hlive.2 (by omega) (by decide)
      (by rw [hlength]; decide), hlength]
    decide
  · rw [Memory.compare_of_ne hcounted hlive.2 hlive.1 (by decide) (by omega)
      (by rw [hlength]; decide), hlength]
    decide

end Buffer
end ECSUtil

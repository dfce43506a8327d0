/-
# The largest size of the state map

`SetPerfStateSize` (`ECSUtil/ECSConnection.cpp`): threads add to a counter and keep its largest value in
another one, with interlocked operations only.  An exchange can put a smaller value into the counter; the
thread then has the larger one in hand and puts it back.  Every access takes a counter as a `long`.

What is in the counter and in hand has the largest value among it at any time, so that the counter has it
when no thread is on its way (`largest_size`).

No size is lost on the way: each is at most what is in the counter, or what a thread has in hand
(`Inv`).  Once the others stop, a call ends after three steps (`call_ends`).
-/

import ECSUtil.Lib.StepSystem
import Mathlib.Logic.Function.Basic

namespace ECSUtil
namespace Session

/-- Where a thread is in `SetPerfStateSize`. -/
inductive PerfPoint
  /-- No call. -/
  | idle
  /-- Before `InterlockedAdd` to `*pulStateMapSize`. -/
  | add (lDiff : Int32)
  /-- Before the test of the loop. -/
  | test (lCurMapSize : Int32)
  /-- Before `InterlockedExchange`. -/
  | exchange (lCurMapSize : Int32)
  deriving DecidableEq

/-- `lCurMapSize`. -/
def PerfPoint.lCurMapSize : PerfPoint → Option Int32
  | idle | add _ => none
  | test n | exchange n => some n

/-- The counters, `none` for a null pointer, and the threads. -/
structure PerfState (ι : Type*) where
  pulStateMapSize : Option Int32
  pulMaxStateMapSize : Option Int32
  point : ι → PerfPoint
  /-- What the calls of `InterlockedAdd` have returned. -/
  sizes : List Int32

inductive PerfAction (ι : Type*)
  /-- A thread calls `SetPerfStateSize`. -/
  | call (t : ι) (lDiff : Int32)
  /-- A thread takes its next step. -/
  | step (t : ι)

namespace PerfState

variable {ι : Type*} [DecidableEq ι]

/-- The thread goes to another point. -/
def goto (s : PerfState ι) (t : ι) (p : PerfPoint) : PerfState ι :=
  { s with point := Function.update s.point t p }

/-- `SetPerfStateSize`, one atomic operation at a time. -/
def next (s : PerfState ι) (t : ι) : Option (PerfState ι) :=
  match s.point t with
  | .idle => none
  | .add lDiff =>
      match s.pulStateMapSize with
      | none => some (s.goto t .idle)
      | some n =>
          let lCurMapSize := n + lDiff
          some ({ s with
            pulStateMapSize := some lCurMapSize
            sizes := s.sizes ++ [lCurMapSize] }.goto t
              (if s.pulMaxStateMapSize = none then .idle else .test lCurMapSize))
  | .test lCurMapSize =>
      match s.pulMaxStateMapSize with
      | none => none
      | some m => some (s.goto t (if lCurMapSize > m then .exchange lCurMapSize else .idle))
  | .exchange lCurMapSize =>
      match s.pulMaxStateMapSize with
      | none => none
      | some lOldMax =>
          some ({ s with pulMaxStateMapSize := some lCurMapSize }.goto t
            (if lOldMax ≤ lCurMapSize then .idle else .test lOldMax))

/-- What an action does. -/
def act (s : PerfState ι) : PerfAction ι → Option (PerfState ι)
  | .call t lDiff => if s.point t = .idle then some (s.goto t (.add lDiff)) else none
  | .step t => s.next t

/-- Any threads, with a counter for the largest size that starts at `lMax`. -/
def system (lMax : Int32) : StepSystem (PerfState ι) (PerfAction ι) where
  init s := s.pulMaxStateMapSize = some lMax ∧ (∀ t, s.point t = .idle) ∧ s.sizes = []
  step := act

/-- **The largest value is in the counter or in hand**, and all of these are sizes. -/
structure Inv (lMax : Int32) (s : PerfState ι) : Prop where
  cell : ∃ m, s.pulMaxStateMapSize = some m ∧ m ∈ lMax :: s.sizes
  hand : ∀ t n, (s.point t).lCurMapSize = some n → n ∈ lMax :: s.sizes
  reached : ∀ n ∈ lMax :: s.sizes, (∃ m, s.pulMaxStateMapSize = some m ∧ n ≤ m) ∨
    ∃ t c, (s.point t).lCurMapSize = some c ∧ n ≤ c

/-- **The counter has the largest value**: that with which it started, or one of the sizes. -/
def Largest (lMax : Int32) (s : PerfState ι) : Prop :=
  ∃ m, s.pulMaxStateMapSize = some m ∧ m ∈ lMax :: s.sizes ∧ ∀ n ∈ lMax :: s.sizes, n ≤ m

variable {lMax m m' : Int32} {s s' : PerfState ι} {t : ι} {p : PerfPoint}

/-- **What a step can do**: it adds, tests or exchanges. An addition adds to the one counter, and
goes on to the other one with the sum; a test compares in `long`s; an exchange puts one value in and
takes the other out. -/
theorem next_cases (h : s.next t = some s') :
    (∃ lDiff, s.point t = .add lDiff ∧ s.pulStateMapSize = none ∧ s' = s.goto t .idle) ∨
    (∃ lDiff n, s.point t = .add lDiff ∧ s.pulStateMapSize = some n ∧
      s' = { s with pulStateMapSize := some (n + lDiff), sizes := s.sizes ++ [n + lDiff] }.goto t
        (if s.pulMaxStateMapSize = none then .idle else .test (n + lDiff))) ∨
    (∃ c m, s.point t = .test c ∧ s.pulMaxStateMapSize = some m ∧
      s' = s.goto t (if c > m then .exchange c else .idle)) ∨
    ∃ c m, s.point t = .exchange c ∧ s.pulMaxStateMapSize = some m ∧
      s' = { s with pulMaxStateMapSize := some c }.goto t (if m ≤ c then .idle else .test m) := by
  unfold next at h
  cases hpoint : s.point t with
  | idle =>
      rw [hpoint] at h
      exact absurd h (by simp)
  | add lDiff =>
      rw [hpoint] at h
      dsimp only at h
      cases hsize : s.pulStateMapSize with
      | none =>
          rw [hsize] at h
          exact .inl ⟨lDiff, rfl, rfl, (Option.some.inj h).symm⟩
      | some n =>
          rw [hsize] at h
          exact .inr (.inl ⟨lDiff, n, rfl, rfl, (Option.some.inj h).symm⟩)
  | test c =>
      rw [hpoint] at h
      dsimp only at h
      cases hmax : s.pulMaxStateMapSize with
      | none =>
          rw [hmax] at h
          exact absurd h (by simp)
      | some m =>
          rw [hmax] at h
          exact .inr (.inr (.inl ⟨c, m, rfl, rfl, (Option.some.inj h).symm⟩))
  | exchange c =>
      rw [hpoint] at h
      dsimp only at h
      cases hmax : s.pulMaxStateMapSize with
      | none =>
          rw [hmax] at h
          exact absurd h (by simp)
      | some m =>
          rw [hmax] at h
          exact .inr (.inr (.inr ⟨c, m, rfl, rfl, (Option.some.inj h).symm⟩))

/-- **One thread moves**: what it had in hand and what was in the counter is in one of the two again, or
something larger is. -/
theorem Inv.move (h : Inv lMax s) (added : List Int32) (hm : s.pulMaxStateMapSize = some m)
    (hsizes : s'.sizes = s.sizes ++ added) (hm' : s'.pulMaxStateMapSize = some m')
    (hpoint : s'.point = Function.update s.point t p) (hcell : m' ∈ lMax :: s'.sizes)
    (hhand : ∀ c, p.lCurMapSize = some c → c ∈ lMax :: s'.sizes)
    (hkept : ∀ n, n ∈ added ∨ n = m ∨ (s.point t).lCurMapSize = some n →
      n ≤ m' ∨ ∃ c, p.lCurMapSize = some c ∧ n ≤ c) : Inv lMax s' := by
  have hgrow : ∀ n, n ∈ lMax :: s.sizes → n ∈ lMax :: s'.sizes := by
    intro n hn
    rw [hsizes]
    exact List.mem_append_left added hn
  have hother : ∀ u, u ≠ t → s'.point u = s.point u := by
    intro u hu
    rw [hpoint, Function.update_of_ne hu]
  have hself : s'.point t = p := by
    rw [hpoint, Function.update_self]
  -- what is not larger than something kept
  have hbelow : ∀ n k, n ≤ k → (k ∈ added ∨ k = m ∨ (s.point t).lCurMapSize = some k) →
      (∃ m, s'.pulMaxStateMapSize = some m ∧ n ≤ m) ∨
        ∃ u c, (s'.point u).lCurMapSize = some c ∧ n ≤ c := by
    intro n k hnk hk
    rcases hkept k hk with hle | ⟨c, hc, hle⟩
    · exact .inl ⟨m', hm', Int32.le_trans hnk hle⟩
    · exact .inr ⟨t, c, by rw [hself]; exact hc, Int32.le_trans hnk hle⟩
  refine ⟨⟨m', hm', hcell⟩, fun u n hn => ?_, fun n hn => ?_⟩
  · by_cases hu : u = t
    · subst hu
      rw [hself] at hn
      exact hhand n hn
    · rw [hother u hu] at hn
      exact hgrow n (h.hand u n hn)
  · have hmem : n ∈ lMax :: s.sizes ∨ n ∈ added := by
      rw [hsizes, ← List.cons_append] at hn
      exact List.mem_append.1 hn
    rcases hmem with hold | hnew
    · rcases h.reached n hold with ⟨k, hk, hle⟩ | ⟨u, c, hc, hle⟩
      · obtain rfl := Option.some.inj (hm.symm.trans hk)
        exact hbelow n m hle (.inr (.inl rfl))
      · by_cases hu : u = t
        · subst hu
          exact hbelow n c hle (.inr (.inr hc))
        · exact .inr ⟨u, c, by rw [hother u hu]; exact hc, hle⟩
    · exact hbelow n n (Int32.le_refl n) (.inl hnew)

/-- **Every step keeps it**: a thread that exchanges has in hand what it took out. An exchange with
a smaller value may take the largest one out of the counter; it is in hand then, and is what the
thread tests with next. -/
theorem Inv.next (h : Inv lMax s) (hstep : s.next t = some s') : Inv lMax s' := by
  obtain ⟨cell, hcell, hmem⟩ := h.cell
  rcases next_cases hstep with ⟨lDiff, hpoint, -, rfl⟩ | ⟨lDiff, n, hpoint, -, rfl⟩ |
    ⟨c, m, hpoint, hm, rfl⟩ | ⟨c, m, hpoint, hm, rfl⟩
  · refine h.move [] hcell (List.append_nil _).symm hcell rfl hmem
      (fun c hc => absurd hc (by simp [PerfPoint.lCurMapSize])) ?_
    rintro n (hn | rfl | hn)
    · exact absurd hn List.not_mem_nil
    · exact .inl (Int32.le_refl n)
    · rw [hpoint] at hn
      exact absurd hn (by simp [PerfPoint.lCurMapSize])
  · rw [if_neg (by rw [hcell]; exact Option.some_ne_none cell)]
    have hnew : n + lDiff ∈ lMax :: (s.sizes ++ [n + lDiff]) := by simp
    refine h.move [n + lDiff] hcell rfl hcell rfl
      (List.mem_append_left [n + lDiff] hmem) ?_ ?_
    · intro c hc
      obtain rfl := Option.some.inj hc
      exact hnew
    · rintro k (hk | rfl | hk)
      · obtain rfl := List.mem_singleton.1 hk
        exact .inr ⟨n + lDiff, rfl, Int32.le_refl _⟩
      · exact .inl (Int32.le_refl k)
      · rw [hpoint] at hk
        exact absurd hk (by simp [PerfPoint.lCurMapSize])
  · have hc : c ∈ lMax :: s.sizes := h.hand t c (by rw [hpoint]; rfl)
    refine h.move [] hm (List.append_nil _).symm hm rfl
      (Option.some.inj (hcell.symm.trans hm) ▸ hmem) ?_ ?_
    · intro k hk
      split_ifs at hk
      · obtain rfl := Option.some.inj hk
        exact hc
      · exact absurd hk (by simp [PerfPoint.lCurMapSize])
    · rintro k (hk | rfl | hk)
      · exact absurd hk List.not_mem_nil
      · exact .inl (Int32.le_refl k)
      · rw [hpoint] at hk
        obtain rfl := Option.some.inj hk
        by_cases hlarger : c > m
        · rw [if_pos hlarger]
          exact .inr ⟨c, rfl, Int32.le_refl c⟩
        · exact .inl (Int32.not_lt.1 hlarger)
  · have hc : c ∈ lMax :: s.sizes := h.hand t c (by rw [hpoint]; rfl)
    have hmold : m ∈ lMax :: s.sizes := Option.some.inj (hcell.symm.trans hm) ▸ hmem
    refine h.move [] hm (List.append_nil _).symm rfl rfl hc ?_ ?_
    · intro k hk
      split_ifs at hk
      · exact absurd hk (by simp [PerfPoint.lCurMapSize])
      · obtain rfl := Option.some.inj hk
        exact hmold
    · rintro k (hk | rfl | hk)
      · exact absurd hk List.not_mem_nil
      · by_cases hle : k ≤ c
        · exact .inl hle
        · rw [if_neg hle]
          exact .inr ⟨k, rfl, Int32.le_refl k⟩
      · rw [hpoint] at hk
        obtain rfl := Option.some.inj hk
        exact .inl (Int32.le_refl c)

/-- A call that begins has nothing in hand. -/
theorem Inv.call (h : Inv lMax s) (hidle : s.point t = .idle) (lDiff : Int32) :
    Inv lMax (s.goto t (.add lDiff)) := by
  obtain ⟨cell, hcell, hmem⟩ := h.cell
  refine h.move [] hcell (List.append_nil _).symm hcell rfl hmem
    (fun c hc => absurd hc (by simp [PerfPoint.lCurMapSize])) ?_
  rintro n (hn | rfl | hn)
  · exact absurd hn List.not_mem_nil
  · exact .inl (Int32.le_refl n)
  · rw [hidle] at hn
    exact absurd hn (by simp [PerfPoint.lCurMapSize])

/-- **It holds in every state of the runs.** The number of threads is any, and so is the order of
their steps; the counter is there from the beginning on. -/
theorem inv_reachable (h : (system lMax).Reachable s) : Inv lMax s := by
  refine h.invariant (I := Inv lMax) ?_ ?_
  · rintro s ⟨hmax, hidle, hsizes⟩
    refine ⟨⟨lMax, hmax, List.mem_cons_self⟩, fun t n hn => ?_, fun n hn => ?_⟩
    · rw [hidle t] at hn
      exact absurd hn (by simp [PerfPoint.lCurMapSize])
    · rw [hsizes, List.mem_singleton] at hn
      exact .inl ⟨lMax, hmax, hn ▸ Int32.le_refl lMax⟩
  · rintro s a s' hs - hstep
    cases a with
    | call t lDiff =>
        have hcall : (if s.point t = .idle then some (s.goto t (.add lDiff)) else none) = some s' := hstep
        split_ifs at hcall with hidle
        exact Option.some.inj hcall ▸ hs.call hidle lDiff
    | step t => exact hs.next hstep

section

/-- The thread takes steps, and the others none. -/
def alone (s : PerfState ι) (t : ι) (k : ℕ) : Option (PerfState ι) :=
  (system (0 : Int32)).run (List.replicate k (.step t)) s

/-- A thread that is alone goes on with its next step. -/
theorem alone_succ (h : s.next t = some s') (k : ℕ) : s.alone t (k + 1) = s'.alone t k := by
  have hstep : (system (0 : Int32)).step s (.step t) = some s' := h
  unfold alone
  rw [List.replicate_succ, StepSystem.run, hstep, Option.bind_some]

/-- A thread is where it goes. -/
theorem point_goto (s : PerfState ι) (t : ι) (p : PerfPoint) : (s.goto t p).point t = p := by
  show Function.update s.point t p t = p
  rw [Function.update_self]

/-- Before an exchange that puts the larger value into the counter. -/
theorem ends_of_exchange {c : Int32} (hpoint : s.point t = .exchange c)
    (hm : s.pulMaxStateMapSize = some m) (hle : m ≤ c) :
    ∃ s', s.alone t 1 = some s' ∧ s'.point t = .idle := by
  have hnext : s.next t = some ({ s with pulMaxStateMapSize := some c }.goto t .idle) := by
    unfold next
    rw [hpoint, hm]
    dsimp only
    rw [if_pos hle]
  exact ⟨_, alone_succ hnext 0, point_goto _ t .idle⟩

/-- Before the test: nobody else changes the counter before the exchange. -/
theorem ends_of_test {c : Int32} (hpoint : s.point t = .test c) (hm : s.pulMaxStateMapSize = some m) :
    ∃ k ≤ 2, ∃ s', s.alone t k = some s' ∧ s'.point t = .idle := by
  have hnext : s.next t = some (s.goto t (if c > m then .exchange c else .idle)) := by
    unfold next
    rw [hpoint, hm]
  by_cases hlarger : c > m
  · rw [if_pos hlarger] at hnext
    obtain ⟨s', hrun, hidle⟩ := ends_of_exchange (point_goto s t (.exchange c)) hm (Int32.le_of_lt hlarger)
    exact ⟨2, Nat.le_refl 2, s', (alone_succ hnext 1).trans hrun, hidle⟩
  · rw [if_neg hlarger] at hnext
    exact ⟨1, by omega, _, alone_succ hnext 0, point_goto s t .idle⟩

/-- **A call ends once the others stop**, after three steps at most. With nobody else at work an
exchange gives back what the thread has just read, or a smaller value, with which the test ends. -/
theorem call_ends (hm : s.pulMaxStateMapSize = some m) (t : ι) :
    ∃ k ≤ 3, ∃ s', s.alone t k = some s' ∧ s'.point t = .idle := by
  cases hpoint : s.point t with
  | idle => exact ⟨0, by omega, s, rfl, hpoint⟩
  | add lDiff =>
      cases hsize : s.pulStateMapSize with
      | none =>
          have hnext : s.next t = some (s.goto t .idle) := by
            unfold next
            rw [hpoint, hsize]
          exact ⟨1, by omega, _, alone_succ hnext 0, point_goto s t .idle⟩
      | some n =>
          have hnext : s.next t = some ({ s with
              pulStateMapSize := some (n + lDiff), sizes := s.sizes ++ [n + lDiff] }.goto t
              (.test (n + lDiff))) := by
            unfold next
            rw [hpoint, hsize]
            dsimp only
            rw [hm, if_neg (Option.some_ne_none m)]
          obtain ⟨k, hk, s', hrun, hidle⟩ := ends_of_test (point_goto { s with
            pulStateMapSize := some (n + lDiff), sizes := s.sizes ++ [n + lDiff] } t
            (.test (n + lDiff))) hm
          exact ⟨k + 1, by omega, s', (alone_succ hnext k).trans hrun, hidle⟩
  | test c =>
      obtain ⟨k, hk, s', hrun, hidle⟩ := ends_of_test hpoint hm
      exact ⟨k, by omega, s', hrun, hidle⟩
  | exchange c =>
      by_cases hle : m ≤ c
      · obtain ⟨s', hrun, hidle⟩ := ends_of_exchange hpoint hm hle
        exact ⟨1, by omega, s', hrun, hidle⟩
      · have hnext : s.next t = some ({ s with pulMaxStateMapSize := some c }.goto t (.test m)) := by
          unfold next
          rw [hpoint, hm]
          dsimp only
          rw [if_neg hle]
        obtain ⟨k, hk, s', hrun, hidle⟩ := ends_of_test
          (point_goto { s with pulMaxStateMapSize := some c } t (.test m)) rfl
        exact ⟨k + 1, by omega, s', (alone_succ hnext k).trans hrun, hidle⟩

end

/-- **The lock-free maximum is right**: a call ends once the others stop, and when no thread is on its way the
counter has the largest of its first value and all sizes. -/
theorem largest_size (h : (system lMax).Reachable s) :
    (∀ t, ∃ k ≤ 3, ∃ s', s.alone t k = some s' ∧ s'.point t = .idle) ∧
      ((∀ t, s.point t = .idle) → Largest lMax s) := by
  have hinv := inv_reachable h
  obtain ⟨m, hm, hmem⟩ := hinv.cell
  refine ⟨call_ends hm, fun hidle => ⟨m, hm, hmem, fun n hn => ?_⟩⟩
  rcases hinv.reached n hn with ⟨k, hk, hle⟩ | ⟨t, c, hc, -⟩
  · exact Option.some.inj (hm.symm.trans hk) ▸ hle
  · rw [hidle t] at hc
    exact absurd hc (by simp [PerfPoint.lCurMapSize])

/-- Two threads: the second one has put 2 into the counter when the first one puts its 1 there. The
exchange of the first thread takes the 2 out for the 1, and its next one puts the 2 back, so the
largest size is there in the end. -/
theorem largest_size_two : ∃ s : PerfState Bool, (system 0).Reachable s ∧ s.sizes = [1, 2] ∧
    (∀ t, s.point t = .idle) ∧ Largest 0 s := by
  have hrun : ∃ s : PerfState Bool, (system 0).run
      [.call false 1, .call true 1, .step false, .step true, .step false, .step true, .step true,
        .step false, .step false, .step false]
      { pulStateMapSize := some 0, pulMaxStateMapSize := some 0, point := fun _ => .idle, sizes := [] } =
        some s ∧ s.sizes = [1, 2] ∧ s.point false = .idle ∧ s.point true = .idle := ⟨_, rfl, rfl, rfl, rfl⟩
  obtain ⟨s, hrun, hsizes, hfalse, htrue⟩ := hrun
  have hreach : (system 0).Reachable s :=
    StepSystem.Reachable.run _ (.init ⟨rfl, fun _ => rfl, rfl⟩) hrun
  have hidle : ∀ t, s.point t = .idle := Bool.forall_bool.2 ⟨hfalse, htrue⟩
  exact ⟨s, hreach, hsizes, hidle, (largest_size hreach).2 hidle⟩

end PerfState

end Session
end ECSUtil

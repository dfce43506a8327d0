/-
# A changed secret and the threads that sign

`SetSecret`, the look-up of the cached key in `signRequestS3v4`, and
`CreateS3SigningKey` (`ECSUtil/ECSConnection.cpp`), with any number of threads on
one connection.  A step is one section under the lock of the cached key, or one
access to `sSecret`, which has no lock; `secretStr` is a reference to it, so a
signer reads the secret where it makes the key.

`SetSecret` clears the cached key before it assigns the secret, and a signer stores
the key it made in a section of its own.  A signer that made its key of the old
secret may so store it behind the clearing, and every later request of that day
takes it (`not_signed_new`).  Where the stored key is of the secret in force and no
key is stored between the clearing and the assignment (`InTime`), requests are signed
with the key of a secret as new as the last `SetSecret` that returned before they
were started (`signed_new`).
-/

import ECSUtil.Lib.StepSystem
import ECSUtil.Lib.Trace
import ECSUtil.Sign.Key
import Mathlib.Logic.Function.Basic

namespace ECSUtil
namespace Sign
namespace Secret

/-- Where a thread is: outside; in `SetSecret`, having found another secret, having
cleared the cached key, and about to return, its secret being the `n`-th; in the
signing of request `r`, before the look-up, after a miss, with a key made of a
secret and not stored, and with the key to sign with. -/
inductive Pc
  | idle
  | tested (pszSecret : String)
  | cleared (pszSecret : String)
  | assigned (n : ℕ)
  | started (r : ℕ) (stRequestTime : SystemTime)
  | missed (r : ℕ) (stRequestTime : SystemTime)
  | made (r : ℕ) (stRequestTime : SystemTime) (secretStr : String) (key : Bytes)
  | ready (r : ℕ) (stRequestTime : SystemTime) (key : Bytes)

inductive Event
  /-- A `SetSecret` returns; its secret is the `n`-th. -/
  | returned (n : ℕ)
  /-- Request `r` is started. -/
  | started (r : ℕ)
  /-- Request `r` is signed. -/
  | signed (r : ℕ) (stRequestTime : SystemTime) (key : Bytes)

structure State where
  sSecret : String := ""
  cache : KeyCache := {}
  thread : ℕ → Pc := fun _ => .idle
  /-- How often `sSecret` was assigned. -/
  version : ℕ := 0
  /-- What it was assigned the `n`-th time. -/
  secretOf : ℕ → String := fun _ => ""
  nextRequest : ℕ := 0
  events : List Event := []

/-- What a thread does next. -/
inductive Action
  /-- `SetSecret` is called, and compares. -/
  | setSecret (t : ℕ) (pszSecret : String)
  | clear (t : ℕ)
  | assign (t : ℕ)
  | setSecretReturn (t : ℕ)
  /-- `signRequestS3v4` is called. -/
  | start (t : ℕ) (stRequestTime : SystemTime)
  | lookup (t : ℕ)
  /-- `CreateS3SigningKey`, up to its write lock. -/
  | create (t : ℕ)
  | store (t : ℕ)
  | sign (t : ℕ)
  deriving Repr

namespace State

def goto (s : State) (t : ℕ) (pc : Pc) : State := { s with thread := Function.update s.thread t pc }

def log (s : State) (e : Event) : State := { s with events := s.events ++ [e] }

/-- One step of a thread; the region does not change here. -/
def step (C : Crypto) (sS3Region : String) (s : State) : Action → Option State
  | .setSecret t pszSecret =>
      match s.thread t with
      | .idle => some (s.goto t (if s.sSecret ≠ pszSecret then .tested pszSecret
          else .assigned s.version))
      | _ => none
  | .clear t =>
      match s.thread t with
      | .tested pszSecret => some { s.goto t (.cleared pszSecret) with cache := .clear }
      | _ => none
  | .assign t =>
      match s.thread t with
      | .cleared pszSecret => some { s.goto t (.assigned (s.version + 1)) with
          sSecret := pszSecret
          version := s.version + 1
          secretOf := Function.update s.secretOf (s.version + 1) pszSecret }
      | _ => none
  | .setSecretReturn t =>
      match s.thread t with
      | .assigned n => some ((s.goto t .idle).log (.returned n))
      | _ => none
  | .start t stRequestTime =>
      match s.thread t with
      | .idle => some ({ s.goto t (.started s.nextRequest stRequestTime) with
          nextRequest := s.nextRequest + 1 }.log (.started s.nextRequest))
      | _ => none
  | .lookup t =>
      match s.thread t with
      | .started r stRequestTime => some (s.goto t (if s.cache.lookup stRequestTime = [] then
            .missed r stRequestTime
          else .ready r stRequestTime (s.cache.lookup stRequestTime)))
      | _ => none
  | .create t =>
      match s.thread t with
      | .missed r stRequestTime => some (s.goto t (.made r stRequestTime s.sSecret
          (createS3SigningKey C s.sSecret sS3Region stRequestTime)))
      | _ => none
  | .store t =>
      match s.thread t with
      | .made r stRequestTime _ key => some { s.goto t (.ready r stRequestTime key) with
          cache := .store key stRequestTime }
      | _ => none
  | .sign t =>
      match s.thread t with
      | .ready r stRequestTime key => some ((s.goto t .idle).log (.signed r stRequestTime key))
      | _ => none

end State

/-- The threads of a connection. -/
def system (C : Crypto) (sS3Region : String) : StepSystem State Action where
  init s := s = {}
  step := State.step C sS3Region

/-- In the trace a `SetSecret` of the `n`-th secret returns before request `r` is
started. -/
def ReturnedBefore (events : List Event) (n r : ℕ) : Prop :=
  ∃ a b c, events = a ++ .returned n :: b ++ .started r :: c

/-- A key of the `n`-th secret, or of a newer one. -/
def NewKey (C : Crypto) (sS3Region : String) (s : State) (n : ℕ) (st : SystemTime) (key : Bytes) :
    Prop :=
  ∃ o, n ≤ o ∧ o ≤ s.version ∧ key = createS3SigningKey C (s.secretOf o) sS3Region st

/-- **Requests are signed with a new secret**: with the one that a `SetSecret` has set
which returned before the request was started, or with a newer one. -/
def SignedNew (C : Crypto) (sS3Region : String) (s : State) (past : List Event) : Event → Prop
  | .signed r st key => ∀ n, ReturnedBefore past n r → NewKey C sS3Region s n st key
  | _ => True

/-- The condition on a step: a key is stored while the secret it was made of is in
force, and a secret is assigned while the cached key is cleared. -/
def InTime (s : State) : Action → Prop
  | .store t =>
      match s.thread t with
      | .made _ _ secretStr _ => secretStr = s.sSecret
      | _ => True
  | .assign _ => s.cache.globalS3V4SigningKey = []
  | _ => True

instance (s : State) (a : Action) : Decidable (InTime s a) := by
  unfold InTime
  split
  · split <;> infer_instance
  · infer_instance
  · infer_instance

variable {C : Crypto} {sS3Region : String} {s s' : State} {a : Action}

/-- A call that returned before is in the trace. -/
theorem ReturnedBefore.mem {l : List Event} {n r : ℕ} (h : ReturnedBefore l n r) :
    .returned n ∈ l := by
  obtain ⟨a, b, c, rfl⟩ := h
  simp

/-- An event that does not start the request adds nothing that returned before it. -/
theorem ReturnedBefore.of_snoc {l : List Event} {e : Event} {n r : ℕ}
    (h : ReturnedBefore (l ++ [e]) n r) (he : e ≠ .started r) : ReturnedBefore l n r := by
  obtain ⟨a, b, c, heq⟩ := h
  rcases List.eq_nil_or_concat c with rfl | ⟨c', e', rfl⟩
  · have heq' : l ++ [e] = (a ++ .returned n :: b) ++ [.started r] := by simpa using heq
    obtain ⟨-, h⟩ := List.append_inj' heq' rfl
    exact absurd (List.singleton_inj.1 h) he
  · have heq' : l ++ [e] = (a ++ .returned n :: b ++ .started r :: c') ++ [e'] := by
      simpa using heq
    obtain ⟨rfl, -⟩ := List.append_inj' heq' rfl
    exact ⟨a, b, c', rfl⟩

/-- What no step takes back: secrets that were assigned, requests that were started,
and what returned before them. -/
structure Grows (s s' : State) : Prop where
  version : s.version ≤ s'.version
  secretOf : ∀ o ≤ s.version, s'.secretOf o = s.secretOf o
  nextRequest : s.nextRequest ≤ s'.nextRequest
  before : ∀ n r, r < s.nextRequest → ReturnedBefore s'.events n r → ReturnedBefore s.events n r

/-- A key stays new while secrets are only added. -/
theorem NewKey.grows {n : ℕ} {st : SystemTime} {key : Bytes} (h : NewKey C sS3Region s n st key)
    (hg : Grows s s') : NewKey C sS3Region s' n st key := by
  obtain ⟨o, hn, ho, hkey⟩ := h
  exact ⟨o, hn, Nat.le_trans ho hg.version, by rw [hg.secretOf o ho]; exact hkey⟩

/-- Requests stay signed with a new key while secrets are only added. -/
theorem SignedNew.grows {l : List Event} (h : Past (SignedNew C sS3Region s) l)
    (hg : Grows s s') : Past (SignedNew C sS3Region s') l := by
  refine h.imp fun past e he => ?_
  cases e with
  | signed r st key => exact fun n hn => (he n hn).grows hg
  | _ => trivial

/-- What a thread holds: a request that was started, and a key that is new enough for
it. -/
def PcOk (C : Crypto) (sS3Region : String) (s : State) : Pc → Prop
  | .assigned n => n ≤ s.version
  | .started r _ | .missed r _ => r < s.nextRequest
  | .made r st secretStr key => r < s.nextRequest ∧
      key = createS3SigningKey C secretStr sS3Region st ∧
      ∀ n, ReturnedBefore s.events n r → NewKey C sS3Region s n st key
  | .ready r st key => r < s.nextRequest ∧
      ∀ n, ReturnedBefore s.events n r → NewKey C sS3Region s n st key
  | _ => True

/-- What a signer has in hand stays right while secrets are only added. -/
theorem PcOk.grows {pc : Pc} (h : PcOk C sS3Region s pc) (hg : Grows s s') :
    PcOk C sS3Region s' pc := by
  cases pc with
  | assigned n => exact Nat.le_trans h hg.version
  | started r st | missed r st => exact Nat.lt_of_lt_of_le h hg.nextRequest
  | made r st secretStr key =>
      obtain ⟨hr, hkey, hn⟩ := h
      exact ⟨Nat.lt_of_lt_of_le hr hg.nextRequest, hkey,
        fun n hb => (hn n (hg.before n r hr hb)).grows hg⟩
  | ready r st key =>
      obtain ⟨hr, hn⟩ := h
      exact ⟨Nat.lt_of_lt_of_le hr hg.nextRequest,
        fun n hb => (hn n (hg.before n r hr hb)).grows hg⟩
  | _ => trivial

/-- What holds in every run in time: the cached key is of the secret in force. -/
structure Inv (C : Crypto) (sS3Region : String) (s : State) : Prop where
  secret : s.sSecret = s.secretOf s.version
  cache : s.cache.Holds C s.sSecret sS3Region
  returned : ∀ n, .returned n ∈ s.events → n ≤ s.version
  thread : ∀ t, PcOk C sS3Region s (s.thread t)
  signed : Past (SignedNew C sS3Region s) s.events

/-- The invariant holds of a new connection. -/
theorem Inv.init : Inv C sS3Region {} := ⟨rfl, KeyCache.holds_clear, by simp, fun _ => trivial, .nil⟩

/-- The key of the secret in force is new enough for any request. -/
theorem Inv.newKey (hi : Inv C sS3Region s) {n r : ℕ} {st : SystemTime} {key : Bytes}
    (hkey : key = createS3SigningKey C s.sSecret sS3Region st) (hn : ReturnedBefore s.events n r) :
    NewKey C sS3Region s n st key :=
  ⟨s.version, hi.returned n hn.mem, Nat.le_refl _, by rw [hkey, hi.secret]⟩

/-- One thread moves on, and all the others see a state that has grown. -/
theorem threads_goto {t : ℕ} {pc : Pc} (h : ∀ t, PcOk C sS3Region s (s.thread t))
    (hg : Grows s s') (ht : s'.thread = Function.update s.thread t pc)
    (hpc : PcOk C sS3Region s' pc) : ∀ t, PcOk C sS3Region s' (s'.thread t) := by
  intro t'
  rw [ht]
  by_cases heq : t' = t
  · subst heq
    rw [Function.update_self]
    exact hpc
  · rw [Function.update_of_ne heq]
    exact (h t').grows hg

/-- A step that leaves the secret and the trace alone. -/
theorem Inv.quiet (hi : Inv C sS3Region s) {t : ℕ} {pc : Pc} {c : KeyCache}
    (hc : c.Holds C s.sSecret sS3Region) (hpc : PcOk C sS3Region s pc) :
    Inv C sS3Region { s.goto t pc with cache := c } := by
  have hg : Grows s { s.goto t pc with cache := c } :=
    ⟨Nat.le_refl _, fun _ _ => rfl, Nat.le_refl _, fun _ _ _ h => h⟩
  exact ⟨hi.secret, hc, hi.returned, threads_goto hi.thread hg rfl (hpc.grows hg),
    SignedNew.grows hi.signed hg⟩

/-- **Every step in time keeps the invariant.** A key is stored only while its secret is in force,
and a secret is assigned only while no key is cached; so the cached key is always of the secret that
is there. -/
theorem Inv.step (hi : Inv C sS3Region s) (hC : InTime s a)
    (hs : s.step C sS3Region a = some s') : Inv C sS3Region s' := by
  cases a with
  | setSecret t pszSecret =>
      simp only [State.step] at hs
      split at hs
      · obtain rfl := Option.some.inj hs
        refine hi.quiet hi.cache ?_
        split_ifs
        · trivial
        · exact Nat.le_refl _
      · simp at hs
  | clear t =>
      simp only [State.step] at hs
      split at hs
      · obtain rfl := Option.some.inj hs
        exact hi.quiet KeyCache.holds_clear trivial
      · simp at hs
  | assign t =>
      simp only [State.step] at hs
      split at hs
      · rename_i pszSecret hpc
        obtain rfl := Option.some.inj hs
        have hempty : s.cache.globalS3V4SigningKey = [] := hC
        have hg : Grows s { s.goto t (.assigned (s.version + 1)) with
            sSecret := pszSecret
            version := s.version + 1
            secretOf := Function.update s.secretOf (s.version + 1) pszSecret } :=
          ⟨Nat.le_succ _, fun o ho => Function.update_of_ne (by omega) .., Nat.le_refl _,
            fun _ _ _ h => h⟩
        refine ⟨?_, fun h => absurd hempty h,
          fun n hn => Nat.le_succ_of_le (hi.returned n hn),
          threads_goto hi.thread hg rfl (Nat.le_refl _), SignedNew.grows hi.signed hg⟩
        show pszSecret = Function.update s.secretOf (s.version + 1) pszSecret (s.version + 1)
        rw [Function.update_self]
      · simp at hs
  | setSecretReturn t =>
      simp only [State.step] at hs
      split at hs
      · rename_i n hpc
        obtain rfl := Option.some.inj hs
        have hn : n ≤ s.version := by
          have h := hi.thread t
          rwa [hpc] at h
        have hg : Grows s ((s.goto t .idle).log (.returned n)) :=
          ⟨Nat.le_refl _, fun _ _ => rfl, Nat.le_refl _, fun _ _ _ h => h.of_snoc (by simp)⟩
        refine ⟨hi.secret, hi.cache, fun n' h => ?_, threads_goto hi.thread hg rfl trivial,
          (SignedNew.grows hi.signed hg).snoc trivial⟩
        rcases List.mem_append.1 h with h | h
        · exact hi.returned n' h
        · obtain rfl : n' = n := by simpa using h
          exact hn
      · simp at hs
  | start t st =>
      simp only [State.step] at hs
      split at hs
      · obtain rfl := Option.some.inj hs
        have hg : Grows s ({ s.goto t (.started s.nextRequest st) with
            nextRequest := s.nextRequest + 1 }.log (.started s.nextRequest)) :=
          ⟨Nat.le_refl _, fun _ _ => rfl, Nat.le_succ _,
            fun n r hr h => h.of_snoc (by simp; omega)⟩
        refine ⟨hi.secret, hi.cache, fun n h => ?_,
          threads_goto hi.thread hg rfl (Nat.lt_succ_self _),
          (SignedNew.grows hi.signed hg).snoc trivial⟩
        exact hi.returned n (by simpa [State.log, State.goto] using h)
      · simp at hs
  | lookup t =>
      simp only [State.step] at hs
      split at hs
      · rename_i r st hpc
        obtain rfl := Option.some.inj hs
        have hr : r < s.nextRequest := by
          have h := hi.thread t
          rwa [hpc] at h
        refine hi.quiet hi.cache ?_
        split_ifs with hit
        · exact hr
        · exact ⟨hr, fun n hn => hi.newKey (hi.cache.lookup_eq hit) hn⟩
      · simp at hs
  | create t =>
      simp only [State.step] at hs
      split at hs
      · rename_i r st hpc
        obtain rfl := Option.some.inj hs
        have hr : r < s.nextRequest := by
          have h := hi.thread t
          rwa [hpc] at h
        exact hi.quiet hi.cache ⟨hr, rfl, fun n hn => hi.newKey rfl hn⟩
      · simp at hs
  | store t =>
      simp only [State.step] at hs
      split at hs
      · rename_i r st secretStr key hpc
        obtain rfl := Option.some.inj hs
        have h := hi.thread t
        simp only [InTime, hpc] at h hC
        obtain ⟨hr, rfl, hn⟩ := h
        subst hC
        exact hi.quiet KeyCache.holds_store ⟨hr, hn⟩
      · simp at hs
  | sign t =>
      simp only [State.step] at hs
      split at hs
      · rename_i r st key hpc
        obtain rfl := Option.some.inj hs
        have hg : Grows s ((s.goto t .idle).log (.signed r st key)) :=
          ⟨Nat.le_refl _, fun _ _ => rfl, Nat.le_refl _, fun _ _ _ h => h.of_snoc (by simp)⟩
        have h := hi.thread t
        rw [hpc] at h
        refine ⟨hi.secret, hi.cache, fun n h => ?_, threads_goto hi.thread hg rfl trivial,
          (SignedNew.grows hi.signed hg).snoc fun n hn => (h.2 n hn).grows hg⟩
        exact hi.returned n (by simpa [State.log, State.goto] using h)
      · simp at hs

/-- **A changed secret takes effect**, in every run whose keys are stored in time. A request is
signed with a key of the secret of the last `SetSecret` that had returned when it was started, or of
a later one. -/
theorem signed_new (h : (system C sS3Region).ReachableBy InTime s) :
    Past (SignedNew C sS3Region s) s.events := by
  have hi : Inv C sS3Region s := by
    refine h.invariant (fun s h => ?_) fun s a s' hi hC hs => hi.step hC hs
    obtain rfl : s = {} := h
    exact .init
  exact hi.signed

/-- The day of the requests below. -/
def aDay : SystemTime := { wYear := 2024, wMonth := 5, wDay := 17 }

/-- What the second request is signed with, in a trace in which the second secret was
returned before it. -/
def secondKey : List Event → Option (SystemTime × Bytes)
  | [.returned 1, .started 0, .signed 0 _ _, .returned 2, .started 1, .signed 1 st key] =>
      some (st, key)
  | _ => none

/-- The second request was started after `SetSecret` returned, and signed with this key. -/
theorem secondKey_eq_some {l : List Event} {st : SystemTime} {key : Bytes}
    (h : secondKey l = some (st, key)) :
    ∃ past, l = past ++ [.signed 1 st key] ∧ ReturnedBefore past 2 1 := by
  unfold secondKey at h
  split at h
  · rename_i st₀ key₀ st₁ key₁
    obtain ⟨rfl, rfl⟩ := Prod.mk.inj (Option.some.inj h)
    exact ⟨[.returned 1, .started 0, .signed 0 st₀ key₀, .returned 2, .started 1], rfl,
      [.returned 1, .started 0, .signed 0 st₀ key₀], [], [], rfl⟩
  · simp at h

/-- Thread 1 sets a secret, thread 0 signs with it, thread 1 sets another, and thread 0
signs again. -/
def inTimeRun : List Action :=
  [.setSecret 1 "old", .clear 1, .assign 1, .setSecretReturn 1, .start 0 aDay, .lookup 0, .create 0,
    .store 0, .sign 0, .setSecret 1 "new", .clear 1, .assign 1, .setSecretReturn 1, .start 0 aDay,
    .lookup 0, .create 0, .store 0, .sign 0]

/-- `signed_new` on that run: the second request is signed with the key of the new
secret. -/
theorem signed_new_run : ∃ s : State, (system .standard "us-east-1").Reachable s ∧ ∃ past key,
    s.events = past ++ [.signed 1 aDay key] ∧ ReturnedBefore past 2 1 ∧
      key = createS3SigningKey .standard "new" "us-east-1" aDay := by
  have hrun : (((system .standard "us-east-1").restrict InTime).run inTimeRun {}).map (fun s =>
      (s.version, s.secretOf 2, (secondKey s.events).map Prod.fst)) = some (2, "new", some aDay) := by
    decide +kernel
  obtain ⟨s, hs, heq⟩ := Option.map_eq_some_iff.1 hrun
  simp only [Prod.mk.injEq, Option.map_eq_some_iff] at heq
  obtain ⟨hversion, hnew, ⟨_, key⟩, hkey, rfl⟩ := heq
  have h : (system .standard "us-east-1").ReachableBy InTime s := .run_restrict _ (.init rfl) hs
  obtain ⟨past, hev, hbefore⟩ := secondKey_eq_some hkey
  have hpast := signed_new h
  rw [hev] at hpast
  obtain ⟨o, ho, hle, hkey⟩ := hpast.last 2 hbefore
  obtain rfl : o = 2 := by omega
  exact ⟨s, h.reachable, past, key, hev, hbefore, by rw [hkey, hnew]⟩

/-- Thread 0 makes its key of the first secret and stores it after the second was
assigned, and thread 2 signs with it. -/
def staleRun : List Action :=
  [.setSecret 1 "old", .clear 1, .assign 1, .setSecretReturn 1, .start 0 aDay, .lookup 0, .create 0,
    .setSecret 1 "new", .clear 1, .assign 1, .store 0, .sign 0, .setSecretReturn 1,
    .start 2 aDay, .lookup 2, .sign 2]

/-- **A request started after `SetSecret` has returned is signed with the key of an
older secret.** -/
theorem not_signed_new : ¬∀ s, (system .standard "us-east-1").Reachable s →
    Past (SignedNew .standard "us-east-1" s) s.events := by
  intro h
  have hrun : ((system .standard "us-east-1").run staleRun {}).map (fun s =>
      (s.version, s.secretOf 2, (secondKey s.events).map fun sk =>
        decide (sk.2 = createS3SigningKey .standard "new" "us-east-1" sk.1))) =
      some (2, "new", some false) := by decide +kernel
  obtain ⟨s, hs, heq⟩ := Option.map_eq_some_iff.1 hrun
  simp only [Prod.mk.injEq, Option.map_eq_some_iff, decide_eq_false_iff_not] at heq
  obtain ⟨hversion, hnew, ⟨st, key⟩, hkey, hne⟩ := heq
  have hreach : (system .standard "us-east-1").Reachable s := .run _ (.init rfl) hs
  obtain ⟨past, hev, hbefore⟩ := secondKey_eq_some hkey
  have hpast := h s hreach
  rw [hev] at hpast
  obtain ⟨o, ho, hle, hkey⟩ := hpast.last 2 hbefore
  obtain rfl : o = 2 := by omega
  rw [hnew] at hkey
  exact hne hkey

end Secret
end Sign
end ECSUtil

/-
# Cached providers

`CCngAES_GCM` (`ECSUtil/CngAES_GCM.cpp`): `CreateHash`, `AddHashData`, `GetHashData`, `Generate256BitKey`,
`GenerateRandom`, `SetUseECB`, `SetKey`, `InitAES` and the cache of the algorithm providers.  Each method is
a program of commands (`Branching`), a critical section or a call of BCrypt each, so that the threads can
be interleaved command by command; any call of BCrypt can fail.  An object is in one call at a time.

The objects share the handles of one cache, and an error path that closes a handle closes it for all.
Where nobody else has the handle that is closed, the handles of all objects stay open (`handles_valid`).

That all handles are open (`Valid`) is kept by each command but the one that closes a provider
(`Valid.eval`), which keeps it just where no other field has the handle (`valid_closeProvider_iff`).
A step of a thread is one command, so the same is said of it (`valid_act_iff`), and of runs by
induction.
-/

import ECSUtil.Conn.Text
import ECSUtil.Lib.Branching
import ECSUtil.Lib.StepSystem
import Mathlib.Logic.Function.Basic

namespace ECSUtil
namespace Crypto

/-- A `BCRYPT_ALG_HANDLE`. -/
abbrev Handle := ℕ

/-- The chaining mode of a provider, or of a key. -/
inductive ChainMode
  | cbc
  | gcm
  | ecb
  deriving DecidableEq

/-- Where a handle is kept: in one of the two fields, or in `hRngAlg` of `GenerateRandom`. -/
inductive AlgField
  | hHashAlg
  | hAesAlg
  | hRngAlg
  deriving DecidableEq

/-- `CCngAES_GCM`, with the mode of its key for `hKey`, and `hRngAlg` of the call that it is in. -/
structure CCngAES_GCM where
  bInitialized : Bool := false
  bUseECB : Bool := false
  hAlg : AlgField → Option Handle := fun _ => none
  hKey : Option ChainMode := none

/-- The mode that the object selected. -/
def CCngAES_GCM.selected (c : CCngAES_GCM) : ChainMode := if c.bUseECB then .ecb else .gcm

/-- `ProviderCache` with the modes of the providers, and the objects that are there. -/
structure World where
  providerCache : CString → Option Handle := fun _ => none
  mode : Handle → ChainMode := fun _ => .cbc
  object : ℕ → Option CCngAES_GCM := fun _ => none

/-- What BCrypt answers: an error, or success with the handle of the provider where one is opened. -/
inductive Reply
  | fail
  | ok (hAlg : Handle)
  deriving DecidableEq

/-- What a thread does at once. -/
inductive Command
  /-- The search of `OpenCachedAlgorithmProvider` under the read lock. -/
  | find (field : AlgField) (sAlgName : CString)
  /-- Its second search under the write lock, with `BCryptOpenAlgorithmProvider`. -/
  | openProvider (field : AlgField) (sAlgName : CString)
  /-- The handle is forgotten. -/
  | forget (field : AlgField)
  /-- `CloseCachedAlgorithmProvider`, where there is a handle; the field is set to null behind it, before
  anybody can read it. -/
  | closeProvider (field : AlgField)
  /-- A call of BCrypt that changes no handle and no mode. -/
  | bcrypt
  /-- `if (bInitialized)`. -/
  | testInitialized
  /-- `bInitialized = true`. -/
  | setInitialized
  /-- `if (bUseECB)`. -/
  | testUseECB
  /-- `bUseECB = true`. -/
  | setUseECB
  /-- `BCryptSetProperty` of the chaining mode. -/
  | setMode (mode : ChainMode)
  /-- `BCryptDestroyKey`, where there is a key. -/
  | destroyKey
  /-- `BCryptGenerateSymmetricKey`. -/
  | generateKey

namespace World

/-- An object is changed. -/
def modify (w : World) (o : ℕ) (f : CCngAES_GCM → CCngAES_GCM) : World :=
  { w with object := Function.update w.object o ((w.object o).map f) }

/-- A handle of an object is set. -/
def setAlg (w : World) (o : ℕ) (field : AlgField) (h : Option Handle) : World :=
  w.modify o fun c => { c with hAlg := Function.update c.hAlg field h }

/-- A handle of an object. -/
def alg (w : World) (o : ℕ) (field : AlgField) : Option Handle := (w.object o).bind (·.hAlg field)

/-- `CloseCachedAlgorithmProvider`: every entry of the cache with the handle is erased. -/
def closeCachedAlgorithmProvider (w : World) (hAlg : Handle) : World :=
  { w with providerCache := fun sAlgName =>
      if w.providerCache sAlgName = some hAlg then none else w.providerCache sAlgName }

/-- What a command of the call that an object is in does, and whether it succeeds. -/
def eval (o : ℕ) : Command → Reply → World → Bool × World
  | .find field sAlgName, _, w =>
      match w.providerCache sAlgName with
      | some hAlg => (true, w.setAlg o field (some hAlg))
      | none => (false, w)
  | .openProvider field sAlgName, reply, w =>
      match w.providerCache sAlgName, reply with
      | some hAlg, _ => (true, w.setAlg o field (some hAlg))
      | none, .fail => (false, w)
      | none, .ok hAlg =>
          (true, { w with
            providerCache := Function.update w.providerCache sAlgName (some hAlg)
            mode := Function.update w.mode hAlg .cbc }.setAlg o field (some hAlg))
  | .forget field, _, w => (true, w.setAlg o field none)
  | .closeProvider field, _, w =>
      match w.alg o field with
      | some hAlg => (true, (w.closeCachedAlgorithmProvider hAlg).setAlg o field none)
      | none => (true, w)
  | .bcrypt, reply, w => (reply ≠ .fail, w)
  | .testInitialized, _, w => ((w.object o).any (·.bInitialized), w)
  | .setInitialized, _, w => (true, w.modify o fun c => { c with bInitialized := true })
  | .testUseECB, _, w => ((w.object o).any (·.bUseECB), w)
  | .setUseECB, _, w => (true, w.modify o fun c => { c with bUseECB := true })
  | .setMode mode, reply, w =>
      match w.alg o .hAesAlg, reply with
      | some hAlg, .ok _ => (true, { w with mode := Function.update w.mode hAlg mode })
      | _, _ => (false, w)
  | .destroyKey, reply, w =>
      match (w.object o).bind (·.hKey), reply with
      | none, _ => (true, w)
      | some _, .ok _ => (true, w.modify o fun c => { c with hKey := none })
      | some _, .fail => (false, w)
  | .generateKey, reply, w =>
      match w.alg o .hAesAlg, reply with
      | some hAlg, .ok _ => (true, w.modify o fun c => { c with hKey := some (w.mode hAlg) })
      | _, _ => (false, w)

end World

/-- A program of the commands above. -/
abbrev Program := Branching Command

namespace Program

open Branching (done act)

/-- A command whose outcome is not looked at. -/
def andThen (c : Command) (rest : Program) : Program := act c rest rest

/-- `OpenCachedAlgorithmProvider`. -/
def openCachedAlgorithmProvider (field : AlgField) (pszAlgName : CString) (bHMAC : Bool)
    (ok fail : Program) : Program :=
  let sAlgName := if bHMAC then pszAlgName ++ ['!'] else pszAlgName
  act (.find field sAlgName) ok (act (.openProvider field sAlgName) ok fail)

/-- `CleanUpHash`. -/
def cleanUpHash (rest : Program) : Program := andThen (.forget .hHashAlg) rest

/-- `CreateHash`; of the secret, whether there is one and its length. -/
def createHash (hashType : CString) (pbSecret : Bool) (cbSecret : ℕ) (ok fail : Program) : Program :=
  cleanUpHash <|
    openCachedAlgorithmProvider .hHashAlg hashType (pbSecret && cbSecret != 0)
      (act .bcrypt (act .bcrypt ok fail) fail) fail

/-- `AddHashData`. -/
def addHashData (ok fail : Program) : Program := act .bcrypt ok fail

/-- The `catch` that closes the provider. -/
def catchClose (field : AlgField) (rest : Program) : Program := andThen (.closeProvider field) rest

/-- `GetHashData`. -/
def getHashData (bFinish : Bool) (ok fail : Program) : Program :=
  let handler := catchClose .hHashAlg (if bFinish then fail else cleanUpHash fail)
  act .bcrypt
    (if bFinish then act .bcrypt (cleanUpHash ok) handler
      else act .bcrypt (act .bcrypt (act .bcrypt (andThen .bcrypt ok) handler) handler) handler)
    handler

/-- `BCRYPT_SHA256_ALGORITHM`. -/
def sha256 : CString := "SHA256".toList

/-- The loop of `Generate256BitKey`, for the rounds that are left. -/
def hashRounds (handler : Program) : ℕ → Program
  | 0 => done
  | n + 1 =>
      createHash sha256 false 0
        (addHashData (getHashData true (hashRounds handler n) handler) handler) handler

/-- `Generate256BitKey`. -/
def generate256BitKey (uIteration : ℕ) : Program :=
  let handler := catchClose .hHashAlg done
  createHash sha256 false 0
    (addHashData (addHashData (getHashData true (hashRounds handler uIteration) handler) handler) handler)
    handler

/-- `GenerateRandom`. -/
def generateRandom : Program :=
  let finish := andThen (.forget .hRngAlg) done
  let handler := catchClose .hRngAlg finish
  andThen (.forget .hRngAlg) <|
    openCachedAlgorithmProvider .hRngAlg "RNG".toList false (act .bcrypt finish handler) handler

/-- `InitAES`. -/
def initAES (ok fail : Program) : Program :=
  let initialized := andThen .setInitialized ok
  act .testInitialized ok <|
    openCachedAlgorithmProvider .hAesAlg "AES".toList false
      (act .bcrypt
        (act .bcrypt
          (act .testUseECB
            (act (.setMode .ecb) initialized fail)
            (act (.setMode .gcm) (act .bcrypt initialized fail) fail))
          fail)
        fail)
      fail

/-- `SetKey`. -/
def setKey (ksize : ℤ) : Program :=
  initAES
    (initAES
      (act .destroyKey
        (if ksize = 16 ∨ ksize = 24 ∨ ksize = 32 then act .generateKey done done else done)
        done)
      done)
    done

end Program

/-- The methods. -/
inductive Method
  | createHash (hashType : CString) (pbSecret : Bool) (cbSecret : ℕ)
  | addHashData
  | getHashData (bFinish : Bool)
  | generate256BitKey (uIteration : ℕ)
  | generateRandom
  | setUseECB
  | setKey (ksize : ℤ)

/-- What a method does. -/
def Method.program : Method → Program
  | createHash hashType pbSecret cbSecret => Program.createHash hashType pbSecret cbSecret .done .done
  | addHashData => Program.addHashData .done .done
  | getHashData bFinish => Program.getHashData bFinish .done .done
  | generate256BitKey uIteration => Program.generate256BitKey uIteration
  | generateRandom => Program.generateRandom
  | setUseECB => Program.andThen .setUseECB .done
  | setKey ksize => Program.setKey ksize

/-- The world, and what is left of the call that an object is in. -/
structure State where
  world : World := {}
  running : ℕ → Program := fun _ => .done

inductive Action
  | construct (o : ℕ)
  /-- A method is called. -/
  | call (o : ℕ) (m : Method)
  /-- The next command of a call. -/
  | step (o : ℕ) (reply : Reply)
  /-- `~CCngAES_GCM`. -/
  | destroy (o : ℕ)

namespace State

/-- What an action does. -/
def act (s : State) : Action → Option State
  | .construct o =>
      match s.world.object o with
      | none => some { s with world.object := Function.update s.world.object o (some {}) }
      | some _ => none
  | .call o m =>
      match s.world.object o, s.running o with
      | some _, .done => some { s with running := Function.update s.running o m.program }
      | _, _ => none
  | .step o reply =>
      ((s.running o).next (World.eval o) reply s.world).map fun r =>
        { world := r.2, running := Function.update s.running o r.1 }
  | .destroy o =>
      match s.world.object o, s.running o with
      | some _, .done => some { s with world.object := Function.update s.world.object o none }
      | _, _ => none

/-- Any objects, none at first. -/
def system : StepSystem State Action where
  init s := s = {}
  step := act

end State

namespace World

/-- The handle is in `ProviderCache`. -/
def IsOpen (w : World) (hAlg : Handle) : Prop := ∃ sAlgName, w.providerCache sAlgName = some hAlg

/-- **The handles are valid**: each `hHashAlg` and `hAesAlg` of an object is null or open. -/
def Valid (w : World) : Prop :=
  ∀ o field hAlg, field ≠ .hRngAlg → w.alg o field = some hAlg → w.IsOpen hAlg

/-- No other field of an object has the handle. -/
def Alone (w : World) (o : ℕ) (field : AlgField) : Prop :=
  ∀ hAlg, w.alg o field = some hAlg → ∀ o' field', field' ≠ .hRngAlg →
    w.alg o' field' = some hAlg → o' = o ∧ field' = field

variable {w w' : World} {o o' : ℕ} {field field' : AlgField} {hAlg : Handle}

/-- A change of an object that leaves its handles leaves the handles of all. -/
theorem alg_modify {f : CCngAES_GCM → CCngAES_GCM} (hf : ∀ c, (f c).hAlg = c.hAlg) :
    (w.modify o f).alg o' field' = w.alg o' field' := by
  unfold alg modify
  dsimp only
  by_cases h : o' = o
  · subst h
    rw [Function.update_self]
    cases w.object o' with
    | none => rfl
    | some c => exact congrFun (hf c) field'
  · rw [Function.update_of_ne h]

/-- A handle that is set changes no other one. -/
theorem alg_setAlg_ne {v : Option Handle} (h : ¬ (o' = o ∧ field' = field)) :
    (w.setAlg o field v).alg o' field' = w.alg o' field' := by
  unfold setAlg alg modify
  dsimp only
  by_cases ho : o' = o
  · subst ho
    rw [Function.update_self]
    cases w.object o' with
    | none => rfl
    | some c =>
        show Function.update c.hAlg field v field' = c.hAlg field'
        exact Function.update_of_ne (fun hfield => h ⟨rfl, hfield⟩) ..
  · rw [Function.update_of_ne ho]

/-- A handle is the one that it was set to. -/
theorem alg_setAlg_self {v : Option Handle} (h : (w.setAlg o field v).alg o field = some hAlg) :
    v = some hAlg := by
  unfold setAlg alg modify at h
  dsimp only at h
  rw [Function.update_self] at h
  cases hobject : w.object o with
  | none => simp [hobject] at h
  | some c =>
      rw [hobject] at h
      have h : Function.update c.hAlg field v field = some hAlg := h
      rwa [Function.update_self] at h

/-- What is open stays open, and a handle that is new is open. -/
theorem Valid.of (h : Valid w)
    (halg : ∀ o field hAlg, field ≠ .hRngAlg → w'.alg o field = some hAlg →
      w.alg o field = some hAlg ∧ (w.IsOpen hAlg → w'.IsOpen hAlg) ∨ w'.IsOpen hAlg) : Valid w' := by
  intro o field hAlg hfield hset
  rcases halg o field hAlg hfield hset with ⟨hold, hopen⟩ | hopen
  · exact hopen (h o field hAlg hfield hold)
  · exact hopen

/-- The handles stay valid where an object is changed in something else. -/
theorem Valid.modify {f : CCngAES_GCM → CCngAES_GCM} (h : Valid w)
    (hf : ∀ c, (f c).hAlg = c.hAlg) : Valid (w.modify o f) :=
  h.of fun _ _ _ _ hset => .inl ⟨(alg_modify hf).symm.trans hset, fun hopen => hopen⟩

/-- A field is set to null, or to a handle that is open. -/
theorem Valid.setAlg {v : Option Handle} (h : Valid w) (hv : ∀ hAlg, v = some hAlg → w.IsOpen hAlg) :
    Valid (w.setAlg o field v) := by
  refine h.of fun o' field' hAlg hfield hset => ?_
  by_cases hsame : o' = o ∧ field' = field
  · obtain ⟨rfl, rfl⟩ := hsame
    exact .inr (hv hAlg (alg_setAlg_self hset))
  · exact .inl ⟨(alg_setAlg_ne hsame).symm.trans hset, fun hopen => hopen⟩

/-- A provider is opened and put into the cache. -/
theorem Valid.insert (h : Valid w) {sAlgName : CString} (hnew : w.providerCache sAlgName = none) :
    Valid { w with
      providerCache := Function.update w.providerCache sAlgName (some hAlg)
      mode := Function.update w.mode hAlg .cbc } := by
  refine h.of fun o field hAlg hfield hset => .inl ⟨hset, ?_⟩
  rintro ⟨name, hname⟩
  refine ⟨name, ?_⟩
  show Function.update w.providerCache sAlgName _ name = _
  rw [Function.update_of_ne, hname]
  rintro rfl
  exact absurd (hnew.symm.trans hname) (by simp)

/-- An object is made or destroyed: there is none with a handle in its place. -/
theorem Valid.replace (h : Valid w) {c : Option CCngAES_GCM}
    (hc : ∀ field, c.bind (·.hAlg field) = none) :
    Valid { w with object := Function.update w.object o c } := by
  refine h.of fun o' field hAlg _ hset => .inl ⟨?_, fun hopen => hopen⟩
  have hset : (Function.update w.object o c o').bind (·.hAlg field) = some hAlg := hset
  by_cases ho : o' = o
  · subst ho
    rw [Function.update_self] at hset
    exact absurd ((hc field).symm.trans hset) (by simp)
  · rwa [Function.update_of_ne ho] at hset

/-- Where a handle is closed, the other ones stay open. -/
theorem isOpen_close {other : Handle} :
    (w.closeCachedAlgorithmProvider hAlg).IsOpen other ↔ w.IsOpen other ∧ other ≠ hAlg := by
  unfold closeCachedAlgorithmProvider IsOpen
  dsimp only
  constructor
  · rintro ⟨name, hname⟩
    split_ifs at hname with hclosed
    refine ⟨⟨name, hname⟩, ?_⟩
    rintro rfl
    exact hclosed hname
  · rintro ⟨⟨name, hname⟩, hne⟩
    refine ⟨name, ?_⟩
    rw [if_neg (fun h => hne (Option.some.inj (hname.symm.trans h))), hname]

/-- **A provider is closed**: the handles stay valid just where no other field has this one. The
handle is taken out of the cache and closed, while an object that shares it still has it in its
field. -/
theorem valid_close_iff (h : Valid w) (hset : w.alg o field = some hAlg) :
    Valid ((w.closeCachedAlgorithmProvider hAlg).setAlg o field none) ↔ w.Alone o field := by
  constructor
  · intro hvalid other hother o' field' hfield' halg
    obtain rfl := Option.some.inj (hset.symm.trans hother)
    by_contra hne
    have hstill : ((w.closeCachedAlgorithmProvider hAlg).setAlg o field none).alg o' field' =
        some hAlg := (alg_setAlg_ne hne).trans halg
    exact (isOpen_close.1 (hvalid o' field' hAlg hfield' hstill)).2 rfl
  · intro halone
    refine h.of fun o' field' other hfield' hother => ?_
    by_cases hsame : o' = o ∧ field' = field
    · obtain ⟨rfl, rfl⟩ := hsame
      exact absurd (alg_setAlg_self hother) (by simp)
    · have hold : w.alg o' field' = some other := (alg_setAlg_ne hsame).symm.trans hother
      refine .inl ⟨hold, fun hopen => isOpen_close.2 ⟨hopen, ?_⟩⟩
      rintro rfl
      exact hsame (halone other hset o' field' hfield' hold)

/-- **One command**, other than one that closes a provider. A provider that is opened or found in
the cache is open, and the other commands change no handle. -/
theorem Valid.eval (h : Valid w) {c : Command} (hc : ∀ field, c ≠ .closeProvider field) (reply : Reply) :
    Valid (World.eval o c reply w).2 := by
  cases c with
  | find field sAlgName =>
      simp only [World.eval]
      split
      · rename_i hAlg hfound
        exact h.setAlg fun _ hsome => Option.some.inj hsome ▸ ⟨sAlgName, hfound⟩
      · exact h
  | openProvider field sAlgName =>
      simp only [World.eval]
      split
      · rename_i hAlg hfound
        exact h.setAlg fun _ hsome => Option.some.inj hsome ▸ ⟨sAlgName, hfound⟩
      · exact h
      · rename_i hAlg hnew
        refine (h.insert hnew).setAlg fun _ hsome => Option.some.inj hsome ▸ ⟨sAlgName, ?_⟩
        exact Function.update_self ..
  | forget field => exact h.setAlg fun _ hsome => absurd hsome (by simp)
  | closeProvider field => exact absurd rfl (hc field)
  | bcrypt => exact h
  | testInitialized => exact h
  | setInitialized => exact h.modify fun _ => rfl
  | testUseECB => exact h
  | setUseECB => exact h.modify fun _ => rfl
  | setMode mode =>
      simp only [World.eval]
      split
      · exact h.of fun _ _ _ _ hset => .inl ⟨hset, fun hopen => hopen⟩
      · exact h
  | destroyKey =>
      simp only [World.eval]
      split
      · exact h
      · exact h.modify fun _ => rfl
      · exact h
  | generateKey =>
      simp only [World.eval]
      split
      · exact h.modify fun _ => rfl
      · exact h

/-- **The command that closes a provider** keeps the handles valid just where no other field has its
handle. -/
theorem valid_closeProvider_iff (h : Valid w) (reply : Reply) :
    Valid (World.eval o (.closeProvider field) reply w).2 ↔ w.Alone o field := by
  simp only [World.eval]
  split
  · rename_i hAlg hset
    exact valid_close_iff h hset
  · rename_i hnull
    exact iff_of_true h fun hAlg hset => absurd (hnull.symm.trans hset) (by simp)

end World

namespace State

/-- The field whose handle a step closes. -/
def closing (s : State) : Action → Option (ℕ × AlgField)
  | .step o _ =>
      match s.running o with
      | .act (.closeProvider field) _ _ => some (o, field)
      | _ => none
  | _ => none

/-- A handle is closed only where no other field of an object has it. -/
def ClosesAlone (s : State) (a : Action) : Prop :=
  ∀ o field, s.closing a = some (o, field) → s.world.Alone o field

variable {s s' : State} {a : Action}

/-- A step that closes nothing closes nothing that others have. -/
theorem closesAlone_of_none (h : s.closing a = none) : ClosesAlone s a :=
  fun _ _ hclosing => absurd (h.symm.trans hclosing) (by simp)

/-- **One step** keeps the handles valid just where it closes a handle that no other field has. -/
theorem valid_act_iff (h : s.world.Valid) (hstep : s.act a = some s') :
    s'.world.Valid ↔ ClosesAlone s a := by
  cases a with
  | construct o =>
      simp only [act] at hstep
      split at hstep
      · obtain rfl := Option.some.inj hstep
        exact iff_of_true (h.replace fun _ => rfl) (closesAlone_of_none rfl)
      · exact absurd hstep (by simp)
  | call o m =>
      simp only [act] at hstep
      split at hstep
      · exact Option.some.inj hstep ▸ iff_of_true h (closesAlone_of_none rfl)
      · exact absurd hstep (by simp)
  | step o reply =>
      obtain ⟨⟨rest, w⟩, hnext, rfl⟩ := Option.map_eq_some_iff.1 hstep
      cases hrunning : s.running o with
      | done =>
          rw [hrunning] at hnext
          exact absurd hnext (by simp [Branching.next])
      | act c ok fail =>
          rw [hrunning] at hnext
          have hw : w = (World.eval o c reply s.world).2 :=
            (congrArg Prod.snd (Option.some.inj hnext)).symm
          subst hw
          by_cases hclose : ∃ field, c = .closeProvider field
          · obtain ⟨field, rfl⟩ := hclose
            have hclosing : s.closing (.step o reply) = some (o, field) := by
              simp only [closing, hrunning]
            refine (World.valid_closeProvider_iff h reply).trans ⟨fun halone o' field' hsome => ?_,
              fun halone => halone o field hclosing⟩
            obtain ⟨rfl, rfl⟩ := Prod.mk.inj (Option.some.inj (hclosing.symm.trans hsome))
            exact halone
          · have hclosing : s.closing (.step o reply) = none := by
              simp only [closing, hrunning]
              split
              · rename_i field _ _ heq
                exact absurd ⟨field, (Branching.act.inj heq).1⟩ hclose
              · rfl
            exact iff_of_true (h.eval (fun field hfield => hclose ⟨field, hfield⟩) reply)
              (closesAlone_of_none hclosing)
  | destroy o =>
      simp only [act] at hstep
      split at hstep
      · obtain rfl := Option.some.inj hstep
        exact iff_of_true (h.replace fun _ => rfl) (closesAlone_of_none rfl)
      · exact absurd hstep (by simp)

/-- The handles are valid in each state that such steps lead to. -/
theorem valid_reachable (h : system.ReachableBy ClosesAlone s) : s.world.Valid := by
  refine h.invariant ?_ fun s a s' hs halone hstep => (valid_act_iff hs hstep).2 halone
  rintro s rfl o field hAlg _ hset
  exact absurd hset (by simp [World.alg])

/-- **The handles of all objects stay open** as long as an error path closes a handle only where no other
object has it; the step that closes one that another object has breaks this. -/
theorem handles_valid (h : system.ReachableBy ClosesAlone s) :
    s.world.Valid ∧ ∀ a s', s.act a = some s' → (s'.world.Valid ↔ ClosesAlone s a) :=
  ⟨valid_reachable h, fun _ _ hstep => valid_act_iff (valid_reachable h) hstep⟩

/-- Two objects create a hash: the first opens the provider, the second finds it. -/
def twoHashes : List Action :=
  [.construct 0, .call 0 (.createHash Program.sha256 false 0), .step 0 (.ok 0), .step 0 (.ok 0),
    .step 0 (.ok 5), .step 0 (.ok 0), .step 0 (.ok 0),
    .construct 1, .call 1 (.createHash Program.sha256 false 0), .step 1 (.ok 0), .step 1 (.ok 0),
    .step 1 (.ok 0), .step 1 (.ok 0)]

/-- Object 0 then opens a provider to generate a random number, which fails. -/
def randomFails : List Action :=
  [.call 0 .generateRandom, .step 0 (.ok 0), .step 0 (.ok 0), .step 0 (.ok 9), .step 0 .fail]

/-- Two objects have a hash of the same provider, and another provider is closed by the one object that
has it. -/
theorem handles_valid_two : ∃ s s',
    (system.restrict fun s a => s.closing a = none).run (twoHashes ++ randomFails) {} = some s ∧
    s.closing (.step 0 (.ok 0)) = some (0, .hRngAlg) ∧ s.act (.step 0 (.ok 0)) = some s' ∧
    ¬s'.world.IsOpen 9 ∧ s'.world.alg 0 .hHashAlg = some 5 ∧ s'.world.alg 1 .hHashAlg = some 5 ∧
    s'.world.Valid := by
  obtain ⟨s, s', hrun, hclosing, hstep, hclosed, hzero, hone, hrng, hhash, hothers⟩ : ∃ s s',
      (system.restrict fun s a => s.closing a = none).run (twoHashes ++ randomFails) {} = some s ∧
      s.closing (.step 0 (.ok 0)) = some (0, .hRngAlg) ∧ s.act (.step 0 (.ok 0)) = some s' ∧
      ¬s'.world.IsOpen 9 ∧ s'.world.alg 0 .hHashAlg = some 5 ∧ s'.world.alg 1 .hHashAlg = some 5 ∧
      s.world.alg 0 .hRngAlg = some 9 ∧
      (∀ o < 2, s.world.alg o .hHashAlg = some 5 ∧ s.world.alg o .hAesAlg = none) ∧
      ∀ o field, s.world.alg (o + 2) field = none :=
    ⟨_, _, rfl, rfl, rfl, fun hopen => (World.isOpen_close.1 hopen).2 rfl, rfl, rfl, rfl,
      Nat.forall_lt_succ_right.2 ⟨Nat.forall_lt_succ_right.2 ⟨by simp, rfl, rfl⟩, rfl, rfl⟩,
      fun _ _ => rfl⟩
  have hreach : system.ReachableBy ClosesAlone s :=
    (StepSystem.ReachableBy.run_restrict _ (.init rfl) hrun).mono fun _ _ => closesAlone_of_none
  refine ⟨s, s', hrun, hclosing, hstep, hclosed, hzero, hone,
    ((handles_valid hreach).2 _ s' hstep).2 fun o field hsome => ?_⟩
  obtain ⟨rfl, rfl⟩ := Prod.mk.inj (Option.some.inj (hclosing.symm.trans hsome))
  intro hAlg hset o' field' hfield' hother
  obtain rfl : 9 = hAlg := Option.some.inj (hrng.symm.trans hset)
  match o', field' with
  | _, .hRngAlg => exact absurd rfl hfield'
  | 0, .hHashAlg => exact absurd ((hhash 0 (by decide)).1.symm.trans hother) (by decide)
  | 0, .hAesAlg => exact absurd ((hhash 0 (by decide)).2.symm.trans hother) (by decide)
  | 1, .hHashAlg => exact absurd ((hhash 1 (by decide)).1.symm.trans hother) (by decide)
  | 1, .hAesAlg => exact absurd ((hhash 1 (by decide)).2.symm.trans hother) (by decide)
  | n + 2, field' => exact absurd ((hothers n field').symm.trans hother) (by decide)

/-- `BCryptGetProperty` fails for the second: its `GetHashData` closes the provider of the first.
The cache gave both objects the same handle. -/
theorem getHashData_closes : ∃ s, system.Reachable s ∧ s.world.alg 0 .hHashAlg = some 5 ∧
    ¬ s.world.IsOpen 5 :=
  ⟨_, .run (twoHashes ++ [.call 1 (.getHashData true), .step 1 .fail, .step 1 .fail]) (.init rfl) rfl, rfl,
    fun hopen => (World.isOpen_close.1 hopen).2 rfl⟩

end State

end Crypto
end ECSUtil

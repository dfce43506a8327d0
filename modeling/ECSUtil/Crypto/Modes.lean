/-
# Chaining modes

`SetUseECB` and `SetKey` (`ECSUtil/CngAES_GCM.cpp`) of several objects, one call after the other.  A key gets
the mode that its provider has when it is generated; all objects share the provider, and an object sets
its mode once, at its first `SetKey`.

Each key has the mode that its object selected (`keys_selected`) as long as no object selects another mode
when it has a key, and none is keyed again when another object has changed the mode of the provider.

The invariant says that each key has the mode that its object selected (`Isolated`).  While an
object has its key made, the provider has its mode (`Ready`), as the calls come one after the other:
so `InitAES` and `SetKey` keep the invariant, whatever BCrypt answers (`Isolated.initAES`,
`Isolated.setKey`), and so does every action that keeps to the condition (`Isolated.act`).
-/

import ECSUtil.Crypto.Providers

namespace ECSUtil
namespace Crypto

open Branching (exec exec_act)

/-- What is done with the objects. -/
inductive KeyAction
  | construct (o : ℕ)
  | setUseECB (o : ℕ)
  /-- `SetKey`, with what BCrypt answers. -/
  | setKey (o : ℕ) (ksize : ℤ) (reply : ℕ → Reply)
  | destroy (o : ℕ)

namespace World

/-- A method is called and returns, or throws. -/
def call (w : World) (o : ℕ) (m : Method) (reply : ℕ → Reply) : Option World :=
  (w.object o).map fun _ => exec (eval o) m.program reply w

/-- What an action does. -/
def act (w : World) : KeyAction → Option World
  | .construct o =>
      match w.object o with
      | none => some { w with object := Function.update w.object o (some {}) }
      | some _ => none
  | .setUseECB o => w.call o .setUseECB fun _ => .fail
  | .setKey o ksize reply => w.call o (.setKey ksize) reply
  | .destroy o => (w.object o).map fun _ => { w with object := Function.update w.object o none }

/-- Any objects, none at first. -/
def system : StepSystem World KeyAction where
  init w := w = {}
  step := act

/-- Each key has the mode that its object selected. -/
def Isolated (w : World) : Prop :=
  ∀ o, ∀ c ∈ w.object o, ∀ mode ∈ c.hKey, mode = c.selected

/-- The provider of an object has the mode that the object selected. -/
def Ready (w : World) (o : ℕ) : Prop :=
  ∀ c ∈ w.object o, ∀ hAlg ∈ c.hAlg .hAesAlg, w.mode hAlg = c.selected

/-- The mode is selected before there is a key, and an object that is initialized is keyed only where the
provider has its mode. -/
def KeepsModes (w : World) : KeyAction → Prop
  | .setUseECB o => ∀ c ∈ w.object o, c.hKey = none ∨ c.bUseECB = true
  | .setKey o _ _ => ∀ c ∈ w.object o, c.bInitialized = true → w.Ready o
  | _ => True

variable {w w' : World} {o : ℕ} {reply : ℕ → Reply} {ok fail : Program} {I : World → Prop}

/-- An object after a change of one. -/
theorem mem_modify {f : CCngAES_GCM → CCngAES_GCM} {o' : ℕ} {c' : CCngAES_GCM}
    (h : c' ∈ (w.modify o f).object o') :
    (∃ c ∈ w.object o, o' = o ∧ c' = f c) ∨ o' ≠ o ∧ c' ∈ w.object o' := by
  unfold modify at h
  dsimp only at h
  by_cases ho : o' = o
  · subst ho
    rw [Function.update_self] at h
    obtain ⟨c, hc, rfl⟩ := Option.map_eq_some_iff.1 h
    exact .inl ⟨c, hc, rfl, rfl⟩
  · rw [Function.update_of_ne ho] at h
    exact .inr ⟨ho, h⟩

/-- A change of an object that selects no mode, and gives it no key but one of its mode. -/
theorem Isolated.modify {f : CCngAES_GCM → CCngAES_GCM} (h : Isolated w)
    (hf : ∀ c ∈ w.object o, (∀ mode ∈ c.hKey, mode = c.selected) →
      ∀ mode ∈ (f c).hKey, mode = (f c).selected) : Isolated (w.modify o f) := by
  intro o' c' hc' mode hmode
  rcases mem_modify hc' with ⟨c, hc, rfl, rfl⟩ | ⟨-, hc'⟩
  · exact hf c hc (h o' c hc) mode hmode
  · exact h o' c' hc' mode hmode

/-- An object is made or destroyed: there is none with a key in its place. -/
theorem Isolated.replace (h : Isolated w) {c : Option CCngAES_GCM} (hc : ∀ c' ∈ c, c'.hKey = none) :
    Isolated { w with object := Function.update w.object o c } := by
  intro o' c' hc' mode hmode
  have hc' : Function.update w.object o c o' = some c' := hc'
  by_cases ho : o' = o
  · subst ho
    rw [Function.update_self] at hc'
    exact absurd (hc c' hc' ▸ hmode) (Option.not_mem_none mode)
  · rw [Function.update_of_ne ho] at hc'
    exact h o' c' hc' mode hmode

/-- The commands that neither select a mode nor generate a key. -/
def Harmless : Command → Prop
  | .setUseECB | .generateKey => False
  | _ => True

/-- **One command.** It selects no mode and generates no key, so each key has the mode that it had. -/
theorem Isolated.eval (h : Isolated w) {c : Command} (hc : Harmless c) (r : Reply) :
    Isolated (World.eval o c r w).2 := by
  have hset : ∀ (w : World) field v, Isolated w → Isolated (w.setAlg o field v) := fun w field v h =>
    h.modify fun c _ hkey => hkey
  cases c with
  | find field sAlgName =>
      simp only [World.eval]
      split
      · exact hset _ _ _ h
      · exact h
  | openProvider field sAlgName =>
      simp only [World.eval]
      split
      · exact hset _ _ _ h
      · exact h
      · exact hset _ _ _ h
  | forget field => exact hset _ _ _ h
  | closeProvider field =>
      simp only [World.eval]
      split
      · exact hset _ _ _ h
      · exact h
  | bcrypt => exact h
  | testInitialized => exact h
  | setInitialized => exact h.modify fun c _ hkey => hkey
  | testUseECB => exact h
  | setUseECB => exact hc.elim
  | setMode mode =>
      simp only [World.eval]
      split
      · exact h
      · exact h
  | destroyKey =>
      simp only [World.eval]
      split
      · exact h
      · exact h.modify fun c _ _ mode hmode => absurd hmode (Option.not_mem_none mode)
      · exact h
  | generateKey => exact hc.elim

/-- A command of a program, and what is left of it. -/
theorem Isolated.exec_act (h : Isolated w) {c : Command} (hc : Harmless c)
    (hok : ∀ w', Isolated w' → World.eval o c (reply 0) w = (true, w') →
      I (ok.exec (World.eval o) (fun n => reply (n + 1)) w'))
    (hfail : ∀ w', Isolated w' → World.eval o c (reply 0) w = (false, w') →
      I (fail.exec (World.eval o) (fun n => reply (n + 1)) w')) :
    I ((Branching.act c ok fail).exec (World.eval o) reply w) := by
  have heval := h.eval (o := o) hc (reply 0)
  refine Branching.exec_act (fun w' hw' => hok w' ?_ hw') fun w' hw' => hfail w' ?_ hw'
  · rwa [hw'] at heval
  · rwa [hw'] at heval

/-- The mode that is set is the one that the object selected. -/
theorem ready_setMode {mode : ChainMode} {r : Reply} (hmode : ∀ c ∈ w.object o, mode = c.selected)
    (h : World.eval o (.setMode mode) r w = (true, w')) : w'.Ready o := by
  simp only [World.eval] at h
  split at h
  · rename_i hAlg _ halg
    obtain rfl := (Prod.mk.inj h).2
    intro c hc hAlg' hAlg'_mem
    have hsame : w.alg o .hAesAlg = some hAlg' := by
      unfold World.alg
      rw [show w.object o = some c from hc]
      exact hAlg'_mem
    obtain rfl := Option.some.inj (halg.symm.trans hsame)
    exact (Function.update_self ..).trans (hmode c hc)
  · exact absurd (Prod.mk.inj h).1 Bool.false_ne_true

/-- A change of an object that selects no mode and sets no handle. -/
theorem Ready.modify {f : CCngAES_GCM → CCngAES_GCM} (h : w.Ready o)
    (hf : ∀ c, (f c).hAlg = c.hAlg ∧ (f c).selected = c.selected) : (w.modify o f).Ready o := by
  intro c' hc' hAlg hmem
  rcases mem_modify hc' with ⟨c, hc, -, rfl⟩ | ⟨hne, -⟩
  · rw [(hf c).2]
    exact h c hc hAlg ((hf c).1 ▸ hmem)
  · exact absurd rfl hne

/-- **`InitAES`**: where it returns, the provider has the mode of the object. The rule is stated for
what is done after it, in both cases, as `InitAES` is the head of several programs. -/
theorem Isolated.initAES (h : Isolated w)
    (hready : ∀ c ∈ w.object o, c.bInitialized = true → w.Ready o)
    (hok : ∀ w' reply', Isolated w' → w'.Ready o → I (ok.exec (World.eval o) reply' w'))
    (hfail : ∀ w' reply', Isolated w' → I (fail.exec (World.eval o) reply' w')) :
    I ((Program.initAES ok fail).exec (World.eval o) reply w) := by
  have hdone : ∀ w reply, Isolated w → w.Ready o →
      I ((Program.andThen .setInitialized ok).exec (World.eval o) reply w) := fun w reply h hready =>
    h.exec_act trivial
      (fun w' h' heval => hok w' _ h' ((Prod.mk.inj heval).2 ▸ hready.modify fun _ => ⟨rfl, rfl⟩))
      fun w' _ heval => absurd (Prod.mk.inj heval).1.symm Bool.false_ne_true
  have hopened : ∀ w reply, Isolated w →
      I ((Branching.act .bcrypt
        (.act .bcrypt
          (.act .testUseECB
            (.act (.setMode .ecb) (Program.andThen .setInitialized ok) fail)
            (.act (.setMode .gcm) (.act .bcrypt (Program.andThen .setInitialized ok) fail) fail))
          fail)
        fail).exec (World.eval o) reply w) := by
    intro w reply h
    refine h.exec_act trivial (fun w h _ => ?_) fun w h _ => hfail w _ h
    refine h.exec_act trivial (fun w h _ => ?_) fun w h _ => hfail w _ h
    refine h.exec_act trivial (fun w₁ h₁ htest => ?_) fun w₁ h₁ htest => ?_
    · obtain ⟨hECB, rfl⟩ := Prod.mk.inj htest
      refine h₁.exec_act trivial (fun w₂ h₂ hmode => ?_) fun w₂ h₂ _ => hfail w₂ _ h₂
      refine hdone w₂ _ h₂ (ready_setMode (fun c hc => ?_) hmode)
      rw [show w.object o = some c from hc] at hECB
      exact (if_pos hECB).symm
    · obtain ⟨hECB, rfl⟩ := Prod.mk.inj htest
      refine h₁.exec_act trivial (fun w₂ h₂ hmode => ?_) fun w₂ h₂ _ => hfail w₂ _ h₂
      refine h₂.exec_act trivial (fun w₃ h₃ hlength => ?_) fun w₃ h₃ _ => hfail w₃ _ h₃
      obtain rfl := (Prod.mk.inj hlength).2
      refine hdone w₂ _ h₃ (ready_setMode (fun c hc => ?_) hmode)
      rw [show w.object o = some c from hc] at hECB
      exact (if_neg (Bool.eq_false_iff.1 hECB)).symm
  refine h.exec_act trivial (fun w₁ h₁ htest => ?_) fun w₁ h₁ _ => ?_
  · obtain ⟨hinitialized, rfl⟩ := Prod.mk.inj htest
    refine hok w _ h₁ fun c hc => ?_
    rw [show w.object o = some c from hc] at hinitialized
    exact hready c hc hinitialized c hc
  · refine h₁.exec_act trivial (fun w₂ h₂ _ => hopened w₂ _ h₂) fun w₂ h₂ _ => ?_
    exact h₂.exec_act trivial (fun w₃ h₃ _ => hopened w₃ _ h₃) fun w₃ h₃ _ => hfail w₃ _ h₃

/-- `BCryptDestroyKey` changes no mode. -/
theorem Ready.destroyKey (h : w.Ready o) {b : Bool} {r : Reply}
    (heval : World.eval o .destroyKey r w = (b, w')) : w'.Ready o := by
  simp only [World.eval] at heval
  split at heval
  · exact (Prod.mk.inj heval).2 ▸ h
  · exact (Prod.mk.inj heval).2 ▸ h.modify fun _ => ⟨rfl, rfl⟩
  · exact (Prod.mk.inj heval).2 ▸ h

/-- The key gets the mode that the provider has. -/
theorem Isolated.generateKey (h : Isolated w) (hready : w.Ready o) (r : Reply) :
    Isolated (World.eval o .generateKey r w).2 := by
  simp only [World.eval]
  split
  · rename_i hAlg _ halg
    refine h.modify fun c hc _ mode hmode => ?_
    obtain rfl := Option.some.inj hmode
    unfold World.alg at halg
    rw [show w.object o = some c from hc] at halg
    exact hready c hc hAlg halg
  · exact h

/-- **`SetKey`** keeps the modes of all keys, whatever BCrypt answers. The key is generated only
behind `InitAES`, and then the provider has the mode of the object. -/
theorem Isolated.setKey (h : Isolated w) {ksize : ℤ}
    (hready : ∀ c ∈ w.object o, c.bInitialized = true → w.Ready o) :
    Isolated ((Program.setKey ksize).exec (World.eval o) reply w) := by
  have hdone : ∀ (w : World) (reply : ℕ → Reply), Isolated w →
      Isolated ((Branching.done : Program).exec (World.eval o) reply w) := fun w reply h => h
  refine h.initAES hready (fun w reply h hready => ?_) hdone
  refine h.initAES (fun _ _ _ => hready) (fun w reply h hready => ?_) hdone
  refine h.exec_act trivial (fun w h heval => ?_) fun w h _ => hdone w _ h
  split_ifs
  · have hkey := h.generateKey (hready.destroyKey heval) (reply 1)
    refine Branching.exec_act (fun w' hw' => ?_) fun w' hw' => ?_
    · rw [hw'] at hkey
      exact hkey
    · rw [hw'] at hkey
      exact hkey
  · exact hdone w _ h

/-- **One action.** One case for each action: an object that is constructed has no key yet, and one
that is destroyed is gone. -/
theorem Isolated.act {a : KeyAction} (h : Isolated w) (hkeeps : KeepsModes w a)
    (hstep : w.act a = some w') : Isolated w' := by
  cases a with
  | construct o =>
      simp only [World.act] at hstep
      split at hstep
      · obtain rfl := Option.some.inj hstep
        exact h.replace fun c hc => Option.some.inj hc ▸ rfl
      · exact absurd hstep (by simp)
  | setUseECB o =>
      obtain ⟨-, -, rfl⟩ := Option.map_eq_some_iff.1 hstep
      refine h.modify (o := o) (f := fun c => { c with bUseECB := true }) fun c hc hkey mode hmode => ?_
      rcases hkeeps c hc with hnone | hECB
      · exact absurd (hnone ▸ hmode) (Option.not_mem_none mode)
      · exact (hkey mode hmode).trans (if_pos hECB)
  | setKey o ksize reply =>
      obtain ⟨-, -, rfl⟩ := Option.map_eq_some_iff.1 hstep
      exact h.setKey hkeeps
  | destroy o =>
      obtain ⟨-, -, rfl⟩ := Option.map_eq_some_iff.1 hstep
      exact h.replace fun c hc => absurd hc (Option.not_mem_none c)

/-- **Each key has the mode that its object selected**, whatever the other objects did, as long as no
object selects another mode when it has a key, and none that is initialized is keyed when the provider has
another mode. -/
theorem keys_selected (h : system.ReachableBy KeepsModes w) :
    ∀ o, ∀ c ∈ w.object o, ∀ mode ∈ c.hKey, mode = c.selected := by
  refine h.invariant (I := Isolated) ?_ fun w a w' hw hkeeps hstep => hw.act hkeeps hstep
  rintro w rfl o c hc
  exact absurd hc (Option.not_mem_none c)

instance (w : World) (o : ℕ) : Decidable (w.Ready o) :=
  inferInstanceAs (Decidable (∀ c ∈ w.object o, ∀ hAlg ∈ c.hAlg .hAesAlg, w.mode hAlg = c.selected))

instance : ∀ (w : World) (a : KeyAction), Decidable (KeepsModes w a)
  | w, .setUseECB o => inferInstanceAs (Decidable (∀ c ∈ w.object o, c.hKey = none ∨ c.bUseECB = true))
  | w, .setKey o _ _ =>
      inferInstanceAs (Decidable (∀ c ∈ w.object o, c.bInitialized = true → w.Ready o))
  | _, .construct _ | _, .destroy _ => isTrue trivial

/-- Two objects, the second with `SetUseECB`; the first is keyed twice before. -/
def twoModes : List KeyAction :=
  [.construct 0, .construct 1, .setKey 0 32 fun _ => .ok 5, .setKey 0 32 fun _ => .ok 5, .setUseECB 1,
    .setKey 1 16 fun _ => .ok 5]

/-- The mode of the key of an object. -/
def keyMode (w : World) (o : ℕ) : Option ChainMode := (w.object o).bind (·.hKey)

/-- Two objects, of which the second selects another mode, have keys of the modes that they
selected. -/
theorem keys_selected_two : ∃ w, (system.restrict KeepsModes).run twoModes {} = some w ∧
    w.keyMode 0 = some .gcm ∧ w.keyMode 1 = some .ecb ∧
    ∀ o, ∀ c ∈ w.object o, ∀ mode ∈ c.hKey, mode = c.selected :=
  ⟨_, rfl, by decide, by decide, keys_selected (.run_restrict twoModes (.init rfl) rfl)⟩

/-- The first object is keyed again: it selected GCM, and gets a key for ECB. It is initialized, so
`SetKey` selects no mode again, and the shared handle has the one that the second object has
selected. -/
theorem rekey_ECB : ∃ w, system.Reachable w ∧ w.keyMode 0 = some .ecb ∧
    (w.object 0).map (·.bUseECB) = some false :=
  ⟨_, .run (twoModes ++ [.setKey 0 32 fun _ => .ok 5]) (.init rfl) rfl, by decide, by decide⟩

end World

end Crypto
end ECSUtil

/-
# Delayed messages

`SendMessageToPoolDelayed` and `TransferFutureQueue` (`ECSUtil/ThreadPool.h`).  A pass finds a message
that is due under the read lock of `MsgQueue`, sends it, and removes it under the write lock; each
of these is a step, and any number of threads make passes at the same time.

Two passes may find the same message, which is then sent twice.  Where none finds what another one
has found and not yet removed, every message is sent once: `delivered_once`.

A pass holds no lock between its steps.  The condition is on what the others have in hand when a
pass looks for a message (`Apart`); the invariant is that a message was delivered exactly if it is
out of the queue, or a pass has sent it and is about to remove it (`Kept`).
-/

import Mathlib.Data.List.Nodup
import Mathlib.Logic.Function.Basic
import ECSUtil.ThreadPool.Grouping

namespace ECSUtil
namespace ThreadPool

/-- Where a pass is. -/
inductive Stage
  | seek
  | found (DueMsg : CMsgEntry)
  | sent (DueMsg : CMsgEntry)
  deriving DecidableEq, Repr

/-- A pass of `TransferFutureQueue`. -/
structure Pass where
  ftNow : ℕ
  bFlush : Bool
  stage : Stage := .seek
  /-- History: what was posted and due when the pass began. -/
  owed : List CMsgEntry

/-- The message that the pass has found and not removed. -/
def Pass.message (p : Pass) : Option CMsgEntry :=
  match p.stage with
  | .seek => none
  | .found m => some m
  | .sent m => some m

/-- An entry is due. -/
def due (ftNow : ℕ) (bFlush : Bool) (m : CMsgEntry) : Bool := bFlush || m.ftDueTime ≤ ftNow

/-- The queue and the passes of threads `ι`. -/
structure Transfer (ι : Type*) where
  FutureMsgQueue : List CMsgEntry := []
  pass : ι → Option Pass := fun _ => none
  nextID : ℕ := 0
  /-- History: what was put on `MsgQueue`. -/
  delivered : List CMsgEntry := []
  /-- History: what was posted. -/
  posted : List CMsgEntry := []
  /-- History: what was owed by the passes that have ended. -/
  finished : List CMsgEntry := []

inductive Event (ι : Type*)
  /-- `SendMessageToPoolDelayed`. -/
  | post (uPriority uGrouping ftDueTime : ℕ)
  | start (t : ι) (ftNow : ℕ) (bFlush : Bool)
  /-- The next step of a pass. -/
  | turn (t : ι)

namespace Transfer

variable {ι : Type*} [DecidableEq ι]

def setPass (s : Transfer ι) (t : ι) (p : Option Pass) : Transfer ι :=
  { s with pass := Function.update s.pass t p }

/-- `SendMessageToPoolDelayed`. -/
def post (s : Transfer ι) (uPriority uGrouping ftDueTime : ℕ) : Transfer ι :=
  let Rec : CMsgEntry :=
    { ullUniqueID := s.nextID, uPriority := uPriority, uGrouping := uGrouping, ftDueTime := ftDueTime }
  { s with
    FutureMsgQueue := s.FutureMsgQueue ++ [Rec]
    posted := s.posted ++ [Rec]
    nextID := s.nextID + 1 }

/-- What a pass finds: the last entry that is due. -/
def find (s : Transfer ι) (p : Pass) : Option CMsgEntry :=
  (s.FutureMsgQueue.filter (due p.ftNow p.bFlush)).getLast?

/-- The next step of a pass. -/
def turn (s : Transfer ι) (t : ι) (p : Pass) : Transfer ι :=
  match p.stage with
  | .seek =>
      match s.find p with
      | none => { s.setPass t none with finished := s.finished ++ p.owed }
      | some m => s.setPass t (some { p with stage := .found m })
  | .found m => { s.setPass t (some { p with stage := .sent m }) with delivered := s.delivered ++ [m] }
  | .sent m =>
      { s.setPass t (some { p with stage := .seek }) with
        FutureMsgQueue := s.FutureMsgQueue.eraseP fun e => e.ullUniqueID = m.ullUniqueID }

/-- One step. -/
def step (s : Transfer ι) : Event ι → Option (Transfer ι)
  | .post uPriority uGrouping ftDueTime => some (s.post uPriority uGrouping ftDueTime)
  | .start t ftNow bFlush =>
      if (s.pass t).isNone then
        some (s.setPass t (some {
          ftNow := ftNow, bFlush := bFlush, owed := s.posted.filter (due ftNow bFlush) }))
      else none
  | .turn t => (s.pass t).map (s.turn t)

end Transfer

/-- The threads, at first without messages. -/
def transfers (ι : Type*) [DecidableEq ι] : StepSystem (Transfer ι) (Event ι) where
  init s := s = {}
  step := Transfer.step

/-- No pass finds what another one has found and not yet removed. -/
def Apart {ι : Type*} (s : Transfer ι) (a : Event ι) : Prop :=
  ∀ t p m, a = .turn t → s.pass t = some p → p.stage = .seek → s.find p = some m →
    ∀ u q, u ≠ t → s.pass u = some q → q.message ≠ some m

/-- **Every message once**: none twice, and each that a pass owed that has ended. -/
structure Once {ι : Type*} (s : Transfer ι) : Prop where
  most : ∀ m ∈ s.posted, s.delivered.count m ≤ 1
  exact : ∀ m ∈ s.finished, s.delivered.count m = 1

/-- A pass has sent the message and not yet removed it. -/
def Transfer.Sending {ι : Type*} (s : Transfer ι) (m : CMsgEntry) : Prop :=
  ∃ t p, s.pass t = some p ∧ p.stage = .sent m

/-- The passes are at different messages of the queue. -/
structure Passes {ι : Type*} (s : Transfer ι) : Prop where
  held : ∀ t p m, s.pass t = some p → p.message = some m → m ∈ s.FutureMsgQueue
  apart : ∀ t u p q m, t ≠ u → s.pass t = some p → s.pass u = some q → p.message = some m →
    q.message ≠ some m
  owed : ∀ t p, s.pass t = some p → ∀ m ∈ p.owed, m ∈ s.posted ∧ due p.ftNow p.bFlush m = true

/-- **The invariant.**  The ids tell the messages, what is queued was posted, the passes are at different
messages, and a message was delivered exactly if it is out of the queue, or a pass has sent it and is about to
remove it. -/
structure Kept {ι : Type*} (s : Transfer ι) : Prop where
  id_lt : ∀ m ∈ s.posted, m.ullUniqueID < s.nextID
  id_inj : ∀ m ∈ s.posted, ∀ n ∈ s.posted, m.ullUniqueID = n.ullUniqueID → m = n
  queued : ∀ m ∈ s.FutureMsgQueue, m ∈ s.posted
  nodup : s.FutureMsgQueue.Nodup
  passes : Passes s
  delivered_nodup : s.delivered.Nodup
  delivered_posted : ∀ m ∈ s.delivered, m ∈ s.posted
  /-- What was delivered was removed, or will be by the pass that sent it. -/
  delivered_iff : ∀ m ∈ s.posted, m ∈ s.delivered ↔ m ∉ s.FutureMsgQueue ∨ s.Sending m
  finished : ∀ m ∈ s.finished, m ∈ s.posted ∧ m ∉ s.FutureMsgQueue

section

variable {ι : Type*} {s s' : Transfer ι} {t : ι} {p : Pass} {o : Option Pass} {m n : CMsgEntry}

/-- A pass that has sent a message still has it in hand. -/
theorem Pass.message_of_sent (h : p.stage = .sent m) : p.message = some m := by
  rw [Pass.message, h]

/-- What is found is in the queue. -/
theorem mem_of_find (h : s.find p = some m) : m ∈ s.FutureMsgQueue :=
  (List.mem_filter.1 (List.mem_of_getLast? h)).1

/-- Where nothing is found, nothing in the queue is due. -/
theorem not_due_of_find (h : s.find p = none) (hm : m ∈ s.FutureMsgQueue) :
    due p.ftNow p.bFlush m = false := by
  rw [Transfer.find, List.getLast?_eq_none_iff, List.filter_eq_nil_iff] at h
  exact Bool.eq_false_iff.2 (h m hm)

/-- An entry is removed by its number. -/
theorem eraseP_eq_erase {l : List CMsgEntry}
    (h : ∀ e ∈ l, e.ullUniqueID = m.ullUniqueID → e = m) :
    l.eraseP (fun e => e.ullUniqueID = m.ullUniqueID) = l.erase m := by
  induction l with
  | nil => rfl
  | cons e l ih =>
      by_cases heq : e = m
      · rw [heq, List.erase_cons_head, List.eraseP_cons_of_pos (by simp)]
      · have hne : ¬e.ullUniqueID = m.ullUniqueID := fun hid => heq (h e List.mem_cons_self hid)
        rw [List.erase_cons_tail (by simpa using heq), List.eraseP_cons_of_neg (by simpa using hne),
          ih fun e' he' => h e' (List.mem_cons_of_mem _ he')]

/-- **Every message once**, of what is known. A message that a pass has sent and not yet removed is
counted, and one that was removed was sent before. -/
theorem Kept.once (h : Kept s) : Once s := by
  refine ⟨fun m _ => List.nodup_iff_count_le_one.1 h.delivered_nodup m, fun m hm => ?_⟩
  obtain ⟨hposted, hremoved⟩ := h.finished m hm
  exact List.count_eq_one_of_mem h.delivered_nodup ((h.delivered_iff m hposted).2 (.inl hremoved))

/-- A pass other than that of a thread is sending the message. -/
def Transfer.SendingApart (s : Transfer ι) (t : ι) (m : CMsgEntry) : Prop :=
  ∃ u p, u ≠ t ∧ s.pass u = some p ∧ p.stage = .sent m

/-- A message is being sent by a thread, or by one of the others. -/
theorem sending_iff (s : Transfer ι) (t : ι) (m : CMsgEntry) :
    s.Sending m ↔ (∃ p, s.pass t = some p ∧ p.stage = .sent m) ∨ s.SendingApart t m := by
  constructor
  · rintro ⟨u, p, hp, hstage⟩
    by_cases hu : u = t
    · exact .inl ⟨p, hu ▸ hp, hstage⟩
    · exact .inr ⟨u, p, hu, hp, hstage⟩
  · rintro (⟨p, hp, hstage⟩ | ⟨u, p, -, hp, hstage⟩)
    · exact ⟨t, p, hp, hstage⟩
    · exact ⟨u, p, hp, hstage⟩

/-- A message is posted. -/
theorem Kept.post (h : Kept s) (uPriority uGrouping ftDueTime : ℕ) :
    Kept (s.post uPriority uGrouping ftDueTime) := by
  have hid : ∀ m ∈ s.posted, m.ullUniqueID ≠ s.nextID := fun m hm => Nat.ne_of_lt (h.id_lt m hm)
  obtain ⟨Rec, hRec, hnew⟩ : ∃ Rec : CMsgEntry, Rec.ullUniqueID = s.nextID ∧
      s.post uPriority uGrouping ftDueTime = { s with
        FutureMsgQueue := s.FutureMsgQueue ++ [Rec]
        posted := s.posted ++ [Rec]
        nextID := s.nextID + 1 } := ⟨_, rfl, rfl⟩
  have hfresh : Rec ∉ s.posted := fun hmem => hid Rec hmem hRec
  rw [hnew]
  refine ⟨fun m hm => ?_, fun m hm n hn heq => ?_, fun m hm => ?_, ?_, ?_,
    h.delivered_nodup, fun m hm => ?_, fun m hm => ?_, fun m hm => ?_⟩
  · rcases List.mem_append.1 hm with hm | hm
    · exact Nat.lt_succ_of_lt (h.id_lt m hm)
    · rw [List.mem_singleton.1 hm, hRec]
      exact Nat.lt_succ_self _
  · rcases List.mem_append.1 hm with hm | hm <;> rcases List.mem_append.1 hn with hn | hn
    · exact h.id_inj m hm n hn heq
    · rw [List.mem_singleton.1 hn, hRec] at heq
      exact absurd heq (hid m hm)
    · rw [List.mem_singleton.1 hm, hRec] at heq
      exact absurd heq.symm (hid n hn)
    · rw [List.mem_singleton.1 hm, List.mem_singleton.1 hn]
  · rcases List.mem_append.1 hm with hm | hm
    · exact List.mem_append_left _ (h.queued m hm)
    · exact List.mem_append_right _ hm
  · refine List.nodup_append.2 ⟨h.nodup, List.nodup_singleton _, fun m hm n hn heq => ?_⟩
    rw [List.mem_singleton.1 hn] at heq
    exact hfresh (heq ▸ h.queued m hm)
  · refine ⟨fun t p m hp hm => List.mem_append_left _ (h.passes.held t p m hp hm), h.passes.apart,
      fun t p hp m hm => ?_⟩
    obtain ⟨hposted, hdue⟩ := h.passes.owed t p hp m hm
    exact ⟨List.mem_append_left _ hposted, hdue⟩
  · exact List.mem_append_left _ (h.delivered_posted m hm)
  · show m ∈ s.delivered ↔ m ∉ s.FutureMsgQueue ++ [Rec] ∨ s.Sending m
    rcases List.mem_append.1 hm with hm | hm
    · have hne : m ≠ Rec := fun heq => hfresh (heq ▸ hm)
      rw [h.delivered_iff m hm, List.mem_append, List.mem_singleton, or_iff_left hne]
    · obtain rfl := List.mem_singleton.1 hm
      refine iff_of_false (fun hdel => hfresh (h.delivered_posted m hdel)) (not_or.2 ⟨?_, ?_⟩)
      · exact not_not.2 (List.mem_append_right _ hm)
      · rintro ⟨t, p, hp, hstage⟩
        exact hfresh (h.queued m (h.passes.held t p m hp (Pass.message_of_sent hstage)))
  · obtain ⟨hposted, hremoved⟩ := h.finished m hm
    refine ⟨List.mem_append_left _ hposted, fun hmem => ?_⟩
    rcases List.mem_append.1 hmem with hmem | hmem
    · exact hremoved hmem
    · exact hfresh (List.mem_singleton.1 hmem ▸ hposted)

/-- What a thread is sending is seen by its stage. -/
theorem sending_of_stage (hp : s.pass t = some p) :
    s.Sending n ↔ p.stage = .sent n ∨ s.SendingApart t n := by
  rw [sending_iff s t, hp]
  simp

/-- Only the thread itself is at the message that it has found. -/
theorem Kept.not_sendingApart (h : Kept s) (hp : s.pass t = some p) (hm : p.message = some m) :
    ¬s.SendingApart t m := by
  rintro ⟨u, q, hu, hq, hstage⟩
  exact h.passes.apart t u p q m hu.symm hp hq hm (Pass.message_of_sent hstage)

variable [DecidableEq ι]

/-- A thread is in the pass that it is set to. -/
theorem pass_setPass_self (s : Transfer ι) (t : ι) (o : Option Pass) :
    (s.setPass t o).pass t = o := Function.update_self ..

/-- Where a thread is set to a pass, the others are in theirs. -/
theorem pass_setPass_ne {u : ι} (h : u ≠ t) : (s.setPass t o).pass u = s.pass u :=
  Function.update_of_ne h ..

/-- The passes of the other threads are as before. -/
theorem sendingApart_setPass : (s.setPass t o).SendingApart t m ↔ s.SendingApart t m := by
  unfold Transfer.SendingApart
  refine exists_congr fun u => exists_congr fun p => and_congr_right fun hu => ?_
  rw [pass_setPass_ne hu]

/-- What is sent when the pass of a thread has changed. -/
theorem sending_setPass : (s.setPass t o).Sending m ↔
    (∃ p, o = some p ∧ p.stage = .sent m) ∨ s.SendingApart t m := by
  rw [sending_iff _ t, pass_setPass_self, sendingApart_setPass]

/-- **The pass of a thread changes.** The others are as they were; what the pass holds no other one
holds, and what it owes was posted and is due. -/
theorem Passes.setPass (h : Passes s)
    (hheld : ∀ p m, o = some p → p.message = some m → m ∈ s.FutureMsgQueue ∧
      ∀ u q, u ≠ t → s.pass u = some q → q.message ≠ some m)
    (howed : ∀ p, o = some p → ∀ m ∈ p.owed, m ∈ s.posted ∧ due p.ftNow p.bFlush m = true) :
    Passes (s.setPass t o) := by
  refine ⟨fun u p m hp hm => ?_, fun u v p q m hne hp hq hm => ?_, fun u p hp => ?_⟩
  · by_cases hu : u = t
    · subst hu
      rw [pass_setPass_self] at hp
      exact (hheld p m hp hm).1
    · rw [pass_setPass_ne hu] at hp
      exact h.held u p m hp hm
  · by_cases hu : u = t
    · subst hu
      rw [pass_setPass_self] at hp
      rw [pass_setPass_ne hne.symm] at hq
      exact (hheld p m hp hm).2 v q hne.symm hq
    · rw [pass_setPass_ne hu] at hp
      by_cases hv : v = t
      · subst hv
        rw [pass_setPass_self] at hq
        exact fun hqm => (hheld q m hq hqm).2 u p hu hp hm
      · rw [pass_setPass_ne hv] at hq
        exact h.apart u v p q m hne hp hq hm
  · by_cases hu : u = t
    · subst hu
      rw [pass_setPass_self] at hp
      exact howed p hp
    · rw [pass_setPass_ne hu] at hp
      exact h.owed u p hp

/-- The pass of a thread at the message at which it is. -/
theorem Passes.setStage (h : Passes s) (hp : s.pass t = some p) (stage : Stage)
    (hstage : ∀ m, ({ p with stage := stage } : Pass).message = some m → p.message = some m) :
    Passes (s.setPass t (some { p with stage := stage })) := by
  refine h.setPass (fun q m hq hm => ?_) fun q hq => ?_
  · obtain rfl := Option.some.inj hq
    exact ⟨h.held t p m hp (hstage m hm),
      fun u v hu hv => h.apart t u p v m hu.symm hp hv (hstage m hm)⟩
  · obtain rfl := Option.some.inj hq
    exact h.owed t p hp

/-- **A pass changes before it has sent anything.** Nothing is sent by it, so the counts stay. -/
theorem Kept.setPass (h : Kept s) (hpasses : Passes (s.setPass t o))
    (hsent : ∀ m, (∃ p, o = some p ∧ p.stage = .sent m) ↔
      ∃ p, s.pass t = some p ∧ p.stage = .sent m) : Kept (s.setPass t o) := by
  refine ⟨h.id_lt, h.id_inj, h.queued, h.nodup, hpasses, h.delivered_nodup, h.delivered_posted,
    fun m hm => ?_, h.finished⟩
  refine (h.delivered_iff m hm).trans (or_congr_right ?_)
  rw [sending_setPass, hsent m, sending_iff s t]

/-- A message is sent. -/
theorem Kept.deliver (h : Kept s) (hp : s.pass t = some p) (hstage : p.stage = .found m) :
    Kept { s.setPass t (some { p with stage := .sent m }) with
      delivered := s.delivered ++ [m] } := by
  have hmessage : p.message = some m := by rw [Pass.message, hstage]
  have hqueue := h.passes.held t p m hp hmessage
  have hposted := h.queued m hqueue
  have hold : ∀ n, s.Sending n ↔ s.SendingApart t n := by
    intro n
    rw [sending_of_stage hp, hstage]
    exact or_iff_right Stage.noConfusion
  have hnew : ∀ n, (s.setPass t (some { p with stage := .sent m })).Sending n ↔
      n = m ∨ s.SendingApart t n := by
    intro n
    rw [sending_of_stage (pass_setPass_self ..), sendingApart_setPass]
    simp [eq_comm]
  have hfresh : m ∉ s.delivered := by
    rw [h.delivered_iff m hposted, hold]
    exact not_or.2 ⟨not_not.2 hqueue, h.not_sendingApart hp hmessage⟩
  have hpasses := h.passes.setStage hp (.sent m) fun n hn => hmessage.trans hn
  refine ⟨h.id_lt, h.id_inj, h.queued, h.nodup, ⟨hpasses.held, hpasses.apart, hpasses.owed⟩, ?_,
    fun n hn => ?_, fun n hn => ?_, h.finished⟩
  · refine List.nodup_append.2 ⟨h.delivered_nodup, List.nodup_singleton _, fun n hn k hk heq => ?_⟩
    rw [List.mem_singleton.1 hk] at heq
    exact hfresh (heq ▸ hn)
  · rcases List.mem_append.1 hn with hn | hn
    · exact h.delivered_posted n hn
    · exact List.mem_singleton.1 hn ▸ hposted
  · show n ∈ s.delivered ++ [m] ↔ n ∉ s.FutureMsgQueue ∨ (s.setPass t _).Sending n
    rw [List.mem_append, List.mem_singleton, h.delivered_iff n hn, hold, hnew]
    tauto

/-- A message is removed. -/
theorem Kept.remove (h : Kept s) (hp : s.pass t = some p) (hstage : p.stage = .sent m) :
    Kept { s.setPass t (some { p with stage := .seek }) with
      FutureMsgQueue := s.FutureMsgQueue.eraseP fun e => e.ullUniqueID = m.ullUniqueID } := by
  have hmessage := Pass.message_of_sent hstage
  have hqueue := h.passes.held t p m hp hmessage
  have herase := eraseP_eq_erase (l := s.FutureMsgQueue) (m := m) fun e he heq =>
    h.id_inj e (h.queued e he) m (h.queued m hqueue) heq
  have hmem : ∀ n, n ∈ s.FutureMsgQueue.erase m ↔ n ≠ m ∧ n ∈ s.FutureMsgQueue := fun n =>
    h.nodup.mem_erase_iff
  have hold : ∀ n, s.Sending n ↔ n = m ∨ s.SendingApart t n := by
    intro n
    rw [sending_of_stage hp, hstage]
    simp [eq_comm]
  have hnew : ∀ n, (s.setPass t (some { p with stage := .seek })).Sending n ↔
      s.SendingApart t n := by
    intro n
    rw [sending_of_stage (pass_setPass_self ..), sendingApart_setPass]
    exact or_iff_right Stage.noConfusion
  have hpasses := h.passes.setStage hp .seek fun n hn => absurd hn (by simp [Pass.message])
  rw [herase]
  refine ⟨h.id_lt, h.id_inj, fun n hn => h.queued n ((hmem n).1 hn).2, h.nodup.erase m,
    ⟨fun u q n hq hn => ?_, hpasses.apart, hpasses.owed⟩, h.delivered_nodup, h.delivered_posted,
    fun n hn => ?_, fun n hn => ?_⟩
  · refine (hmem n).2 ⟨?_, hpasses.held u q n hq hn⟩
    rintro rfl
    by_cases hu : u = t
    · subst hu
      obtain rfl := Option.some.inj ((pass_setPass_self ..).symm.trans hq)
      exact absurd hn (by simp [Pass.message])
    · exact h.passes.apart t u p q n (Ne.symm hu) hp ((pass_setPass_ne hu).symm.trans hq) hmessage hn
  · show n ∈ s.delivered ↔ n ∉ s.FutureMsgQueue.erase m ∨ (s.setPass t _).Sending n
    rw [h.delivered_iff n hn, hold, hnew, hmem]
    tauto
  · obtain ⟨hposted, hremoved⟩ := h.finished n hn
    exact ⟨hposted, fun hin => hremoved ((hmem n).1 hin).2⟩

/-- A pass begins. -/
theorem Kept.start (h : Kept s) (hpass : s.pass t = none) (ftNow : ℕ) (bFlush : Bool) :
    Kept (s.setPass t (some {
      ftNow := ftNow, bFlush := bFlush, owed := s.posted.filter (due ftNow bFlush) })) := by
  refine h.setPass (h.passes.setPass (fun p m hp hm => ?_) fun p hp m hm => ?_) fun m => ?_
  · obtain rfl := Option.some.inj hp
    exact absurd hm (by simp [Pass.message])
  · obtain rfl := Option.some.inj hp
    exact List.mem_filter.1 hm
  · simp [hpass]

/-- A pass that finds nothing ends. -/
theorem Kept.finish (h : Kept s) (hp : s.pass t = some p) (hstage : p.stage = .seek)
    (hfind : s.find p = none) :
    Kept { s.setPass t none with finished := s.finished ++ p.owed } := by
  have hset : Kept (s.setPass t none) := by
    refine h.setPass (h.passes.setPass (fun q m hq => absurd hq (by simp)) fun q hq =>
      absurd hq (by simp)) fun m => ?_
    simp [hp, hstage]
  refine ⟨hset.id_lt, hset.id_inj, hset.queued, hset.nodup,
    ⟨hset.passes.held, hset.passes.apart, hset.passes.owed⟩, hset.delivered_nodup,
    hset.delivered_posted, hset.delivered_iff, fun m hm => ?_⟩
  rcases List.mem_append.1 hm with hm | hm
  · exact h.finished m hm
  · obtain ⟨hposted, hdue⟩ := h.passes.owed t p hp m hm
    exact ⟨hposted, fun hin =>
      Bool.false_ne_true ((not_due_of_find hfind hin).symm.trans hdue)⟩

/-- A pass finds a message that no other one is at. -/
theorem Kept.found (h : Kept s) (hp : s.pass t = some p) (hstage : p.stage = .seek)
    (hfind : s.find p = some m)
    (hapart : ∀ u q, u ≠ t → s.pass u = some q → q.message ≠ some m) :
    Kept (s.setPass t (some { p with stage := .found m })) := by
  refine h.setPass (h.passes.setPass (fun q n hq hn => ?_) fun q hq => ?_) fun n => ?_
  · obtain rfl := Option.some.inj hq
    obtain rfl : m = n := Option.some.inj hn
    exact ⟨mem_of_find hfind, hapart⟩
  · obtain rfl := Option.some.inj hq
    exact h.passes.owed t p hp
  · simp [hp, hstage]

/-- **Every step of a pass keeps the invariant.** The condition is asked for where the pass looks
for a message, and only there. -/
theorem Kept.turn (h : Kept s) (hp : s.pass t = some p) (hapart : Apart s (.turn t)) :
    Kept (s.turn t p) := by
  unfold Transfer.turn
  cases hstage : p.stage with
  | seek =>
      dsimp only
      cases hfind : s.find p with
      | none => exact h.finish hp hstage hfind
      | some m => exact h.found hp hstage hfind (hapart t p m rfl hp hstage hfind)
  | found m => exact h.deliver hp hstage
  | sent m => exact h.remove hp hstage

/-- **Every step keeps the invariant.** -/
theorem Kept.step {a : Event ι} (h : Kept s) (hapart : Apart s a) (hs : s.step a = some s') :
    Kept s' := by
  cases a with
  | post uPriority uGrouping ftDueTime =>
      exact Option.some.inj hs ▸ h.post uPriority uGrouping ftDueTime
  | start t ftNow bFlush =>
      obtain ⟨hpass, hs⟩ := Option.ite_none_right_eq_some.1 hs
      exact Option.some.inj hs ▸ h.start (Option.isNone_iff_eq_none.1 hpass) ftNow bFlush
  | turn t =>
      obtain ⟨p, hp, rfl⟩ := Option.map_eq_some_iff.1 hs
      exact h.turn hp hapart

omit [DecidableEq ι] in
/-- The invariant holds before the first message. -/
theorem kept_init : Kept ({} : Transfer ι) := by
  refine ⟨?_, ?_, ?_, List.nodup_nil, ⟨?_, ?_, ?_⟩, List.nodup_nil, ?_, ?_, ?_⟩ <;> simp

end

/-- **Delayed messages are delivered once**, in all runs in which no pass finds a message that another
one has found and not yet removed: none twice, and each that was due when a pass began, once that
pass has ended. -/
theorem delivered_once {ι : Type*} [DecidableEq ι] {s : Transfer ι}
    (h : (transfers ι).ReachableBy Apart s) : Once s := by
  have hkept : Kept s := by
    refine StepSystem.ReachableBy.invariant (I := Kept) ?_ (fun s a s' hI hC hs => ?_) h
    · rintro _ rfl
      exact kept_init
    · exact hI.step hC hs
  exact hkept.once

/-- Of two threads, none finds the message that the other one has. -/
def Transfer.apart (s : Transfer Bool) : Event Bool → Bool
  | .turn t => ((s.pass t).bind s.find).all fun m => (s.pass !t).bind Pass.message ≠ some m
  | .post _ _ _ => true
  | .start _ _ _ => true

/-- Then they are apart. -/
theorem apart_of_two {s : Transfer Bool} {a : Event Bool} (h : s.apart a = true) : Apart s a := by
  rintro t p m rfl hp - hfind u q hne hq heq
  obtain rfl : u = !t := by
    cases t <;> cases u <;> first | rfl | exact absurd rfl hne
  have hall : ((s.pass t).bind s.find).all fun m => (s.pass !t).bind Pass.message ≠ some m := h
  rw [hp, hq, Option.bind_some, Option.bind_some, hfind] at hall
  exact of_decide_eq_true hall heq

/-- Two passes at the same time, the second of which finds a message that was posted after the first one
began. -/
def crossing : List (Event Bool) :=
  [.post 0 0 5, .start true 6 false, .turn true, .post 0 0 7, .start false 8 false, .turn false,
    .turn true, .turn false, .turn true, .turn false, .turn true, .turn false]

/-- Each of them sends one. Neither of them looks for a message that the other one has found and not
yet removed. -/
theorem delivered_once_two : ∃ s,
    ((transfers Bool).restrict fun s a => s.apart a = true).run crossing {} = some s ∧
    s.delivered.map CMsgEntry.ullUniqueID = [0, 1] ∧ s.finished.length = 3 ∧ Once s := by
  refine ⟨_, rfl, rfl, rfl, delivered_once ?_⟩
  exact (StepSystem.ReachableBy.run_restrict crossing (.init rfl) rfl).mono fun _ _ => apart_of_two

/-- Two threads find the same message. -/
def twice : List (Event Bool) :=
  [.post 0 0 5, .start true 6 false, .start false 6 false, .turn true, .turn false, .turn true,
    .turn false]

/-- It is sent twice. Two passes have found the message before either of them has removed it. -/
theorem delivered_twice : ∃ s, (transfers Bool).run twice {} = some s ∧ ¬Once s := by
  refine ⟨_, rfl, fun h => ?_⟩
  have hmost := h.most { ullUniqueID := 0, ftDueTime := 5 } (by decide)
  exact absurd hmost (by decide)

end ThreadPool
end ECSUtil

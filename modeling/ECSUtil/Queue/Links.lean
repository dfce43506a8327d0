/-
# Events that are linked to queues

`CSharedQueueEvent` and `CSharedQueueEventBase` (`ECSUtil/CSharedQueue.cpp`): an event has the queues it
is linked to in `QueueList`, a queue the events in `EventList`.  Objects are named by their address; a set
of pointers is a list in the order of the addresses.

A step is `none` where it would use an object that was destroyed, or advance an iterator whose element
was erased.  The destructor of a queue does, where an event is linked to it: `Unlink` erases the event
from the set that is being gone through.  Without such a step the lists stay mutual (`links_mutual`).

What a link does to the one list it does to the other, so that membership in either changes in the
same way (`mem_setEventList`, `mem_setQueueList`), and each operation that does not fault is a few
of such changes.
-/

import ECSUtil.Lib.StepSystem
import Mathlib.Data.List.Sort
import Mathlib.Logic.Function.Basic

namespace ECSUtil
namespace Queue

/-- A `std::set` of pointers. -/
abbrev PointerSet := List ℕ

namespace PointerSet

/-- `std::set::insert`. -/
def insert (l : PointerSet) (p : ℕ) : PointerSet := if p ∈ l then l else l.orderedInsert (· ≤ ·) p

/-- `std::set::erase`. -/
def erase (l : PointerSet) (p : ℕ) : PointerSet := l.filter (· ≠ p)

variable {l : PointerSet} {p x : ℕ}

/-- A set has what is inserted, and what it had. -/
@[simp] theorem mem_insert : x ∈ l.insert p ↔ x = p ∨ x ∈ l := by
  unfold insert
  split_ifs with h
  · constructor
    · exact Or.inr
    · rintro (rfl | hx)
      · exact h
      · exact hx
  · exact List.mem_orderedInsert ..

/-- A set has what it had but for what is erased. -/
@[simp] theorem mem_erase : x ∈ l.erase p ↔ x ∈ l ∧ x ≠ p := by
  unfold erase
  rw [List.mem_filter, decide_eq_true_iff]

end PointerSet

/-- The objects that are there, with their lists. -/
structure LinkState where
  events : List ℕ := []
  queues : List ℕ := []
  /-- `EventList` of a queue. -/
  eventList : ℕ → PointerSet := fun _ => []
  /-- `QueueList` of an event. -/
  queueList : ℕ → PointerSet := fun _ => []

inductive LinkAction
  | constructEvent (pEvent : ℕ)
  | constructQueue (pQueue : ℕ)
  /-- `Link`. -/
  | link (pEvent : ℕ) (pQueue : Option ℕ)
  /-- `Unlink`, from all queues where none is given. -/
  | unlink (pEvent : ℕ) (pQueue : Option ℕ)
  /-- `~CSharedQueueEvent`. -/
  | destroyEvent (pEvent : ℕ)
  /-- `~CSharedQueueEventBase`. -/
  | destroyQueue (pQueue : ℕ)

namespace LinkState

def setEventList (s : LinkState) (pQueue : ℕ) (l : PointerSet) : LinkState :=
  { s with eventList := Function.update s.eventList pQueue l }

def setQueueList (s : LinkState) (pEvent : ℕ) (l : PointerSet) : LinkState :=
  { s with queueList := Function.update s.queueList pEvent l }

/-- `Link`. -/
def link (s : LinkState) (pEvent : ℕ) : Option ℕ → Option LinkState
  | none => some s
  | some pQueue =>
      if pEvent ∈ s.events ∧ pQueue ∈ s.queues then
        some ((s.setEventList pQueue ((s.eventList pQueue).insert pEvent)).setQueueList pEvent
          ((s.queueList pEvent).insert pQueue))
      else none

/-- The event is erased from the queues of a list. -/
def eraseFrom (pEvent : ℕ) : PointerSet → LinkState → Option LinkState
  | [], s => some s
  | pQueue :: rest, s =>
      if pQueue ∈ s.queues then
        eraseFrom pEvent rest (s.setEventList pQueue ((s.eventList pQueue).erase pEvent))
      else none

/-- `Unlink`. -/
def unlink (s : LinkState) (pEvent : ℕ) (pQueue : Option ℕ) : Option LinkState :=
  if pEvent ∈ s.events then
    match pQueue with
    | none => (eraseFrom pEvent (s.queueList pEvent) s).map fun s => s.setQueueList pEvent []
    | some pQueue =>
        if pQueue ∈ s.queues then
          some ((s.setEventList pQueue ((s.eventList pQueue).erase pEvent)).setQueueList pEvent
            ((s.queueList pEvent).erase pQueue))
        else none
  else none

/-- The loop of `~CSharedQueueEventBase`, over the elements that are left: the event is unlinked, and
the iterator goes on if its element is still in the set. -/
def unlinkEach (pQueue : ℕ) : PointerSet → LinkState → Option LinkState
  | [], s => some s
  | pEvent :: rest, s =>
      (s.unlink pEvent none).bind fun s =>
        if pEvent ∈ s.eventList pQueue then unlinkEach pQueue rest s else none

/-- `~CSharedQueueEventBase`. -/
def destroyQueue (s : LinkState) (pQueue : ℕ) : Option LinkState :=
  if pQueue ∈ s.queues then
    (unlinkEach pQueue (s.eventList pQueue) s).map fun s =>
      { s.setEventList pQueue [] with queues := s.queues.filter (· ≠ pQueue) }
  else none

/-- `~CSharedQueueEvent`. -/
def destroyEvent (s : LinkState) (pEvent : ℕ) : Option LinkState :=
  (s.unlink pEvent none).map fun s => { s with events := s.events.filter (· ≠ pEvent) }

/-- What an action does. -/
def act (s : LinkState) : LinkAction → Option LinkState
  | .constructEvent pEvent =>
      if pEvent ∈ s.events then none
      else some { s.setQueueList pEvent [] with events := pEvent :: s.events }
  | .constructQueue pQueue =>
      if pQueue ∈ s.queues then none
      else some { s.setEventList pQueue [] with queues := pQueue :: s.queues }
  | .link pEvent pQueue => s.link pEvent pQueue
  | .unlink pEvent pQueue => s.unlink pEvent pQueue
  | .destroyEvent pEvent => s.destroyEvent pEvent
  | .destroyQueue pQueue => s.destroyQueue pQueue

/-- Any events and queues, none at first. -/
def system : StepSystem LinkState LinkAction where
  init s := s = {}
  step := act

/-- **The lists are mutual**, and name no object that is not there. -/
structure Mutual (s : LinkState) : Prop where
  mem_iff : ∀ pEvent pQueue, pEvent ∈ s.eventList pQueue ↔ pQueue ∈ s.queueList pEvent
  events : ∀ pEvent pQueue, pEvent ∈ s.eventList pQueue → pEvent ∈ s.events
  queues : ∀ pEvent pQueue, pEvent ∈ s.eventList pQueue → pQueue ∈ s.queues

/-- No queue is destroyed that an event is linked to. -/
def Unlinked (s : LinkState) : LinkAction → Prop
  | .destroyQueue pQueue => s.eventList pQueue = []
  | _ => True

variable {s s' : LinkState} {e q pEvent pQueue : ℕ} {l : PointerSet}

/-- The events of a queue are those that it is given. -/
theorem mem_setEventList : e ∈ (s.setEventList pQueue l).eventList q ↔
    if q = pQueue then e ∈ l else e ∈ s.eventList q := by
  unfold setEventList
  by_cases h : q = pQueue
  · subst h
    rw [if_pos rfl]
    show e ∈ Function.update s.eventList q l q ↔ _
    rw [Function.update_self]
  · rw [if_neg h]
    show e ∈ Function.update s.eventList pQueue l q ↔ _
    rw [Function.update_of_ne h]

/-- The queues of an event are those that it is given. -/
theorem mem_setQueueList : q ∈ (s.setQueueList pEvent l).queueList e ↔
    if e = pEvent then q ∈ l else q ∈ s.queueList e := by
  unfold setQueueList
  by_cases h : e = pEvent
  · subst h
    rw [if_pos rfl]
    show q ∈ Function.update s.queueList e l e ↔ _
    rw [Function.update_self]
  · rw [if_neg h]
    show q ∈ Function.update s.queueList pEvent l e ↔ _
    rw [Function.update_of_ne h]

/-- The event is no more in the lists of these queues; nothing else is changed. -/
theorem eraseFrom_spec (h : eraseFrom pEvent l s = some s') :
    s'.events = s.events ∧ s'.queues = s.queues ∧ s'.queueList = s.queueList ∧
      ∀ e q, e ∈ s'.eventList q ↔ e ∈ s.eventList q ∧ ¬ (e = pEvent ∧ q ∈ l) := by
  induction l generalizing s with
  | nil =>
      obtain rfl := Option.some.inj h
      exact ⟨rfl, rfl, rfl, fun e q => by simp⟩
  | cons pQueue rest ih =>
      unfold eraseFrom at h
      split_ifs at h with hlive
      obtain ⟨hevents, hqueues, hqueueList, hmem⟩ := ih h
      refine ⟨hevents, hqueues, hqueueList, fun e q => ?_⟩
      rw [hmem, mem_setEventList, List.mem_cons]
      by_cases hq : q = pQueue
      · subst hq
        rw [if_pos rfl, PointerSet.mem_erase]
        tauto
      · rw [if_neg hq]
        tauto

/-- Where the queues are there, the event is erased from them. -/
theorem eraseFrom_isSome (h : ∀ pQueue ∈ l, pQueue ∈ s.queues) :
    (eraseFrom pEvent l s).isSome = true := by
  induction l generalizing s with
  | nil => rfl
  | cons pQueue rest ih =>
      unfold eraseFrom
      rw [if_pos (h pQueue List.mem_cons_self)]
      exact ih fun q hq => h q (List.mem_cons_of_mem pQueue hq)

/-- **`Unlink` from all queues**: the links of the event are gone, the others stay. It runs through
the queues of the event and takes the event off each of them, and then empties its list. -/
theorem unlink_all (hs : Mutual s) (h : s.unlink pEvent none = some s') :
    s'.events = s.events ∧ s'.queues = s.queues ∧
      (∀ e q, e ∈ s'.eventList q ↔ e ∈ s.eventList q ∧ e ≠ pEvent) ∧
      ∀ e q, q ∈ s'.queueList e ↔ q ∈ s.queueList e ∧ e ≠ pEvent := by
  unfold unlink at h
  split_ifs at h with hlive
  obtain ⟨t, ht, rfl⟩ := Option.map_eq_some_iff.1 h
  obtain ⟨hevents, hqueues, hqueueList, hmem⟩ := eraseFrom_spec ht
  refine ⟨hevents, hqueues, fun e q => ?_, fun e q => ?_⟩
  · show e ∈ t.eventList q ↔ _
    rw [hmem, ← hs.mem_iff pEvent q]
    constructor
    · rintro ⟨he, hne⟩
      exact ⟨he, fun h => hne ⟨h, h ▸ he⟩⟩
    · rintro ⟨he, hne⟩
      exact ⟨he, fun h => hne h.1⟩
  · rw [mem_setQueueList, hqueueList]
    split_ifs with he <;> simp [he]

/-- Links that are fewer on both sides are mutual as before. -/
theorem Mutual.of_links (hs : Mutual s) (keep : ℕ → ℕ → Prop)
    (heventList : ∀ e q, e ∈ s'.eventList q ↔ e ∈ s.eventList q ∧ keep e q)
    (hqueueList : ∀ e q, q ∈ s'.queueList e ↔ q ∈ s.queueList e ∧ keep e q)
    (hevents : ∀ e q, keep e q → e ∈ s.events → e ∈ s'.events)
    (hqueues : ∀ e q, e ∈ s.eventList q → keep e q → q ∈ s.queues → q ∈ s'.queues) : Mutual s' where
  mem_iff e q := by rw [heventList, hqueueList, hs.mem_iff]
  events e q h := by
    obtain ⟨he, hkeep⟩ := (heventList e q).1 h
    exact hevents e q hkeep (hs.events e q he)
  queues e q h := by
    obtain ⟨he, hkeep⟩ := (heventList e q).1 h
    exact hqueues e q he hkeep (hs.queues e q he)

/-- A link that is made is in both lists. -/
theorem Mutual.link {pQueue : Option ℕ} (hs : Mutual s) (h : s.link pEvent pQueue = some s') :
    Mutual s' := by
  cases pQueue with
  | none => exact Option.some.inj h ▸ hs
  | some pQueue =>
      simp only [LinkState.link] at h
      split_ifs at h with hlive
      obtain rfl := Option.some.inj h
      have heventList : ∀ e q, e ∈ (s.setEventList pQueue
          ((s.eventList pQueue).insert pEvent)).eventList q ↔
          e ∈ s.eventList q ∨ (e = pEvent ∧ q = pQueue) := by
        intro e q
        rw [mem_setEventList]
        split_ifs with hq
        · subst hq
          rw [PointerSet.mem_insert]
          tauto
        · tauto
      refine ⟨fun e q => ?_, fun e q he => ?_, fun e q he => ?_⟩
      · refine (heventList e q).trans ?_
        rw [mem_setQueueList, hs.mem_iff]
        split_ifs with he
        · subst he
          rw [PointerSet.mem_insert]
          show _ ↔ q = pQueue ∨ q ∈ s.queueList e
          tauto
        · show _ ↔ q ∈ s.queueList e
          tauto
      · rcases (heventList e q).1 he with he | ⟨rfl, -⟩
        · exact hs.events e q he
        · exact hlive.1
      · rcases (heventList e q).1 he with he | ⟨-, rfl⟩
        · exact hs.queues e q he
        · exact hlive.2

/-- A link that is undone is in neither list. -/
theorem Mutual.unlink {pQueue : Option ℕ} (hs : Mutual s) (h : s.unlink pEvent pQueue = some s') :
    Mutual s' := by
  cases pQueue with
  | none =>
      obtain ⟨hevents, hqueues, heventList, hqueueList⟩ := unlink_all hs h
      exact hs.of_links (fun e _ => e ≠ pEvent) heventList hqueueList (fun e q _ he => hevents ▸ he)
        fun e q _ _ hq => hqueues ▸ hq
  | some pQueue =>
      simp only [LinkState.unlink] at h
      split_ifs at h with hevent hqueue
      obtain rfl := Option.some.inj h
      refine hs.of_links (fun e q => ¬ (e = pEvent ∧ q = pQueue)) (fun e q => ?_)
        (fun e q => ?_) (fun e q _ he => he) fun e q _ _ hq => hq
      · refine mem_setEventList.trans ?_
        split_ifs with hq
        · subst hq
          rw [PointerSet.mem_erase]
          tauto
        · tauto
      · refine mem_setQueueList.trans ?_
        split_ifs with he
        · subst he
          rw [PointerSet.mem_erase]
          tauto
        · show q ∈ s.queueList e ↔ _
          tauto

/-- With an event all of its links go. -/
theorem Mutual.destroyEvent (hs : Mutual s) (h : s.destroyEvent pEvent = some s') : Mutual s' := by
  obtain ⟨t, ht, rfl⟩ := Option.map_eq_some_iff.1 h
  obtain ⟨hevents, hqueues, heventList, hqueueList⟩ := unlink_all hs ht
  refine hs.of_links (fun e _ => e ≠ pEvent) heventList hqueueList (fun e q hne he => ?_) fun e q _ _ hq => hqueues ▸ hq
  exact List.mem_filter.2 ⟨hevents ▸ he, decide_eq_true hne⟩

/-- **`~CSharedQueueEventBase` ends where no event is linked, and only there**: `Unlink` erases the first
event from the set, and its element is advanced from. -/
theorem destroyQueue_isSome (hs : Mutual s) (hlive : pQueue ∈ s.queues) :
    (s.destroyQueue pQueue).isSome = true ↔ s.eventList pQueue = [] := by
  unfold LinkState.destroyQueue
  rw [if_pos hlive, Option.isSome_map]
  cases hlist : s.eventList pQueue with
  | nil => simp [unlinkEach]
  | cons first rest =>
      refine ⟨fun h => absurd h ?_, fun h => absurd h (List.cons_ne_nil first rest)⟩
      unfold unlinkEach
      cases hunlink : s.unlink first none with
      | none => simp
      | some t =>
          have herased : first ∉ t.eventList pQueue := fun h =>
            ((unlink_all hs hunlink).2.2.1 first pQueue).1 h |>.2 rfl
          simp [herased]

/-- A queue without events takes no link with it. -/
theorem Mutual.destroyQueue (hs : Mutual s) (hempty : s.eventList pQueue = [])
    (h : s.destroyQueue pQueue = some s') : Mutual s' := by
  unfold LinkState.destroyQueue at h
  split_ifs at h with hlive
  rw [hempty] at h
  obtain rfl := Option.some.inj h
  refine hs.of_links (fun _ q => q ≠ pQueue) (fun e q => ?_) (fun e q => ?_)
    (fun e q _ he => he) fun e q _ hne hq => List.mem_filter.2 ⟨hq, decide_eq_true hne⟩
  · refine mem_setEventList.trans ?_
    split_ifs with hq
    · simp [hq]
    · simp [hq]
  · show q ∈ s.queueList e ↔ _
    constructor
    · intro hq
      refine ⟨hq, fun h => ?_⟩
      subst h
      have := (hs.mem_iff e q).2 hq
      rw [hempty] at this
      exact List.not_mem_nil this
    · exact And.left

/-- **One step.** A queue is destroyed only where nothing is linked to it, and then there are no
links to remove. -/
theorem Mutual.act {a : LinkAction} (hs : Mutual s) (hunlinked : Unlinked s a)
    (h : s.act a = some s') : Mutual s' := by
  cases a with
  | constructEvent pEvent =>
      simp only [LinkState.act] at h
      split_ifs at h with hnew
      obtain rfl := Option.some.inj h
      refine hs.of_links (fun _ _ => True) (fun e q => (iff_of_eq (and_true _)).symm) (fun e q => ?_)
        (fun e q _ he => List.mem_cons_of_mem pEvent he) fun e q _ _ hq => hq
      refine mem_setQueueList.trans ?_
      split_ifs with he
      · subst he
        have hnone : q ∉ s.queueList e := fun h => hnew (hs.events e q ((hs.mem_iff e q).2 h))
        simp [hnone]
      · exact (iff_of_eq (and_true _)).symm
  | constructQueue pQueue =>
      simp only [LinkState.act] at h
      split_ifs at h with hnew
      obtain rfl := Option.some.inj h
      refine hs.of_links (fun _ _ => True) (fun e q => ?_) (fun e q => (iff_of_eq (and_true _)).symm)
        (fun e q _ he => he) fun e q _ _ hq => List.mem_cons_of_mem pQueue hq
      refine mem_setEventList.trans ?_
      split_ifs with hq
      · subst hq
        have hnone : e ∉ s.eventList q := fun h => hnew (hs.queues e q h)
        simp [hnone]
      · exact (iff_of_eq (and_true _)).symm
  | link pEvent pQueue => exact hs.link h
  | unlink pEvent pQueue => exact hs.unlink h
  | destroyEvent pEvent => exact hs.destroyEvent h
  | destroyQueue pQueue => exact hs.destroyQueue hunlinked h

/-- **Every state of every run.** Nothing is linked at the start, and every step keeps it. -/
theorem mutual_reachable (h : system.ReachableBy Unlinked s) : Mutual s := by
  refine h.invariant ?_ fun s a s' hs hunlinked hstep => hs.act hunlinked hstep
  rintro s rfl
  exact ⟨fun _ _ => iff_of_false List.not_mem_nil List.not_mem_nil, fun _ _ h => h,
    fun _ _ h => absurd h List.not_mem_nil⟩

/-- An event that is there is unlinked. -/
theorem unlink_isSome {pQueue : Option ℕ} (hs : Mutual s) (hevent : pEvent ∈ s.events)
    (hqueue : ∀ q ∈ pQueue, q ∈ s.queues) : (s.unlink pEvent pQueue).isSome = true := by
  unfold LinkState.unlink
  rw [if_pos hevent]
  cases pQueue with
  | none =>
      dsimp only
      rw [Option.isSome_map]
      exact eraseFrom_isSome fun q hq => hs.queues pEvent q ((hs.mem_iff pEvent q).2 hq)
  | some pQueue =>
      dsimp only
      rw [if_pos (hqueue pQueue rfl)]
      rfl

/-- **The links stay mutual** as long as no queue is destroyed that an event is linked to: then no list
names an object that is not there, `Unlink` and the destructor of an event never use one, and the
destructor of a queue ends just where nothing is linked to it. -/
theorem links_mutual (h : system.ReachableBy Unlinked s) :
    Mutual s ∧
      (∀ pEvent ∈ s.events, ∀ pQueue : Option ℕ, (∀ q ∈ pQueue, q ∈ s.queues) →
        (s.unlink pEvent pQueue).isSome = true) ∧
      (∀ pEvent ∈ s.events, (s.destroyEvent pEvent).isSome = true) ∧
      ∀ pQueue ∈ s.queues, (s.destroyQueue pQueue).isSome = true ↔ s.eventList pQueue = [] := by
  have hs := mutual_reachable h
  refine ⟨hs, fun pEvent hevent pQueue hqueue => unlink_isSome hs hevent hqueue,
    fun pEvent hevent => ?_, fun pQueue hlive => destroyQueue_isSome hs hlive⟩
  unfold LinkState.destroyEvent
  rw [Option.isSome_map]
  exact unlink_isSome hs hevent fun q hq => absurd hq (Option.not_mem_none q)

instance : ∀ (s : LinkState) (a : LinkAction), Decidable (Unlinked s a)
  | s, .destroyQueue pQueue => inferInstanceAs (Decidable (s.eventList pQueue = []))
  | _, .constructEvent _ | _, .constructQueue _ | _, .link _ _ | _, .unlink _ _
  | _, .destroyEvent _ => isTrue trivial

/-- Two events and two queues; the event that is left keeps its link. -/
def twoQueues : List LinkAction :=
  [.constructEvent 1, .constructEvent 2, .constructQueue 3, .constructQueue 4, .link 1 (some 3),
    .link 1 (some 4), .link 2 (some 4), .unlink 1 none, .destroyQueue 3, .destroyEvent 1]

/-- An event is linked to two queues and leaves one of them, before that one is destroyed. Its
destructor has no links to remove. -/
theorem links_mutual_two : ∃ s, (system.restrict Unlinked).run twoQueues {} = some s ∧
    s.eventList 4 = [2] ∧ Mutual s :=
  ⟨_, rfl, by decide, (links_mutual (.run_restrict twoQueues (.init rfl) rfl)).1⟩

/-- A queue that an event is linked to: its destructor advances an iterator whose element was
erased. `Unlink` erases the element that the loop of the destructor stands on. -/
theorem destroyQueue_faults : ∃ s, system.Reachable s ∧ 3 ∈ s.queues ∧ s.eventList 3 = [1] ∧
    s.destroyQueue 3 = none :=
  ⟨_, .run [.constructEvent 1, .constructQueue 3, .link 1 (some 3)] (.init rfl) rfl, by decide,
    by decide, by decide⟩

end LinkState

end Queue
end ECSUtil

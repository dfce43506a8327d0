/-
# The locks of a thread pool

The sections under locks of `CThreadPool` and `CThreadWork` (`ECSUtil/ThreadPool.h`), of `CThreadPoolBase`
(`ECSUtil/ThreadPool.cpp`), of `CSimpleWorkerThread` and `KillThreadQueueSRW`
(`ECSUtil/SimpleWorkerThread.cpp`, `ECSUtil/SimpleWorkerThread.h`) and of the events of a queue
(`ECSUtil/CSharedQueue.cpp`), with the list lock of each `CRWLockAcquire` (`ECSUtil/CRWLock.cpp`).  What
does not depend on a lock is left out, and every test may come out either way.

"Always lock pool first, then msg if you need both" is the order of the source.  The event of a worker is
the exception: `StartNewThread` links it under the lock of `MsgQueue`, and its destructor locks `MsgQueue`
under the lock of the event; both are done under the write lock of `Pool` (`locks_not_stuck`).

A function is the sections that it goes through, and it keeps the order if each lock it asks for may
be asked for with those the thread has.  Two places are told apart: without the lock of `Pool` and
those above it (`Outside`), and under its write lock (`Inside`), where the events of the workers are
linked.
-/

import ECSUtil.Lib.LockOrder

namespace ECSUtil
namespace ThreadPool

/-- The locks of a pool. -/
inductive PoolLock
  /-- `Pool.GetLock()`. -/
  | pool
  /-- `MsgQueue.GetLock()`. -/
  | msgQueue
  /-- `rwlListLock` of the one or of the other. -/
  | rwlListLock (ofPool : Bool)
  | prwlPerf
  /-- `csWorkEvent` of a worker. -/
  | csWorkEvent (i : ℕ)
  | csKillThread (i : ℕ)
  /-- `rwlQueueEvent` of the `MsgEvent` of a worker. -/
  | rwlQueueEvent (i : ℕ)
  /-- `rwlQueueEvent` of a `QueueEvent` of `SendMessageToPool`. -/
  | queueEvent (t : ℕ)
  | csGlobalThreadSet
  | csGlobalCThreadPool
  deriving DecidableEq, Repr

namespace PoolLock

open Sections LockOrder

/-- The order of the locks. -/
def order : LockOrder PoolLock where
  rank
    | csGlobalCThreadPool => 0
    | pool => 1
    | queueEvent _ => 2
    | msgQueue => 3
    | csKillThread _ => 4
    | csGlobalThreadSet => 4
    | csWorkEvent _ => 5
    | prwlPerf => 6
    | rwlListLock _ => 7
    | rwlQueueEvent _ => 0
  recursive
    | pool | msgQueue | csWorkEvent _ | csKillThread _ | csGlobalThreadSet | csGlobalCThreadPool => true
    | _ => false
  gated
    | rwlQueueEvent _ => true
    | _ => false
  gate := pool

/-- A section under a `CRWLockAcquire`: it is put on the list, looks for others of its thread before it
locks and before it unlocks, and is taken off the list. -/
def acquire (k : PoolLock) (bWrite : Bool) (c : Sections PoolLock) : Sections PoolLock :=
  let list := rwlListLock (k = pool)
  seqs [.lock list true skip, .lock list false skip,
    .lock k bWrite (seq c (.lock list false skip)), .lock list true skip]

/-- `GetCount`, `empty` and `size` of `MsgQueue`. -/
def getCount : Sections PoolLock := acquire msgQueue false skip

/-- `TriggerEvent` of `MsgQueue`. -/
def triggerEvent : Sections PoolLock := acquire msgQueue false skip

/-- `IfActive`, `GetCurrentThreadID`, `KillThread`, `StartWork`, `SignalTermination`,
`RemoveAllTermEvent`. -/
def workEvent (i : ℕ) : Sections PoolLock := .lock (csWorkEvent i) true skip

/-- `AddTermEvent`. -/
def addTermEvent (i : ℕ) : Sections PoolLock := .lock (csWorkEvent i) true (workEvent i)

/-- For some workers. -/
def workers (c : ℕ → Sections PoolLock) : Sections PoolLock := loop (any c)

/-- The counters. -/
def perf (c : Sections PoolLock) : Sections PoolLock := .lock prwlPerf false c

/-- `GetNumThreadsInternal`, without `bExclusive`. -/
def getNumThreads : Sections PoolLock :=
  acquire pool false (seqs [getCount, workers fun i => seqs [maybe (workEvent i), maybe (workEvent i)],
    maybe (perf skip)])

/-- `GetMinNumThreadsInternal`. -/
def getMinNumThreadsInternal : Sections PoolLock := acquire msgQueue false (maybe getCount)

/-- `SetInUse`. -/
def setInUse : Sections PoolLock := acquire pool false (acquire msgQueue true (maybe (perf skip)))

/-- `Link` of the `MsgEvent` of a worker to `MsgQueue`. -/
def link (i : ℕ) : Sections PoolLock :=
  seq (acquire msgQueue true skip) (.lock (rwlQueueEvent i) true skip)

/-- `Unlink` of the `MsgEvent` of a worker from `MsgQueue`. -/
def unlinkQueue (i : ℕ) : Sections PoolLock :=
  seq (acquire msgQueue true skip) (.lock (rwlQueueEvent i) true skip)

/-- `KillThreadWait`. -/
def killThreadWait (i : ℕ) : Sections PoolLock :=
  maybe (seqs [maybe (workEvent i),
    .lock (csKillThread i) true (maybe (seq (loop (workEvent i)) (workEvent i)))])

/-- `~CThreadWork` of a worker whose thread has ended: `~CSharedQueueEvent` with `Unlink` from all queues,
`~CSimpleWorkerThread`, `~CSimpleWorkerThreadEvents`. -/
def destroyWork (i : ℕ) : Sections PoolLock :=
  seqs [killThreadWait i, .lock (rwlQueueEvent i) true (loop (acquire msgQueue true skip)),
    killThreadWait i, maybe (.lock csGlobalThreadSet true skip), workEvent i]

/-- `CreateThread`. -/
def createThread (i : ℕ) : Sections PoolLock := seq (workEvent i) (maybe (workEvent i))

/-- `emplace_back` of `Pool` with a `CThreadWork` that is destroyed when it has been copied. -/
def emplaceBack (j : ℕ) : Sections PoolLock :=
  seqs [.lock csGlobalThreadSet true skip, acquire pool true (acquire pool false skip), destroyWork j]

/-- `StartNewThread`. -/
def startNewThread : Sections PoolLock :=
  any fun i => any fun j =>
    seqs [acquire pool true (seqs [workers workEvent, maybe (emplaceBack j), link i]),
      createThread i, workEvent i]

/-- `AddThreads`. -/
def addThreads : Sections PoolLock :=
  seqs [maybe getCount,
    acquire pool true (seqs [getNumThreads,
      maybe (seqs [loop (seqs [getNumThreads, getMinNumThreadsInternal, startNewThread]),
        getNumThreads, getMinNumThreadsInternal, getNumThreads,
        acquire msgQueue true (seqs [maybe getCount,
          -- `front`
          maybe (acquire msgQueue true skip), maybe startNewThread])])])]

/-- `UpdatePerf`, with the `push_front` of `MsgQueue`. -/
def updatePerf : Sections PoolLock :=
  seq (acquire pool false (acquire msgQueue true
      (seqs [maybe (perf skip), maybe (acquire msgQueue true triggerEvent), getCount])))
    (perf skip)

/-- `SendMessageToPool`; the `QueueEvent` of the sender is `t`. -/
def sendMessageToPool (t : ℕ) : Sections PoolLock :=
  seqs [acquire pool false (workers workEvent), maybe getCount,
    maybe (seqs [acquire msgQueue true skip, .lock (queueEvent t) true skip, loop getCount,
      .lock (queueEvent t) true (loop (acquire msgQueue true skip))]),
    updatePerf, addThreads]

/-- `SendMessageToPoolDelayed`. -/
def sendMessageToPoolDelayed : Sections PoolLock := seq (acquire msgQueue true skip) addThreads

/-- `TransferFutureQueue`. -/
def transferFutureQueue (t : ℕ) : Sections PoolLock :=
  loop (seq (acquire msgQueue false skip)
    (maybe (seq (sendMessageToPool t) (acquire msgQueue true skip))))

/-- `SearchMessageBackModify`, `SearchMessageKill`. -/
def searchMessageModify : Sections PoolLock :=
  acquire pool false (acquire msgQueue true (loop (maybe (perf getCount))))

/-- `SearchMessage`. -/
def searchMessage : Sections PoolLock := acquire pool false (acquire msgQueue false skip)

/-- `DumpQueue`. -/
def dumpQueue : Sections PoolLock :=
  acquire pool false (seq (acquire msgQueue false skip) (workers workEvent))

/-- `GetCurrentWorkItems`. -/
def getCurrentWorkItems : Sections PoolLock := acquire pool false (workers workEvent)

/-- `WaitForWorkFinished`. -/
def waitForWorkFinished : Sections PoolLock := loop (acquire msgQueue false getCount)

/-- `KillThreadQueueSRW`. -/
def killThreadQueueSRW : Sections PoolLock :=
  seq (loop (seq (acquire pool true (workers workEvent))
      (loop (seq (acquire pool true (workers fun i => seq (workEvent i) (maybe (addTermEvent i))))
        (workers workEvent)))))
    (acquire pool true (workers destroyWork))

/-- `Terminate`. -/
def terminate (t : ℕ) : Sections PoolLock :=
  seqs [killThreadQueueSRW, transferFutureQueue t, perf skip]

/-- `DiscardPool`, with the `clear` of `MsgQueue`. -/
def discardPool : Sections PoolLock :=
  seqs [killThreadQueueSRW,
    acquire pool false (acquire msgQueue true (acquire msgQueue true triggerEvent)), perf skip]

/-- `GarbageCollect`, which is `DeleteOldThreadEntries`. -/
def garbageCollect : Sections PoolLock :=
  acquire pool true (workers fun i => seq (workEvent i) (maybe (destroyWork i)))

/-- `RegisterCThreadPool`, `UnregisterCThreadPool`, `GlobalGarbageCollect`, `DumpPools`, `AllTerminate`. -/
def global (t : ℕ) : Sections PoolLock :=
  .lock csGlobalCThreadPool true (any fun n =>
    match n with
    | 0 => skip
    | 1 => garbageCollect
    | 2 => getCount
    | _ => terminate t)

/-- What a thread calls. -/
def call (t : ℕ) : Sections PoolLock :=
  any fun n =>
    match n with
    | 0 => sendMessageToPool t
    | 1 => sendMessageToPoolDelayed
    | 2 => searchMessageModify
    | 3 => searchMessage
    | 4 => dumpQueue
    | 5 => getCurrentWorkItems
    | 6 => waitForWorkFinished
    | 7 => terminate t
    | 8 => discardPool
    | 9 => getNumThreads
    | 10 => getCount
    | _ => global t

/-- A turn of the loop of `DoWork`; `DoProcess` may call the pool. -/
def workTurn (i : ℕ) : Sections PoolLock :=
  seqs [acquire pool true (acquire msgQueue true (maybe setInUse)),
    maybe (seqs [addThreads, loop (call i), maybe (perf skip),
      acquire pool true (seq getNumThreads (acquire msgQueue true
        (maybe (seqs [getCount, triggerEvent, getCount])))),
      updatePerf, getNumThreads, maybe (workEvent i)])]

/-- `DoWork`. -/
def doWork (i : ℕ) : Sections PoolLock :=
  seqs [loop (workTurn i),
    maybe (seqs [acquire msgQueue false skip,
      maybe (acquire pool true (seqs [getNumThreads, getMinNumThreadsInternal, maybe (workEvent i)])),
      acquire msgQueue false skip, maybe (transferFutureQueue i)])]

/-- `ThreadProc` of a worker, with `InitInstance` and `ExitInstance`. -/
def threadProc (i : ℕ) : Sections PoolLock :=
  seqs [.lock csGlobalThreadSet true skip, maybe (workEvent i), loop (doWork i),
    maybe (unlinkQueue i), maybe getNumThreads, .lock csGlobalThreadSet true skip,
    .lock (csWorkEvent i) true (workEvent i)]

/-- What a thread of the program does: it is a worker, or calls the pool. -/
def thread (i : ℕ) : Sections PoolLock := seq (maybe (threadProc i)) (loop (call i))

/-- A thread has no lock of the pool, or the one of all pools. -/
structure Outside (l : List (PoolLock × Bool)) : Prop where
  plain : ∀ e ∈ l, order.gated e.1 = false
  fits : order.Fits l 1

/-- A thread has the write lock of `Pool`, and no lock above that of `MsgQueue`. -/
structure Inside (l : List (PoolLock × Bool)) : Prop where
  plain : ∀ e ∈ l, order.gated e.1 = false
  gate : (pool, true) ∈ l
  fits : order.Fits l 4
  canMsg : order.Can l msgQueue true

variable {l : List (PoolLock × Bool)} {k : PoolLock} {b : Bool} {c : Sections PoolLock}

/-- A thread without locks is outside. -/
theorem outside_nil : Outside [] := ⟨fun _ h => absurd h List.not_mem_nil, fun _ h => absurd h List.not_mem_nil⟩

/-- Under the write lock of `Pool`. -/
theorem Outside.inside (h : Outside l) : Inside ((pool, true) :: l) where
  plain := List.forall_mem_cons.2 ⟨rfl, h.plain⟩
  gate := List.mem_cons_self
  fits := (h.fits.mono (by decide)).cons rfl (by decide)
  canMsg := ((h.fits.mono (by decide)).cons rfl (by decide)).can rfl

/-- Under the write lock of `Pool` once more. -/
theorem Inside.pool (h : Inside l) : Inside ((.pool, b) :: l) where
  plain := List.forall_mem_cons.2 ⟨rfl, h.plain⟩
  gate := List.mem_cons_of_mem _ h.gate
  fits := h.fits.cons rfl (by decide)
  canMsg := h.canMsg.cons rfl (by decide)

/-- Under the write lock of `MsgQueue` too. -/
theorem Inside.msgQueue (h : Inside l) : Inside ((.msgQueue, true) :: l) where
  plain := List.forall_mem_cons.2 ⟨rfl, h.plain⟩
  gate := List.mem_cons_of_mem _ h.gate
  fits := h.fits.cons rfl (by decide)
  canMsg := .self rfl id

/-- Inside, `Pool` may be locked again. -/
theorem Inside.canPool (h : Inside l) : order.Can l .pool b := .inl ⟨rfl, .inl h.gate⟩

/-- An acquire object locks the list of its lock for a moment before the lock, under it and behind
it. -/
theorem keeps_acquire (hcan : order.Can l k b) (hfits : order.Fits l 7) (hk : order.gated k = false)
    (hlt : order.rank k < 7) (hc : order.Keeps ((k, b) :: l) c) : order.Keeps l (acquire k b c) := by
  have hlist : ∀ b', order.Keeps l (.lock (rwlListLock (k = PoolLock.pool)) b' skip) := fun _ =>
    .lock (hfits.can rfl) trivial
  refine .cons (hlist true) <| .cons (hlist false) <| .cons (.lock hcan ⟨hc, ?_⟩) <| .cons (hlist true) .nil
  exact .lock ((hfits.cons hk hlt).can rfl) trivial

/-- What is done under `Pool` keeps to the order, with the acquire object around it. -/
theorem keeps_pool (hcan : order.Can l pool b) (hfits : order.Fits l 7)
    (hc : order.Keeps ((pool, b) :: l) c) : order.Keeps l (acquire pool b c) :=
  keeps_acquire hcan hfits rfl (by decide) hc

/-- What is done under `MsgQueue` keeps to the order, with the acquire object around it. -/
theorem keeps_msgQueue (hcan : order.Can l msgQueue b) (hfits : order.Fits l 7)
    (hc : order.Keeps ((msgQueue, b) :: l) c) : order.Keeps l (acquire msgQueue b c) :=
  keeps_acquire hcan hfits rfl (by decide) hc

/-- A lock that is taken and left. -/
theorem keeps_leaf (hcan : order.Can l k b) : order.Keeps l (.lock k b skip) := .lock hcan trivial

/-- The section of a work event keeps to the order. -/
theorem keeps_workEvent (hfits : order.Fits l 5) (i : ℕ) : order.Keeps l (workEvent i) :=
  keeps_leaf (hfits.can rfl)

/-- Sections of all workers keep to the order if each does. -/
theorem keeps_workers {w : ℕ → Sections PoolLock} (h : ∀ i, order.Keeps l (w i)) :
    order.Keeps l (workers w) := h

/-- The section of the counters keeps to the order. -/
theorem keeps_perf (hfits : order.Fits l 6) (hc : order.Keeps ((prwlPerf, false) :: l) c) :
    order.Keeps l (perf c) := .lock (hfits.can rfl) hc

/-- `GetNumThreads` keeps to the order. -/
theorem keeps_getNumThreads (hpool : order.Can l pool false) (hmsg : order.Can l msgQueue false)
    (hfits : order.Fits l 5) : order.Keeps l getNumThreads := by
  have hfits' : order.Fits ((pool, false) :: l) 5 := hfits.cons rfl (by decide)
  refine keeps_pool hpool (hfits.mono (by decide)) (.cons ?_ <| .cons (keeps_workers fun i => ?_) <| .cons ?_ .nil)
  · exact keeps_msgQueue (hmsg.cons rfl (by decide)) (hfits'.mono (by decide)) trivial
  · exact .cons (.maybe (keeps_workEvent hfits' i)) <| .cons (.maybe (keeps_workEvent hfits' i)) .nil
  · exact .maybe (keeps_perf (hfits'.mono (by decide)) trivial)

/-- `GetMinNumThreadsInternal` keeps to the order. -/
theorem keeps_getMinNumThreadsInternal (hmsg : order.Can l msgQueue false) (hfits : order.Fits l 4) :
    order.Keeps l getMinNumThreadsInternal := by
  refine keeps_msgQueue hmsg (hfits.mono (by decide)) (.maybe ?_)
  exact keeps_msgQueue (.self rfl id) ((hfits.mono (by decide)).cons rfl (by decide)) trivial

/-- The event of a worker, under the write lock of `Pool` or alone. -/
theorem may_rwlQueueEvent (hplain : ∀ e ∈ l, order.gated e.1 = false) (h : l = [] ∨ (pool, true) ∈ l)
    (i : ℕ) : order.May l (rwlQueueEvent i) true := by
  refine .inr ⟨?_, h⟩
  intro e he hk
  have hgated := hplain e he
  rw [hk] at hgated
  exact Bool.noConfusion hgated

/-- A function that is called under the write lock of `Pool` and has its own locks. -/
theorem Inside.keeps_getNumThreads (h : Inside l) : order.Keeps l getNumThreads :=
  PoolLock.keeps_getNumThreads h.canPool h.canMsg.shared (h.fits.mono (by decide))

/-- Inside, the link of an event keeps to the order. -/
theorem Inside.keeps_link (h : Inside l) (i : ℕ) : order.Keeps l (link i) :=
  ⟨keeps_msgQueue h.canMsg (h.fits.mono (by decide)) trivial,
    may_rwlQueueEvent h.plain (.inr h.gate) i, trivial⟩

/-- `KillThreadWait` keeps to the order. -/
theorem keeps_killThreadWait (hfits : order.Fits l 4) (i : ℕ) : order.Keeps l (killThreadWait i) := by
  have hinner : order.Fits ((csKillThread i, true) :: l) 5 := (hfits.mono (by decide)).cons rfl (Nat.lt_succ_self 4)
  refine .maybe <| .cons (.maybe (keeps_workEvent (hfits.mono (by decide)) i)) <| .cons ?_ .nil
  exact .lock (hfits.can rfl) (.maybe ⟨keeps_workEvent hinner i, keeps_workEvent hinner i⟩)

/-- Inside, the destruction of a worker keeps to the order. -/
theorem Inside.keeps_destroyWork (h : Inside l) (i : ℕ) : order.Keeps l (destroyWork i) := by
  refine .cons (keeps_killThreadWait h.fits i) <| .cons ?_ <| .cons (keeps_killThreadWait h.fits i) <|
    .cons (.maybe (keeps_leaf (h.fits.can rfl))) <| .cons (keeps_workEvent (h.fits.mono (by decide)) i) .nil
  refine ⟨may_rwlQueueEvent h.plain (.inr h.gate) i, ?_⟩
  have hfits : ∀ {r}, order.Fits l r → order.Fits ((rwlQueueEvent i, true) :: l) r := fun hr =>
    hr.cons_gated rfl h.gate
  refine keeps_msgQueue ?_ (hfits (h.fits.mono (by decide))) trivial
  rcases h.canMsg with ⟨hr, hagain⟩ | ⟨hk, hmsg⟩
  · exact .inl ⟨hr, hagain.imp (List.mem_cons_of_mem _) (And.imp id (List.mem_cons_of_mem _))⟩
  · exact (hfits hmsg).can hk

/-- Inside, `StartNewThread` keeps to the order. -/
theorem Inside.keeps_startNewThread (h : Inside l) : order.Keeps l startNewThread := by
  intro i j
  have hwork : ∀ {l}, Inside l → ∀ i, order.Keeps l (workEvent i) := fun h i =>
    keeps_workEvent (h.fits.mono (by decide)) i
  refine .cons ?_ <| .cons ⟨hwork h i, .maybe (hwork h i)⟩ <| .cons (hwork h i) .nil
  refine keeps_pool h.canPool (h.fits.mono (by decide)) ?_
  refine .cons (keeps_workers (hwork h.pool)) <| .cons (.maybe ?_) <| .cons (h.pool.keeps_link i) .nil
  -- `emplace_back`
  refine .cons (keeps_leaf (h.pool.fits.can rfl)) <| .cons ?_ <| .cons (h.pool.keeps_destroyWork j) .nil
  refine keeps_pool h.pool.canPool (h.pool.fits.mono (by decide)) ?_
  exact keeps_pool h.pool.pool.canPool (h.pool.pool.fits.mono (by decide)) trivial

/-- `GetCount` keeps to the order. -/
theorem Outside.keeps_getCount (h : Outside l) : order.Keeps l getCount :=
  keeps_msgQueue ((h.fits.mono (by decide)).can rfl) (h.fits.mono (by decide)) trivial

/-- Outside, `GetNumThreads` keeps to the order. -/
theorem Outside.keeps_getNumThreads (h : Outside l) : order.Keeps l getNumThreads :=
  PoolLock.keeps_getNumThreads (h.fits.can rfl) ((h.fits.mono (by decide)).can rfl)
    (h.fits.mono (by decide))

/-- `AddThreads` keeps to the order. -/
theorem Outside.keeps_addThreads (h : Outside l) : order.Keeps l addThreads := by
  have hin := h.inside
  refine .cons (.maybe h.keeps_getCount) <| .cons ?_ .nil
  refine keeps_pool (h.fits.can rfl) (h.fits.mono (by decide)) ?_
  have hmin := keeps_getMinNumThreadsInternal hin.canMsg.shared hin.fits
  have hnum := hin.keeps_getNumThreads
  refine .cons hnum <| .cons (.maybe ?_) .nil
  refine .cons (show order.Keeps _ (loop _) from ?_) <| .cons hnum <| .cons hmin <| .cons hnum <| .cons ?_ .nil
  · exact .cons hnum <| .cons hmin <| .cons hin.keeps_startNewThread .nil
  · refine keeps_msgQueue hin.canMsg (hin.fits.mono (by decide)) ?_
    have hmsg := hin.msgQueue
    refine .cons (.maybe ?_) <| .cons (.maybe ?_) <| .cons (.maybe hmsg.keeps_startNewThread) .nil
    · exact keeps_msgQueue hmsg.canMsg.shared (hmsg.fits.mono (by decide)) trivial
    · exact keeps_msgQueue hmsg.canMsg (hmsg.fits.mono (by decide)) trivial

/-- Under the read lock of `Pool`. -/
theorem Outside.keeps_shared (h : Outside l) (hc : order.Fits ((pool, false) :: l) 3 →
    order.Keeps ((pool, false) :: l) c) : order.Keeps l (acquire pool false c) :=
  keeps_pool (h.fits.can rfl) (h.fits.mono (by decide))
    (hc ((h.fits.mono (by decide)).cons rfl (by decide)))

/-- Under the lock of `MsgQueue`, which is not held yet. -/
theorem keeps_inMsgQueue (h : order.Fits l 3)
    (hc : order.Fits ((msgQueue, b) :: l) 4 → order.Keeps ((msgQueue, b) :: l) c) :
    order.Keeps l (acquire msgQueue b c) :=
  keeps_msgQueue (h.can rfl) (h.mono (by decide)) (hc ((h.mono (by decide)).cons rfl (by decide)))

/-- `MsgQueue` once more. -/
theorem keeps_again {b' : Bool} (h : order.Fits ((msgQueue, b') :: l) 4) (hb : b = true → b' = true)
    (hc : order.Keeps ((msgQueue, b) :: (msgQueue, b') :: l) c) :
    order.Keeps ((msgQueue, b') :: l) (acquire msgQueue b c) :=
  keeps_msgQueue (.self rfl hb) (h.mono (by decide)) hc

/-- `UpdatePerf` keeps to the order. -/
theorem Outside.keeps_updatePerf (h : Outside l) : order.Keeps l updatePerf := by
  refine ⟨h.keeps_shared fun hpool => keeps_inMsgQueue hpool fun hmsg => ?_,
    keeps_perf (h.fits.mono (by decide)) trivial⟩
  refine .cons (.maybe (keeps_perf (hmsg.mono (by decide)) trivial)) <| .cons (.maybe ?_) <|
    .cons (keeps_again hmsg (fun hb => Bool.noConfusion hb) trivial) .nil
  exact keeps_again hmsg id (keeps_again (hmsg.cons rfl (by decide)) (fun hb => Bool.noConfusion hb) trivial)

/-- `SendMessageToPool` keeps to the order. -/
theorem Outside.keeps_sendMessageToPool (h : Outside l) (t : ℕ) :
    order.Keeps l (sendMessageToPool t) := by
  have hmsg : order.Keeps l (acquire msgQueue true skip) :=
    keeps_inMsgQueue (h.fits.mono (by decide)) fun _ => trivial
  refine .cons (h.keeps_shared fun hpool => keeps_workers (keeps_workEvent (hpool.mono (by decide)))) <|
    .cons (.maybe h.keeps_getCount) <| .cons (.maybe ?_) <| .cons h.keeps_updatePerf <|
    .cons h.keeps_addThreads .nil
  have hevent : order.Can l (queueEvent t) true :=
    (h.fits.mono (by decide : 1 ≤ 2) : order.Fits l (order.rank (queueEvent t))).can rfl
  refine .cons hmsg <| .cons (keeps_leaf hevent) <| .cons h.keeps_getCount <| .cons ?_ .nil
  exact .lock hevent (keeps_inMsgQueue ((h.fits.mono (by decide)).cons rfl (Nat.lt_succ_self 2)) fun _ => trivial)

/-- `TransferFutureQueue` keeps to the order. -/
theorem Outside.keeps_transferFutureQueue (h : Outside l) (t : ℕ) :
    order.Keeps l (transferFutureQueue t) :=
  ⟨keeps_inMsgQueue (h.fits.mono (by decide)) fun _ => trivial,
    .maybe ⟨h.keeps_sendMessageToPool t, keeps_inMsgQueue (h.fits.mono (by decide)) fun _ => trivial⟩⟩

/-- `KillThreadQueueSRW` keeps to the order. -/
theorem Outside.keeps_killThreadQueueSRW (h : Outside l) : order.Keeps l killThreadQueueSRW := by
  have hin := h.inside
  have hpool : ∀ {c}, order.Keeps ((pool, true) :: l) c → order.Keeps l (acquire pool true c) :=
    keeps_pool (h.fits.can rfl) (h.fits.mono (by decide))
  have hwork := fun i => keeps_workEvent (hin.fits.mono (by decide) : order.Fits _ 5) i
  refine ⟨⟨hpool (keeps_workers hwork), hpool (keeps_workers fun i => ⟨hwork i, .maybe ?_⟩),
    keeps_workers (keeps_workEvent (h.fits.mono (by decide)))⟩,
    hpool (keeps_workers hin.keeps_destroyWork)⟩
  exact .lock ((hin.fits.mono (by decide : 4 ≤ 5) : order.Fits _ (order.rank (csWorkEvent i))).can rfl)
    (keeps_leaf (.self rfl id))

/-- `Terminate` keeps to the order. -/
theorem Outside.keeps_terminate (h : Outside l) (t : ℕ) : order.Keeps l (terminate t) :=
  .cons h.keeps_killThreadQueueSRW <| .cons (h.keeps_transferFutureQueue t) <|
    .cons (keeps_perf (h.fits.mono (by decide)) trivial) .nil

/-- `DiscardPool` keeps to the order. -/
theorem Outside.keeps_discardPool (h : Outside l) : order.Keeps l discardPool := by
  refine .cons h.keeps_killThreadQueueSRW <| .cons ?_ <|
    .cons (keeps_perf (h.fits.mono (by decide)) trivial) .nil
  refine h.keeps_shared fun hpool => keeps_inMsgQueue hpool fun hmsg => keeps_again hmsg id ?_
  exact keeps_again (hmsg.cons rfl (by decide)) (fun hb => Bool.noConfusion hb) trivial

/-- `GarbageCollect` keeps to the order. -/
theorem Outside.keeps_garbageCollect (h : Outside l) : order.Keeps l garbageCollect :=
  keeps_pool (h.fits.can rfl) (h.fits.mono (by decide)) (keeps_workers fun i =>
    ⟨keeps_workEvent (h.inside.fits.mono (by decide)) i, .maybe (h.inside.keeps_destroyWork i)⟩)

/-- The calls under the lock of all pools keep to the order. -/
theorem keeps_global (t : ℕ) : order.Keeps [] (global t) := by
  have hout : Outside [(csGlobalCThreadPool, true)] :=
    ⟨List.forall_mem_singleton.2 rfl, (outside_nil.fits).cons rfl (by decide)⟩
  refine .lock (.inr ⟨rfl, fun _ h => absurd h List.not_mem_nil⟩) fun n => ?_
  match n with
  | 0 => exact trivial
  | 1 => exact hout.keeps_garbageCollect
  | 2 => exact hout.keeps_getCount
  | n + 3 => exact hout.keeps_terminate t

/-- **Every call keeps to the order.** One case for each of the calls. -/
theorem keeps_call (t : ℕ) : order.Keeps [] (call t) := by
  have h := outside_nil
  intro n
  match n with
  | 0 => exact h.keeps_sendMessageToPool t
  | 1 => exact ⟨keeps_inMsgQueue (h.fits.mono (by decide)) fun _ => trivial, h.keeps_addThreads⟩
  | 2 =>
      refine h.keeps_shared fun hpool => keeps_inMsgQueue hpool fun hmsg => .maybe ?_
      refine keeps_perf (hmsg.mono (by decide)) ?_
      refine keeps_msgQueue ?_ ((hmsg.mono (by decide)).cons rfl (by decide)) trivial
      exact .inl ⟨rfl, .inl (List.mem_cons_of_mem _ List.mem_cons_self)⟩
  | 3 => exact h.keeps_shared fun hpool => keeps_inMsgQueue hpool fun _ => trivial
  | 4 =>
      exact h.keeps_shared fun hpool => ⟨keeps_inMsgQueue hpool fun _ => trivial,
        keeps_workers (keeps_workEvent (hpool.mono (by decide)))⟩
  | 5 => exact h.keeps_shared fun hpool => keeps_workers (keeps_workEvent (hpool.mono (by decide)))
  | 6 =>
      exact keeps_inMsgQueue (h.fits.mono (by decide)) fun hmsg =>
        keeps_again hmsg (fun hb => Bool.noConfusion hb) trivial
  | 7 => exact h.keeps_terminate t
  | 8 => exact h.keeps_discardPool
  | 9 => exact h.keeps_getNumThreads
  | 10 => exact h.keeps_getCount
  | n + 11 => exact keeps_global t

/-- A turn of a worker keeps to the order. -/
theorem keeps_workTurn (i : ℕ) : order.Keeps [] (workTurn i) := by
  have h := outside_nil
  have hin := h.inside
  have hpool : ∀ {c}, order.Keeps [(pool, true)] c → order.Keeps [] (acquire pool true c) :=
    keeps_pool (h.fits.can rfl) (h.fits.mono (by decide))
  have hmsg : ∀ {c}, order.Keeps [(msgQueue, true), (pool, true)] c →
      order.Keeps [(pool, true)] (acquire msgQueue true c) :=
    keeps_msgQueue hin.canMsg (hin.fits.mono (by decide))
  have hread : order.Keeps [(msgQueue, true), (pool, true)] (acquire msgQueue false skip) :=
    keeps_again hin.msgQueue.fits (fun hb => Bool.noConfusion hb) trivial
  refine .cons (hpool (hmsg (.maybe ?_))) <| .cons (.maybe ?_) .nil
  · -- `SetInUse`
    refine keeps_pool hin.msgQueue.canPool (hin.msgQueue.fits.mono (by decide)) ?_
    have hagain := hin.msgQueue.pool (b := false)
    refine keeps_msgQueue hagain.canMsg (hagain.fits.mono (by decide)) (.maybe ?_)
    exact keeps_perf (hagain.msgQueue.fits.mono (by decide)) trivial
  · refine .cons h.keeps_addThreads <| .cons (keeps_call i) <|
      .cons (.maybe (keeps_perf (h.fits.mono (by decide)) trivial)) <| .cons (hpool ?_) <|
      .cons h.keeps_updatePerf <| .cons h.keeps_getNumThreads <|
      .cons (.maybe (keeps_workEvent (h.fits.mono (by decide)) i)) .nil
    exact ⟨hin.keeps_getNumThreads, hmsg (.maybe (.cons hread <| .cons hread <| .cons hread .nil))⟩

/-- `DoWork` keeps to the order. -/
theorem keeps_doWork (i : ℕ) : order.Keeps [] (doWork i) := by
  have h := outside_nil
  have hin := h.inside
  have hread : order.Keeps [] (acquire msgQueue false skip) :=
    keeps_inMsgQueue (h.fits.mono (by decide)) fun _ => trivial
  refine .cons (show order.Keeps [] (loop _) from keeps_workTurn i) <| .cons (.maybe ?_) .nil
  refine .cons hread <| .cons (.maybe ?_) <| .cons hread <| .cons (.maybe (h.keeps_transferFutureQueue i)) .nil
  refine keeps_pool (h.fits.can rfl) (h.fits.mono (by decide)) ?_
  exact .cons hin.keeps_getNumThreads <| .cons (keeps_getMinNumThreadsInternal hin.canMsg.shared hin.fits) <|
    .cons (.maybe (keeps_workEvent (hin.fits.mono (by decide)) i)) .nil

/-- `ThreadProc` of a worker keeps to the order. -/
theorem keeps_threadProc (i : ℕ) : order.Keeps [] (threadProc i) := by
  have h := outside_nil
  have hset : order.Keeps [] (.lock csGlobalThreadSet true skip) :=
    keeps_leaf ((h.fits.mono (by decide)).can rfl)
  refine .cons hset <| .cons (.maybe (keeps_workEvent (h.fits.mono (by decide)) i)) <|
    .cons (show order.Keeps [] (loop _) from keeps_doWork i) <| .cons (.maybe ?_) <|
    .cons (.maybe h.keeps_getNumThreads) <| .cons hset <| .cons ?_ .nil
  · exact ⟨keeps_inMsgQueue (h.fits.mono (by decide)) fun _ => trivial,
      may_rwlQueueEvent h.plain (.inl rfl) i, trivial⟩
  · exact .lock ((h.fits.mono (by decide : 1 ≤ 5) : order.Fits _ (order.rank (csWorkEvent i))).can rfl)
      (keeps_leaf (.self rfl id))

/-- All that a thread of the program does keeps to the order. -/
theorem keeps_thread (i : ℕ) : order.Keeps [] (thread i) :=
  ⟨.maybe (keeps_threadProc i), keeps_call i⟩

/-- **The locks of a pool do not get stuck**: whatever any number of threads do with a pool, as its workers
or by calls, as long as not all of them are at their end some thread has what it needs for its next step:
it asks for no lock, or for one that it may take again, or for one that no thread has. -/
theorem locks_not_stuck {n : ℕ} {s : List (List (Todo PoolLock))}
    (h : (order.system ((List.range n).map thread)).Reachable s) (hs : ∃ l ∈ s, l ≠ []) :
    ∃ (t : ℕ) (l : List (Todo PoolLock)), s[t]? = some l ∧ order.Moves s l ∧
      ∀ choice, ((order.system ((List.range n).map thread)).step s (t, choice)).isSome = true := by
  have hinv : order.Inv s := by
    refine LockOrder.inv_reachable ?_ h
    intro c hc
    obtain ⟨i, -, rfl⟩ := List.mem_map.1 hc
    exact keeps_thread i
  obtain ⟨l, hl, hmoves⟩ := exists_moves hinv hs
  obtain ⟨t, ht⟩ := List.getElem?_of_mem hl
  refine ⟨t, l, ht, hmoves, fun choice => ?_⟩
  obtain ⟨l', hl'⟩ := next_of_moves hmoves choice
  show Option.isSome ((s[t]?).bind fun l => (order.next s choice l).map fun l' => s.set t l') = true
  rw [ht, Option.bind_some, hl']
  rfl

/-- Thread 0 has `Pool` for reading, in `GetNumThreadsInternal`; thread 1 comes to the write lock of `Pool`, in
`KillThreadQueueSRW` that `Terminate` calls. -/
def contended : List (ℕ × ℕ) :=
  [(0, 0), (0, 0), (0, 0), (0, 1), (0, 9)] ++ List.replicate 10 (0, 0) ++
    [(1, 0), (1, 0), (1, 0), (1, 1), (1, 7), (1, 0), (1, 0), (1, 1)] ++ List.replicate 10 (1, 0)

/-- One thread has the lock that the other one waits for. It is the one with the lock that can go
on. -/
theorem locks_not_stuck_contended : ∃ s l₀ l₁,
    (order.system ((List.range 2).map thread)).run contended (((List.range 2).map thread).map fun c => [.run c]) =
      some s ∧ s[0]? = some l₀ ∧ held l₀ = [(pool, false)] ∧ s[1]? = some l₁ ∧ asks l₁ = some (pool, true) ∧
      held l₁ = [] ∧ ∃ (t : ℕ) (l : List (Todo PoolLock)), s[t]? = some l ∧ order.Moves s l := by
  refine ⟨_, _, _, rfl, rfl, rfl, rfl, rfl, rfl, ?_⟩
  obtain ⟨t, l, hl, hmoves, -⟩ := locks_not_stuck (n := 2) (.run contended (.init rfl) rfl)
    ⟨_, List.mem_cons_self, List.cons_ne_nil _ _⟩
  exact ⟨t, l, hl, hmoves⟩

end PoolLock
end ThreadPool
end ECSUtil

/-
# The port of the admin calls

`ECSAdminLogin`, `ECSAdminLogout`, `ECSAdminGetUserList`, `ECSAdminCreateUser`,
`ECSAdminGetKeysForUser`, `ECSAdminCreateKeyForUser`, `ECSAdminBillingBucket`, `ECSAdminCapacity`,
`ECSAdminBucketInfo`, `ECSDTQuery`, `SetPort` and `InitSession` (`ECSUtil/ECSConnection.cpp`), by any
number of threads on one connection.  An operation saves `Port`, changes it, sends its request and
restores `Port`.  A request looks for a session, opens its handles with the `Port` of that moment if it
has none, and is sent to the port that the session was opened with.

Where the operations keep out of each other's way, every ordinary request goes to the port of the
connection, and the port is in the end what it was: `port_kept`.

`Kept` is the invariant of a connection with a port: each operation has saved that port, the port is
another one only while an operation has changed it, and a session that goes elsewhere was opened in
that time and will be marked to be ended.  `Kept.allocSession`, `Kept.openHandles` and
`Kept.requestDone` keep it through the parts of a request, and `Kept.step` through every step.  An
action changes what one thread does (`setOp`), and the small lemmas in front say what that leaves of
the others.
-/

import ECSUtil.Session.Settings

namespace ECSUtil
namespace Admin

open Session

/-- The operations that change the port for a request. -/
inductive AdminOp
  | login
  | logout
  | getUserList
  | createUser
  | getKeysForUser
  | createKeyForUser
  | billingBucket
  | capacity
  | bucketInfo
  | dtQuery
  deriving DecidableEq, Repr

/-- The port that the operation sets. -/
def AdminOp.port : AdminOp → ℕ
  | .dtQuery => 9101
  | _ => 4443

/-- The operation writes an XML body, and throws where that fails. -/
def AdminOp.buildsXml : AdminOp → Bool
  | .createUser => true
  | .createKeyForUser => true
  | _ => false

/-- `bS3Admin` is set for the request, so it is not signed. -/
def AdminOp.bS3Admin : AdminOp → Bool
  | .dtQuery => false
  | _ => true

/-- Where a request is. -/
inductive Req
  | start
  /-- `AllocSession` was run. -/
  | alloc
  /-- The handles of the session are open. -/
  | opened
  /-- The request was sent, or could not be. -/
  | sent
  deriving DecidableEq, Repr

/-- Where a thread is. -/
inductive Op
  | idle
  /-- An ordinary request. -/
  | request (r : Req)
  /-- `Port` was saved, and `SetPort` is next. -/
  | saved (e : AdminOp) (wSavePort : ℕ)
  /-- `SetPort` changed the port, and `KillHostSessions` is next. -/
  | kill (e : AdminOp) (wSavePort : ℕ)
  /-- The headers and the body are made. -/
  | body (e : AdminOp) (wSavePort : ℕ)
  | admin (e : AdminOp) (wSavePort : ℕ) (r : Req)
  /-- `SetPort(wSavePort)` is next. -/
  | restore (wSavePort : ℕ)
  /-- `SetPort` changed the port back, and `KillHostSessions` is next. -/
  | killRestored
  deriving DecidableEq, Repr

namespace Op

/-- The request that is made. -/
def req : Op → Option Req
  | .request r => some r
  | .admin _ _ r => some r
  | _ => none

/-- The request goes on. -/
def withReq (r : Req) : Op → Op
  | .request _ => .request r
  | .admin e wSavePort _ => .admin e wSavePort r
  | op => op

/-- What follows on a request: another one (`SendRequest` tries again, or there is more to ask), or
the end. -/
def after (bAgain : Bool) : Op → Op
  | .request _ => if bAgain then .request .start else .idle
  | .admin e wSavePort _ => if bAgain then .admin e wSavePort .start else .restore wSavePort
  | op => op

/-- The port that was saved. -/
def wSavePort : Op → Option ℕ
  | .saved _ w => some w
  | .kill _ w => some w
  | .body _ w => some w
  | .admin _ w _ => some w
  | .restore w => some w
  | _ => none

/-- The operation has set its port and not restored the one it saved. -/
def changes : Op → Bool
  | .kill _ _ => true
  | .body _ _ => true
  | .admin _ _ _ => true
  | .restore _ => true
  | _ => false

/-- An exception may leave the operation: the XML body cannot be written, or the hash provider fails
while the request is signed. -/
def throws : Op → Bool
  | .request .start => true
  | .body e _ => e.buildsXml
  | .admin e _ .start => !e.bS3Admin
  | _ => false

end Op

/-- A connection `conn` with its sessions and what its threads `τ` do; `sent` are the ports of the
ordinary requests. -/
structure Ports (τ : Type) where
  cache : State τ := {}
  conn : Settings := {}
  dwGlobalHttpsProtocol : DWORD := 0
  op : τ → Op := fun _ => .idle
  sent : List ℕ := []

/-- The steps of a thread `t`. -/
inductive Act (τ : Type)
  | request (t : τ)
  /-- An operation saves `Port`. -/
  | savePort (t : τ) (e : AdminOp)
  /-- `SetPort` sets the port, or restores it. -/
  | setPort (t : τ)
  | killHostSessions (t : τ)
  | bodyDone (t : τ)
  /-- An exception. -/
  | throws (t : τ)
  | allocSession (t : τ) (pszIP : CString) (ftNow : FileTime)
  /-- The rest of `InitSession`; `opens` tells whether handles can be opened. -/
  | openHandles (t : τ) (pszIP : CString) (opens : Bool)
  | send (t : τ)
  | requestDone (t : τ) (ok : Bool) (ftNow : FileTime) (bAgain : Bool)
  | garbageCollect (ftNow : FileTime)
  deriving Repr

section Steps

variable {τ : Type} [DecidableEq τ]

namespace Ports

def setOp (s : Ports τ) (t : τ) (op : Op) : Ports τ := { s with op := Function.update s.op t op }

/-- `Port` is written, if that changes it. -/
def writePort (s : Ports τ) (t : τ) (Port : ℕ) (changed unchanged : Op) : Ports τ :=
  if s.conn.Port ≠ Port then { s with conn := { s.conn with Port := Port } }.setOp t changed
  else s.setOp t unchanged

/-- The handles of the session of a thread. -/
def handles (s : Ports τ) (t : τ) : Option Handles := (s.cache.pointee t).bind (·.handles)

/-- The port that the session of a thread goes to. -/
def serverPort (s : Ports τ) (t : τ) : Option ℕ := (s.handles t).map fun h => h.2.nServerPort

/-- The handles are opened where they are not open. -/
def openHandles (s : Ports τ) (t : τ) (pszIP : CString) (opens : Bool) : Ports τ :=
  match s.handles t with
  | some _ => s.setOp t ((s.op t).withReq .opened)
  | none =>
      let asked := s.conn.handles s.dwGlobalHttpsProtocol pszIP
      if opens then
        { s with
          cache := s.cache.writeValue t fun v =>
            { v with hSession := some asked.1, hConnect := some asked.2 } }.setOp t
          ((s.op t).withReq .opened)
      else
        { s with
          cache := s.cache.writeValue t fun v => { v with hSession := none, hConnect := none } }.setOp
          t ((s.op t).withReq .sent)

/-- The end of a request, as in `Connections.runRequest`. -/
def requestDone (s : Ports τ) (t : τ) (ok : Bool) (ftNow : FileTime) (bAgain : Bool) : Ports τ :=
  let cache := if ok then s.cache
    else s.cache.writeValue t fun v => { v with bKillWhenDone := true }
  { s with cache := (cache.releaseLocked t ftNow).releaseClear t }.setOp t ((s.op t).after bAgain)

/-- One step. -/
def step (s : Ports τ) : Act τ → Option (Ports τ)
  | .request t => if s.op t = .idle then some (s.setOp t (.request .start)) else none
  | .savePort t e => if s.op t = .idle then some (s.setOp t (.saved e s.conn.Port)) else none
  | .setPort t =>
      match s.op t with
      | .saved e w => some (s.writePort t e.port (.kill e w) (.body e w))
      | .restore w => some (s.writePort t w .killRestored .idle)
      | _ => none
  | .killHostSessions t =>
      match s.op t with
      | .kill e w => some ({ s with cache := s.cache.killHostSessions }.setOp t (.body e w))
      | .killRestored => some ({ s with cache := s.cache.killHostSessions }.setOp t .idle)
      | _ => none
  | .bodyDone t =>
      match s.op t with
      | .body e w => some (s.setOp t (.admin e w .start))
      | _ => none
  | .throws t => if (s.op t).throws then some (s.setOp t .idle) else none
  | .allocSession t pszIP ftNow =>
      if (s.op t).req = some .start then
        some ({ s with cache := s.cache.allocSession t s.conn.sHost pszIP ftNow }.setOp t
          ((s.op t).withReq .alloc))
      else none
  | .openHandles t pszIP opens =>
      if (s.op t).req = some .alloc then some (s.openHandles t pszIP opens) else none
  | .send t =>
      if (s.op t).req = some .opened then
        some ({ s with
          sent := if s.op t = Op.request .opened then s.sent ++ (s.serverPort t).toList
            else s.sent }.setOp t ((s.op t).withReq .sent))
      else none
  | .requestDone t ok ftNow bAgain =>
      if (s.op t).req = some .sent then some (s.requestDone t ok ftNow bAgain) else none
  | .garbageCollect ftNow => some { s with cache := s.cache.garbageCollect ftNow }

end Ports

/-- A connection, at first without sessions. -/
def ports (τ : Type) [DecidableEq τ] (conn : Settings) : StepSystem (Ports τ) (Act τ) where
  init s := s = { conn := conn }
  step := Ports.step

end Steps

/-- What keeps the operations out of each other's way: while one has changed the port, no other one
saves it, and no ordinary request looks for a session or opens handles; nor does one look for a session
before the sessions of that port are gone.  And no exception leaves an operation that has changed
the port. -/
def Apart {τ : Type} (s : Ports τ) : Act τ → Prop
  | .savePort _ _ => ∀ u, (s.op u).changes = false
  | .throws t => (s.op t).changes = false
  | .allocSession t _ _ =>
      s.op t = .request .start → ∀ u, (s.op u).changes = false ∧ s.op u ≠ .killRestored
  | .openHandles t _ _ =>
      s.op t = .request .alloc → s.handles t = none → ∀ u, (s.op u).changes = false
  | _ => True

/-! ## The port -/

/-- `KillHostSessions` is next. -/
def Op.kills : Op → Bool
  | .kill _ _ => true
  | .killRestored => true
  | _ => false

section Kept

variable {τ : Type} {p₀ : ℕ} {s : Ports τ} {t : τ} {op : Op}

/-- The handles go to the port. -/
def GoesTo (p₀ : ℕ) (v : SessionMapValue) : Prop := ∀ h ∈ v.handles, h.2.nServerPort = p₀

/-- **The invariant** of a connection whose port is `p₀`. -/
structure Kept (p₀ : ℕ) (s : Ports τ) : Prop where
  inv : Session.Inv s.cache
  quiet : ∀ i, s.cache.releasing i = false
  held : ∀ t r, (s.op t).req = some r → r ≠ .start → (s.cache.session t).pValue ≠ none
  saved : ∀ t, ∀ w ∈ (s.op t).wSavePort, w = p₀
  changed : s.conn.Port ≠ p₀ → ∃ t, (s.op t).changes = true
  /-- A session that goes elsewhere was opened while the port was changed, and will be marked. -/
  stale : ∀ e ∈ s.cache.sessionMap, e.2.bKillWhenDone = false →
    GoesTo p₀ e.2 ∨ s.conn.Port ≠ p₀ ∨ ∃ t, (s.op t).kills = true
  request : ∀ t r, s.op t = .request r → r = .alloc ∨ r = .opened → ∀ e ∈ s.cache.sessionMap,
    (s.cache.session t).pValue = some e.2.addr → GoesTo p₀ e.2
  sent : ∀ p ∈ s.sent, p = p₀

/-- At first no operation is under way, so the port is that of the connection. -/
theorem kept_init (conn : Settings) : Kept conn.Port ({ conn := conn } : Ports τ) where
  inv := inv_init
  quiet _ := rfl
  held _ _ h := absurd h (by simp [Op.req])
  saved _ _ h := absurd h (by simp [Op.wSavePort])
  changed h := absurd rfl h
  stale _ he := absurd he SortedMap.not_mem_empty
  request _ _ h := Op.noConfusion h
  sent _ hp := absurd hp List.not_mem_nil

/-- The sessions change. -/
theorem Kept.cache (h : Kept p₀ s) {cache : State τ} (hinv : Session.Inv cache)
    (hquiet : ∀ i, cache.releasing i = false) (hfrom : Survives s.cache cache)
    (hsession : ∀ u, cache.session u = s.cache.session u ∨ ∀ r, (s.op u).req = some r → r = .start) :
    Kept p₀ { s with cache := cache } := by
  have hsame : ∀ u r, (s.op u).req = some r → r ≠ .start → cache.session u = s.cache.session u :=
    fun u r hr hne => (hsession u).resolve_right fun hstart => hne (hstart r hr)
  refine ⟨hinv, hquiet, fun u r hr hne => ?_, h.saved, h.changed, fun e he hk => ?_,
    fun u r hop hr e he hp => ?_, h.sent⟩
  · show (cache.session u).pValue ≠ none
    rw [hsame u r hr hne]
    exact h.held u r hr hne
  · by_contra hnot
    rw [not_or] at hnot
    obtain ⟨hgoes, hrest⟩ := hnot
    refine hgoes fun x hx => ?_
    obtain ⟨v, hv, -, hvx, hvk⟩ := hfrom.handles he hx
    exact ((h.stale _ hv (hvk hk)).resolve_right hrest) x hvx
  · intro x hx
    obtain ⟨v, hv, hva, hvx, -⟩ := hfrom.handles he hx
    have hreq : (s.op u).req = some r := by rw [hop]; rfl
    have hne : r ≠ .start := by rintro rfl; exact absurd hr (by decide)
    have hp' : (cache.session u).pValue = some e.2.addr := hp
    rw [hsame u r hreq hne, ← hva] at hp'
    exact h.request u r hop hr _ hv hp' x hvx

/-- A port that is not `p₀` is one that an operation has set. -/
theorem Kept.port_eq (h : Kept p₀ s) (hno : ∀ u, (s.op u).changes = false) : s.conn.Port = p₀ := by
  by_contra hport
  obtain ⟨u, hu⟩ := h.changed hport
  exact Bool.false_ne_true ((hno u).symm.trans hu)

/-- A thread in a request has an entry. -/
theorem Kept.owns (h : Kept p₀ s) {r : Req} (hr : (s.op t).req = some r) (hne : r ≠ .start) :
    ∃ a, Owns s.cache t a := by
  obtain ⟨a, ha⟩ := Option.ne_none_iff_exists'.1 (h.held t r hr hne)
  exact ⟨a, ha, h.quiet t⟩

/-- The handles are opened with the port of the connection. -/
theorem Kept.opened (h : Kept p₀ s) {r : Req} (hr : (s.op t).req = some r) (hne : r ≠ .start)
    (hSession : SessionHandle) {hConnect : ConnectHandle}
    (hport : hConnect.nServerPort = s.conn.Port)
    (hrequest : ∀ r, s.op t = .request r → s.conn.Port = p₀) :
    Kept p₀ { s with
      cache := s.cache.writeValue t fun v =>
        { v with hSession := some hSession, hConnect := some hConnect } } := by
  have hgoes : s.conn.Port = p₀ → ∀ v : SessionMapValue,
      GoesTo p₀ { v with hSession := some hSession, hConnect := some hConnect } := by
    intro heq v x hx
    obtain rfl : (hSession, hConnect) = x := Option.some.inj hx
    exact hport.trans heq
  have hinv := h.inv.writeValue (h.owns hr hne)
    (f := fun v => { v with hSession := some hSession, hConnect := some hConnect })
    fun v => ⟨rfl, rfl⟩
  refine ⟨hinv, h.quiet, h.held, h.saved, h.changed, fun e he hk => ?_,
    fun u r hop hr' e he hp => ?_, h.sent⟩
  · obtain ⟨d, hd, rfl⟩ := SortedMap.mem_mapValues.1 he
    dsimp only at hk ⊢
    split_ifs at hk ⊢
    · rcases eq_or_ne s.conn.Port p₀ with heq | hne
      · exact .inl (hgoes heq d.2)
      · exact .inr (.inl hne)
    · exact h.stale d hd hk
  · obtain ⟨d, hd, rfl⟩ := SortedMap.mem_mapValues.1 he
    dsimp only at hp ⊢
    split_ifs at hp ⊢ with hwritten
    · -- an entry has one owner
      obtain ⟨a, ha⟩ := h.owns hr hne
      have hu : Owns s.cache u a := ⟨Eq.trans hp (hwritten.trans ha.1), h.quiet u⟩
      obtain rfl := h.inv.owner u t a hu ha
      exact hgoes (hrequest r hop) d.2
    · exact h.request u r hop hr' d hd hp

variable [DecidableEq τ]

/-- A thread is in the operation that was set for it. -/
theorem Ports.setOp_self (s : Ports τ) (t : τ) (op : Op) : (s.setOp t op).op t = op :=
  Function.update_self ..

/-- A thread whose operation was not set is in the one that it was in. -/
theorem Ports.setOp_of_ne (s : Ports τ) {t u : τ} (hne : u ≠ t) (op : Op) :
    (s.setOp t op).op u = s.op u :=
  Function.update_of_ne hne ..

/-- What holds of a thread for another reason than that it was there. -/
theorem Ports.forall_setOp {P : τ → Op → Prop} (h : ∀ u, P u (s.op u)) (ht : P t op) (u : τ) :
    P u ((s.setOp t op).op u) := by
  rcases eq_or_ne u t with rfl | hne
  · exact (s.setOp_self u op).symm ▸ ht
  · exact (s.setOp_of_ne hne op).symm ▸ h u

/-- Some thread is in an operation of a kind, still, if the one that changed is of that kind, still. -/
theorem Ports.exists_setOp {P : Op → Prop} (h : ∃ u, P (s.op u)) (ht : P (s.op t) → P op) :
    ∃ u, P ((s.setOp t op).op u) := by
  obtain ⟨u, hu⟩ := h
  rcases eq_or_ne u t with rfl | hne
  · exact ⟨u, (s.setOp_self u op).symm ▸ ht hu⟩
  · exact ⟨u, (s.setOp_of_ne hne op).symm ▸ hu⟩

/-- A thread goes on. -/
theorem Kept.setOp (h : Kept p₀ s) (t : τ) (op : Op)
    (hheld : ∀ r, op.req = some r → r ≠ .start → (s.cache.session t).pValue ≠ none)
    (hsaved : ∀ w ∈ op.wSavePort, w = p₀)
    (hchanges : s.conn.Port ≠ p₀ → (s.op t).changes = true → op.changes = true)
    (hkills : (s.op t).kills = true → ∀ e ∈ s.cache.sessionMap, e.2.bKillWhenDone = true)
    (hrequest : ∀ r, op = .request r → r = .alloc ∨ r = .opened → ∀ e ∈ s.cache.sessionMap,
      (s.cache.session t).pValue = some e.2.addr → GoesTo p₀ e.2) : Kept p₀ (s.setOp t op) where
  inv := h.inv
  quiet := h.quiet
  held u := Ports.forall_setOp
    (P := fun u op => ∀ r, op.req = some r → r ≠ .start → (s.cache.session u).pValue ≠ none)
    h.held hheld u
  saved u := Ports.forall_setOp (P := fun _ op => ∀ w ∈ op.wSavePort, w = p₀) h.saved hsaved u
  changed hport := Ports.exists_setOp (P := fun op => op.changes = true) (h.changed hport)
    (hchanges hport)
  stale e he hk := by
    refine (h.stale e he hk).imp_right (Or.imp_right fun hex => ?_)
    exact Ports.exists_setOp (P := fun op => op.kills = true) hex fun hkill =>
      absurd (hk.symm.trans (hkills hkill e he)) Bool.false_ne_true
  request u := Ports.forall_setOp
    (P := fun u op => ∀ r, op = .request r → r = .alloc ∨ r = .opened → ∀ e ∈ s.cache.sessionMap,
      (s.cache.session u).pValue = some e.2.addr → GoesTo p₀ e.2) h.request hrequest u
  sent := h.sent

/-- `SetPort`. -/
theorem Kept.writePort (h : Kept p₀ s) {Port : ℕ} {changed unchanged : Op}
    (hop : (s.op t).kills = false) (hkills : changed.kills = true)
    (hreq : changed.req = none ∧ unchanged.req = none)
    (hsaved : (∀ w ∈ changed.wSavePort, w = p₀) ∧ ∀ w ∈ unchanged.wSavePort, w = p₀)
    (hchanges : Port ≠ p₀ → changed.changes = true ∧
      ((s.op t).changes = true → unchanged.changes = true)) :
    Kept p₀ (s.writePort t Port changed unchanged) := by
  have hrequest : ∀ op : Op, op.req = none → ∀ r, op ≠ .request r := by
    rintro op hnone r rfl
    exact absurd hnone (by simp [Op.req])
  unfold Ports.writePort
  split_ifs with hne
  · refine ⟨h.inv, h.quiet, fun u => ?_, fun u => ?_, fun hport => ?_, fun e he hk => ?_,
      fun u => ?_, h.sent⟩
    · exact Ports.forall_setOp
        (P := fun u op => ∀ r, op.req = some r → r ≠ .start → (s.cache.session u).pValue ≠ none)
        h.held (fun r hr => absurd (hreq.1.symm.trans hr) (by simp)) u
    · exact Ports.forall_setOp (P := fun _ op => ∀ w ∈ op.wSavePort, w = p₀) h.saved hsaved.1 u
    · exact ⟨t, (Ports.setOp_self _ t changed).symm ▸ (hchanges hport).1⟩
    · exact .inr (.inr ⟨t, (Ports.setOp_self _ t changed).symm ▸ hkills⟩)
    · exact Ports.forall_setOp
        (P := fun u op => ∀ r, op = .request r → r = .alloc ∨ r = .opened →
          ∀ e ∈ s.cache.sessionMap, (s.cache.session u).pValue = some e.2.addr → GoesTo p₀ e.2)
        h.request (fun r hr => absurd hr (hrequest _ hreq.1 r)) u
  · rw [not_not] at hne
    refine h.setOp _ _ (fun r hr => absurd (hreq.2.symm.trans hr) (by simp)) hsaved.2 ?_ ?_ ?_
    · exact fun hport => (hchanges (hne ▸ hport)).2
    · exact fun hkill => absurd (hop.symm.trans hkill) Bool.false_ne_true
    · exact fun r hr => absurd hr (hrequest _ hreq.2 r)

section Withreq

variable {r r' : Req}

/-- The next stage of a request does not touch the port that was saved. -/
theorem Op.wSavePort_withReq : (op.withReq r).wSavePort = op.wSavePort := by
  cases op <;> rfl

/-- The next stage of a request does not touch whether the operation has changed the port. -/
theorem Op.changes_withReq : (op.withReq r).changes = op.changes := by
  cases op <;> rfl

/-- An operation that is in a request does not come to `KillHostSessions` next. -/
theorem Op.kills_of_req (h : op.req = some r) : op.kills = false := by
  cases op with
  | request => rfl
  | admin => rfl
  | _ => exact absurd h (by simp [Op.req])

/-- An operation that an exception may leave does not come to `KillHostSessions` next. -/
theorem Op.kills_of_throws (h : op.throws = true) : op.kills = false := by
  cases op with
  | kill => exact absurd h (by simp [Op.throws])
  | killRestored => exact absurd h (by simp [Op.throws])
  | _ => rfl

/-- An operation that is an ordinary request after a stage was one before it. -/
theorem Op.request_of_withReq (hop : op.req = some r) {q : Req} (h : op.withReq r' = .request q) :
    op = .request r ∧ q = r' := by
  cases op with
  | request => exact ⟨congrArg Op.request (Option.some.inj hop), (Op.request.inj h).symm⟩
  | _ => exact Op.noConfusion h

/-- The end of a request does not touch the port that was saved. -/
theorem Op.wSavePort_after (op : Op) (bAgain : Bool) : (op.after bAgain).wSavePort = op.wSavePort := by
  cases op <;> cases bAgain <;> rfl

/-- The end of a request does not touch whether the operation has changed the port. -/
theorem Op.changes_after (op : Op) (bAgain : Bool) : (op.after bAgain).changes = op.changes := by
  cases op <;> cases bAgain <;> rfl

/-- What follows on a request is at most the start of another. -/
theorem Op.req_after {bAgain : Bool} (h : op.req = some r) (h' : (op.after bAgain).req = some r') :
    r' = .start := by
  cases op with
  | request => cases bAgain <;> simp_all [Op.after, Op.req]
  | admin => cases bAgain <;> simp_all [Op.after, Op.req]
  | _ => exact absurd h (by simp [Op.req])

/-- A request goes on. -/
theorem Kept.withReq (h : Kept p₀ s) (hr : (s.op t).req = some r)
    (hp : (s.cache.session t).pValue ≠ none)
    (hrequest : s.op t = .request r → r' = .alloc ∨ r' = .opened → ∀ e ∈ s.cache.sessionMap,
      (s.cache.session t).pValue = some e.2.addr → GoesTo p₀ e.2) :
    Kept p₀ (s.setOp t ((s.op t).withReq r')) := by
  refine h.setOp _ _ (fun _ _ _ => hp) (fun w hw => ?_) (fun _ hch => ?_) (fun hkill => ?_)
    fun q hq hq' => ?_
  · rw [Op.wSavePort_withReq] at hw
    exact h.saved t w hw
  · rw [Op.changes_withReq]
    exact hch
  · exact absurd ((Op.kills_of_req hr).symm.trans hkill) Bool.false_ne_true
  · obtain ⟨hop, rfl⟩ := Op.request_of_withReq hr hq
    exact hrequest hop hq'

end Withreq

/-- **`AllocSession`.**  Where no operation has changed the port, an ordinary request finds no session
of another port. -/
theorem Kept.allocSession (h : Kept p₀ s) (hr : (s.op t).req = some .start) (pszHost pszIP : CString)
    (ftNow : FileTime)
    (hapart : s.op t = .request .start → ∀ u, (s.op u).changes = false ∧ s.op u ≠ .killRestored)
    (hc : (s.cache.allocSession t pszHost pszIP ftNow).created < 4294967296) :
    Kept p₀ ({ s with cache := s.cache.allocSession t pszHost pszIP ftNow }.setOp t
      ((s.op t).withReq .alloc)) := by
  have hinv := h.inv.allocSession (h.quiet t) pszHost pszIP ftNow hc
  have hrelease := (h.inv.releaseLocked (h.quiet t) ftNow).releaseClear
    (not_owns_releaseLocked ftNow)
  obtain ⟨hclaim, e, he, hunmarked, -, hpe⟩ := survives_claim hrelease pszHost pszIP ftNow hc (i := t)
  have h' : Kept p₀ { s with cache := s.cache.allocSession t pszHost pszIP ftNow } := by
    refine h.cache hinv (releasing_allocSession h.quiet t pszHost pszIP ftNow)
      ((survives_release s.cache t ftNow).trans hclaim) fun u => ?_
    rcases eq_or_ne u t with rfl | hne
    · exact .inr fun r hr' => Option.some.inj (hr'.symm.trans hr)
    · exact .inl (session_allocSession s.cache hne pszHost pszIP ftNow)
  refine h'.withReq hr (fun hn => ?_) fun hop _ f hf hpf => ?_
  · exact absurd (hn.symm.trans hpe) (by simp)
  · obtain rfl : e = f := hinv.addr_inj e he f hf (Option.some.inj (hpe.symm.trans hpf))
    have hno := hapart hop
    rcases h'.stale e he hunmarked with hgoes | hport | ⟨u, hu⟩
    · exact hgoes
    · exact absurd (h.port_eq fun u => (hno u).1) hport
    · -- no thread is before `KillHostSessions`
      exfalso
      obtain ⟨hch, hrestored⟩ := hno u
      change (s.op u).kills = true at hu
      cases hopu : s.op u with
      | kill e w => exact absurd hch (by simp [hopu, Op.changes])
      | killRestored => exact hrestored hopu
      | _ => exact absurd hu (by simp [hopu, Op.kills])

/-- **The rest of `InitSession`.** The handles are opened for the port that the connection has then,
and no call that changes it is under way. -/
theorem Kept.openHandles (h : Kept p₀ s) (hr : (s.op t).req = some .alloc) (pszIP : CString)
    (opens : Bool)
    (hapart : s.op t = .request .alloc → s.handles t = none → ∀ u, (s.op u).changes = false) :
    Kept p₀ (s.openHandles t pszIP opens) := by
  have hp := h.held t .alloc hr (by decide)
  unfold Ports.openHandles
  cases hh : s.handles t with
  | some x => exact h.withReq hr hp fun hop _ => h.request t .alloc hop (.inl rfl)
  | none =>
      dsimp only
      have hop' : ∀ r, s.op t = .request r → r = .alloc := by
        intro r hop
        rw [hop] at hr
        exact Option.some.inj hr
      split_ifs
      · have hport : (s.conn.handles s.dwGlobalHttpsProtocol pszIP).2.nServerPort = s.conn.Port := rfl
        have h' := h.opened hr (by decide) (s.conn.handles s.dwGlobalHttpsProtocol pszIP).1 hport
          fun r hop => h.port_eq (hapart (hop' r hop ▸ hop) hh)
        exact h'.withReq hr hp fun hop _ => h'.request t .alloc hop (.inl rfl)
      · have hinv := h.inv.writeValue (h.owns hr (by decide))
          (f := fun v => { v with hSession := none, hConnect := none }) fun v => ⟨rfl, rfl⟩
        have h' := h.cache hinv h.quiet (survives_writeValue fun v => ⟨rfl, id, .inl ⟨rfl, rfl⟩⟩) fun u => .inl rfl
        refine h'.withReq hr hp fun _ hq => absurd hq (by decide)

/-- A request is sent. -/
theorem Kept.send (h : Kept p₀ s) (hr : (s.op t).req = some .opened) :
    Kept p₀ ({ s with
      sent := if s.op t = Op.request .opened then s.sent ++ (s.serverPort t).toList
        else s.sent }.setOp t ((s.op t).withReq .sent)) := by
  have hsent : ∀ p ∈ if s.op t = Op.request .opened then s.sent ++ (s.serverPort t).toList
      else s.sent, p = p₀ := by
    split_ifs with hop
    · intro p hp
      rcases List.mem_append.1 hp with hp | hp
      · exact h.sent p hp
      · -- the session is one that goes to the port
        obtain ⟨x, hx, rfl⟩ := Option.map_eq_some_iff.1 (Option.mem_toList.1 hp)
        obtain ⟨v, hv, hvx⟩ := Option.bind_eq_some_iff.1 hx
        obtain ⟨e, he, rfl⟩ := Option.map_eq_some_iff.1 hv
        have hpe := List.find?_some he
        exact h.request t .opened hop (.inr rfl) e (List.mem_of_find?_eq_some he)
          (of_decide_eq_true hpe).symm x hvx
    · exact h.sent
  have h' : Kept p₀ { s with
      sent := if s.op t = Op.request .opened then s.sent ++ (s.serverPort t).toList
        else s.sent } := ⟨h.inv, h.quiet, h.held, h.saved, h.changed, h.stale, h.request, hsent⟩
  exact h'.withReq hr (h.held t .opened hr (by decide)) fun _ hq => absurd hq (by decide)

/-- **The end of a request.** The session goes back to the cache with the port that its handles were
opened for. -/
theorem Kept.requestDone (h : Kept p₀ s) (hr : (s.op t).req = some .sent) (ok : Bool)
    (ftNow : FileTime) (bAgain : Bool) : Kept p₀ (s.requestDone t ok ftNow bAgain) := by
  have hmark : Kept p₀ { s with
      cache := if ok then s.cache
        else s.cache.writeValue t fun v => { v with bKillWhenDone := true } } := by
    cases ok with
    | true => exact h
    | false =>
        have hinv := h.inv.writeValue (h.owns hr (by decide))
          (f := fun v => { v with bKillWhenDone := true }) fun v => ⟨rfl, rfl⟩
        refine h.cache hinv h.quiet (survives_writeValue
          (f := fun v => { v with bKillWhenDone := true }) fun v => ⟨rfl, ?_, .inr ⟨rfl, rfl⟩⟩)
          fun u => .inl rfl
        exact fun hk => absurd hk (by simp)
  have hstart : ∀ r, ((s.op t).after bAgain).req = some r → r = .start := fun r hafter =>
    Op.req_after hr hafter
  have h' := hmark.setOp t ((s.op t).after bAgain)
    (fun r hr' hne => absurd (hstart r hr') hne)
    (fun w hw => h.saved t w ((Op.wSavePort_after (s.op t) bAgain).symm ▸ hw))
    (fun _ hch => (Op.changes_after (s.op t) bAgain).symm ▸ hch)
    (fun hkill => absurd ((Op.kills_of_req hr).symm.trans hkill) Bool.false_ne_true)
    (fun r hq hq' => absurd (hstart r (hq ▸ rfl)) (by rcases hq' with rfl | rfl <;> decide))
  refine h'.cache ((hmark.inv.releaseLocked (hmark.quiet t) ftNow).releaseClear
    (not_owns_releaseLocked ftNow)) (releasing_release hmark.quiet t ftNow)
    (survives_release _ t ftNow) fun u => ?_
  rcases eq_or_ne u t with rfl | hne
  · right
    rw [Ports.setOp_self]
    exact hstart
  · exact .inl (session_release _ hne ftNow)

/-- **Every step keeps the invariant**, where the operations keep apart. It is led back to one lemma
for each place of the request and of the login, and the steps that change neither port nor handles
are the same for all. -/
theorem Kept.step {a : Act τ} {s' : Ports τ} (h : Kept p₀ s) (hC : Apart s a)
    (hs : s.step a = some s') (hc : s'.cache.created < 4294967296) : Kept p₀ s' := by
  cases a with
  | request t =>
      obtain ⟨hop, rfl⟩ := Option.ite_none_right_eq_some.1 hs |>.imp_right Option.some.inj
      refine h.setOp _ _ (fun r hr hne => absurd (Option.some.inj hr).symm hne) (fun w hw => ?_)
        (fun _ hch => ?_) (fun hkill => ?_) fun r hq hq' => ?_
      · exact absurd hw (by simp [Op.wSavePort])
      · exact absurd hch (by simp [hop, Op.changes])
      · exact absurd hkill (by simp [hop, Op.kills])
      · obtain rfl := Op.request.inj hq
        exact absurd hq' (by decide)
  | savePort t e =>
      obtain ⟨hop, rfl⟩ := Option.ite_none_right_eq_some.1 hs |>.imp_right Option.some.inj
      refine h.setOp _ _ (fun r hr => absurd hr (by simp [Op.req])) (fun w hw => ?_)
        (fun _ hch => ?_) (fun hkill => ?_) fun r hq => Op.noConfusion hq
      · obtain rfl : s.conn.Port = w := Option.some.inj hw
        exact h.port_eq hC
      · exact absurd hch (by simp [hop, Op.changes])
      · exact absurd hkill (by simp [hop, Op.kills])
  | setPort t =>
      cases hop : s.op t with
      | saved e w =>
          simp only [Ports.step, hop, Option.some.injEq] at hs
          have hw : w = p₀ := h.saved t w (by rw [hop]; rfl)
          have hsaved : ∀ x ∈ some w, x = p₀ := fun x hx => Option.some.inj hx ▸ hw
          exact hs ▸ h.writePort (by rw [hop]; rfl) rfl ⟨rfl, rfl⟩ ⟨hsaved, hsaved⟩
            fun _ => ⟨rfl, fun _ => rfl⟩
      | restore w =>
          simp only [Ports.step, hop, Option.some.injEq] at hs
          have hw : w = p₀ := h.saved t w (by rw [hop]; rfl)
          have hsaved : ∀ x ∈ (none : Option ℕ), x = p₀ := fun x hx => absurd hx (by simp)
          exact hs ▸ h.writePort (by rw [hop]; rfl) rfl ⟨rfl, rfl⟩ ⟨hsaved, hsaved⟩
            fun hne => absurd hw hne
      | _ => simp [Ports.step, hop] at hs
  | killHostSessions t =>
      have hkill := h.cache h.inv.killHostSessions h.quiet (survives_killHostSessions s.cache)
        fun u => .inl rfl
      cases hop : s.op t with
      | kill e w =>
          simp only [Ports.step, hop, Option.some.injEq] at hs
          refine hs ▸ hkill.setOp _ _ (fun r hr => absurd hr (by simp [Op.req])) (fun x hx => ?_)
            (fun _ _ => rfl) (fun _ => marked_killHostSessions s.cache) fun r hq => Op.noConfusion hq
          exact h.saved t x (by rw [hop]; exact hx)
      | killRestored =>
          simp only [Ports.step, hop, Option.some.injEq] at hs
          refine hs ▸ hkill.setOp _ _ (fun r hr => absurd hr (by simp [Op.req])) (fun x hx => ?_)
            (fun _ hch => ?_) (fun _ => marked_killHostSessions s.cache) fun r hq => Op.noConfusion hq
          · exact absurd hx (by simp [Op.wSavePort])
          · change (s.op t).changes = true at hch
            exact absurd hch (by simp [hop, Op.changes])
      | _ => simp [Ports.step, hop] at hs
  | bodyDone t =>
      cases hop : s.op t with
      | body e w =>
          simp only [Ports.step, hop, Option.some.injEq] at hs
          refine hs ▸ h.setOp _ _ (fun r hr hne => absurd (Option.some.inj hr).symm hne) (fun x hx => ?_)
            (fun _ _ => rfl) (fun hkill => ?_) fun r hq => Op.noConfusion hq
          · exact h.saved t x (by rw [hop]; exact hx)
          · exact absurd hkill (by simp [hop, Op.kills])
      | _ => simp [Ports.step, hop] at hs
  | throws t =>
      obtain ⟨hop, rfl⟩ := Option.ite_none_right_eq_some.1 hs |>.imp_right Option.some.inj
      refine h.setOp _ _ (fun r hr => absurd hr (by simp [Op.req])) (fun x hx => ?_) (fun _ hch => ?_)
        (fun hkill => ?_) fun r hq => Op.noConfusion hq
      · exact absurd hx (by simp [Op.wSavePort])
      · exact absurd (Eq.symm hC |>.trans hch) Bool.false_ne_true
      · exact absurd ((Op.kills_of_throws hop).symm.trans hkill) Bool.false_ne_true
  | allocSession t pszIP ftNow =>
      obtain ⟨hr, rfl⟩ := Option.ite_none_right_eq_some.1 hs |>.imp_right Option.some.inj
      exact h.allocSession hr s.conn.sHost pszIP ftNow hC hc
  | openHandles t pszIP opens =>
      obtain ⟨hr, rfl⟩ := Option.ite_none_right_eq_some.1 hs |>.imp_right Option.some.inj
      exact h.openHandles hr pszIP opens hC
  | send t =>
      obtain ⟨hr, rfl⟩ := Option.ite_none_right_eq_some.1 hs |>.imp_right Option.some.inj
      exact h.send hr
  | requestDone t ok ftNow bAgain =>
      obtain ⟨hr, rfl⟩ := Option.ite_none_right_eq_some.1 hs |>.imp_right Option.some.inj
      exact h.requestDone hr ok ftNow bAgain
  | garbageCollect ftNow =>
      obtain rfl := Option.some.inj hs
      exact h.cache (h.inv.garbageCollect ftNow) h.quiet (survives_garbageCollect s.cache ftNow)
        fun u => .inl rfl

/-- The sessions made are only ever counted up. -/
theorem Ports.created_le {a : Act τ} {s' : Ports τ} (hs : s.step a = some s') :
    s.cache.created ≤ s'.cache.created := by
  cases a with
  | request t =>
      obtain ⟨-, rfl⟩ := Option.ite_none_right_eq_some.1 hs |>.imp_right Option.some.inj
      exact Nat.le_refl _
  | savePort t e =>
      obtain ⟨-, rfl⟩ := Option.ite_none_right_eq_some.1 hs |>.imp_right Option.some.inj
      exact Nat.le_refl _
  | setPort t =>
      simp only [Ports.step] at hs
      split at hs
      · obtain rfl := Option.some.inj hs
        unfold Ports.writePort
        split_ifs <;> exact Nat.le_refl _
      · obtain rfl := Option.some.inj hs
        unfold Ports.writePort
        split_ifs <;> exact Nat.le_refl _
      · exact absurd hs (by simp)
  | killHostSessions t =>
      simp only [Ports.step] at hs
      split at hs
      · exact Option.some.inj hs ▸ Nat.le_refl _
      · exact Option.some.inj hs ▸ Nat.le_refl _
      · exact absurd hs (by simp)
  | bodyDone t =>
      simp only [Ports.step] at hs
      split at hs
      · exact Option.some.inj hs ▸ Nat.le_refl _
      · exact absurd hs (by simp)
  | throws t =>
      obtain ⟨-, rfl⟩ := Option.ite_none_right_eq_some.1 hs |>.imp_right Option.some.inj
      exact Nat.le_refl _
  | allocSession t pszIP ftNow =>
      obtain ⟨-, rfl⟩ := Option.ite_none_right_eq_some.1 hs |>.imp_right Option.some.inj
      show s.cache.created ≤ (State.claim _ t s.conn.sHost pszIP ftNow).created
      unfold State.claim
      split
      · exact (created_release s.cache t ftNow).ge
      · exact created_release s.cache t ftNow ▸ Nat.le_succ _
  | openHandles t pszIP opens =>
      obtain ⟨-, rfl⟩ := Option.ite_none_right_eq_some.1 hs |>.imp_right Option.some.inj
      unfold Ports.openHandles
      split
      · exact Nat.le_refl _
      · dsimp only
        split_ifs <;> exact Nat.le_refl _
  | send t =>
      obtain ⟨-, rfl⟩ := Option.ite_none_right_eq_some.1 hs |>.imp_right Option.some.inj
      exact Nat.le_refl _
  | requestDone t ok ftNow bAgain =>
      obtain ⟨-, rfl⟩ := Option.ite_none_right_eq_some.1 hs |>.imp_right Option.some.inj
      refine le_trans ?_ (created_release _ t ftNow).ge
      cases ok <;> exact Nat.le_refl _
  | garbageCollect ftNow =>
      obtain rfl := Option.some.inj hs
      exact Nat.le_refl _

end Kept

/-- **The port.**  In the runs of fewer than `2 ^ 32` sessions where the operations keep apart, every
ordinary request is sent to the port that the connection had at first, and so not to that of an
operation; and the port is that one whenever no operation is under way. -/
theorem port_kept {τ : Type} [DecidableEq τ] {conn : Settings} {s : Ports τ}
    (h : (ports τ conn).ReachableBy Apart s) (hc : s.cache.created < 4294967296) :
    (∀ p ∈ s.sent, p = conn.Port ∧ ∀ e : AdminOp, conn.Port ≠ e.port → p ≠ e.port) ∧
      ((∀ t, s.op t = .idle ∨ ∃ r, s.op t = .request r) → s.conn.Port = conn.Port) := by
  have hkept : Kept conn.Port s := by
    refine h.invariant (I := fun s => s.cache.created < 4294967296 → Kept conn.Port s) ?_ ?_ hc
    · rintro _ rfl -
      exact kept_init conn
    · exact fun s a s' ih hC hs hc => (ih ((Ports.created_le hs).trans_lt hc)).step hC hs hc
  refine ⟨fun p hp => ?_, fun hidle => hkept.port_eq fun t => ?_⟩
  · obtain rfl := hkept.sent p hp
    exact ⟨rfl, fun _ => id⟩
  · rcases hidle t with hop | ⟨r, hop⟩ <;> rw [hop] <;> rfl

/-- A whole operation of a thread. -/
def operation (t : Bool) (e : AdminOp) : List (Act Bool) :=
  [.savePort t e, .setPort t, .killHostSessions t, .bodyDone t, .allocSession t ['1'] 0,
    .openHandles t ['1'] true, .send t, .requestDone t true 0 false, .setPort t, .killHostSessions t]

/-- A whole ordinary request of a thread. -/
def ordinary (t : Bool) : List (Act Bool) :=
  [.request t, .allocSession t ['1'] 0, .openHandles t ['1'] true, .send t, .requestDone t true 0 false]

instance (s : Ports Bool) (a : Act Bool) : Decidable (Apart s a) := by
  cases a <;> unfold Apart <;> infer_instance

/-- A request, a login and another request, one after the other. The login changes the port only
while no request is under way, and restores it, so both requests go to port 80. -/
theorem port_kept_login : ∃ s : Ports Bool, (ports Bool {}).ReachableBy Apart s ∧
    s.sent = [80, 80] ∧ s.conn.Port = 80 ∧ ∀ p ∈ s.sent, p = 80 := by
  have hrun : (((ports Bool {}).restrict Apart).run
      (ordinary false ++ operation true .login ++ ordinary false) {}).map (fun s =>
        (s.cache.created, s.sent, s.conn.Port)) = some (3, [80, 80], 80) := by decide +kernel
  obtain ⟨s, hs, heq⟩ := Option.map_eq_some_iff.1 hrun
  obtain ⟨hc, hrest⟩ := Prod.mk.inj heq
  obtain ⟨hsent, hport⟩ := Prod.mk.inj hrest
  have hr : (ports Bool {}).ReachableBy Apart s := .run_restrict _ (.init rfl) hs
  exact ⟨s, hr, hsent, hport, fun p hp => ((port_kept hr (by rw [hc]; decide)).1 p hp).1⟩

/-- A request while another thread logs in. -/
def duringLogin : List (Act Bool) := (operation true .login).take 3 ++ ordinary false

/-- The second operation saves the port that the first one has set. -/
def overlapping : List (Act Bool) :=
  (operation false .login).take 2 ++ .savePort true .capacity ::
    ((operation false .login).drop 2 ++ ((operation true .capacity).drop 1).dropLast)

/-- The body cannot be written. -/
def bodyFails : List (Act Bool) := (operation true .createUser).take 3 ++ [.throws true]

/-- **The port is lost.**  An ordinary request goes to the port of a login; of two operations that
overlap, the second restores the port of the first; and an operation whose body cannot be written does
not restore the port. -/
theorem port_lost :
    (∃ s : Ports Bool, (ports Bool {}).Reachable s ∧ s.sent = [AdminOp.login.port]) ∧
    (∃ s : Ports Bool, (ports Bool {}).run overlapping {} = some s ∧ (∀ t, s.op t = .idle) ∧
      s.conn.Port = AdminOp.login.port) ∧
    ∃ s : Ports Bool, (ports Bool {}).run bodyFails {} = some s ∧ (∀ t, s.op t = .idle) ∧
      s.conn.Port = AdminOp.createUser.port := by
  have hlogin : ((ports Bool {}).run duringLogin {}).map (·.sent) = some [4443] := by
    decide +kernel
  have hoverlap : ((ports Bool {}).run overlapping {}).map (fun s =>
      (decide (∀ t, s.op t = .idle), s.conn.Port)) = some (true, 4443) := by decide +kernel
  have hbody : ((ports Bool {}).run bodyFails {}).map (fun s =>
      (decide (∀ t, s.op t = .idle), s.conn.Port)) = some (true, 4443) := by decide +kernel
  refine ⟨?_, ?_, ?_⟩
  · obtain ⟨s, hs, hsent⟩ := Option.map_eq_some_iff.1 hlogin
    exact ⟨s, .run duringLogin (.init rfl) hs, hsent⟩
  · obtain ⟨s, hs, heq⟩ := Option.map_eq_some_iff.1 hoverlap
    obtain ⟨hidle, hport⟩ := Prod.mk.inj heq
    exact ⟨s, hs, of_decide_eq_true hidle, hport⟩
  · obtain ⟨s, hs, heq⟩ := Option.map_eq_some_iff.1 hbody
    obtain ⟨hidle, hport⟩ := Prod.mk.inj heq
    exact ⟨s, hs, of_decide_eq_true hidle, hport⟩

end Admin
end ECSUtil

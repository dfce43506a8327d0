/-
# The configuration a request is signed with

`SetSecret`, `SetRegion`, `SetS3KeyID`, `SetHostAuth`, `IfS3v4`, and what
`SendRequestInternal` and `signRequestS3v4` take from the members these set
(`ECSUtil/ECSConnection.cpp`), one call after another on one connection.

The trace records the calls, and for each V4 request what it was signed with.
`Right` says what it should have been, from the calls before it alone.  It is
right as long as no request takes a cached key of another region and no streamed
upload is asked for chunks of another size than the default (`Current`): `SetRegion`
leaves the cached key alone, and `SetHostAuth` assigns its parameter to itself.
-/

import ECSUtil.Lib.StepSystem
import ECSUtil.Lib.Trace
import ECSUtil.Sign.Key

namespace ECSUtil
namespace Sign
namespace Config

/-- What a V4 request was signed with. -/
structure Signed where
  stRequestTime : SystemTime
  /-- There is a `pStreamSend`. -/
  streamed : Bool
  /-- `S3SigningKey`. -/
  key : Bytes
  /-- The credential scope of the string to sign. -/
  scope : String
  /-- `Credential` of the `Authorization` header. -/
  credential : String
  uS3AuthV4ChunkSize : ℕ
  deriving DecidableEq

/-- A call on the connection. -/
inductive Event
  | setSecret (sSecret : String)
  | setRegion (sS3Region : String)
  | setS3KeyID (sS3KeyID : String)
  | setHostAuth (bAuthV4 : Bool) (uS3AuthV4ChunkSize : ℕ)
  | request (q : Signed)
  deriving DecidableEq

/-- `DefaultS3AuthV4ChunkSize`. -/
def DefaultS3AuthV4ChunkSize : ℕ := 0x200000

/-- The members of `CECSConnection` that signing reads. -/
structure State where
  sSecret : String := ""
  sS3Region : String := "us-east-1"
  sS3KeyID : String := ""
  bS3AuthV4 : Bool := true
  uS3AuthV4ChunkSize : ℕ := DefaultS3AuthV4ChunkSize
  cache : KeyCache := {}
  /-- The region the cached key was made of; the source does not keep it. -/
  keyRegion : String := ""
  events : List Event := []

inductive Action
  | setSecret (pszSecret : String)
  | setRegion (pszS3Region : String)
  | setS3KeyID (pszS3KeyID : String)
  | setHostAuth (bAuthV4 : Bool) (uS3AuthV4ChunkSize : ℕ)
  /-- `SendRequestInternal`, at this time. -/
  | request (stRequestTime : SystemTime) (streamed : Bool)
  deriving Repr

/-- What becomes of the region where it is empty. -/
def regionInForce (sS3Region : String) : String := if sS3Region = "" then "ECS" else sS3Region

/-- The chunk size, with its least value. -/
def atLeast8k (uS3AuthV4ChunkSize : ℕ) : ℕ :=
  if uS3AuthV4ChunkSize < 0x2000 then 0x2000 else uS3AuthV4ChunkSize

namespace State

def log (s : State) (e : Event) : State := { s with events := s.events ++ [e] }

def setSecret (s : State) (pszSecret : String) : State :=
  if s.sSecret ≠ pszSecret then { s with cache := .clear, sSecret := pszSecret } else s

/-- `SetHostAuth`: its parameter hides the member of the same name. -/
def setHostAuth (s : State) (bAuthV4 : Bool) (_uS3AuthV4ChunkSize : ℕ) : State :=
  { s with bS3AuthV4 := bAuthV4 }

/-- What `SendRequestInternal` and `signRequestS3v4` sign a request with. -/
def signed (C : Crypto) (s : State) (stRequestTime : SystemTime) (streamed : Bool) : Signed :=
  let sS3Region := regionInForce s.sS3Region
  let found := s.cache.lookup stRequestTime
  { stRequestTime := stRequestTime
    streamed := streamed
    key := if found = [] then createS3SigningKey C s.sSecret sS3Region stRequestTime else found
    scope := scope stRequestTime sS3Region
    credential := s.sS3KeyID ++ "/" ++ scope stRequestTime sS3Region
    uS3AuthV4ChunkSize := atLeast8k s.uS3AuthV4ChunkSize }

/-- The V4 part of `SendRequestInternal`, up to the signature. -/
def request (C : Crypto) (s : State) (stRequestTime : SystemTime) (streamed : Bool) : State :=
  let sS3Region := regionInForce s.sS3Region
  let s' := if s.cache.lookup stRequestTime = [] then
      { s with
        sS3Region := sS3Region
        cache := .store (createS3SigningKey C s.sSecret sS3Region stRequestTime) stRequestTime
        keyRegion := sS3Region }
    else { s with sS3Region := sS3Region }
  s'.log (.request (s.signed C stRequestTime streamed))

/-- A request is recorded with what it was signed with. -/
theorem request_events (C : Crypto) (s : State) (st : SystemTime) (streamed : Bool) :
    (s.request C st streamed).events = s.events ++ [.request (s.signed C st streamed)] := by
  simp only [request]
  split_ifs <;> rfl

/-- One call; a request that is not to be signed with V4 does nothing here. -/
def step (C : Crypto) (s : State) : Action → State
  | .setSecret pszSecret => (s.setSecret pszSecret).log (.setSecret pszSecret)
  | .setRegion pszS3Region => { s with sS3Region := pszS3Region }.log (.setRegion pszS3Region)
  | .setS3KeyID pszS3KeyID => { s with sS3KeyID := pszS3KeyID }.log (.setS3KeyID pszS3KeyID)
  | .setHostAuth bAuthV4 u => (s.setHostAuth bAuthV4 u).log (.setHostAuth bAuthV4 u)
  | .request stRequestTime streamed =>
      if s.bS3AuthV4 then s.request C stRequestTime streamed else s

end State

/-- The calls of one thread on a connection. -/
def system (C : Crypto) : StepSystem State Action where
  init s := s = {}
  step s a := some (s.step C a)

/-! What was set last, from the trace. -/

def Event.secret : Event → Option String
  | .setSecret sSecret => some sSecret
  | _ => none

def Event.region : Event → Option String
  | .setRegion sS3Region => some sS3Region
  | _ => none

def Event.keyID : Event → Option String
  | .setS3KeyID sS3KeyID => some sS3KeyID
  | _ => none

def Event.chunkSize : Event → Option ℕ
  | .setHostAuth _ uS3AuthV4ChunkSize => some uS3AuthV4ChunkSize
  | _ => none

def lastSecret (past : List Event) : String := latest Event.secret "" past

def lastRegion (past : List Event) : String := regionInForce (latest Event.region "us-east-1" past)

def lastKeyID (past : List Event) : String := latest Event.keyID "" past

/-- The chunk size most recently passed to `SetHostAuth`. -/
def lastChunkSize (past : List Event) : ℕ :=
  latest Event.chunkSize DefaultS3AuthV4ChunkSize past

/-- **A request is signed right**: with the key of the secret and the region set
last and its own day, under the scope of that region, and streamed in chunks of the
size set last. -/
def Right (C : Crypto) (past : List Event) : Event → Prop
  | .request q =>
      q.key = createS3SigningKey C (lastSecret past) (lastRegion past) q.stRequestTime ∧
      q.scope = scope q.stRequestTime (lastRegion past) ∧
      q.credential = lastKeyID past ++ "/" ++ scope q.stRequestTime (lastRegion past) ∧
      (q.streamed = true → q.uS3AuthV4ChunkSize = max 0x2000 (lastChunkSize past))
  | _ => True

/-- The condition on a request: a cached key it takes was made of the region now in
force, and where it streams, the chunk size set last comes to the default. -/
def Current (s : State) : Action → Prop
  | .request stRequestTime streamed =>
      (s.cache.lookup stRequestTime ≠ [] → s.keyRegion = regionInForce s.sS3Region) ∧
      (streamed = true → max 0x2000 (lastChunkSize s.events) = DefaultS3AuthV4ChunkSize)
  | _ => True

instance (s : State) (a : Action) : Decidable (Current s a) := by
  unfold Current
  split <;> infer_instance

/-- What holds after any calls: the members are what was set last, all but the chunk
size, and the cached key is of the secret. -/
structure Inv (C : Crypto) (s : State) : Prop where
  secret : s.sSecret = lastSecret s.events
  region : regionInForce s.sS3Region = lastRegion s.events
  keyID : s.sS3KeyID = lastKeyID s.events
  chunkSize : s.uS3AuthV4ChunkSize = DefaultS3AuthV4ChunkSize
  cache : s.cache.Holds C s.sSecret s.keyRegion

variable {C : Crypto} {s s' : State} {a : Action}

/-- The invariant holds of a new connection. -/
theorem Inv.init : Inv C {} := ⟨rfl, rfl, rfl, rfl, KeyCache.holds_clear⟩

/-- The region in force has nothing left to default. -/
theorem regionInForce_idem (r : String) : regionInForce (regionInForce r) = regionInForce r := by
  unfold regionInForce
  split_ifs with h h'
  · exact absurd h' (by decide)
  · rfl
  · rfl

/-- **Every call keeps the members true to what was set.** A setter writes its own member, but for
`SetHostAuth`, of whose size nothing is said; and the cached key is cleared with a change of the
secret, or made of the secret that is there. -/
theorem Inv.step (hi : Inv C s) (a : Action) : Inv C (s.step C a) := by
  obtain ⟨hsecret, hregion, hkey, hchunk, hcache⟩ := hi
  cases a with
  | setSecret t =>
      simp only [State.step, State.setSecret]
      split_ifs with h
      · exact ⟨by simp [State.log, lastSecret, Event.secret],
          by simpa [State.log, lastRegion, Event.region] using hregion,
          by simpa [State.log, lastKeyID, Event.keyID] using hkey, hchunk, KeyCache.holds_clear⟩
      · exact ⟨by simpa [State.log, lastSecret, Event.secret] using h,
          by simpa [State.log, lastRegion, Event.region] using hregion,
          by simpa [State.log, lastKeyID, Event.keyID] using hkey, hchunk, hcache⟩
  | setRegion r =>
      exact ⟨by simpa [State.step, State.log, lastSecret, Event.secret] using hsecret,
        by simp [State.step, State.log, lastRegion, Event.region],
        by simpa [State.step, State.log, lastKeyID, Event.keyID] using hkey, hchunk, hcache⟩
  | setS3KeyID k =>
      exact ⟨by simpa [State.step, State.log, lastSecret, Event.secret] using hsecret,
        by simpa [State.step, State.log, lastRegion, Event.region] using hregion,
        by simp [State.step, State.log, lastKeyID, Event.keyID], hchunk, hcache⟩
  | setHostAuth b u =>
      exact ⟨by simpa [State.step, State.setHostAuth, State.log, lastSecret, Event.secret]
          using hsecret,
        by simpa [State.step, State.setHostAuth, State.log, lastRegion, Event.region] using hregion,
        by simpa [State.step, State.setHostAuth, State.log, lastKeyID, Event.keyID] using hkey,
        hchunk, hcache⟩
  | request st streamed =>
      simp only [State.step]
      split_ifs
      · simp only [State.request]
        have hcache' : (KeyCache.store (createS3SigningKey C s.sSecret (regionInForce s.sS3Region)
          st) st).Holds C s.sSecret (regionInForce s.sS3Region) := KeyCache.holds_store
        split_ifs
        all_goals
          refine ⟨by simpa [State.log, lastSecret, Event.secret] using hsecret,
            by simpa [State.log, lastRegion, Event.region, regionInForce_idem] using hregion,
            by simpa [State.log, lastKeyID, Event.keyID] using hkey, hchunk, ?_⟩
        · exact hcache'
        · exact hcache
      · exact ⟨hsecret, hregion, hkey, hchunk, hcache⟩

/-- **A request that meets the condition is signed right.** The cached key is of the secret in any
case; the condition adds that it is of the region, and that the size that was asked for is the one
that is used. -/
theorem Inv.right (hi : Inv C s) {st : SystemTime} {streamed : Bool}
    (hC : Current s (.request st streamed)) :
    Right C s.events (.request (s.signed C st streamed)) := by
  refine ⟨?_, ?_, ?_, fun hs => ?_⟩
  · simp only [State.signed]
    rw [← hi.secret, ← hi.region]
    split_ifs with hit
    · rfl
    · rw [hi.cache.lookup_eq hit, hC.1 hit]
  · simp only [State.signed, hi.region]
  · simp only [State.signed, hi.region, hi.keyID]
  · rw [hC.2 hs]
    simp only [State.signed, hi.chunkSize]
    rfl

/-- The invariant after any calls. -/
theorem inv_of_reachable {D : State → Action → Prop} (h : (system C).ReachableBy D s) : Inv C s := by
  refine h.invariant (fun s h => ?_) fun s a s' hi _ hs => ?_
  · obtain rfl : s = {} := h
    exact .init
  · obtain rfl := Option.some.inj hs
    exact hi.step a

/-- **Requests are signed with the current configuration**, in every run whose
requests take no cached key of another region and stream in chunks of the default
size only. -/
theorem signed_current (h : (system C).ReachableBy Current s) : Past (Right C) s.events := by
  refine h.invariant_reachable (I := fun s => Past (Right C) s.events) (fun s h => ?_)
    fun s a s' hr hp hC hs => ?_
  · obtain rfl : s = {} := h
    exact .nil
  · obtain rfl := Option.some.inj hs
    cases a with
    | setSecret t =>
        simp only [State.step, State.setSecret]
        split_ifs <;> exact hp.snoc trivial
    | setRegion r => exact hp.snoc trivial
    | setS3KeyID k => exact hp.snoc trivial
    | setHostAuth b u => exact hp.snoc trivial
    | request st streamed =>
        simp only [State.step]
        split_ifs
        · rw [State.request_events]
          exact hp.snoc ((inv_of_reachable hr).right hC)
        · exact hp

/-- A day, and the day after it. -/
def firstDay : SystemTime := { wYear := 2024, wMonth := 5, wDay := 17 }

def secondDay : SystemTime := { firstDay with wDay := 18 }

/-- Requests on two days, with a change of the region, and later of the secret, in
between. -/
def currentRun : List Action :=
  [.setS3KeyID "user", .setSecret "secret", .request firstDay true, .request firstDay false,
    .setRegion "", .request secondDay false, .setHostAuth true DefaultS3AuthV4ChunkSize,
    .setSecret "changed", .request secondDay true]

/-- `signed_current` on these nine calls. The second request takes the cached key; the third is on
another day, and the last behind another secret, so each of them makes a key of its own. -/
theorem signed_current_run : ∃ s : State, (system .standard).Reachable s ∧
    s.events.length = 9 ∧ Past (Right .standard) s.events := by
  have hrun : (((system .standard).restrict Current).run currentRun {}).map
      (fun s => s.events.length) = some 9 := by decide +kernel
  obtain ⟨s, hs, hlen⟩ := Option.map_eq_some_iff.1 hrun
  have h : (system .standard).ReachableBy Current s := .run_restrict _ (.init rfl) hs
  exact ⟨s, h.reachable, hlen, signed_current h⟩

/-- A request, and then another region and another chunk size. -/
def staleRun : List Action :=
  [.setSecret "secret", .request firstDay false, .setRegion "eu-west-1",
    .setHostAuth true 0x10000]

/-- The keys of the two regions are not the same. -/
theorem regions_differ : createS3SigningKey .standard "secret" "us-east-1" firstDay ≠
    createS3SigningKey .standard "secret" "eu-west-1" firstDay := by decide +kernel

/-- **A change of the region leaves the key of the day in use, and a chunk size passed
to `SetHostAuth` is ignored.** -/
theorem not_signed_current : ∃ s : State, (system .standard).Reachable s ∧
    ¬Past (Right .standard) s.events ∧ ∃ past q, s.events = past ++ [.request q] ∧
      lastRegion past = "eu-west-1" ∧ lastChunkSize past = 0x10000 ∧
      q.key = createS3SigningKey .standard "secret" "us-east-1" firstDay ∧
      q.key ≠ createS3SigningKey .standard "secret" "eu-west-1" firstDay ∧
      q.uS3AuthV4ChunkSize = 0x200000 := by
  have hrun : ((system .standard).run staleRun {}).map (fun t =>
      decide (t.bS3AuthV4 = true ∧ t.sSecret = "secret" ∧ t.keyRegion = "us-east-1" ∧
        t.cache.lookup firstDay ≠ [] ∧ lastRegion t.events = "eu-west-1" ∧
        lastChunkSize t.events = 0x10000)) = some true := by decide +kernel
  obtain ⟨t, ht, hfacts⟩ := Option.map_eq_some_iff.1 hrun
  obtain ⟨hv4, hsecret, hfrom, hit, hregion, hchunk⟩ := of_decide_eq_true hfacts
  have hreach : (system .standard).Reachable t := .run _ (.init rfl) ht
  have hi := inv_of_reachable hreach
  have hkey : (t.signed .standard firstDay true).key =
      createS3SigningKey .standard "secret" "us-east-1" firstDay := by
    simp only [State.signed, if_neg hit]
    rw [hi.cache.lookup_eq hit, hsecret, hfrom]
  have hne := hkey.trans_ne regions_differ
  have hstep : (system .standard).step t (.request firstDay true) =
      some (t.request .standard firstDay true) := by simp [system, State.step, hv4]
  refine ⟨_, hreach.step trivial hstep, fun h => ?_, _, _, State.request_events .., hregion, hchunk,
    hkey, hne, by simp only [State.signed, hi.chunkSize]; rfl⟩
  rw [State.request_events] at h
  obtain ⟨hright, -⟩ := h.last
  rw [← hi.secret, hsecret, hregion] at hright
  exact hne hright

end Config
end Sign
end ECSUtil

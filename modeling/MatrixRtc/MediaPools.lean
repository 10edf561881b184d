import MatrixRtc.MediaTransports
import MatrixRtc.Tables
import Mathlib.Algebra.Group.Nat.Defs
import Mathlib.Data.List.Sort

/-!
# The media pool

A session's media over one connection a focus, keyed by member. The pool is a state machine:
its owner hands it membership snapshots, and the connect results, connection events and
timers of its inbox, and takes the events it reports. What a call starts (connects, timers,
forwarders, closes) is listed in `spawned`. The maps and sets of the program are kept in
some order, and one clock reading serves a call; the SFUs that two token flows reach are
only logged and left out.
-/
namespace MatrixRtc.MediaPools
open MemberEvents MediaTransports Tables

/-- `IDLE_GRACE`. -/
def idleGrace : ℕ := 10000

/-- `BACKOFF_BASE`. -/
def backoffBase : ℕ := 1000

/-- `BACKOFF_MAX`. -/
def backoffMax : ℕ := 30000

/-- `OWN_BACKOFF_MAX`. -/
def ownBackoffMax : ℕ := 10000

/-- `OWN_FINAL_ATTEMPT_GRACE`. -/
def ownFinalAttemptGrace : ℕ := 10000

/-- `FALLBACK_GRACE`. -/
def fallbackGrace : ℕ := 10000

/-- `CONSTRAINTS_DEBOUNCE`. -/
def constraintsDebounce : ℕ := 150

/-- `backoff_delay`; `2u32` saturates, and so does the product in its range. -/
def backoffDelay (attempt : ℕ) : ℕ :=
  min (backoffBase * min (2 ^ (attempt - 1)) (2 ^ 32 - 1)) backoffMax

/-- A subscribed track and the connection it came over. -/
structure PooledTrack where
  connectionKey : String
  track : ℕ
deriving DecidableEq, Repr

inductive ConnectionState where
  | connected
  | connecting
  | reconnecting
  | unreachable
deriving DecidableEq, Repr

inductive OwnConnectionLoss where
  | budget
  | refused
  | neverConnected
deriving DecidableEq, Repr

structure ActiveSpeaker where
  memberId : String
  level : UInt32
deriving DecidableEq, Repr

inductive PoolEvent where
  | streamAdded (memberId : String) (kind : MediaStreamKind)
  | streamRemoved (memberId : String) (kind : MediaStreamKind)
  | streamMuted (memberId : String) (kind : MediaStreamKind) (muted : Bool)
  | activeSpeakers (speakers : List ActiveSpeaker)
  | encryptionStateChanged (memberId : String) (state : FrameEncryptionState)
  | sentInClear (memberId : String)
  | keyImported (memberId identity : String) (keyIndex : UInt8)
  | unknownParticipant (identity : String)
  | connectionState (connectionKey : String) (state : ConnectionState)
  | degraded (impaired : Bool)
  | ownConnectionLost (reason : OwnConnectionLoss) (message : String)
  | ownFocusMoved (connectionKey : String) (transport : RtcTransport)
deriving DecidableEq

inductive ConnState where
  | connecting (attempt : ℕ)
  | up (connection : ℕ)
  | backoff (attempt : ℕ)
deriving DecidableEq, Repr

def ConnState.isUp : ConnState → Bool
  | .up _ => true
  | .connecting _ | .backoff _ => false

structure ManagedConnection where
  backend : Option MediaTransport
  members : List String
  isOwn : Bool
  state : ConnState
  generation : ℕ
  idleGeneration : ℕ

/-- Our own focus while it is being recovered. -/
structure OwnRecovery where
  connection : ℕ
  lostSince : Option ℕ
  epoch : ℕ
  tokenRefetched : Bool
  refetchNext : Bool
  everUp : Bool
  budgetSpent : Bool
deriving DecidableEq, Repr

/-- A task that a call starts. -/
inductive Spawned where
  | connect (connectionKey : String) (attempt : ℕ)
  | close (connection : ℕ)
  | forward (connectionKey : String) (generation : ℕ)
  | retryConnect (connectionKey : String) (attempt delay : ℕ)
  | closeIfIdle (connectionKey : String) (idleGeneration delay : ℕ)
  | applyConstraints (memberId : String) (kind : MediaStreamKind) (generation delay : ℕ)
  | constrain (connection : ℕ) (identity : String) (kind : MediaStreamKind)
      (resolved : ResolvedConstraints)
  | ownAttempt (connection attempt : ℕ) (freshToken : Bool)
  | ownRetry (attempt delay : ℕ)
  | ownBudget (epoch delay : ℕ)
  | ownFinalAttempt (epoch delay : ℕ)
  | ownFallback (epoch delay : ℕ)
deriving DecidableEq

structure PoolConfig where
  transports : List MediaTransport
  /-- `ctx.member.member_id` -/
  ownMemberId : String
  ownConnectionKey : Option String
  ownReconnectBudget : ℕ
  sfuFallback : Bool

structure MediaPool where
  transports : List MediaTransport
  ownMemberId : String
  ownConnectionKey : Option String
  tracks : Table (String × MediaStreamKind) PooledTrack
  membersSnapshot : List JoinedMembership
  knownMembers : List String
  identityMap : Table String String
  memberIdentities : Table String String
  constraints : Table (String × MediaStreamKind) (MediaConstraints × ℕ)
  pendingTracks : Table String (List (MediaStreamKind × PooledTrack))
  sentInClear : List String
  pendingKeys : Table String (List UInt8)
  pool : Table String ManagedConnection
  connectionGeneration : ℕ
  degradedKeys : List String
  unmapped : Table String String
  ownLost : Bool
  own : Option OwnRecovery
  closed : Bool
  ownReconnectBudget : ℕ
  sfuFallback : Bool
  signallingReachable : Bool
  fallbackTarget : Option String
  out : List PoolEvent
  spawned : List Spawned

namespace MediaPool

def new (config : PoolConfig) : MediaPool :=
  { transports := config.transports
    ownMemberId := config.ownMemberId
    ownConnectionKey := config.ownConnectionKey
    tracks := ∅, membersSnapshot := [], knownMembers := []
    identityMap := ∅, memberIdentities := ∅, constraints := ∅
    pendingTracks := ∅, sentInClear := [], pendingKeys := ∅
    pool := ∅, connectionGeneration := 0, degradedKeys := [], unmapped := ∅
    ownLost := false, own := none, closed := false
    ownReconnectBudget := config.ownReconnectBudget
    sfuFallback := config.sfuFallback
    signallingReachable := true
    fallbackTarget := none, out := [], spawned := [] }

variable (p : MediaPool)

def emit (event : PoolEvent) : MediaPool := { p with out := p.out ++ [event] }

def spawn (task : Spawned) : MediaPool := { p with spawned := p.spawned ++ [task] }

/-- The events and the tasks of the call that ends. -/
def take : MediaPool × List PoolEvent × List Spawned :=
  ({ p with out := [], spawned := [] }, p.out, p.spawned)

/-- `apply_constraints_now`. -/
def applyConstraintsNow (memberId : String) (kind : MediaStreamKind) : MediaPool :=
  match p.constraints.lookup (memberId, kind), p.memberIdentities.lookup memberId,
    p.pool.entries.find? fun e => e.2.members.contains memberId with
  | some (constraints, _), some identity, some ⟨_, entry⟩ =>
      match entry.state with
      | .up connection => p.spawn (.constrain connection identity kind (constraints.resolve kind))
      | .connecting _ | .backoff _ => p
  | _, _, _ => p

/-- `reapply_connection_constraints`. -/
def reapplyConnectionConstraints (key : String) : MediaPool :=
  match p.pool.lookup key with
  | none => p
  | some entry =>
      p.constraints.keys.foldl
        (fun p stream =>
          if entry.members.contains stream.1 then p.applyConstraintsNow stream.1 stream.2 else p)
        p

/-- A stream is new to the host, or new in the place of another. -/
def announceStream (memberId : String) (kind : MediaStreamKind) : MediaPool :=
  let p := p.emit (.streamAdded memberId kind)
  if (p.constraints.lookup (memberId, kind)).isSome then p.applyConstraintsNow memberId kind else p

/-- `add_track`. -/
def addTrack (memberId : String) (kind : MediaStreamKind) (pooled : PooledTrack) : MediaPool :=
  let previous := p.tracks.lookup (memberId, kind)
  let p := { p with tracks := p.tracks.insert (memberId, kind) pooled }
  match previous with
  | some previous =>
      if previous.track = pooled.track then p
      else (p.emit (.streamRemoved memberId kind)).announceStream memberId kind
  | none => p.announceStream memberId kind

/-- `remove_track`. -/
def removeTrack (memberId : String) (kind : MediaStreamKind) (connectionKey : String) :
    MediaPool :=
  if (p.tracks.lookup (memberId, kind)).any (·.connectionKey == connectionKey) then
    { p with tracks := p.tracks.erase (memberId, kind) }.emit (.streamRemoved memberId kind)
  else p

/-- The identity is the member's from now on. -/
def mapIdentity (memberId identity : String) : MediaPool :=
  { p with
    unmapped := p.unmapped.erase identity
    identityMap := p.identityMap.insert identity memberId
    memberIdentities := p.memberIdentities.insert memberId identity }

/-- Media that arrived before its membership is released. -/
def flushTracks (memberId identity : String) : MediaPool :=
  let pending := (p.pendingTracks.lookup identity).getD []
  pending.foldl (fun p (kind, pooled) => p.addTrack memberId kind pooled)
    { p with pendingTracks := p.pendingTracks.erase identity }

/-- Keys that arrived before their membership are reported. -/
def flushKeys (memberId identity : String) : MediaPool :=
  let pending := (p.pendingKeys.lookup identity).getD []
  pending.foldl (fun p keyIndex => p.emit (.keyImported memberId identity keyIndex))
    { p with pendingKeys := p.pendingKeys.erase identity }

/-- `map_member`. -/
def mapMember (member : JoinedMembership) : MediaPool :=
  match remoteIdentity p.transports member with
  | none => p
  | some identity =>
      let p := (p.mapIdentity member.memberId identity).flushTracks member.memberId identity
      let p := if p.sentInClear.contains identity then p.emit (.sentInClear member.memberId) else p
      p.flushKeys member.memberId identity

/-- The tracks of a member, by their kinds. -/
def tracksOf (memberId : String) : List (MediaStreamKind × PooledTrack) :=
  (p.tracks.entries.filter fun e => e.1.1 == memberId).map fun e => (e.1.2, e.2)

/-- What is buffered once the tracks of a member go back to the buffer of its identity. -/
def pendingWith (identity : Option String) (departed : List (MediaStreamKind × PooledTrack)) :
    Table String (List (MediaStreamKind × PooledTrack)) :=
  match identity with
  | some identity =>
      if departed.isEmpty then p.pendingTracks
      else p.pendingTracks.insert identity
        ((p.pendingTracks.lookup identity).getD [] ++ departed)
  | none => p.pendingTracks

/-- `forget_member`. -/
def forgetMember (memberId : String) : MediaPool :=
  let identity := p.memberIdentities.lookup memberId
  { p with
    knownMembers := p.knownMembers.filter (· != memberId)
    memberIdentities := p.memberIdentities.erase memberId
    pendingKeys := match identity with
      | some identity => p.pendingKeys.erase identity
      | none => p.pendingKeys
    identityMap := retain p.identityMap fun _ mapped => mapped != memberId
    constraints := retain p.constraints fun stream _ => stream.1 != memberId
    tracks := retain p.tracks fun stream _ => stream.1 != memberId
    pendingTracks := p.pendingWith identity (p.tracksOf memberId) }

/-- `drop_pending_from`. -/
def dropPendingFrom (key : String) : MediaPool :=
  let kept := mapValues p.pendingTracks fun _ pending =>
    pending.filter fun buffered => buffered.2.connectionKey != key
  { p with pendingTracks := retain kept fun _ pending => !pending.isEmpty }

/-- `mark_degraded`. -/
def markDegraded (key : String) : MediaPool :=
  if p.degradedKeys.contains key then p
  else
    let wasClear := p.degradedKeys.isEmpty
    let p := { p with degradedKeys := key :: p.degradedKeys }
    let p := if wasClear then p.emit (.degraded true) else p
    p.emit (.connectionState key .reconnecting)

/-- `clear_degraded`. -/
def clearDegraded (key : String) : MediaPool :=
  if p.degradedKeys.contains key then
    let p := { p with degradedKeys := p.degradedKeys.filter (· != key) }
    let p := if p.degradedKeys.isEmpty then p.emit (.degraded false) else p
    p.emit (.connectionState key .connected)
  else p

/-- The entry under a key is replaced, or added. -/
def setEntry (key : String) (entry : ManagedConnection) : MediaPool :=
  { p with pool := p.pool.insert key entry }

def removeEntry (key : String) : MediaPool := { p with pool := p.pool.erase key }

/-- Whoever was unmapped on the connection is not there any more. -/
def dropUnmappedOn (key : String) : MediaPool :=
  { p with unmapped := retain p.unmapped fun _ on => on != key }

/-- The members of a group, with one more. -/
def joinGroup (groups : Table String (MediaTransport × List String)) (memberId : String)
    (backend : MediaTransport) (key : String) : Table String (MediaTransport × List String) :=
  let (backend, members) := (groups.lookup key).getD (backend, [])
  groups.insert key (backend, members.insert memberId)

/-- The focus of each connection the snapshot asks for, with its members: ourselves apart. -/
def desired : Table String (MediaTransport × List String) :=
  p.membersSnapshot.foldl
    (fun groups member =>
      if member.memberId = p.ownMemberId then groups
      else match selectTransport p.transports member with
        | some (backend, key) => joinGroup groups member.memberId backend key
        | none => groups)
    ∅

/-- `start_connect`. -/
def startConnect (key : String) (attempt : ℕ) : MediaPool :=
  match p.pool.lookup key with
  | none => p
  | some entry =>
      if entry.backend.isNone then p
      else (p.setEntry key { entry with state := .connecting attempt }).spawn (.connect key attempt)

/-- The members of the connections there are, and the timers of those without any. -/
def regroup : MediaPool :=
  let pool := mapValues p.pool fun key entry =>
    { entry with
      members := ((p.desired.lookup key).map Prod.snd).getD []
      idleGeneration := entry.idleGeneration + 1 }
  let idle := pool.entries.filter fun e => e.2.members.isEmpty && !e.2.isOwn
  { p with
    pool := pool
    spawned := p.spawned ++ idle.map fun e => .closeIfIdle e.1 e.2.idleGeneration idleGrace }

/-- A connection that the snapshot asks for is opened: never our own focus. -/
def openPeer (key : String) (backend : MediaTransport) (members : List String) : MediaPool :=
  if p.ownConnectionKey = some key then p
  else
    (p.setEntry key
      { backend := some backend, members := members, isOwn := false, state := .connecting 0
        generation := 0, idleGeneration := 0 }).startConnect key 0

/-- `reconcile_pool`. -/
def reconcilePool : MediaPool :=
  let missing := p.desired.entries.filter fun e => (p.pool.lookup e.1).isNone
  missing.foldl (fun p e => p.openPeer e.1 e.2.1 e.2.2) p.regroup

/-- `schedule_retry`. -/
def scheduleRetry (key : String) (attempt delay : ℕ) : MediaPool :=
  p.spawn (.retryConnect key attempt delay)

/-- `retry_connect`. -/
def retryConnect (key : String) (attempt : ℕ) : MediaPool :=
  match p.pool.lookup key with
  | none => p
  | some entry =>
      if entry.state ≠ .backoff attempt then p
      else if entry.members.isEmpty && !entry.isOwn then (p.removeEntry key).clearDegraded key
      else p.startConnect key attempt

/-- The idle timer of the connection stands, and it has no members left. -/
def idleCloses (key : String) (idleGeneration : ℕ) : Bool :=
  match p.pool.lookup key with
  | none => false
  | some entry => entry.idleGeneration == idleGeneration && entry.members.isEmpty && !entry.isOwn

/-- The connection of an entry is closed. -/
def closeEntry (entry : ManagedConnection) : MediaPool :=
  match entry.state with
  | .up connection => p.spawn (.close connection)
  | .connecting _ | .backoff _ => p

/-- `close_if_idle`. -/
def closeIfIdle (key : String) (idleGeneration : ℕ) : MediaPool :=
  if p.idleCloses key idleGeneration then
    let q := ((p.dropUnmappedOn key).dropPendingFrom key).removeEntry key
    let q := match p.pool.lookup key with
      | some entry => q.closeEntry entry
      | none => q
    q.clearDegraded key
  else p

/-- `spawn_forwarder`. -/
def spawnForwarder (key : String) (generation : ℕ) : MediaPool := p.spawn (.forward key generation)

/-- The members whose media lives on `key`. -/
def membersOnKey (key : String) : List String :=
  (p.membersSnapshot.filter fun member =>
    (selectTransport p.transports member).any fun selected => selected.2 == key).map
      (·.memberId) |>.dedup

/-- `start_own_loss`. -/
def startOwnLoss (now : ℕ) : MediaPool :=
  match p.ownConnectionKey, p.own with
  | some key, some own =>
      if own.lostSince.isSome then p
      else
        let epoch := own.epoch + 1
        let p := { p with own := some { own with lostSince := some now, epoch := epoch } }
        let p := p.spawn (.ownBudget epoch p.ownReconnectBudget)
        let p := if p.sfuFallback then p.spawn (.ownFallback epoch fallbackGrace) else p
        p.markDegraded key
  | _, _ => p

/-- `end_own_loss`. -/
def endOwnLoss : MediaPool :=
  match p.own with
  | none => p
  | some own =>
      let p := { p with fallbackTarget := none }
      if own.lostSince.isSome then
        { p with
          own := some { own with
            lostSince := none, epoch := own.epoch + 1, tokenRefetched := false
            refetchNext := false, budgetSpent := false } }
      else p

/-- `spawn_own_attempt`. -/
def spawnOwnAttempt (attempt : ℕ) : MediaPool :=
  match p.ownConnectionKey, p.own with
  | some key, some own =>
      let q := { p with own := some { own with refetchNext := false } }
      let q := match p.pool.lookup key with
        | some entry => q.setEntry key { entry with state := .connecting attempt }
        | none => q
      q.spawn (.ownAttempt own.connection attempt own.refetchNext)
  | _, _ => p

/-- `give_up_own`. -/
def giveUpOwn (reason : OwnConnectionLoss) (message : String) : MediaPool :=
  match p.ownConnectionKey with
  | none => p
  | some key =>
      let p := { p with fallbackTarget := none }
      let p := ((p.dropUnmappedOn key).dropPendingFrom key).removeEntry key
      let p := { p with own := none, ownLost := true }.clearDegraded key
      (p.emit (.connectionState key .unreachable)).emit (.ownConnectionLost reason message)

/-- `give_up_own_budget`. -/
def giveUpOwnBudget : MediaPool :=
  match p.own with
  | none => p
  | some own =>
      p.giveUpOwn (if own.everUp then .budget else .neverConnected)
        ("no connection to our own focus for " ++ toString (p.ownReconnectBudget / 1000) ++ " s")

/-- `own_backoff`. -/
def ownBackoff (attempt now : ℕ) : MediaPool :=
  match p.ownConnectionKey with
  | none => p
  | some key =>
      let q := match p.pool.lookup key with
        | some entry => p.setEntry key { entry with state := .backoff attempt }
        | none => p
      let left := (p.own.bind (·.lostSince)).map fun since => p.ownReconnectBudget - (now - since)
      let delay := min (backoffDelay attempt) ownBackoffMax
      q.spawn (.ownRetry attempt (left.elim delay (min delay)))

/-- The connection is up and not impaired. -/
def carries (key : String) (entry : ManagedConnection) : Bool :=
  entry.state.isUp && !p.degradedKeys.contains key

/-- `a` counts before `b` as the focus to move to: it has more members, or as many and the
smaller key. -/
def busier (a b : Sigma fun _ : String => ManagedConnection) : Bool :=
  b.2.members.length < a.2.members.length ||
    b.2.members.length == a.2.members.length && a.1 < b.1

/-- The busiest peer focus our media may move to under the identity it has. -/
def fallbackCandidate (ownKey : String) : Option String :=
  let candidates := p.pool.entries.filter fun e =>
    e.1 != ownKey && !e.2.members.isEmpty &&
      e.2.backend.any fun backend => backend.sharesIdentity ownKey e.1
  (candidates.foldl
    (fun found e =>
      match found with
      | none => some e
      | some best => if busier best e then some best else some e)
    none).map (·.1)

/-- What a fallback would move to now, as the checks before it decide. -/
def fallbackChoice (now : ℕ) : Option (String × String) := do
  guard (p.sfuFallback && p.signallingReachable && !p.closed)
  let ownKey ← p.ownConnectionKey
  let since ← p.own.bind (·.lostSince)
  guard (fallbackGrace ≤ now - since)
  guard (p.pool.entries.any fun e => e.1 != ownKey && p.carries e.1 e.2)
  let target ← p.fallbackCandidate ownKey
  return (ownKey, target)

/-- `transport_for_key`. -/
def transportForKey (key : String) : Option RtcTransport :=
  p.membersSnapshot.findSome? fun member =>
    (member.transports.find? fun transport =>
      p.transports.any fun backend =>
        backend.connectionKey transport member.sender == some key).map
      (asPublishedBy member.sender)

/-- Our handle has taken the connection to `target` over. -/
def movedTo (ownKey target : String) (own : OwnRecovery) (transport : RtcTransport) : MediaPool :=
  let q := { p with own := some { own with everUp := true } }
  let q := ((q.removeEntry ownKey).dropUnmappedOn ownKey).dropPendingFrom ownKey
  let q := match q.pool.lookup target with
    | some entry =>
        q.setEntry target { entry with
          isOwn := true, backend := none, state := .up own.connection }
    | none => q
  let q := { q with ownConnectionKey := some target }.endOwnLoss
  let q := (q.emit (.ownFocusMoved target transport)).emit (.connectionState target .connected)
  let q := q.reconcilePool
  if (q.pool.lookup ownKey).isNone then q.clearDegraded ownKey else q

/-- `fall_back`, given what handing the peer's session over to our handle answers. -/
def fallBack (ownKey target : String) (takeOver : Except TransportError Unit) : MediaPool :=
  match p.own, p.transportForKey target, p.pool.lookup target with
  | some own, some transport, some entry =>
      if entry.state.isUp then
        match takeOver with
        | .error _ => { p with sfuFallback := false, fallbackTarget := none }
        | .ok () => p.movedTo ownKey target own transport
      else p
  | _, _, _ => p

/-- `try_fallback`. -/
def tryFallback (now : ℕ) (takeOver : Except TransportError Unit) : MediaPool :=
  match p.fallbackChoice now with
  | none => p
  | some (ownKey, target) =>
      if (p.pool.lookup target).any (p.carries target) then p.fallBack ownKey target takeOver
      else { p with fallbackTarget := some target }

/-- `peer_up`. -/
def peerUp (key : String) (now : ℕ) (takeOver : Except TransportError Unit) : MediaPool :=
  if p.ownConnectionKey = some key then p else p.tryFallback now takeOver

/-- The connection of a connect attempt is closed, as nobody needs it. -/
def closeStray (result : Except TransportError ℕ) : MediaPool :=
  match result with
  | .ok connection => p.spawn (.close connection)
  | .error _ => p

/-- A connection is up in the place of its attempt. -/
def installed (key : String) (entry : ManagedConnection) (connection : ℕ) : MediaPool :=
  let generation := p.connectionGeneration + 1
  let q := { p with connectionGeneration := generation }
  let q := q.setEntry key { entry with generation := generation, state := .up connection }
  q.spawnForwarder key generation

/-- `connect_finished`. -/
def connectFinished (key : String) (attempt : ℕ) (result : Except TransportError ℕ) (now : ℕ)
    (takeOver : Except TransportError Unit) : MediaPool :=
  match p.pool.lookup key with
  | none => p.closeStray result
  | some entry =>
      if entry.state ≠ .connecting attempt then p.closeStray result
      else if entry.members.isEmpty && !entry.isOwn then
        ((p.removeEntry key).clearDegraded key).closeStray result
      else
        match result with
        | .ok connection =>
            ((p.installed key entry connection).clearDegraded key).peerUp key now takeOver
        | .error _ =>
            let next := attempt + 1
            ((p.markDegraded key).setEntry key { entry with state := .backoff next }).scheduleRetry
              key next (backoffDelay next)

/-- Member and kind, in the order events are reported in. -/
def streamLe (a b : String × MediaStreamKind) : Prop :=
  a.1 < b.1 ∨ a.1 = b.1 ∧ a.2.rank ≤ b.2.rank

instance : DecidableRel streamLe := fun _ _ => inferInstanceAs (Decidable (_ ∨ _))

/-- The streams that came over a connection. -/
def streamsOn (key : String) : List (String × MediaStreamKind) :=
  ((p.tracks.entries.filter fun e => e.2.connectionKey == key).map (·.1)).insertionSort streamLe

/-- The streams of a connection go with it. -/
def retireTracks (key : String) : MediaPool :=
  (p.streamsOn key).foldl (fun p stream => p.removeTrack stream.1 stream.2 key) p

/-- `connection_down`. -/
def connectionDown (key : String) (generation : ℕ) (message : String) (now : ℕ) : MediaPool :=
  match p.pool.lookup key with
  | none => p
  | some entry =>
      if entry.generation ≠ generation || !entry.state.isUp then p
      else
        let q := (p.dropUnmappedOn key).dropPendingFrom key
        if entry.isOwn && p.own.isNone then q.giveUpOwn .budget message
        else
          let q := (q.retireTracks key).markDegraded key
          if entry.isOwn then (q.startOwnLoss now).spawnOwnAttempt 0
          else if entry.members.isEmpty then (q.removeEntry key).clearDegraded key
          else (q.setEntry key { entry with state := .backoff 0 }).scheduleRetry key 0
            (backoffDelay 0)

/-- `muted`. -/
def muted (identity : String) (kind : MediaStreamKind) (muted : Bool) : MediaPool :=
  match p.identityMap.lookup identity with
  | some memberId => p.emit (.streamMuted memberId kind muted)
  | none => p

def remoteJoined (key identity : String) : MediaPool :=
  if (p.identityMap.lookup identity).isSome then p
  else { p with unmapped := p.unmapped.insert identity key }.emit (.unknownParticipant identity)

def remoteLeft (identity : String) : MediaPool :=
  { p with
    unmapped := p.unmapped.erase identity
    sentInClear := p.sentInClear.filter (· != identity) }

def trackNotEncrypted (identity : String) : MediaPool :=
  let p := { p with sentInClear := p.sentInClear.insert identity }
  match p.identityMap.lookup identity with
  | some memberId => p.emit (.sentInClear memberId)
  | none => p

def trackAdded (key identity : String) (kind : MediaStreamKind) (track : ℕ) : MediaPool :=
  match p.identityMap.lookup identity with
  | some memberId => p.addTrack memberId kind ⟨key, track⟩
  | none =>
      let buffered := (p.pendingTracks.lookup identity).getD [] ++ [(kind, ⟨key, track⟩)]
      { p with pendingTracks := p.pendingTracks.insert identity buffered }

def trackRemoved (key identity : String) (kind : MediaStreamKind) : MediaPool :=
  match p.identityMap.lookup identity with
  | some memberId => p.removeTrack memberId kind key
  | none =>
      match p.pendingTracks.lookup identity with
      | none => p
      | some pending =>
          let kept := pending.filter fun buffered =>
            buffered.1 != kind || buffered.2.connectionKey != key
          { p with pendingTracks := p.pendingTracks.insert identity kept }

def activeSpeakers (speakers : List SpeakingParticipant) : MediaPool :=
  p.emit (.activeSpeakers (speakers.filterMap fun speaker =>
    (p.identityMap.lookup speaker.identity).map fun memberId => ⟨memberId, speaker.level⟩))

def encryptionStateChanged (identity : String) (state : FrameEncryptionState) : MediaPool :=
  match p.identityMap.lookup identity with
  | some memberId => p.emit (.encryptionStateChanged memberId state)
  | none => p

/-- The transport lost its link: our own media is not carried meanwhile. -/
def reconnecting (key : String) (now : ℕ) : MediaPool :=
  let p := p.markDegraded key
  if p.ownConnectionKey = some key then p.startOwnLoss now else p

def reconnected (key : String) (now : ℕ) (takeOver : Except TransportError Unit) : MediaPool :=
  let p := if p.ownConnectionKey = some key then p.endOwnLoss else p
  ((p.clearDegraded key).peerUp key now takeOver).reapplyConnectionConstraints key

/-- `handle_connection_event`. -/
def handleConnectionEvent (key : String) (event : ConnectionEvent) (now : ℕ)
    (takeOver : Except TransportError Unit) : MediaPool :=
  match event with
  | .remoteJoined identity => p.remoteJoined key identity
  | .remoteLeft identity => p.remoteLeft identity
  | .trackNotEncrypted identity _ => p.trackNotEncrypted identity
  | .trackAdded identity kind track => p.trackAdded key identity kind track
  | .trackRemoved identity kind => p.trackRemoved key identity kind
  | .trackMuted identity kind => p.muted identity kind true
  | .trackUnmuted identity kind => p.muted identity kind false
  | .activeSpeakers speakers => p.activeSpeakers speakers
  | .encryptionStateChanged identity state => p.encryptionStateChanged identity state
  | .reconnecting => p.reconnecting key now
  | .reconnected => p.reconnected key now takeOver
  | .closed message =>
      p.connectionDown key (((p.pool.lookup key).map (·.generation)).getD 0) message now

/-- `own_connect_finished`. -/
def ownConnectFinished (attempt : ℕ) (result : Except TransportError Unit) (now : ℕ) :
    MediaPool :=
  match p.ownConnectionKey, p.own with
  | some key, some own =>
      match (p.pool.lookup key).filter fun entry => entry.state = .connecting attempt with
      | none =>
          match result with
          | .ok () => if p.closed then p.spawn (.close own.connection) else p
          | .error _ => p
      | some entry =>
          match result with
          | .ok () =>
              let q := { p with own := some { own with everUp := true } }
              (((q.installed key entry own.connection).endOwnLoss).clearDegraded
                key).reapplyConnectionConstraints key
          | .error error =>
              if own.budgetSpent then
                match error with
                | .tokenRejected message | .refused message => p.giveUpOwn .refused message
                | .unsupported _ | .connect _ | .closed _ => p.giveUpOwnBudget
              else
                match error with
                | .tokenRejected message =>
                    if own.tokenRefetched then p.giveUpOwn .refused message
                    else
                      { p with own := some { own with
                          tokenRefetched := true, refetchNext := true } }.ownBackoff
                        (attempt + 1) now
                | .refused message => p.giveUpOwn .refused message
                | .unsupported _ | .connect _ | .closed _ => p.ownBackoff (attempt + 1) now
  | _, _ => p

def ownEntry : Option ManagedConnection := p.ownConnectionKey.bind fun key => p.pool.lookup key

/-- `own_retry`. -/
def ownRetry (attempt now : ℕ) (takeOver : Except TransportError Unit) : MediaPool :=
  let p := p.tryFallback now takeOver
  if p.ownEntry.any fun entry => entry.state = .backoff attempt then p.spawnOwnAttempt attempt
  else p

/-- The loss numbered `epoch` lasts. -/
def lossStands (epoch : ℕ) : Bool :=
  p.own.any fun own => own.epoch == epoch && own.lostSince.isSome

/-- `own_budget`. -/
def ownBudget (epoch : ℕ) : MediaPool :=
  if p.lossStands epoch then
    let q : MediaPool :=
      { p with own := p.own.map fun own => { own with budgetSpent := true } }
    let q := match q.ownEntry.map (·.state) with
      | some (.backoff attempt) => q.spawnOwnAttempt attempt
      | _ => q
    q.spawn (.ownFinalAttempt epoch ownFinalAttemptGrace)
  else p

/-- The last attempt at our own focus has had its time. -/
def finalAttemptOver (epoch : ℕ) : Bool :=
  p.own.any fun own => own.epoch == epoch && own.budgetSpent && own.lostSince.isSome

/-- Whoever left is forgotten: departures come first in a snapshot. -/
def forgetDeparted (snapshot : List JoinedMembership) : MediaPool :=
  let current := snapshot.map (·.memberId)
  let departed := p.knownMembers.filter fun memberId => !current.contains memberId
  departed.foldl forgetMember p

/-- A member that is new is mapped. -/
def joinMember (member : JoinedMembership) : MediaPool :=
  if p.knownMembers.contains member.memberId then p
  else { p with knownMembers := member.memberId :: p.knownMembers }.mapMember member

/-- `apply_snapshot`. -/
def applySnapshot (snapshot : List JoinedMembership) : MediaPool :=
  { snapshot.foldl joinMember (p.forgetDeparted snapshot) with
    membersSnapshot := snapshot }.reconcilePool

/-- `adopt_own_connection`. -/
def adoptOwnConnection (key : String) (connection : ℕ) : MediaPool :=
  let generation := p.connectionGeneration + 1
  let q := { p with
    connectionGeneration := generation
    own := some
      { connection := connection, lostSince := none, epoch := 0, tokenRefetched := false
        refetchNext := false, everUp := true, budgetSpent := false } }
  (q.setEntry key
    { backend := none, members := p.membersOnKey key, isOwn := true, state := .up connection
      generation := generation, idleGeneration := 0 }).spawnForwarder key generation

/-- `connect_own`. -/
def connectOwn (key : String) (connection now : ℕ) : MediaPool :=
  let q := { p with
    own := some
      { connection := connection, lostSince := none, epoch := 0, tokenRefetched := false
        refetchNext := false, everUp := false, budgetSpent := false } }
  let q := q.setEntry key
    { backend := none, members := p.membersOnKey key, isOwn := true, state := .connecting 0
      generation := 0, idleGeneration := 0 }
  (q.startOwnLoss now).spawnOwnAttempt 0

/-- `key_imported`. -/
def keyImported (identity : String) (keyIndex : UInt8) : MediaPool :=
  match p.identityMap.lookup identity with
  | some memberId => p.emit (.keyImported memberId identity keyIndex)
  | none =>
      let pending := (p.pendingKeys.lookup identity).getD []
      if pending.contains keyIndex then p
      else { p with pendingKeys := p.pendingKeys.insert identity (pending ++ [keyIndex]) }

/-- `set_constraints`. -/
def setConstraints (memberId : String) (kind : MediaStreamKind) (constraints : MediaConstraints) :
    MediaPool :=
  let generation := ((p.constraints.lookup (memberId, kind)).map (·.2)).getD 0 + 1
  { p with constraints := p.constraints.insert (memberId, kind) (constraints, generation) }.spawn
    (.applyConstraints memberId kind generation constraintsDebounce)

/-- `set_signalling_reachable`. -/
def setSignallingReachable (reachable : Bool) (now : ℕ) (takeOver : Except TransportError Unit) :
    MediaPool :=
  let p := { p with signallingReachable := reachable }
  if reachable then p.tryFallback now takeOver else p

/-- `close`. -/
def close : MediaPool :=
  let q := { p with
    closed := true
    own := p.own.map fun own => { own with epoch := own.epoch + 1, lostSince := none }
    pool := ∅ }
  (p.pool.entries.filter fun e => !e.2.isOwn).foldl (fun q e => q.closeEntry e.2) q

end MediaPool

/-- What the inbox brings. -/
inductive Message where
  | connection (connectionKey : String) (generation : ℕ) (event : ConnectionEvent)
  | connectionEnded (connectionKey : String) (generation : ℕ)
  | connectFinished (connectionKey : String) (attempt : ℕ) (result : Except TransportError ℕ)
  | retryConnect (connectionKey : String) (attempt : ℕ)
  | closeIfIdle (connectionKey : String) (idleGeneration : ℕ)
  | applyConstraints (memberId : String) (kind : MediaStreamKind) (generation : ℕ)
  | ownConnectFinished (attempt : ℕ) (result : Except TransportError Unit)
  | ownRetry (attempt : ℕ)
  | ownBudget (epoch : ℕ)
  | ownFinalAttemptExpired (epoch : ℕ)
  | ownFallback (epoch : ℕ)

/-- The generation of the entry is the event's. -/
def MediaPool.isCurrent (p : MediaPool) (key : String) (generation : ℕ) : Bool :=
  (p.pool.lookup key).any (·.generation == generation)

/-- `handle`. -/
def MediaPool.handle (p : MediaPool) (message : Message) (now : ℕ)
    (takeOver : Except TransportError Unit) : MediaPool :=
  match message with
  | .connection key generation event =>
      if p.isCurrent key generation then p.handleConnectionEvent key event now takeOver else p
  | .connectionEnded key generation =>
      p.connectionDown key generation "connection event stream ended" now
  | .connectFinished key attempt result => p.connectFinished key attempt result now takeOver
  | .retryConnect key attempt => p.retryConnect key attempt
  | .closeIfIdle key idleGeneration => p.closeIfIdle key idleGeneration
  | .applyConstraints memberId kind generation =>
      if (p.constraints.lookup (memberId, kind)).any (·.2 == generation) then
        p.applyConstraintsNow memberId kind
      else p
  | .ownConnectFinished attempt result => p.ownConnectFinished attempt result now
  | .ownRetry attempt => p.ownRetry attempt now takeOver
  | .ownBudget epoch => p.ownBudget epoch
  | .ownFinalAttemptExpired epoch => if p.finalAttemptOver epoch then p.giveUpOwnBudget else p
  | .ownFallback epoch => if p.own.any (·.epoch == epoch) then p.tryFallback now takeOver else p

/-- A call of the owner. -/
inductive Call where
  | applySnapshot (snapshot : List JoinedMembership)
  | adoptOwnConnection (connectionKey : String) (connection : ℕ)
  | connectOwn (connectionKey : String) (connection : ℕ)
  | keyImported (identity : String) (keyIndex : UInt8)
  | setConstraints (memberId : String) (kind : MediaStreamKind) (constraints : MediaConstraints)
  | setSignallingReachable (reachable : Bool)
  | handle (message : Message)
  | close

/-- A call, the clock at it, and what handing a session over to our handle would answer. -/
structure Input where
  call : Call
  now : ℕ
  takeOver : Except TransportError Unit

def MediaPool.perform (p : MediaPool) (input : Input) : MediaPool :=
  match input.call with
  | .applySnapshot snapshot => p.applySnapshot snapshot
  | .adoptOwnConnection key connection => p.adoptOwnConnection key connection
  | .connectOwn key connection => p.connectOwn key connection input.now
  | .keyImported identity keyIndex => p.keyImported identity keyIndex
  | .setConstraints memberId kind constraints => p.setConstraints memberId kind constraints
  | .setSignallingReachable reachable =>
      p.setSignallingReachable reachable input.now input.takeOver
  | .handle message => p.handle message input.now input.takeOver
  | .close => p.close

end MatrixRtc.MediaPools

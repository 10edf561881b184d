import MatrixRtc.PoolMoves
import Mathlib.Logic.Relation

/-!
# The small steps of a media pool's calls

Whatever a call of the pool does that neither brings a track, nor tells of a mute, nor is
about constraints or members, is done in small steps: an event that is about no stream, a
task, constraints told to a connection as they are, a track or buffered tracks that go, and
changes of what is beside these. What each small step keeps, every such call keeps.
-/
namespace MatrixRtc.PoolSteps
open MemberEvents MediaTransports Tables MediaPools PoolMoves

/-- An event about a stream. -/
def aboutStream : PoolEvent → Bool
  | .streamAdded _ _ | .streamRemoved _ _ | .streamMuted _ _ _ => true
  | _ => false

/-- A task that is about constraints. -/
def aboutConstraints : Spawned → Bool
  | .constrain _ _ _ _ | .applyConstraints _ _ _ _ => true
  | _ => false

/-- What a change of the rest of a pool leaves as it was. -/
structure Core where
  attribution : Attribution
  constraints : Table (String × MediaStreamKind) (MediaConstraints × ℕ)
  tracks : Table (String × MediaStreamKind) PooledTrack
  pendingTracks : Table String (List (MediaStreamKind × PooledTrack))
  out : List PoolEvent

def coreOf (p : MediaPool) : Core :=
  { attribution := attributionOf p
    constraints := p.constraints
    tracks := p.tracks
    pendingTracks := p.pendingTracks
    out := p.out }

/-- One small step. -/
inductive Step : MediaPool → MediaPool → Prop
  | rest {p q : MediaPool} (tasks : List Spawned) (core : coreOf q = coreOf p)
      (spawned : q.spawned = p.spawned ++ tasks)
      (other : ∀ task ∈ tasks, aboutConstraints task = false) : Step p q
  | emit (p : MediaPool) {event : PoolEvent} (other : aboutStream event = false) :
      Step p (p.emit event)
  | push (p : MediaPool) (memberId : String) (kind : MediaStreamKind) :
      Step p (p.applyConstraintsNow memberId kind)
  | removeTrack (p : MediaPool) (memberId : String) (kind : MediaStreamKind) (key : String) :
      Step p (p.removeTrack memberId kind key)
  | dropPending (p : MediaPool) (key : String) : Step p (p.dropPendingFrom key)
  | unbuffer (p : MediaPool) (identity key : String) (kind : MediaStreamKind)
      (unmapped : p.identityMap.lookup identity = none) :
      Step p (p.trackRemoved key identity kind)

/-- Small steps. -/
abbrev Steps : MediaPool → MediaPool → Prop := Relation.ReflTransGen Step

section
variable {p q r : MediaPool}

namespace Steps

theorem refl (p : MediaPool) : Steps p p := Relation.ReflTransGen.refl

theorem trans (first : Steps p q) (second : Steps q r) : Steps p r :=
  Relation.ReflTransGen.trans first second

theorem one (step : Step p q) : Steps p q := Relation.ReflTransGen.single step

theorem of_same (core : coreOf q = coreOf p) (spawned : q.spawned = p.spawned) : Steps p q :=
  one (.rest [] core (spawned.trans (List.append_nil _).symm) (by simp))

theorem foldl {α : Type} {f : MediaPool → α → MediaPool} (each : ∀ p x, Steps p (f p x))
    (xs : List α) (p : MediaPool) : Steps p (xs.foldl f p) := by
  induction xs generalizing p with
  | nil => exact refl p
  | cons x rest ih => exact (each p x).trans (ih (f p x))

end Steps

theorem steps_emit {event : PoolEvent} (other : aboutStream event = false) :
    Steps p (p.emit event) := .one (.emit p other)

theorem steps_spawn {task : Spawned} (other : aboutConstraints task = false) :
    Steps p (p.spawn task) := .one (.rest [task] rfl rfl (by simpa using other))

theorem steps_applyConstraintsNow (memberId : String) (kind : MediaStreamKind) :
    Steps p (p.applyConstraintsNow memberId kind) := .one (.push p memberId kind)

theorem steps_dropUnmappedOn (key : String) : Steps p (p.dropUnmappedOn key) := .of_same rfl rfl

theorem steps_reapplyConnectionConstraints (key : String) :
    Steps p (p.reapplyConnectionConstraints key) := by
  unfold MediaPool.reapplyConnectionConstraints
  split
  · exact .refl _
  · next entry =>
      refine Steps.foldl (fun p stream => ?_) _ p
      split_ifs
      · exact steps_applyConstraintsNow _ _
      · exact .refl _

theorem steps_markDegraded (key : String) : Steps p (p.markDegraded key) := by
  unfold MediaPool.markDegraded
  split_ifs
  · exact .refl _
  · extract_lets wasClear q r
    have keyed : Steps p q := .of_same rfl rfl
    refine (keyed.trans (?_ : Steps q r)).trans (steps_emit rfl)
    unfold r
    split_ifs
    · exact steps_emit rfl
    · exact .refl _

theorem steps_clearDegraded (key : String) : Steps p (p.clearDegraded key) := by
  unfold MediaPool.clearDegraded
  split_ifs
  · extract_lets q r
    have unkeyed : Steps p q := .of_same rfl rfl
    refine (unkeyed.trans (?_ : Steps q r)).trans (steps_emit rfl)
    unfold r
    split_ifs
    · exact steps_emit rfl
    · exact .refl _
  · exact .refl _

theorem steps_closeEntry (entry : ManagedConnection) : Steps p (p.closeEntry entry) := by
  unfold MediaPool.closeEntry
  split
  · exact steps_spawn rfl
  · exact .refl _
  · exact .refl _

theorem steps_closeStray (result : Except TransportError ℕ) : Steps p (p.closeStray result) := by
  cases result with
  | ok connection => exact steps_spawn rfl
  | error error => exact .refl _

theorem steps_own (own : Option OwnRecovery) : Steps p { p with own := own } :=
  .of_same rfl rfl

theorem steps_startOwnLoss (now : ℕ) : Steps p (p.startOwnLoss now) := by
  unfold MediaPool.startOwnLoss
  split
  · next key own _ _ =>
      split_ifs with lost
      · exact .refl _
      · extract_lets epoch timed budgeted armed
        have begun : Steps p budgeted := (steps_own _).trans (steps_spawn rfl)
        refine (begun.trans (?_ : Steps budgeted armed)).trans (steps_markDegraded key)
        unfold armed
        split_ifs
        · exact steps_spawn rfl
        · exact .refl _
  · exact .refl _

theorem steps_endOwnLoss : Steps p p.endOwnLoss := by
  unfold MediaPool.endOwnLoss
  split
  · exact .refl _
  · extract_lets q
    have forgotten : Steps p q := .of_same rfl rfl
    split_ifs
    · exact forgotten.trans (steps_own _)
    · exact forgotten

theorem steps_remoteJoined (key identity : String) : Steps p (p.remoteJoined key identity) := by
  unfold MediaPool.remoteJoined
  split_ifs
  · exact .refl p
  · exact Steps.trans (q := { p with unmapped := p.unmapped.insert identity key })
      (.of_same rfl rfl) (steps_emit rfl)

theorem steps_remoteLeft (identity : String) : Steps p (p.remoteLeft identity) :=
  .of_same rfl rfl

theorem steps_trackNotEncrypted (identity : String) : Steps p (p.trackNotEncrypted identity) := by
  unfold MediaPool.trackNotEncrypted
  extract_lets q
  have noted : Steps p q := .of_same rfl rfl
  split
  · exact noted.trans (steps_emit rfl)
  · exact noted

theorem steps_encryptionStateChanged (identity : String) (state : FrameEncryptionState) :
    Steps p (p.encryptionStateChanged identity state) := by
  unfold MediaPool.encryptionStateChanged
  split
  · exact steps_emit rfl
  · exact .refl _

theorem steps_reconnecting (key : String) (now : ℕ) : Steps p (p.reconnecting key now) := by
  unfold MediaPool.reconnecting
  extract_lets q
  split_ifs
  · exact (steps_markDegraded key).trans (steps_startOwnLoss now)
  · exact steps_markDegraded key

theorem steps_keyImported (identity : String) (keyIndex : UInt8) :
    Steps p (p.keyImported identity keyIndex) := by
  unfold MediaPool.keyImported
  split
  · exact steps_emit rfl
  · extract_lets pending
    split_ifs
    · exact .refl _
    · exact .of_same rfl rfl

theorem steps_removeTrack (memberId : String) (kind : MediaStreamKind) (key : String) :
    Steps p (p.removeTrack memberId kind key) := .one (.removeTrack p memberId kind key)

theorem steps_retireTracks (key : String) : Steps p (p.retireTracks key) :=
  Steps.foldl (fun _ (stream : Stream) => steps_removeTrack stream.1 stream.2 key) _ p

theorem steps_dropPendingFrom (key : String) : Steps p (p.dropPendingFrom key) :=
  .one (.dropPending p key)

theorem steps_trackRemoved (key identity : String) (kind : MediaStreamKind) :
    Steps p (p.trackRemoved key identity kind) := by
  cases mapped : p.identityMap.lookup identity with
  | some memberId =>
      unfold MediaPool.trackRemoved
      rw [mapped]
      exact steps_removeTrack memberId kind key
  | none => exact .one (.unbuffer p identity key kind mapped)

theorem steps_setEntry (key : String) (entry : ManagedConnection) :
    Steps p (p.setEntry key entry) := .of_same rfl rfl

theorem steps_removeEntry (key : String) : Steps p (p.removeEntry key) :=
  .of_same rfl rfl

theorem steps_startConnect (key : String) (attempt : ℕ) :
    Steps p (p.startConnect key attempt) := by
  unfold MediaPool.startConnect
  split
  · exact .refl _
  · split_ifs
    · exact .refl _
    · exact (steps_setEntry key _).trans (steps_spawn rfl)

theorem steps_openPeer (key : String) (backend : MediaTransport) (members : List String) :
    Steps p (p.openPeer key backend members) := by
  unfold MediaPool.openPeer
  split_ifs
  · exact .refl _
  · exact (steps_setEntry key _).trans (steps_startConnect key 0)

theorem steps_reconcilePool : Steps p p.reconcilePool := by
  refine Steps.trans (q := p.regroup) (.one (.rest _ rfl rfl fun task there => ?_))
    (Steps.foldl (fun _ (e : Sigma fun _ : String => MediaTransport × List String) =>
      steps_openPeer e.1 e.2.1 e.2.2) _ _)
  obtain ⟨e, -, rfl⟩ := List.mem_map.mp there
  rfl

theorem steps_scheduleRetry (key : String) (attempt delay : ℕ) :
    Steps p (p.scheduleRetry key attempt delay) := (steps_spawn rfl)

theorem steps_retryConnect (key : String) (attempt : ℕ) :
    Steps p (p.retryConnect key attempt) := by
  unfold MediaPool.retryConnect
  split
  · exact .refl _
  · split_ifs
    · exact .refl _
    · exact (steps_removeEntry key).trans (steps_clearDegraded key)
    · exact steps_startConnect key attempt

theorem steps_closeIfIdle (key : String) (idleGeneration : ℕ) :
    Steps p (p.closeIfIdle key idleGeneration) := by
  unfold MediaPool.closeIfIdle
  split_ifs
  · extract_lets dropped closed
    have gone : Steps p dropped := (steps_dropUnmappedOn key).trans <|
      (steps_dropPendingFrom key).trans (steps_removeEntry key)
    refine (gone.trans (?_ : Steps dropped closed)).trans (steps_clearDegraded key)
    unfold closed
    split
    · exact steps_closeEntry _
    · exact .refl _
  · exact .refl _

theorem steps_installed (key : String) (entry : ManagedConnection) (connection : ℕ) :
    Steps p (p.installed key entry connection) :=
  .one (.rest [.forward key (p.connectionGeneration + 1)] rfl rfl (by simp [aboutConstraints]))

theorem steps_spawnOwnAttempt (attempt : ℕ) : Steps p (p.spawnOwnAttempt attempt) := by
  unfold MediaPool.spawnOwnAttempt
  split
  · extract_lets q r
    refine Steps.trans (q := r) ?_ (steps_spawn rfl)
    unfold r
    split <;> exact .of_same rfl rfl
  · exact .refl _

theorem steps_giveUpOwn (reason : OwnConnectionLoss) (message : String) :
    Steps p (p.giveUpOwn reason message) := by
  unfold MediaPool.giveUpOwn
  split
  · exact .refl _
  · next key _ =>
      extract_lets q dropped cleared
      have gone : Steps p dropped := Steps.trans (q := q) (.of_same rfl rfl) <|
        (steps_dropUnmappedOn key).trans <|
          (steps_dropPendingFrom key).trans (steps_removeEntry key)
      have lost : Steps dropped { dropped with own := none, ownLost := true } :=
        .of_same rfl rfl
      refine ((gone.trans lost).trans (steps_clearDegraded key)).trans ?_
      exact (steps_emit rfl).trans (steps_emit rfl)

theorem steps_giveUpOwnBudget : Steps p p.giveUpOwnBudget := by
  unfold MediaPool.giveUpOwnBudget
  split
  · exact .refl _
  · exact steps_giveUpOwn _ _

theorem steps_ownBackoff (attempt now : ℕ) : Steps p (p.ownBackoff attempt now) := by
  unfold MediaPool.ownBackoff
  split
  · exact .refl _
  · extract_lets q left delay
    refine Steps.trans (q := q) ?_ (steps_spawn rfl)
    unfold q
    split
    · exact steps_setEntry _ _
    · exact .refl _

theorem steps_movedTo (ownKey target : String) (own : OwnRecovery) (transport : RtcTransport) :
    Steps p (p.movedTo ownKey target own transport) := by
  unfold MediaPool.movedTo
  extract_lets up gone taken renamed told opened
  have toGone : Steps p gone := Steps.trans (q := up) (.of_same rfl rfl) <|
    (steps_removeEntry ownKey).trans <|
      (steps_dropUnmappedOn ownKey).trans (steps_dropPendingFrom ownKey)
  have toTaken : Steps gone taken := by
    unfold taken
    split
    · exact steps_setEntry target _
    · exact .refl _
  have toRenamed : Steps taken renamed :=
    Steps.trans (q := { taken with ownConnectionKey := some target }) (.of_same rfl rfl)
      steps_endOwnLoss
  have toTold : Steps renamed told :=
    (steps_emit rfl).trans (steps_emit rfl)
  have toOpened : Steps p opened :=
    (((toGone.trans toTaken).trans toRenamed).trans toTold).trans steps_reconcilePool
  split_ifs
  · exact toOpened.trans (steps_clearDegraded ownKey)
  · exact toOpened

theorem steps_fallBack (ownKey target : String) (takeOver : Except TransportError Unit) :
    Steps p (p.fallBack ownKey target takeOver) := by
  unfold MediaPool.fallBack
  split
  · split_ifs
    · split
      · exact .of_same rfl rfl
      · exact steps_movedTo ownKey target _ _
    · exact .refl _
  · exact .refl _

theorem steps_tryFallback (now : ℕ) (takeOver : Except TransportError Unit) :
    Steps p (p.tryFallback now takeOver) := by
  unfold MediaPool.tryFallback
  split
  · exact .refl _
  · split_ifs
    · exact steps_fallBack _ _ takeOver
    · exact .of_same rfl rfl

theorem steps_peerUp (key : String) (now : ℕ) (takeOver : Except TransportError Unit) :
    Steps p (p.peerUp key now takeOver) := by
  unfold MediaPool.peerUp
  split_ifs
  · exact .refl _
  · exact steps_tryFallback now takeOver

theorem steps_connectFinished (key : String) (attempt : ℕ) (result : Except TransportError ℕ)
    (now : ℕ) (takeOver : Except TransportError Unit) :
    Steps p (p.connectFinished key attempt result now takeOver) := by
  unfold MediaPool.connectFinished
  split
  · exact steps_closeStray result
  · next entry _ =>
      split_ifs
      · exact steps_closeStray result
      · exact ((steps_removeEntry key).trans (steps_clearDegraded key)).trans
          (steps_closeStray result)
      · cases result with
        | ok connection =>
            exact ((steps_installed key entry connection).trans
              (steps_clearDegraded key)).trans (steps_peerUp key now takeOver)
        | error error =>
            exact ((steps_markDegraded key).trans (steps_setEntry key _)).trans
              (steps_scheduleRetry key _ _)

theorem steps_connectionDown (key : String) (generation : ℕ) (message : String) (now : ℕ) :
    Steps p (p.connectionDown key generation message now) := by
  have toDropped : Steps p ((p.dropUnmappedOn key).dropPendingFrom key) :=
    (steps_dropUnmappedOn key).trans (steps_dropPendingFrom key)
  have toRetired := (toDropped.trans (steps_retireTracks key)).trans
    (steps_markDegraded key)
  unfold MediaPool.connectionDown
  split
  · exact .refl _
  · split_ifs
    · exact .refl _
    · exact toDropped.trans (steps_giveUpOwn _ _)
    · exact (toRetired.trans (steps_startOwnLoss now)).trans (steps_spawnOwnAttempt 0)
    · exact (toRetired.trans (steps_removeEntry key)).trans (steps_clearDegraded key)
    · exact (toRetired.trans (steps_setEntry key _)).trans (steps_scheduleRetry key _ _)

theorem steps_reconnected (key : String) (now : ℕ) (takeOver : Except TransportError Unit) :
    Steps p (p.reconnected key now takeOver) := by
  unfold MediaPool.reconnected
  extract_lets ended
  have toEnded : Steps p ended := by
    unfold ended
    split_ifs
    · exact steps_endOwnLoss
    · exact .refl _
  exact ((toEnded.trans (steps_clearDegraded key)).trans
    (steps_peerUp key now takeOver)).trans (steps_reapplyConnectionConstraints key)

/-- A connection's event that brings a track, or tells of a mute. -/
def bringsOrMutes : ConnectionEvent → Bool
  | .trackAdded _ _ _ | .trackMuted _ _ | .trackUnmuted _ _ => true
  | _ => false

theorem steps_handleConnectionEvent (key : String) {event : ConnectionEvent} (now : ℕ)
    (takeOver : Except TransportError Unit) (other : bringsOrMutes event = false) :
    Steps p (p.handleConnectionEvent key event now takeOver) := by
  cases event with
  | remoteJoined identity => exact steps_remoteJoined key identity
  | remoteLeft identity => exact steps_remoteLeft identity
  | trackAdded identity kind track => cases other
  | trackRemoved identity kind => exact steps_trackRemoved key identity kind
  | trackMuted identity kind => cases other
  | trackUnmuted identity kind => cases other
  | activeSpeakers speakers => exact steps_emit rfl
  | encryptionStateChanged identity state =>
      exact steps_encryptionStateChanged identity state
  | trackNotEncrypted identity kind => exact steps_trackNotEncrypted identity
  | reconnecting => exact steps_reconnecting key now
  | reconnected => exact steps_reconnected key now takeOver
  | closed message => exact steps_connectionDown key _ message now

theorem steps_ownConnectFinished (attempt : ℕ) (result : Except TransportError Unit) (now : ℕ) :
    Steps p (p.ownConnectFinished attempt result now) := by
  unfold MediaPool.ownConnectFinished
  split
  · next key own _ is_own =>
      split
      · split
        · split_ifs
          · exact steps_spawn rfl
          · exact .refl _
        · exact .refl _
      · next entry _ =>
          split
          · extract_lets q
            have up : Steps p q := (steps_own _)
            exact ((up.trans (steps_installed key entry _)).trans steps_endOwnLoss).trans <|
              (steps_clearDegraded key).trans
                (steps_reapplyConnectionConstraints key)
          · split
            · split
              · exact steps_giveUpOwn _ _
              · exact steps_giveUpOwn _ _
              all_goals exact steps_giveUpOwnBudget
            · split
              · split
                · exact steps_giveUpOwn _ _
                · exact (steps_own _).trans (steps_ownBackoff _ now)
              · exact steps_giveUpOwn _ _
              all_goals exact steps_ownBackoff _ now
  · exact .refl _

theorem steps_ownRetry (attempt now : ℕ) (takeOver : Except TransportError Unit) :
    Steps p (p.ownRetry attempt now takeOver) := by
  unfold MediaPool.ownRetry
  extract_lets tried
  have toTried : Steps p tried := steps_tryFallback now takeOver
  split_ifs
  · exact toTried.trans (steps_spawnOwnAttempt attempt)
  · exact toTried

theorem steps_ownBudget (epoch : ℕ) : Steps p (p.ownBudget epoch) := by
  unfold MediaPool.ownBudget
  split_ifs
  · extract_lets spent retried
    refine Steps.trans (q := retried) (.trans (q := spent) (.of_same rfl rfl) ?_)
      (steps_spawn rfl)
    unfold retried
    split
    · exact steps_spawnOwnAttempt _
    · exact .refl _
  · exact .refl _

theorem steps_setSignallingReachable (reachable : Bool) (now : ℕ)
    (takeOver : Except TransportError Unit) :
    Steps p (p.setSignallingReachable reachable now takeOver) := by
  unfold MediaPool.setSignallingReachable
  extract_lets q
  have set : Steps p q := .of_same rfl rfl
  split_ifs
  · exact set.trans (steps_tryFallback now takeOver)
  · exact set

/-- A call that does neither that, nor is about constraints or members. -/
def isPlain : Call → Bool
  | .applySnapshot _ | .setConstraints _ _ _ => false
  | .handle (.connection _ _ event) => !bringsOrMutes event
  | _ => true

theorem steps_handle {message : Message} (now : ℕ) (takeOver : Except TransportError Unit)
    (plain : isPlain (.handle message) = true) : Steps p (p.handle message now takeOver) := by
  unfold MediaPool.handle
  cases message with
  | connection key generation event =>
      dsimp only
      split_ifs
      · exact steps_handleConnectionEvent key now takeOver (by simpa [isPlain] using plain)
      · exact .refl _
  | connectionEnded key generation => exact steps_connectionDown key generation _ now
  | connectFinished key attempt result =>
      exact steps_connectFinished key attempt result now takeOver
  | retryConnect key attempt => exact steps_retryConnect key attempt
  | closeIfIdle key idleGeneration => exact steps_closeIfIdle key idleGeneration
  | applyConstraints memberId kind generation =>
      dsimp only
      split_ifs
      · exact steps_applyConstraintsNow memberId kind
      · exact .refl _
  | ownConnectFinished attempt result => exact steps_ownConnectFinished attempt result now
  | ownRetry attempt => exact steps_ownRetry attempt now takeOver
  | ownBudget epoch => exact steps_ownBudget epoch
  | ownFinalAttemptExpired epoch =>
      dsimp only
      split_ifs
      · exact steps_giveUpOwnBudget
      · exact .refl _
  | ownFallback epoch =>
      dsimp only
      split_ifs
      · exact steps_tryFallback now takeOver
      · exact .refl _

theorem steps_connectOwn (key : String) (connection now : ℕ) :
    Steps p (p.connectOwn key connection now) := by
  unfold MediaPool.connectOwn
  extract_lets q entered
  have toEntered : Steps p entered :=
    Steps.trans (q := q) (.of_same rfl rfl) (steps_setEntry key _)
  exact (toEntered.trans (steps_startOwnLoss now)).trans (steps_spawnOwnAttempt 0)

theorem steps_close : Steps p p.close :=
  Steps.trans
    (q := { p with
      closed := true
      own := p.own.map fun own => { own with epoch := own.epoch + 1, lostSince := none }
      pool := ∅ })
    (.of_same rfl rfl)
    (Steps.foldl (fun _ (e : Sigma fun _ : String => ManagedConnection) =>
      (steps_closeEntry e.2)) _ _)

theorem steps_perform {input : Input} (plain : isPlain input.call = true) :
    Steps p (p.perform input) := by
  obtain ⟨call, now, takeOver⟩ := input
  unfold MediaPool.perform
  cases call with
  | applySnapshot snapshot => cases plain
  | adoptOwnConnection key connection =>
      exact .one (.rest [.forward key (p.connectionGeneration + 1)] rfl rfl
        (by simp [aboutConstraints]))
  | connectOwn key connection => exact steps_connectOwn key connection now
  | keyImported identity keyIndex => exact steps_keyImported identity keyIndex
  | setConstraints memberId kind constraints => cases plain
  | setSignallingReachable reachable => exact steps_setSignallingReachable reachable now takeOver
  | handle message => exact steps_handle now takeOver plain
  | close => exact steps_close

/-- A task that tells a connection the constraints that the pool has for a stream. -/
def Pushes (p : MediaPool) (task : Spawned) : Prop :=
  ∃ connection identity memberId kind constraints generation,
    p.constraints.lookup (memberId, kind) = some (constraints, generation) ∧
      p.memberIdentities.lookup memberId = some identity ∧
      task = .constrain connection identity kind (constraints.resolve kind)

/-- What small steps keep: who is a member and the constraints stay, tracks and buffered tracks
only go, and the host is told of those. -/
structure Passes (p q : MediaPool) : Prop where
  attribution : attributionOf q = attributionOf p
  constraints : q.constraints = p.constraints
  tracks : ∀ s pooled, q.tracks.lookup s = some pooled → p.tracks.lookup s = some pooled
  pending : ∀ identity, (q.pendingTracks.lookup identity).getD [] ⊆
    (p.pendingTracks.lookup identity).getD []
  told : ∃ events, q.out = p.out ++ events ∧ ∀ event ∈ events, aboutStream event = true →
    ∃ s ∈ p.tracks, event = .streamRemoved s.1 s.2
  tasks : ∃ tasks, q.spawned = p.spawned ++ tasks ∧ ∀ task ∈ tasks,
    aboutConstraints task = true → Pushes p task

namespace Passes

theorem identities (h : Passes p q) : q.memberIdentities = p.memberIdentities :=
  congrArg Attribution.memberIdentities h.attribution

theorem mapping (h : Passes p q) : q.identityMap = p.identityMap :=
  congrArg Attribution.identityMap h.attribution

theorem refl (p : MediaPool) : Passes p p where
  attribution := rfl
  constraints := rfl
  tracks _ _ := id
  pending _ := List.Subset.refl _
  told := ⟨[], (List.append_nil _).symm, by simp⟩
  tasks := ⟨[], (List.append_nil _).symm, by simp⟩

theorem trans (first : Passes p q) (second : Passes q r) : Passes p r where
  attribution := second.attribution.trans first.attribution
  constraints := second.constraints.trans first.constraints
  tracks s pooled there := first.tracks s pooled (second.tracks s pooled there)
  pending identity _ there := first.pending identity (second.pending identity there)
  told := by
    obtain ⟨events, out, about⟩ := first.told
    obtain ⟨later, out', about'⟩ := second.told
    refine ⟨events ++ later, by rw [out', out, List.append_assoc], fun event there is => ?_⟩
    obtain there | there := List.mem_append.mp there
    · exact about event there is
    · obtain ⟨s, tracked, same⟩ := about' event there is
      obtain ⟨pooled, found⟩ := Option.isSome_iff_exists.mp (AList.lookup_isSome.mpr tracked)
      have before := first.tracks s pooled found
      exact ⟨s, AList.lookup_isSome.mp (Option.isSome_of_mem before), same⟩
  tasks := by
    obtain ⟨tasks, spawned, pushes⟩ := first.tasks
    obtain ⟨later, spawned', pushes'⟩ := second.tasks
    refine ⟨tasks ++ later, by rw [spawned', spawned, List.append_assoc], ?_⟩
    intro task there is
    obtain there | there := List.mem_append.mp there
    · exact pushes task there is
    · unfold Pushes at pushes'
      rw [first.constraints, first.identities] at pushes'
      exact pushes' task there is

theorem of_core (core : coreOf q = coreOf p) {tasks : List Spawned}
    (spawned : q.spawned = p.spawned ++ tasks)
    (other : ∀ task ∈ tasks, aboutConstraints task = false) : Passes p q where
  attribution := congrArg Core.attribution core
  constraints := congrArg Core.constraints core
  tracks s pooled there := by
    have same : q.tracks = p.tracks := congrArg Core.tracks core
    rwa [same] at there
  pending identity := by
    have same : q.pendingTracks = p.pendingTracks := congrArg Core.pendingTracks core
    rw [same]
    exact List.Subset.refl _
  told := ⟨[], (congrArg Core.out core).trans (List.append_nil _).symm, by simp⟩
  tasks := ⟨tasks, spawned, fun task there is => by rw [other task there] at is; cases is⟩

end Passes

theorem passes_push (memberId : String) (kind : MediaStreamKind) :
    Passes p (p.applyConstraintsNow memberId kind) := by
  unfold MediaPool.applyConstraintsNow
  split
  · next constraints generation identity key entry found mapped at_ =>
      split
      · next connection up =>
          refine
            { Passes.refl p with
              tasks := ⟨[.constrain connection identity kind (constraints.resolve kind)], rfl,
                fun task there _ => ?_⟩ }
          rw [List.mem_singleton] at there
          exact ⟨connection, identity, memberId, kind, constraints, generation, found, mapped,
            there⟩
      · exact .refl p
      · exact .refl p
  · exact .refl p

theorem passes_removeTrack (memberId : String) (kind : MediaStreamKind) (key : String) :
    Passes p (p.removeTrack memberId kind key) := by
  unfold MediaPool.removeTrack
  split_ifs with there
  · refine
      { Passes.refl p with
        tracks := fun s pooled found => (of_lookup_erase found).2
        told := ⟨[.streamRemoved memberId kind], rfl, fun event at_ _ => ?_⟩ }
    rw [List.mem_singleton] at at_
    obtain ⟨pooled, found, -⟩ := (Option.any_eq_true _ _).mp there
    exact ⟨(memberId, kind), AList.lookup_isSome.mp (Option.isSome_of_mem found), at_⟩
  · exact .refl p

theorem passes_dropPending (key : String) : Passes p (p.dropPendingFrom key) := by
  refine { Passes.refl p with pending := fun identity => ?_ }
  unfold MediaPool.dropPendingFrom
  dsimp only
  rw [lookup_retain, lookup_mapValues]
  cases p.pendingTracks.lookup identity with
  | none => exact List.nil_subset _
  | some pending =>
      rw [Option.map_some, Option.filter_some]
      split_ifs
      · exact List.filter_sublist.subset
      · exact List.nil_subset _

theorem passes_unbuffer (key : String) {identity : String} (kind : MediaStreamKind)
    (unmapped : p.identityMap.lookup identity = none) :
    Passes p (p.trackRemoved key identity kind) := by
  unfold MediaPool.trackRemoved
  rw [unmapped]
  dsimp only
  cases found : p.pendingTracks.lookup identity with
  | none => exact .refl p
  | some pending =>
      refine { Passes.refl p with pending := fun other => ?_ }
      dsimp only
      by_cases same : other = identity
      · subst same
        rw [AList.lookup_insert, found]
        exact List.filter_sublist.subset
      · rw [AList.lookup_insert_ne same]
        exact List.Subset.refl _

theorem passes_of_step (h : Step p q) : Passes p q := by
  cases h with
  | rest tasks core spawned other => exact .of_core core spawned other
  | @emit event other =>
      refine
        { Passes.refl p with
          told := ⟨[_], rfl, fun later there is => ?_⟩ }
      rw [List.mem_singleton] at there
      rw [there, other] at is
      cases is
  | push memberId kind => exact passes_push memberId kind
  | removeTrack memberId kind key => exact passes_removeTrack memberId kind key
  | dropPending key => exact passes_dropPending key
  | unbuffer identity key kind unmapped => exact passes_unbuffer key kind unmapped

theorem passes_of_steps (h : Steps p q) : Passes p q := by
  induction h with
  | refl => exact .refl p
  | tail _ step ih => exact ih.trans (passes_of_step step)

end

end MatrixRtc.PoolSteps

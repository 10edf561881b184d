import MatrixRtc.PoolTasks
import MatrixRtc.PoolMoves

/-!
# What is beside the connections of a media pool

Most operations of a pool are about streams and members: they leave the connections as they
are, our own focus, and what was started and reported about either.
-/
namespace MatrixRtc.PoolFrames
open MemberEvents MediaTransports Tables MediaPools

/-- A task about our own focus, or a connection without a number. -/
def ofOwnSide : Spawned → Bool
  | .ownAttempt _ _ _ | .ownRetry _ _ | .ownBudget _ _ | .ownFinalAttempt _ _ => true
  | .forward _ generation => generation == 0
  | _ => false

def isConnect : Spawned → Bool
  | .connect _ _ => true
  | _ => false

/-- A task that brings a connection up, or is about our own focus. -/
def isStart (task : Spawned) : Bool := ofOwnSide task || isConnect task

/-- Our own focus is given up or has moved. -/
def isNews : PoolEvent → Bool
  | .ownConnectionLost _ _ | .ownFocusMoved _ _ => true
  | _ => false

/-- What an event says of the impairment of the call. -/
def impairmentOf : PoolEvent → Option Bool
  | .degraded impaired => some impaired
  | _ => none

/-- The link of a connection was lost, is there again, or is gone for good. -/
def isLink : ConnectionEvent → Bool
  | .reconnecting | .reconnected | .closed _ => true
  | _ => false

/-- The connections there are and are asked for, and our own focus. -/
structure Frame where
  pool : Table String ManagedConnection
  transports : List MediaTransport
  ownMemberId : String
  membersSnapshot : List JoinedMembership
  ownConnectionKey : Option String
  own : Option OwnRecovery
  closed : Bool
  ownLost : Bool
  ownReconnectBudget : ℕ
  tasks : List Spawned
  news : List PoolEvent

def frameOf (p : MediaPool) : Frame :=
  { pool := p.pool
    transports := p.transports
    ownMemberId := p.ownMemberId
    membersSnapshot := p.membersSnapshot
    ownConnectionKey := p.ownConnectionKey
    own := p.own
    closed := p.closed
    ownLost := p.ownLost
    ownReconnectBudget := p.ownReconnectBudget
    tasks := p.spawned.filter isStart
    news := p.out.filter isNews }

/-- Nothing was done about the connections. -/
structure Beside (p q : MediaPool) : Prop where
  frame : frameOf q = frameOf p

/-- Nothing was done about the connections, and nothing about their impairment. -/
structure Calm (p q : MediaPool) : Prop where
  frame : frameOf q = frameOf p
  degraded : q.degradedKeys = p.degradedKeys
  said : q.out.filterMap impairmentOf = p.out.filterMap impairmentOf

section
variable {p q r : MediaPool}

namespace Beside

theorem refl (p : MediaPool) : Beside p p := ⟨rfl⟩

theorem trans (first : Beside p q) (second : Beside q r) : Beside p r :=
  ⟨second.frame.trans first.frame⟩

theorem pool (h : Beside p q) : q.pool = p.pool := congrArg Frame.pool h.frame

theorem ownKey (h : Beside p q) : q.ownConnectionKey = p.ownConnectionKey :=
  congrArg Frame.ownConnectionKey h.frame

end Beside

namespace Calm

theorem refl (p : MediaPool) : Calm p p := ⟨rfl, rfl, rfl⟩

theorem trans (first : Calm p q) (second : Calm q r) : Calm p r where
  frame := second.frame.trans first.frame
  degraded := second.degraded.trans first.degraded
  said := second.said.trans first.said

theorem foldl {α : Type} {f : MediaPool → α → MediaPool} (each : ∀ p x, Calm p (f p x))
    (xs : List α) (p : MediaPool) : Calm p (xs.foldl f p) := by
  induction xs generalizing p with
  | nil => exact .refl p
  | cons x rest ih => exact (each p x).trans (ih (f p x))

theorem beside (h : Calm p q) : Beside p q := ⟨h.frame⟩

end Calm

theorem ownTasks_frame (p : MediaPool) :
    (frameOf p).tasks.filter ofOwnSide = p.spawned.filter ofOwnSide := by
  rw [frameOf, List.filter_filter]
  refine List.filter_congr fun task _ => ?_
  cases own : ofOwnSide task <;> simp [isStart, own]

theorem calm_spawn {task : Spawned} (other : isStart task = false) : Calm p (p.spawn task) where
  frame := by simp [frameOf, MediaPool.spawn, List.filter_append, other]
  degraded := rfl
  said := rfl

theorem beside_emit {event : PoolEvent} (other : isNews event = false) :
    Beside p (p.emit event) := by
  refine ⟨?_⟩
  simp [frameOf, MediaPool.emit, List.filter_append, other]

theorem calm_emit {event : PoolEvent} (other : isNews event = false)
    (unimpaired : impairmentOf event = none) : Calm p (p.emit event) where
  frame := (beside_emit other).frame
  degraded := rfl
  said := by simp [MediaPool.emit, unimpaired]

theorem calm_applyConstraintsNow (memberId : String) (kind : MediaStreamKind) :
    Calm p (p.applyConstraintsNow memberId kind) := by
  unfold MediaPool.applyConstraintsNow
  split
  · split
    · exact calm_spawn rfl
    · exact .refl p
    · exact .refl p
  · exact .refl p

theorem calm_reapplyConnectionConstraints (key : String) :
    Calm p (p.reapplyConnectionConstraints key) := by
  unfold MediaPool.reapplyConnectionConstraints
  split
  · exact .refl p
  · refine Calm.foldl (fun p stream => ?_) _ p
    split_ifs
    · exact calm_applyConstraintsNow _ _
    · exact .refl p

theorem calm_dropped (key : String) : Calm p ((p.dropUnmappedOn key).dropPendingFrom key) :=
  ⟨rfl, rfl, rfl⟩

theorem beside_markDegraded (key : String) : Beside p (p.markDegraded key) := by
  unfold MediaPool.markDegraded
  split_ifs
  · exact .refl p
  · extract_lets wasClear q r
    have keyed : Beside p q := ⟨rfl⟩
    refine (keyed.trans (?_ : Beside q r)).trans (beside_emit rfl)
    unfold r
    split_ifs
    · exact beside_emit rfl
    · exact .refl q

theorem beside_clearDegraded (key : String) : Beside p (p.clearDegraded key) := by
  unfold MediaPool.clearDegraded
  split_ifs
  · extract_lets q r
    have unkeyed : Beside p q := ⟨rfl⟩
    refine (unkeyed.trans (?_ : Beside q r)).trans (beside_emit rfl)
    unfold r
    split_ifs
    · exact beside_emit rfl
    · exact .refl q
  · exact .refl p

theorem calm_closeEntry (entry : ManagedConnection) : Calm p (p.closeEntry entry) := by
  unfold MediaPool.closeEntry
  split
  · exact calm_spawn rfl
  · exact .refl p
  · exact .refl p

theorem calm_closeStray (result : Except TransportError ℕ) : Calm p (p.closeStray result) := by
  cases result with
  | ok connection => exact calm_spawn rfl
  | error error => exact .refl p

theorem calm_announceStream (memberId : String) (kind : MediaStreamKind) :
    Calm p (p.announceStream memberId kind) := by
  unfold MediaPool.announceStream
  extract_lets q
  have added : Calm p q := calm_emit rfl rfl
  split_ifs
  · exact added.trans (calm_applyConstraintsNow memberId kind)
  · exact added

theorem calm_addTrack (memberId : String) (kind : MediaStreamKind) (pooled : PooledTrack) :
    Calm p (p.addTrack memberId kind pooled) := by
  have placed : Calm p { p with tracks := p.tracks.insert (memberId, kind) pooled } :=
    ⟨rfl, rfl, rfl⟩
  unfold MediaPool.addTrack
  cases p.tracks.lookup (memberId, kind) with
  | some previous =>
      dsimp only
      split_ifs
      · exact placed
      · exact (placed.trans (calm_emit rfl rfl)).trans (calm_announceStream memberId kind)
  | none => exact placed.trans (calm_announceStream memberId kind)

theorem calm_removeTrack (memberId : String) (kind : MediaStreamKind) (key : String) :
    Calm p (p.removeTrack memberId kind key) := by
  unfold MediaPool.removeTrack
  split_ifs
  · exact Calm.trans (q := { p with tracks := p.tracks.erase (memberId, kind) })
      (⟨rfl, rfl, rfl⟩) (calm_emit rfl rfl)
  · exact .refl p

theorem calm_retireTracks (key : String) : Calm p (p.retireTracks key) :=
  Calm.foldl (fun _ (stream : String × MediaStreamKind) =>
    calm_removeTrack stream.1 stream.2 key) _ p

theorem calm_flushTracks (memberId identity : String) :
    Calm p (p.flushTracks memberId identity) := by
  unfold MediaPool.flushTracks
  extract_lets pending
  refine Calm.trans (q := { p with pendingTracks := p.pendingTracks.erase identity })
    (⟨rfl, rfl, rfl⟩) (Calm.foldl (fun p (buffered : MediaStreamKind × PooledTrack) => ?_) _ _)
  exact calm_addTrack _ _ _

theorem calm_flushKeys (memberId identity : String) :
    Calm p (p.flushKeys memberId identity) := by
  unfold MediaPool.flushKeys
  extract_lets pending
  exact Calm.trans (q := { p with pendingKeys := p.pendingKeys.erase identity })
    (⟨rfl, rfl, rfl⟩) (Calm.foldl (fun _ (_ : UInt8) => calm_emit rfl rfl) _ _)

theorem calm_mapMember (member : JoinedMembership) : Calm p (p.mapMember member) := by
  unfold MediaPool.mapMember
  split
  · exact .refl p
  · next identity _ =>
      extract_lets flushed told
      have toFlushed : Calm p flushed :=
        Calm.trans (q := p.mapIdentity member.memberId identity) (⟨rfl, rfl, rfl⟩)
          (calm_flushTracks _ _)
      have toTold : Calm flushed told := by
        unfold told
        split_ifs
        · exact calm_emit rfl rfl
        · exact .refl flushed
      exact (toFlushed.trans toTold).trans (calm_flushKeys _ _)

theorem calm_joinMember (member : JoinedMembership) : Calm p (p.joinMember member) := by
  unfold MediaPool.joinMember
  split_ifs
  · exact .refl p
  · exact Calm.trans (q := { p with knownMembers := member.memberId :: p.knownMembers })
      (⟨rfl, rfl, rfl⟩) (calm_mapMember member)

theorem calm_forgetDeparted (snapshot : List JoinedMembership) :
    Calm p (p.forgetDeparted snapshot) := by
  unfold MediaPool.forgetDeparted
  extract_lets current departed
  exact Calm.foldl (fun p memberId => (⟨rfl, rfl, rfl⟩ : Calm p (p.forgetMember memberId))) _ p

theorem calm_joined (snapshot : List JoinedMembership) :
    Calm p (snapshot.foldl MediaPool.joinMember (p.forgetDeparted snapshot)) :=
  (calm_forgetDeparted snapshot).trans (Calm.foldl (fun _ => calm_joinMember) snapshot _)

theorem calm_muted (identity : String) (kind : MediaStreamKind) (muted : Bool) :
    Calm p (p.muted identity kind muted) := by
  unfold MediaPool.muted
  split
  · exact calm_emit rfl rfl
  · exact .refl p

theorem calm_remoteJoined (key identity : String) : Calm p (p.remoteJoined key identity) := by
  unfold MediaPool.remoteJoined
  split_ifs
  · exact .refl p
  · exact Calm.trans (q := { p with unmapped := p.unmapped.insert identity key })
      (⟨rfl, rfl, rfl⟩) (calm_emit rfl rfl)

theorem calm_trackNotEncrypted (identity : String) : Calm p (p.trackNotEncrypted identity) := by
  unfold MediaPool.trackNotEncrypted
  extract_lets q
  have noted : Calm p q := ⟨rfl, rfl, rfl⟩
  split
  · exact noted.trans (calm_emit rfl rfl)
  · exact noted

theorem calm_trackAdded (key identity : String) (kind : MediaStreamKind) (track : ℕ) :
    Calm p (p.trackAdded key identity kind track) := by
  unfold MediaPool.trackAdded
  split
  · exact calm_addTrack _ kind _
  · exact ⟨rfl, rfl, rfl⟩

theorem calm_trackRemoved (key identity : String) (kind : MediaStreamKind) :
    Calm p (p.trackRemoved key identity kind) := by
  unfold MediaPool.trackRemoved
  split
  · exact calm_removeTrack _ kind key
  · split
    · exact .refl p
    · exact ⟨rfl, rfl, rfl⟩

theorem calm_encryptionStateChanged (identity : String) (state : FrameEncryptionState) :
    Calm p (p.encryptionStateChanged identity state) := by
  unfold MediaPool.encryptionStateChanged
  split
  · exact calm_emit rfl rfl
  · exact .refl p

theorem calm_handleConnectionEvent {event : ConnectionEvent} (other : isLink event = false)
    (key : String) (now : ℕ) (takeOver : Except TransportError Unit) :
    Calm p (p.handleConnectionEvent key event now takeOver) := by
  cases event with
  | remoteJoined identity => exact calm_remoteJoined key identity
  | remoteLeft identity => exact ⟨rfl, rfl, rfl⟩
  | trackAdded identity kind track => exact calm_trackAdded key identity kind track
  | trackRemoved identity kind => exact calm_trackRemoved key identity kind
  | trackMuted identity kind => exact calm_muted identity kind true
  | trackUnmuted identity kind => exact calm_muted identity kind false
  | activeSpeakers speakers => exact calm_emit rfl rfl
  | encryptionStateChanged identity state => exact calm_encryptionStateChanged identity state
  | trackNotEncrypted identity kind => exact calm_trackNotEncrypted identity
  | reconnecting | reconnected | closed message => cases other

theorem calm_keyImported (identity : String) (keyIndex : UInt8) :
    Calm p (p.keyImported identity keyIndex) := by
  unfold MediaPool.keyImported
  split
  · exact calm_emit rfl rfl
  · extract_lets pending
    split_ifs
    · exact .refl p
    · exact ⟨rfl, rfl, rfl⟩

theorem calm_setConstraints (memberId : String) (kind : MediaStreamKind)
    (constraints : MediaConstraints) : Calm p (p.setConstraints memberId kind constraints) := by
  unfold MediaPool.setConstraints
  extract_lets generation
  have set : Calm p { p with
      constraints := p.constraints.insert (memberId, kind) (constraints, generation) } :=
    ⟨rfl, rfl, rfl⟩
  exact set.trans (calm_spawn rfl)

end

end MatrixRtc.PoolFrames

import MatrixRtc.HostRosters

/-!
# The actor of a call engine

What the engine of a call keeps of the members and of our own publications, and what each
turn of its actor does: a snapshot, a message of the pool, a message of the host, a lapse or
its end, and the pause that each turn ends with. A turn says when it is, what handing a
session over would answer, and what the transport answers to each mute. The tasks that the
pool starts, the events and the mutes told to the transport are kept, newest last. Hands,
reactions, tiles and interruptions are left out.
-/
namespace MatrixRtc.CallEngines
open MemberEvents MediaTransports Tables MediaPools HostRosters

structure Participant where
  memberId : String
  userId : String
  deviceId : Option String
  isLocal : Bool
  streams : List StreamState
deriving DecidableEq

inductive FrameEncryptionDiagnostic where
  | notApplicable
  | keysInstalled (keyIndices : List UInt8)
  | noKeyInstalled
deriving DecidableEq

inductive CallEvent where
  | participantJoined (memberId userId : String) (participantCount : ℕ)
  | participantLeft (memberId : String) (participantCount : ℕ)
  | streamStarted (memberId : String) (kind : MediaStreamKind)
  | streamStopped (memberId : String) (kind : MediaStreamKind)
  | streamMuted (memberId : String) (kind : MediaStreamKind)
  | streamUnmuted (memberId : String) (kind : MediaStreamKind)
  | activeSpeakers (speakers : List ActiveSpeaker)
  | frameEncryptionState (memberId : String) (state : FrameEncryptionState)
      (diagnostic : FrameEncryptionDiagnostic)
  | keyImported (memberId identity : String) (keyIndex : UInt8)
  | unknownParticipant (identity : String)
deriving DecidableEq

/-- One of our own live publications: the user's mute, and what the transport was last told. -/
structure LocalPublication where
  track : ℕ
  muted : Bool
  appliedMuted : Bool
deriving DecidableEq

structure SpeakerState where
  raw : Bool
  generation : ℕ
deriving DecidableEq

/-- A mute of one of our tracks that the transport was told, and whether it took it. -/
structure MuteCall where
  track : ℕ
  muted : Bool
  taken : Bool
deriving DecidableEq

structure Actor where
  pool : MediaPool
  ownMemberId : String
  coreLapsed : Bool
  observedLapse : Bool
  arrived : Bool
  ended : Bool
  roster : List Participant
  /-- The roster that was last published. -/
  participants : List Participant
  speaking : List String
  speakers : Table String SpeakerState
  encryptionStates : Table String FrameEncryptionState
  undecryptableSince : Table String ℕ
  hostConstraints : Table (String × MediaStreamKind) MediaConstraints
  sentInClear : List String
  localTracks : Table MediaStreamKind LocalPublication
  installedKeys : Table String (List UInt8)
  events : List CallEvent
  tasks : List Spawned
  muteCalls : List MuteCall

/-- When a turn is, and what it is answered. -/
structure Answers where
  now : ℕ
  takeOver : Except TransportError Unit
  /-- Whether the transport takes the mute that the message asks for. -/
  mute : Bool
  /-- Whether it takes those of the pause. -/
  pause : MediaStreamKind → Bool

/-- `FrameEncryptionState::is_failure`. -/
def isFailure (state : FrameEncryptionState) : Bool := state ≠ .ok

/-- `probe_undecryptable`. -/
def probeUndecryptable (kind : MediaStreamKind) (constraints : MediaConstraints)
    (undecryptable : Bool) : MediaConstraints :=
  if !undecryptable || !kind.isVideo || !constraints.enabled || constraints.visible then constraints
  else { constraints with visible := true, detail := .quality .low }

namespace Actor

variable (a : Actor)

def new (config : PoolConfig) : Actor :=
  { pool := .new config
    ownMemberId := config.ownMemberId
    coreLapsed := false, observedLapse := false, arrived := false, ended := false
    roster := [], participants := []
    speaking := [], speakers := ∅
    encryptionStates := ∅, undecryptableSince := ∅, hostConstraints := ∅, sentInClear := []
    localTracks := ∅, installedKeys := ∅
    events := [], tasks := [], muteCalls := [] }

def emit (event : CallEvent) : Actor := { a with events := a.events ++ [event] }

def publishRoster : Actor := { a with participants := a.roster }

/-- A call of the pool, whose tasks are started; its events are still to be applied. -/
def callPool (call : Call) (t : Answers) : Actor × List PoolEvent :=
  let (pool, events, tasks) := (a.pool.perform ⟨call, t.now, t.takeOver⟩).take
  ({ a with pool := pool, tasks := a.tasks ++ tasks }, events)

/-- Whether our membership has lapsed, predicted or observed. -/
def lapsed : Bool := (a.coreLapsed || a.observedLapse) && !a.ended

/-- `end`. -/
def end_ (t : Answers) : Actor :=
  if a.ended then a else ({ a with ended := true }.callPool .close t).1

def participant (memberId : String) : Option Participant :=
  a.roster.find? (·.memberId == memberId)

/-- The streams of the participant of an id are changed; a roster has one. -/
def setStreams (memberId : String) (streams : List StreamState) : Actor :=
  { a with roster := a.roster.map fun p =>
      if p.memberId = memberId then { p with streams := streams } else p }

def hasStream (streams : List StreamState) (kind : MediaStreamKind) : Bool :=
  streams.any (·.kind == kind)

/-- `add_stream`. -/
def addStream (memberId : String) (kind : MediaStreamKind) : Actor :=
  match a.participant memberId with
  | none => a
  | some p =>
      if hasStream p.streams kind then a
      else ((a.setStreams memberId (p.streams ++ [⟨kind, false⟩])).emit
        (.streamStarted memberId kind)).publishRoster

/-- `remove_stream`. -/
def removeStream (memberId : String) (kind : MediaStreamKind) : Actor :=
  match a.participant memberId with
  | none => a
  | some p =>
      if hasStream p.streams kind then
        ((a.setStreams memberId (p.streams.filter (·.kind != kind))).emit
          (.streamStopped memberId kind)).publishRoster
      else a

/-- The event of a mute. -/
def muteEvent (memberId : String) (kind : MediaStreamKind) : Bool → CallEvent
  | true => .streamMuted memberId kind
  | false => .streamUnmuted memberId kind

/-- `set_member_muted`; a participant has one stream of a kind. -/
def setMemberMuted (memberId : String) (kind : MediaStreamKind) (muted : Bool) : Actor :=
  match a.participant memberId with
  | none => a
  | some p =>
      match p.streams.find? (·.kind == kind) with
      | none => a
      | some stream =>
          if stream.muted = muted then a
          else ((a.setStreams memberId (p.streams.map fun stream =>
            if stream.kind = kind then ⟨kind, muted⟩ else stream)).emit
              (muteEvent memberId kind muted)).publishRoster

/-- `add_local_stream`, with the mute that the publication went up with. -/
def addLocalStream (memberId : String) (kind : MediaStreamKind) : Actor :=
  let muted := (a.localTracks.lookup kind).any (·.muted)
  match a.participant memberId with
  | none => a
  | some p =>
      if hasStream p.streams kind then a
      else
        let b := (a.setStreams memberId (p.streams ++ [⟨kind, muted⟩])).emit
          (.streamStarted memberId kind)
        (if muted then b.emit (.streamMuted memberId kind) else b).publishRoster

/-- `own_published_streams`, by their kinds. -/
def ownPublishedStreams (memberId : String) : List StreamState :=
  if memberId = a.ownMemberId then
    (a.localTracks.entries.map fun e => (⟨e.1, e.2.muted⟩ : StreamState)).insertionSort
      fun x y => x.kind.rank ≤ y.kind.rank
  else []

/-- The events of the streams that a participant starts out with. -/
def startEvents (memberId : String) (streams : List StreamState) : List CallEvent :=
  streams.flatMap fun stream =>
    .streamStarted memberId stream.kind ::
      if stream.muted then [.streamMuted memberId stream.kind] else []

/-- The participant that a membership makes. -/
def participantOf (member : JoinedMembership) : Participant :=
  { memberId := member.memberId
    userId := member.sender
    deviceId := member.origin.senderDeviceId
    isLocal := member.memberId == a.ownMemberId
    streams := a.ownPublishedStreams member.memberId }

/-- `add_member`. -/
def addMember (member : JoinedMembership) (announce : Option ℕ) : Actor :=
  { a with
    roster := a.roster ++ [a.participantOf member]
    events := a.events ++
      (announce.map fun count => .participantJoined member.memberId member.sender count).toList ++
      startEvents member.memberId (a.ownPublishedStreams member.memberId) }

/-- `remove_member`. -/
def removeMember (memberId : String) (announce : Option ℕ) : Actor :=
  { a with
    roster := a.roster.filter (·.memberId != memberId)
    installedKeys := a.installedKeys.erase memberId
    encryptionStates := a.encryptionStates.erase memberId
    undecryptableSince := a.undecryptableSince.erase memberId
    hostConstraints := retain a.hostConstraints fun stream _ => stream.1 != memberId
    sentInClear := a.sentInClear.filter (· != memberId)
    speaking := a.speaking.filter (· != memberId)
    speakers := a.speakers.erase memberId
    events := a.events ++ (announce.map fun count => .participantLeft memberId count).toList }

def isUndecryptable (memberId : String) : Bool :=
  (a.encryptionStates.lookup memberId).any isFailure

/-- The constraints that the host has set for a member's streams. -/
def constraintsOf (memberId : String) : List (MediaStreamKind × MediaConstraints) :=
  (a.hostConstraints.entries.filter fun e => e.1.1 == memberId).map fun e => (e.1.2, e.2)

/-- The pool is given what a stream is asked for now. -/
def pushConstraints (memberId : String) (undecryptable : Bool) (t : Answers)
    (stream : MediaStreamKind × MediaConstraints) : Actor :=
  (a.callPool (.setConstraints memberId stream.1
    (probeUndecryptable stream.1 stream.2 undecryptable)) t).1

/-- `encryption_diagnostic`. -/
def encryptionDiagnostic (memberId : String) (state : FrameEncryptionState) :
    FrameEncryptionDiagnostic :=
  if isFailure state then
    match a.installedKeys.lookup memberId with
    | some (index :: rest) => .keysInstalled (index :: rest)
    | _ => .noKeyInstalled
  else .notApplicable

/-- Since when the frames of each member have failed, after a report of one member's. -/
def failingSince (memberId : String) (state : FrameEncryptionState) (now : ℕ)
    (since : Table String ℕ) : Table String ℕ :=
  if !isFailure state then since.erase memberId
  else if memberId ∈ since then since
  else since.insert memberId now

/-- `encryption_state_changed`. -/
def encryptionStateChanged (memberId : String) (state : FrameEncryptionState) (t : Answers) :
    Actor :=
  let crossed := a.isUndecryptable memberId != isFailure state
  let b := { a with encryptionStates := a.encryptionStates.insert memberId state }
  let b := if crossed then (b.constraintsOf memberId).foldl
      (fun b stream => b.pushConstraints memberId (isFailure state) t stream) b
    else b
  emit { b with undecryptableSince := failingSince memberId state t.now b.undecryptableSince }
    (.frameEncryptionState memberId state (a.encryptionDiagnostic memberId state))

/-- `record_installed_key`. -/
def recordInstalledKey (memberId : String) (keyIndex : UInt8) : Actor :=
  let was := (a.installedKeys.lookup memberId).getD []
  let installed := if was.contains keyIndex then was else was ++ [keyIndex]
  { a with installedKeys := a.installedKeys.insert memberId installed }

/-- What is heard of one member's speaking. -/
def hearSpeaker (raw : List String) (speakers : Table String SpeakerState) (memberId : String) :
    Table String SpeakerState :=
  let was := (speakers.lookup memberId).getD ⟨false, 0⟩
  let now := raw.contains memberId
  if was.raw = now then speakers else speakers.insert memberId ⟨now, was.generation + 1⟩

/-- `apply_raw_speakers`, without the timers it arms. -/
def applyRawSpeakers (raw : List String) : Actor :=
  { a with speakers := (a.speakers.keys ++ raw).foldl (hearSpeaker raw) a.speakers }

/-- One event of `apply_pool_events`. -/
def applyPoolEvent (t : Answers) (event : PoolEvent) : Actor :=
  match event with
  | .streamAdded memberId kind => a.addStream memberId kind
  | .streamRemoved memberId kind => a.removeStream memberId kind
  | .streamMuted memberId kind muted => a.setMemberMuted memberId kind muted
  | .activeSpeakers speakers =>
      (a.applyRawSpeakers (speakers.map (·.memberId))).emit (.activeSpeakers speakers)
  | .encryptionStateChanged memberId state => a.encryptionStateChanged memberId state t
  | .sentInClear memberId => { a with sentInClear := a.sentInClear.insert memberId }
  | .keyImported memberId identity keyIndex =>
      (a.recordInstalledKey memberId keyIndex).emit (.keyImported memberId identity keyIndex)
  | .unknownParticipant identity => a.emit (.unknownParticipant identity)
  | .ownConnectionLost _ _ => a.end_ t
  | .connectionState _ _ | .degraded _ | .ownFocusMoved _ _ => a

/-- `apply_pool_events`. -/
def applyPoolEvents (t : Answers) (events : List PoolEvent) : Actor :=
  events.foldl (fun a event => a.applyPoolEvent t event) a

/-- A call of the pool, and what it reports. -/
def throughPool (call : Call) (t : Answers) : Actor :=
  let (b, events) := a.callPool call t
  b.applyPoolEvents t events

/-- The count that the event of a member carries, where it is news. -/
def announceFor (announce : Bool) (count : ℕ) (memberId : String) : Option ℕ :=
  if announce && memberId != a.ownMemberId then some count else none

/-- Whoever is not in the snapshot leaves the roster. -/
def removeDeparted (snapshot : List JoinedMembership) (announceFor : String → Option ℕ) : Actor :=
  let departed := a.roster.filter fun p => !(snapshot.map (·.memberId)).contains p.memberId
  departed.foldl (fun b p => b.removeMember p.memberId (announceFor p.memberId)) a

/-- The members of the snapshot that are not on the roster come onto it. -/
def addArrived (snapshot : List JoinedMembership) (announceFor : String → Option ℕ) : Actor :=
  snapshot.foldl
    (fun b member =>
      if b.roster.any (·.memberId == member.memberId) then b
      else b.addMember member (announceFor member.memberId))
    a

/-- The roster becomes the snapshot's members: departures come first. -/
def reconcileRoster (snapshot : List JoinedMembership) : Actor :=
  let withUs := snapshot.any (·.memberId == a.ownMemberId)
  let arrived := a.arrived || withUs
  let count := (snapshot.map (·.memberId)).dedup.length
  let announceFor := a.announceFor (a.arrived && !a.ended) count
  let b := { a with arrived := arrived, observedLapse := arrived && !withUs }
  (b.removeDeparted snapshot announceFor).addArrived snapshot announceFor

/-- `apply_snapshot`: the pool has it after the roster. -/
def applySnapshot (snapshot : List JoinedMembership) (t : Answers) : Actor :=
  ((a.reconcileRoster snapshot).throughPool (.applySnapshot snapshot) t).publishRoster

/-- A publication with the transport told what holds now, where it was told something else. -/
def paused (t : Answers) (kind : MediaStreamKind) (publication : LocalPublication) :
    LocalPublication :=
  let effective := publication.muted || a.lapsed
  if publication.appliedMuted = effective then publication
  else if t.pause kind then { publication with appliedMuted := effective }
  else publication

/-- What the transport is told of a publication. -/
def pauseCall (t : Answers) (kind : MediaStreamKind) (publication : LocalPublication) :
    Option MuteCall :=
  let effective := publication.muted || a.lapsed
  if publication.appliedMuted = effective then none
  else some ⟨publication.track, effective, t.pause kind⟩

/-- `apply_pause`. -/
def applyPause (t : Answers) : Actor :=
  { a with
    localTracks := mapValues a.localTracks (a.paused t)
    muteCalls := a.muteCalls ++
      a.localTracks.entries.filterMap fun e => a.pauseCall t e.1 e.2 }

/-- `LocalPublished`: the transport has the track with this mute. -/
def localPublished (kind : MediaStreamKind) (muted : Bool) (track : ℕ) : Actor :=
  addLocalStream { a with localTracks := a.localTracks.insert kind ⟨track, muted, muted⟩ }
    a.ownMemberId kind

/-- `SetLocalMuted`. -/
def setLocalMuted (kind : MediaStreamKind) (muted : Bool) (t : Answers) : Actor :=
  match a.localTracks.lookup kind with
  | none => a
  | some publication =>
      let told := muted || a.lapsed
      let calls := a.muteCalls ++ [⟨publication.track, told, t.mute⟩]
      let tracks := a.localTracks.insert kind ⟨publication.track, muted, told⟩
      if t.mute then
        setMemberMuted { a with muteCalls := calls, localTracks := tracks } a.ownMemberId kind
          muted
      else { a with muteCalls := calls }

/-- `LocalUnpublished`: not of a publication that has taken the place of the track. -/
def localUnpublished (kind : MediaStreamKind) (track : ℕ) : Actor :=
  if (a.localTracks.lookup kind).any (·.track == track) then
    removeStream { a with localTracks := a.localTracks.erase kind } a.ownMemberId kind
  else a

/-- `SetConstraints`. -/
def setConstraints (memberId : String) (kind : MediaStreamKind) (constraints : MediaConstraints)
    (t : Answers) : Actor :=
  let b := { a with hostConstraints := a.hostConstraints.insert (memberId, kind) constraints }
  b.pushConstraints memberId (b.isUndecryptable memberId) t (kind, constraints)

/-- `SpeakerTimer`: only the newest timer of a member applies. -/
def speakerTimer (memberId : String) (generation : ℕ) : Actor :=
  match a.speakers.lookup memberId with
  | none => a
  | some state =>
      if state.generation = generation then
        { a with speaking :=
            if state.raw then a.speaking.insert memberId else a.speaking.filter (· != memberId) }
      else a

end Actor

/-- A message of the actor's mailbox; requests that only start a task are left out, their
outcomes are not. -/
inductive ActorMessage where
  | adoptConnection (connectionKey : String) (connection : ℕ)
  | connectOwn (connectionKey : String) (connection : ℕ)
  | keyImported (identity : String) (keyIndex : UInt8)
  | localPublished (kind : MediaStreamKind) (muted : Bool) (track : ℕ)
  | localUnpublished (kind : MediaStreamKind) (track : ℕ)
  | setLocalMuted (kind : MediaStreamKind) (muted : Bool)
  | setConstraints (memberId : String) (kind : MediaStreamKind) (constraints : MediaConstraints)
  | speakerTimer (memberId : String) (generation : ℕ)
  | shutdown

/-- What a turn is about. -/
inductive Turn where
  | signalling (reachable : Bool)
  | lapsed (coreLapsed : Bool)
  | memberships (snapshot : List JoinedMembership)
  | ended
  | pool (message : Message)
  | message (message : ActorMessage)

namespace Actor

variable (a : Actor)

/-- `handle_message`, and the message that ends the actor. -/
def handleMessage (message : ActorMessage) (t : Answers) : Actor :=
  match message with
  | .adoptConnection key connection => (a.callPool (.adoptOwnConnection key connection) t).1
  | .connectOwn key connection => a.throughPool (.connectOwn key connection) t
  | .keyImported identity keyIndex => a.throughPool (.keyImported identity keyIndex) t
  | .localPublished kind muted track => a.localPublished kind muted track
  | .localUnpublished kind track => a.localUnpublished kind track
  | .setLocalMuted kind muted => a.setLocalMuted kind muted t
  | .setConstraints memberId kind constraints => a.setConstraints memberId kind constraints t
  | .speakerTimer memberId generation => a.speakerTimer memberId generation
  | .shutdown => a.end_ t

def receive (turn : Turn) (t : Answers) : Actor :=
  match turn with
  | .signalling reachable => a.throughPool (.setSignallingReachable reachable) t
  | .lapsed coreLapsed => { a with coreLapsed := coreLapsed }
  | .memberships snapshot => a.applySnapshot snapshot t
  | .ended => a.end_ t
  | .pool message => a.throughPool (.handle message) t
  | .message message => a.handleMessage message t

/-- A turn of the actor, which ends with the pause. -/
def turn (turn : Turn) (t : Answers) : Actor := (a.receive turn t).applyPause t

end Actor

end MatrixRtc.CallEngines

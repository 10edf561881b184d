import MatrixRtc.CallTiles
import MatrixRtc.RaisedHands
import MatrixRtc.SpeakerTimers

/-!
# The actor of a call engine and its tiles

All that moves a tile: the roster with hands, connections and what cannot be decrypted, who
speaks and ranks as speaking, the window and the threshold; and the order that consumers hold,
which a change of the rank waits to replace until the coalesce window closes. What the media
pool reports in a turn, and how it finds each member's connection, is what the turn says.
Events and commands to the pool are left out.
-/
namespace MatrixRtc.TileActors
open MemberEvents MediaTransports Tables MediaPools HostRosters RaisedHands CallTiles
open CallEngines (Actor LocalPublication)
open SpeakerTimers

/-- The message that closes a coalesce window, and when it is due. -/
structure FlushTimer where
  generation : ℕ
  dueAt : ℕ
deriving DecidableEq, Repr

/-- What of the actor is about the published order, and the last value of each watch. -/
structure TileOrder where
  lastOrder : List TileId
  pendingReorder : Option ℕ
  reorderGeneration : ℕ
  flushes : List FlushTimer
  tiles : TileRoster
  localState : Option LocalState
  /-- When the coalesce window was last opened. -/
  openedAt : ℕ
deriving DecidableEq

namespace TileOrder

variable (o : TileOrder)

def empty : TileOrder :=
  { lastOrder := [], pendingReorder := none, reorderGeneration := 0, flushes := []
    tiles := ⟨[], []⟩, localState := none, openedAt := 0 }

/-- The window is opened, with the message that closes it, where none is open. -/
def openWindow (coalesce now : ℕ) : TileOrder :=
  match o.pendingReorder with
  | some _ => o
  | none =>
      let generation := o.reorderGeneration + 1
      { o with
        reorderGeneration := generation
        pendingReorder := some generation
        flushes := o.flushes ++ [⟨generation, now + coalesce⟩]
        openedAt := now }

/-- The record of an id; of two of one id, the later. -/
def recordOf (remote : List CallTile) (id : TileId) : Option CallTile :=
  remote.reverse.find? (·.id == id)

/-- What is given out of the tiles in an order. -/
def send (width : PointerWidth) (ranked : List CallTile) (w : DetailWindow) : TileOrder :=
  { o with tiles := window width ranked w }

/-- Fresh records in the order that consumers hold, less whoever left. -/
def sendHeld (width : PointerWidth) (remote : List CallTile) (w : DetailWindow) : TileOrder :=
  let kept := o.lastOrder.filter fun id => (recordOf remote id).isSome
  { o with lastOrder := kept }.send width (kept.filterMap (recordOf remote)) w

/-- `publish_tiles`, for the tiles that are derived now. -/
def publish (width : PointerWidth) (coalesce now : ℕ) (w : DetailWindow) (tiles : Tiles)
    (localState : Option LocalState) : TileOrder :=
  let o : TileOrder := { o with localState := localState }
  let order : List TileId := tiles.remote.map (·.id)
  if order = o.lastOrder then o.send width tiles.remote w
  else if o.lastOrder = [] then { o with lastOrder := order }.send width tiles.remote w
  else (o.openWindow coalesce now).sendHeld width tiles.remote w

/-- `publish_tiles_reordered`, for the tiles that are derived now. -/
def publishReordered (width : PointerWidth) (w : DetailWindow) (tiles : Tiles)
    (localState : Option LocalState) : TileOrder :=
  let order : List TileId := tiles.remote.map (·.id)
  { o with lastOrder := order, localState := localState }.send width tiles.remote w

end TileOrder

structure TileActor where
  width : PointerWidth
  stability : StabilityConfig
  ownMemberId : String
  roster : List Participant
  participants : List Participant
  window : DetailWindow
  rankingThreshold : UInt32
  speech : Speech
  speakerTimers : List SpeakerTimer
  order : TileOrder
  encryptionStates : Table String FrameEncryptionState
  undecryptableSince : Table String ℕ
  sentInClear : List String
  localTracks : Table MediaStreamKind LocalPublication
  raisedHands : List RaisedHand

/-- When a turn is, and what the pool says of the members' connections. -/
structure PoolView where
  now : ℕ
  ownMedia : ConnectionState
  /-- `is_reachable`, asked of a member that comes. -/
  reachable : JoinedMembership → Bool
  /-- `member_connection`. -/
  memberConnection : String → Option ConnectionState

namespace TileActor

variable (a : TileActor)

def new (width : PointerWidth) (stability : StabilityConfig) (ownMemberId : String) : TileActor :=
  { width := width, stability := stability, ownMemberId := ownMemberId
    roster := [], participants := []
    window := .default, rankingThreshold := 0
    speech := ⟨[], ∅⟩, speakerTimers := []
    order := .empty
    encryptionStates := ∅, undecryptableSince := ∅, sentInClear := []
    localTracks := ∅, raisedHands := [] }

/-- The tiles that the state gives. -/
def derived : Tiles :=
  deriveTiles a.roster a.speech.rawSpeaking a.speech.speaking a.rankingThreshold

/-- Our own share is up and not muted. -/
def isScreenSharing : Bool :=
  ((a.roster.find? (·.isLocal)).bind fun p => stream p .screenShare).any fun s => !s.muted

/-- What `publish_local` sends. -/
def localState : Option LocalState :=
  a.derived.own.map fun tile => ⟨tile, a.isScreenSharing⟩

def publishTiles (now : ℕ) : TileActor :=
  { a with order :=
      a.order.publish a.width a.stability.coalesce now a.window a.derived a.localState }

def publishTilesReordered : TileActor :=
  { a with order := a.order.publishReordered a.width a.window a.derived a.localState }

def publishRoster (now : ℕ) : TileActor :=
  { a with participants := a.roster }.publishTiles now

def participant (memberId : String) : Option Participant :=
  a.roster.find? (·.memberId == memberId)

/-- The streams of the participant of an id are changed; a roster has one. -/
def setStreams (memberId : String) (streams : List StreamState) : TileActor :=
  { a with roster := a.roster.map fun p =>
      if p.memberId = memberId then { p with streams := streams } else p }

def hasStream (streams : List StreamState) (kind : MediaStreamKind) : Bool :=
  streams.any (·.kind == kind)

/-- What `add_stream` and `add_local_stream` share. -/
def startStream (memberId : String) (kind : MediaStreamKind) (muted : Bool) (now : ℕ) :
    TileActor :=
  match a.participant memberId with
  | none => a
  | some p =>
      if hasStream p.streams kind then a
      else (a.setStreams memberId (p.streams ++ [⟨kind, muted⟩])).publishRoster now

/-- `add_stream`. -/
def addStream (memberId : String) (kind : MediaStreamKind) (now : ℕ) : TileActor :=
  a.startStream memberId kind false now

/-- `add_local_stream`, with the mute that the publication went up with. -/
def addLocalStream (memberId : String) (kind : MediaStreamKind) (now : ℕ) : TileActor :=
  a.startStream memberId kind ((a.localTracks.lookup kind).any (·.muted)) now

/-- `remove_stream`. -/
def removeStream (memberId : String) (kind : MediaStreamKind) (now : ℕ) : TileActor :=
  match a.participant memberId with
  | none => a
  | some p =>
      if hasStream p.streams kind then
        (a.setStreams memberId (p.streams.filter (·.kind != kind))).publishRoster now
      else a

/-- `set_member_muted`; a participant has one stream of a kind. -/
def setMemberMuted (memberId : String) (kind : MediaStreamKind) (muted : Bool) (now : ℕ) :
    TileActor :=
  match a.participant memberId with
  | none => a
  | some p =>
      match p.streams.find? (·.kind == kind) with
      | none => a
      | some stream =>
          if stream.muted = muted then a
          else (a.setStreams memberId (p.streams.map fun stream =>
            if stream.kind = kind then ⟨kind, muted⟩ else stream)).publishRoster now

/-- `encryption_state_changed`. -/
def encryptionStateChanged (memberId : String) (state : FrameEncryptionState) (now : ℕ) :
    TileActor :=
  { a with
    encryptionStates := a.encryptionStates.insert memberId state
    undecryptableSince := Actor.failingSince memberId state now a.undecryptableSince }

/-- `apply_raw_speakers`. -/
def applyRawSpeakers (raw : List String) (now : ℕ) : TileActor :=
  let heard := a.speech.applyRawSpeakers a.stability raw now
  let b := { a with speech := heard.1, speakerTimers := a.speakerTimers ++ heard.2 }
  if a.speech.rawChanged raw then b.publishTiles now else b

/-- One event of `apply_pool_events`. -/
def applyPoolEvent (now : ℕ) (event : PoolEvent) : TileActor :=
  match event with
  | .streamAdded memberId kind => a.addStream memberId kind now
  | .streamRemoved memberId kind => a.removeStream memberId kind now
  | .streamMuted memberId kind muted => a.setMemberMuted memberId kind muted now
  | .activeSpeakers speakers => a.applyRawSpeakers (speakers.map (·.memberId)) now
  | .encryptionStateChanged memberId state => a.encryptionStateChanged memberId state now
  | .sentInClear memberId => { a with sentInClear := a.sentInClear.insert memberId }
  | .keyImported _ _ _ | .unknownParticipant _ | .ownConnectionLost _ _ | .connectionState _ _
  | .degraded _ | .ownFocusMoved _ _ => a

/-- `apply_pool_events`. -/
def applyPoolEvents (now : ℕ) (events : List PoolEvent) : TileActor :=
  events.foldl (fun a event => a.applyPoolEvent now event) a

def handRaisedAt (memberId : String) : Option ℕ :=
  (a.raisedHands.find? (·.memberId == memberId)).map (·.raisedAtMs)

/-- The place in the queue, from 1, among the hands of members on the roster; of two hands of
one member, the later. -/
def handPosition (memberId : String) : Option ℕ :=
  let queue := (a.raisedHands.map (·.memberId)).filter fun id =>
    a.roster.any (·.memberId == id)
  ((queue.zipIdx 1).reverse.find? (·.1 == memberId)).map (·.2)

/-- `refresh_hand_positions`. -/
def refreshHandPositions : TileActor :=
  { a with roster := a.roster.map fun p =>
      { p with handRaisedPosition := a.handPosition p.memberId } }

/-- `apply_raised_hands`. -/
def applyRaisedHands (hands : List RaisedHand) (now : ℕ) : TileActor :=
  let b := { a with raisedHands := hands }
  let roster := a.roster.map fun p => { p with handRaisedAtMs := b.handRaisedAt p.memberId }
  if roster = a.roster then b
  else ({ b with roster := roster }.refreshHandPositions).publishRoster now

/-- `own_published_streams`. -/
def ownPublishedStreams (memberId : String) : List StreamState :=
  if memberId = a.ownMemberId then
    (a.localTracks.entries.map fun e => (⟨e.1, e.2.muted⟩ : StreamState)).insertionSort
      fun x y => x.kind.rank ≤ y.kind.rank
  else []

/-- `add_member`. -/
def addMember (member : JoinedMembership) (reachable : Bool) : TileActor :=
  { a with roster := a.roster ++
      [{ memberId := member.memberId
         userId := member.sender
         deviceId := member.origin.senderDeviceId
         isLocal := member.memberId == a.ownMemberId
         connection := if reachable then .connected else .unreachable
         unableToDecrypt := none
         streams := a.ownPublishedStreams member.memberId
         handRaisedAtMs := a.handRaisedAt member.memberId
         handRaisedPosition := none
         joinedAtMs := member.membershipTs.or member.originServerTs }] }

/-- `remove_member`. -/
def removeMember (memberId : String) : TileActor :=
  { a with
    roster := a.roster.filter (·.memberId != memberId)
    encryptionStates := a.encryptionStates.erase memberId
    undecryptableSince := a.undecryptableSince.erase memberId
    sentInClear := a.sentInClear.filter (· != memberId)
    speech := a.speech.removeMember memberId }

/-- Whoever is not in the snapshot leaves the roster. -/
def removeDeparted (snapshot : List JoinedMembership) : TileActor :=
  let departed := a.roster.filter fun p => !(snapshot.map (·.memberId)).contains p.memberId
  departed.foldl (fun b p => b.removeMember p.memberId) a

/-- The members of the snapshot that are not on the roster come onto it. -/
def addArrived (snapshot : List JoinedMembership) (view : PoolView) : TileActor :=
  snapshot.foldl
    (fun b member =>
      if b.roster.any (·.memberId == member.memberId) then b
      else b.addMember member (view.reachable member))
    a

/-- `apply_snapshot`, with what the pool reports of it. -/
def applySnapshot (snapshot : List JoinedMembership) (view : PoolView)
    (events : List PoolEvent) : TileActor :=
  ((((a.removeDeparted snapshot).addArrived snapshot view).applyPoolEvents view.now
    events).refreshHandPositions).publishRoster view.now

/-- `unable_to_decrypt`. -/
def unableToDecrypt (memberId : String) (publishing : Bool) (now : ℕ) : Option UnableToDecrypt :=
  if a.sentInClear.contains memberId then some .notEncrypted
  else if !publishing then none
  else
    match a.undecryptableSince.lookup memberId with
    | none => none
    | some since =>
        if now - since < a.stability.keyGrace then none
        else if a.encryptionStates.lookup memberId = some .missingKey then some .missingKey
        else some .badKey

/-- A participant as the end of a turn has it. -/
def synced (view : PoolView) (p : Participant) : Participant :=
  if p.isLocal then { p with connection := view.ownMedia, unableToDecrypt := none }
  else { p with
    connection := (view.memberConnection p.memberId).getD .connected
    unableToDecrypt := a.unableToDecrypt p.memberId (!p.streams.isEmpty) view.now }

/-- What `sync_media_state` does to the roster. -/
def syncMediaState (view : PoolView) : TileActor :=
  let roster := a.roster.map (a.synced view)
  if roster = a.roster then a else { a with roster := roster }.publishRoster view.now

/-- `LocalPublished`. -/
def localPublished (kind : MediaStreamKind) (muted : Bool) (track now : ℕ) : TileActor :=
  addLocalStream { a with localTracks := a.localTracks.insert kind ⟨track, muted, muted⟩ }
    a.ownMemberId kind now

/-- `SetLocalMuted`, where the transport takes it and the call has not lapsed or has. -/
def setLocalMuted (kind : MediaStreamKind) (muted told taken : Bool) (now : ℕ) : TileActor :=
  match a.localTracks.lookup kind with
  | none => a
  | some publication =>
      if taken then
        setMemberMuted
          { a with localTracks := a.localTracks.insert kind ⟨publication.track, muted, told⟩ }
          a.ownMemberId kind muted now
      else a

/-- `LocalUnpublished`: not of a publication that has taken the place of the track. -/
def localUnpublished (kind : MediaStreamKind) (track now : ℕ) : TileActor :=
  if (a.localTracks.lookup kind).any (·.track == track) then
    removeStream { a with localTracks := a.localTracks.erase kind } a.ownMemberId kind now
  else a

/-- `SpeakerTimer`. -/
def speakerTimer (timer : SpeakerTimer) (now : ℕ) : TileActor :=
  let heard := a.speech.speakerTimer timer.memberId timer.generation
  let b := { a with speech := heard, speakerTimers := a.speakerTimers.erase timer }
  let changed := (heard.speaking.contains timer.memberId) !=
    (a.speech.speaking.contains timer.memberId)
  if changed then b.publishTiles now else b

/-- `FlushReorder`: the message is taken from those that are to come. -/
def flushReorder (timer : FlushTimer) : TileActor :=
  let order : TileOrder := { a.order with flushes := a.order.flushes.erase timer }
  if a.order.pendingReorder = some timer.generation then
    publishTilesReordered { a with order := { order with pendingReorder := none } }
  else { a with order := order }

end TileActor

/-- What a turn is about. The turns that touch nothing of the tiles themselves still end with
the state brought into line. -/
inductive TileTurn where
  /-- The signalling, a connection, a key, a timer of the pool: what the pool reports. -/
  | pool (events : List PoolEvent)
  | memberships (snapshot : List JoinedMembership) (events : List PoolEvent)
  | raisedHands (hands : List RaisedHand)
  | localPublished (kind : MediaStreamKind) (muted : Bool) (track : ℕ)
  | localUnpublished (kind : MediaStreamKind) (track : ℕ)
  | setLocalMuted (kind : MediaStreamKind) (muted told taken : Bool)
  | speakerTimer (timer : SpeakerTimer)
  | flushReorder (timer : FlushTimer)
  | setDetailWindow (window : DetailWindow)
  | setRankingThreshold (rankingThreshold : UInt32)
  /-- A lapse, a reaction, the end, a key's grace, a command to the pool. -/
  | other

namespace TileActor

variable (a : TileActor)

def receive (turn : TileTurn) (view : PoolView) : TileActor :=
  match turn with
  | .pool events => a.applyPoolEvents view.now events
  | .memberships snapshot events => a.applySnapshot snapshot view events
  | .raisedHands hands => a.applyRaisedHands hands view.now
  | .localPublished kind muted track => a.localPublished kind muted track view.now
  | .localUnpublished kind track => a.localUnpublished kind track view.now
  | .setLocalMuted kind muted told taken => a.setLocalMuted kind muted told taken view.now
  | .speakerTimer timer => a.speakerTimer timer view.now
  | .flushReorder timer => a.flushReorder timer
  | .setDetailWindow window => { a with window := window }.publishTiles view.now
  | .setRankingThreshold rankingThreshold =>
      { a with rankingThreshold := rankingThreshold }.publishTiles view.now
  | .other => a

/-- A turn ends with the roster brought into line with the media. -/
def turn (turn : TileTurn) (view : PoolView) : TileActor :=
  (a.receive turn view).syncMediaState view

/-- What the actor does before its first turn: the signalling and the snapshot that it finds,
and the hands, where it follows them. -/
def start (width : PointerWidth) (stability : StabilityConfig) (ownMemberId : String)
    (found : List PoolEvent) (snapshot : List JoinedMembership) (events : List PoolEvent)
    (hands : Option (List RaisedHand)) (view : PoolView) : TileActor :=
  let a := ((new width stability ownMemberId).applyPoolEvents view.now found).applySnapshot
    snapshot view events
  let a := match hands with
    | some hands => a.applyRaisedHands hands view.now
    | none => a
  a.syncMediaState view

/-- A timer comes once it is due; everything else may come at any time. -/
def Possible (now : ℕ) : TileTurn → Prop
  | .speakerTimer timer => timer ∈ a.speakerTimers ∧ timer.dueAt ≤ now
  | .flushReorder timer => timer ∈ a.order.flushes ∧ timer.dueAt ≤ now
  | _ => True

end TileActor

end MatrixRtc.TileActors

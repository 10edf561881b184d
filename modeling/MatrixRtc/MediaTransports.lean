import MatrixRtc.MemberEvents

/-!
# Media transports

What the connection pool and the backends it connects through say to each other: the kinds
of stream, what is wanted of one, the events of a connection and the errors of a connect.
A track is known by which handle it is, a connection likewise, and a level by its bits.
-/
namespace MatrixRtc.MediaTransports
open MemberEvents

inductive MediaStreamKind where
  | microphone
  | camera
  | screenShare
  | screenShareAudio
  | data
deriving DecidableEq, Repr

/-- The declaration order. -/
def MediaStreamKind.rank : MediaStreamKind → ℕ
  | .microphone => 0
  | .camera => 1
  | .screenShare => 2
  | .screenShareAudio => 3
  | .data => 4

structure Dimensions where
  width : ℕ
  height : ℕ
deriving DecidableEq, Repr

inductive QualityLimit where
  | low
  | medium
  | high
deriving DecidableEq, Repr

inductive VideoDetail where
  | auto
  | dimensions (size : Dimensions)
  | quality (limit : QualityLimit)
deriving DecidableEq, Repr

structure MediaConstraints where
  enabled : Bool
  visible : Bool
  detail : VideoDetail
  lowBandwidth : Bool
deriving DecidableEq, Repr

inductive StreamDemand where
  | active
  | paused
  | off
deriving DecidableEq, Repr

structure ResolvedConstraints where
  demand : StreamDemand
  detail : VideoDetail
deriving DecidableEq, Repr

def MediaStreamKind.isVideo : MediaStreamKind → Bool
  | .camera | .screenShare => true
  | .microphone | .screenShareAudio | .data => false

/-- `MediaConstraints::resolve`. -/
def MediaConstraints.resolve (c : MediaConstraints) (kind : MediaStreamKind) :
    ResolvedConstraints :=
  { demand :=
      if !c.enabled then .off
      else if !c.visible || c.lowBandwidth && kind.isVideo then .paused
      else .active
    detail := if kind.isVideo then c.detail else .auto }

inductive TransportError where
  | unsupported (message : String)
  | connect (message : String)
  | closed (message : String)
  | tokenRejected (message : String)
  | refused (message : String)
deriving DecidableEq, Repr

inductive FrameEncryptionState where
  | ok
  | missingKey
  | decryptionFailed
  | encryptionFailed
  | internalError
deriving DecidableEq, Repr

structure SpeakingParticipant where
  identity : String
  level : UInt32
deriving DecidableEq, Repr

inductive ConnectionEvent where
  | remoteJoined (identity : String)
  | remoteLeft (identity : String)
  | trackAdded (identity : String) (kind : MediaStreamKind) (track : ℕ)
  | trackRemoved (identity : String) (kind : MediaStreamKind)
  | trackMuted (identity : String) (kind : MediaStreamKind)
  | trackUnmuted (identity : String) (kind : MediaStreamKind)
  | activeSpeakers (speakers : List SpeakingParticipant)
  | encryptionStateChanged (identity : String) (state : FrameEncryptionState)
  | trackNotEncrypted (identity : String) (kind : MediaStreamKind)
  | reconnecting
  | reconnected
  | closed (message : String)
deriving DecidableEq, Repr

/-- What the pool asks of a backend, its connects apart. -/
structure MediaTransport where
  connectionKey : RtcTransport → String → Option String
  remoteIdentity : JoinedMembership → Option String
  sharesIdentity : String → String → Bool

/-- `select_transport`: the first backend that can serve one of the member's transports,
with the connection's key. -/
def selectTransport (transports : List MediaTransport) (member : JoinedMembership) :
    Option (MediaTransport × String) :=
  transports.findSome? fun backend =>
    (member.transports.findSome? fun transport =>
      backend.connectionKey transport member.sender).map (backend, ·)

/-- The identity of a member on the media plane, from the first backend that gives one. -/
def remoteIdentity (transports : List MediaTransport) (member : JoinedMembership) :
    Option String :=
  transports.findSome? (·.remoteIdentity member)

def asLiveKit : RtcTransport → Option LiveKitTransport
  | .liveKit livekit => some livekit
  | .unsupported _ => none

/-- `first_livekit`: the first LiveKit transport of a member's published ones. -/
def firstLivekit (transports : List RtcTransport) : Option LiveKitTransport :=
  transports.findSome? asLiveKit

/-- `identity_for`: the identity that the token flow of the first LiveKit transport mints,
given the hash of the homeserver's. -/
def identityFor (msc4195Identity : String → String → String) (subject : IdentitySubject) :
    Option String :=
  (firstLivekit subject.transports).bind fun livekit =>
    match authFlow livekit with
    | .sfuGet _ => subject.deviceId.map fun deviceId => subject.userId ++ ":" ++ deviceId
    | .csApi _ => some (msc4195Identity subject.userId subject.memberId)

/-- The `remote_identity` of the backends: what the mapper makes of the member. -/
def mappedIdentity (mapper : IdentitySubject → Option String) (member : JoinedMembership) :
    Option String :=
  mapper
    { userId := member.sender
      deviceId := member.origin.senderDeviceId
      memberId := member.memberId
      transports := member.transports }

/-- The scripted backend of the program's tests. -/
def scriptedTransport (msc4195Identity : String → String → String) : MediaTransport :=
  { connectionKey := fun transport _ =>
      match transport with
      | .liveKit livekit => livekit.livekitServiceUrl.or livekit.url
      | .unsupported _ => none
    remoteIdentity := mappedIdentity (identityFor msc4195Identity)
    sharesIdentity := fun _ _ => true }

/-- `server_name_of`. -/
def serverNameOf (userId : String) : String :=
  match userId.toList.dropWhile (· != ':') with
  | [] => userId
  | _ :: server => String.ofList server

/-- `RtcTransport::as_published_by`. -/
def asPublishedBy (publisherUserId : String) : RtcTransport → RtcTransport
  | .liveKit livekit =>
      if h : livekit.url.isSome ∧ livekit.serverName.isNone then
        .liveKit { livekit with
          serverName := some (serverNameOf publisherUserId), qualified := fun _ => h.1 }
      else .liveKit livekit
  | .unsupported transport => .unsupported transport

end MatrixRtc.MediaTransports

import MatrixRtc.JsonValues

/-!
# Member events and their conversion

The sticky member event as the host hands it over, and the membership the core
reads out of it. Only `slot_id` and `sticky_key` are required of the content; an
event that does not say `join` with an id and an application type converts to a
leave. How the event reached us travels with it as its origin. The open slot, the
sender's room membership and the encrypted-room rule are not decided here.
-/
namespace MatrixRtc.MemberEvents
open JsonValues

/-- How an event reached us, and what its decryption metadata says. -/
inductive EventOrigin where
  | unknown
  | cleartext
  | encrypted (senderDeviceId : Option String)
  | claimed (deviceId : String)
deriving DecidableEq, Repr

/-- The sending device, if the event was attributable or claimed one. -/
def EventOrigin.senderDeviceId : EventOrigin → Option String
  | encrypted device => device
  | claimed device => some device
  | unknown | cleartext => none

/-- Whether the event arrived encrypted; a claimed device says nothing about it. -/
def EventOrigin.wasEncrypted : EventOrigin → Option Bool
  | unknown | claimed _ => none
  | cleartext => some false
  | encrypted _ => some true

inductive Membership where
  | join
  | leave
  | unknown (status : String)
deriving DecidableEq, Repr

structure MemberInfo where
  id : Option String
  membership : Option Membership
deriving DecidableEq, Repr

/-- `membership = join` with a usable id. -/
def MemberInfo.isJoin (m : MemberInfo) : Bool :=
  m.membership == some .join && m.id.any (fun id => !id.isEmpty)

structure ApplicationInfo where
  type : Option String
  extra : List (String × Json)
deriving DecidableEq, Repr

/-- The application type, when one is set and non-empty. -/
def ApplicationInfo.applicationType (a : ApplicationInfo) : Option String :=
  a.type.filter fun t => !t.isEmpty

inductive LeaveCode where
  | leave
  | delayedLeave
  | slotClosed
  | other (code : String)
deriving DecidableEq, Repr

structure LeaveReason where
  code : LeaveCode
  reason : Option String
deriving DecidableEq, Repr

/-- A LiveKit transport names the SFU, the legacy JWT service, or both, and a
server name only together with an SFU. -/
structure LiveKitTransport where
  url : Option String
  livekitServiceUrl : Option String
  serverName : Option String
  named : url.isSome ∨ livekitServiceUrl.isSome
  qualified : serverName.isSome → url.isSome
deriving DecidableEq

theorem LiveKitTransport.unqualified :
    (none : Option String).isSome → (none : Option String).isSome := id

/-- `LiveKitTransport::new`: nothing when the fields do not make a transport. -/
def LiveKitTransport.new (url livekitServiceUrl serverName : Option String) :
    Option LiveKitTransport :=
  if h : (url.isSome ∨ livekitServiceUrl.isSome) ∧ (serverName.isSome → url.isSome) then
    some ⟨url, livekitServiceUrl, serverName, h.1, h.2⟩
  else none

/-- How a transport's token is obtained, which decides the identity it mints. -/
inductive LiveKitAuthFlow where
  | sfuGet (serviceUrl : String)
  | csApi (url : String)

/-- `auth_flow`: the legacy service is used whenever the transport still names it. -/
def authFlow (t : LiveKitTransport) : LiveKitAuthFlow :=
  match service : t.livekitServiceUrl with
  | some serviceUrl => .sfuGet serviceUrl
  | none => .csApi (t.url.get (by simpa [service] using t.named))

structure RawRtcTransport where
  transportType : String
  extraFields : List (String × Json)
deriving DecidableEq

inductive RtcTransport where
  | liveKit (transport : LiveKitTransport)
  | unsupported (transport : RawRtcTransport)
deriving DecidableEq

/-- A known type is parsed; an unknown or malformed one keeps its raw fields. -/
def RawRtcTransport.intoTyped (t : RawRtcTransport) : RtcTransport :=
  if t.transportType = "livekit" ∨ t.transportType = "m.livekit" then
    let field := fun name => (t.extraFields.lookup name).bind Json.asStr
    match LiveKitTransport.new (field "url") (field "livekit_service_url")
        (field "server_name") with
    | some livekit => .liveKit livekit
    | none => .unsupported t
  else .unsupported t

/-- What a member's identity on the RTC backend is derived from. -/
structure IdentitySubject where
  userId : String
  deviceId : Option String
  memberId : String
  transports : List RtcTransport

structure MemberTransports where
  published : List RawRtcTransport
  canSubscribe : List String
deriving DecidableEq

structure JoinedMembership where
  roomId : String
  slotId : String
  sender : String
  origin : EventOrigin
  stickyKey : String
  memberId : String
  membershipEventId : Option String
  membershipTs : Option ℕ
  originServerTs : Option ℕ
  application : ApplicationInfo
  transports : List RtcTransport
  canSubscribe : List String
deriving DecidableEq

structure LeftMembership where
  roomId : String
  slotId : String
  sender : String
  stickyKey : String
  memberId : Option String
  leaveReason : Option LeaveReason
deriving DecidableEq, Repr

inductive RtcMembershipEvent where
  | joined (membership : JoinedMembership)
  | left (membership : LeftMembership)
deriving DecidableEq

structure RawStickyEventContent where
  slotId : String
  stickyKey : String
  member : MemberInfo
  application : ApplicationInfo
  transports : Option MemberTransports
  leaveReason : Option LeaveReason
  createdTs : Option ℕ
deriving DecidableEq

structure RawStickyEvent where
  roomId : String
  eventId : Option String
  sender : String
  origin : EventOrigin
  eventType : String
  originServerTs : Option ℕ
  content : RawStickyEventContent
deriving DecidableEq

inductive EventConversionError where
  | unsupportedEventType (found : String)
  | missingField (field : String)
deriving DecidableEq, Repr

namespace RawStickyEvent

/-- The preconditions both conversions share. -/
def checkConvertible (e : RawStickyEvent) : Except EventConversionError Unit :=
  if e.eventType ≠ "m.rtc.member" ∧ e.eventType ≠ "org.matrix.msc4143.rtc.member" then
    .error (.unsupportedEventType e.eventType)
  else if e.content.slotId.isEmpty then .error (.missingField "slot_id")
  else if e.content.stickyKey.isEmpty then .error (.missingField "sticky_key")
  else .ok ()

def intoLeft (e : RawStickyEvent) (memberId : Option String) : LeftMembership :=
  { roomId := e.roomId
    slotId := e.content.slotId
    sender := e.sender
    stickyKey := e.content.stickyKey
    memberId := memberId
    leaveReason := e.content.leaveReason }

/-- The joined membership of an event whose member object holds `memberId`. -/
def intoJoined (e : RawStickyEvent) (memberId : String) : JoinedMembership :=
  let transports := e.content.transports.getD ⟨[], []⟩
  { roomId := e.roomId
    slotId := e.content.slotId
    sender := e.sender
    origin := e.origin
    stickyKey := e.content.stickyKey
    memberId := memberId
    membershipEventId := e.eventId
    membershipTs := e.content.createdTs
    originServerTs := e.originServerTs
    application := e.content.application
    transports := transports.published.map RawRtcTransport.intoTyped
    canSubscribe := transports.canSubscribe }

/-- What a convertible event converts to. `is_join` guarantees the id the
`expect` of the source takes. -/
def membershipEvent (e : RawStickyEvent) : RtcMembershipEvent :=
  if e.content.member.isJoin ∧ e.content.application.applicationType.isSome then
    match e.content.member.id with
    | some memberId => .joined (e.intoJoined memberId)
    | none => .left (e.intoLeft none)
  else .left (e.intoLeft e.content.member.id)

def tryIntoMembershipEvent (e : RawStickyEvent) :
    Except EventConversionError RtcMembershipEvent :=
  match e.checkConvertible with
  | .error err => .error err
  | .ok () => .ok e.membershipEvent

theorem membershipEvent_joined {e : RawStickyEvent} {m : JoinedMembership}
    (h : e.membershipEvent = .joined m) : ∃ memberId, m = e.intoJoined memberId := by
  unfold membershipEvent at h
  split_ifs at h with hj
  cases hid : e.content.member.id with
  | none => simp [hid] at h
  | some id =>
      simp only [hid] at h
      cases h
      exact ⟨id, rfl⟩

theorem membershipEvent_joined_origin {e : RawStickyEvent} {m : JoinedMembership}
    (h : e.membershipEvent = .joined m) : m.origin = e.origin := by
  obtain ⟨memberId, rfl⟩ := membershipEvent_joined h
  rfl

end RawStickyEvent

end MatrixRtc.MemberEvents

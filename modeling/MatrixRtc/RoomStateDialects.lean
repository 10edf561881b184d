import MatrixRtc.RoomStateMembers

/-!
# Our membership in room state

The contents our join sends and how a room-state dialect renders them: the state key of
our device in a slot, and the content of the `org.matrix.msc3401.call.member` event. The
dialect keeps when it was first published and moves the stated lifetime instead. Sums
of milliseconds are taken in 64 bits.
-/
namespace MatrixRtc.RoomStateDialects
open HostAnswers JsonValues MemberEvents MemberIngest RoomStateMembers

/-- A transport with its extra fields flattened into it. -/
def transportJson (t : RawRtcTransport) : Json :=
  .obj (t.extraFields ++ [("type", .str t.transportType)])

def transportsJson (t : MemberTransports) : List (String × Json) :=
  let published := if t.published.isEmpty then []
    else [("published", Json.arr (t.published.map transportJson))]
  let canSubscribe := if t.canSubscribe.isEmpty then []
    else [("can_subscribe", Json.arr (t.canSubscribe.map .str))]
  if t.published.isEmpty && t.canSubscribe.isEmpty then []
  else [("transports", .obj (published ++ canSubscribe))]

def applicationJson (a : ApplicationInfo) : List (String × Json) :=
  if a.type.isNone && a.extra.isEmpty then []
  else [("application", .obj (a.extra ++ [("type", (a.type.map Json.str).getD .null)]))]

def memberJson (memberId status : String) : Json :=
  .obj [("id", .str memberId), ("membership", .str status)]

/-- `for_join`, serialized. -/
def joinContent (slotId memberId : String) (application : ApplicationInfo)
    (transports : MemberTransports) : Json :=
  .obj ([("slot_id", .str slotId), ("msc4354_sticky_key", .str memberId),
    ("member", memberJson memberId "join")] ++ applicationJson application ++
    transportsJson transports)

/-- `LeaveCode::as_str`. -/
def leaveCode : LeaveCode → String
  | .leave => "leave"
  | .delayedLeave => "delayed_leave"
  | .slotClosed => "slot_closed"
  | .other code => code

/-- `for_leave`, serialized. -/
def leaveContent (slotId memberId : String) (reason : LeaveReason) : Json :=
  .obj [("slot_id", .str slotId), ("msc4354_sticky_key", .str memberId),
    ("member", memberJson memberId "leave"),
    ("leave_reason", .obj (("code", .str (leaveCode reason.code)) ::
      (reason.reason.map fun text => ("reason", Json.str text)).toList))]

/-- `str::split_once` at a character. -/
def splitOnce (s : String) (at_ : Char) : Option (String × String) :=
  match s.toList.dropWhile (· != at_) with
  | [] => none
  | _ :: rest => some (String.ofList (s.toList.takeWhile (· != at_)), String.ofList rest)

/-- `ROOM_APPLICATION_SLOT_ID`. -/
def roomApplicationSlotId : String := "room"

/-- `legacy_session`: the application and call id of a slot. -/
def legacySession (slotId : String) : String × String :=
  match splitOnce slotId '#' with
  | some (application, callId) =>
      if callId = roomApplicationSlotId then (application, "") else (application, callId)
  | none => (slotId, "")

/-- `is_leave`. -/
def isLeave (content : Json) : Bool :=
  ((content.get "member").bind (·.get "membership")).bind Json.asStr == some "leave"

/-- A dialect of our device in one slot, with when it first stated a membership. -/
structure RoomStateDialect where
  ownUserId : String
  ownDeviceId : String
  roomId : String
  slotId : String
  createdTs : Option ℕ
deriving DecidableEq, Repr

namespace RoomStateDialect

def new (ownUserId ownDeviceId roomId slotId : String) : RoomStateDialect :=
  ⟨ownUserId, ownDeviceId, roomId, slotId, none⟩

variable (d : RoomStateDialect)

/-- `_{user_id}_{device_id}_{application}{call_id}`. -/
def stateKey : String :=
  let (application, callId) := legacySession d.slotId
  "_" ++ d.ownUserId ++ "_" ++ d.ownDeviceId ++ "_" ++ application ++ callId

def membershipId : String := participantIdentity d.ownUserId d.ownDeviceId

/-- A focus with the `livekit_alias` the generation asks for. -/
def aliased : Json → Json
  | .obj fields =>
      if (fields.lookup "livekit_alias").isSome then .obj fields
      else .obj (setField fields "livekit_alias" (.str d.roomId))
  | v => v

/-- `foci_preferred`. -/
def fociPreferred (spec : Json) : List Json :=
  let published := (((spec.get "transports").bind (·.get "published")).bind Json.asArray).getD []
  (published.filter fun focus => (focus.get "type").bind Json.asStr == some "livekit").map d.aliased

/-- `DEFAULT_CALL_INTENT`. -/
def defaultCallIntent : String := "video"

/-- The content of a membership that was first stated at `createdTs`. -/
def statedContent (spec : Json) (createdTs now : ℕ) (lifetimeMs : Option ℕ) : Json :=
  let (application, callId) := legacySession d.slotId
  let expires := (now - createdTs + lifetimeMs.getD defaultExpiresMs) % (u64Max + 1)
  .obj [("application", .str application), ("call_id", .str callId), ("scope", .str "m.room"),
    ("device_id", .str d.ownDeviceId), ("membershipID", .str d.membershipId),
    ("created_ts", .num (.posInt createdTs)), ("expires", .num (.posInt expires)),
    ("focus_active",
      .obj [("type", .str "livekit"), ("focus_selection", .str "multi_sfu")]),
    ("foci_preferred", .arr (d.fociPreferred spec)),
    ("m.call.intent", ((spec.get "application").bind (·.get "m.call.intent")).getD
      (.str defaultCallIntent))]

/-- `member_content`, with the dialect after it. -/
def memberContent (spec : Json) (lifetimeMs : Option ℕ) (now : ℕ) : RoomStateDialect × Json :=
  if isLeave spec || (spec.get "slot_id").isNone then (d, .obj [])
  else
    let createdTs := d.createdTs.getD now
    ({ d with createdTs := some createdTs }, d.statedContent spec createdTs now lifetimeMs)

end RoomStateDialect

inductive OutboundDialect where
  | none
  | state (dialect : RoomStateDialect)
deriving DecidableEq, Repr

/-- `outbound_dialect`. -/
def outboundDialect (format : MembershipFormat) (userId deviceId roomId slotId : String) :
    OutboundDialect :=
  match format with
  | .msc => .none
  | .roomState => .state (.new userId deviceId roomId slotId)

inductive MemberEventRoute where
  | sticky (eventType : String) (content : Json)
  | state (eventType stateKey : String) (content : Json)
  | room (eventType : String) (content : Json)
deriving DecidableEq

/-- `is_member_event`. -/
def isMemberEvent (eventType : String) : Bool :=
  eventType = "m.rtc.member" ∨ eventType = "org.matrix.msc4143.rtc.member"

/-- `STATE_MEMBER_EVENT_TYPE`. -/
def stateMemberEventType : String := "org.matrix.msc3401.call.member"

/-- `route_member_event`, with the dialect after it. -/
def OutboundDialect.routeMemberEvent (eventType : String) (content : Json)
    (lifetimeMs : Option ℕ) (now : ℕ) : OutboundDialect → OutboundDialect × MemberEventRoute
  | .none => (.none, .sticky eventType content)
  | .state d =>
      if isMemberEvent eventType then
        let (d', rendered) := d.memberContent content lifetimeMs now
        (.state d', .state stateMemberEventType d.stateKey rendered)
      else (.state d, .room eventType content)

section
variable (d : RoomStateDialect)

@[simp] theorem memberContent_leave (slotId memberId : String) (reason : LeaveReason)
    (lifetimeMs : Option ℕ) (now : ℕ) :
    d.memberContent (leaveContent slotId memberId reason) lifetimeMs now = (d, .obj []) := by
  have leaves : isLeave (leaveContent slotId memberId reason) = true := by
    simp [isLeave, leaveContent, memberJson, Json.get, Json.asObject, Json.asStr,
      List.lookup_cons]
  simp [RoomStateDialect.memberContent, leaves]

@[simp] theorem memberContent_join (slotId memberId : String) (application : ApplicationInfo)
    (transports : MemberTransports) (lifetimeMs : Option ℕ) (now : ℕ) :
    d.memberContent (joinContent slotId memberId application transports) lifetimeMs now =
      ({ d with createdTs := some (d.createdTs.getD now) },
        d.statedContent (joinContent slotId memberId application transports)
          (d.createdTs.getD now) now lifetimeMs) := by
  have joins : isLeave (joinContent slotId memberId application transports) = false := by
    simp [isLeave, joinContent, memberJson, Json.get, Json.asObject, Json.asStr,
      List.lookup_cons]
  have slotted : ((joinContent slotId memberId application transports).get "slot_id").isNone =
      false := by
    simp [joinContent, Json.get, Json.asObject]
  simp [RoomStateDialect.memberContent, joins, slotted]

end

end MatrixRtc.RoomStateDialects

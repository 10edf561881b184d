import MatrixRtc.HostAnswers
import MatrixRtc.MemberIngest
import Mathlib.Data.Option.Basic

/-!
# Membership in room state

The older Element Call membership, one `org.matrix.msc3401.call.member` state event a
device, rewritten as the contents the core reads. A content states its own lifetime, so
an expired one is dropped here, and the transport of a member is resolved against the
oldest membership of its slot. What is logged of a dropped event is left out.
-/
namespace MatrixRtc.RoomStateMembers
open HostAnswers JsonValues MemberEvents MemberContents MemberIngest

/-- `ROOM_CALL_ID`. -/
def roomCallId : String := "room"

/-- `DEFAULT_EXPIRES_MS`: four hours. -/
def defaultExpiresMs : ℕ := 4 * 60 * 60 * 1000

/-- `participant_identity`. -/
def participantIdentity (userId deviceId : String) : String := userId ++ ":" ++ deviceId

/-- `StateMembership`: the event-level fields of a membership and its rewritten content. -/
structure StateMembership where
  eventId : Option String
  sender : String
  claimedDeviceId : String
  content : Json
deriving DecidableEq

/-- One live membership, before its transport is resolved. -/
structure Parsed where
  eventId : Option String
  sender : String
  stateKey : String
  deviceId : String
  memberId : String
  slotId : String
  applicationType : String
  joinedAt : ℕ
  intent : Option Json
  ownFocus : Option Json
  prefersOwnFocus : Bool
deriving DecidableEq

/-- A non-empty string among the fields. -/
def nonEmptyField (object : List (String × Json)) (key : String) : Option String :=
  ((object.lookup key).bind Json.asStr).filter fun s => !s.isEmpty

/-- `joined_at`: the smaller of the stated creation and the homeserver's timestamp. -/
def joinedAt (object : List (String × Json)) (originServerTs : ℕ) : ℕ :=
  match (object.lookup "created_ts").bind Json.asU64 with
  | some createdTs => min createdTs originServerTs
  | none => originServerTs

/-- The instant a content's stated lifetime ends. -/
def deadline (object : List (String × Json)) (originServerTs : ℕ) : ℕ :=
  satAdd (joinedAt object originServerTs)
    (((object.lookup "expires").bind Json.asU64).getD defaultExpiresMs)

/-- The fields of a live membership, given what `parse` has checked of it. -/
def parsedFields (event : LegacyStateMemberEventIn) (object : List (String × Json))
    (applicationType deviceId : String) : Parsed :=
  let callId := ((object.lookup "call_id").bind Json.asStr).getD ""
  { eventId := event.eventId
    sender := event.sender
    stateKey := event.stateKey
    deviceId := deviceId
    memberId :=
      (nonEmptyField object "membershipID").getD (participantIdentity event.sender deviceId)
    slotId := applicationType ++ "#" ++ if callId.isEmpty then roomCallId else callId
    applicationType := applicationType
    joinedAt := joinedAt object event.originServerTs
    intent := object.lookup "m.call.intent"
    ownFocus := ((object.lookup "foci_preferred").bind Json.asArray).bind List.head?
    prefersOwnFocus :=
      (((object.lookup "focus_active").bind (·.get "focus_selection")).bind Json.asStr) ==
        some "multi_sfu" }

/-- `parse`: nothing for a leave, an array of memberships, a content that names no
application or device, and one whose lifetime has ended. -/
def parse (event : LegacyStateMemberEventIn) (now : ℕ) : Option Parsed := do
  let object ← event.content.asObject
  guard (!object.isEmpty)
  guard (object.lookup "memberships").isNone
  let applicationType ← nonEmptyField object "application"
  let deviceId ← nonEmptyField object "device_id"
  guard (now < deadline object event.originServerTs)
  return parsedFields event object applicationType deviceId

/-- `a` comes before `b` in age: it joined earlier, or at once under a smaller state key. -/
def Parsed.olderThan (a b : Parsed) : Bool :=
  a.joinedAt < b.joinedAt || (a.joinedAt == b.joinedAt && a.stateKey < b.stateKey)

/-- `Iterator::min_by` over the age: the first of the oldest. -/
def oldest (members : List Parsed) : Option Parsed :=
  members.foldl
    (fun found member =>
      match found with
      | none => some member
      | some best => if member.olderThan best then some member else some best)
    none

/-- `resolve_focus`: the focus a member publishes on. -/
def resolveFocus (member : Parsed) (members : List Parsed) : Option Json :=
  if member.prefersOwnFocus ∧ member.ownFocus.isSome then member.ownFocus
  else
    ((oldest (members.filter fun candidate => candidate.slotId == member.slotId)).bind
      (·.ownFocus)).or member.ownFocus

/-- The content of a membership in the current shape. -/
def rewrittenContent (members : List Parsed) (member : Parsed) : Json :=
  let application := [("type", Json.str member.applicationType)] ++
    (member.intent.map fun intent => ("m.call.intent", intent)).toList
  let transports := (resolveFocus member members).map fun focus =>
    let canSubscribe := ((focus.get "type").bind Json.asStr).map Json.str
    ("transports", Json.obj
      [("published", .arr [focus]), ("can_subscribe", .arr canSubscribe.toList)])
  .obj ([("slot_id", .str member.slotId), ("msc4354_sticky_key", .str member.memberId),
    ("member", .obj [("id", .str member.memberId), ("membership", .str "join")]),
    ("application", .obj application), ("created_ts", .num (.posInt member.joinedAt))] ++
    transports.toList)

/-- One entry of `translate_state_memberships`. -/
def translateMembership (members : List Parsed) (member : Parsed) : StateMembership :=
  { eventId := member.eventId
    sender := member.sender
    claimedDeviceId := member.deviceId
    content := rewrittenContent members member }

/-- `translate_state_memberships`. -/
def translateStateMemberships (events : List LegacyStateMemberEventIn) (now : ℕ) :
    List StateMembership :=
  let members := events.filterMap (parse · now)
  members.map (translateMembership members)

/-- The core's event for a rewritten membership: nothing if its content does not parse. -/
def toCoreStateMembership (roomId : String) (membership : StateMembership) :
    Option RawStickyEvent :=
  (parseRawStickyEventContent membership.content).map fun content =>
    { roomId := roomId
      eventId := membership.eventId
      sender := membership.sender
      origin := .claimed membership.claimedDeviceId
      eventType := "m.rtc.member"
      originServerTs := none
      content := content }

/-- `to_core_state_memberships`, at a clock reading. -/
def toCoreStateMemberships (now : ℕ) (roomId : String) (events : List LegacyStateMemberEventIn) :
    List RawStickyEvent :=
  (translateStateMemberships events now).filterMap (toCoreStateMembership roomId)

/-- An event is parsed where it is live, and names an application and a device. -/
theorem parse_eq_some {event : LegacyStateMemberEventIn} {now : ℕ} {member : Parsed} :
    parse event now = some member ↔ ∃ object application deviceId,
      event.content = .obj object ∧ (object ≠ [] ∧ object.lookup "memberships" = none) ∧
        nonEmptyField object "application" = some application ∧
        nonEmptyField object "device_id" = some deviceId ∧
        now < deadline object event.originServerTs ∧
        member = parsedFields event object application deviceId := by
  unfold parse
  cases content : event.content with
  | obj object =>
      constructor
      · intro h
        obtain ⟨_, is_object, _, full, _, current, application, named, deviceId, device, _, alive,
          made⟩ := by simpa only [Option.bind_eq_bind, Option.bind_eq_some_iff] using h
        cases is_object
        cases made
        rw [Option.guard_eq_some'] at full current alive
        exact ⟨object, application, deviceId, rfl, ⟨by simpa using full, by simpa using current⟩,
          named, device, alive, rfl⟩
      · rintro ⟨_, application, deviceId, ⟨⟩, ⟨full, current⟩, named, device, alive, rfl⟩
        simp [Json.asObject, full, current, named, device, alive, guard]
  | null | bool | num | str | arr => simp [Json.asObject]

end MatrixRtc.RoomStateMembers

import MatrixRtc.InboundKeys
import MatrixRtc.RoomStateRoundTrip

/-!
# Media keys of the older generations

The `io.element.call.encryption_keys` message, as it is read and as ours is rewritten to it.
A key message of the room-state generation is bound to the device it came from, and a
membership to the `membershipID` its content states, so the two meet where that id is
the device's own.
-/
namespace MatrixRtc.LegacyKeyMessages
open HostAnswers JsonValues MemberEvents MemberIngest RoomStateMembers RoomStateDialects

structure LegacyKeyMessage where
  roomId : String
  memberId : String
  keyB64 : String
  keyIndex : UInt8
deriving DecidableEq, Repr

/-- `Iterator::max_by_key`: the last of the greatest. -/
def maxByKey {α : Type} (key : α → ℕ) (xs : List α) : Option α :=
  xs.foldl
    (fun found x =>
      match found with
      | none => some x
      | some best => if key best ≤ key x then some x else some best)
    none

/-- The entry of the array spelling with the highest index. -/
def newestEntry (entries : List Json) : Option Json :=
  maxByKey (fun entry => ((entry.get "index").bind Json.asU64).getD 0)
    (entries.filter fun entry => (entry.get "key").isSome)

/-- `u8::try_from`. -/
def toU8 (n : ℕ) : Option UInt8 := if n < 256 then some (UInt8.ofNat n) else none

/-- The member a key message names, or the device it names for its sender. -/
def statedMember (sender : String) (content : Json) : Option String :=
  match (((content.get "member").bind (·.get "id")).bind Json.asStr).filter (!·.isEmpty) with
  | some memberId => some memberId
  | none => ((content.get "device_id").bind Json.asStr).map (participantIdentity sender)

/-- `parse_key_message`. -/
def parseKeyMessage (sender : String) (content : Json) : Option LegacyKeyMessage := do
  let keys ← match ← content.get "keys" with
    | .arr entries => newestEntry entries
    | object => some object
  let memberId ← statedMember sender content
  return {
    roomId := ← (content.get "room_id").bind Json.asStr
    memberId := memberId
    keyB64 := ← (keys.get "key").bind Json.asStr
    keyIndex := ← ((keys.get "index").bind Json.asU64).bind toU8 }

/-- `claimed_key_device_id`. -/
def claimedKeyDeviceId (content : Json) : Option String :=
  (((content.get "device_id").or
    ((content.get "member").bind (·.get "claimed_device_id"))).bind Json.asStr).filter
      (!·.isEmpty)

/-- The device a key message came from: the one it was decrypted from first. -/
def keyDevice (senderDeviceId : Option String) (content : Json) : Option String :=
  senderDeviceId.or (claimedKeyDeviceId content)

/-- `parse_legacy_key`. -/
def parseLegacyKey (compat : MembershipFormat) (sender : String) (senderDeviceId : Option String)
    (content : Json) : Option LegacyKeyMessage := do
  let key ← parseKeyMessage sender content
  match compat with
  | .msc => return key
  | .roomState =>
      let deviceId ← keyDevice senderDeviceId content
      return { key with memberId := participantIdentity sender deviceId }

/-- The types the core sends a media key under. -/
def keyEventTypes : List String := ["m.rtc.encryption_key", "org.matrix.msc4143.rtc.encryption_key"]

def legacyKeyEventType : String := "io.element.call.encryption_keys"

/-- The content the core sends a media key in. -/
def keyContent (roomId ownMemberId keyB64 : String) (index : UInt8) : Json :=
  .obj [("room_id", .str roomId), ("member_id", .str ownMemberId),
    ("media_key",
      .obj [("index", .num (.posInt index.toNat)), ("key", .str keyB64)]),
    ("format", .num (.posInt 0))]

/-- `rewrite_key_message`, at a clock reading. -/
def rewriteKeyMessage (ownDeviceId slotId messageType : String) (content : Json) (now : ℕ) :
    Option (String × Json) :=
  if messageType ∉ keyEventTypes then none
  else do
    let mediaKey ← content.get "media_key"
    let index ← mediaKey.get "index"
    let key ← mediaKey.get "key"
    let (application, callId) := legacySession slotId
    return (legacyKeyEventType, .obj [
      ("keys", .obj [("index", index), ("key", key)]),
      ("member", .obj [("id", ← content.get "member_id"),
        ("claimed_device_id", .str ownDeviceId)]),
      ("device_id", .str ownDeviceId),
      ("room_id", ← content.get "room_id"),
      ("call_id", .str callId),
      ("sent_ts", .num (.posInt now)),
      ("session", .obj [("application", .str application), ("call_id", .str callId),
        ("scope", .str "m.room")])])

/-- A membership that a state event is translated to, among the room's events. -/
def TranslatesTo (events : List LegacyStateMemberEventIn) (now : ℕ)
    (event : LegacyStateMemberEventIn) (m : StateMembership) : Prop :=
  ∃ parsed, parse event now = some parsed ∧
    m = translateMembership (events.filterMap (parse · now)) parsed

/-- The `membershipID` a content states. -/
def statedMembershipId (content : Json) : Option String :=
  content.asObject.bind (nonEmptyField · "membershipID")

/-- The member id in a translated content. -/
def memberIdOf (m : StateMembership) : Option String :=
  ((m.content.get "member").bind (·.get "id")).bind Json.asStr

theorem memberIdOf_translated {events : List LegacyStateMemberEventIn} {now : ℕ}
    {event : LegacyStateMemberEventIn} {m : StateMembership}
    (translated : TranslatesTo events now event m) :
    memberIdOf m = some ((statedMembershipId event.content).getD
      (participantIdentity event.sender m.claimedDeviceId)) := by
  obtain ⟨parsed, parses, rfl⟩ := translated
  obtain ⟨object, application, deviceId, content, -, -, -, -, rfl⟩ := parse_eq_some.mp parses
  rw [content]
  rfl

theorem claimedDeviceId_translated {events : List LegacyStateMemberEventIn} {now : ℕ}
    {event : LegacyStateMemberEventIn} {m : StateMembership}
    (translated : TranslatesTo events now event m) :
    event.content.asObject.bind (nonEmptyField · "device_id") = some m.claimedDeviceId := by
  obtain ⟨parsed, parses, rfl⟩ := translated
  obtain ⟨object, application, deviceId, content, -, -, device, -, rfl⟩ :=
    parse_eq_some.mp parses
  rw [content]
  exact device

theorem parseLegacyKey_roomState {sender deviceId : String} {senderDeviceId : Option String}
    {content : Json} {fields : LegacyKeyMessage}
    (parses : parseKeyMessage sender content = some fields)
    (device : keyDevice senderDeviceId content = some deviceId) :
    parseLegacyKey .roomState sender senderDeviceId content =
      some { fields with memberId := participantIdentity sender deviceId } := by
  simp [parseLegacyKey, parses, device]

/-- A key reaches the membership of its device where the stated `membershipID` is the
device's own. -/
theorem key_bound_iff {events : List LegacyStateMemberEventIn} {now : ℕ}
    {event : LegacyStateMemberEventIn} {m : StateMembership}
    (translated : TranslatesTo events now event m) {senderDeviceId : Option String}
    {content : Json} {fields : LegacyKeyMessage}
    (parses : parseKeyMessage event.sender content = some fields)
    (device : keyDevice senderDeviceId content = some m.claimedDeviceId) :
    (∃ key, parseLegacyKey .roomState event.sender senderDeviceId content = some key ∧
      memberIdOf m = some key.memberId) ↔
    ∀ stated, statedMembershipId event.content = some stated →
      stated = participantIdentity event.sender m.claimedDeviceId := by
  rw [parseLegacyKey_roomState parses device, memberIdOf_translated translated]
  simp only [Option.some.injEq, exists_eq_left']
  cases stated : statedMembershipId event.content with
  | none => simp
  | some id => simp

@[simp] theorem toU8_toNat (index : UInt8) : toU8 index.toNat = some index := by
  simp [toU8, index.toNat_lt]

theorem statedMember_isSome {content : Json} {deviceId : String}
    (device : content.get "device_id" = some (.str deviceId)) (sender : String) :
    ∃ memberId, statedMember sender content = some memberId := by
  unfold statedMember
  cases (((content.get "member").bind (·.get "id")).bind Json.asStr).filter (!·.isEmpty) with
  | some memberId => exact ⟨memberId, rfl⟩
  | none => exact ⟨participantIdentity sender deviceId, by simp [device, Json.asStr]⟩

theorem parseKeyMessage_object {content : Json} {keys : List (String × Json)}
    {deviceId roomId keyB64 : String} {index : UInt8}
    (stated : content.get "keys" = some (.obj keys))
    (device : content.get "device_id" = some (.str deviceId))
    (room : content.get "room_id" = some (.str roomId))
    (key : (Json.obj keys).get "key" = some (.str keyB64))
    (indexed : (Json.obj keys).get "index" = some (.num (.posInt index.toNat)))
    (sender : String) :
    ∃ memberId, parseKeyMessage sender content = some ⟨roomId, memberId, keyB64, index⟩ := by
  obtain ⟨memberId, named⟩ := statedMember_isSome device sender
  refine ⟨memberId, ?_⟩
  simp [parseKeyMessage, stated, named, room, key, indexed, Json.asStr, Json.asU64]

theorem rewriteKeyMessage_keyContent {messageType : String} (typed : messageType ∈ keyEventTypes)
    (ownDeviceId slotId roomId ownMemberId keyB64 : String) (index : UInt8) (now : ℕ) :
    ∃ legacy, rewriteKeyMessage ownDeviceId slotId messageType
        (keyContent roomId ownMemberId keyB64 index) now = some (legacyKeyEventType, legacy) ∧
      legacy.get "device_id" = some (.str ownDeviceId) ∧
      ∀ sender, ∃ memberId,
        parseKeyMessage sender legacy = some ⟨roomId, memberId, keyB64, index⟩ :=
  ⟨_, if_neg (not_not.mpr typed), rfl, parseKeyMessage_object rfl rfl rfl rfl rfl⟩

theorem statedContent_ids {d : RoomStateDialect} {spec : Json} {createdTs now : ℕ}
    {lifetimeMs : Option ℕ} :
    statedMembershipId (d.statedContent spec createdTs now lifetimeMs) =
        some (participantIdentity d.ownUserId d.ownDeviceId) ∧
      (d.statedContent spec createdTs now lifetimeMs).asObject.bind (nonEmptyField · "device_id") =
        (some d.ownDeviceId).filter (!·.isEmpty) := by
  have identity : (participantIdentity d.ownUserId d.ownDeviceId).isEmpty = false := by
    simp [participantIdentity]
  exact ⟨RoomStateRoundTrip.kept identity, rfl⟩

/-- Our key reaches our own membership, with what it was sent with. -/
theorem own_key_reaches {d : RoomStateDialect} {slotId memberId : String}
    {application : ApplicationInfo} {transports : MemberTransports} {lifetimeMs : Option ℕ}
    {publishedAt : ℕ} {events : List LegacyStateMemberEventIn} {now : ℕ}
    {event : LegacyStateMemberEventIn} {m : StateMembership}
    (content : event.content =
      (d.memberContent (joinContent slotId memberId application transports) lifetimeMs
        publishedAt).2)
    (translated : TranslatesTo events now event m) {messageType : String}
    (typed : messageType ∈ keyEventTypes) (roomId ownMemberId keyB64 : String) (index : UInt8)
    (sentAt : ℕ) {senderDeviceId : Option String}
    (device : ∀ id, senderDeviceId = some id → id = d.ownDeviceId) :
    ∃ legacy key, rewriteKeyMessage d.ownDeviceId d.slotId messageType
        (keyContent roomId ownMemberId keyB64 index) sentAt = some (legacyKeyEventType, legacy) ∧
      parseLegacyKey .roomState d.ownUserId senderDeviceId legacy = some key ∧
      memberIdOf m = some key.memberId ∧
      key.roomId = roomId ∧ key.keyB64 = keyB64 ∧ key.keyIndex = index := by
  obtain ⟨legacy, rewritten, names, parses⟩ := rewriteKeyMessage_keyContent typed d.ownDeviceId
    d.slotId roomId ownMemberId keyB64 index sentAt
  obtain ⟨stated, fields⟩ := parses d.ownUserId
  rw [memberContent_join] at content
  have claimed := claimedDeviceId_translated translated
  have bound := memberIdOf_translated translated
  rw [content] at claimed bound
  rw [statedContent_ids.2] at claimed
  rw [statedContent_ids.1, Option.getD_some] at bound
  have from_ : keyDevice senderDeviceId legacy = some d.ownDeviceId := by
    cases sender : senderDeviceId with
    | some id =>
        rw [device id sender]
        rfl
    | none =>
        obtain ⟨same, -⟩ := Option.filter_eq_some_iff.mp claimed
        have kept : (some d.ownDeviceId).filter (!·.isEmpty) = some d.ownDeviceId :=
          claimed.trans same.symm
        simp [keyDevice, claimedKeyDeviceId, names, Json.asStr, kept]
  exact ⟨legacy, _, rewritten, parseLegacyKey_roomState fields from_, bound, rfl, rfl, rfl⟩

/-- A peer's keys reach the membership of their device where the content states no other
`membershipID`, and ours always reach our own. -/
theorem keys_reach_members (events : List LegacyStateMemberEventIn) (now : ℕ)
    (event : LegacyStateMemberEventIn) (m : StateMembership) (senderDeviceId : Option String)
    (translated : TranslatesTo events now event m) :
    (∀ (content : Json) (fields : LegacyKeyMessage),
      parseKeyMessage event.sender content = some fields →
      keyDevice senderDeviceId content = some m.claimedDeviceId →
      ((∃ key, parseLegacyKey .roomState event.sender senderDeviceId content = some key ∧
          memberIdOf m = some key.memberId) ↔
        ∀ stated, statedMembershipId event.content = some stated →
          stated = participantIdentity event.sender m.claimedDeviceId)) ∧
    ∀ (d : RoomStateDialect) (slotId memberId : String) (application : ApplicationInfo)
      (transports : MemberTransports) (lifetimeMs : Option ℕ) (publishedAt : ℕ)
      (messageType roomId ownMemberId keyB64 : String) (index : UInt8) (sentAt : ℕ),
      event.content = (d.memberContent (joinContent slotId memberId application transports)
        lifetimeMs publishedAt).2 →
      messageType ∈ keyEventTypes → (∀ id, senderDeviceId = some id → id = d.ownDeviceId) →
      ∃ legacy key, rewriteKeyMessage d.ownDeviceId d.slotId messageType
          (keyContent roomId ownMemberId keyB64 index) sentAt =
            some (legacyKeyEventType, legacy) ∧
        parseLegacyKey .roomState d.ownUserId senderDeviceId legacy = some key ∧
        memberIdOf m = some key.memberId ∧
        key.roomId = roomId ∧ key.keyB64 = keyB64 ∧ key.keyIndex = index := by
  constructor
  · intro content fields parses device
    exact key_bound_iff translated parses device
  · intro d slotId memberId application transports lifetimeMs publishedAt messageType roomId
      ownMemberId keyB64 index sentAt content typed device
    exact own_key_reaches content translated typed roomId ownMemberId keyB64 index sentAt device

def callMember (membershipId : List (String × Json)) : LegacyStateMemberEventIn :=
  { eventId := none, sender := "@bob:x", stateKey := "_@bob:x_PHONE_m.call"
    originServerTs := 1000
    content := .obj ([("application", .str "m.call"), ("call_id", .str ""),
      ("device_id", .str "PHONE")] ++ membershipId) }

/-- A key from the same device, under the member id of its session. -/
def sessionsKey : Json :=
  .obj [("keys", .arr [.obj [("index", .num (.posInt 3)), ("key", .str "AAAA")]]),
    ("member", .obj [("id", .str "session")]), ("device_id", .str "PHONE"),
    ("room_id", .str "!room")]

def ourDialect : RoomStateDialect := .new "@alice:x" "TABLET" "!room" "m.call#room"

def ourMember : LegacyStateMemberEventIn :=
  { eventId := none, sender := "@alice:x", stateKey := ourDialect.stateKey, originServerTs := 1000
    content := (ourDialect.memberContent (joinContent "m.call#room" "member"
      ⟨some "m.call", []⟩ ⟨[], []⟩) none 1000).2 }

theorem keys_reach_members_unstated :
    (∃ key, parseLegacyKey .roomState "@bob:x" (some "PHONE") sessionsKey = some key ∧
      ((translateStateMemberships [callMember []] 2000).map memberIdOf) = [some key.memberId]) ∧
    ∃ legacy key, rewriteKeyMessage "TABLET" "m.call#room" "m.rtc.encryption_key"
        (keyContent "!room" "member" "BBBB" 7) 2000 = some (legacyKeyEventType, legacy) ∧
      parseLegacyKey .roomState "@alice:x" none legacy = some key ∧
      ((translateStateMemberships [ourMember] 2000).map memberIdOf) = [some key.memberId] ∧
      key.roomId = "!room" ∧ key.keyB64 = "BBBB" ∧ key.keyIndex = 7 := by
  have parses : parse (callMember []) 2000 = some (parsedFields (callMember [])
      [("application", .str "m.call"), ("call_id", .str ""), ("device_id", .str "PHONE")]
      "m.call" "PHONE") := by decide +kernel
  have reached := ((keys_reach_members [callMember []] 2000 (callMember []) _ (some "PHONE")
    ⟨_, parses, rfl⟩).1 sessionsKey ⟨"!room", "session", "AAAA", 3⟩ (by decide +kernel)
    rfl).mpr (by rintro stated ⟨⟩)
  obtain ⟨key, parsed, bound⟩ := reached
  have lives : (parse ourMember 2000).isSome := by decide +kernel
  obtain ⟨ours, parsesOurs⟩ := Option.isSome_iff_exists.mp lives
  have own := (keys_reach_members [ourMember] 2000 ourMember _ none ⟨ours, parsesOurs, rfl⟩).2
    ourDialect "m.call#room" "member" ⟨some "m.call", []⟩ ⟨[], []⟩ none 1000
    "m.rtc.encryption_key" "!room" "member" "BBBB" 7 2000 rfl (by decide) (by rintro id ⟨⟩)
  obtain ⟨legacy, key', rewritten, read, boundOurs, fields⟩ := own
  exact ⟨⟨key, parsed, by simp [translateStateMemberships, parses, ← bound]⟩,
    legacy, key', rewritten, read,
    by simp [translateStateMemberships, parsesOurs, ← boundOurs], fields⟩

/-- A membership that states another `membershipID` is not the one its device's keys reach,
even where they name that id. -/
theorem stated_id_not_reached :
    (translateStateMemberships [callMember [("membershipID", .str "session")]] 2000).map
        memberIdOf = [some "session"] ∧
      parseLegacyKey .roomState "@bob:x" (some "PHONE") sessionsKey =
        some ⟨"!room", "@bob:x:PHONE", "AAAA", 3⟩ := by
  decide +kernel

end MatrixRtc.LegacyKeyMessages

import MatrixRtc.MemberIngest
import MatrixRtc.BaseRooms
import MatrixRtc.StepRuns

/-!
# Feeding one room

The loop that applies what a client delivers for one room: its encryption, slot and
membership state, joined users and sticky events, one delivery at a time. Membership
waits until the room state it depends on has arrived, and is always applied whole.
Between deliveries the application joins, leaves and observes slots of the same
room, and the timer of a delayed-leave hold fires. Timeline events, redactions,
relations and the application's own sticky types are handed on and change nothing
here.
-/
namespace MatrixRtc.RoomFeeder
open JsonValues MemberEvents MemberContents MemberIngest RoomSlots SlotSessions BaseRooms

def memberEventTypes : List String := ["m.rtc.member", "org.matrix.msc4143.rtc.member"]

def slotEventType : String := "m.rtc.slot"

def slotEventTypes : List String := [slotEventType, "org.matrix.msc4143.rtc.slot"]

/-- One slot's state event under each spelling of the slot type. -/
structure SlotEvents where
  stable : Option EventIn
  unstable : Option EventIn
deriving DecidableEq

/-- The stable event where the room has one, else the unstable one. -/
def SlotEvents.current (s : SlotEvents) : Option EventIn := s.stable.or s.unstable

def SlotEvents.ofType (s : SlotEvents) (stable : Bool) (event : Option EventIn) : SlotEvents :=
  if stable then { s with stable := event } else { s with unstable := event }

/-- `entry(slot_id).or_default().of_type(stable) = Some(event)`. -/
def insertSlotEvent (stable : Bool) (slotId : String) (event : EventIn) :
    List (String × SlotEvents) → List (String × SlotEvents)
  | [] => [(slotId, (SlotEvents.mk none none).ofType stable (some event))]
  | (key, s) :: rest =>
      if key = slotId then (key, s.ofType stable (some event)) :: rest
      else (key, s) :: insertSlotEvent stable slotId event rest

/-- `replace_slot_events`: the complete set of one spelling; the other's are kept. -/
def replaceSlotEvents (slots : List (String × SlotEvents)) (stable : Bool)
    (events : List EventIn) : List (String × SlotEvents) :=
  let cleared := slots.map fun slot => (slot.1, slot.2.ofType stable none)
  let filled := events.foldl
    (fun slots event =>
      match event.stateKey with
      | some slotId => insertSlotEvent stable slotId event slots
      | none => slots)
    cleared
  filled.filter fun slot => slot.2.current.isSome

def parseSlotStatus : Json → Option SlotStatus :=
  variant (fun s => if s = "open" then some .open else if s = "closed" then some .closed else none)
    .unknown

def parseSlotEncryption (v : Json) : Option SlotEncryption := do
  let fields ← v.asObject
  let encryptionType ← (fields.lookup "type").bind Json.asStr
  return { encryptionType, extra := others "type" fields }

def parseRawSlotEventContent (v : Json) : Option RawSlotEventContent := do
  let field ← structFields ["status", "application", "encryption"] v
  let status ← optional parseSlotStatus (field "status")
  let application ← defaulted parseApplicationInfo ⟨none, []⟩ (field "application")
  let encryption ← optional parseSlotEncryption (field "encryption")
  return { status, application, encryption }

/-- `to_slot_event`: an unparseable content resolves closed rather than vanishing. -/
def toSlotEvent (roomId : String) (event : EventIn) : Option RawSlotEvent :=
  event.stateKey.map fun slotId =>
    { roomId := roomId
      slotId := slotId
      content := (parseRawSlotEventContent event.content).getD ⟨none, ⟨none, []⟩, none⟩ }

structure RoomFeederRun where
  room : BaseRtcRoom
  seeded : Bool
  seenEncryption : Bool
  seenMembers : Bool
  seenSlots : Bool
  slots : List (String × SlotEvents)
  sticky : Option (List EventIn)
  membershipState : List (String × List EventIn)
  membershipDirty : Bool

/-- What happens to the room next. The first four are deliveries. -/
inductive RoomInput where
  | sticky (events : List EventIn)
  | state (eventType : String) (events : List EventIn)
  | members (userIds : List String)
  | encryption (encrypted : Bool)
  | holdsEnded
  | joined (slotId : String) (own : OwnParticipation) (started : Bool)
  | left (slotId : String)
  | observed (slotId : String)
deriving DecidableEq

namespace RoomFeederRun

/-- A room opened and attached, before anything was delivered. -/
def start (roomId : String) : RoomFeederRun :=
  { room := .new roomId
    seeded := false
    seenEncryption := false
    seenMembers := false
    seenSlots := false
    slots := []
    sticky := none
    membershipState := []
    membershipDirty := false }

section
variable (dialect : IngestDialect) (ownUserId : String)

def onState (r : RoomFeederRun) (eventType : String) (events : List EventIn) : RoomFeederRun :=
  if eventType ∈ slotEventTypes then
    let slots := replaceSlotEvents r.slots (eventType == slotEventType) events
    let current := (slots.filterMap (·.2.current)).filterMap (toSlotEvent r.room.roomId)
    { r with slots := slots, room := r.room.onSlotsReceived current, seenSlots := true }
  else if eventType ∈ dialect.membershipStateEventTypes then
    { r with
      membershipState :=
        (eventType, events) :: r.membershipState.filter fun entry => entry.1 != eventType
      membershipDirty := true }
  else r

/-- A joined-members set without the account itself is not the room's. -/
def onMembers (r : RoomFeederRun) (userIds : List String) : RoomFeederRun :=
  if ownUserId ∈ userIds then
    { r with room := r.room.onMembersReceived userIds, seenMembers := true }
  else r

/-- Room state before membership. -/
def gateOpen (r : RoomFeederRun) : Bool :=
  r.seenEncryption && r.seenMembers && (!dialect.readsSlots || r.seenSlots)

/-- `apply_membership`: a failed application is logged, and not repeated. -/
def applyMembership (r : RoomFeederRun) (now : ℕ) : RoomFeederRun :=
  let current := dialect.currentMembership r.room.roomId (r.sticky.getD [])
    (r.membershipState.flatMap (·.2))
  { r with
    room := (r.room.setCurrentStickyState now current).1
    membershipDirty := false
    seeded := true }

/-- One input, up to the application of the membership it made dirty. -/
def onInput (r : RoomFeederRun) : RoomInput → RoomFeederRun
  | .encryption encrypted =>
      { r with room := r.room.onEncryptionReceived encrypted, seenEncryption := true }
  | .state eventType events => r.onState dialect eventType events
  | .members userIds => r.onMembers ownUserId userIds
  | .sticky events =>
      { r with
        sticky := some (events.filter fun event => event.eventType ∈ memberEventTypes)
        membershipDirty := true }
  | .holdsEnded | .joined .. | .left _ | .observed _ => r

/-- The feeder after a delivery. -/
def deliver (r : RoomFeederRun) (now : ℕ) (input : RoomInput) : RoomFeederRun :=
  let r := r.onInput dialect ownUserId input
  if r.membershipDirty && r.gateOpen dialect then r.applyMembership dialect now else r

/-- One step of the room at a clock reading. -/
def step (r : RoomFeederRun) : ℕ × RoomInput → Option RoomFeederRun
  | (now, .holdsEnded) => some { r with room := r.room.expireHolds now }
  | (_, .joined slotId own started) => some { r with room := r.room.join slotId own started }
  | (_, .left slotId) => some { r with room := r.room.leave slotId }
  | (_, .observed slotId) => some { r with room := r.room.observeSlot slotId }
  | (now, input) => some (r.deliver dialect ownUserId now input)

end

end RoomFeederRun

end MatrixRtc.RoomFeeder

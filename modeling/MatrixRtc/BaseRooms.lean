import MatrixRtc.SlotSessions

/-!
# One room and its slot sessions

A room routes its complete sticky state to one session a slot and pushes its own
state (slots, encryption, joined users) to every session. The session and slot maps
are functions of the slot id: each session is updated on its own, so the order in
which the source walks its maps does not show. Sending, key routing and the
listeners a publication reaches are not part of this state.
-/
namespace MatrixRtc.BaseRooms
open MemberEvents RoomSlots SlotSessions

structure BaseRtcRoom where
  roomId : String
  sessions : String → Option SlotSession
  slots : String → Option RawSlotEvent
  slotStateKnown : Bool
  roomEncryption : Option RoomEncryption
  roomMembers : Option (Finset String)

/-- The events of one complete state, by slot. -/
abbrev Batches := String → Option (List RtcMembershipEvent)

/-- `batches.entry(slot_id).or_default().push(event)`. -/
def Batches.push (batches : Batches) (slotId : String) (event : RtcMembershipEvent) : Batches :=
  fun slot =>
    if slot = slotId then some ((batches slot).getD [] ++ [event]) else batches slot

/-- The slot a membership event is filed under. -/
def slotOf : RtcMembershipEvent → String
  | .joined joined => joined.slotId
  | .left left => left.slotId

/-- `try_convert_membership_event`: an event of another type is skipped, a member
event without its required fields is an error. -/
def tryConvertMembershipEvent (e : RawStickyEvent) :
    Except EventConversionError (Option RtcMembershipEvent) :=
  match e.tryIntoMembershipEvent with
  | .ok event => .ok (some event)
  | .error (.unsupportedEventType _) => .ok none
  | .error err => .error err

namespace BaseRtcRoom

/-- A room nobody has said anything about. -/
def new (roomId : String) : BaseRtcRoom :=
  { roomId := roomId
    sessions := fun _ => none
    slots := fun _ => none
    slotStateKnown := false
    roomEncryption := none
    roomMembers := none }

def encryption (r : BaseRtcRoom) : RoomEncryption := r.roomEncryption.getD .unknown

/-- The resolved state of a slot, once the room's slots have been supplied. -/
def slotState (r : BaseRtcRoom) (slotId : String) : Option SlotState :=
  if r.slotStateKnown then
    some (((r.slots slotId).map fun slot => slot.resolve r.encryption).getD .closed)
  else none

/-- A session created now, seeded with the room state already held. -/
def seeded (r : BaseRtcRoom) (slotId : String) : SlotSession :=
  { SlotSession.new with
    slot := ((r.slotState slotId).map SlotKnowledge.known).getD .unsupplied
    roomMembers := r.roomMembers
    roomEncryption := r.encryption }

/-- The session for `slotId`, created if needed. -/
def sessionForSlot (r : BaseRtcRoom) (slotId : String) : SlotSession :=
  (r.sessions slotId).getD (r.seeded slotId)

/-- The routing loop: the first event that does not convert ends it. -/
def route (r : BaseRtcRoom) : Batches → List RawStickyEvent → Except EventConversionError Batches
  | batches, [] => .ok batches
  | batches, e :: rest =>
      if e.roomId ≠ r.roomId then r.route batches rest
      else
        match tryConvertMembershipEvent e with
        | .error err => .error err
        | .ok none => r.route batches rest
        | .ok (some event) => r.route (batches.push (slotOf event) event) rest

/-- Every tracked slot gets a batch, so that one missing from the state is cleared. -/
def track (r : BaseRtcRoom) (batches : Batches) : Batches :=
  fun slot => if (r.sessions slot).isSome then some ((batches slot).getD []) else batches slot

/-- Each batch replaces the state of its slot's session. -/
def applyBatches (r : BaseRtcRoom) (now : ℕ) (batches : Batches) : BaseRtcRoom :=
  { r with
    sessions := fun slot =>
      match batches slot with
      | some batch => some ((r.sessionForSlot slot).setCurrentState now batch)
      | none => r.sessions slot }

/-- `set_current_sticky_state`: the complete sticky state of the room, or an error
that leaves the room as it was. -/
def setCurrentStickyState (r : BaseRtcRoom) (now : ℕ) (events : List RawStickyEvent) :
    BaseRtcRoom × Except EventConversionError Unit :=
  match r.route (fun _ => none) events with
  | .error err => (r, .error err)
  | .ok batches => (r.applyBatches now (r.track batches), .ok ())

/-- Applies an operation to every session. -/
def mapSessions (r : BaseRtcRoom) (f : String → SlotSession → SlotSession) : BaseRtcRoom :=
  { r with sessions := fun slot => (r.sessions slot).map (f slot) }

def expireHolds (r : BaseRtcRoom) (now : ℕ) : BaseRtcRoom :=
  r.mapSessions fun _ s => s.expireHolds now

/-- `push_slot_state`: the resolved slots reach every session; a slot the room's
state does not name is closed. -/
def pushSlotState (r : BaseRtcRoom) : BaseRtcRoom :=
  r.mapSessions fun slot s =>
    match r.slotState slot with
    | some state => s.setSlotState state
    | none => s

/-- `slots.insert` for each slot of this room, the last one of an id standing. -/
def indexSlots (r : BaseRtcRoom) (slots : List RawSlotEvent) : String → Option RawSlotEvent :=
  slots.foldl
    (fun index slot =>
      if slot.roomId ≠ r.roomId then index
      else fun slotId => if slotId = slot.slotId then some slot else index slotId)
    fun _ => none

/-- `on_slots_received`: the room's complete slot state. -/
def onSlotsReceived (r : BaseRtcRoom) (slots : List RawSlotEvent) : BaseRtcRoom :=
  { r with slotStateKnown := true, slots := r.indexSlots slots }.pushSlotState

/-- `forget_slots`: the open-slot condition stops being enforced. -/
def forgetSlots (r : BaseRtcRoom) : BaseRtcRoom :=
  let forgotten := { r with slotStateKnown := false, slots := fun _ => none }
  if r.slotStateKnown then forgotten.mapSessions fun _ s => s.forgetSlotState else forgotten

/-- `on_encryption_received`: the slots resolve differently, and every session is told. -/
def onEncryptionReceived (r : BaseRtcRoom) (encrypted : Bool) : BaseRtcRoom :=
  let encryption := if encrypted then RoomEncryption.encrypted else .unencrypted
  if r.roomEncryption = some encryption then r
  else
    { r with roomEncryption := some encryption }.pushSlotState.mapSessions fun _ s =>
      s.setRoomEncryption encryption

/-- `on_members_received`. -/
def onMembersReceived (r : BaseRtcRoom) (joined : List String) : BaseRtcRoom :=
  { r with roomMembers := some joined.toFinset }.mapSessions fun _ s =>
    s.setRoomMembers joined.toFinset

/-- A join whose membership was sent, refused while the slot is known not to be open
and while the slot is joined already. -/
def join (r : BaseRtcRoom) (slotId : String) (own : OwnParticipation) (started : Bool) :
    BaseRtcRoom :=
  if (r.slotState slotId).any (fun state => !state.isOpen) then r
  else if (r.sessions slotId).any fun s => s.ownParticipation.isSome then r
  else
    { r with
      sessions := fun slot =>
        if slot = slotId then some ((r.sessionForSlot slotId).join own started)
        else r.sessions slot }

/-- A leave of one slot. -/
def leave (r : BaseRtcRoom) (slotId : String) : BaseRtcRoom :=
  r.mapSessions fun slot s =>
    if slot = slotId ∧ s.ownParticipation.isSome then s.leave else s

/-- `observe_slot`: the session of a slot, created if nobody was seen in it yet. -/
def observeSlot (r : BaseRtcRoom) (slotId : String) : BaseRtcRoom :=
  { r with
    sessions := fun slot =>
      if slot = slotId then some (r.sessionForSlot slotId) else r.sessions slot }

end BaseRtcRoom

end MatrixRtc.BaseRooms

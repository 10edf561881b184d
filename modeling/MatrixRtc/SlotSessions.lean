import MatrixRtc.RoomSlots
import Mathlib.Data.Finset.Basic

/-!
# One slot's session

The candidates a session holds (join-shaped member events still sticky), the
delayed leaves it holds back, and the joined set it publishes: the candidates that
meet the room's join conditions. Our own membership machine, the key distribution
that follows a publication and the leaves sent for previous participations act
outside this state. The machine is installed and taken together with our own
participation, so the participation stands for both.
-/
namespace MatrixRtc.SlotSessions
open MemberEvents RoomSlots

/-- `DELAYED_LEAVE_HOLD`, in milliseconds. -/
def delayedLeaveHold : ℕ := 10000

/-- What a session knows of the slot its members are joined to. -/
inductive SlotKnowledge where
  | unsupplied
  | known (state : SlotState)
deriving DecidableEq

/-- The slot is known and not open. -/
def SlotKnowledge.isClosed : SlotKnowledge → Bool
  | .unsupplied => false
  | .known state => !state.isOpen

structure OwnParticipation where
  userId : String
  deviceId : String
  memberId : String
deriving DecidableEq, Repr

/-- Why a candidate does or does not count as joined. -/
inductive JoinCondition where
  | joined
  | slotClosed
  | unencryptedInEncryptedRoom
  | supersededOwnParticipation
  | senderNotInRoom
deriving DecidableEq, Repr

structure SlotSession where
  candidates : List JoinedMembership
  held : List ((String × String) × ℕ)
  members : List JoinedMembership
  slot : SlotKnowledge
  roomMembers : Option (Finset String)
  roomEncryption : RoomEncryption
  ownParticipation : Option OwnParticipation
deriving DecidableEq

namespace SlotSession

/-- The empty session of a slot's first use. -/
def new : SlotSession :=
  { candidates := []
    held := []
    members := []
    slot := .unsupplied
    roomMembers := none
    roomEncryption := .unknown
    ownParticipation := none }

/-- The candidate stands under the sender and sticky key. -/
def under (key : String × String) (c : JoinedMembership) : Bool :=
  c.sender == key.1 && c.stickyKey == key.2

/-- Whether `left` is held rather than applied: a delayed leave firing, for anyone
but our own current participation. -/
def holds (s : SlotSession) (left : LeftMembership) : Bool :=
  left.leaveReason.any (fun reason => reason.code == .delayedLeave) &&
    !s.ownParticipation.any fun own => left.sender == own.userId && left.stickyKey == own.memberId

/-- `held.insert`: one entry a key. -/
def hold (s : SlotSession) (key : String × String) (till : ℕ) : SlotSession :=
  { s with held := (key, till) :: s.held.filter fun entry => entry.1 != key }

def unhold (s : SlotSession) (key : String × String) : SlotSession :=
  { s with held := s.held.filter fun entry => entry.1 != key }

/-- The candidate list with the one under the same key replaced, else appended. -/
def replaceOrPush (joined : JoinedMembership) : List JoinedMembership → List JoinedMembership
  | [] => [joined]
  | c :: rest =>
      if under (joined.sender, joined.stickyKey) c then joined :: rest
      else c :: replaceOrPush joined rest

/-- `record_membership_event`: one event against the candidates, publishing nothing.
A return inside the hold ends the hold; a held leave keeps its candidate. -/
def recordMembershipEvent (s : SlotSession) (now : ℕ) : RtcMembershipEvent → SlotSession
  | .joined joined =>
      let s := s.unhold (joined.sender, joined.stickyKey)
      { s with candidates := replaceOrPush joined s.candidates }
  | .left left =>
      let key := (left.sender, left.stickyKey)
      if s.candidates.any (under key) && s.holds left then
        if (s.held.lookup key).isSome then s else s.hold key (now + delayedLeaveHold)
      else
        let s := s.unhold key
        { s with candidates := s.candidates.filter fun c => !under key c }

/-- `join_condition`: an unsupplied slot, encryption or member list is not enforced. -/
def joinCondition (s : SlotSession) (c : JoinedMembership) : JoinCondition :=
  if s.slot.isClosed then .slotClosed
  else if s.roomEncryption = .encrypted ∧ c.origin.wasEncrypted = some false then
    .unencryptedInEncryptedRoom
  else if s.ownParticipation.any fun own =>
      c.sender == own.userId && c.origin.senderDeviceId == some own.deviceId &&
        c.memberId != own.memberId then
    .supersededOwnParticipation
  else if s.roomMembers.any fun joined => c.sender ∉ joined then .senderNotInRoom
  else .joined

/-- Recomputes the joined set. -/
def refresh (s : SlotSession) : SlotSession :=
  { s with members := s.candidates.filter fun c => s.joinCondition c == .joined }

/-- The candidate of the previous set that a delayed leave keeps, with that leave. -/
def heldCandidate (previous s : SlotSession) :
    RtcMembershipEvent → Option (JoinedMembership × LeftMembership)
  | .joined _ => none
  | .left left =>
      if s.holds left then
        (previous.candidates.find? (under (left.sender, left.stickyKey))).map (·, left)
      else none

/-- One event of a complete set: a delayed leave keeps the candidate it replaces on
the hold it had or a new one; anything else is recorded. -/
def rebuild (previous : SlotSession) (now : ℕ) (s : SlotSession) (event : RtcMembershipEvent) :
    SlotSession :=
  match heldCandidate previous s event with
  | some (candidate, left) =>
      let key := (left.sender, left.stickyKey)
      let till := (previous.held.lookup key).getD (now + delayedLeaveHold)
      { s.hold key till with candidates := s.candidates ++ [candidate] }
  | none => s.recordMembershipEvent now event

/-- `set_current_state`: the complete set of the slot replaces the candidates. -/
def setCurrentState (s : SlotSession) (now : ℕ) (events : List RtcMembershipEvent) : SlotSession :=
  (events.foldl (rebuild s now) { s with candidates := [], held := [] }).refresh

/-- Applies every delayed leave whose hold has ended. -/
def expireHolds (s : SlotSession) (now : ℕ) : SlotSession :=
  let expired := s.held.filter fun entry => entry.2 ≤ now
  if expired.isEmpty then s
  else
    { s with
      held := s.held.filter fun entry => !expired.any fun gone => gone.1 == entry.1
      candidates := s.candidates.filter fun c => !expired.any fun gone => under gone.1 c }.refresh

/-- `begin_leave`: our participation ends and the joined set is republished. -/
def leave (s : SlotSession) : SlotSession :=
  { s with ownParticipation := none }.refresh

/-- A join whose membership was sent: the participation is stored, and the joined set
is republished if the encryption manager started. -/
def join (s : SlotSession) (own : OwnParticipation) (started : Bool) : SlotSession :=
  let s := { s with ownParticipation := some own }
  if started then s.refresh else s

/-- `set_slot_state`: a slot closing under our own join leaves it. -/
def setSlotState (s : SlotSession) (state : SlotState) : SlotSession :=
  if s.slot = .known state then s
  else
    let s := { s with slot := .known state }
    if !state.isOpen && s.ownParticipation.isSome then s.leave else s.refresh

/-- `forget_slot_state`. -/
def forgetSlotState (s : SlotSession) : SlotSession :=
  if s.slot = .unsupplied then s else { s with slot := .unsupplied }.refresh

/-- `set_room_encryption`. -/
def setRoomEncryption (s : SlotSession) (encryption : RoomEncryption) : SlotSession :=
  if s.roomEncryption = encryption then s else { s with roomEncryption := encryption }.refresh

/-- `set_room_members`. -/
def setRoomMembers (s : SlotSession) (members : Finset String) : SlotSession :=
  if s.roomMembers = some members then s else { s with roomMembers := some members }.refresh

end SlotSession

end MatrixRtc.SlotSessions

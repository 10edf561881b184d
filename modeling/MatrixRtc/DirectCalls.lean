import MatrixRtc.MemberEvents
import MatrixRtc.StepRuns

/-!
# The lifecycle of a call in a DM

The ring, the pickup, the declines and the end of a one-to-one call, as the machine shared
by the slot's call state and the call's tasks decides them, and the job that sends the ring
and times it. A job's `select!` may take any of its branches that is ready.
-/
namespace MatrixRtc.DirectCalls
open MemberEvents JsonValues

/-- `DECLINE_EVENT_TYPES`. -/
def declineEventTypes : List String := ["org.matrix.msc4310.rtc.decline", "m.rtc.decline"]

/-- `RING_SEND_DEADLINE`. -/
def ringSendDeadline : ℕ := 10000

/-- `RING_RETRY_BACKOFF`; the last one repeats. -/
def ringRetryBackoff (attempt : ℕ) : ℕ :=
  match attempt with
  | 0 => 1000
  | 1 => 2000
  | _ => 4000

/-- `MAX_HELD_DECLINES`. -/
def maxHeldDeclines : ℕ := 8

structure RawTimelineEvent where
  roomId : String
  eventId : String
  sender : String
  origin : EventOrigin
  eventType : String
  originServerTs : ℕ
  content : Json
deriving DecidableEq

/-- `m.relates_to` is an `m.reference` to `eventId`. -/
def relatesTo (event : RawTimelineEvent) (eventId : String) : Bool :=
  let relation := event.content.get "m.relates_to"
  relation.bind (·.get "rel_type") == some (.str "m.reference") &&
    relation.bind (·.get "event_id") == some (.str eventId)

inductive DirectCallEnd where
  | declined
  | unanswered
  | ringNotSent
  | othersLeft
  | empty
  | left
deriving DecidableEq, Repr

inductive DirectCallState where
  | sending
  | ringing (sentAtMs lifetimeMs : ℕ)
  | inCall (sinceMs : ℕ)
  | ended (reason : DirectCallEnd)
deriving DecidableEq, Repr

/-- How far a call has got. -/
def DirectCallState.rank : DirectCallState → ℕ
  | .sending => 0
  | .ringing _ _ => 1
  | .inCall _ => 2
  | .ended _ => 3

structure DirectCall where
  ownUserId : String
  callee : String
  otherUserSeen : Bool
  ringEventId : Option String
  heldDeclines : List RawTimelineEvent
  state : DirectCallState

/-- A candidate whose sending device the host did not report counts as ours when the user
matches. -/
def isOwnParticipation (member : JoinedMembership) (userId ownDeviceId : String) : Bool :=
  member.sender == userId && member.origin.senderDeviceId.all (· == ownDeviceId)

/-- Where `join_direct` starts a call: `ring` if the user chose to call. -/
def initialState (members : List JoinedMembership) (userId deviceId : String) (ring : Bool)
    (now : ℕ) : DirectCallState :=
  if ring then
    if members.any fun member => !isOwnParticipation member userId deviceId then .inCall now
    else .sending
  else if members.any (·.sender != userId) then .inCall now
  else .ended .empty

namespace DirectCall

/-- `DirectCall::new`. -/
def new (ownUserId callee : String) (members : List JoinedMembership)
    (initial : DirectCallState) : DirectCall :=
  { ownUserId := ownUserId
    callee := callee
    otherUserSeen := members.any (·.sender != ownUserId)
    ringEventId := none
    heldDeclines := []
    state := initial }

/-- `update`: an ended call takes no transition. -/
def update (c : DirectCall) (f : DirectCall → DirectCall × Option DirectCallState) : DirectCall :=
  match c.state with
  | .ended _ => c
  | .sending | .ringing _ _ | .inCall _ =>
      let (c, next) := f c
      match next with
      | some state => { c with state := state }
      | none => c

/-- `on_roster`. -/
def onRoster (c : DirectCall) (members : List JoinedMembership) (now : ℕ) : DirectCall :=
  c.update fun c =>
    let c := { c with otherUserSeen := c.otherUserSeen || members.any (·.sender != c.ownUserId) }
    (c, match c.state with
      | .sending | .ringing _ _ =>
          if members.any (·.sender == c.callee) then some (.inCall now) else none
      | .inCall _ =>
          if c.otherUserSeen && members.all (·.sender == c.ownUserId) then
            some (.ended .othersLeft)
          else none
      | .ended _ => none)

/-- A decline from the callee. -/
def isDecline (c : DirectCall) (event : RawTimelineEvent) : Bool :=
  declineEventTypes.contains event.eventType && event.sender == c.callee

/-- A decline is held until the ring's id is known, one of each id and a handful at most. -/
def hold (held : List RawTimelineEvent) (decline : RawTimelineEvent) : List RawTimelineEvent :=
  if held.length < maxHeldDeclines && !held.any (·.eventId == decline.eventId) then
    held ++ [decline]
  else held

/-- `on_room_events`. -/
def onRoomEvents (c : DirectCall) (events : List RawTimelineEvent) : DirectCall :=
  c.update fun c =>
    let declines := events.filter c.isDecline
    match c.state with
    | .sending => ({ c with heldDeclines := declines.foldl hold c.heldDeclines }, none)
    | .ringing _ _ =>
        (c, match c.ringEventId with
          | some ring =>
              if declines.any (relatesTo · ring) then some (.ended .declined) else none
          | none => none)
    | .inCall _ | .ended _ => (c, none)

/-- `on_ring_sent`. -/
def onRingSent (c : DirectCall) (eventId : String) (sentAtMs lifetimeMs : ℕ) : DirectCall :=
  c.update fun c =>
    match c.state with
    | .sending =>
        ({ c with heldDeclines := [], ringEventId := some eventId },
          some (if c.heldDeclines.any (relatesTo · eventId) then .ended .declined
            else .ringing sentAtMs lifetimeMs))
    | .ringing _ _ | .inCall _ | .ended _ => (c, none)

/-- `on_ring_not_sent`. -/
def onRingNotSent (c : DirectCall) : DirectCall :=
  c.update fun c => (c, if c.state = .sending then some (.ended .ringNotSent) else none)

/-- `on_unanswered`. -/
def onUnanswered (c : DirectCall) : DirectCall :=
  c.update fun c =>
    (c, match c.state with
      | .ringing _ _ => some (.ended .unanswered)
      | .sending | .inCall _ | .ended _ => none)

/-- `finish_left`. -/
def finishLeft (c : DirectCall) : DirectCall := c.update fun c => (c, some (.ended .left))

def isRinging (c : DirectCall) : Bool :=
  match c.state with
  | .ringing _ _ => true
  | .sending | .inCall _ | .ended _ => false

end DirectCall

/-- Where `RingJob::run` stands: an attempt is due, is out, or is waited for, or the ring is
timed. -/
inductive RingJob where
  | due (attempt : ℕ)
  | sending (attempt : ℕ)
  | waiting (attempt wake : ℕ)
  | ringing (wake : ℕ)
  | done
deriving DecidableEq, Repr

/-- A DM call and its job. `delivered` has the room events the call was given, and `rung`
the id the homeserver answered an attempt with, and when. -/
structure System where
  now : ℕ
  lifetimeMs : ℕ
  call : DirectCall
  job : RingJob
  deadline : Option ℕ
  delivered : List RawTimelineEvent
  rung : Option (String × ℕ)

inductive Action where
  | tick (ms : ℕ)
  | roster (members : List JoinedMembership)
  | roomEvents (events : List RawTimelineEvent)
  | finishLeft
  | attempt
  | answered (eventId : Option String)
  | waited
  | deadline
  | leftState
  | unanswered

namespace System

/-- The deadline runs from the job's first attempt on. -/
def begin (s : System) (attempt : ℕ) : System :=
  { s with job := .sending attempt, deadline := some (s.deadline.getD (s.now + ringSendDeadline)) }

/-- The send answered with the ring's id: the ring is timed if the call still rings. -/
def ringSent (s : System) (eventId : String) : System :=
  let call := s.call.onRingSent eventId s.now s.lifetimeMs
  { s with
    call := call
    job := if call.isRinging then .ringing (s.now + s.lifetimeMs) else .done
    rung := some (eventId, s.now) }

/-- The job is still to get the ring out. -/
def unsent (s : System) : Bool :=
  match s.job with
  | .due _ | .sending _ | .waiting _ _ => true
  | .ringing _ | .done => false

end System

def step (s : System) : Action → Option System
  | .tick ms => some { s with now := s.now + ms }
  | .roster members => some { s with call := s.call.onRoster members s.now }
  | .roomEvents events =>
      some { s with call := s.call.onRoomEvents events, delivered := s.delivered ++ events }
  | .finishLeft => some { s with call := s.call.finishLeft }
  | .attempt =>
      match s.job with
      | .due attempt => some (s.begin attempt)
      | .sending _ | .waiting _ _ | .ringing _ | .done => none
  | .answered eventId =>
      match s.job, eventId with
      | .sending _, some eventId => some (s.ringSent eventId)
      | .sending attempt, none =>
          some { s with job := .waiting (attempt + 1) (s.now + ringRetryBackoff attempt) }
      | .due _, _ | .waiting _ _, _ | .ringing _, _ | .done, _ => none
  | .waited =>
      match s.job with
      | .waiting attempt wake => if wake ≤ s.now then some { s with job := .due attempt } else none
      | .due _ | .sending _ | .ringing _ | .done => none
  | .deadline =>
      if s.unsent && s.deadline.any (· ≤ s.now) then
        some { s with call := s.call.onRingNotSent, job := .done }
      else none
  | .leftState =>
      match s.job with
      | .due _ | .sending _ | .waiting _ _ =>
          if s.call.state = .sending then none else some { s with job := .done }
      | .ringing _ => if s.call.isRinging then none else some { s with job := .done }
      | .done => none
  | .unanswered =>
      match s.job with
      | .ringing wake =>
          if wake ≤ s.now then some { s with call := s.call.onUnanswered, job := .done } else none
      | .due _ | .sending _ | .waiting _ _ | .done => none

/-- A call joined with a ring, and who is in it then. -/
structure Setup where
  ownUserId : String
  ownDeviceId : String
  callee : String
  members : List JoinedMembership
  lifetimeMs : ℕ
  now : ℕ

def start (setup : Setup) : System :=
  let initial := initialState setup.members setup.ownUserId setup.ownDeviceId true setup.now
  { now := setup.now
    lifetimeMs := setup.lifetimeMs
    call := .new setup.ownUserId setup.callee setup.members initial
    job := if initial = .sending then .due 0 else .done
    deadline := none
    delivered := []
    rung := none }

end MatrixRtc.DirectCalls

import MatrixRtc.DirectCalls
import MatrixRtc.SessionEnds

/-!
# The status of a joined call

What a call's status is made of, and who reports to it: the media layer, the lifecycle of a
DM call, the session's end, and the followers of both and of a media loss. A call is joined
once here, and its session is kept. A follower's `select!` may take any branch that is ready.
-/
namespace MatrixRtc.CallStatuses
open MemberEvents DirectCalls SessionEnds

inductive RingPhase where
  | sending
  | ringing (sentAtMs lifetimeMs : ℕ)
deriving DecidableEq, Repr

inductive MediaPhase where
  | connecting
  | connected (degraded : Bool)
deriving DecidableEq, Repr

inductive ConnectionLossReason where
  | budget
  | refused
  | neverConnected
deriving DecidableEq, Repr

inductive CallEnd where
  | left
  | declined
  | unanswered
  | ringNotSent
  | othersLeft
  | empty
  | slotClosed
  | connectionClosed (reason : ConnectionLossReason) (message : String)
deriving DecidableEq, Repr

inductive CallStatus where
  | connecting
  | calling (callee : String) (ring : RingPhase) (media : MediaPhase)
  | connected (sinceMs : ℕ) (degraded : Bool)
  | ended (reason : CallEnd)
deriving DecidableEq, Repr

def CallStatus.isEnded : CallStatus → Bool
  | .ended _ => true
  | .connecting | .calling _ _ _ | .connected _ _ => false

/-- `impl From<DirectCallEnd> for CallEnd`. -/
def callEnd : DirectCallEnd → CallEnd
  | .declined => .declined
  | .unanswered => .unanswered
  | .ringNotSent => .ringNotSent
  | .othersLeft => .othersLeft
  | .empty => .empty
  | .left => .left

/-- `direct` has the callee and how far a DM call has got, and is none in a group call. -/
structure Inputs where
  media : MediaPhase
  direct : Option (String × DirectCallState)
  connectedSinceMs : Option ℕ
  ended : Option CallEnd
deriving DecidableEq

namespace Inputs

def new (direct : Option (String × DirectCallState)) : Inputs := ⟨.connecting, direct, none, none⟩

/-- The ring that is sent or rings. -/
def ring (i : Inputs) : Option (String × RingPhase) :=
  i.direct.bind fun (callee, state) =>
    match state with
    | .sending => some (callee, .sending)
    | .ringing sentAtMs lifetimeMs => some (callee, .ringing sentAtMs lifetimeMs)
    | .inCall _ | .ended _ => none

/-- `status`, which notes when the call was first connected. -/
def status (i : Inputs) (now : ℕ) : Inputs × CallStatus :=
  match i.ended with
  | some reason => (i, .ended reason)
  | none =>
      match i.ring, i.media with
      | some (callee, ring), media => (i, .calling callee ring media)
      | none, .connecting => (i, .connecting)
      | none, .connected degraded =>
          let since := i.connectedSinceMs.getD now
          ({ i with connectedSinceMs := some since }, .connected since degraded)

/-- `end`: the first one stands. -/
def finish (i : Inputs) (reason : CallEnd) : Inputs :=
  { i with ended := some (i.ended.getD reason) }

/-- `set_direct`. -/
def setDirect (i : Inputs) (state : DirectCallState) : Inputs :=
  let i := match state with
    | .ended reason => i.finish (callEnd reason)
    | .sending | .ringing _ _ | .inCall _ => i
  { i with direct := i.direct.map fun (callee, _) => (callee, state) }

end Inputs

/-- `published` has the values of the watch, `loss` the last media loss. -/
structure CallStatusCell where
  inputs : Inputs
  status : CallStatus
  published : List CallStatus
  loss : Option (ConnectionLossReason × String)
deriving DecidableEq

namespace CallStatusCell

/-- `from_inputs`. -/
def fromInputs (i : Inputs) (now : ℕ) : CallStatusCell :=
  let (inputs, status) := i.status now
  ⟨inputs, status, [status], none⟩

def new (now : ℕ) : CallStatusCell := fromInputs (.new none) now

/-- `new_direct`. -/
def newDirect (now : ℕ) (callee : String) (initial : DirectCallState) : CallStatusCell :=
  fromInputs ((Inputs.new (some (callee, initial))).setDirect initial) now

variable (c : CallStatusCell)

/-- `update`: a status that is the same is not published again. -/
def update (now : ℕ) (f : Inputs → Inputs) : CallStatusCell :=
  let (inputs, next) := (f c.inputs).status now
  if next = c.status then { c with inputs := inputs }
  else { c with inputs := inputs, status := next, published := c.published ++ [next] }

def onDirect (now : ℕ) (state : DirectCallState) : CallStatusCell :=
  c.update now (·.setDirect state)

def connectionClosed (now : ℕ) (reason : ConnectionLossReason) (message : String) :
    CallStatusCell :=
  c.update now (·.finish (.connectionClosed reason message))

def onSessionEnded (now : ℕ) (reason : LeaveReason) : CallStatusCell :=
  c.update now (·.finish (if reason.code = .slotClosed then .slotClosed else .left))

def setMedia (now : ℕ) (media : MediaPhase) : CallStatusCell :=
  c.update now fun i => { i with media := media }

/-- `degraded`: ignored until our media is connected. -/
def degraded (now : ℕ) (degraded : Bool) : CallStatusCell :=
  c.update now fun i =>
    match i.media with
    | .connected _ => { i with media := .connected degraded }
    | .connecting => i

def lost (reason : ConnectionLossReason) (message : String) : CallStatusCell :=
  { c with loss := some (reason, message) }

end CallStatusCell

/-- Where `follow_direct_call` stands. -/
inductive DirectFollower where
  | waiting
  | leaving
  | done
deriving DecidableEq, Repr

/-- Where `follow_media_loss` stands. -/
inductive LossFollower where
  | waiting
  | leaving (reason : ConnectionLossReason) (message : String)
  | issued (reason : ConnectionLossReason) (message : String)
  | done
deriving DecidableEq, Repr

/-- A joined call. `feeding` says that the feed has the room's lock in the sends of the core's
own leave, `told` that the session's follower is to read of that leave, and `leaving` that the
host's leave is to be issued. `cause` is the end of what first ended the participation. -/
structure Call where
  now : ℕ
  cell : CallStatusCell
  sessionEnd : SessionEnd
  joined : Bool
  direct : Option DirectCalls.System
  members : List JoinedMembership
  feeding : Bool
  told : Bool
  leaving : Bool
  followDirect : DirectFollower
  followLoss : LossFollower
  cause : Option CallEnd

inductive Action where
  | tick (ms : ℕ)
  | connected
  | degraded (degraded : Bool)
  | detached
  | lost (reason : ConnectionLossReason) (message : String)
  | direct (action : DirectCalls.Action)
  | roster (members : List JoinedMembership)
  | hostLeaves (reason : LeaveReason)
  | hostIssues
  | slotCloses
  | announced
  | autoFollowed
  | directFollows
  | directSeesOver
  | directLeaves
  | lossFollowed
  | lossSeesOver
  | lossLeaves
  | lossReported

/-- What the lifecycle does on its own: the room's events and the ring's job. -/
def ofLifecycle : DirectCalls.Action → Bool
  | .tick _ | .roster _ | .finishLeft => false
  | .roomEvents _ | .attempt | .answered _ | .waited | .deadline | .leftState | .unanswered => true

/-- The feed brings it, under the room's lock. -/
def ofFeed : DirectCalls.Action → Bool
  | .roomEvents _ | .roster _ => true
  | .tick _ | .finishLeft | .attempt | .answered _ | .waited | .deadline | .leftState
  | .unanswered => false

def endOf : DirectCallState → Option DirectCallEnd
  | .ended reason => some reason
  | .sending | .ringing _ _ | .inCall _ => none

/-- `DirectCallEnd::as_str`. -/
def directCallEndStr : DirectCallEnd → String
  | .declined => "declined"
  | .unanswered => "unanswered"
  | .ringNotSent => "ring_not_sent"
  | .othersLeft => "others_left"
  | .empty => "empty"
  | .left => "left"

namespace Call
variable (s : Call)

/-- What ended the participation is the first that did. -/
def blame (reason : CallEnd) : Call := { s with cause := some (s.cause.getD reason) }

/-- The lifecycle stands as in `d`, and tells the status if that is a transition. -/
def setDirect (d : DirectCalls.System) : Call :=
  if s.direct.map (·.call.state) = some d.call.state then { s with direct := some d }
  else { s with direct := some d, cell := s.cell.onDirect s.now d.call.state }

/-- A step of the lifecycle; where it ends the call, it is what ended it. -/
def stepDirect (d : DirectCalls.System) : Call :=
  let q := s.setDirect d
  match endOf d.call.state with
  | some reason => q.blame (callEnd reason)
  | none => q

/-- `finish_left`, of a DM call. -/
def finishLeft : Call :=
  match s.direct with
  | some d => s.setDirect { d with call := d.call.finishLeft }
  | none => s

/-- `SessionEnd::end`. -/
def endSession (reason : LeaveReason) : Call :=
  if s.sessionEnd.live then
    { s with
      cell := s.cell.onSessionEnded s.now reason
      sessionEnd := s.sessionEnd.endQuietly reason }
  else s

/-- `begin_leave`: the lifecycle is over first, and then the participation; an ended lifecycle
takes no notice of the members that are published without us. -/
def beginLeave : Call := { s.finishLeft with joined := false }

/-- The members without us, as the core publishes them where they change. -/
def publishMembers (members : List JoinedMembership) : Call :=
  if s.members = members then s
  else
    let q := { s with members := members }
    match q.direct.bind fun d => DirectCalls.step d (.roster members) with
    | some d => q.stepDirect d
    | none => q

end Call

/-- Where a join leaves a call. -/
def start (now : ℕ) (members : List JoinedMembership) (direct : Option DirectCalls.System) : Call :=
  let initial := direct.map (·.call)
  { now := now
    cell := match initial with
      | some call => .newDirect now call.callee call.state
      | none => .new now
    sessionEnd := .new, joined := true, direct := direct, members := members
    feeding := false, told := false, leaving := false
    followDirect := .waiting, followLoss := .waiting
    cause := (initial.bind fun call => endOf call.state).map callEnd }

def step (s : Call) : Action → Option Call
  | .tick ms =>
      some { s with
        now := s.now + ms
        direct := s.direct.map fun d => { d with now := d.now + ms } }
  | .connected => some { s with cell := s.cell.setMedia s.now (.connected false) }
  | .degraded degraded => some { s with cell := s.cell.degraded s.now degraded }
  | .detached => some { s with cell := s.cell.setMedia s.now .connecting }
  | .lost reason message => some { s with cell := s.cell.lost reason message }
  | .direct action =>
      if ofLifecycle action && !(ofFeed action && s.feeding) then
        (s.direct.bind fun d => DirectCalls.step d action).map s.stepDirect
      else none
  | .roster members => if s.feeding then none else some (s.publishMembers members)
  -- `RtcSession::leave`, which ends the session before it waits for the lock
  | .hostLeaves reason =>
      if s.sessionEnd.live then some { (s.endSession reason).blame .left with leaving := true }
      else none
  | .hostIssues =>
      if s.leaving && !s.feeding then some { s.beginLeave with leaving := false } else none
  -- `auto_leave`: the participation is over, and the roster of a closed slot is empty
  | .slotCloses =>
      if s.joined && !s.feeding then
        some (({ s with joined := false, feeding := true }.blame .slotClosed).publishMembers [])
      else none
  | .announced => if s.feeding then some { s with feeding := false, told := true } else none
  | .autoFollowed =>
      if s.told then some { s.endSession slotClosed with told := false } else none
  | .directFollows =>
      match s.followDirect, s.direct.bind fun d => endOf d.call.state with
      | .waiting, some reason =>
          if reason = .left then some { s with followDirect := .done }
          else if s.sessionEnd.live then
            some { s.endSession ⟨.leave, some (directCallEndStr reason)⟩ with
              followDirect := .leaving }
          else some { s with followDirect := .done }
      | _, _ => none
  | .directSeesOver =>
      if s.followDirect = .waiting ∧ s.direct.isSome ∧ s.sessionEnd.ended.isSome then
        some { s.finishLeft with followDirect := .done }
      else none
  | .directLeaves =>
      if s.followDirect = .leaving ∧ s.feeding = false then
        some { s.beginLeave with followDirect := .done }
      else none
  | .lossFollowed =>
      match s.followLoss, s.cell.loss with
      | .waiting, some (reason, message) =>
          if s.sessionEnd.live then
            some ({ s with
              sessionEnd := s.sessionEnd.endQuietly ⟨.other "connection_lost", some message⟩
              followLoss := .leaving reason message }.blame (.connectionClosed reason message))
          else some { s with followLoss := .done }
      | _, _ => none
  | .lossSeesOver =>
      if s.followLoss = .waiting ∧ s.sessionEnd.ended.isSome then
        some { s with followLoss := .done }
      else none
  | .lossLeaves =>
      match s.followLoss with
      | .leaving reason message =>
          if s.feeding then none
          else some { s.beginLeave with followLoss := .issued reason message }
      | .waiting | .issued _ _ | .done => none
  | .lossReported =>
      match s.followLoss with
      | .issued reason message =>
          some { s with
            cell := s.cell.connectionClosed s.now reason message, followLoss := .done }
      | .waiting | .leaving _ _ | .done => none

end MatrixRtc.CallStatuses

import MatrixRtc.Outboxes
import MatrixRtc.MemberEvents

/-!
# Our own membership

The machine that keeps one participation of ours alive, as the code its operations
run between two suspensions: what each reads and changes of the machine, and the send
it then waits on or its end. The operations are the join, the delayed leave's restart
and re-arming, the sticky refresh, the republishes, the recoveries and the leave. A
delayed leave is armed, restarted and cancelled through one send slot, and every
membership event goes through another.

Content that is the same in every event of the participation (room, slot, sticky key,
application) is left out of the events, and so are log lines, the jitter's random
source and the tick a host without a runtime drives itself.
-/
namespace MatrixRtc.OwnMembership
open HostAnswers MemberEvents Outboxes

inductive OwnMembershipState where
  | notJoined
  | joining
  | joined
  | leaving
  | left
deriving DecidableEq, Repr

structure KeepAliveInfo where
  delayedEventId : String
  timeoutMs : ℕ
  lastRestartMs : ℕ
deriving DecidableEq, Repr

inductive DelayedLeaveSupport where
  | unknown
  | supported
  | unsupported (lastProbeMs : ℕ) (permanent : Bool)
deriving DecidableEq, Repr

/-- `DELAYED_LEAVE_PROBE_INTERVAL_MS`. -/
def delayedLeaveProbeIntervalMs : ℕ := 300000

/-- `STICKY_REFRESH_FRACTION`. -/
def stickyRefreshFraction : ℕ := 3

/-- The content of a member event of ours. -/
inductive StickyContent where
  | join (transports : MemberTransports)
  | leave (reason : LeaveReason)
deriving DecidableEq

/-- The join content last put in the sticky map, and when it was accepted. -/
structure SentSticky where
  content : MemberTransports
  sentAtMs : ℕ
deriving DecidableEq

structure OwnMembershipMachine where
  state : OwnMembershipState
  keepAliveInfo : Option KeepAliveInfo
  keepAliveTimeoutMs : ℕ
  stickyDurationMs : ℕ
  degradedLifetimeMs : ℕ
  delayedSupport : DelayedLeaveSupport
  publishedLifetimeMs : ℕ
  lastSticky : Option SentSticky
  latestEventId : Option String
  lapsed : Bool
  awaitingCatchUp : Bool
  republishRequested : Bool
  departed : Bool
  refreshing : Bool
  arming : Bool
deriving DecidableEq

structure MembershipTimings where
  keepAliveTimeoutMs : ℕ
  stickyDurationMs : ℕ
  degradedLifetimeMs : ℕ
deriving DecidableEq, Repr

/-- What our sticky key holds in a complete membership set. -/
inductive OwnEntry where
  | absent
  | present (eventId : Option String)
deriving DecidableEq, Repr

namespace OwnMembershipMachine

def new (timings : MembershipTimings) : OwnMembershipMachine :=
  { state := .notJoined
    keepAliveInfo := none
    keepAliveTimeoutMs := timings.keepAliveTimeoutMs
    stickyDurationMs := timings.stickyDurationMs
    degradedLifetimeMs := timings.degradedLifetimeMs
    delayedSupport := .unknown
    publishedLifetimeMs := timings.stickyDurationMs
    lastSticky := none
    latestEventId := none
    lapsed := false
    awaitingCatchUp := false
    republishRequested := false
    departed := false
    refreshing := false
    arming := false }

variable (m : OwnMembershipMachine)

/-- When the delayed leave fires unless it is restarted. -/
def delayedDeadline : Option ℕ :=
  m.keepAliveInfo.map fun info => satAdd info.lastRestartMs info.timeoutMs

/-- When the sticky entry expires unless it is refreshed. -/
def stickyDeadline : Option ℕ :=
  m.lastSticky.map fun sticky => satAdd sticky.sentAtMs m.publishedLifetimeMs

/-- `lapse_at_ms`: the earlier of the two deadlines, while joined. -/
def lapseAtMs : Option ℕ :=
  if m.state ≠ .joined then none
  else
    match m.delayedDeadline, m.stickyDeadline with
    | some delayed, some sticky => some (min delayed sticky)
    | delayed, sticky => delayed.or sticky

/-- `update_lapsed`: the flag re-read against the clock. -/
def updateLapsed (now : ℕ) : OwnMembershipMachine :=
  { m with lapsed := m.lapseAtMs.any (· ≤ now) }

/-- `record_published`: a membership send that landed. -/
def recordPublished (now : ℕ) (content : MemberTransports) (eventId : String) :
    OwnMembershipMachine :=
  let m := { m with
    latestEventId := some eventId
    lastSticky := m.lastSticky.map fun sticky : SentSticky =>
      if sticky.content = content then { sticky with sentAtMs := now } else sticky }
  m.updateLapsed now

/-- `delayed_leave_overdue`: a whole delay has passed since the last restart. -/
def delayedLeaveOverdue (now : ℕ) : Bool :=
  m.delayedDeadline.any (· < now)

/-- `delayed_leave_probe_due`. -/
def delayedLeaveProbeDue (now : ℕ) : Bool :=
  match m.delayedSupport with
  | .unknown | .supported => true
  | .unsupported _ true => false
  | .unsupported lastProbeMs false => delayedLeaveProbeIntervalMs ≤ now - lastProbeMs

/-- A delayed leave armed now. -/
def storeArmed (now : ℕ) (delayedEventId : String) : OwnMembershipMachine :=
  { m with
    delayedSupport := .supported
    keepAliveInfo := some ⟨delayedEventId, m.keepAliveTimeoutMs, now⟩ }

/-- A restart that landed, if the delay is still the recorded one. -/
def recordRestarted (now : ℕ) (delayedEventId : String) : OwnMembershipMachine :=
  { m with
    keepAliveInfo := m.keepAliveInfo.map fun info =>
      if info.delayedEventId = delayedEventId then { info with lastRestartMs := now } else info }

/-- `mark_delayed_leave_unsupported`. -/
def markDelayedLeaveUnsupported (now : ℕ) (error : CommandError) : OwnMembershipMachine :=
  { m with delayedSupport := .unsupported now error.isDelayedEventsUnsupported }

/-- `on_own_departure`: a leave we did not send asks to be put back, unless it was
meant or a recovery's catch-up will see it. -/
def onOwnDeparture (reason : Option LeaveReason) : OwnMembershipMachine :=
  if m.state ≠ .joined ∨ m.awaitingCatchUp then m
  else if reason.any fun r => r.code ≠ .delayedLeave then m
  else { m with departed := true }

/-- `on_catch_up`: the first complete set after a recovery asks for a republish if it
lost our membership. -/
def onCatchUp (own : OwnEntry) : OwnMembershipMachine :=
  if m.state ≠ .joined ∨ !m.awaitingCatchUp then m
  else
    let m := { m with awaitingCatchUp := false }
    match own with
    | .absent => { m with republishRequested := true }
    | .present (some eventId) =>
        if m.latestEventId = some eventId then m else { m with republishRequested := true }
    | .present none => m

theorem onOwnDeparture_flags (reason : Option LeaveReason) :
    ∃ departed, m.onOwnDeparture reason = { m with departed := departed } := by
  unfold onOwnDeparture
  split_ifs
  · exact ⟨m.departed, rfl⟩
  · exact ⟨m.departed, rfl⟩
  · exact ⟨true, rfl⟩

theorem onCatchUp_flags (own : OwnEntry) : ∃ awaiting requested,
    m.onCatchUp own = { m with awaitingCatchUp := awaiting, republishRequested := requested } := by
  unfold onCatchUp
  dsimp only
  split_ifs
  · exact ⟨m.awaitingCatchUp, m.republishRequested, rfl⟩
  · split
    · exact ⟨false, true, rfl⟩
    · split_ifs
      · exact ⟨false, m.republishRequested, rfl⟩
      · exact ⟨false, true, rfl⟩
    · exact ⟨false, m.republishRequested, rfl⟩

end OwnMembershipMachine

/-- What the caller of a restart does once it landed. -/
inductive After where
  | nothing
  | catchUp
  | republish
deriving DecidableEq, Repr

/-- One send of an operation, with what it goes on with. -/
inductive Work where
  | restart (info : KeepAliveInfo) (next : After)
  | armIfDue
  | rearm
  | republishRearmed (content : MemberTransports)
  | republish (content : MemberTransports)
  | refresh (content : MemberTransports)
  | joinArm (content : MemberTransports) (deadline : ℕ)
  | join (content : MemberTransports)
  | leave (reason : LeaveReason)
  | cancel (delayedEventId : String)
  | cancelArmed (delayedEventId : String)
deriving DecidableEq

/-- A request to the host. -/
inductive Request where
  | sendDelayedStickyEvent
  | restartDelayedEvent (delayedEventId : String)
  | cancelDelayedEvent (delayedEventId : String)
  | sendStickyEvent (content : StickyContent)
deriving DecidableEq

namespace Work

def kind : Work → SendKind
  | restart .. | armIfDue | rearm | joinArm .. | cancel _ | cancelArmed _ => .delayedLeave
  | republishRearmed _ | republish _ | refresh _ | join _ | leave _ => .membership

def request : Work → Request
  | restart info _ => .restartDelayedEvent info.delayedEventId
  | armIfDue | rearm | joinArm .. => .sendDelayedStickyEvent
  | cancel id | cancelArmed id => .cancelDelayedEvent id
  | republishRearmed content | republish content | refresh content | join content =>
      .sendStickyEvent (.join content)
  | leave reason => .sendStickyEvent (.leave reason)

end Work

/-- A flag taken while an operation runs, cleared when it ends or is dropped. -/
inductive Busy where
  | none
  | arming
  | refreshing
deriving DecidableEq, Repr

def Work.busy : Work → Busy
  | .armIfDue | .rearm | .republishRearmed _ => .arming
  | .refresh _ => .refreshing
  | .restart .. | .republish _ | .joinArm .. | .join _ | .leave _ | .cancel _ | .cancelArmed _ =>
      .none

def OwnMembershipMachine.free (m : OwnMembershipMachine) : Busy → OwnMembershipMachine
  | .none => m
  | .arming => { m with arming := false }
  | .refreshing => { m with refreshing := false }

@[simp] theorem free_state (m : OwnMembershipMachine) (busy : Busy) :
    (m.free busy).state = m.state := by
  cases busy <;> rfl

/-- Where a send stands: waiting for its slot, past the first half of a claim, with an
attempt at the host, or waiting to retry. -/
inductive Phase where
  | waiting
  | checked
  | calling (call giveUpAt : ℕ)
  | backingOff (wakeAt epoch : ℕ)
deriving DecidableEq, Repr

structure Send where
  generation : ℕ
  policy : SendPolicy
  backoff : ℕ
  last : Option CommandError
  work : Work
  phase : Phase
deriving DecidableEq

/-- An operation whose future exists and has not been polled. -/
inductive Operation where
  | restart (clockFallback : Bool) (next : After)
  | refresh
  | recover (jitter : ℕ)
  | recoverDeparture
  | republish
  | cancelArmed (delayedEventId : String)
deriving DecidableEq, Repr

inductive Task where
  | created (operation : Operation)
  | jitter (wakeAt : ℕ)
  | sending (send : Send)
deriving DecidableEq

/-- What a segment of an operation leaves: the machine, the slots, how the operation
goes on, and the delay a failed join hands to a task of its own. -/
structure Segment where
  machine : OwnMembershipMachine
  outbox : Outbox
  task : Option Task
  spawned : Option String

section
variable (m : OwnMembershipMachine) (o : Outbox) (now : ℕ)

/-- The operation ends. -/
def finished : Segment := ⟨m, o, none, none⟩

/-- `Outbox::send` up to its first suspension. -/
def startSend (work : Work) (policy : SendPolicy) : Segment :=
  let o := o.beginSend work.kind
  ⟨m, o, some (.sending ⟨(o.slot work.kind).generation, policy, backoffInitial, none, work,
    .waiting⟩), none⟩

/-- `begin_if_joined`, then the send; the operation ends when not joined. -/
def startIfJoined (work : Work) (policy : SendPolicy) : Segment :=
  if m.state = .joined then startSend m o work policy else finished (m.free work.busy) o

/-- `republish`, alone or as the end of a re-arm. -/
def republish (rearmed : Bool) : Segment :=
  match m.lastSticky with
  | none => finished (if rearmed then m.free .arming else m) o
  | some sticky =>
      startIfJoined m o (if rearmed then .republishRearmed sticky.content
        else .republish sticky.content) .new

/-- `arm_if_due`. -/
def armIfDue : Segment :=
  if !m.delayedLeaveProbeDue now ∨ m.arming then finished m o
  else startIfJoined { m with arming := true } o .armIfDue .single

/-- `rearm_and_republish`: the record is cleared before the new arm is sent. -/
def rearmAndRepublish : Segment :=
  if m.arming then finished m o
  else startIfJoined { m with arming := true, keepAliveInfo := none } o .rearm .new

/-- `restart`. -/
def restart (clockFallback : Bool) (next : After) : Segment :=
  match m.keepAliveInfo with
  | none => armIfDue m o now
  | some info =>
      if clockFallback && m.delayedLeaveOverdue now then rearmAndRepublish m o
      else startIfJoined m o (.restart info next) .new

/-- `refresh_if_due`. -/
def refreshIfDue : Segment :=
  match m.lastSticky with
  | none => finished m o
  | some sticky =>
      if now - sticky.sentAtMs < m.publishedLifetimeMs / stickyRefreshFraction ∨ m.refreshing then
        finished m o
      else startIfJoined { m with refreshing := true } o (.refresh sticky.content) .new

/-- `recover` after its wait. -/
def recoverNow : Segment :=
  if m.state ≠ .joined then finished m o
  else if m.keepAliveInfo.isSome then restart m o now false .catchUp
  else finished { m with awaitingCatchUp := true } o

/-- `recover_departure`. -/
def recoverDeparture : Segment :=
  if m.state ≠ .joined then finished m o
  else if m.keepAliveInfo.isSome then restart m o now false .republish
  else republish m o false

/-- `republish_transports`: the content that refreshes from then on names the new
transport, and is republished. -/
def republishTransports (transport : RawRtcTransport) : Segment :=
  match m.lastSticky with
  | none => finished m o
  | some sticky =>
      if sticky.content.published.isEmpty then finished m o
      else
        let content := { sticky.content with published := [transport] }
        republish { m with lastSticky := some { sticky with content := content } } o false

/-- `join`: the delayed leave is armed first, with half of the budget. -/
def join (transports : MemberTransports) (deadline : ℕ) : Segment :=
  startSend { m with state := .joining } o (.joinArm transports deadline)
    (SendPolicy.single.until (now + (deadline - now) / 2))

/-- `begin_leave`: no send registers from here on, and the pending ones end. -/
def beginLeave : OwnMembershipMachine × Outbox :=
  if m.state = .leaving ∨ m.state = .left then (m, o)
  else ({ m with state := .leaving }.updateLapsed now, o.cancelScope)

/-- `leave`. -/
def leave (reason : Option LeaveReason) : Segment :=
  let (m, o) := beginLeave m o now
  startSend m o (.leave (reason.getD ⟨.leave, none⟩)) .single

/-- The first segment of an operation. -/
def startOperation : Operation → Segment
  | .restart clockFallback next => restart m o now clockFallback next
  | .refresh => refreshIfDue m o now
  | .recover jitter => ⟨m, o, some (.jitter (now + jitter)), none⟩
  | .recoverDeparture => recoverDeparture m o now
  | .republish => republish m o false
  | .cancelArmed id => startSend m o (.cancelArmed id) .single

/-- `is_not_found`. -/
def isNotFound (error : CommandError) : Bool :=
  error.backendError.any fun e => e.errcode == some "M_NOT_FOUND"

/-- After a restart that landed. -/
def afterRestart : After → Segment
  | .nothing => finished m o
  | .catchUp => finished { m with awaitingCatchUp := true } o
  | .republish => republish m o false

/-- After the arm of a re-arm: a refused one still republishes. -/
def afterRearm : Except SendFailure String → Segment
  | .ok id => republish ((m.storeArmed now id).updateLapsed now) o true
  | .error .superseded | .error .cancelled => finished (m.free .arming) o
  | .error failure =>
      republish (m.markDelayedLeaveUnsupported now failure.intoCommandError) o true

/-- After the join's membership send; a join that failed hands over its delay. -/
def afterJoin (content : MemberTransports) : Except SendFailure String → Segment
  | .ok eventId =>
      finished
        { m with
          lastSticky := some ⟨content, now⟩
          latestEventId := some eventId
          state := .joined }
        o
  | .error _ =>
      ⟨{ m with state := .notJoined, keepAliveInfo := none }, o, none,
        m.keepAliveInfo.map KeepAliveInfo.delayedEventId⟩

/-- After the leave's membership send: the delayed leave is cancelled. -/
def afterLeave : Except SendFailure String → Segment
  | .ok _ =>
      let m := { m with lastSticky := none, latestEventId := none }
      match m.keepAliveInfo with
      | some info => startSend m o (.cancel info.delayedEventId) .single
      | none => finished { m with state := .left } o
  | .error _ => finished m o

/-- What an operation does with the result of its send. -/
def settle (work : Work) (result : Except SendFailure String) : Segment :=
  match work with
  | .restart info next =>
      match result with
      | .ok _ => afterRestart ((m.recordRestarted now info.delayedEventId).updateLapsed now) o next
      | .error (.refused error) =>
          if isNotFound error then rearmAndRepublish m o else finished m o
      | .error _ => finished m o
  | .armIfDue =>
      match result with
      | .ok id => finished (((m.storeArmed now id).updateLapsed now).free .arming) o
      | .error .superseded | .error .cancelled => finished (m.free .arming) o
      | .error failure =>
          finished ((m.markDelayedLeaveUnsupported now failure.intoCommandError).free .arming) o
  | .rearm => afterRearm m o now result
  | .republishRearmed content | .republish content | .refresh content =>
      match result with
      | .ok eventId => finished ((m.recordPublished now content eventId).free work.busy) o
      | .error _ => finished (m.free work.busy) o
  | .joinArm content deadline =>
      let m := match result with
        | .ok id => m.storeArmed now id
        | .error failure =>
            { m.markDelayedLeaveUnsupported now failure.intoCommandError with
              publishedLifetimeMs := m.degradedLifetimeMs }
      startSend m o (.join content) (SendPolicy.new.until (max deadline now))
  | .join content => afterJoin m o now content result
  | .leave _ => afterLeave m o result
  | .cancel _ => finished { m with keepAliveInfo := none, state := .left } o
  | .cancelArmed _ => finished m o

end

end MatrixRtc.OwnMembership

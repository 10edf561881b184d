import MatrixRtc.OwnMembership
import MatrixRtc.StepRuns

/-!
# One participation's operations, interleaved

The machine, its outbox and the operations under way, each suspended where it waits:
not polled yet, for a recovery's jitter, for its slot, for the host's answer or for a
retry. The upkeep starts and drops the operations it holds, the application joins,
leaves and moves transports. Code between two suspensions is one step; the claim of a
slot, which takes its lock twice, is two. A call abandoned by a dropped operation or a
timeout stays with the host, which may answer it later.

Wake-ups are not tied to what causes them: the beat, the lapse timer, signalling coming
back and an online report may come at any time, and an attempt that is out of time is
given up when its timer fires, not before. The key flush of a beat and the key retries
send through slots of their own and are left out.
-/
namespace MatrixRtc.MembershipUpkeep
open HostAnswers MemberEvents Outboxes OwnMembership

/-- Who holds an operation's future: the first five are the upkeep's. -/
inductive Owner where
  | restart
  | refresh
  | recover
  | republish
  | departure
  | join
  | leave
  | transport (n : ℕ)
  | detached
deriving DecidableEq, Repr

def Owner.isUpkeep : Owner → Bool
  | .restart | .refresh | .recover | .republish | .departure => true
  | .join | .leave | .transport _ | .detached => false

/-- A call at the host, with its answer and when it came. -/
structure HostCall where
  request : Request
  caller : Owner
  startedAt : ℕ
  answer : Option (ℕ × Except CommandError String)

structure System where
  machine : OwnMembershipMachine
  outbox : Outbox
  tasks : Owner → Option Task
  calls : ℕ → Option HostCall
  nextCall : ℕ
  now : ℕ
  upkeep : Bool

/-- How an operation goes on from where it is suspended. -/
inductive TaskEvent where
  | poll
  | jitterOver
  | check
  | take
  | wake
  | giveUp
  | timeOut
deriving DecidableEq, Repr

inductive Action where
  | tick (ms : ℕ)
  | online
  | spawnUpkeep
  | beat
  | lapseCheck
  | recovered (jitter : ℕ)
  | wakeDeparture
  | wakeRepublish
  | task (o : Owner) (event : TaskEvent)
  | answer (call : ℕ) (answer : Except CommandError String)
  | ownDeparture (reason : Option LeaveReason)
  | catchUp (own : OwnEntry)
  | moveTransports (n : ℕ) (transport : RawRtcTransport)
  | beginLeave
  | leave (reason : Option LeaveReason)
  | dropFuture (o : Owner)
  | abortUpkeep

namespace System

def setTask (s : System) (o : Owner) (task : Option Task) : System :=
  { s with tasks := fun o' => if o' = o then task else s.tasks o' }

/-- The operation of `o` ran a segment. -/
def resume (s : System) (o : Owner) (g : Segment) : System :=
  let s := { s with machine := g.machine, outbox := g.outbox }.setTask o g.task
  match g.spawned with
  | some delayedEventId => s.setTask .detached (some (.created (.cancelArmed delayedEventId)))
  | none => s

/-- A machine whose join is called at `now`, the first thing a machine does. -/
def start (timings : MembershipTimings) (transports : MemberTransports) (deadline : ℕ)
    (now : UInt64) : System :=
  { machine := .new timings
    outbox := .new
    tasks := fun _ => none
    calls := fun _ => none
    nextCall := 0
    now := now.toNat
    upkeep := false : System }.resume .join
      (OwnMembership.join (.new timings) .new now.toNat transports deadline)

/-- The attempt of a send is over: its slot is free for another. -/
def release (s : System) (kind : SendKind) : System :=
  { s with outbox := s.outbox.update kind fun slot => { slot with inFlight := false } }

/-- The send's result reaches its operation. -/
def settleSend (s : System) (o : Owner) (send : Send) (result : Except SendFailure String) :
    System :=
  s.resume o (settle s.machine s.outbox s.now send.work result)

/-- After an attempt: the send ends, is settled or waits for a retry. -/
def endAttempt (s : System) (o : Owner) (send : Send) (outcome : AttemptOutcome) : System :=
  let s := s.release send.work.kind
  match (s.outbox.slot send.work.kind).ended send.generation with
  | some failure => s.settleSend o send (.error failure)
  | none =>
      match judge send.policy send.backoff s.now send.last outcome with
      | .done result => s.settleSend o send result
      | .retry delay last =>
          s.setTask o (some (.sending { send with
            backoff := min (send.backoff * 2) backoffMax
            last := last
            phase := .backingOff (s.now + delay) s.outbox.onlineEpoch }))

/-- A future dropped where it stands: its flag is cleared and its slot is freed, and
its call is left to the host. -/
def drop (s : System) (o : Owner) : System :=
  match s.tasks o with
  | some (.sending send) =>
      let s := { s with machine := s.machine.free send.work.busy }
      let s := match send.phase with
        | .calling _ _ => s.release send.work.kind
        | _ => s
      s.setTask o none
  | _ => s.setTask o none

/-- The upkeep ends, and drops the operations it holds. -/
def stopUpkeep (s : System) : System :=
  { ((((s.drop .restart).drop .refresh).drop .recover).drop .republish).drop .departure with
    upkeep := false }

/-- An operation the upkeep starts where it holds none of the kind. -/
def startIfIdle (s : System) (o : Owner) (operation : Operation) : System :=
  if (s.tasks o).isNone then s.setTask o (some (.created operation)) else s

/-- The beat, up to the key flush. -/
def beat (s : System) : System :=
  if s.machine.state ≠ .joined then s.stopUpkeep
  else
    let s :=
      if (s.tasks .restart).isNone ∨ s.machine.delayedLeaveOverdue s.now then
        (s.drop .restart).setTask .restart (some (.created (.restart true .nothing)))
      else s
    s.startIfIdle .refresh .refresh

/-- The first half of a claim: the send has ended, or is checked. -/
def check (s : System) (o : Owner) (send : Send) : System :=
  match (s.outbox.slot send.work.kind).ended send.generation with
  | some failure => s.settleSend o send (.error failure)
  | none => s.setTask o (some (.sending { send with phase := .checked }))

/-- The second half: the slot is busy, or the attempt starts. -/
def take (s : System) (o : Owner) (send : Send) : System :=
  if (s.outbox.slot send.work.kind).inFlight then
    s.setTask o (some (.sending { send with phase := .waiting }))
  else
    { s with
      outbox := s.outbox.update send.work.kind fun slot => { slot with inFlight := true }
      calls := fun n =>
        if n = s.nextCall then some ⟨send.work.request, o, s.now, none⟩ else s.calls n
      nextCall := s.nextCall + 1 }.setTask o
      (some (.sending { send with
        phase := .calling s.nextCall (s.now + send.policy.budget s.now) }))

def recordAnswer (s : System) (n : ℕ) (call : HostCall) (result : Except CommandError String) :
    System :=
  { s with
    calls := fun k =>
      if k = n then some { call with answer := some (s.now, result) } else s.calls k }

/-- The host answers a call, and the operation still waiting for it goes on. -/
def answer (s : System) (n : ℕ) (call : HostCall) (result : Except CommandError String) :
    System :=
  let s := s.recordAnswer n call result
  match s.tasks call.caller with
  | some (.sending send) =>
      match send.phase with
      | .calling k _ => if k = n then s.endAttempt call.caller send (.answered result) else s
      | _ => s
  | _ => s

/-- `begin_leave` of a joined machine. -/
def beginLeave (s : System) : System :=
  let (machine, outbox) := OwnMembership.beginLeave s.machine s.outbox s.now
  { s with machine := machine, outbox := outbox }

/-- A step of an operation that is suspended in a send. -/
def stepSend (s : System) (o : Owner) (send : Send) : TaskEvent → Option System
  | .check => if send.phase = .waiting then some (s.check o send) else none
  | .take => if send.phase = .checked then some (s.take o send) else none
  | .wake =>
      match send.phase with
      | .backingOff wakeAt epoch =>
          if wakeAt ≤ s.now ∨ s.outbox.onlineEpoch ≠ epoch ∨
              ((s.outbox.slot send.work.kind).ended send.generation).isSome then
            some (s.setTask o (some (.sending { send with phase := .waiting })))
          else none
      | _ => none
  | .giveUp =>
      match send.phase with
      | .waiting | .backingOff _ _ =>
          if send.policy.overdue s.now then
            some (s.settleSend o send (.error (.deadlineElapsed send.last)))
          else none
      | _ => none
  | .timeOut =>
      match send.phase with
      | .calling _ giveUpAt =>
          if giveUpAt ≤ s.now then some (s.endAttempt o send .elapsed) else none
      | _ => none
  | .poll | .jitterOver => none

/-- A step of an operation, wherever it is suspended. -/
def stepTask (s : System) (o : Owner) (event : TaskEvent) : Option System :=
  match s.tasks o, event with
  | some (.created operation), .poll =>
      some (s.resume o (startOperation s.machine s.outbox s.now operation))
  | some (.jitter wakeAt), .jitterOver =>
      if wakeAt ≤ s.now then some (s.resume o (recoverNow s.machine s.outbox s.now)) else none
  | some (.sending send), event => s.stepSend o send event
  | _, _ => none

/-- One step of the participation. -/
def step (s : System) : Action → Option System
  | .tick ms => if s.now + ms ≤ u64Max then some { s with now := s.now + ms } else none
  | .online => some { s with outbox := { s.outbox with onlineEpoch := s.outbox.onlineEpoch + 1 } }
  | .spawnUpkeep => if s.machine.state = .joined then some { s with upkeep := true } else none
  | .beat => if s.upkeep then some s.beat else none
  | .lapseCheck =>
      if s.upkeep then some { s with machine := s.machine.updateLapsed s.now } else none
  | .recovered jitter =>
      if s.upkeep then some (s.startIfIdle .recover (.recover jitter)) else none
  | .wakeDeparture =>
      if s.upkeep ∧ s.machine.departed then
        some ({ s with machine := { s.machine with departed := false } }.startIfIdle .departure
          .recoverDeparture)
      else none
  | .wakeRepublish =>
      if s.upkeep ∧ s.machine.republishRequested then
        some ({ s with machine := { s.machine with republishRequested := false } }.startIfIdle
          .republish .republish)
      else none
  | .task o event => s.stepTask o event
  | .answer n result =>
      match s.calls n with
      | some call => if call.answer.isNone then some (s.answer n call result) else none
      | none => none
  | .ownDeparture reason => some { s with machine := s.machine.onOwnDeparture reason }
  | .catchUp own => some { s with machine := s.machine.onCatchUp own }
  | .moveTransports n transport =>
      if (s.tasks (.transport n)).isNone then
        some (s.resume (.transport n) (republishTransports s.machine s.outbox transport))
      else none
  | .beginLeave => if s.machine.state = .joined then some s.beginLeave else none
  | .leave reason =>
      if (s.machine.state = .joined ∨ s.machine.state = .leaving) ∧ (s.tasks .leave).isNone then
        some (s.resume .leave (OwnMembership.leave s.machine s.outbox s.now reason))
      else none
  | .dropFuture o =>
      if o.isUpkeep ∨ o = .detached then none else some (s.drop o)
  | .abortUpkeep => if s.upkeep then some s.stopUpkeep else none

/-- The calls made so far and the clock. -/
def host (s : System) : (ℕ → Option HostCall) × ℕ × ℕ := (s.calls, s.nextCall, s.now)

section
variable {s : System} {o : Owner}

@[simp] theorem setTask_tasks {task : Option Task} {o' : Owner} :
    (s.setTask o task).tasks o' = if o' = o then task else s.tasks o' := rfl

@[simp] theorem setTask_host {task : Option Task} : (s.setTask o task).host = s.host := rfl

@[simp] theorem setTask_machine {task : Option Task} : (s.setTask o task).machine = s.machine := rfl

@[simp] theorem release_tasks {kind : SendKind} : (s.release kind).tasks = s.tasks := rfl

@[simp] theorem release_host {kind : SendKind} : (s.release kind).host = s.host := rfl

@[simp] theorem release_machine {kind : SendKind} : (s.release kind).machine = s.machine := rfl

@[simp] theorem resume_host {g : Segment} : (s.resume o g).host = s.host := by
  unfold resume
  cases g.spawned <;> rfl

@[simp] theorem resume_machine {g : Segment} : (s.resume o g).machine = g.machine := by
  unfold resume
  cases g.spawned <;> rfl

theorem start_host (timings : MembershipTimings) (transports : MemberTransports) (deadline : ℕ)
    (now : UInt64) : (start timings transports deadline now).host =
      (fun _ => none, 0, now.toNat) := resume_host

theorem resume_tasks {g : Segment} (here : g.spawned = none) {o' : Owner} :
    (s.resume o g).tasks o' = if o' = o then g.task else s.tasks o' := by
  simp [resume, here]

theorem resume_tasks_other {g : Segment} {o' : Owner} (other : o' ≠ o) (attached : o' ≠ .detached) :
    (s.resume o g).tasks o' = s.tasks o' := by
  unfold resume
  cases g.spawned <;> simp [other, attached]

@[simp] theorem resume_outbox {g : Segment} : (s.resume o g).outbox = g.outbox := by
  unfold resume
  cases g.spawned <;> rfl

@[simp] theorem settleSend_host {send : Send} {result : Except SendFailure String} :
    (s.settleSend o send result).host = s.host := resume_host

@[simp] theorem endAttempt_host {send : Send} {outcome : AttemptOutcome} :
    (s.endAttempt o send outcome).host = s.host := by
  unfold endAttempt
  dsimp only
  split
  · simp
  · split <;> simp

theorem answer_host {n : ℕ} {call : HostCall} {result : Except CommandError String} :
    (s.answer n call result).host = (s.recordAnswer n call result).host := by
  unfold answer
  dsimp only
  split
  · split
    · split_ifs
      · exact endAttempt_host
      · rfl
    · rfl
  · rfl

theorem drop_tasks {o' : Owner} : (s.drop o).tasks o' = if o' = o then none else s.tasks o' := by
  unfold drop
  split
  · dsimp only
    split <;> rfl
  · rfl

@[simp] theorem drop_host : (s.drop o).host = s.host := by
  unfold drop
  split
  · dsimp only
    split <;> rfl
  · rfl

@[simp] theorem drop_state : (s.drop o).machine.state = s.machine.state := by
  unfold drop
  split
  · dsimp only
    split <;> exact free_state _ _
  · rfl

@[simp] theorem stopUpkeep_host : s.stopUpkeep.host = s.host :=
  drop_host.trans (drop_host.trans (drop_host.trans (drop_host.trans drop_host)))

theorem stopUpkeep_tasks {o' : Owner} :
    s.stopUpkeep.tasks o' = if o'.isUpkeep then none else s.tasks o' := by
  simp only [stopUpkeep, drop_tasks]
  cases o' <;> rfl

@[simp] theorem stopUpkeep_state : s.stopUpkeep.machine.state = s.machine.state := by
  simp [stopUpkeep]

@[simp] theorem startIfIdle_host {operation : Operation} :
    (s.startIfIdle o operation).host = s.host := by
  unfold startIfIdle
  split_ifs <;> rfl

@[simp] theorem startIfIdle_machine {operation : Operation} :
    (s.startIfIdle o operation).machine = s.machine := by
  unfold startIfIdle
  split_ifs <;> rfl

@[simp] theorem beat_host : s.beat.host = s.host := by
  unfold beat
  dsimp only
  split_ifs <;> simp

theorem beat_state : s.beat.machine.state = s.machine.state := by
  unfold beat
  dsimp only
  split_ifs <;> simp

end

/-- An answer nobody waits for is recorded; one that is waited for also ends the attempt. -/
inductive AnswerStep (s : System) (n : ℕ) (call : HostCall)
    (result : Except CommandError String) : System → Prop
  | unheard (away : ∀ send giveUpAt, s.tasks call.caller = some (.sending send) →
      send.phase ≠ .calling n giveUpAt) : AnswerStep s n call result (s.recordAnswer n call result)
  | heard (send : Send) (giveUpAt : ℕ) (held : s.tasks call.caller = some (.sending send))
      (calling : send.phase = .calling n giveUpAt) : AnswerStep s n call result
        ((s.recordAnswer n call result).endAttempt call.caller send (.answered result))

theorem answerStep (s : System) (n : ℕ) (call : HostCall) (result : Except CommandError String) :
    AnswerStep s n call result (s.answer n call result) := by
  unfold answer
  dsimp only
  split
  · rename_i send held
    have held' : s.tasks call.caller = some (.sending send) := held
    split
    · rename_i k giveUpAt calling
      split_ifs with mine
      · subst mine
        exact .heard send giveUpAt held' calling
      · refine .unheard fun send' g' there calling' => ?_
        rw [held'] at there
        cases there
        rw [calling] at calling'
        cases calling'
        exact mine rfl
    · rename_i away
      refine .unheard fun send' g' there calling' => ?_
      rw [held'] at there
      cases there
      exact away _ _ calling'
  · rename_i away
    exact .unheard fun send' g' there _ => away send' there

/-- What a step of an operation can be: a first or a resumed segment, a send that moves
on away from the host, one that fails there, an attempt that starts, and one that is
out of time. -/
inductive TaskStep (s : System) (o : Owner) : TaskEvent → System → Prop
  | polled (operation : Operation) (held : s.tasks o = some (.created operation)) :
      TaskStep s o .poll (s.resume o (startOperation s.machine s.outbox s.now operation))
  | waited (wakeAt : ℕ) (held : s.tasks o = some (.jitter wakeAt)) :
      TaskStep s o .jitterOver (s.resume o (recoverNow s.machine s.outbox s.now))
  | moved (event : TaskEvent) (send : Send) (phase : Phase)
      (held : s.tasks o = some (.sending send)) (before : ∀ n g, send.phase ≠ .calling n g)
      (after : ∀ n g, phase ≠ .calling n g) :
      TaskStep s o event (s.setTask o (some (.sending { send with phase := phase })))
  | failed (event : TaskEvent) (send : Send) (failure : SendFailure)
      (held : s.tasks o = some (.sending send)) (before : ∀ n g, send.phase ≠ .calling n g)
      (reason : (s.outbox.slot send.work.kind).ended send.generation = some failure ∨
        event = .giveUp ∧ failure = .deadlineElapsed send.last ∧
          send.policy.overdue s.now = true) :
      TaskStep s o event (s.settleSend o send (.error failure))
  | started (send : Send) (held : s.tasks o = some (.sending send))
      (checked : send.phase = .checked)
      (idle : (s.outbox.slot send.work.kind).inFlight = false) : TaskStep s o .take (s.take o send)
  | timedOut (send : Send) (n giveUpAt : ℕ) (held : s.tasks o = some (.sending send))
      (calling : send.phase = .calling n giveUpAt) (late : giveUpAt ≤ s.now) :
      TaskStep s o .timeOut (s.endAttempt o send .elapsed)

theorem taskStep_stepSend {s t : System} {o : Owner} {send : Send} {event : TaskEvent}
    (held : s.tasks o = some (.sending send)) (h : s.stepSend o send event = some t) :
    TaskStep s o event t := by
  cases event with
  | poll | jitterOver => simp [stepSend] at h
  | check =>
      simp only [stepSend] at h
      split_ifs at h with waiting
      cases h
      unfold check
      cases ended : (s.outbox.slot send.work.kind).ended send.generation with
      | some failure => exact .failed _ send failure held (by simp [waiting]) (Or.inl ended)
      | none => exact .moved _ send _ held (by simp [waiting]) (by simp)
  | take =>
      simp only [stepSend] at h
      split_ifs at h with checked
      cases h
      by_cases busy : (s.outbox.slot send.work.kind).inFlight = true
      · rw [take, if_pos busy]
        exact .moved _ send _ held (by simp [checked]) (by simp)
      · exact .started send held checked (Bool.eq_false_iff.mpr busy)
  | wake =>
      simp only [stepSend] at h
      split at h
      · rename_i wakeAt epoch backingOff
        split_ifs at h
        cases h
        exact .moved _ send _ held (by simp [backingOff]) (by simp)
      · cases h
  | giveUp =>
      simp only [stepSend] at h
      split at h
      · rename_i waiting
        split_ifs at h with overdue
        cases h
        exact .failed _ send _ held (by simp [waiting]) (Or.inr ⟨rfl, rfl, overdue⟩)
      · rename_i wakeAt epoch backingOff
        split_ifs at h with overdue
        cases h
        exact .failed _ send _ held (by simp [backingOff]) (Or.inr ⟨rfl, rfl, overdue⟩)
      · cases h
  | timeOut =>
      simp only [stepSend] at h
      split at h
      · rename_i n giveUpAt calling
        split_ifs at h with late
        cases h
        exact .timedOut send n giveUpAt held calling late
      · cases h

theorem taskStep {s t : System} {o : Owner} {event : TaskEvent}
    (h : s.stepTask o event = some t) : TaskStep s o event t := by
  unfold stepTask at h
  cases held : s.tasks o with
  | none => cases event <;> simp [held] at h
  | some task =>
      cases task with
      | created operation =>
          cases event <;> simp only [held, Option.some.injEq, reduceCtorEq] at h
          subst h
          exact .polled operation held
      | jitter wakeAt =>
          cases event <;> simp only [held, reduceCtorEq] at h
          split_ifs at h
          cases h
          exact .waited wakeAt held
      | sending send =>
          simp only [held] at h
          exact taskStep_stepSend held h

/-- What a step can be, with the guard of each action. -/
inductive ActionStep (s : System) : Action → System → Prop
  | tick (ms : ℕ) (clock : s.now + ms ≤ u64Max) :
      ActionStep s (.tick ms) { s with now := s.now + ms }
  | online : ActionStep s .online
      { s with outbox := { s.outbox with onlineEpoch := s.outbox.onlineEpoch + 1 } }
  | spawnUpkeep (joined : s.machine.state = .joined) :
      ActionStep s .spawnUpkeep { s with upkeep := true }
  | beat (running : s.upkeep = true) : ActionStep s .beat s.beat
  | lapseCheck (running : s.upkeep = true) :
      ActionStep s .lapseCheck { s with machine := s.machine.updateLapsed s.now }
  | recovered (jitter : ℕ) (running : s.upkeep = true) :
      ActionStep s (.recovered jitter) (s.startIfIdle .recover (.recover jitter))
  | wakeDeparture (running : s.upkeep = true) (departed : s.machine.departed = true) :
      ActionStep s .wakeDeparture
        ({ s with machine := { s.machine with departed := false } }.startIfIdle
          .departure .recoverDeparture)
  | wakeRepublish (running : s.upkeep = true) (requested : s.machine.republishRequested = true) :
      ActionStep s .wakeRepublish
        ({ s with machine := { s.machine with republishRequested := false } }.startIfIdle
          .republish .republish)
  | task (o : Owner) (event : TaskEvent) (t : System) (step : TaskStep s o event t) :
      ActionStep s (.task o event) t
  | answer (n : ℕ) (call : HostCall) (result : Except CommandError String)
      (listed : s.calls n = some call) (unanswered : call.answer = none) :
      ActionStep s (.answer n result) (s.answer n call result)
  | ownDeparture (reason : Option LeaveReason) :
      ActionStep s (.ownDeparture reason) { s with machine := s.machine.onOwnDeparture reason }
  | catchUp (own : OwnEntry) :
      ActionStep s (.catchUp own) { s with machine := s.machine.onCatchUp own }
  | moveTransports (n : ℕ) (transport : RawRtcTransport) (idle : s.tasks (.transport n) = none) :
      ActionStep s (.moveTransports n transport)
        (s.resume (.transport n) (republishTransports s.machine s.outbox transport))
  | beginLeave (joined : s.machine.state = .joined) : ActionStep s .beginLeave s.beginLeave
  | leave (reason : Option LeaveReason)
      (begun : s.machine.state = .joined ∨ s.machine.state = .leaving)
      (idle : s.tasks .leave = none) : ActionStep s (.leave reason)
        (s.resume .leave (OwnMembership.leave s.machine s.outbox s.now reason))
  | dropFuture (o : Owner) (own : o.isUpkeep = false) (attached : o ≠ .detached) :
      ActionStep s (.dropFuture o) (s.drop o)
  | abortUpkeep (running : s.upkeep = true) : ActionStep s .abortUpkeep s.stopUpkeep

theorem actionStep {s t : System} {a : Action} (h : s.step a = some t) : ActionStep s a t := by
  cases a with
  | online | ownDeparture | catchUp =>
      cases h
      constructor
  | task o event => exact .task o event t (taskStep h)
  | answer n result =>
      simp only [step] at h
      split at h
      · rename_i call listed
        split_ifs at h with unanswered
        cases h
        exact .answer n call result listed (Option.isNone_iff_eq_none.mp unanswered)
      · cases h
  | wakeDeparture =>
      simp only [step] at h
      split_ifs at h with awake
      cases h
      exact .wakeDeparture awake.1 awake.2
  | wakeRepublish =>
      simp only [step] at h
      split_ifs at h with awake
      cases h
      exact .wakeRepublish awake.1 awake.2
  | moveTransports n transport =>
      simp only [step] at h
      split_ifs at h with idle
      cases h
      exact .moveTransports n transport (Option.isNone_iff_eq_none.mp idle)
  | leave reason =>
      simp only [step] at h
      split_ifs at h with begun
      cases h
      exact .leave reason begun.1 (Option.isNone_iff_eq_none.mp begun.2)
  | dropFuture o =>
      simp only [step] at h
      split_ifs at h with theirs
      cases h
      rw [not_or, Bool.not_eq_true] at theirs
      exact .dropFuture o theirs.1 theirs.2
  | tick | spawnUpkeep | beat | lapseCheck | recovered | beginLeave | abortUpkeep =>
      simp only [step] at h
      split_ifs at h with guard
      cases h
      constructor
      exact guard

end System

def timings : MembershipTimings := ⟨20000, 3600000, 600000⟩

def transports : MemberTransports := ⟨[], []⟩

/-- The attempt of a send that is free to go. -/
def attempt (o : Owner) : List Action := [.task o .check, .task o .take]

/-- The delayed leave is armed, the membership is published and the upkeep runs. -/
def joinLands : List Action :=
  attempt .join ++ [.answer 0 (.ok "delay")] ++ attempt .join ++
    [.answer 1 (.ok "$join"), .spawnUpkeep]

end MatrixRtc.MembershipUpkeep

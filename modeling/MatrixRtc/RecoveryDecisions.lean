import MatrixRtc.UpkeepInvariants

/-!
# How a recovery ends

When signalling is back the upkeep probes the delayed leave with a restart. One that
landed leaves our membership to the next complete set, and one that is gone is re-armed
and our membership is republished. The restart goes through the slot of every other
restart and arm, and a newer send ends it there, whatever the host answered. The runs are
kept with what each recovery came to.
-/
namespace MatrixRtc.RecoveryDecisions
open HostAnswers MemberEvents Outboxes OwnMembership MembershipUpkeep OperationSegments
open UpkeepInvariants StepRuns

/-- A recovery that finished: whether we were joined, whether its last restart call was
answered, and what had been stored and done since signalling came back. -/
structure Ending where
  joined : Bool
  answered : Bool
  awaitingCatchUp : Bool
  rearmed : Bool
deriving DecidableEq, Repr

structure History where
  base : System
  /-- the last restart call of the latest recovery -/
  restartCall : Option ℕ
  /-- since signalling came back for it -/
  awaitingCatchUp : Bool
  rearmed : Bool
  endings : List Ending

def History.start (timings : MembershipTimings) (transports : MemberTransports) (deadline : ℕ)
    (now : UInt64) : History :=
  ⟨.start timings transports deadline now, none, false, false, []⟩

def isRestart : Work → Bool
  | .restart .. => true
  | _ => false

/-- Signalling is back and the upkeep starts a recovery. -/
def begins (s : System) : Action → Bool
  | .recovered _ => (s.tasks .recover).isNone
  | _ => false

/-- The restart of the recovery goes to the host. -/
def callsRestart (s : System) : Action → Bool
  | .task .recover .take =>
      match s.tasks .recover with
      | some (.sending send) =>
          isRestart send.work && !(s.outbox.slot send.work.kind).inFlight
      | _ => false
  | _ => false

/-- Whose operation an action takes on. -/
def actor (s : System) : Action → Option Owner
  | .task o _ => some o
  | .answer n _ => (s.calls n).map HostCall.caller
  | _ => none

/-- The step stores `awaiting_catch_up`, whatever it held. -/
def storesAwaiting (s : System) (a : Action) : Bool :=
  (System.step { s with machine := { s.machine with awaitingCatchUp := false } } a).any fun t =>
    t.machine.awaitingCatchUp

/-- A re-arm of `o` landed and its republish began. -/
def rearms (s t : System) (o : Owner) : Bool :=
  match s.tasks o, t.tasks o with
  | some (.sending before), some (.sending after) =>
      match before.work, after.work with
      | .rearm, .republishRearmed _ => t.machine.keepAliveInfo.isSome
      | _, _ => false
  | _, _ => false

/-- The recovery ran to its end in this step. -/
def finishes (s : System) (a : Action) (t : System) : Bool :=
  actor s a == some .recover && (s.tasks .recover).isSome && (t.tasks .recover).isNone

/-- The restart call, if one was made, was answered. -/
def answered (s : System) (restartCall : Option ℕ) : Bool :=
  restartCall.all fun n => (s.calls n).any fun call => call.answer.isSome

/-- The history after a step of the system to `t`. -/
def History.record (h : History) (a : Action) (t : System) : History :=
  let restartCall :=
    if begins h.base a then none
    else if callsRestart h.base a then some h.base.nextCall
    else h.restartCall
  let awaitingCatchUp :=
    !begins h.base a && (h.awaitingCatchUp || storesAwaiting h.base a)
  let rearmed := !begins h.base a && (h.rearmed || (actor h.base a).any (rearms h.base t))
  { base := t
    restartCall := restartCall
    awaitingCatchUp := awaitingCatchUp
    rearmed := rearmed
    endings :=
      if finishes h.base a t then
        h.endings ++ [⟨t.machine.state = .joined, answered t restartCall, awaitingCatchUp, rearmed⟩]
      else h.endings }

def History.step (h : History) (a : Action) : Option History :=
  (h.base.step a).map (h.record a)

/-- Either the next complete set decides, or the membership was re-armed and is being
republished. -/
def Ending.Reached (e : Ending) : Prop :=
  e.joined = true → e.answered = true → e.awaitingCatchUp = true ∨ e.rearmed = true

instance : DecidablePred Ending.Reached := fun _ => inferInstanceAs (Decidable (_ → _ → _))

/-- Every recovery that finished reached a decision. -/
def Decided (h : History) : Prop := ∀ e ∈ h.endings, e.Reached

instance : DecidablePred Decided := fun h => inferInstanceAs (Decidable (∀ e ∈ h.endings, _))

/-- A newer send has taken the slot of this one, or a leave has cancelled it. -/
def TakenOver (s : System) (send : Send) : Prop :=
  (s.outbox.slot send.work.kind).generation ≠ send.generation

instance (s : System) (send : Send) : Decidable (TakenOver s send) :=
  inferInstanceAs (Decidable (_ ≠ _))

/-- The send waits for this call. -/
def waitsFor (send : Send) (n : ℕ) : Bool :=
  match send.phase with
  | .calling k _ => k == n
  | _ => false

/-- The answer to a send of a recovery has it end with the catch-up to come, or go on: a
restart is not refused but as not found while nothing else re-arms. The answer to the
republish that follows a re-arm ends it unless it is retried. -/
def TakesOn (m : OwnMembershipMachine) : Work → Except CommandError String → Prop
  | .restart _ _, .error error =>
      error.isPermanent = true → isNotFound error = true ∧ m.arming = false
  | .republishRearmed _, .ok _ => False
  | .republishRearmed _, .error error => error.isPermanent = false
  | _, _ => True

instance (m : OwnMembershipMachine) (work : Work) (answer : Except CommandError String) :
    Decidable (TakesOn m work answer) := by
  unfold TakesOn
  split <;> infer_instance

/-- Something since signalling came back has decided already. -/
def History.decided (h : History) : Bool := h.awaitingCatchUp || h.rearmed

/-- The recovery's send is not taken over while joined, unless its restart is still
unanswered or a decision was reached before. -/
def KeepsSlot (h : History) (send : Send) : Prop :=
  h.base.machine.state = .joined → TakenOver h.base send →
    answered h.base h.restartCall = true → h.decided = true

/-- The answer meets a send that holds its slot and takes it on, unless a decision was
reached before. -/
def Heeds (h : History) (send : Send) (answer : Except CommandError String) : Prop :=
  h.base.machine.state = .joined → h.decided = false →
    ¬ TakenOver h.base send ∧ TakesOn h.base.machine send.work answer

instance (h : History) (send : Send) : Decidable (KeepsSlot h send) :=
  inferInstanceAs (Decidable (_ → _ → _ → _))

instance (h : History) (send : Send) (answer : Except CommandError String) :
    Decidable (Heeds h send answer) := inferInstanceAs (Decidable (_ → _ → _))

/-- Where a recovery's send may end, it keeps its slot, and an answer is heeded. -/
def Decisive (h : History) (a : Action) : Prop :=
  match h.base.tasks .recover with
  | some (.sending send) =>
      match a with
      | .task .recover .check | .task .recover .timeOut => KeepsSlot h send
      | .answer n answer => waitsFor send n = true → Heeds h send answer
      | _ => True
  | _ => True

instance (h : History) : DecidablePred (Decisive h) := fun a => by
  unfold Decisive
  split
  · split <;> infer_instance
  · infer_instance

/-- The state of the machine, and whether it has a membership on record. -/
def record (m : OwnMembershipMachine) : OwnMembershipState × Bool := (m.state, m.lastSticky.isSome)

/-- A joined machine has put a membership in the sticky map. -/
def Published (m : OwnMembershipMachine) : Prop := m.state = .joined → m.lastSticky.isSome = true

theorem Published.congr {m m' : OwnMembershipMachine} (h : Published m)
    (same : record m' = record m) : Published m' := by
  obtain ⟨state, sticky⟩ := Prod.mk.inj same
  exact fun joined => sticky.trans (h (state.symm.trans joined))

section Segments
variable {m m' : OwnMembershipMachine} {ob : Outbox} {now : ℕ}

@[simp] theorem record_free (busy : Busy) : record (m.free busy) = record m := by
  cases busy <;> rfl

theorem record_startIfJoined {work : Work} {policy : SendPolicy} (same : record m' = record m) :
    record (startIfJoined m' ob work policy).machine = record m := by
  unfold startIfJoined
  split_ifs
  · exact same
  · exact (record_free _).trans same

theorem record_republish {rearmed : Bool} (same : record m' = record m) :
    record (republish m' ob rearmed).machine = record m := by
  unfold republish
  cases m'.lastSticky with
  | none =>
      cases rearmed
      · exact same
      · exact (record_free .arming).trans same
  | some sticky => exact record_startIfJoined same

theorem record_rearmAndRepublish (same : record m' = record m) :
    record (rearmAndRepublish m' ob).machine = record m := by
  unfold rearmAndRepublish
  split_ifs
  · exact same
  · exact record_startIfJoined same

theorem record_restart {clockFallback : Bool} {next : After} :
    record (restart m ob now clockFallback next).machine = record m := by
  unfold restart
  cases m.keepAliveInfo with
  | none =>
      dsimp only
      unfold armIfDue
      split_ifs
      · rfl
      · exact record_startIfJoined rfl
  | some info =>
      dsimp only
      split_ifs
      · exact record_rearmAndRepublish rfl
      · exact record_startIfJoined rfl

theorem record_recoverNow : record (recoverNow m ob now).machine = record m := by
  unfold recoverNow
  split_ifs
  · rfl
  · exact record_restart
  · rfl

theorem record_startOperation {operation : Operation} :
    record (startOperation m ob now operation).machine = record m := by
  cases operation with
  | restart clockFallback next => exact record_restart
  | refresh =>
      simp only [startOperation, refreshIfDue]
      split
      · rfl
      · split_ifs
        · rfl
        · exact record_startIfJoined rfl
  | recover jitter => rfl
  | recoverDeparture =>
      simp only [startOperation, recoverDeparture]
      split_ifs
      · rfl
      · exact record_restart
      · exact record_republish rfl
  | republish => exact record_republish rfl
  | cancelArmed id => rfl

theorem record_republishTransports {transport : RawRtcTransport} :
    record (republishTransports m ob transport).machine = record m := by
  unfold republishTransports
  cases sticky : m.lastSticky with
  | none => rfl
  | some old =>
      dsimp only
      split_ifs
      · rfl
      · exact record_republish (by simp [record, sticky])

@[simp] theorem record_recordPublished {content : MemberTransports} {eventId : String} :
    record (m.recordPublished now content eventId) = record m := by
  simp [record, OwnMembershipMachine.recordPublished, OwnMembershipMachine.updateLapsed]

theorem published_settle {o : Owner} {work : Work} {result : Except SendFailure String}
    (fits : WorkFits o m.state work) (h : Published m) :
    Published (settle m ob now work result).machine := by
  cases work with
  | restart info next =>
      refine h.congr ?_
      cases result with
      | ok value =>
          cases next with
          | nothing | catchUp => rfl
          | republish => exact record_republish rfl
      | error failure =>
          cases failure with
          | refused error =>
              simp only [settle]
              split_ifs
              · exact record_rearmAndRepublish rfl
              · rfl
          | superseded | cancelled | deadlineElapsed | timedOut | failed => rfl
  | armIfDue =>
      refine h.congr ?_
      cases result with
      | ok id => rfl
      | error failure => cases failure <;> rfl
  | rearm =>
      refine h.congr ?_
      cases result with
      | ok id => exact record_republish rfl
      | error failure => cases failure <;> first | rfl | exact record_republish rfl
  | republishRearmed content | republish content | refresh content =>
      refine h.congr ?_
      cases result with
      | ok eventId => exact (record_free _).trans record_recordPublished
      | error failure => exact record_free _
  | joinArm content deadline =>
      have joining : m.state = .joining := fits.2
      cases result <;> exact fun joined => absurd (joining.symm.trans joined) (by decide)
  | join content =>
      cases result with
      | ok eventId => exact fun _ => rfl
      | error failure => exact fun joined => absurd joined (by simp [settle, afterJoin])
  | leave reason =>
      have leaving : m.state ≠ .joined := by
        obtain ⟨-, h | h⟩ := fits <;> simp [h]
      cases result with
      | error failure => exact h
      | ok eventId =>
          simp only [settle, afterLeave]
          split
          · exact fun joined => absurd joined leaving
          · exact fun joined => absurd joined (by simp [finished])
  | cancel id => exact fun joined => absurd joined (by simp [settle, finished])
  | cancelArmed id => exact h

end Segments

section Steps
variable {s t : System} {o : Owner}

theorem published_endAttempt {send : Send} {outcome : AttemptOutcome}
    (fits : WorkFits o s.machine.state send.work) (h : Published s.machine) :
    Published (s.endAttempt o send outcome).machine := by
  have settled : ∀ result,
      Published ((s.release send.work.kind).settleSend o send result).machine := by
    intro result
    rw [System.settleSend, System.resume_machine]
    exact published_settle fits h
  unfold System.endAttempt
  dsimp only
  split
  · exact settled _
  · split
    · exact settled _
    · exact h

theorem record_drop : record (s.drop o).machine = record s.machine := by
  unfold System.drop
  split
  · dsimp only
    split <;> exact record_free _
  · rfl

theorem record_stopUpkeep : record s.stopUpkeep.machine = record s.machine := by
  simp only [System.stopUpkeep, record_drop]

theorem record_beat : record s.beat.machine = record s.machine := by
  unfold System.beat
  dsimp only
  split_ifs
  · exact record_stopUpkeep
  · rw [System.startIfIdle_machine, System.setTask_machine]
    exact record_drop
  · rw [System.startIfIdle_machine]

theorem published_step {a : Action} (w : Wired s) (p : Published s.machine)
    (h : s.step a = some t) : Published t.machine := by
  cases System.actionStep h with
  | tick | online | spawnUpkeep | lapseCheck => exact p
  | beat => exact p.congr record_beat
  | recovered => exact p.congr (by rw [System.startIfIdle_machine])
  | wakeDeparture | wakeRepublish =>
      refine p.congr ?_
      rw [System.startIfIdle_machine]
      rfl
  | task o event t step =>
      cases step with
      | polled operation held =>
          rw [System.resume_machine]
          exact p.congr record_startOperation
      | waited wakeAt held =>
          rw [System.resume_machine]
          exact p.congr record_recoverNow
      | moved event send phase held before after => exact p
      | failed event send failure held before reason =>
          rw [System.settleSend, System.resume_machine]
          exact published_settle (w.registered held).fits p
      | started send held checked idle =>
          rw [System.take, if_neg (by simp [idle])]
          exact p
      | timedOut send n giveUpAt held calling late =>
          exact published_endAttempt (w.registered held).fits p
  | answer n call result listed unanswered =>
      have step := s.answerStep n call result
      generalize s.answer n call result = t at step ⊢
      cases step with
      | unheard away => exact p
      | heard send giveUpAt held calling =>
          exact published_endAttempt (s := s.recordAnswer n call result)
            (w.registered held).fits p
  | ownDeparture reason =>
      obtain ⟨departed, same⟩ := s.machine.onOwnDeparture_flags reason
      exact p.congr (by rw [same]; rfl)
  | catchUp own =>
      obtain ⟨awaiting, requested, same⟩ := s.machine.onCatchUp_flags own
      exact p.congr (by rw [same]; rfl)
  | moveTransports n transport idle =>
      rw [System.resume_machine]
      exact p.congr record_republishTransports
  | beginLeave joined =>
      exact fun still => absurd still (by simp [beginLeave_state (Or.inl joined)])
  | leave reason begun idle =>
      have left : (s.resume .leave (leave s.machine s.outbox s.now reason)).machine.state =
          .leaving := by
        rw [resume_leave, System.resume_machine]
        exact beginLeave_state begun
      exact fun still => absurd (left.symm.trans still) (by simp)
  | dropFuture => exact p.congr record_drop
  | abortUpkeep => exact p.congr record_stopUpkeep

end Steps

/-- The sends a recovery makes. -/
def OfRecovery : Work → Prop
  | .restart _ next => next = .catchUp
  | .rearm | .republishRearmed _ => True
  | _ => False

/-- Where a recovery stands: what it has sent, and that it sends a restart once, answered
before it goes on to the re-arm. -/
def Stands (s : System) (restartCall : Option ℕ) : Task → Prop
  | .created operation => ∃ jitter, operation = .recover jitter
  | .jitter _ => True
  | .sending send =>
      send.policy = .new ∧ OfRecovery send.work ∧
        if isRestart send.work = true then
          ∀ n, waitsFor send n = true → restartCall = some n
        else answered s restartCall = true

structure Inv (h : History) : Prop where
  wired : Wired h.base
  published : Published h.base.machine
  stands : ∀ task, h.base.tasks .recover = some task → Stands h.base h.restartCall task

section Recovery
variable {s t : System} {send : Send}

/-- An answer stays. -/
theorem answered_mono {a : Action} (w : Wired s) (h : s.step a = some t) {restartCall : Option ℕ}
    (done : answered s restartCall = true) : answered t restartCall = true := by
  cases restartCall with
  | none => rfl
  | some n =>
      simp only [answered, Option.all_some] at done ⊢
      cases hostStep h with
      | starts o send held checked idle =>
          have older : n ≠ s.nextCall := by
            rintro rfl
            simp [w.fresh s.nextCall le_rfl] at done
          rw [System.take, if_neg (by simp [idle])]
          simpa [System.setTask, older] using done
      | answers k call result listed unanswered =>
          have calls : (s.answer k call result).calls = (s.recordAnswer k call result).calls :=
            congrArg Prod.fst System.answer_host
          rw [calls]
          by_cases same : n = k
          · simp [System.recordAnswer, same]
          · simpa [System.recordAnswer, same] using done
      | quiet a t calls next now => rwa [calls]

theorem Stands.later {a : Action} (w : Wired s) (h : s.step a = some t) {restartCall : Option ℕ}
    {task : Task} (stands : Stands s restartCall task) : Stands t restartCall task := by
  cases task with
  | created operation => exact stands
  | jitter wakeAt => trivial
  | sending send =>
      obtain ⟨policy, work, rest⟩ := stands
      refine ⟨policy, work, ?_⟩
      split_ifs at rest ⊢
      · exact rest
      · exact answered_mono w h rest

theorem Stands.moved {a : Action} (w : Wired s) (h : s.step a = some t) {restartCall : Option ℕ}
    {send' : Send} (stands : Stands s restartCall (.sending send))
    (policy : send'.policy = send.policy) (work : send'.work = send.work)
    (away : ∀ n, waitsFor send' n = false) : Stands t restartCall (.sending send') := by
  obtain ⟨policy', mine, rest⟩ := stands.later w h
  refine ⟨policy.trans policy', by rwa [work], ?_⟩
  rw [work]
  split_ifs at rest ⊢
  · exact fun n waits => absurd ((away n).symm.trans waits) (by simp)
  · exact rest

theorem ended_of_takenOver (lost : TakenOver s send) :
    ∃ failure, (s.outbox.slot send.work.kind).ended send.generation = some failure ∧
      (failure = .superseded ∨ failure = .cancelled) := by
  unfold Slot.ended
  rw [if_neg lost]
  split_ifs
  · exact ⟨_, rfl, .inr rfl⟩
  · exact ⟨_, rfl, .inl rfl⟩

theorem ended_of_kept (kept : ¬ TakenOver s send) :
    (s.outbox.slot send.work.kind).ended send.generation = none :=
  Slot.ended_eq_none.mpr (not_not.mp kept)

theorem settle_takenOver {m : OwnMembershipMachine} {ob : Outbox} {now : ℕ} {work : Work}
    (mine : OfRecovery work) {failure : SendFailure}
    (taken : failure = .superseded ∨ failure = .cancelled) :
    settle m ob now work (.error failure) = finished (m.free work.busy) ob := by
  cases work with
  | restart info next => obtain rfl | rfl := taken <;> rfl
  | rearm => obtain rfl | rfl := taken <;> rfl
  | republishRearmed content => rfl
  | armIfDue | republish | refresh | joinArm | join | leave | cancel | cancelArmed => cases mine

@[simp] theorem free_awaitingCatchUp (m : OwnMembershipMachine) (busy : Busy) :
    (m.free busy).awaitingCatchUp = m.awaitingCatchUp := by
  cases busy <;> rfl

/-- The recovery ends in the step, and stores `awaiting_catch_up` or not. -/
def Ends (s : System) (a : Action) (stored : Bool) : Prop :=
  ∃ t, s.step a = some t ∧ t.tasks .recover = none ∧ t.machine.state = s.machine.state ∧
    t.machine.awaitingCatchUp = (stored || s.machine.awaitingCatchUp)

theorem settleSend_ends (s : System) (send : Send) {result : Except SendFailure String}
    {m : OwnMembershipMachine} {ob : Outbox}
    (h : settle s.machine s.outbox s.now send.work result = finished m ob) :
    (s.settleSend .recover send result).tasks .recover = none ∧
      (s.settleSend .recover send result).machine = m := by
  unfold System.settleSend
  rw [h, System.resume_tasks rfl, System.resume_machine]
  exact ⟨rfl, rfl⟩

theorem endAttempt_takenOver (mine : OfRecovery send.work) (lost : TakenOver s send)
    (outcome : AttemptOutcome) :
    (s.endAttempt .recover send outcome).tasks .recover = none ∧
      (s.endAttempt .recover send outcome).machine = s.machine.free send.work.busy := by
  obtain ⟨failure, ended, taken⟩ := ended_of_takenOver lost
  have ended' : ((s.release send.work.kind).outbox.slot send.work.kind).ended send.generation =
      some failure := release_ended.trans ended
  unfold System.endAttempt
  simp only [ended']
  exact settleSend_ends _ send (settle_takenOver mine taken)

theorem step_sending {event : TaskEvent} (held : s.tasks .recover = some (.sending send)) :
    s.step (.task .recover event) = s.stepSend .recover send event := by
  simp only [System.step, System.stepTask, held]

theorem check_takenOver (held : s.tasks .recover = some (.sending send))
    (waiting : send.phase = .waiting) (mine : OfRecovery send.work) (lost : TakenOver s send) :
    Ends s (.task .recover .check) false := by
  obtain ⟨failure, ended, taken⟩ := ended_of_takenOver lost
  obtain ⟨task, machine⟩ := settleSend_ends s send (settle_takenOver mine taken)
  refine ⟨_, ?_, task, by simp [machine], by simp [machine]⟩
  rw [step_sending held]
  simp only [System.stepSend, waiting, if_true, System.check, ended]

theorem timeOut_takenOver (held : s.tasks .recover = some (.sending send)) {n giveUpAt : ℕ}
    (calling : send.phase = .calling n giveUpAt) (late : giveUpAt ≤ s.now)
    (mine : OfRecovery send.work) (lost : TakenOver s send) :
    Ends s (.task .recover .timeOut) false := by
  obtain ⟨task, machine⟩ := endAttempt_takenOver mine lost .elapsed
  refine ⟨_, ?_, task, by simp [machine], by simp [machine]⟩
  rw [step_sending held]
  simp only [System.stepSend, calling, late, if_true]

/-- After an attempt a send that keeps its slot is settled, or waits for a retry. -/
theorem endAttempt_kept (o : Owner) (kept : ¬ TakenOver s send) (outcome : AttemptOutcome) :
    (∃ result, judge send.policy send.backoff s.now send.last outcome = .done result ∧
      s.endAttempt o send outcome = (s.release send.work.kind).settleSend o send result) ∨
    (∃ delay last, judge send.policy send.backoff s.now send.last outcome = .retry delay last ∧
      ∃ backoff wakeAt epoch, (s.endAttempt o send outcome).tasks o =
        some (.sending { send with
          backoff := backoff, last := last, phase := .backingOff wakeAt epoch })) := by
  have running : ((s.release send.work.kind).outbox.slot send.work.kind).ended send.generation =
      none := release_ended.trans (ended_of_kept kept)
  unfold System.endAttempt
  simp only [running]
  split
  · rename_i result judged
    exact .inl ⟨result, judged, rfl⟩
  · rename_i delay last judged
    exact .inr ⟨delay, last, judged, _, _, _, if_pos rfl⟩

/-- The recovery waits for the answer to this call. -/
structure Heard (s : System) (send : Send) (n : ℕ) (call : HostCall) : Prop where
  listed : s.calls n = some call
  unanswered : call.answer = none
  caller : call.caller = .recover
  held : s.tasks .recover = some (.sending send)
  calling : ∃ giveUpAt, send.phase = .calling n giveUpAt

section Answers
variable {n : ℕ} {call : HostCall} {result : Except CommandError String}

theorem Heard.waits (heard : Heard s send n call) : waitsFor send n = true := by
  obtain ⟨giveUpAt, calling⟩ := heard.calling
  simp [waitsFor, calling]

theorem Heard.touch (heard : Heard s send n call) (m : OwnMembershipMachine) :
    Heard { s with machine := m } send n call :=
  ⟨heard.listed, heard.unanswered, heard.caller, heard.held, heard.calling⟩

theorem Heard.step (heard : Heard s send n call) : s.step (.answer n result) =
    some ((s.recordAnswer n call result).endAttempt .recover send (.answered result)) := by
  obtain ⟨giveUpAt, calling⟩ := heard.calling
  have held : (s.recordAnswer n call result).tasks .recover = some (.sending send) := heard.held
  simp only [System.step, heard.listed, heard.unanswered, Option.isNone_none, if_true,
    System.answer, heard.caller, held, calling]

theorem Heard.takenOver (heard : Heard s send n call) (mine : OfRecovery send.work)
    (lost : TakenOver s send) : Ends s (.answer n result) false := by
  obtain ⟨task, machine⟩ := endAttempt_takenOver (s := s.recordAnswer n call result) mine lost
    (.answered result)
  refine ⟨_, heard.step, task, ?_, ?_⟩ <;> rw [machine]
  · exact free_state _ _
  · exact free_awaitingCatchUp _ _

theorem Heard.ends (heard : Heard s send n call) (kept : ¬ TakenOver s send)
    {settled : Except SendFailure String} {m : OwnMembershipMachine} {stored : Bool}
    (judged : judge send.policy send.backoff s.now send.last (.answered result) = .done settled)
    (ends : ∀ ob, settle s.machine ob s.now send.work settled = finished m ob)
    (state : m.state = s.machine.state)
    (awaiting : m.awaitingCatchUp = (stored || s.machine.awaitingCatchUp)) :
    Ends s (.answer n result) stored := by
  obtain ⟨ended', judged', ended⟩ | ⟨delay, last, judged', -⟩ :=
    endAttempt_kept (s := s.recordAnswer n call result) .recover kept (.answered result)
  · cases judged.symm.trans judged'
    obtain ⟨task, machine⟩ := settleSend_ends
      ((s.recordAnswer n call result).release send.work.kind) send (ends _)
    rw [← ended] at task machine
    exact ⟨_, heard.step, task, by rw [machine, state], by rw [machine, awaiting]⟩
  · cases judged.symm.trans judged'

end Answers

theorem jitterOver_ends {wakeAt : ℕ} (held : s.tasks .recover = some (.jitter wakeAt))
    (late : wakeAt ≤ s.now) (joined : s.machine.state = .joined)
    (nothing : s.machine.keepAliveInfo = none) : Ends s (.task .recover .jitterOver) true := by
  have now : recoverNow s.machine s.outbox s.now =
      finished { s.machine with awaitingCatchUp := true } s.outbox := by
    simp [recoverNow, joined, nothing]
  refine ⟨s.resume .recover (recoverNow s.machine s.outbox s.now), ?_, ?_, ?_, ?_⟩
  · simp only [System.step, System.stepTask, held, late, if_true]
  · rw [now, System.resume_tasks rfl]
    rfl
  · rw [now, System.resume_machine]
    rfl
  · rw [now, System.resume_machine]
    rfl

theorem resume_elsewhere {o : Owner} (other : o ≠ .recover) {g : Segment} :
    (s.resume o g).tasks .recover = s.tasks .recover :=
  System.resume_tasks_other other.symm (by decide)

theorem endAttempt_elsewhere {o : Owner} (other : o ≠ .recover) {outcome : AttemptOutcome} :
    (s.endAttempt o send outcome).tasks .recover = s.tasks .recover := by
  unfold System.endAttempt
  dsimp only
  split
  · exact resume_elsewhere other
  · split
    · exact resume_elsewhere other
    · exact if_neg other.symm

theorem taskStep_elsewhere {o : Owner} (other : o ≠ .recover) {event : TaskEvent}
    (step : System.TaskStep s o event t) : t.tasks .recover = s.tasks .recover := by
  cases step with
  | polled | waited | failed => exact resume_elsewhere other
  | moved => exact if_neg other.symm
  | started send held checked idle =>
      rw [System.take, if_neg (by simp [idle])]
      exact if_neg other.symm
  | timedOut => exact endAttempt_elsewhere other

theorem startIfIdle_elsewhere {o : Owner} (other : o ≠ .recover) {operation : Operation} :
    (s.startIfIdle o operation).tasks .recover = s.tasks .recover := by
  unfold System.startIfIdle
  split_ifs
  · exact if_neg other.symm
  · rfl

end Recovery

/-- What a step makes of the recovery: it stays where it is, begins, is dropped, goes on,
ends after we left, or ends with or without the catch-up to come. -/
inductive Move (h : History) (a : Action) (t : System) : Prop
  | elsewhere (same : t.tasks .recover = h.base.tasks .recover)
      (ongoing : begins h.base a = false) (silent : callsRestart h.base a = false)
      (decisive : Decisive h a) : Move h a t
  | begun (jitter : ℕ) (task : t.tasks .recover = some (.created (.recover jitter)))
      (decisive : Decisive h a) : Move h a t
  | dropped (gone : t.tasks .recover = none) (other : actor h.base a ≠ some .recover)
      (decisive : Decisive h a) : Move h a t
  | goesOn (task : Task) (held : t.tasks .recover = some task)
      (stands : Stands t (h.record a t).restartCall task) (decisive : Decisive h a) : Move h a t
  | left (gone : t.tasks .recover = none) (state : t.machine.state ≠ .joined)
      (decisive : Decisive h a) : Move h a t
  | ends (stored : Bool) (own : actor h.base a = some .recover)
      (was : (h.base.tasks .recover).isSome = true) (gone : t.tasks .recover = none)
      (stores : storesAwaiting h.base a = stored) (ongoing : begins h.base a = false)
      (silent : callsRestart h.base a = false)
      (decisive : Decisive h a ↔ (t.machine.state = .joined → answered t h.restartCall = true →
        stored = true ∨ h.decided = true)) : Move h a t

section Moves
variable {h : History} {a : Action} {t : System}

theorem Move.of_ends (stored : Bool) {task : Task} (hstep : h.base.step a = some t)
    (own : actor h.base a = some .recover) (was : h.base.tasks .recover = some task)
    (here : Ends h.base a stored)
    (cleared : Ends { h.base with machine := { h.base.machine with awaitingCatchUp := false } }
      a stored)
    (ongoing : begins h.base a = false) (silent : callsRestart h.base a = false)
    (decisive : Decisive h a ↔ (h.base.machine.state = .joined →
      answered t h.restartCall = true → stored = true ∨ h.decided = true)) : Move h a t := by
  obtain ⟨t', hstep', gone, state, -⟩ := here
  cases hstep.symm.trans hstep'
  refine .ends stored own (by rw [was]; rfl) gone ?_ ongoing silent (by rwa [state])
  obtain ⟨u, hu, -, -, awaiting⟩ := cleared
  unfold storesAwaiting
  rw [hu, Option.any_some, awaiting, Bool.or_false]

theorem decisive_of_actor (w : Wired h.base) (other : actor h.base a ≠ some .recover) :
    Decisive h a := by
  unfold Decisive
  split
  · rename_i send held
    split
    · exact absurd rfl other
    · exact absurd rfl other
    · rename_i n answer
      intro waits
      unfold waitsFor at waits
      split at waits
      · rename_i k giveUpAt calling
        obtain rfl := beq_iff_eq.mp waits
        obtain ⟨-, call, listed, caller, -⟩ := (w.placed _ _ held).flight k giveUpAt calling
        refine absurd ?_ other
        simp [actor, listed, caller]
      · cases waits
    · trivial
  · trivial

theorem callsRestart_of_actor (other : actor h.base a ≠ some .recover) :
    callsRestart h.base a = false := by
  unfold callsRestart
  split
  · exact absurd rfl other
  · rfl

theorem Move.of_elsewhere (w : Wired h.base) (other : actor h.base a ≠ some .recover)
    (ongoing : begins h.base a = false) (same : t.tasks .recover = h.base.tasks .recover) :
    Move h a t :=
  .elsewhere same ongoing (callsRestart_of_actor other) (decisive_of_actor w other)

theorem decisive_of_task {task : Task} (held : h.base.tasks .recover = some task)
    (unsent : ∀ send, task ≠ .sending send) : Decisive h a := by
  unfold Decisive
  split
  · rename_i send held'
    exact absurd (Option.some.inj (held.symm.trans held')) (unsent send)
  · trivial

theorem record_restartCall (ongoing : begins h.base a = false)
    (silent : callsRestart h.base a = false) : (h.record a t).restartCall = h.restartCall := by
  simp [History.record, ongoing, silent]

theorem decisive_check {send : Send} (held : h.base.tasks .recover = some (.sending send)) :
    Decisive h (.task .recover .check) ↔ KeepsSlot h send := by
  simp only [Decisive, held]

theorem decisive_timeOut {send : Send} (held : h.base.tasks .recover = some (.sending send)) :
    Decisive h (.task .recover .timeOut) ↔ KeepsSlot h send := by
  simp only [Decisive, held]

theorem answered_congr {s : System} (calls : t.calls = s.calls) {restartCall : Option ℕ} :
    answered t restartCall = answered s restartCall := by
  unfold answered
  rw [calls]

theorem answered_check {s : System} {o : Owner} {send : Send} {restartCall : Option ℕ} :
    answered (s.check o send) restartCall = answered s restartCall := by
  unfold System.check
  split
  · exact answered_congr (congrArg Prod.fst System.settleSend_host)
  · rfl

theorem setTask_held {s : System} {o : Owner} {task : Option Task} :
    (s.setTask o task).tasks o = task := if_pos rfl

/-- The wait is over. -/
theorem move_jitter {wakeAt : ℕ} {event : TaskEvent}
    (held : h.base.tasks .recover = some (.jitter wakeAt))
    (hstep : h.base.step (.task .recover event) = some t) : Move h (.task .recover event) t := by
  have decisive : Decisive h (.task .recover event) := decisive_of_task held (by simp)
  cases event <;> simp only [System.step, System.stepTask, held, reduceCtorEq] at hstep
  rw [Option.ite_none_right_eq_some, Option.some.injEq] at hstep
  obtain ⟨late, rfl⟩ := hstep
  by_cases joined : h.base.machine.state = .joined
  · cases armed : h.base.machine.keepAliveInfo with
    | none =>
        refine .of_ends true ?_ rfl held (jitterOver_ends held late joined armed)
          (jitterOver_ends held late joined armed) rfl ?_ (iff_of_true decisive fun _ _ => .inl rfl)
        · simp only [System.step, System.stepTask, held, late, if_true]
        · rfl
    | some info =>
        have now : recoverNow h.base.machine h.base.outbox h.base.now =
            startSend h.base.machine h.base.outbox (.restart info .catchUp) .new := by
          simp [recoverNow, joined, armed, restart, startIfJoined]
        rw [now]
        refine .goesOn _ ((System.resume_tasks rfl).trans (if_pos rfl)) ⟨rfl, rfl, ?_⟩ decisive
        exact fun n waits => by cases waits
  · have now : recoverNow h.base.machine h.base.outbox h.base.now =
        finished h.base.machine h.base.outbox := by
      simp [recoverNow, joined]
    rw [now]
    refine .left ((System.resume_tasks rfl).trans (if_pos rfl)) ?_ decisive
    rwa [System.resume_machine]

/-- A step of a recovery's send, but for the answer it waits for. -/
theorem move_sending (inv : Inv h) {send : Send} {event : TaskEvent}
    (held : h.base.tasks .recover = some (.sending send))
    (hstep : h.base.step (.task .recover event) = some t) : Move h (.task .recover event) t := by
  have stands := inv.stands _ held
  obtain ⟨policy, mine, -⟩ := id stands
  have taken := hstep
  rw [step_sending held] at hstep
  cases event with
  | poll | jitterOver => simp [System.stepSend] at hstep
  | giveUp =>
      have patient : send.policy.overdue h.base.now = false := by rw [policy]; rfl
      simp only [System.stepSend, patient] at hstep
      split at hstep <;> simp at hstep
  | wake =>
      simp only [System.stepSend] at hstep
      split at hstep
      · rw [Option.ite_none_right_eq_some, Option.some.injEq] at hstep
        obtain ⟨-, rfl⟩ := hstep
        refine .goesOn _ setTask_held (stands.moved inv.wired taken rfl rfl fun _ => rfl) ?_
        simp [Decisive, held]
      · cases hstep
  | check =>
      simp only [System.stepSend, Option.ite_none_right_eq_some, Option.some.injEq] at hstep
      obtain ⟨waiting, rfl⟩ := hstep
      by_cases lost : TakenOver h.base send
      · refine .of_ends false taken rfl held (check_takenOver held waiting mine lost)
          (check_takenOver held waiting mine lost) rfl rfl ?_
        rw [answered_check, decisive_check held]
        simp [KeepsSlot, lost]
      · have moved : h.base.check .recover send =
            h.base.setTask .recover (some (.sending { send with phase := .checked })) := by
          simp only [System.check, ended_of_kept lost]
        rw [moved] at taken ⊢
        refine .goesOn _ setTask_held (stands.moved inv.wired taken rfl rfl fun _ => rfl) ?_
        simp [decisive_check held, KeepsSlot, lost]
  | take =>
      simp only [System.stepSend, Option.ite_none_right_eq_some, Option.some.injEq] at hstep
      obtain ⟨checked, rfl⟩ := hstep
      have decisive : Decisive h (.task .recover .take) := by simp [Decisive, held]
      cases busy : (h.base.outbox.slot send.work.kind).inFlight with
      | true =>
          have silent : callsRestart h.base (.task .recover .take) = false := by
            simp [callsRestart, held, busy]
          have moved : h.base.take .recover send =
              h.base.setTask .recover (some (.sending { send with phase := .waiting })) := by
            rw [System.take, if_pos busy]
          rw [moved] at taken ⊢
          refine .goesOn _ setTask_held ?_ decisive
          rw [record_restartCall rfl silent]
          exact stands.moved inv.wired taken rfl rfl fun _ => rfl
      | false =>
          have calls : callsRestart h.base (.task .recover .take) = isRestart send.work := by
            simp [callsRestart, held, busy]
          refine .goesOn (.sending { send with
            phase := .calling h.base.nextCall (h.base.now + send.policy.budget h.base.now) })
            ?_ ?_ decisive
          · rw [System.take, if_neg (by simp [busy])]
            exact setTask_held
          · obtain ⟨-, -, rest⟩ := stands.later inv.wired taken
            refine ⟨policy, mine, ?_⟩
            dsimp only
            split_ifs at rest ⊢ with restarts
            · intro n waits
              obtain rfl : h.base.nextCall = n := beq_iff_eq.mp waits
              simp [History.record, begins, calls, restarts]
            · rwa [record_restartCall rfl (by rw [calls]; simpa using restarts)]
  | timeOut =>
      simp only [System.stepSend] at hstep
      split at hstep
      · rename_i n giveUpAt calling
        rw [Option.ite_none_right_eq_some, Option.some.injEq] at hstep
        obtain ⟨late, rfl⟩ := hstep
        by_cases lost : TakenOver h.base send
        · refine .of_ends false taken rfl held (timeOut_takenOver held calling late mine lost)
            (timeOut_takenOver held calling late mine lost) rfl rfl ?_
          rw [answered_congr (congrArg Prod.fst System.endAttempt_host), decisive_timeOut held]
          simp [KeepsSlot, lost]
        · have decisive : Decisive h (.task .recover .timeOut) := by
            simp [decisive_timeOut held, KeepsSlot, lost]
          obtain ⟨result, judged, -⟩ | ⟨delay, last, -, backoff, wakeAt, epoch, task⟩ :=
            endAttempt_kept .recover lost .elapsed
          · simp [judge, policy, SendPolicy.overdue, SendPolicy.new] at judged
          · exact .goesOn _ task (stands.moved inv.wired taken rfl rfl fun _ => rfl) decisive
      · cases hstep

theorem decisive_answer {send : Send} {n : ℕ} {call : HostCall}
    (heard : Heard h.base send n call) (answer : Except CommandError String) :
    Decisive h (.answer n answer) ↔ Heeds h send answer := by
  simp [Decisive, heard.held, heard.waits]

theorem heeds_iff_decided {send : Send} {answer : Except CommandError String}
    {restartCall : Option ℕ} (done : answered t restartCall = true)
    (ends : ¬ (¬ TakenOver h.base send ∧ TakesOn h.base.machine send.work answer)) :
    Heeds h send answer ↔ (h.base.machine.state = .joined →
      answered t restartCall = true → false = true ∨ h.decided = true) := by
  simp only [Heeds, ends, imp_false, Bool.not_eq_false, Bool.false_eq_true, false_or, done,
    forall_const]

theorem settleSend_sends (s : System) (send : Send) {result : Except SendFailure String}
    {m : OwnMembershipMachine} {ob : Outbox} {work : Work}
    (h : settle s.machine s.outbox s.now send.work result = startSend m ob work .new) :
    ∃ next : Send, (s.settleSend .recover send result).tasks .recover = some (.sending next) ∧
      next.policy = .new ∧ next.work = work := by
  unfold System.settleSend
  rw [h, System.resume_tasks rfl, if_pos rfl]
  exact ⟨_, rfl, rfl, rfl⟩

theorem settle_rearm (m : OwnMembershipMachine) (ob : Outbox) (now : ℕ)
    {result : Except SendFailure String} (settled : (∃ id, result = .ok id) ∨
      ∃ error, result = .error (.refused error)) :
    ∃ m' : OwnMembershipMachine, settle m ob now .rearm result = republish m' ob true ∧
      m'.state = m.state ∧ m'.lastSticky = m.lastSticky := by
  obtain ⟨id, rfl⟩ | ⟨error, rfl⟩ := settled
  · exact ⟨_, rfl, rfl, rfl⟩
  · exact ⟨_, rfl, rfl, rfl⟩

theorem republish_cases {m : OwnMembershipMachine} (ob : Outbox) (published : Published m) :
    (m.state = .joined ∧ ∃ content, republish m ob true =
        startSend m ob (.republishRearmed content) .new) ∨
      (m.state ≠ .joined ∧ republish m ob true = finished (m.free .arming) ob) := by
  by_cases joined : m.state = .joined
  · obtain ⟨sticky, held⟩ := Option.isSome_iff_exists.mp (published joined)
    exact .inl ⟨joined, sticky.content, by simp [republish, held, startIfJoined, joined]⟩
  · refine .inr ⟨joined, ?_⟩
    unfold republish
    cases m.lastSticky with
    | none => rfl
    | some sticky => simp [startIfJoined, joined, Work.busy]

theorem rearmAndRepublish_cases {m : OwnMembershipMachine} (ob : Outbox)
    (free : m.arming = false) :
    (m.state = .joined ∧ ∃ m', rearmAndRepublish m ob = startSend m' ob .rearm .new) ∨
      (m.state ≠ .joined ∧ ∃ m' : OwnMembershipMachine,
        rearmAndRepublish m ob = finished m' ob ∧ m'.state = m.state) := by
  unfold rearmAndRepublish startIfJoined
  rw [if_neg (by simp [free])]
  by_cases joined : m.state = .joined
  · exact .inl ⟨joined, _, if_pos joined⟩
  · exact .inr ⟨joined, _, if_neg joined, free_state _ _⟩

/-- A send that retries is settled by a success or a refusal. -/
theorem judge_settled {backoff now : ℕ} {last : Option CommandError}
    {answer : Except CommandError String} {result : Except SendFailure String}
    (judged : judge .new backoff now last (.answered answer) = .done result) :
    (∃ value, answer = .ok value ∧ result = .ok value) ∨
      ∃ error, answer = .error error ∧ error.isPermanent = true ∧
        result = .error (.refused error) := by
  cases answer with
  | ok value =>
      cases judged
      exact .inl ⟨value, rfl, rfl⟩
  | error error =>
      cases permanent : error.isPermanent with
      | true =>
          simp only [judge, permanent, if_true, Verdict.done.injEq] at judged
          exact .inr ⟨error, rfl, permanent, judged.symm⟩
      | false => simp [judge, permanent, SendPolicy.new] at judged

section Settled
variable {send : Send} {n : ℕ} {call : HostCall} {answer : Except CommandError String}
variable {result : Except SendFailure String}

theorem actor_heard (heard : Heard h.base send n call) :
    actor h.base (.answer n answer) = some .recover := by
  simp [actor, heard.listed, heard.caller]

/-- The answer settles the send, and the operation goes on from there. -/
structure Settles (h : History) (send : Send) (n : ℕ) (call : HostCall)
    (answer : Except CommandError String) (result : Except SendFailure String) (t : System) :
    Prop extends Heard h.base send n call where
  kept : ¬ TakenOver h.base send
  judged : judge send.policy send.backoff h.base.now send.last (.answered answer) = .done result
  step : h.base.step (.answer n answer) = some t
  settled : t = ((h.base.recordAnswer n call answer).release send.work.kind).settleSend
    .recover send result
  done : answered t h.restartCall = true

/-- The recovery ends there, whatever `awaiting_catch_up` held. -/
theorem Settles.ends (settles : Settles h send n call answer result t) (stored : Bool)
    (finishes : ∀ awaiting, ∃ m : OwnMembershipMachine,
      (∀ ob, settle { h.base.machine with awaitingCatchUp := awaiting } ob h.base.now send.work
        result = finished m ob) ∧
      m.state = h.base.machine.state ∧ m.awaitingCatchUp = (stored || awaiting))
    (iff : Heeds h send answer ↔ (h.base.machine.state = .joined →
      answered t h.restartCall = true → stored = true ∨ h.decided = true)) :
    Move h (.answer n answer) t := by
  obtain ⟨m, ended, state, awaiting⟩ := finishes h.base.machine.awaitingCatchUp
  obtain ⟨m', ended', state', awaiting'⟩ := finishes false
  have here : Ends h.base (.answer n answer) stored :=
    settles.toHeard.ends settles.kept settles.judged ended state awaiting
  have cleared := settles.toHeard.touch { h.base.machine with awaitingCatchUp := false }
  exact .of_ends stored settles.step (actor_heard settles.toHeard) settles.held here
    (cleared.ends settles.kept settles.judged ended' state' awaiting') rfl rfl
    ((decisive_answer settles.toHeard answer).trans iff)

theorem Settles.goesOn (settles : Settles h send n call answer result t)
    {m : OwnMembershipMachine} (ob : Outbox) (work : Work)
    (next : settle h.base.machine (h.base.release send.work.kind).outbox h.base.now send.work
      result = startSend m ob work .new) (mine : OfRecovery work)
    (later : isRestart work = false) (heeded : TakesOn h.base.machine send.work answer) :
    Move h (.answer n answer) t := by
  obtain ⟨follow, task, policy, rfl⟩ := settleSend_sends
    ((h.base.recordAnswer n call answer).release send.work.kind) send next
  rw [← settles.settled] at task
  refine .goesOn _ task ⟨policy, mine, ?_⟩
    ((decisive_answer settles.toHeard answer).mpr fun _ _ => ⟨settles.kept, heeded⟩)
  rw [if_neg (by simp [later])]
  exact settles.done

theorem Settles.left (settles : Settles h send n call answer result t)
    {m : OwnMembershipMachine} (ob : Outbox)
    (ended : settle h.base.machine (h.base.release send.work.kind).outbox h.base.now send.work
      result = finished m ob) (state : m.state = h.base.machine.state)
    (away : h.base.machine.state ≠ .joined) : Move h (.answer n answer) t := by
  obtain ⟨task, machine⟩ := settleSend_ends
    ((h.base.recordAnswer n call answer).release send.work.kind) send ended
  rw [← settles.settled] at task machine
  exact .left task (by rwa [machine, state])
    ((decisive_answer settles.toHeard answer).mpr fun joined => absurd joined away)

/-- The restart is settled. -/
theorem Settles.restart (settles : Settles h send n call answer result t) {info : KeepAliveInfo}
    (work : send.work = .restart info .catchUp) (policy : send.policy = .new) :
    Move h (.answer n answer) t := by
  obtain ⟨value, rfl, rfl⟩ | ⟨error, rfl, permanent, rfl⟩ :=
    judge_settled (policy ▸ settles.judged)
  · refine settles.ends true (fun awaiting => ?_) ?_
    · rw [work]
      exact ⟨_, fun _ => rfl, rfl, rfl⟩
    · refine iff_of_true (fun _ _ => ⟨settles.kept, ?_⟩) fun _ _ => .inl rfl
      rw [work]
      trivial
  have refused : ∀ {m : OwnMembershipMachine} {ob : Outbox}, settle m ob h.base.now send.work
      (.error (.refused error)) =
        if isNotFound error = true then rearmAndRepublish m ob else finished m ob := by
    intro m ob
    rw [work]
    rfl
  have takes : TakesOn h.base.machine send.work (.error error) ↔
      isNotFound error = true ∧ h.base.machine.arming = false := by
    rw [work]
    simp [TakesOn, permanent]
  cases gone : isNotFound error with
  | false =>
      refine settles.ends false
        (fun awaiting => ⟨{ h.base.machine with awaitingCatchUp := awaiting }, fun ob => ?_,
          rfl, rfl⟩) (heeds_iff_decided settles.done ?_)
      · rw [refused, if_neg (by simp [gone])]
      · simp [takes, gone]
  | true =>
      cases arming : h.base.machine.arming with
      | true =>
          refine settles.ends false
            (fun awaiting => ⟨{ h.base.machine with awaitingCatchUp := awaiting }, fun ob => ?_,
              rfl, rfl⟩) (heeds_iff_decided settles.done ?_)
          · rw [refused, if_pos gone]
            simp only [rearmAndRepublish, arming, if_true]
          · simp [takes, arming]
      | false =>
          obtain ⟨-, m, begun⟩ | ⟨away, m, ended, state⟩ := rearmAndRepublish_cases
            (h.base.release send.work.kind).outbox arming
          · refine settles.goesOn (m := m) (h.base.release send.work.kind).outbox .rearm
              ?_ trivial rfl (takes.mpr ⟨gone, arming⟩)
            rw [refused, if_pos gone, begun]
          · refine settles.left (m := m) (h.base.release send.work.kind).outbox
              ?_ state away
            rw [refused, if_pos gone, ended]

/-- The re-arm is settled. -/
theorem Settles.rearm (settles : Settles h send n call answer result t)
    (published : Published h.base.machine) (work : send.work = .rearm)
    (policy : send.policy = .new) : Move h (.answer n answer) t := by
  have settling : (∃ id, result = .ok id) ∨ ∃ error, result = .error (.refused error) := by
    obtain ⟨value, -, rfl⟩ | ⟨error, -, -, rfl⟩ := judge_settled (policy ▸ settles.judged)
    · exact .inl ⟨value, rfl⟩
    · exact .inr ⟨error, rfl⟩
  obtain ⟨m, next, state, sticky⟩ := settle_rearm h.base.machine
    (h.base.release send.work.kind).outbox h.base.now settling
  rw [← work] at next
  have published' : Published m := by
    intro joined
    rw [sticky]
    exact published (state.symm.trans joined)
  obtain ⟨-, content, begun⟩ | ⟨away, ended⟩ := republish_cases
    (h.base.release send.work.kind).outbox published'
  · refine settles.goesOn _ _ (next.trans begun) trivial rfl ?_
    rw [work]
    cases answer <;> trivial
  · exact settles.left _ (next.trans ended) ((free_state _ _).trans state) (by rwa [← state])

theorem Settles.republish (settles : Settles h send n call answer result t)
    {content : MemberTransports} (work : send.work = .republishRearmed content)
    (policy : send.policy = .new) : Move h (.answer n answer) t := by
  have results := judge_settled (policy ▸ settles.judged)
  refine settles.ends false (fun awaiting => ?_) (heeds_iff_decided settles.done ?_) <;> rw [work]
  · obtain ⟨value, -, rfl⟩ | ⟨error, -, -, rfl⟩ := results
    · exact ⟨_, fun _ => rfl, rfl, rfl⟩
    · exact ⟨_, fun _ => rfl, rfl, rfl⟩
  · obtain ⟨value, rfl, -⟩ | ⟨error, rfl, permanent, -⟩ := results
    · simp [TakesOn]
    · simp [TakesOn, permanent]

end Settled

/-- The answer a recovery waits for. -/
theorem move_answer (inv : Inv h) {send : Send} {n : ℕ} {call : HostCall}
    {answer : Except CommandError String} (heard : Heard h.base send n call)
    (hstep : h.base.step (.answer n answer) = some t) : Move h (.answer n answer) t := by
  have stands := inv.stands _ heard.held
  obtain ⟨policy, mine, rest⟩ := id stands
  obtain rfl := Option.some.inj (heard.step.symm.trans hstep)
  have done : answered ((h.base.recordAnswer n call answer).endAttempt .recover send
      (.answered answer)) h.restartCall = true := by
    split_ifs at rest
    · rw [rest n heard.waits, answered_congr (congrArg Prod.fst System.endAttempt_host)]
      simp [answered, System.recordAnswer]
    · exact answered_mono inv.wired hstep rest
  have decisive := decisive_answer heard answer
  by_cases lost : TakenOver h.base send
  · refine .of_ends false hstep (actor_heard heard) heard.held (heard.takenOver mine lost)
      ((heard.touch _).takenOver mine lost) rfl rfl ?_
    exact decisive.trans (heeds_iff_decided done fun both => both.1 lost)
  obtain ⟨result, judged, ended⟩ | ⟨delay, last, judged, backoff, wakeAt, epoch, task⟩ :=
    endAttempt_kept (s := h.base.recordAnswer n call answer) .recover lost (.answered answer)
  · have settles : Settles h send n call answer result _ :=
      ⟨heard, lost, judged, hstep, ended, done⟩
    cases work : send.work with
    | restart info next =>
        rw [work] at mine
        obtain rfl : next = .catchUp := mine
        exact settles.restart work policy
    | rearm => exact settles.rearm inv.published work policy
    | republishRearmed content => exact settles.republish work policy
    | armIfDue | republish | refresh | joinArm | join | leave | cancel | cancelArmed =>
        rw [work] at mine
        cases mine
  · have transient : ∃ error, answer = .error error ∧ error.isPermanent = false := by
      cases answer with
      | ok value => cases judged
      | error error =>
          refine ⟨error, rfl, Bool.eq_false_iff.mpr fun permanent => ?_⟩
          simp [judge, permanent] at judged
    obtain ⟨error, rfl, transient⟩ := transient
    refine .goesOn _ task (stands.moved inv.wired hstep rfl rfl fun _ => rfl)
      (decisive.mpr fun _ _ => ⟨lost, ?_⟩)
    cases work : send.work <;> simp [TakesOn, transient]

theorem move_task (inv : Inv h) {event : TaskEvent}
    (hstep : h.base.step (.task .recover event) = some t) : Move h (.task .recover event) t := by
  cases held : h.base.tasks .recover with
  | none => cases event <;> simp [System.step, System.stepTask, held] at hstep
  | some task =>
      cases task with
      | created operation =>
          obtain ⟨jitter, rfl⟩ := inv.stands _ held
          cases event <;> simp only [System.step, System.stepTask, held, Option.some.injEq,
            reduceCtorEq] at hstep
          subst hstep
          refine .goesOn (.jitter (h.base.now + jitter)) ?_ trivial
            (decisive_of_task held (by simp))
          exact (System.resume_tasks rfl).trans (if_pos rfl)
      | jitter wakeAt => exact move_jitter held hstep
      | sending send => exact move_sending inv held hstep

/-- Every step makes one of these moves. -/
theorem move (inv : Inv h) (hstep : h.base.step a = some t) : Move h a t := by
  have w := inv.wired
  cases System.actionStep hstep with
  | tick | online | spawnUpkeep | lapseCheck | ownDeparture | catchUp | beginLeave =>
      exact .of_elsewhere w (by simp [actor]) rfl rfl
  | beat running =>
      have decisive : Decisive h .beat := decisive_of_actor w (by simp [actor])
      unfold System.beat
      split_ifs
      · refine .dropped ?_ (by simp [actor]) decisive
        rw [System.stopUpkeep_tasks]
        rfl
      · refine .of_elsewhere w (by simp [actor]) rfl ?_
        dsimp only
        rw [startIfIdle_elsewhere (by decide), System.setTask_tasks, if_neg (by decide),
          System.drop_tasks, if_neg (by decide)]
      · exact .of_elsewhere w (by simp [actor]) rfl (startIfIdle_elsewhere (by decide))
  | recovered jitter running =>
      cases held : h.base.tasks .recover with
      | none =>
          refine .begun jitter ?_ (decisive_of_actor w (by simp [actor]))
          simp [System.startIfIdle, held]
      | some task =>
          refine .of_elsewhere w (by simp [actor]) (by simp [begins, held]) ?_
          simp [System.startIfIdle, held]
  | wakeDeparture | wakeRepublish =>
      exact .of_elsewhere w (by simp [actor]) rfl (startIfIdle_elsewhere (by decide))
  | task o event t step =>
      by_cases own : o = .recover
      · subst own
        exact move_task inv hstep
      · exact .of_elsewhere w (by simpa [actor] using own) rfl (taskStep_elsewhere own step)
  | answer n call answer listed unanswered =>
      have step := h.base.answerStep n call answer
      by_cases own : call.caller = .recover
      · generalize answered : h.base.answer n call answer = t at step hstep ⊢
        cases step with
        | unheard away =>
            rw [own] at away
            refine .elsewhere rfl rfl rfl ?_
            unfold Decisive
            split
            · rename_i send held
              intro waits
              unfold waitsFor at waits
              split at waits
              · rename_i k giveUpAt calling
                obtain rfl := beq_iff_eq.mp waits
                exact absurd calling (away send giveUpAt held)
              · cases waits
            · trivial
        | heard send giveUpAt held calling =>
            rw [own] at held
            exact move_answer inv ⟨listed, unanswered, own, held, giveUpAt, calling⟩ hstep
      · refine .of_elsewhere w (by simpa [actor, listed] using own) rfl ?_
        generalize h.base.answer n call answer = t at step ⊢
        cases step with
        | unheard away => rfl
        | heard send giveUpAt held calling => exact endAttempt_elsewhere own
  | moveTransports | leave =>
      exact .of_elsewhere w (by simp [actor]) rfl (resume_elsewhere (by simp))
  | dropFuture o own attached =>
      have other : o ≠ .recover := by
        rintro rfl
        cases own
      refine .of_elsewhere w (by simp [actor]) rfl ?_
      rw [System.drop_tasks, if_neg other.symm]
  | abortUpkeep =>
      refine .dropped ?_ (by simp [actor]) (decisive_of_actor w (by simp [actor]))
      rw [System.stopUpkeep_tasks]
      rfl

/-- A recovery that goes on stands where it may. -/
theorem inv_step {h' : History} (inv : Inv h) (hstep : h.step a = some h') : Inv h' := by
  obtain ⟨t, taken, rfl⟩ := Option.map_eq_some_iff.mp hstep
  refine ⟨wired_step inv.wired taken, published_step inv.wired inv.published taken, ?_⟩
  intro task held
  have held' : t.tasks .recover = some task := held
  cases move inv taken with
  | elsewhere same ongoing silent decisive =>
      rw [record_restartCall ongoing silent]
      exact (inv.stands task (same.symm.trans held')).later inv.wired taken
  | begun jitter task' decisive =>
      cases task'.symm.trans held'
      exact ⟨jitter, rfl⟩
  | dropped gone | left gone | ends stored own was gone =>
      cases gone.symm.trans held'
  | goesOn task' here stands decisive =>
      cases here.symm.trans held'
      exact stands

theorem decided_record (inv : Inv h) (hstep : h.base.step a = some t) :
    Decided (h.record a t) ↔ Decided h ∧ Decisive h a := by
  have rests : finishes h.base a t = false → Decisive h a →
      (Decided (h.record a t) ↔ Decided h ∧ Decisive h a) := by
    intro unfinished decisive
    simp [Decided, History.record, unfinished, decisive]
  cases move inv hstep with
  | elsewhere same ongoing silent decisive =>
      refine rests ?_ decisive
      unfold finishes
      rw [same]
      cases h.base.tasks .recover <;> simp
  | begun jitter task decisive => exact rests (by simp [finishes, task]) decisive
  | dropped gone other decisive => exact rests (by simp [finishes, other]) decisive
  | goesOn task held stands decisive => exact rests (by simp [finishes, held]) decisive
  | left gone state decisive =>
      cases done : finishes h.base a t with
      | false => exact rests done decisive
      | true =>
          simp [Decided, History.record, done, decisive, Ending.Reached, state, or_imp,
            forall_and]
  | ends stored own was gone stores ongoing silent decisive =>
      have done : finishes h.base a t = true := by simp [finishes, own, was, gone]
      have unarmed : rearms h.base t .recover = false := by
        unfold rearms
        rw [gone]
        split
        · rename_i after
          cases after
        · rfl
      rw [decisive]
      simp only [Decided, History.record, done, if_true, ongoing, silent, Bool.false_eq_true,
        if_false, Bool.not_false, Bool.true_and, stores, own, Option.any_some, unarmed,
        Bool.or_false, List.mem_append, List.mem_singleton, or_imp, forall_and, forall_eq,
        Ending.Reached, decide_eq_true_eq, Bool.or_eq_true, History.decided]
      refine and_congr_right fun _ => forall_congr' fun _ => forall_congr' fun _ => ?_
      rw [or_comm (a := h.awaitingCatchUp = true), or_assoc]

end Moves

theorem inv_start (timings : MembershipTimings) (transports : MemberTransports) (deadline : ℕ)
    (now : UInt64) : Inv (.start timings transports deadline now) := by
  refine ⟨wired_start timings transports deadline now, ?_, ?_⟩
  · intro joined
    have state : (System.start timings transports deadline now).machine.state = .joining := by
      unfold System.start
      rw [System.resume_machine]
      rfl
    exact absurd (state.symm.trans joined) (by simp)
  · intro task held
    have idle : (System.start timings transports deadline now).tasks .recover = none :=
      resume_elsewhere (by decide)
    cases idle.symm.trans held

/-- Every recovery that finished while joined, with its restart answered, had reached a
decision, exactly if each step where one may end is decisive. -/
theorem recoveries_decide_iff (timings : MembershipTimings) (transports : MemberTransports)
    (deadline : ℕ) (now : UInt64) (trace : List Action) (h : History)
    (reach : run History.step (.start timings transports deadline now) trace = some h) :
    Decided h ↔
      Admissible History.step Decisive (.start timings transports deadline now) trace := by
  have each : ∀ h a h', Inv h → h.step a = some h' → (Decided h' ↔ Decided h ∧ Decisive h a) := by
    intro h a h' inv hstep
    obtain ⟨t, taken, rfl⟩ := Option.map_eq_some_iff.mp hstep
    exact decided_record inv taken
  have whole := run_iff_admissible (fun h a h' => inv_step) each
    (inv_start timings transports deadline now) reach
  exact whole.trans (and_iff_right fun e member => absurd member List.not_mem_nil)

section Runs

/-- Signalling is back, and the recovery's restart is at the host. -/
def restartAtHost : List Action :=
  joinLands ++ [.recovered 0, .task .recover .poll, .task .recover .jitterOver] ++
    attempt .recover

theorem restart_landed :
    ∃ h ∈ run History.step (.start timings transports 60000 0)
      (restartAtHost ++ [.answer 2 (.ok "")]), h.endings.length = 1 ∧ Decided h := by
  have reached : ∃ h ∈ run History.step (.start timings transports 60000 0)
      (restartAtHost ++ [.answer 2 (.ok "")]), h.endings.length = 1 := by decide
  obtain ⟨h, reach, one⟩ := reached
  exact ⟨h, reach, one, (recoveries_decide_iff timings transports 60000 0 _ h reach).mpr
    (by decide)⟩

/-- The beat restarts the delayed leave meanwhile, and the first restart lands. -/
def beatAtTheSameTime : List Action :=
  restartAtHost ++ [.beat, .task .restart .poll, .answer 2 (.ok "")]

/-- The recovery is superseded although its restart landed, and ends with neither. -/
theorem superseded_by_the_beat :
    ∃ h ∈ run History.step (.start timings transports 60000 0) beatAtTheSameTime,
      h.endings = [⟨true, true, false, false⟩] ∧ ¬ Decided h := by decide

end Runs

end MatrixRtc.RecoveryDecisions

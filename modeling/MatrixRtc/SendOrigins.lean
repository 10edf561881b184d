import MatrixRtc.LeaveOrder

/-!
# Where the sends under way come from

A send under way after a step was under way before it, perhaps in another phase or about
to be retried, or it was registered by the segment an operation ran in the step. The
segments a step can run are listed once, each with what it is run from, so that a
property of the sends has to be shown of the segments alone. Two are shown here: a send
keeps to the policy of its work, and only few segments put a join's content on its way.
-/
namespace MatrixRtc.SendOrigins
open HostAnswers MemberEvents Outboxes OwnMembership MembershipUpkeep OperationSegments
open UpkeepInvariants LeaveOrder StepRuns

/-- How the attempt of `o` at call `n` is over. -/
inductive AttemptOver (o : Owner) (n : ℕ) : Action → AttemptOutcome → Prop
  | elapsed : AttemptOver o n (.task o .timeOut) .elapsed
  | answered (result : Except CommandError String) :
      AttemptOver o n (.answer n result) (.answered result)

/-- The attempt of a send that has not ended is over. -/
structure Attempted (s : System) (o : Owner) (a : Action) (send : Send) (outcome : AttemptOutcome) :
    Prop where
  held : s.tasks o = some (.sending send)
  current : (s.outbox.slot send.work.kind).ended send.generation = none
  made : ∃ n giveUpAt, send.phase = .calling n giveUpAt ∧ AttemptOver o n a outcome

/-- Why a send fails without having its attempt judged. -/
inductive Fails (s : System) (send : Send) : SendFailure → Prop
  | ended (failure : SendFailure)
      (ended : (s.outbox.slot send.work.kind).ended send.generation = some failure) :
      Fails s send failure
  | overdue (overdue : send.policy.overdue s.now = true) :
      Fails s send (.deadlineElapsed send.last)

/-- The segment an operation of `o` runs in a step, with what it is run from. -/
inductive RunsIn (s : System) (o : Owner) : Action → Segment → Prop
  | polled (operation : Operation) (held : s.tasks o = some (.created operation)) :
      RunsIn s o (.task o .poll) (startOperation s.machine s.outbox s.now operation)
  | waited (wakeAt : ℕ) (held : s.tasks o = some (.jitter wakeAt)) :
      RunsIn s o (.task o .jitterOver) (recoverNow s.machine s.outbox s.now)
  | failed (a : Action) (send : Send) (failure : SendFailure) (ob : Outbox)
      (held : s.tasks o = some (.sending send)) (fails : Fails s send failure) :
      RunsIn s o a (settle s.machine ob s.now send.work (.error failure))
  | settled (a : Action) (send : Send) (outcome : AttemptOutcome)
      (result : Except SendFailure String) (ob : Outbox) (attempted : Attempted s o a send outcome)
      (judged : judge send.policy send.backoff s.now send.last outcome = .done result) :
      RunsIn s o a (settle s.machine ob s.now send.work result)
  | moved (n : ℕ) (transport : RawRtcTransport) (mine : o = .transport n) :
      RunsIn s o (.moveTransports n transport) (republishTransports s.machine s.outbox transport)
  | left (reason : Option LeaveReason) (mine : o = .leave) :
      RunsIn s o (.leave reason) (OwnMembership.leave s.machine s.outbox s.now reason)

/-- How a send under way after a step comes to be there. -/
inductive Fate (s : System) (a : Action) (o : Owner) (send : Send) : Prop
  | kept (held : s.tasks o = some (.sending send))
  | moved (before : Send) (phase : Phase) (held : s.tasks o = some (.sending before))
      (away : ∀ n g, before.phase ≠ .calling n g) (same : send = { before with phase := phase })
  | retried (before : Send) (outcome : AttemptOutcome) (delay : ℕ) (last : Option CommandError)
      (attempted : Attempted s o a before outcome)
      (judged : judge before.policy before.backoff s.now before.last outcome = .retry delay last)
      (work : send.work = before.work) (policy : send.policy = before.policy)
  | registered (g : Segment) (ran : RunsIn s o a g) (task : g.task = some (.sending send))

section
variable {s t : System} {a : Action} {o : Owner} {send : Send}

/-- A send under way after a segment of `o'`, run from where the other operations stand
as before. -/
theorem fate_resume {o' : Owner} {g : Segment} {r : System} (elsewhere : r.tasks = s.tasks)
    (ran : RunsIn s o' a g) (held : (r.resume o' g).tasks o = some (.sending send)) :
    Fate s a o send := by
  obtain ⟨rfl, task⟩ | ⟨-, before⟩ := resume_sending held
  · exact .registered g ran task
  · exact .kept (elsewhere ▸ before)

theorem fate_startIfIdle {o' : Owner} {operation : Operation}
    (held : (s.startIfIdle o' operation).tasks o = some (.sending send)) :
    s.tasks o = some (.sending send) := by
  unfold System.startIfIdle at held
  split_ifs at held with idle
  · simp only [System.setTask_tasks] at held
    split_ifs at held with mine
    · cases held
    · exact held
  · exact held

theorem fate_drop {o' : Owner} (held : (s.drop o').tasks o = some (.sending send)) :
    s.tasks o = some (.sending send) := by
  rw [System.drop_tasks] at held
  split_ifs at held
  exact held

theorem fate_stopUpkeep (held : s.stopUpkeep.tasks o = some (.sending send)) :
    s.tasks o = some (.sending send) := by
  rw [System.stopUpkeep_tasks] at held
  split_ifs at held
  exact held

theorem fate_beat (held : s.beat.tasks o = some (.sending send)) :
    s.tasks o = some (.sending send) := by
  unfold System.beat at held
  dsimp only at held
  split_ifs at held
  · exact fate_stopUpkeep held
  · have restarted := fate_startIfIdle held
    simp only [System.setTask_tasks] at restarted
    split_ifs at restarted with mine
    · cases restarted
    · exact fate_drop restarted
  · exact fate_startIfIdle held

/-- After its attempt a send has ended, is settled or waits to be retried. -/
theorem fate_endAttempt {o' : Owner} {before : Send} {outcome : AttemptOutcome} {r : System}
    (same : r.tasks = s.tasks ∧ r.machine = s.machine ∧ r.outbox = s.outbox ∧ r.now = s.now)
    (there : s.tasks o' = some (.sending before)) {n g : ℕ} (calling : before.phase = .calling n g)
    (made : AttemptOver o' n a outcome)
    (held : (r.endAttempt o' before outcome).tasks o = some (.sending send)) :
    Fate s a o send := by
  obtain ⟨tasks, machine, outbox, now⟩ := same
  unfold System.endAttempt at held
  dsimp only at held
  have ended_same : ((r.release before.work.kind).outbox.slot before.work.kind).ended
      before.generation = (s.outbox.slot before.work.kind).ended before.generation := by
    rw [release_ended, outbox]
  cases ended : (s.outbox.slot before.work.kind).ended before.generation with
  | some failure =>
      rw [ended_same, ended] at held
      have ran := RunsIn.failed a before failure (r.release before.work.kind).outbox there
        (.ended failure ended)
      rw [← machine, ← now] at ran
      exact fate_resume (r := r.release before.work.kind) tasks ran held
  | none =>
      rw [ended_same, ended] at held
      have attempted : Attempted s o' a before outcome := ⟨there, ended, n, g, calling, made⟩
      have judged_same : judge before.policy before.backoff (r.release before.work.kind).now
          before.last outcome = judge before.policy before.backoff s.now before.last outcome := by
        rw [← now]
        rfl
      cases judged : judge before.policy before.backoff s.now before.last outcome with
      | done result =>
          rw [judged_same, judged] at held
          have ran := RunsIn.settled a before outcome result
            (r.release before.work.kind).outbox attempted judged
          rw [← machine, ← now] at ran
          exact fate_resume (r := r.release before.work.kind) tasks ran held
      | retry delay last =>
          rw [judged_same, judged] at held
          simp only [System.setTask_tasks] at held
          split_ifs at held with mine
          · subst mine
            cases held
            exact .retried before outcome delay last attempted judged rfl rfl
          · exact .kept (tasks ▸ held)

theorem fate_taskStep {o' : Owner} {event : TaskEvent}
    (step : System.TaskStep s o' event t) (held : t.tasks o = some (.sending send)) :
    Fate s (.task o' event) o send := by
  cases step with
  | polled operation there => exact fate_resume rfl (.polled operation there) held
  | waited wakeAt there => exact fate_resume rfl (.waited wakeAt there) held
  | moved event before phase there away after =>
      simp only [System.setTask_tasks] at held
      split_ifs at held with mine
      · subst mine
        cases held
        exact .moved before phase there away rfl
      · exact .kept held
  | failed event before failure there away reason =>
      refine fate_resume rfl (.failed _ before failure s.outbox there ?_) held
      obtain ended | ⟨-, rfl, overdue⟩ := reason
      · exact .ended failure ended
      · exact .overdue overdue
  | started before there checked idle =>
      rw [System.take, if_neg (by simp [idle])] at held
      simp only [System.setTask_tasks] at held
      split_ifs at held with mine
      · subst mine
        cases held
        exact .moved before _ there (by simp [checked]) rfl
      · exact .kept held
  | timedOut before n giveUpAt there calling late =>
      exact fate_endAttempt ⟨rfl, rfl, rfl, rfl⟩ there calling .elapsed held

/-- What a step can have done for a send to be under way after it. -/
theorem fate (h : s.step a = some t) (held : t.tasks o = some (.sending send)) :
    Fate s a o send := by
  cases System.actionStep h with
  | tick | online | spawnUpkeep | lapseCheck | ownDeparture | catchUp | beginLeave =>
      exact .kept held
  | beat => exact .kept (fate_beat held)
  | recovered => exact .kept (fate_startIfIdle held)
  | wakeDeparture running departed =>
      exact .kept (fate_startIfIdle
        (s := { s with machine := { s.machine with departed := false } })
        held)
  | wakeRepublish running requested =>
      exact .kept (fate_startIfIdle
        (s := { s with machine := { s.machine with republishRequested := false } }) held)
  | task o' event t step => exact fate_taskStep step held
  | answer n call result listed unanswered =>
      have step := s.answerStep n call result
      generalize s.answer n call result = u at step held
      cases step with
      | unheard away => exact .kept held
      | heard before giveUpAt there calling =>
          exact fate_endAttempt (r := s.recordAnswer n call result) ⟨rfl, rfl, rfl, rfl⟩ there
            calling (.answered result) held
  | moveTransports n transport idle => exact fate_resume rfl (.moved n transport rfl) held
  | leave reason begun idle => exact fate_resume rfl (.left reason rfl) held
  | dropFuture => exact .kept (fate_drop held)
  | abortUpkeep => exact .kept (fate_stopUpkeep held)

end

/-- The policy each kind of work is sent under. -/
def PolicyFits : Work → SendPolicy → Prop
  | .joinArm _ _, policy => ∃ deadline, policy = SendPolicy.single.until deadline
  | .join _, policy => ∃ deadline, policy = SendPolicy.new.until deadline
  | .armIfDue, policy | .leave _, policy | .cancel _, policy | .cancelArmed _, policy =>
      policy = .single
  | .restart _ _, policy | .rearm, policy | .republishRearmed _, policy | .republish _, policy
  | .refresh _, policy => policy = .new

/-- The machine has a membership it would put back. -/
def CanPublish (m : OwnMembershipMachine) : Prop := m.state = .joined ∧ m.lastSticky.isSome = true

/-- The sticky entry is due for its refresh, and none is under way. -/
def RefreshDue (m : OwnMembershipMachine) (now : ℕ) : Prop :=
  m.state = .joined ∧ m.refreshing = false ∧
    m.lastSticky.any (fun sticky =>
      m.publishedLifetimeMs / stickyRefreshFraction ≤ now - sticky.sentAtMs) = true

/-- The first segment of the operation publishes the membership. -/
def PutsBack (m : OwnMembershipMachine) (now : ℕ) : Operation → Prop
  | .refresh => RefreshDue m now
  | .republish => CanPublish m
  | .recoverDeparture => m.keepAliveInfo = none ∧ CanPublish m
  | .restart _ _ | .recover _ | .cancelArmed _ => False

/-- The operation goes on from this result of its send to publish the membership. -/
def GoesOn (m : OwnMembershipMachine) : Work → Except SendFailure String → Prop
  | .restart _ .republish, .ok _ => CanPublish m
  | .rearm, .ok _ => CanPublish m
  | .rearm, .error failure => failure ≠ .superseded ∧ failure ≠ .cancelled ∧ CanPublish m
  | .joinArm _ _, _ => True
  | _, _ => False

instance (m : OwnMembershipMachine) : Decidable (CanPublish m) :=
  inferInstanceAs (Decidable (_ ∧ _))

instance (m : OwnMembershipMachine) (now : ℕ) : Decidable (RefreshDue m now) :=
  inferInstanceAs (Decidable (_ ∧ _ ∧ _))

instance (m : OwnMembershipMachine) (now : ℕ) (operation : Operation) :
    Decidable (PutsBack m now operation) := by
  cases operation <;> unfold PutsBack <;> infer_instance

/-- A segment registers a send under its own policy, and one with a join's content only
where `puts` holds. -/
def Sends (puts : Prop) (g : Segment) : Prop :=
  ∀ send, g.task = some (.sending send) →
    PolicyFits send.work send.policy ∧ (publishesJoin send.work.request = true → puts)

section Segments
variable {puts : Prop} {m : OwnMembershipMachine} {ob : Outbox} {now : ℕ}

theorem Sends.imp {weaker : Prop} {g : Segment} (h : Sends puts g) (imp : puts → weaker) :
    Sends weaker g :=
  fun send task => ⟨(h send task).1, fun content => imp ((h send task).2 content)⟩

theorem sends_finished : Sends puts (finished m ob) := fun _ task => by cases task

theorem sends_startSend {work : Work} {policy : SendPolicy} (fits : PolicyFits work policy)
    (content : publishesJoin work.request = true → puts) :
    Sends puts (startSend m ob work policy) := by
  rintro send ⟨⟩
  exact ⟨fits, content⟩

theorem sends_startIfJoined {work : Work} {policy : SendPolicy} (fits : PolicyFits work policy)
    (content : m.state = .joined → publishesJoin work.request = true → puts) :
    Sends puts (startIfJoined m ob work policy) := by
  unfold startIfJoined
  split_ifs with joined
  · exact sends_startSend fits (content joined)
  · exact sends_finished

theorem sends_republish {rearmed : Bool} : Sends (CanPublish m) (republish m ob rearmed) := by
  unfold republish
  cases sticky : m.lastSticky with
  | none => exact sends_finished
  | some sent =>
      refine sends_startIfJoined ?_ fun joined _ => ⟨joined, by simp [sticky]⟩
      cases rearmed <;> rfl

theorem sends_armIfDue : Sends puts (armIfDue m ob now) := by
  unfold armIfDue
  split_ifs
  · exact sends_finished
  · exact sends_startIfJoined rfl fun _ content => by cases content

theorem sends_rearmAndRepublish : Sends puts (rearmAndRepublish m ob) := by
  unfold rearmAndRepublish
  split_ifs
  · exact sends_finished
  · exact sends_startIfJoined rfl fun _ content => by cases content

theorem sends_restart {clockFallback : Bool} {next : After} :
    Sends puts (restart m ob now clockFallback next) := by
  unfold restart
  cases m.keepAliveInfo with
  | none => exact sends_armIfDue
  | some info =>
      dsimp only
      split_ifs
      · exact sends_rearmAndRepublish
      · exact sends_startIfJoined rfl fun _ content => by cases content

theorem sends_refreshIfDue : Sends (RefreshDue m now) (refreshIfDue m ob now) := by
  unfold refreshIfDue
  cases sticky : m.lastSticky with
  | none => exact sends_finished
  | some sent =>
      dsimp only
      split_ifs with early
      · exact sends_finished
      · rw [not_or, not_lt, Bool.not_eq_true] at early
        refine sends_startIfJoined rfl fun joined _ => ⟨joined, early.2, ?_⟩
        simpa [sticky] using early.1

theorem sends_recoverNow : Sends puts (recoverNow m ob now) := by
  unfold recoverNow
  split_ifs
  · exact sends_finished
  · exact sends_restart
  · exact sends_finished

theorem sends_recoverDeparture :
    Sends (m.keepAliveInfo = none ∧ CanPublish m) (recoverDeparture m ob now) := by
  unfold recoverDeparture
  split_ifs with away armed
  · exact sends_finished
  · exact sends_restart
  · exact sends_republish.imp fun can => ⟨by simpa using armed, can⟩

theorem sends_startOperation {operation : Operation} :
    Sends (PutsBack m now operation) (startOperation m ob now operation) := by
  cases operation with
  | restart clockFallback next => exact sends_restart
  | refresh => exact sends_refreshIfDue
  | recover jitter => exact fun _ task => by cases task
  | recoverDeparture => exact sends_recoverDeparture
  | republish => exact sends_republish
  | cancelArmed id => exact sends_startSend rfl fun content => by cases content

theorem sends_republishTransports {transport : RawRtcTransport} :
    Sends (m.state = .joined ∧ m.lastSticky.any (!·.content.published.isEmpty) = true)
      (republishTransports m ob transport) := by
  unfold republishTransports
  cases sticky : m.lastSticky with
  | none => exact sends_finished
  | some sent =>
      dsimp only
      split_ifs with nothing
      · exact sends_finished
      · exact sends_republish.imp fun can => ⟨can.1, by simpa [sticky] using nothing⟩

theorem sends_leave {reason : Option LeaveReason} :
    Sends puts (OwnMembership.leave m ob now reason) :=
  sends_startSend rfl fun content => by cases content

theorem sends_afterRearm {result : Except SendFailure String} :
    Sends (GoesOn m .rearm result) (afterRearm m ob now result) := by
  cases result with
  | ok id => exact sends_republish
  | error failure =>
      cases failure with
      | superseded | cancelled => exact sends_finished
      | refused | deadlineElapsed | timedOut | failed =>
          exact sends_republish.imp fun can => ⟨by simp, by simp, can⟩

theorem sends_settle {work : Work} {result : Except SendFailure String} :
    Sends (GoesOn m work result) (settle m ob now work result) := by
  cases work with
  | restart info next =>
      cases result with
      | ok value =>
          cases next with
          | nothing | catchUp => exact sends_finished
          | republish => exact sends_republish
      | error failure =>
          cases failure with
          | refused error =>
              simp only [settle]
              split_ifs
              · exact sends_rearmAndRepublish
              · exact sends_finished
          | superseded | cancelled | deadlineElapsed | timedOut | failed => exact sends_finished
  | armIfDue =>
      cases result with
      | ok id => exact sends_finished
      | error failure => cases failure <;> exact sends_finished
  | rearm => exact sends_afterRearm
  | republishRearmed content | republish content | refresh content =>
      cases result <;> exact sends_finished
  | joinArm content deadline =>
      cases result <;> exact sends_startSend ⟨_, rfl⟩ fun _ => trivial
  | join content => cases result <;> exact fun _ task => by cases task
  | leave reason =>
      cases result with
      | error failure => exact sends_finished
      | ok eventId =>
          simp only [settle, afterLeave]
          split
          · exact sends_startSend rfl fun content => by cases content
          · exact sends_finished
  | cancel id | cancelArmed id => exact sends_finished

end Segments

/-- The join is over and was not given up. -/
def Past (state : OwnMembershipState) : Prop :=
  state = .joined ∨ state = .leaving ∨ state = .left

section
variable {s t : System} {a : Action} {o : Owner}

theorem past_advance {before after : OwnMembershipState} (past : Past before)
    (advance : Advance o before after) : Past after := by
  cases advance with
  | same => exact past
  | joined | failed => simp [Past] at past
  | left => exact .inr (.inr rfl)

theorem past_resume {g : Segment} (past : Past s.machine.state)
    (runs : Runs o s.machine s.outbox g) : Past (s.resume o g).machine.state := by
  rw [System.resume_machine]
  exact past_advance past runs.advance

theorem past_endAttempt {send : Send} {outcome : AttemptOutcome} (past : Past s.machine.state)
    (fits : WorkFits o s.machine.state send.work) :
    Past (s.endAttempt o send outcome).machine.state := by
  have settled : ∀ result,
      Past ((s.release send.work.kind).settleSend o send result).machine.state := fun result =>
    past_resume (s := s.release send.work.kind) past (runs_settle fits)
  unfold System.endAttempt
  dsimp only
  split
  · exact settled _
  · split
    · exact settled _
    · exact past

/-- A machine past its join never joins again. -/
theorem past_step (w : Wired s) (past : Past s.machine.state) (h : s.step a = some t) :
    Past t.machine.state := by
  cases System.actionStep h with
  | tick | online | spawnUpkeep | lapseCheck => exact past
  | beat => rwa [System.beat_state]
  | recovered => simpa using past
  | wakeDeparture => simpa using past
  | wakeRepublish => simpa using past
  | task o event t step =>
      cases step with
      | polled operation held => exact past_resume past (runs_startOperation (w.placed o _ held))
      | waited wakeAt held => exact past_resume past runs_recoverNow
      | moved => exact past
      | failed event send failure held away reason =>
          exact past_resume past (runs_settle (w.registered held).fits)
      | started send held checked idle =>
          rw [System.take, if_neg (by simp [idle])]
          exact past
      | timedOut send n giveUpAt held calling late =>
          exact past_endAttempt past (w.registered held).fits
  | answer n call result listed unanswered =>
      have step := s.answerStep n call result
      generalize s.answer n call result = t at step ⊢
      cases step with
      | unheard away => exact past
      | heard send giveUpAt held calling =>
          exact past_endAttempt (s := s.recordAnswer n call result) past (w.registered held).fits
  | ownDeparture reason =>
      obtain ⟨departed, same⟩ := s.machine.onOwnDeparture_flags reason
      rwa [same]
  | catchUp own =>
      obtain ⟨awaiting, requested, same⟩ := s.machine.onCatchUp_flags own
      rwa [same]
  | moveTransports => exact past_resume past runs_republishTransports
  | beginLeave joined => exact .inr (.inl (beginLeave_state (.inl joined)))
  | leave reason begun idle =>
      rw [resume_leave, System.resume_machine]
      exact .inr (.inl (beginLeave_state begun))
  | dropFuture => rwa [System.drop_state]
  | abortUpkeep => rwa [System.stopUpkeep_state]

end

/-- Every send under way keeps to the policy of its work. -/
def Policies (s : System) : Prop :=
  ∀ o send, s.tasks o = some (.sending send) → PolicyFits send.work send.policy

section
variable {s t : System} {a : Action} {o : Owner}

theorem RunsIn.policy {g : Segment} (ran : RunsIn s o a g) {send : Send}
    (task : g.task = some (.sending send)) : PolicyFits send.work send.policy := by
  cases ran with
  | polled => exact (sends_startOperation send task).1
  | waited => exact (@sends_recoverNow True _ _ _ send task).1
  | failed | settled => exact (sends_settle send task).1
  | moved => exact (sends_republishTransports send task).1
  | left => exact (@sends_leave True _ _ _ _ send task).1

theorem policies_step (p : Policies s) (h : s.step a = some t) : Policies t := by
  intro o send held
  cases fate h held with
  | kept before => exact p o send before
  | moved before phase there away same =>
      rw [same]
      exact p o before there
  | retried before outcome delay last attempted judged work policy =>
      rw [work, policy]
      exact p o before attempted.held
  | registered g ran task => exact ran.policy task

theorem policies_start (timings : MembershipTimings) (transports : MemberTransports)
    (deadline : ℕ) (now : UInt64) : Policies (.start timings transports deadline now) := by
  intro o send held
  obtain ⟨-, task⟩ | ⟨-, none_⟩ := resume_sending held
  · exact (@sends_startSend True _ _ _ _ (by exact ⟨_, rfl⟩) (fun _ => trivial) send task).1
  · cases none_

end

end MatrixRtc.SendOrigins

import MatrixRtc.UpkeepInvariants

/-!
# The lifetime a join settles on

The durations a machine states to the homeserver: its delayed leaves' is fixed, and that
of its memberships is settled with the join's own delayed leave, before the first of them
is sent. No operation begins another one of these.
-/
namespace MatrixRtc.PublishedLifetimes
open HostAnswers MemberEvents Outboxes OwnMembership MembershipUpkeep OperationSegments
open UpkeepInvariants

/-- The duration stated for a delayed leave, and for a membership. -/
def lifetimes (m : OwnMembershipMachine) : ℕ × ℕ := (m.stickyDurationMs, m.publishedLifetimeMs)

/-- The send of the join's own delayed leave. -/
def armsJoin : Work → Bool
  | .joinArm .. => true
  | .restart .. | .armIfDue | .rearm | .republishRearmed _ | .republish _ | .refresh _ | .join _
  | .leave _ | .cancel _ | .cancelArmed _ => false

def armsTask : Task → Bool
  | .sending send => armsJoin send.work
  | .created _ | .jitter _ => false

/-- The join has not settled on a lifetime. -/
def Arming (s : System) : Prop := (s.tasks .join).any armsTask = true

/-- What a segment does to the durations, and what it does not begin. -/
structure Keeps (m : OwnMembershipMachine) (g : Segment) : Prop where
  durations : lifetimes g.machine = lifetimes m
  task : g.task.any armsTask = false

section Segments
variable {m m' : OwnMembershipMachine} {ob : Outbox} {now : ℕ}

@[simp] theorem lifetimes_free (busy : Busy) : lifetimes (m.free busy) = lifetimes m := by
  cases busy <;> rfl

theorem keeps_finished (same : lifetimes m' = lifetimes m) : Keeps m (finished m' ob) := by
  constructor
  · exact same
  · rfl

theorem keeps_startSend {work : Work} {policy : SendPolicy} (same : lifetimes m' = lifetimes m)
    (other : armsJoin work = false) : Keeps m (startSend m' ob work policy) := by
  constructor
  · exact same
  · exact other

theorem keeps_startIfJoined {work : Work} {policy : SendPolicy}
    (same : lifetimes m' = lifetimes m) (other : armsJoin work = false) :
    Keeps m (startIfJoined m' ob work policy) := by
  unfold startIfJoined
  split_ifs
  · exact keeps_startSend same other
  · apply keeps_finished
    rw [lifetimes_free, same]

theorem keeps_republish {rearmed : Bool} (same : lifetimes m' = lifetimes m) :
    Keeps m (republish m' ob rearmed) := by
  unfold republish
  cases m'.lastSticky with
  | none =>
      apply keeps_finished
      cases rearmed <;> simpa using same
  | some sticky =>
      apply keeps_startIfJoined same
      cases rearmed <;> rfl

theorem keeps_republishTransports {transport : RawRtcTransport} :
    Keeps m (republishTransports m ob transport) := by
  unfold republishTransports
  cases m.lastSticky with
  | none => exact keeps_finished rfl
  | some sticky =>
      dsimp only
      split_ifs
      · exact keeps_finished rfl
      · exact keeps_republish rfl

theorem keeps_rearmAndRepublish (same : lifetimes m' = lifetimes m) :
    Keeps m (rearmAndRepublish m' ob) := by
  unfold rearmAndRepublish
  split_ifs
  · exact keeps_finished same
  · exact keeps_startIfJoined same rfl

theorem keeps_restart {clockFallback : Bool} {next : After} :
    Keeps m (restart m ob now clockFallback next) := by
  unfold restart
  cases m.keepAliveInfo with
  | none =>
      dsimp only
      unfold armIfDue
      split_ifs
      · exact keeps_finished rfl
      · exact keeps_startIfJoined rfl rfl
  | some info =>
      dsimp only
      split_ifs
      · exact keeps_rearmAndRepublish rfl
      · exact keeps_startIfJoined rfl rfl

theorem keeps_recoverNow : Keeps m (recoverNow m ob now) := by
  unfold recoverNow
  split_ifs
  · exact keeps_finished rfl
  · exact keeps_restart
  · exact keeps_finished rfl

theorem keeps_startOperation {operation : Operation} :
    Keeps m (startOperation m ob now operation) := by
  cases operation with
  | restart clockFallback next => exact keeps_restart
  | refresh =>
      simp only [startOperation, refreshIfDue]
      cases m.lastSticky with
      | none => exact keeps_finished rfl
      | some sticky =>
          dsimp only
          split_ifs
          · exact keeps_finished rfl
          · exact keeps_startIfJoined rfl rfl
  | recover jitter => exact ⟨rfl, rfl⟩
  | recoverDeparture =>
      simp only [startOperation, recoverDeparture]
      split_ifs
      · exact keeps_finished rfl
      · exact keeps_restart
      · exact keeps_republish rfl
  | republish => exact keeps_republish rfl
  | cancelArmed id => exact keeps_startSend rfl rfl

theorem keeps_afterRestart {next : After} (same : lifetimes m' = lifetimes m) :
    Keeps m (afterRestart m' ob next) := by
  cases next with
  | nothing => exact keeps_finished same
  | catchUp => exact keeps_finished same
  | republish => exact keeps_republish same

theorem keeps_afterRearm {result : Except SendFailure String} :
    Keeps m (afterRearm m ob now result) := by
  cases result with
  | ok id => exact keeps_republish rfl
  | error failure =>
      cases failure <;> first | exact keeps_republish rfl | exact keeps_finished rfl

theorem keeps_afterLeave {result : Except SendFailure String} :
    Keeps m (afterLeave m ob result) := by
  cases result with
  | error failure => exact keeps_finished rfl
  | ok eventId =>
      simp only [afterLeave]
      cases m.keepAliveInfo with
      | none => exact keeps_finished rfl
      | some info => exact keeps_startSend rfl rfl

/-- Only the result of the join's own delayed leave settles a lifetime. -/
theorem keeps_settle {work : Work} {result : Except SendFailure String}
    (other : armsJoin work = false) : Keeps m (settle m ob now work result) := by
  cases work with
  | joinArm content deadline => cases other
  | restart info next =>
      cases result with
      | ok value => exact keeps_afterRestart rfl
      | error failure =>
          cases failure with
          | refused error =>
              simp only [settle]
              split_ifs
              · exact keeps_rearmAndRepublish rfl
              · exact keeps_finished rfl
          | superseded | cancelled | deadlineElapsed | timedOut | failed =>
              exact keeps_finished rfl
  | armIfDue =>
      cases result with
      | ok id => exact keeps_finished rfl
      | error failure => cases failure <;> exact keeps_finished rfl
  | rearm => exact keeps_afterRearm
  | republishRearmed content | republish content | refresh content =>
      cases result <;> exact keeps_finished rfl
  | join content => cases result <;> exact ⟨rfl, rfl⟩
  | leave reason => exact keeps_afterLeave
  | cancel id => exact keeps_finished rfl
  | cancelArmed id => exact keeps_finished rfl

theorem stickyDuration_settle_joinArm {content : MemberTransports} {deadline : ℕ}
    {result : Except SendFailure String} :
    (settle m ob now (.joinArm content deadline) result).machine.stickyDurationMs =
      m.stickyDurationMs := by
  cases result <;> rfl

end Segments

/-- What a step does to the durations: a membership's is settled while the join arms its
delayed leave, and no step begins that. -/
structure KeepsOn (s t : System) : Prop where
  sticky : t.machine.stickyDurationMs = s.machine.stickyDurationMs
  published : ¬ Arming s → t.machine.publishedLifetimeMs = s.machine.publishedLifetimeMs
  arming : Arming t → Arming s

section Steps
variable {s t u : System} {o : Owner}

theorem KeepsOn.of_lifetimes (same : lifetimes t.machine = lifetimes s.machine)
    (arming : Arming t → Arming s) : KeepsOn s t := by
  simp only [lifetimes, Prod.mk.injEq] at same
  constructor
  · exact same.1
  · intro _
    exact same.2
  · exact arming

theorem KeepsOn.refl (s : System) : KeepsOn s s := .of_lifetimes rfl id

theorem KeepsOn.trans (first : KeepsOn s t) (then_ : KeepsOn t u) : KeepsOn s u := by
  constructor
  · exact then_.sticky.trans first.sticky
  · intro settled
    have settled' : ¬ Arming t := settled ∘ first.arming
    exact (then_.published settled').trans (first.published settled)
  · exact first.arming ∘ then_.arming

theorem resume_tasks_join {g : Segment} :
    (s.resume o g).tasks .join = if .join = o then g.task else s.tasks .join := by
  unfold System.resume
  cases g.spawned <;> rfl

theorem keepsOn_resume {g : Segment} (keeps : Keeps s.machine g) : KeepsOn s (s.resume o g) := by
  apply KeepsOn.of_lifetimes
  · rw [System.resume_machine]
    exact keeps.durations
  · unfold Arming
    rw [resume_tasks_join]
    split_ifs
    · intro arming
      rw [keeps.task] at arming
      cases arming
    · exact id

theorem keepsOn_setTask {task : Option Task}
    (arming : task.any armsTask = true → (s.tasks o).any armsTask = true) :
    KeepsOn s (s.setTask o task) := by
  apply KeepsOn.of_lifetimes
  · rfl
  · unfold Arming
    rw [System.setTask_tasks]
    split_ifs with join
    · subst join
      exact arming
    · exact id

theorem arming_of_joinArm {send : Send} (w : Wired s) (held : s.tasks o = some (.sending send))
    (mine : armsJoin send.work = true) : o = .join ∧ s.machine.state = .joining ∧ Arming s := by
  have fits := (w.registered held).fits
  have at_ : o = .join ∧ s.machine.state = .joining := by
    cases work : send.work <;> simp only [work, armsJoin, reduceCtorEq] at mine
    rw [work] at fits
    exact fits
  refine ⟨at_.1, at_.2, ?_⟩
  rw [Arming, ← at_.1, held]
  exact mine

/-- While the join arms its delayed leave it has no other send. -/
theorem armsJoin_of_arming {send : Send} (w : Wired s) (arming : Arming s)
    (held : s.tasks o = some (.sending send)) : armsJoin send.work = true := by
  rw [Arming] at arming
  cases own : s.tasks .join with
  | none => simp [own] at arming
  | some task =>
      rw [own] at arming
      cases task with
      | created operation => cases arming
      | jitter wakeAt => cases arming
      | sending first =>
          have joining := (arming_of_joinArm w own arming).2.1
          have fits := (w.registered held).fits
          rw [joining] at fits
          have mine : o = .join := by
            cases work : send.work <;> simp_all [WorkFits]
          subst mine
          cases own.symm.trans held
          exact arming

theorem keepsOn_settleSend {send : Send} {result : Except SendFailure String}
    (arming : armsJoin send.work = true → Arming s) : KeepsOn s (s.settleSend o send result) := by
  cases mine : armsJoin send.work with
  | false => exact keepsOn_resume (keeps_settle mine)
  | true =>
      have arming' := arming mine
      constructor
      · rw [System.settleSend, System.resume_machine]
        cases work : send.work <;> simp only [work, armsJoin, reduceCtorEq] at mine
        exact stickyDuration_settle_joinArm
      · intro settled
        exact absurd arming' settled
      · intro _
        exact arming'

theorem keepsOn_endAttempt {send : Send} {outcome : AttemptOutcome}
    (held : s.tasks o = some (.sending send)) (arming : armsJoin send.work = true → Arming s) :
    KeepsOn s (s.endAttempt o send outcome) := by
  have released : KeepsOn s (s.release send.work.kind) := .of_lifetimes rfl id
  unfold System.endAttempt
  dsimp only
  split
  · exact released.trans (keepsOn_settleSend arming)
  · split
    · exact released.trans (keepsOn_settleSend arming)
    · apply released.trans
      apply keepsOn_setTask
      intro mine
      rw [System.release_tasks, held]
      exact mine

theorem keepsOn_drop : KeepsOn s (s.drop o) := by
  apply KeepsOn.of_lifetimes
  · unfold System.drop
    split
    · dsimp only
      split <;> exact lifetimes_free _
    · rfl
  · unfold Arming
    rw [System.drop_tasks]
    split_ifs
    · intro none_
      cases none_
    · exact id

theorem keepsOn_stopUpkeep : KeepsOn s s.stopUpkeep :=
  keepsOn_drop.trans (keepsOn_drop.trans (keepsOn_drop.trans
    (keepsOn_drop.trans (keepsOn_drop.trans (.of_lifetimes rfl id)))))

theorem keepsOn_startIfIdle {operation : Operation} : KeepsOn s (s.startIfIdle o operation) := by
  unfold System.startIfIdle
  split_ifs
  · apply keepsOn_setTask
    intro arms
    cases arms
  · exact .refl s

theorem keepsOn_beat : KeepsOn s s.beat := by
  unfold System.beat
  dsimp only
  split_ifs
  · exact keepsOn_stopUpkeep
  · apply KeepsOn.trans _ keepsOn_startIfIdle
    apply keepsOn_drop.trans
    apply keepsOn_setTask
    intro arms
    cases arms
  · exact keepsOn_startIfIdle

theorem keepsOn_beginLeave : KeepsOn s s.beginLeave := by
  unfold System.beginLeave OwnMembership.beginLeave
  split_ifs <;> exact .of_lifetimes rfl id

theorem keepsOn_taskStep {event : TaskEvent} (w : Wired s) (step : System.TaskStep s o event t) :
    KeepsOn s t := by
  cases step with
  | polled operation held => exact keepsOn_resume keeps_startOperation
  | waited wakeAt held => exact keepsOn_resume keeps_recoverNow
  | moved event send phase held before after =>
      apply keepsOn_setTask
      intro mine
      rw [held]
      exact mine
  | failed event send failure held before reason =>
      apply keepsOn_settleSend
      intro mine
      exact (arming_of_joinArm w held mine).2.2
  | started send held checked idle =>
      rw [System.take, if_neg (by simp [idle])]
      refine KeepsOn.trans ?_ (keepsOn_setTask ?_)
      · exact .of_lifetimes rfl id
      · intro mine
        exact (congrArg (Option.any armsTask) held).trans mine
  | timedOut send n giveUpAt held calling late =>
      apply keepsOn_endAttempt held
      intro mine
      exact (arming_of_joinArm w held mine).2.2

theorem keepsOn_answer {n : ℕ} {call : HostCall} {result : Except CommandError String}
    (w : Wired s) : KeepsOn s (s.answer n call result) := by
  have recorded : KeepsOn s (s.recordAnswer n call result) := .of_lifetimes rfl id
  have step := System.answerStep s n call result
  generalize s.answer n call result = t at step ⊢
  cases step with
  | unheard away => exact recorded
  | heard send giveUpAt held calling =>
      apply recorded.trans
      have held' : (s.recordAnswer n call result).tasks call.caller = some (.sending send) := held
      apply keepsOn_endAttempt held'
      intro mine
      exact (arming_of_joinArm w held mine).2.2

/-- No step changes the durations stated, once the join has settled on one. -/
theorem keepsOn_step {a : Action} (w : Wired s) (h : s.step a = some t) : KeepsOn s t := by
  cases System.actionStep h with
  | tick | online | spawnUpkeep | lapseCheck => exact .of_lifetimes rfl id
  | beat => exact keepsOn_beat
  | recovered => exact keepsOn_startIfIdle
  | wakeDeparture | wakeRepublish =>
      refine KeepsOn.trans ?_ keepsOn_startIfIdle
      exact .of_lifetimes rfl id
  | task o event t step => exact keepsOn_taskStep w step
  | answer n call result listed unanswered => exact keepsOn_answer w
  | ownDeparture reason =>
      obtain ⟨departed, same⟩ := s.machine.onOwnDeparture_flags reason
      refine .of_lifetimes ?_ id
      change lifetimes (s.machine.onOwnDeparture reason) = _
      rw [same]
      rfl
  | catchUp own =>
      obtain ⟨awaiting, requested, same⟩ := s.machine.onCatchUp_flags own
      refine .of_lifetimes ?_ id
      change lifetimes (s.machine.onCatchUp own) = _
      rw [same]
      rfl
  | moveTransports n transport idle => exact keepsOn_resume keeps_republishTransports
  | beginLeave joined => exact keepsOn_beginLeave
  | leave reason begun idle =>
      rw [resume_leave]
      exact keepsOn_beginLeave.trans (keepsOn_resume (keeps_startSend rfl rfl))
  | dropFuture o own attached => exact keepsOn_drop
  | abortUpkeep running => exact keepsOn_stopUpkeep

end Steps

end MatrixRtc.PublishedLifetimes

import MatrixRtc.UpkeepInvariants

/-!
# When a lapse ends

The lapse flag is read off two deadlines, the delayed leave's and the sticky entry's,
and a send that lands reads it again. So it can fall only where one lands, or where
the record that had passed its deadline is gone: a re-arm clears the delayed leave's
before its replacement is armed, and a re-reading in between sees only the sticky
entry's deadline. In a run the flag falls without a send that landed exactly where
such a re-reading happens before that deadline.
-/
namespace MatrixRtc.LapseSignals
open HostAnswers MemberEvents Outboxes OwnMembership MembershipUpkeep OperationSegments
open UpkeepInvariants StepRuns

/-- A request that keeps the membership alive where it succeeds. -/
def sustains : Request → Bool
  | .sendDelayedStickyEvent | .restartDelayedEvent _ | .sendStickyEvent (.join _) => true
  | .cancelDelayedEvent _ | .sendStickyEvent (.leave _) => false

/-- The step is a success of a restart, an arm, a refresh or a republish. -/
def landing (s : System) : Action → Bool
  | .answer n (.ok _) => (s.calls n).any fun call => sustains call.request
  | _ => false

/-- A lapse that the step ends, it ends by a send that landed or with the join. -/
def EndsByLanding (s : System) (a : Action) : Prop :=
  ∀ t ∈ s.step a, s.machine.lapsed = true → t.machine.lapsed = false →
    landing s a = true ∨ t.machine.state ≠ .joined

/-- A lapse is not read again without a delayed leave on record before the sticky
entry's own deadline. -/
def steady (s : System) : Action → Bool
  | .lapseCheck => !(s.upkeep && s.machine.lapsed && s.machine.keepAliveInfo.isNone) ||
      s.machine.stickyDeadline.any (· ≤ s.now)
  | _ => true

/-- Nothing the flag is read from has changed. -/
structure SameLapse (m m' : OwnMembershipMachine) : Prop where
  lapsed : m'.lapsed = m.lapsed
  state : m'.state = m.state
  info : m'.keepAliveInfo = m.keepAliveInfo
  sticky : m'.stickyDeadline = m.stickyDeadline

/-- What a segment can do to the flag: nothing, but for a cleared record; nothing,
outside the joined state; or a reading where a send landed. -/
inductive LapseMove (landed : Prop) (now : ℕ) (m m' : OwnMembershipMachine) : Prop
  | kept (lapsed : m'.lapsed = m.lapsed) (state : m'.state = m.state)
      (info : m'.keepAliveInfo = m.keepAliveInfo ∨ m'.keepAliveInfo = none)
      (sticky : m'.stickyDeadline = m.stickyDeadline)
  | outside (lapsed : m'.lapsed = m.lapsed) (state : m.state ≠ .joined)
  | read (landed : landed) (lapsed : m'.lapsed = m'.lapseAtMs.any (· ≤ now))

section
variable {m m' m'' : OwnMembershipMachine} {ob : Outbox} {now : ℕ} {landed landed' : Prop}

theorem SameLapse.refl (m : OwnMembershipMachine) : SameLapse m m := ⟨rfl, rfl, rfl, rfl⟩

theorem SameLapse.trans (first : SameLapse m m') (then_ : SameLapse m' m'') : SameLapse m m'' :=
  ⟨then_.lapsed.trans first.lapsed, then_.state.trans first.state, then_.info.trans first.info,
    then_.sticky.trans first.sticky⟩

theorem SameLapse.lapseAtMs (same : SameLapse m m') : m'.lapseAtMs = m.lapseAtMs := by
  simp only [OwnMembershipMachine.lapseAtMs, OwnMembershipMachine.delayedDeadline, same.state,
    same.info, same.sticky]

theorem SameLapse.move (same : SameLapse m m') : LapseMove landed now m m' :=
  .kept same.lapsed same.state (Or.inl same.info) same.sticky

theorem LapseMove.trans_same (move : LapseMove landed now m m') (same : SameLapse m' m'') :
    LapseMove landed now m m'' := by
  cases move with
  | kept lapsed state info sticky =>
      exact .kept (same.lapsed.trans lapsed) (same.state.trans state)
        (info.imp same.info.trans same.info.trans) (same.sticky.trans sticky)
  | outside lapsed state => exact .outside (same.lapsed.trans lapsed) state
  | read landed lapsed =>
      exact .read landed (by rw [same.lapsed, lapsed, same.lapseAtMs])

theorem sameLapse_free (busy : Busy) : SameLapse m (m.free busy) := by
  cases busy <;> exact ⟨rfl, rfl, rfl, rfl⟩

theorem sameLapse_startIfJoined {work : Work} {policy : SendPolicy} (same : SameLapse m m') :
    SameLapse m (startIfJoined m' ob work policy).machine := by
  unfold startIfJoined
  split_ifs
  · exact same
  · exact same.trans (sameLapse_free _)

theorem sameLapse_republish {rearmed : Bool} (same : SameLapse m m') :
    SameLapse m (republish m' ob rearmed).machine := by
  unfold republish
  cases m'.lastSticky with
  | none =>
      cases rearmed
      · exact same
      · exact same.trans (sameLapse_free .arming)
  | some sticky => exact sameLapse_startIfJoined same

theorem sameLapse_republishTransports {transport : RawRtcTransport} :
    SameLapse m (republishTransports m ob transport).machine := by
  unfold republishTransports
  cases sent : m.lastSticky with
  | none => exact .refl m
  | some sticky =>
      dsimp only
      split_ifs
      · exact .refl m
      · refine sameLapse_republish ⟨rfl, rfl, rfl, ?_⟩
        simp [OwnMembershipMachine.stickyDeadline, sent]

theorem sameLapse_armIfDue : SameLapse m (armIfDue m ob now).machine := by
  unfold armIfDue
  split_ifs
  · exact .refl m
  · exact sameLapse_startIfJoined ⟨rfl, rfl, rfl, rfl⟩

theorem move_rearmAndRepublish : LapseMove landed now m (rearmAndRepublish m ob).machine := by
  unfold rearmAndRepublish
  split_ifs
  · exact (SameLapse.refl m).move
  · have cleared : LapseMove landed now m { m with arming := true, keepAliveInfo := none } :=
      .kept rfl rfl (Or.inr rfl) rfl
    exact cleared.trans_same (sameLapse_startIfJoined (.refl _))

theorem move_restart {clockFallback : Bool} {next : After} :
    LapseMove landed now m (restart m ob now clockFallback next).machine := by
  unfold restart
  cases m.keepAliveInfo with
  | none => exact sameLapse_armIfDue.move
  | some info =>
      dsimp only
      split_ifs
      · exact move_rearmAndRepublish
      · exact (sameLapse_startIfJoined (.refl m)).move

theorem move_recoverNow : LapseMove landed now m (recoverNow m ob now).machine := by
  unfold recoverNow
  split_ifs
  · exact (SameLapse.refl m).move
  · exact move_restart
  · exact .kept rfl rfl (Or.inl rfl) rfl

theorem move_startOperation {operation : Operation} :
    LapseMove landed now m (startOperation m ob now operation).machine := by
  cases operation with
  | restart clockFallback next => exact move_restart
  | refresh =>
      simp only [startOperation, refreshIfDue]
      split
      · exact (SameLapse.refl m).move
      · split_ifs
        · exact (SameLapse.refl m).move
        · have taken : SameLapse m { m with refreshing := true } := ⟨rfl, rfl, rfl, rfl⟩
          exact (sameLapse_startIfJoined taken).move
  | recover jitter => exact (SameLapse.refl m).move
  | recoverDeparture =>
      simp only [startOperation, recoverDeparture]
      split_ifs
      · exact (SameLapse.refl m).move
      · exact move_restart
      · exact (sameLapse_republish (.refl m)).move
  | republish => exact (sameLapse_republish (.refl m)).move
  | cancelArmed id => exact (SameLapse.refl m).move

theorem read_updateLapsed (done : landed) :
    LapseMove landed now m (m'.updateLapsed now) := .read done rfl

theorem sameLapse_afterRestart {next : After} :
    SameLapse m (afterRestart m ob next).machine := by
  cases next with
  | nothing => exact .refl m
  | catchUp => exact ⟨rfl, rfl, rfl, rfl⟩
  | republish => exact sameLapse_republish (.refl m)

theorem move_afterRearm {result : Except SendFailure String}
    (done : ∀ value, result = .ok value → landed) :
    LapseMove landed now m (afterRearm m ob now result).machine := by
  cases result with
  | ok id =>
      exact (read_updateLapsed (done id rfl)).trans_same (sameLapse_republish (.refl _))
  | error failure =>
      have refused : ∀ failure : SendFailure, LapseMove landed now m (republish
          (m.markDelayedLeaveUnsupported now failure.intoCommandError) ob true).machine := by
        intro failure
        have marked : SameLapse m
            (m.markDelayedLeaveUnsupported now failure.intoCommandError) := ⟨rfl, rfl, rfl, rfl⟩
        exact (sameLapse_republish marked).move
      cases failure with
      | superseded | cancelled => exact (sameLapse_free .arming).move
      | refused | deadlineElapsed | timedOut | failed => exact refused _

theorem outside_afterLeave {result : Except SendFailure String} (left : m.state ≠ .joined) :
    LapseMove landed now m (afterLeave m ob result).machine := by
  refine .outside ?_ left
  cases result with
  | error failure => rfl
  | ok value =>
      simp only [afterLeave]
      split <;> rfl

/-- What the result of a send does to the flag. -/
theorem move_settle {o : Owner} {work : Work} {result : Except SendFailure String}
    (fits : WorkFits o m.state work)
    (done : ∀ value, result = .ok value → sustains work.request = true → landed) :
    LapseMove landed now m (settle m ob now work result).machine := by
  have kept : LapseMove landed now m m := (SameLapse.refl m).move
  cases work with
  | restart info next =>
      cases result with
      | ok value => exact (read_updateLapsed (done value rfl rfl)).trans_same sameLapse_afterRestart
      | error failure =>
          cases failure with
          | refused error =>
              simp only [settle]
              split_ifs
              · exact move_rearmAndRepublish
              · exact kept
          | superseded | cancelled | deadlineElapsed | timedOut | failed => exact kept
  | armIfDue =>
      cases result with
      | ok id => exact (read_updateLapsed (done id rfl rfl)).trans_same (sameLapse_free .arming)
      | error failure =>
          have marked : ∀ failure : SendFailure, LapseMove landed now m
              ((m.markDelayedLeaveUnsupported now failure.intoCommandError).free .arming) :=
            fun _ => .kept rfl rfl (Or.inl rfl) rfl
          cases failure with
          | superseded | cancelled => exact (sameLapse_free .arming).move
          | refused | deadlineElapsed | timedOut | failed => exact marked _
  | rearm => exact move_afterRearm fun value h => done value h rfl
  | republishRearmed content | republish content | refresh content =>
      cases result with
      | ok eventId =>
          have recorded : LapseMove landed now m (m.recordPublished now content eventId) :=
            read_updateLapsed (done eventId rfl rfl)
          dsimp only [settle, finished]
          exact recorded.trans_same (sameLapse_free _)
      | error failure =>
          dsimp only [settle, finished]
          exact (sameLapse_free _).move
  | joinArm content deadline =>
      have joining : m.state ≠ .joined := by simp [fits.2]
      cases result <;> exact .outside rfl joining
  | join content =>
      have joining : m.state ≠ .joined := by simp [fits.2]
      cases result <;> exact .outside rfl joining
  | leave reason => exact outside_afterLeave (by obtain ⟨-, h | h⟩ := fits <;> simp [h])
  | cancel id => exact .outside rfl (by obtain ⟨-, h | h⟩ := fits <;> simp [h])
  | cancelArmed id => exact kept

end

section
variable {s t : System} {o : Owner}

/-- An attempt's end reads the flag again only where the host had answered with a success. -/
theorem move_endAttempt {landed : Prop} {send : Send} {outcome : AttemptOutcome}
    (fits : WorkFits o s.machine.state send.work)
    (done : ∀ value, outcome = .answered (.ok value) → sustains send.work.request = true → landed) :
    LapseMove landed s.now s.machine (s.endAttempt o send outcome).machine := by
  have settled : ∀ result, (∀ value, result = .ok value → outcome = .answered (.ok value)) →
      LapseMove landed s.now s.machine
        ((s.release send.work.kind).settleSend o send result).machine := by
    intro result heard
    rw [System.settleSend, System.resume_machine]
    exact move_settle fits fun value h => done value (heard value h)
  unfold System.endAttempt
  dsimp only
  split
  · exact settled _ fun value h => by cases h
  · split
    · rename_i result judged
      exact settled _ fun value h => judge_ok (by rw [judged, h])
    · exact (SameLapse.refl s.machine).move

theorem sameLapse_drop : SameLapse s.machine (s.drop o).machine := by
  unfold System.drop
  split
  · dsimp only
    split <;> exact sameLapse_free _
  · exact .refl _

theorem sameLapse_stopUpkeep : SameLapse s.machine s.stopUpkeep.machine :=
  sameLapse_drop.trans (sameLapse_drop.trans (sameLapse_drop.trans
    (sameLapse_drop.trans sameLapse_drop)))

theorem sameLapse_beat : SameLapse s.machine s.beat.machine := by
  unfold System.beat
  split_ifs
  · exact sameLapse_stopUpkeep
  · dsimp only
    rw [System.startIfIdle_machine, System.setTask_machine]
    exact sameLapse_drop
  · exact (System.startIfIdle_machine ▸ .refl s.machine)

theorem beginLeave_lapsed (joined : s.machine.state = .joined) :
    s.beginLeave.machine.lapsed = false := by
  simp [System.beginLeave, OwnMembership.beginLeave, joined, OwnMembershipMachine.updateLapsed,
    OwnMembershipMachine.lapseAtMs]

/-- What a step does to the flag: what a segment does, a reading, or the end of the join. -/
inductive LapseStep (s : System) : Action → System → Prop
  | moves (a : Action) (t : System) (now : s.now ≤ t.now)
      (move : LapseMove (landing s a = true) s.now s.machine t.machine) : LapseStep s a t
  | checks (upkeep : s.upkeep = true) :
      LapseStep s .lapseCheck { s with machine := s.machine.updateLapsed s.now }
  | leaves (a : Action) (t : System) (lapsed : t.machine.lapsed = false)
      (state : t.machine.state ≠ .joined) : LapseStep s a t

theorem lapseStep_task {event : TaskEvent} (w : Wired s) (step : System.TaskStep s o event t) :
    LapseMove (landing s (.task o event) = true) s.now s.machine t.machine := by
  cases step with
  | polled operation held =>
      rw [System.resume_machine]
      exact move_startOperation
  | waited wakeAt held =>
      rw [System.resume_machine]
      exact move_recoverNow
  | moved event send phase held before after => exact (SameLapse.refl _).move
  | failed event send failure held before reason =>
      rw [System.settleSend, System.resume_machine]
      exact move_settle (w.registered held).fits fun value h => by cases h
  | started send held checked idle =>
      rw [System.take, if_neg (by simp [idle])]
      exact (SameLapse.refl _).move
  | timedOut send n giveUpAt held calling late =>
      exact move_endAttempt (w.registered held).fits fun value h => by cases h

/-- An answered call reads the flag again where it is a success that sustains us. -/
theorem lapseStep_answer {n : ℕ} {call : HostCall} {result : Except CommandError String}
    (w : Wired s) (listed : s.calls n = some call) :
    LapseMove (landing s (.answer n result) = true) s.now s.machine
      (s.answer n call result).machine := by
  have step := s.answerStep n call result
  generalize s.answer n call result = t at step ⊢
  cases step with
  | unheard away => exact (SameLapse.refl _).move
  | heard send giveUpAt held calling =>
      obtain ⟨-, call', listed', -, -, request, -⟩ := (w.placed _ _ held).flight n giveUpAt calling
      rw [listed] at listed'
      cases listed'
      have landed : ∀ value, AttemptOutcome.answered result = .answered (.ok value) →
          sustains send.work.request = true → landing s (.answer n result) = true := by
        intro value h sustaining
        cases h
        simpa [landing, listed, request] using sustaining
      have ended : LapseMove (landing s (.answer n result) = true)
          (s.recordAnswer n call result).now (s.recordAnswer n call result).machine
          ((s.recordAnswer n call result).endAttempt call.caller send
            (.answered result)).machine :=
        move_endAttempt (w.registered held).fits landed
      exact ended

theorem lapseStep {a : Action} (w : Wired s) (h : s.step a = some t) : LapseStep s a t := by
  have same : ∀ {m : OwnMembershipMachine}, SameLapse s.machine m →
      LapseMove (landing s a = true) s.now s.machine m := SameLapse.move
  have still : t.host = s.host → s.now ≤ t.now := fun kept => (congrArg (·.2.2) kept).ge
  cases System.actionStep h with
  | tick => exact .moves _ _ (Nat.le_add_right _ _) (same (.refl _))
  | online | spawnUpkeep => exact .moves _ _ le_rfl (same (.refl _))
  | beat => exact .moves _ _ (still System.beat_host) (same sameLapse_beat)
  | lapseCheck running => exact .checks running
  | recovered jitter =>
      exact .moves _ _ (still System.startIfIdle_host) (System.startIfIdle_machine ▸ same (.refl _))
  | wakeDeparture | wakeRepublish =>
      refine .moves _ _ (still System.startIfIdle_host) ?_
      rw [System.startIfIdle_machine]
      exact same ⟨rfl, rfl, rfl, rfl⟩
  | task o event t step =>
      have now : s.now ≤ t.now := by
        cases hostStep_taskStep step with
        | starts o send held checked idle =>
            rw [System.take, if_neg (by simp [idle])]
            exact le_rfl
        | quiet a t calls next now => exact now
      exact .moves _ _ now (lapseStep_task w step)
  | answer n call result listed unanswered =>
      refine .moves _ _ ?_ (lapseStep_answer w listed)
      exact (congrArg (·.2.2) System.answer_host).ge
  | ownDeparture reason =>
      obtain ⟨departed, flags⟩ := s.machine.onOwnDeparture_flags reason
      exact .moves _ _ le_rfl (same (flags ▸ ⟨rfl, rfl, rfl, rfl⟩))
  | catchUp own =>
      obtain ⟨awaiting, requested, flags⟩ := s.machine.onCatchUp_flags own
      exact .moves _ _ le_rfl (same (flags ▸ ⟨rfl, rfl, rfl, rfl⟩))
  | moveTransports n transport idle =>
      refine .moves _ _ (still System.resume_host) ?_
      rw [System.resume_machine]
      exact same sameLapse_republishTransports
  | beginLeave joined =>
      exact .leaves _ _ (beginLeave_lapsed joined) (by simp [beginLeave_state (Or.inl joined)])
  | leave reason begun idle =>
      have machine : (s.resume .leave (leave s.machine s.outbox s.now reason)).machine =
          s.beginLeave.machine := by
        rw [resume_leave, System.resume_machine]
        rfl
      obtain joined | leaving := begun
      · refine .leaves _ _ ?_ ?_ <;> rw [machine]
        · exact beginLeave_lapsed joined
        · simp [beginLeave_state (Or.inl joined)]
      · refine .moves _ _ (still System.resume_host) ?_
        rw [machine, beginLeave_left leaving]
        exact same (.refl _)
  | dropFuture => exact .moves _ _ (still System.drop_host) (same sameLapse_drop)
  | abortUpkeep => exact .moves _ _ (still System.stopUpkeep_host) (same sameLapse_stopUpkeep)

/-- A lapsed membership is joined, and past a deadline it still has on record, unless
the delayed leave's has been cleared. -/
def Lapsing (s : System) : Prop :=
  s.machine.lapsed = true → s.machine.state = .joined ∧
    (s.machine.keepAliveInfo = none ∨ s.machine.lapseAtMs.any (· ≤ s.now) = true)

theorem any_le_mono {deadline : Option ℕ} {earlier later : ℕ} (le : earlier ≤ later)
    (h : deadline.any (· ≤ earlier) = true) : deadline.any (· ≤ later) = true := by
  cases deadline with
  | none => exact h
  | some at' => simpa using (of_decide_eq_true h).trans le

theorem joined_of_lapseAtMs {m : OwnMembershipMachine} {now : ℕ}
    (h : m.lapseAtMs.any (· ≤ now) = true) : m.state = .joined := by
  by_contra other
  simp [OwnMembershipMachine.lapseAtMs, other] at h

theorem lapsing_step {a : Action} (w : Wired s) (before : Lapsing s) (h : s.step a = some t) :
    Lapsing t := by
  intro flag
  cases lapseStep w h with
  | moves a t now move =>
      cases move with
      | kept lapsed state info sticky =>
          obtain ⟨joined, past⟩ := before (lapsed.symm.trans flag)
          refine ⟨state.trans joined, ?_⟩
          obtain info | cleared := info
          · refine past.imp info.trans fun past => ?_
            rw [SameLapse.lapseAtMs ⟨lapsed, state, info, sticky⟩]
            exact any_le_mono now past
          · exact Or.inl cleared
      | outside lapsed state => exact absurd (before (lapsed.symm.trans flag)).1 state
      | read landed lapsed =>
          rw [lapsed] at flag
          exact ⟨joined_of_lapseAtMs flag, Or.inr (any_le_mono now flag)⟩
  | checks upkeep => exact ⟨joined_of_lapseAtMs flag, Or.inr flag⟩
  | leaves a t lapsed state =>
      rw [lapsed] at flag
      cases flag

theorem lapseAtMs_of_cleared {m : OwnMembershipMachine} (joined : m.state = .joined)
    (cleared : m.keepAliveInfo = none) : m.lapseAtMs = m.stickyDeadline := by
  simp [OwnMembershipMachine.lapseAtMs, OwnMembershipMachine.delayedDeadline, joined, cleared]

/-- One step ends a lapse as it should exactly when it is a steady one. -/
theorem endsByLanding_iff {a : Action} (w : Wired s) (lapsing : Lapsing s) :
    EndsByLanding s a ↔ steady s a = true := by
  constructor
  · intro ends
    by_contra unsteady
    cases a with
    | lapseCheck =>
        simp only [steady, Bool.or_eq_true, Bool.not_eq_true', Bool.and_eq_false_iff, not_or,
          Bool.not_eq_false] at unsteady
        obtain ⟨⟨⟨upkeep, flag⟩, cleared⟩, ahead⟩ := unsteady
        obtain ⟨joined, -⟩ := lapsing flag
        have read := lapseAtMs_of_cleared joined (Option.isNone_iff_eq_none.mp cleared)
        have step : s.step .lapseCheck =
            some { s with machine := s.machine.updateLapsed s.now } := by
          simp [System.step, upkeep]
        obtain landed | left := ends _ step flag (by
          simpa [OwnMembershipMachine.updateLapsed, read] using ahead)
        · simp [landing] at landed
        · exact left joined
    | _ => exact unsteady rfl
  · intro steady_ t h flag fallen
    cases lapseStep w h with
    | moves a t now move =>
        cases move with
        | kept lapsed | outside lapsed =>
            rw [lapsed, flag] at fallen
            cases fallen
        | read landed lapsed => exact Or.inl landed
    | checks upkeep =>
        exfalso
        obtain ⟨joined, past⟩ := lapsing flag
        have past : s.machine.lapseAtMs.any (· ≤ s.now) = true := by
          obtain cleared | past := past
          · rw [lapseAtMs_of_cleared joined cleared]
            simpa [steady, upkeep, flag, cleared] using steady_
          · exact past
        exact Bool.false_ne_true (fallen.symm.trans past)
    | leaves a t lapsed state => exact Or.inr state

end

theorem lapsing_start (timings : MembershipTimings) (transports : MemberTransports)
    (deadline : ℕ) (now : UInt64) : Lapsing (.start timings transports deadline now) := by
  intro flag
  rw [System.start, System.resume_machine] at flag
  cases flag

/-- A lapse ends when a send lands, in exactly the runs that do not read it again
between a re-arm and the sticky entry's deadline: in every run of a participation,
each step that takes the flag from lapsed to not lapsed is the success of a restart, an
arm, a refresh or a republish or leaves the joined state, if and only if no reading of
a lapse finds the delayed leave's record cleared and the sticky deadline ahead. -/
theorem lapse_ends_when_a_send_lands_iff (timings : MembershipTimings)
    (transports : MemberTransports) (deadline : ℕ) (now : UInt64) (trace : List Action) :
    Admissible System.step EndsByLanding (.start timings transports deadline now) trace ↔
      Admissible System.step (fun s a => steady s a = true)
        (.start timings transports deadline now) trace :=
  Admissible.congr (I := fun s => Wired s ∧ Lapsing s)
    (fun _ _ _ inv step => ⟨wired_step inv.1 step, lapsing_step inv.1 inv.2 step⟩)
    (fun _ _ inv => endsByLanding_iff inv.1 inv.2)
    ⟨wired_start timings transports deadline now, lapsing_start timings transports deadline now⟩

section Runs

/-- No restart lands for longer than the delay, the lapse is signalled, and the next
beat's restart gives way to a re-arm, whose arm has not been sent. -/
def rearmBegins : List Action :=
  joinLands ++ [.tick 20001, .lapseCheck, .beat, .task .restart .poll]

/-- The lapse ends at the next reading, with no send having landed. -/
theorem lapse_ends_before_anything_landed :
    ∃ s ∈ run System.step (.start timings transports 10000 0) rearmBegins,
      ∃ t ∈ s.step .lapseCheck, s.machine.lapsed = true ∧ t.machine.lapsed = false ∧
        landing s .lapseCheck = false ∧ t.machine.state = .joined := by
  decide

end Runs

end MatrixRtc.LapseSignals

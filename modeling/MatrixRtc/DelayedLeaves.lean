import MatrixRtc.DelayedLeaveRecord

/-!
# No delayed leave is leaked

A delay the host has returned is accounted for while it is on record, once a restart
of it was answered `M_NOT_FOUND` or a whole delay has gone by without one that
succeeded, and once its cancellation was called or is pending after a failed join.
What escapes is a delay whose arm is answered when nobody takes the answer any more,
the arm superseded, cancelled or dropped, and one given up by the clock although a
restart of it had succeeded unheard. In runs without these every delay is accounted
for at all later times.
-/
namespace MatrixRtc.DelayedLeaves
open HostAnswers MemberEvents Outboxes OwnMembership MembershipUpkeep OperationSegments
open UpkeepInvariants DelayedLeaveRecord StepRuns

/-- Call `n` armed the delay `id`, answered at `armedAt`. -/
def Armed (s : System) (n armedAt : ℕ) (id : String) : Prop :=
  ∃ call, s.calls n = some call ∧ call.request = .sendDelayedStickyEvent ∧
    call.answer = some (armedAt, .ok id)

/-- A restart of `id` succeeded at `at'`. -/
def Restarted (s : System) (id : String) (at' : ℕ) : Prop :=
  ∃ n call value, s.calls n = some call ∧ call.request = .restartDelayedEvent id ∧
    call.answer = some (at', .ok value)

/-- What ends a delay for good: the host knows it no more, it has run out, or its
cancellation was called. -/
inductive Ended (s : System) (armedAt : ℕ) (id : String) : Prop
  | gone (n : ℕ) (call : HostCall) (at' : ℕ) (error : CommandError)
      (listed : s.calls n = some call) (request : call.request = .restartDelayedEvent id)
      (answered : call.answer = some (at', .error error)) (notFound : isNotFound error = true)
  | ranOut (since : ℕ) (armed : armedAt ≤ since)
      (past : since + s.machine.keepAliveTimeoutMs < s.now)
      (silent : ∀ at', Restarted s id at' →
        at' ≤ since ∨ since + s.machine.keepAliveTimeoutMs < at')
  | cancelled (n : ℕ) (call : HostCall) (listed : s.calls n = some call)
      (request : call.request = .cancelDelayedEvent id)

/-- A failed join's cancellation of `id` has been started. -/
def Pending (s : System) (id : String) : Prop :=
  s.tasks .detached = some (.created (.cancelArmed id)) ∨
    ∃ send, s.tasks .detached = some (.sending send) ∧ send.work = .cancelArmed id

/-- A delay armed at `armedAt` is on record, ended or handed to its cancellation. -/
def Accounted (s : System) (armedAt : ℕ) (id : String) : Prop :=
  (∃ info, s.machine.keepAliveInfo = some info ∧ info.delayedEventId = id) ∨
    Ended s armedAt id ∨ Pending s id

/-- The operation that made call `n` waits for its answer, and its send is current. -/
def hears (s : System) (n : ℕ) (call : HostCall) : Bool :=
  match s.tasks call.caller with
  | some (.sending send) =>
      match send.phase with
      | .calling k _ =>
          k = n && ((s.outbox.slot send.work.kind).ended send.generation).isNone
      | _ => false
  | _ => false

/-- A restart of the recorded delay succeeded within its delay, after the one on record. -/
def missedRestart (s : System) : Bool :=
  s.machine.keepAliveInfo.any fun info =>
    (List.range s.nextCall).any fun n =>
      (s.calls n).any fun call =>
        call.request = .restartDelayedEvent info.delayedEventId && call.answer.any fun answer =>
          answer.2.toOption.isSome && info.lastRestartMs < answer.1 &&
            answer.1 ≤ info.lastRestartMs + info.timeoutMs

/-- No arm is answered unheard, and the clock gives up no delay that was restarted. -/
def attentive (s : System) : Action → Bool
  | .answer n (.ok _) => (s.calls n).all fun call =>
      !(call.request = .sendDelayedStickyEvent) || hears s n call
  | .task o .poll =>
      match s.tasks o with
      | some (.created (.restart true _)) =>
          s.machine.arming || !s.machine.delayedLeaveOverdue s.now || !missedRestart s
      | _ => true
  | _ => true

/-- What a step may do to the calls and the clock. -/
structure Later (s t : System) : Prop where
  now : s.now ≤ t.now
  timeout : t.machine.keepAliveTimeoutMs = s.machine.keepAliveTimeoutMs
  kept : ∀ n call, s.calls n = some call → ∃ call', t.calls n = some call' ∧
    call'.request = call.request ∧ ∀ x, call.answer = some x → call'.answer = some x
  fresh : ∀ n call at' r, t.calls n = some call → call.answer = some (at', r) →
    s.now ≤ at' ∨ ∃ call', s.calls n = some call' ∧ call'.request = call.request ∧
      call'.answer = some (at', r)

section
variable {s t : System} {o : Owner} {id : String} {armedAt : ℕ}

theorem Later.of_host (same : t.host = s.host)
    (timeout : t.machine.keepAliveTimeoutMs = s.machine.keepAliveTimeoutMs) : Later s t := by
  simp only [System.host, Prod.mk.injEq] at same
  obtain ⟨calls, -, now⟩ := same
  refine ⟨now.ge, timeout, fun n call h => ⟨call, calls ▸ h, rfl, fun _ h => h⟩,
    fun n call at' r h answered => Or.inr ⟨call, calls ▸ h, rfl, answered⟩⟩

/-- A delay that has ended stays so. -/
theorem Ended.later (ended : Ended s armedAt id) (later : Later s t) : Ended t armedAt id := by
  cases ended with
  | gone n call at' error listed request answered notFound =>
      obtain ⟨call', listed', request', answers⟩ := later.kept n call listed
      exact .gone n call' at' error listed' (request'.trans request) (answers _ answered) notFound
  | ranOut since armed past silent =>
      refine .ranOut since armed ?_ fun at' => ?_
      · rw [later.timeout]
        exact past.trans_le later.now
      · rintro ⟨n, call, value, listed, request, answered⟩
        rw [later.timeout]
        obtain recent | ⟨call', listed', request', answered'⟩ :=
          later.fresh n call at' _ listed answered
        · exact Or.inr (past.trans_le recent)
        · exact silent at' ⟨n, call', value, listed', request'.trans request, answered'⟩
  | cancelled n call listed request =>
      obtain ⟨call', listed', request', -⟩ := later.kept n call listed
      exact .cancelled n call' listed' (request'.trans request)

/-- The delays are accounted for, but for the one that call `x` has just returned. -/
structure Accounts (x : Option ℕ) (s : System) : Prop where
  clock : s.now ≤ u64Max
  past : ∀ n call at' r, s.calls n = some call → call.answer = some (at', r) → at' ≤ s.now
  since : ∀ info, s.machine.keepAliveInfo = some info → ∀ n at', some n ≠ x →
    Armed s n at' info.delayedEventId → at' ≤ info.lastRestartMs
  accounted : ∀ n at' id, some n ≠ x → Armed s n at' id → Accounted s at' id

variable {x : Option ℕ} {g : Segment}

/-- A delay that `why` says is accounted for: it has ended, whenever it was armed. -/
def Given (s : System) (id : String) : Prop :=
  ∀ at', (∀ info, s.machine.keepAliveInfo = some info → info.delayedEventId = id →
    at' ≤ info.lastRestartMs) → Ended s at' id

/-- What waits for a failed join's cancellation still does, or it was called. -/
def Waits (s t : System) : Prop :=
  ∀ id, Pending s id → Pending t id ∨ ∀ at', Ended s at' id

theorem waits_of_detached (same : t.tasks .detached = s.tasks .detached) : Waits s t := by
  intro id pending
  refine Or.inl ?_
  simpa only [Pending, same] using pending

/-- A step that leaves the record alone, and after which no new delay is listed but
the one that call `x'` has returned. -/
theorem Accounts.onward {x' : Option ℕ} (a : Accounts x s) (later : Later s t)
    (clock : t.now ≤ u64Max) (info : t.machine.keepAliveInfo = s.machine.keepAliveInfo)
    (past : ∀ n call at' r, t.calls n = some call → call.answer = some (at', r) → at' ≤ t.now)
    (armed : ∀ n at' id, some n ≠ x' → Armed t n at' id → some n ≠ x ∧ Armed s n at' id)
    (waits : Waits s t) : Accounts x' t := by
  refine ⟨clock, past, fun i hi n at' ne h => ?_, fun n at' id ne h => ?_⟩
  · obtain ⟨ne', h'⟩ := armed n at' _ ne h
    exact a.since i (info ▸ hi) n at' ne' h'
  · obtain ⟨ne', h'⟩ := armed n at' id ne h
    obtain ⟨i, hi, same⟩ | ended | pending := a.accounted n at' id ne' h'
    · exact Or.inl ⟨i, info ▸ hi, same⟩
    · exact Or.inr (Or.inl (ended.later later))
    · exact Or.inr ((waits id pending).symm.imp (fun ended => (ended at').later later)
        fun pending => pending)

theorem Accounts.quiet (a : Accounts x s) (calls : t.calls = s.calls) (now : s.now ≤ t.now)
    (clock : t.now ≤ u64Max) (info : t.machine.keepAliveInfo = s.machine.keepAliveInfo)
    (timeout : t.machine.keepAliveTimeoutMs = s.machine.keepAliveTimeoutMs)
    (waits : Waits s t) : Accounts x t := by
  refine a.onward ⟨now, timeout, fun n call h => ⟨call, calls ▸ h, rfl, fun _ h => h⟩,
    fun n call at' r h answered => Or.inr ⟨call, calls ▸ h, rfl, answered⟩⟩ clock info ?_ ?_ waits
  · exact fun n call at' r listed answered =>
      (a.past n call at' r (calls ▸ listed) answered).trans now
  · rintro n at' id ne ⟨call, listed, rest⟩
    exact ⟨ne, call, calls ▸ listed, rest⟩

theorem waits_phase {send : Send} {phase : Phase} (held : s.tasks o = some (.sending send))
    (same : t.tasks .detached =
      if Owner.detached = o then some (.sending { send with phase := phase })
      else s.tasks .detached) : Waits s t := by
  intro id pending
  refine Or.inl ?_
  by_cases own : Owner.detached = o
  · subst own
    rw [if_pos rfl] at same
    obtain created | ⟨send', sending, work⟩ := pending
    · exact absurd (held.symm.trans created) (by simp)
    · have mine : send = send' := by simpa using held.symm.trans sending
      exact Or.inr ⟨_, same, by rw [← work, ← mine]⟩
  · rw [if_neg own] at same
    simpa only [Pending, same] using pending

/-- The cancellation of a failed join waits on while another operation runs. -/
theorem waits_resume (w : Wired (s.setTask o none)) (r : Runs o s.machine s.outbox g)
    (ne : o ≠ .detached) : Waits s (s.resume o g) := by
  have same : (s.setTask o none).tasks .detached = s.tasks .detached := by simp [ne.symm]
  cases spawned : g.spawned with
  | none =>
      refine waits_of_detached ?_
      simp [System.resume_tasks spawned, ne.symm]
  | some id =>
      intro id' pending
      exfalso
      have joining := (r.spawned (by simp [spawned])).1
      obtain created | ⟨send, sending, work⟩ := pending
      · have fits : OperationFits .detached s.machine.state (.cancelArmed id') :=
          w.placed .detached _ (same.trans created)
        simp [OperationFits, joining] at fits
      · have fits : WorkFits .detached s.machine.state send.work :=
          (w.registered (same.trans sending)).fits
        simp [work, WorkFits, joining] at fits

theorem pending_resume (spawned : g.spawned = some id) : Pending (s.resume o g) id := by
  refine Or.inl ?_
  simp [System.resume, spawned]

/-- A segment keeps the accounts where each delay it clears has ended. -/
theorem Accounts.resume (a : Accounts x s) (l : Ledger s)
    (e : Effect (ArmingAt s o) (ArmsAt s o) (Given s) s.now s.machine s.outbox g)
    (waits : Waits s (s.resume o g)) : Accounts x (s.resume o g) := by
  have host : (s.resume o g).host = s.host := System.resume_host
  have timeout : (s.resume o g).machine.keepAliveTimeoutMs = s.machine.keepAliveTimeoutMs := by
    rw [System.resume_machine, e.timeout]
  have later : Later s (s.resume o g) := .of_host host timeout
  simp only [System.host, Prod.mk.injEq] at host
  obtain ⟨calls, -, now⟩ := host
  have armed : ∀ {n at' id}, Armed (s.resume o g) n at' id → Armed s n at' id := by
    simp only [Armed, calls, imp_self, implies_true]
  have none_ : ArmsAt s o → s.machine.keepAliveInfo = none := ArmsAt.empty l
  refine ⟨now ▸ a.clock, fun n call at' r listed answered => ?_, fun i hi n at' ne h => ?_,
    fun n at' id ne h => ?_⟩
  · rw [now]
    exact a.past n call at' r (calls ▸ listed) answered
  · obtain ⟨call, listed, -, answered⟩ := armed h
    have before := a.past n call at' _ listed answered
    rw [System.resume_machine] at hi
    cases e.info with
    | keeps recorded =>
        cases old : s.machine.keepAliveInfo with
        | none =>
            generalize g.machine.keepAliveInfo = after at recorded hi
            cases recorded with
            | same => exact absurd hi (by simp [old])
            | restarted restarted => simp [OwnMembershipMachine.recordRestarted, old] at hi
            | stored landed armedId =>
                cases hi
                exact before
        | some i' =>
            obtain ⟨i'', hi'', same, -, unchanged | restarted⟩ := recorded.kept none_ old
            · rw [hi] at hi''
              cases hi''
              rw [unchanged]
              exact a.since i' old n at' ne (same ▸ armed h)
            · rw [hi] at hi''
              cases hi''
              rw [restarted]
              exact before
    | clears cleared yields accounted =>
        rw [cleared] at hi
        cases hi
  · obtain ⟨i, hi, same⟩ | ended | pending := a.accounted n at' id ne (armed h)
    · cases e.info with
      | keeps recorded =>
          obtain ⟨i', hi', same', -⟩ := recorded.kept none_ hi
          exact Or.inl ⟨i', by rw [System.resume_machine, hi'], same'.trans same⟩
      | clears cleared yields accounted =>
          subst same
          obtain given | spawned := accounted i hi
          · have armedBefore : ∀ info, s.machine.keepAliveInfo = some info →
                info.delayedEventId = i.delayedEventId → at' ≤ info.lastRestartMs := by
              intro i' hi' same
              exact a.since i' hi' n at' ne (same ▸ armed h)
            exact Or.inr (Or.inl ((given at' armedBefore).later later))
          · exact Or.inr (Or.inr (pending_resume spawned))
    · exact Or.inr (Or.inl (ended.later later))
    · exact Or.inr ((waits id pending).symm.imp (fun ended => (ended at').later later)
        fun pending => pending)

/-- The clock gives a delay up only when it has run out. -/
theorem given_of_overdue (a : Accounts x s) (w : Wired s) (l : Ledger s)
    (overdue : s.machine.delayedLeaveOverdue s.now = true) (missed : missedRestart s = false)
    {info : KeepAliveInfo} (hi : s.machine.keepAliveInfo = some info) :
    Given s info.delayedEventId := by
  intro at' armed
  have timeout := l.timeout info hi
  refine .ranOut info.lastRestartMs (armed info hi rfl) ?_ fun at'' => ?_
  · have clock := a.clock
    simp only [OwnMembershipMachine.delayedLeaveOverdue, OwnMembershipMachine.delayedDeadline, hi,
      Option.map_some, Option.any_some, decide_eq_true_eq, satAdd, timeout] at overdue
    omega
  · rintro ⟨n, call, value, listed, request, answered⟩
    by_contra within
    simp only [not_or, not_le, not_lt] at within
    refine Bool.false_ne_true (missed.symm.trans ?_)
    simp only [missedRestart, hi, Option.any_some, List.any_eq_true]
    have made : n < s.nextCall := by
      by_contra unmade
      rw [w.fresh n (not_lt.mp unmade)] at listed
      cases listed
    refine ⟨n, List.mem_range.mpr made, ?_⟩
    simp [listed, request, answered, Except.toOption, within.1, timeout, within.2]

/-- A send that is settled has ended the delay it clears. -/
theorem effect_given {send : Send} {result : Except SendFailure String} (l : Ledger s)
    (held : s.tasks o = some (.sending send)) (registered : Registered s o send)
    (current : ∀ value, result = .ok value →
      (s.outbox.slot send.work.kind).ended send.generation = none)
    (refused : ∀ error, result = .error (.refused error) →
      (s.outbox.slot send.work.kind).ended send.generation = none ∧
        ∃ n call at', s.calls n = some call ∧ call.request = send.work.request ∧
          call.answer = some (at', .error error))
    (made : ∀ id, send.work = .cancel id → ∃ n call, s.calls n = some call ∧
      call.request = .cancelDelayedEvent id) :
    Effect (ArmingAt s o) (ArmsAt s o) (Given s) s.now s.machine s.outbox
      (settle s.machine s.outbox s.now send.work result) := by
  refine effect_settled l held registered current
    (fun info next error work h notFound i hi at' _ => ?_) fun id work i hi at' _ => ?_
  · obtain ⟨current', n, call, at'', listed, request, answered⟩ := refused error h
    have holds := l.holds o send held
    simp only [Holds, work, Work.kind] at holds current'
    obtain ⟨i', hi', same⟩ := holds current'
    cases hi.symm.trans hi'
    rw [work] at request
    exact .gone n call at'' error listed (by rw [request, Work.request, same]) answered notFound
  · obtain ⟨n, call, listed, request⟩ := made id work
    have holds := l.holds o send held
    simp only [Holds, work] at holds
    exact .cancelled n call listed (by rw [request, holds.2 i hi])

/-- The end of an attempt keeps the accounts: what it clears, its call has ended. -/
theorem accounts_endAttempt {send : Send} {outcome : AttemptOutcome} {n : ℕ} {call : HostCall}
    (a : Accounts x s) (l : Ledger s) (held : s.tasks o = some (.sending send))
    (registered : Registered s o send)
    (vacated : Wired ((s.release send.work.kind).setTask o none))
    (listed : s.calls n = some call) (request : call.request = send.work.request)
    (answered : ∀ result, outcome = .answered result → ∃ at', call.answer = some (at', result)) :
    Accounts x (s.endAttempt o send outcome) := by
  have released : Accounts x (s.release send.work.kind) :=
    a.quiet rfl le_rfl a.clock rfl rfl (waits_of_detached rfl)
  -- the cancellation a failed join waits for is the call that has just ended
  have waits : ∀ t, (o ≠ .detached → Waits (s.release send.work.kind) t) →
      Waits (s.release send.work.kind) t := by
    intro t other id pending
    by_cases own : o = .detached
    · subst own
      refine Or.inr fun at' => ?_
      obtain created | ⟨send', sending, work⟩ := pending
      · exact absurd (held.symm.trans created) (by simp)
      · have same : send = send' := by simpa using held.symm.trans sending
        exact .cancelled n call listed (by rw [request, same, work]; rfl)
    · exact other own id pending
  have settled : ∀ result,
      (∀ value, result = .ok value →
        ((s.release send.work.kind).outbox.slot send.work.kind).ended send.generation = none) →
      (∀ error, result = .error (.refused error) →
        ((s.release send.work.kind).outbox.slot send.work.kind).ended send.generation = none ∧
          outcome = .answered (.error error)) →
      Accounts x ((s.release send.work.kind).settleSend o send result) := by
    intro result current refused
    refine released.resume l.release (effect_given l.release held registered.release current
      (fun error h => ?_) fun id work => ⟨n, call, listed, by rw [request, work]; rfl⟩) ?_
    · obtain ⟨at', answer⟩ := answered _ (refused error h).2
      exact ⟨(refused error h).1, n, call, at', listed, request, answer⟩
    · exact waits _ (waits_resume vacated (runs_settle registered.fits))
  unfold System.endAttempt
  dsimp only
  split
  · rename_i failure ended
    refine settled _ (fun value h => by cases h) fun error h => ?_
    cases h
    exact absurd ended Slot.ended_not_refused
  · rename_i current
    split
    · rename_i result judged
      refine settled _ (fun value h => current) fun error h => ⟨current, ?_⟩
      exact judge_refused (by rw [judged, h])
    · refine released.quiet rfl le_rfl a.clock rfl rfl (waits _ fun other => ?_)
      exact waits_of_detached (by simp [Ne.symm other])

theorem not_failed {send : Send} {failure : SendFailure} (l : Ledger s)
    (held : s.tasks o = some (.sending send)) (registered : Registered s o send)
    (closing : (∃ id, send.work = .cancel id) ∨ ∃ id, send.work = .cancelArmed id)
    (reason : (s.outbox.slot send.work.kind).ended send.generation = some failure ∨
      failure = .deadlineElapsed send.last ∧ send.policy.overdue s.now = true) : False := by
  have holds := l.holds o send held
  have timed := registered.timed
  obtain ended | ⟨-, overdue⟩ := reason
  · obtain ⟨id, work⟩ | ⟨id, work⟩ := closing <;> simp [Holds, work, Work.kind] at holds ended
    · simp [holds.1] at ended
    · simp [holds] at ended
  · have joins := timed (SendPolicy.timed_of_overdue overdue)
    obtain ⟨id, work⟩ | ⟨id, work⟩ := closing <;> simp [ofJoin, work] at joins

theorem Accounts.take {send : Send} (a : Accounts x s) (w : Wired s)
    (held : s.tasks o = some (.sending send))
    (idle : (s.outbox.slot send.work.kind).inFlight = false) : Accounts x (s.take o send) := by
  rw [System.take, if_neg (by simp [idle])]
  have unlisted : s.calls s.nextCall = none := w.fresh s.nextCall le_rfl
  have old : ∀ {n call}, (if n = s.nextCall then some ⟨send.work.request, o, s.now, none⟩
      else s.calls n) = some call → ∀ {answer}, call.answer = some answer →
      s.calls n = some call := by
    intro n call listed answer answered
    split_ifs at listed
    · cases listed
      cases answered
    · exact listed
  refine a.onward ⟨le_rfl, rfl, fun n call listed => ⟨call, ?_, rfl, fun _ h => h⟩,
    fun n call at' r listed answered => Or.inr ⟨call, old listed answered, rfl, answered⟩⟩
    a.clock rfl (fun n call at' r listed answered => a.past n call at' r (old listed answered)
    answered) ?_ (waits_phase held rfl)
  · have other : n ≠ s.nextCall := by
      rintro rfl
      rw [unlisted] at listed
      cases listed
    simpa [System.setTask, other] using listed
  · rintro n at' id ne ⟨call, listed, request, answered⟩
    exact ⟨ne, call, old listed answered, request, answered⟩

theorem accounts_taskStep {event : TaskEvent} (w : Wired s) (l : Ledger s) (a : Accounts x s)
    (ok : attentive s (.task o event) = true) (step : System.TaskStep s o event t) :
    Accounts x t := by
  cases step with
  | polled operation held =>
      refine a.resume l (effect_startOperation fun next restart overdue idle info hi => ?_) ?_
      · subst restart
        refine given_of_overdue a w l overdue ?_ hi
        simpa [attentive, held, overdue, idle] using ok
      · by_cases own : o = .detached
        · subst own
          rintro id (created | ⟨send, sending, -⟩)
          · rw [held] at created
            cases created
            obtain ⟨send, task, work⟩ : ∃ send,
                (startOperation s.machine s.outbox s.now (.cancelArmed id)).task =
                  some (.sending send) ∧ send.work = .cancelArmed id := ⟨_, rfl, rfl⟩
            refine Or.inl (Or.inr ⟨send, ?_, work⟩)
            rw [System.resume_tasks rfl, if_pos rfl, task]
          · rw [held] at sending
            cases sending
        · exact waits_resume w.setTask_none (runs_startOperation (w.placed o _ held)) own
  | waited wakeAt held =>
      refine a.resume l effect_recoverNow ?_
      by_cases own : o = .detached
      · subst own
        rintro id (created | ⟨send, sending, -⟩)
        · rw [held] at created
          cases created
        · rw [held] at sending
          cases sending
      · exact waits_resume w.setTask_none runs_recoverNow own
  | moved event send phase held before after =>
      exact a.quiet rfl le_rfl a.clock rfl rfl (waits_phase held rfl)
  | failed event send failure held before settled =>
      have reason := settled.imp_right And.right
      have r := w.registered held
      refine a.resume l (effect_given l held r (fun _ h => by cases h) (fun error h => ?_)
        fun id work => (not_failed l held r (Or.inl ⟨id, work⟩) reason).elim) ?_
      · cases h
        obtain ended | ⟨elapsed, -⟩ := reason
        · exact absurd ended Slot.ended_not_refused
        · cases elapsed
      · by_cases own : o = .detached
        · subst own
          rintro id (created | ⟨send', sending, work⟩)
          · exact absurd (held.symm.trans created) (by simp)
          · have same : send = send' := by simpa using held.symm.trans sending
            exact (not_failed l held r (Or.inr ⟨id, same ▸ work⟩) reason).elim
        · exact waits_resume w.setTask_none (runs_settle r.fits) own
  | started send held checked idle => exact a.take w held idle
  | timedOut send n giveUpAt held calling late =>
      obtain ⟨-, call, listed, -, -, request, -⟩ := (w.placed o _ held).flight n giveUpAt calling
      exact accounts_endAttempt a l held (w.registered held) (w.vacate held calling) listed request
        fun _ h => by cases h

theorem republish_keepAliveInfo {m : OwnMembershipMachine} {ob : Outbox} {rearmed : Bool} :
    (republish m ob rearmed).machine.keepAliveInfo = m.keepAliveInfo := by
  unfold republish startIfJoined
  split
  · cases rearmed <;> rfl
  · split_ifs <;> rfl

theorem recorded_of_heard {send : Send} {armedId : String}
    (arms : send.work.request = .sendDelayedStickyEvent)
    (current : (s.outbox.slot send.work.kind).ended send.generation = none) :
    (s.endAttempt o send (.answered (.ok armedId))).machine.keepAliveInfo =
      some ⟨armedId, s.machine.keepAliveTimeoutMs, s.now⟩ := by
  unfold System.endAttempt
  dsimp only
  rw [release_ended, current]
  simp only [judge, System.settleSend, System.resume_machine]
  cases work : send.work with
  | armIfDue => exact free_keepAliveInfo _
  | rearm => exact republish_keepAliveInfo
  | joinArm content deadline => rfl
  | restart | republishRearmed | republish | refresh | join | leave | cancel | cancelArmed =>
      simp [work, Work.request] at arms

theorem accounts_recordAnswer {n : ℕ} {call : HostCall} {result : Except CommandError String}
    (a : Accounts none s) (listed : s.calls n = some call) (unanswered : call.answer = none) :
    Accounts (some n) (s.recordAnswer n call result) := by
  have other : ∀ {k : ℕ}, some k ≠ some n → (s.recordAnswer n call result).calls k = s.calls k :=
    fun ne => if_neg fun same => ne (congrArg some same)
  refine a.onward ⟨le_rfl, rfl, fun k call' h => ?_, fun k call' at' r h answered => ?_⟩
    a.clock rfl (fun k call' at' r h answered => ?_) (fun k at' id ne h => ?_)
    (waits_of_detached rfl)
  · by_cases same : k = n
    · subst same
      cases listed.symm.trans h
      exact ⟨_, if_pos rfl, rfl,
        fun x answered => absurd (unanswered.symm.trans answered) (by simp)⟩
    · exact ⟨call', (if_neg same).trans h, rfl, fun _ h => h⟩
  · by_cases same : k = n
    · subst same
      cases (if_pos rfl).symm.trans h
      cases answered
      exact Or.inl le_rfl
    · exact Or.inr ⟨call', (if_neg same).symm.trans h, rfl, answered⟩
  · by_cases same : k = n
    · subst same
      cases (if_pos rfl).symm.trans h
      cases answered
      exact le_rfl
    · exact a.past k call' at' r ((if_neg same).symm.trans h) answered
  · obtain ⟨call', h', rest⟩ := h
    exact ⟨by simp, call', (other ne).symm.trans h', rest⟩

theorem Accounts.settle {n : ℕ} (a : Accounts (some n) s)
    (new : ∀ at' id, Armed s n at' id → ∃ info, s.machine.keepAliveInfo = some info ∧
      info.delayedEventId = id ∧ at' ≤ info.lastRestartMs) : Accounts none s := by
  refine ⟨a.clock, a.past, fun info hi k at' _ h => ?_, fun k at' id _ h => ?_⟩
  · by_cases same : k = n
    · subst same
      obtain ⟨info', hi', -, le⟩ := new at' _ h
      cases hi.symm.trans hi'
      exact le
    · exact a.since info hi k at' (by simpa using same) h
  · by_cases same : k = n
    · subst same
      obtain ⟨info, hi, named, -⟩ := new at' id h
      exact Or.inl ⟨info, hi, named⟩
    · exact a.accounted k at' id (by simpa using same) h

/-- An answer keeps the accounts where an arm that succeeded is heard. -/
theorem accounts_answer {n : ℕ} {call : HostCall} {result : Except CommandError String}
    (w : Wired s) (l : Ledger s) (a : Accounts none s) (listed : s.calls n = some call)
    (unanswered : call.answer = none) (ok : attentive s (.answer n result) = true) :
    Accounts none (s.answer n call result) := by
  have recorded : Accounts (some n) (s.recordAnswer n call result) :=
    accounts_recordAnswer a listed unanswered
  have ledger : Ledger (s.recordAnswer n call result) := l.congr rfl rfl rfl rfl fun _ => rfl
  have listed' : (s.recordAnswer n call result).calls n =
      some { call with answer := some (s.now, result) } := if_pos rfl
  have hearing : ∀ at' id, Armed (s.recordAnswer n call result) n at' id →
      at' = s.now ∧ call.request = .sendDelayedStickyEvent ∧ result = .ok id ∧
        hears s n call = true := by
    rintro at' id ⟨call', there, request, answered⟩
    cases listed'.symm.trans there
    simp only [Option.some.injEq, Prod.mk.injEq] at answered
    obtain ⟨rfl, rfl⟩ := answered
    have arms : call.request = .sendDelayedStickyEvent := request
    refine ⟨rfl, arms, rfl, ?_⟩
    simpa [attentive, listed, arms] using ok
  have step := s.answerStep n call result
  generalize s.answer n call result = t at step ⊢
  cases step with
  | unheard away =>
      refine recorded.settle fun at' id armed => ?_
      exfalso
      obtain ⟨-, -, -, heard⟩ := hearing at' id armed
      simp only [hears] at heard
      split at heard
      · rename_i send held
        split at heard
        · rename_i k giveUpAt calling
          simp only [Bool.and_eq_true, decide_eq_true_eq] at heard
          exact away send giveUpAt held (heard.1 ▸ calling)
        · cases heard
      · cases heard
  | heard send giveUpAt held calling =>
      have r := w.registered held
      obtain ⟨-, call', there, -, -, request, -⟩ := (w.placed _ _ held).flight n giveUpAt calling
      cases listed.symm.trans there
      have answered : ∀ r, AttemptOutcome.answered result = .answered r →
          ∃ at', some (s.now, result) = some (at', r) := by
        rintro r ⟨⟩
        exact ⟨s.now, rfl⟩
      have kept := accounts_endAttempt recorded ledger held
        ⟨r.fits, r.bound, r.closed, r.timed, r.distinct⟩
        (w.vacate_answered listed held calling) listed' request answered
      refine kept.settle fun at' id armed => ?_
      have calls : ((s.recordAnswer n call result).endAttempt call.caller send
          (.answered result)).calls = (s.recordAnswer n call result).calls :=
        congrArg Prod.fst System.endAttempt_host
      have armed' : Armed (s.recordAnswer n call result) n at' id := by
        simpa only [Armed, calls] using armed
      obtain ⟨rfl, arms, rfl, heard⟩ := hearing at' id armed'
      have current : (s.outbox.slot send.work.kind).ended send.generation = none := by
        simpa [hears, held, calling] using heard
      refine ⟨_, recorded_of_heard (request ▸ arms) current, rfl, le_rfl⟩

theorem Accounts.tasks (a : Accounts x s) (host : t.host = s.host)
    (info : t.machine.keepAliveInfo = s.machine.keepAliveInfo)
    (timeout : t.machine.keepAliveTimeoutMs = s.machine.keepAliveTimeoutMs)
    (detached : t.tasks .detached = s.tasks .detached) : Accounts x t := by
  simp only [System.host, Prod.mk.injEq] at host
  obtain ⟨calls, -, now⟩ := host
  exact a.quiet calls now.ge (now ▸ a.clock) info timeout (waits_of_detached detached)

theorem drop_keepAliveInfo : (s.drop o).machine.keepAliveInfo = s.machine.keepAliveInfo := by
  unfold System.drop
  split
  · dsimp only
    split <;> exact free_keepAliveInfo _
  · rfl

theorem drop_keepAliveTimeoutMs :
    (s.drop o).machine.keepAliveTimeoutMs = s.machine.keepAliveTimeoutMs := by
  unfold System.drop
  split
  · dsimp only
    split <;> exact free_keepAliveTimeoutMs _
  · rfl

theorem Accounts.drop (a : Accounts x s) (own : o ≠ .detached) : Accounts x (s.drop o) :=
  a.tasks System.drop_host drop_keepAliveInfo drop_keepAliveTimeoutMs
    (by rw [System.drop_tasks, if_neg own.symm])

theorem Accounts.stopUpkeep (a : Accounts x s) : Accounts x s.stopUpkeep := by
  have dropped := a.drop (o := .restart) (by simp) |>.drop (o := .refresh) (by simp)
    |>.drop (o := .recover) (by simp) |>.drop (o := .republish) (by simp)
    |>.drop (o := .departure) (by simp)
  exact dropped.tasks rfl rfl rfl rfl

theorem Accounts.setTask (a : Accounts x s) {task : Option Task} (own : o ≠ .detached) :
    Accounts x (s.setTask o task) :=
  a.tasks rfl rfl rfl (by rw [System.setTask_tasks, if_neg own.symm])

theorem Accounts.startIfIdle (a : Accounts x s) {operation : Operation} (own : o ≠ .detached) :
    Accounts x (s.startIfIdle o operation) := by
  unfold System.startIfIdle
  split_ifs
  · exact a.setTask own
  · exact a

theorem Accounts.beat (a : Accounts x s) : Accounts x s.beat := by
  unfold System.beat
  dsimp only
  split_ifs
  · exact a.stopUpkeep
  · exact ((a.drop (by simp)).setTask (by simp)).startIfIdle (by simp)
  · exact a.startIfIdle (by simp)

theorem beginLeave_keepAliveInfo :
    s.beginLeave.machine.keepAliveInfo = s.machine.keepAliveInfo ∧
      s.beginLeave.machine.keepAliveTimeoutMs = s.machine.keepAliveTimeoutMs := by
  unfold System.beginLeave OwnMembership.beginLeave
  split_ifs <;> exact ⟨rfl, rfl⟩

theorem Accounts.beginLeave (a : Accounts x s) : Accounts x s.beginLeave :=
  a.tasks rfl beginLeave_keepAliveInfo.1 beginLeave_keepAliveInfo.2 rfl

theorem Accounts.leave (a : Accounts x s) (w : Wired s) (l : Ledger s)
    (h : s.machine.state = .joined ∨ s.machine.state = .leaving) (reason : Option LeaveReason) :
    Accounts x (s.resume .leave (OwnMembership.leave s.machine s.outbox s.now reason)) := by
  rw [resume_leave]
  obtain ⟨w', l'⟩ : Wired s.beginLeave ∧ Ledger s.beginLeave := by
    obtain joined | leaving := h
    · exact ⟨w.beginLeave joined, l.beginLeave w joined⟩
    · rw [beginLeave_left leaving]
      exact ⟨w, l⟩
  have sends : Runs .leave s.beginLeave.machine s.beginLeave.outbox
      (startSend s.beginLeave.machine s.beginLeave.outbox
        (.leave (reason.getD ⟨.leave, none⟩)) .single) :=
    runs_startSend (.same _) ⟨rfl, Or.inl (beginLeave_state h)⟩ (by simp [ofJoined])
      (by simp [SendPolicy.single])
  exact a.beginLeave.resume l' (effect_startSend .refl trivial fun h => by cases h)
    (waits_resume w'.setTask_none sends (by simp))

/-- One attentive step keeps the accounts. -/
theorem accounts_step {a : Action} (w : Wired s) (l : Ledger s) (accounts : Accounts none s)
    (ok : attentive s a = true) (h : s.step a = some t) : Accounts none t := by
  cases System.actionStep h with
  | tick ms clock =>
      exact accounts.quiet rfl (Nat.le_add_right _ _) clock rfl rfl (waits_of_detached rfl)
  | online | spawnUpkeep | lapseCheck => exact accounts.tasks rfl rfl rfl rfl
  | beat => exact accounts.beat
  | recovered => exact accounts.startIfIdle (by simp)
  | wakeDeparture =>
      have touched : Accounts none { s with machine := { s.machine with departed := false } } :=
        accounts.tasks rfl rfl rfl rfl
      exact touched.startIfIdle (by simp)
  | wakeRepublish =>
      have touched : Accounts none
          { s with machine := { s.machine with republishRequested := false } } :=
        accounts.tasks rfl rfl rfl rfl
      exact touched.startIfIdle (by simp)
  | task o event t step => exact accounts_taskStep w l accounts ok step
  | answer n call result listed unanswered =>
      exact accounts_answer w l accounts listed unanswered ok
  | ownDeparture reason =>
      obtain ⟨departed, same⟩ := s.machine.onOwnDeparture_flags reason
      rw [same]
      exact accounts.tasks rfl rfl rfl rfl
  | catchUp own =>
      obtain ⟨awaiting, requested, same⟩ := s.machine.onCatchUp_flags own
      rw [same]
      exact accounts.tasks rfl rfl rfl rfl
  | moveTransports =>
      exact accounts.resume l effect_republishTransports
        (waits_resume w.setTask_none runs_republishTransports (by simp))
  | beginLeave => exact accounts.beginLeave
  | leave reason begun => exact accounts.leave w l begun reason
  | dropFuture o own attached => exact accounts.drop attached
  | abortUpkeep => exact accounts.stopUpkeep

end

theorem accounts_start (timings : MembershipTimings) (transports : MemberTransports)
    (deadline : ℕ) (now : UInt64) : Accounts none (.start timings transports deadline now) := by
  have host := System.start_host timings transports deadline now
  simp only [System.host, Prod.mk.injEq] at host
  obtain ⟨calls, -, clock⟩ := host
  have unlisted : ∀ n call, (System.start timings transports deadline now).calls n ≠ some call := by
    simp [calls]
  refine ⟨?_, fun n call _ _ h => absurd h (unlisted n call), ?_, ?_⟩
  · rw [clock]
    exact Nat.le_sub_one_of_lt now.toNat_lt
  · rintro _ _ n _ _ ⟨call, listed, _⟩
    exact absurd listed (unlisted n call)
  · rintro n _ _ _ ⟨call, listed, _⟩
    exact absurd listed (unlisted n call)

/-- No delayed leave is leaked in attentive runs: in every run in which no arm that
succeeds is answered unheard, superseded, cancelled or dropped meanwhile, and the clock
gives up no delay that a restart has reached since the one on record, each delay the
host has returned is at all later times the one on record, ended, or handed to the
cancellation of a failed join. -/
theorem no_delayed_leave_leaked (timings : MembershipTimings) (transports : MemberTransports)
    (deadline : ℕ) (now : UInt64) (trace : List Action) (s : System)
    (ok : Admissible System.step (fun s a => attentive s a = true)
      (.start timings transports deadline now) trace)
    (reach : run System.step (.start timings transports deadline now) trace = some s)
    (n armedAt : ℕ) (id : String) (armed : Armed s n armedAt id) : Accounted s armedAt id := by
  obtain ⟨-, -, accounts⟩ : Wired s ∧ Ledger s ∧ Accounts none s :=
    run_invariant (I := fun s => Wired s ∧ Ledger s ∧ Accounts none s)
      (fun _ _ _ inv ok step => ⟨wired_step inv.1 step, ledger_step inv.1 inv.2.1 step,
        accounts_step inv.1 inv.2.1 inv.2.2 ok step⟩)
      ⟨wired_start timings transports deadline now, ledger_start timings transports deadline now,
        accounts_start timings transports deadline now⟩ ok reach
  exact accounts.accounted n armedAt id (by simp) armed

section Runs

/-- The join's delay is cancelled by a leave. -/
def joinedAndLeft : List Action :=
  joinLands ++ [.leave none] ++ attempt .leave ++ [.answer 2 (.ok "$leave")] ++ attempt .leave ++
    [.answer 3 (.ok "")]

/-- The cancellation accounts for the delay after the leave. -/
theorem joins_delay_accounted :
    ∃ s ∈ run System.step (.start timings transports 10000 0) joinedAndLeft,
      s.machine.state = .left ∧ Accounted s 0 "delay" := by
  have reached : ∃ s ∈ run System.step (.start timings transports 10000 0) joinedAndLeft,
      s.machine.state = .left ∧ ∃ call ∈ s.calls 0, call.request = .sendDelayedStickyEvent ∧
        call.answer = some (0, .ok "delay") := by
    decide
  obtain ⟨s, reach, left, call, listed, request, answered⟩ := reached
  exact ⟨s, reach, left, no_delayed_leave_leaked timings transports 10000 0 joinedAndLeft s
    (by decide) reach 0 0 "delay" ⟨call, listed, request, answered⟩⟩

/-- The join goes on without a delayed leave, a beat probes for one five minutes later,
and a leave begins while that arm is at the host. -/
def leftWhileArming : List Action :=
  attempt .join ++ [.answer 0 (.error (.schedulingError "busy"))] ++ attempt .join ++
    [.answer 1 (.ok "$join"), .spawnUpkeep, .tick 300000, .beat, .task .restart .poll] ++
    attempt .restart ++ [.leave none, .answer 2 (.ok "delay")] ++ attempt .leave ++
    [.answer 3 (.ok "$leave")]

/-- The arm's answer is discarded and the leave cancels nothing: the delay is neither
on record nor ended, and no cancellation of it is under way. -/
theorem delay_armed_during_leave_leaked :
    ∃ s ∈ run System.step (.start timings transports 10000 0) leftWhileArming,
      s.machine.state = .left ∧ Armed s 2 300000 "delay" ∧ ¬ Accounted s 300000 "delay" := by
  have reached : ∃ s ∈ run System.step (.start timings transports 10000 0) leftWhileArming,
      s.machine.state = .left ∧ s.machine.keepAliveInfo = none ∧
        (s.tasks .detached).isNone = true ∧ s.now = 300000 ∧
        s.machine.keepAliveTimeoutMs = 20000 ∧ s.nextCall = 4 ∧
        (∀ k ∈ List.range 4, ∀ call ∈ s.calls k, call.request ≠ .restartDelayedEvent "delay" ∧
          call.request ≠ .cancelDelayedEvent "delay") ∧
        ∃ call ∈ s.calls 2, call.request = .sendDelayedStickyEvent ∧
          call.answer = some (300000, .ok "delay") := by
    decide
  obtain ⟨s, reach, left, none_, idle, now, timeout, next, unasked, call, listed, arms, answered⟩ :=
    reached
  have unmade : ∀ n call, s.calls n = some call →
      call.request ≠ .restartDelayedEvent "delay" ∧ call.request ≠ .cancelDelayedEvent "delay" := by
    intro n call listed
    refine unasked n (List.mem_range.mpr ?_) call listed
    by_contra unmade
    rw [(wired_run reach).fresh n (next ▸ not_lt.mp unmade)] at listed
    cases listed
  refine ⟨s, reach, left, ⟨call, listed, arms, answered⟩, ?_⟩
  rintro (⟨info, hi, -⟩ | ended | pending)
  · rw [none_] at hi
    cases hi
  · cases ended with
    | gone n call at' error listed request => exact (unmade n call listed).1 request
    | ranOut since armed past => omega
    | cancelled n call listed request => exact (unmade n call listed).2 request
  · simp [Pending, Option.isNone_iff_eq_none.mp idle] at pending

end Runs

end MatrixRtc.DelayedLeaves

import MatrixRtc.UpkeepInvariants

/-!
# The delayed leave on record

What every reachable state's sends agree on about the one delayed leave the machine
has on record. A restart that is still current restarts the recorded delay, an arm
runs only while none is recorded and only one at a time, and the cancellations of a
leave and of a failed join are never superseded. Each segment's effect on the record
is described first, and the agreement is then one induction over the steps.
-/
namespace MatrixRtc.DelayedLeaveRecord
open HostAnswers MemberEvents Outboxes OwnMembership MembershipUpkeep OperationSegments
open UpkeepInvariants StepRuns

/-- What a new send finds on record. -/
def Finds (m : OwnMembershipMachine) : Work → Prop
  | .restart info _ => m.keepAliveInfo = some info
  | .armIfDue | .rearm | .joinArm .. => m.keepAliveInfo = none
  | .cancel id => ∃ info, m.keepAliveInfo = some info ∧ info.delayedEventId = id
  | .cancelArmed _ | .republishRearmed _ | .republish _ | .refresh _ | .join _ | .leave _ => True

/-- The record as a segment that does not clear it leaves it; `arms` says that an arm
has landed. -/
inductive Recorded (arms : Prop) (now : ℕ) (m : OwnMembershipMachine) :
    Option KeepAliveInfo → Prop
  | same : Recorded arms now m m.keepAliveInfo
  | restarted (id : String) : Recorded arms now m (m.recordRestarted now id).keepAliveInfo
  | stored (landed : arms) (id : String) :
      Recorded arms now m (some ⟨id, m.keepAliveTimeoutMs, now⟩)

/-- What a segment does to the record. Where it clears a delay, `why` says how that
delay is accounted for, or it is handed over; and no restart of it stays current. -/
inductive InfoMove (arms : Prop) (why : String → Prop) (now : ℕ) (m : OwnMembershipMachine)
    (ob : Outbox) (g : Segment) : Prop
  | keeps (info : Recorded arms now m g.machine.keepAliveInfo)
  | clears (info : g.machine.keepAliveInfo = none)
      (yields : g.outbox.slot .delayedLeave = (ob.slot .delayedLeave).register ∨
        g.machine.state ≠ .joined)
      (why : ∀ info, m.keepAliveInfo = some info →
        why info.delayedEventId ∨ g.spawned = some info.delayedEventId)

/-- The effect of a segment on the record and on the arming flag; `busy` says that the
operation holds the flag already. -/
structure Effect (busy arms : Prop) (why : String → Prop) (now : ℕ) (m : OwnMembershipMachine)
    (ob : Outbox) (g : Segment) : Prop where
  timeout : g.machine.keepAliveTimeoutMs = m.keepAliveTimeoutMs
  info : InfoMove arms why now m ob g
  finds : ∀ send, g.task = some (.sending send) → Finds g.machine send.work
  flag : ¬ busy → m.arming = true → g.machine.arming = true
  taken : ∀ send, g.task = some (.sending send) → send.work.busy = .arming →
    g.machine.arming = true ∧ (busy ∨ m.arming = false)

/-- A machine that a segment reaches before it registers its send or ends. -/
structure Base (arms : Prop) (now : ℕ) (m m' : OwnMembershipMachine) : Prop where
  timeout : m'.keepAliveTimeoutMs = m.keepAliveTimeoutMs
  info : Recorded arms now m m'.keepAliveInfo
  flag : m.arming = true → m'.arming = true

section
variable {busy arms : Prop} {why : String → Prop} {now : ℕ} {m m' : OwnMembershipMachine}
  {ob : Outbox}

theorem Base.refl : Base arms now m m := ⟨rfl, .same, id⟩

@[simp] theorem free_keepAliveInfo (b : Busy) : (m.free b).keepAliveInfo = m.keepAliveInfo := by
  cases b <;> rfl

@[simp] theorem free_keepAliveTimeoutMs (b : Busy) :
    (m.free b).keepAliveTimeoutMs = m.keepAliveTimeoutMs := by
  cases b <;> rfl

theorem free_arming {b : Busy} (other : b ≠ .arming) : (m.free b).arming = m.arming := by
  cases b <;> first | rfl | exact absurd rfl other

theorem effect_finished (base : Base arms now m m') :
    Effect busy arms why now m ob (finished m' ob) :=
  ⟨base.timeout, .keeps base.info, fun _ h => (by cases h), fun _ => base.flag,
    fun _ h => by cases h⟩

theorem effect_free {b : Busy} (base : Base arms now m m') (held : b = .arming → busy) :
    Effect busy arms why now m ob (finished (m'.free b) ob) := by
  refine ⟨(free_keepAliveTimeoutMs b).trans base.timeout, .keeps ?_, fun _ h => (by cases h),
    fun other flag => ?_, fun _ h => by cases h⟩
  · rw [finished, free_keepAliveInfo]
    exact base.info
  · rw [finished, free_arming fun mine => other (held mine)]
    exact base.flag flag

theorem effect_startSend {work : Work} {policy : SendPolicy} (base : Base arms now m m')
    (finds : Finds m' work)
    (taken : work.busy = .arming → m'.arming = true ∧ (busy ∨ m.arming = false)) :
    Effect busy arms why now m ob (startSend m' ob work policy) := by
  refine ⟨base.timeout, .keeps base.info, fun send h => ?_, fun _ => base.flag, fun send h => ?_⟩
  · cases h
    exact finds
  · cases h
    exact taken

theorem effect_startIfJoined {work : Work} {policy : SendPolicy} (base : Base arms now m m')
    (finds : Finds m' work)
    (taken : work.busy = .arming → m'.arming = true ∧ (busy ∨ m.arming = false)) :
    Effect busy arms why now m ob (startIfJoined m' ob work policy) := by
  unfold startIfJoined
  split_ifs
  · exact effect_startSend base finds taken
  · refine ⟨(free_keepAliveTimeoutMs _).trans base.timeout, .keeps ?_, fun _ h => (by cases h),
      fun other flag => ?_, fun _ h => by cases h⟩
    · rw [finished, free_keepAliveInfo]
      exact base.info
    · by_cases mine : work.busy = .arming
      · rcases (taken mine).2 with held | free
        · exact absurd held other
        · rw [free] at flag
          cases flag
      · rw [finished, free_arming mine]
        exact base.flag flag

theorem effect_republish {rearmed : Bool} (base : Base arms now m m')
    (held : rearmed = true → busy ∧ m'.arming = true) :
    Effect busy arms why now m ob (republish m' ob rearmed) := by
  unfold republish
  cases m'.lastSticky with
  | none =>
      cases rearmed with
      | false => exact effect_finished base
      | true => exact effect_free (b := .arming) base fun _ => (held rfl).1
  | some sticky =>
      cases rearmed with
      | false => exact effect_startIfJoined base trivial fun h => by cases h
      | true => exact effect_startIfJoined base trivial fun _ => ⟨(held rfl).2, Or.inl (held rfl).1⟩

theorem effect_armIfDue (empty : m.keepAliveInfo = none) :
    Effect busy arms why now m ob (armIfDue m ob now) := by
  unfold armIfDue
  split_ifs with skip
  · exact effect_finished .refl
  · have idle : m.arming = false := by simpa using fun h => skip (Or.inr h)
    refine effect_startIfJoined ⟨rfl, .same, fun _ => rfl⟩ ?_ fun _ => ⟨rfl, Or.inr idle⟩
    exact empty

theorem effect_rearmAndRepublish
    (why_ : m.arming = false → ∀ info, m.keepAliveInfo = some info → why info.delayedEventId) :
    Effect busy arms why now m ob (rearmAndRepublish m ob) := by
  unfold rearmAndRepublish startIfJoined
  split_ifs with arming joined
  · exact effect_finished .refl
  · refine ⟨rfl, .clears rfl (Or.inl rfl) ?_, fun send h => ?_,
      fun _ _ => rfl, fun send h _ => ⟨rfl, Or.inr (Bool.eq_false_iff.mpr arming)⟩⟩
    · exact fun info h => Or.inl (why_ (Bool.eq_false_iff.mpr arming) info h)
    · cases h
      rfl
  · refine ⟨rfl, .clears rfl (Or.inr joined) ?_, fun _ h => (by cases h), fun _ flag => ?_,
      fun _ h => by cases h⟩
    · exact fun info h => Or.inl (why_ (Bool.eq_false_iff.mpr arming) info h)
    · exact absurd flag arming

theorem effect_restart {clockFallback : Bool} {next : After}
    (why_ : clockFallback = true → m.delayedLeaveOverdue now = true → m.arming = false →
      ∀ info, m.keepAliveInfo = some info → why info.delayedEventId) :
    Effect busy arms why now m ob (restart m ob now clockFallback next) := by
  unfold restart
  cases recorded : m.keepAliveInfo with
  | none => exact effect_armIfDue recorded
  | some info =>
      dsimp only
      split_ifs with overdue
      · simp only [Bool.and_eq_true] at overdue
        exact effect_rearmAndRepublish (why_ overdue.1 overdue.2)
      · exact effect_startIfJoined .refl recorded fun h => by cases h

theorem effect_recoverNow : Effect busy arms why now m ob (recoverNow m ob now) := by
  unfold recoverNow
  split_ifs
  · exact effect_finished .refl
  · exact effect_restart fun h => by cases h
  · exact effect_finished ⟨rfl, .same, id⟩

theorem effect_republishTransports {transport : RawRtcTransport} :
    Effect busy arms why now m ob (republishTransports m ob transport) := by
  unfold republishTransports
  cases m.lastSticky with
  | none => exact effect_finished .refl
  | some sticky =>
      dsimp only
      split_ifs
      · exact effect_finished .refl
      · exact effect_republish ⟨rfl, .same, id⟩ fun h => by cases h

/-- Only the clock's fallback clears the record when an operation starts. -/
theorem effect_startOperation {operation : Operation}
    (why_ : ∀ next, operation = .restart true next → m.delayedLeaveOverdue now = true →
      m.arming = false → ∀ info, m.keepAliveInfo = some info → why info.delayedEventId) :
    Effect busy arms why now m ob (startOperation m ob now operation) := by
  cases operation with
  | restart clockFallback next =>
      refine effect_restart fun fallback => ?_
      subst fallback
      exact why_ next rfl
  | refresh =>
      simp only [startOperation, refreshIfDue]
      split
      · exact effect_finished .refl
      · split_ifs
        · exact effect_finished .refl
        · exact effect_startIfJoined ⟨rfl, .same, id⟩ trivial fun h => by cases h
  | recover jitter =>
      exact ⟨rfl, .keeps .same, fun _ h => (by cases h), fun _ => id, fun _ h => by cases h⟩
  | recoverDeparture =>
      simp only [startOperation, recoverDeparture]
      split_ifs
      · exact effect_finished .refl
      · exact effect_restart fun h => by cases h
      · exact effect_republish .refl fun h => by cases h
  | republish => exact effect_republish .refl fun h => by cases h
  | cancelArmed id => exact effect_startSend .refl trivial fun h => by cases h

theorem effect_afterRestart {next : After} (base : Base arms now m m') :
    Effect busy arms why now m ob (afterRestart m' ob next) := by
  cases next with
  | nothing => exact effect_finished base
  | catchUp => exact effect_finished ⟨base.timeout, base.info, base.flag⟩
  | republish => exact effect_republish base fun h => by cases h

theorem effect_afterRearm {result : Except SendFailure String} (held : busy)
    (flag : m.arming = true) (landed : ∀ id, result = .ok id → arms) :
    Effect busy arms why now m ob (afterRearm m ob now result) := by
  have marked : ∀ failure : SendFailure, Effect busy arms why now m ob
      (republish (m.markDelayedLeaveUnsupported now failure.intoCommandError) ob true) :=
    fun _ => effect_republish ⟨rfl, .same, id⟩ fun _ => ⟨held, flag⟩
  cases result with
  | ok armed =>
      exact effect_republish ⟨rfl, .stored (landed armed rfl) armed, id⟩ fun _ => ⟨held, flag⟩
  | error failure =>
      cases failure with
      | superseded | cancelled => exact effect_free .refl fun _ => held
      | refused | deadlineElapsed | timedOut | failed => exact marked _

/-- What the result of a send does to the record: a restart answered `M_NOT_FOUND`
clears it for a re-arm, a failed join hands it over and a leave's cancellation ends it. -/
theorem effect_settle {work : Work} {result : Except SendFailure String}
    (held : work.busy = .arming → busy ∧ m.arming = true)
    (landed : ∀ id, result = .ok id → work.request = .sendDelayedStickyEvent → arms)
    (gone : ∀ info next error, work = .restart info next → result = .error (.refused error) →
      isNotFound error = true → ∀ i, m.keepAliveInfo = some i → why i.delayedEventId)
    (cancelled : ∀ id, work = .cancel id → ∀ i, m.keepAliveInfo = some i →
      why i.delayedEventId) :
    Effect busy arms why now m ob (settle m ob now work result) := by
  cases work with
  | restart info next =>
      cases result with
      | ok value => exact effect_afterRestart ⟨rfl, .restarted info.delayedEventId, id⟩
      | error failure =>
          cases failure with
          | refused error =>
              simp only [settle]
              split_ifs with notFound
              · exact effect_rearmAndRepublish fun _ => gone info next error rfl rfl notFound
              · exact effect_finished .refl
          | superseded | cancelled | deadlineElapsed | timedOut | failed =>
              exact effect_finished .refl
  | armIfDue =>
      obtain ⟨holds, flag⟩ := held rfl
      have marked : ∀ failure : SendFailure, Effect busy arms why now m ob (finished
          ((m.markDelayedLeaveUnsupported now failure.intoCommandError).free .arming) ob) :=
        fun _ => effect_free ⟨rfl, .same, id⟩ fun _ => holds
      cases result with
      | ok armed => exact effect_free ⟨rfl, .stored (landed armed rfl rfl) armed, id⟩ fun _ => holds
      | error failure =>
          cases failure with
          | superseded | cancelled => exact effect_free .refl fun _ => holds
          | refused | deadlineElapsed | timedOut | failed => exact marked _
  | rearm =>
      obtain ⟨holds, flag⟩ := held rfl
      exact effect_afterRearm holds flag fun armed h => landed armed h rfl
  | republishRearmed content | republish content | refresh content =>
      cases result with
      | ok eventId => exact effect_free ⟨rfl, .same, id⟩ fun mine => (held mine).1
      | error failure => exact effect_free .refl fun mine => (held mine).1
  | joinArm content deadline =>
      cases result with
      | ok armed =>
          exact effect_startSend ⟨rfl, .stored (landed armed rfl rfl) armed, id⟩ trivial
            fun h => by cases h
      | error failure => exact effect_startSend ⟨rfl, .same, id⟩ trivial fun h => by cases h
  | join content =>
      cases result with
      | ok eventId => exact effect_finished ⟨rfl, .same, id⟩
      | error failure =>
          refine ⟨rfl, .clears rfl (Or.inr (by simp [settle, afterJoin])) fun info h => Or.inr ?_,
            fun _ h => (by cases h), fun _ => id, fun _ h => by cases h⟩
          simp [settle, afterJoin, h]
  | leave reason =>
      cases result with
      | error failure => exact effect_finished .refl
      | ok eventId =>
          simp only [settle, afterLeave]
          split
          · rename_i info recorded
            exact effect_startSend ⟨rfl, .same, id⟩ ⟨info, recorded, rfl⟩ fun h => by cases h
          · exact effect_finished ⟨rfl, .same, id⟩
  | cancel delayed =>
      refine ⟨rfl, .clears rfl (Or.inr (by simp [settle, finished])) fun info h => Or.inl ?_,
        fun _ h => (by cases h), fun _ => id, fun _ h => by cases h⟩
      exact cancelled delayed rfl info h
  | cancelArmed delayed => exact effect_finished .refl

end

/-- What a send under way has to do with the record. -/
def Holds (m : OwnMembershipMachine) (ob : Outbox) (send : Send) : Prop :=
  match send.work with
  | .restart info _ => (ob.slot .delayedLeave).ended send.generation = none →
      ∃ i, m.keepAliveInfo = some i ∧ i.delayedEventId = info.delayedEventId
  | .armIfDue | .rearm | .joinArm .. => m.keepAliveInfo = none
  | .cancel id => (ob.slot .delayedLeave).ended send.generation = none ∧
      ∀ i, m.keepAliveInfo = some i → i.delayedEventId = id
  | .cancelArmed _ => (ob.slot .delayedLeave).ended send.generation = none
  | .republishRearmed _ | .republish _ | .refresh _ | .join _ | .leave _ => True

/-- The operation of `o` holds the arming flag. -/
def ArmingAt (s : System) (o : Owner) : Prop :=
  ∃ send, s.tasks o = some (.sending send) ∧ send.work.busy = .arming

/-- The operation of `o` has a current arm under way. -/
def ArmsAt (s : System) (o : Owner) : Prop :=
  ∃ send, s.tasks o = some (.sending send) ∧ Registered s o send ∧
    send.work.request = .sendDelayedStickyEvent ∧
    (s.outbox.slot .delayedLeave).ended send.generation = none

/-- What the sends under way and the machine agree on. -/
structure Ledger (s : System) : Prop where
  timeout : ∀ info, s.machine.keepAliveInfo = some info →
    info.timeoutMs = s.machine.keepAliveTimeoutMs
  holds : ∀ o send, s.tasks o = some (.sending send) → Holds s.machine s.outbox send
  flag : ∀ o, ArmingAt s o → s.machine.arming = true
  sole : ∀ o o', ArmingAt s o → ArmingAt s o' → o = o'

section
variable {s t : System} {o : Owner}

theorem Holds.congr {m m' : OwnMembershipMachine} {ob ob' : Outbox} {send send' : Send}
    (holds : Holds m ob send) (info : m'.keepAliveInfo = m.keepAliveInfo)
    (ended : ∀ g, (ob'.slot .delayedLeave).ended g = (ob.slot .delayedLeave).ended g)
    (work : send'.work = send.work) (generation : send'.generation = send.generation) :
    Holds m' ob' send' := by
  simpa only [Holds, info, ended, work, generation] using holds

/-- A step of the system that leaves the record, the flag and the delayed leave's slot alone. -/
theorem Ledger.congr (l : Ledger s) (tasks : t.tasks = s.tasks)
    (info : t.machine.keepAliveInfo = s.machine.keepAliveInfo)
    (timeout : t.machine.keepAliveTimeoutMs = s.machine.keepAliveTimeoutMs)
    (arming : t.machine.arming = s.machine.arming)
    (ended : ∀ g, (t.outbox.slot .delayedLeave).ended g = (s.outbox.slot .delayedLeave).ended g) :
    Ledger t := by
  have armingAt : ∀ o, ArmingAt t o → ArmingAt s o := fun o => by
    simp only [ArmingAt, tasks, imp_self]
  refine ⟨fun i hi => ?_, fun o send held => ?_, fun o h => ?_, fun o o' h h' => ?_⟩
  · rw [timeout]
    exact l.timeout i (info ▸ hi)
  · rw [tasks] at held
    exact (l.holds o send held).congr info ended rfl rfl
  · rw [arming]
    exact l.flag o (armingAt o h)
  · exact l.sole o o' (armingAt o h) (armingAt o' h')

theorem Ledger.release (l : Ledger s) {kind : SendKind} : Ledger (s.release kind) :=
  l.congr rfl rfl rfl rfl fun _ => release_ended

/-- A task that is no send, or the same send in another phase. -/
theorem Ledger.setTask (l : Ledger s) {task : Option Task}
    (same : ∀ send, task = some (.sending send) → ∃ before, s.tasks o = some (.sending before) ∧
      send.work = before.work ∧ send.generation = before.generation) :
    Ledger (s.setTask o task) := by
  have old : ∀ o' send, (s.setTask o task).tasks o' = some (.sending send) →
      ∃ before, s.tasks o' = some (.sending before) ∧ send.work = before.work ∧
        send.generation = before.generation := by
    intro o' send held
    rw [System.setTask_tasks] at held
    split_ifs at held with mine
    · subst mine
      exact same send held
    · exact ⟨send, held, rfl, rfl⟩
  have armingAt : ∀ o', ArmingAt (s.setTask o task) o' → ArmingAt s o' := by
    rintro o' ⟨send, held, busy⟩
    obtain ⟨before, held', work, -⟩ := old o' send held
    exact ⟨before, held', work ▸ busy⟩
  refine ⟨l.timeout, fun o' send held => ?_, fun o' h => l.flag o' (armingAt o' h),
    fun o₁ o₂ h₁ h₂ => l.sole o₁ o₂ (armingAt o₁ h₁) (armingAt o₂ h₂)⟩
  obtain ⟨before, held', work, generation⟩ := old o' send held
  exact (l.holds o' before held').congr rfl (fun _ => rfl) work generation

theorem Ledger.setTask_created (l : Ledger s) (operation : Operation) :
    Ledger (s.setTask o (some (.created operation))) :=
  l.setTask fun _ h => by cases h

/-- A dropped operation gives back the flag it held, and nobody else held it. -/
theorem Ledger.drop (l : Ledger s) : Ledger (s.drop o) := by
  have dropped : Ledger (s.setTask o none) := l.setTask fun _ h => by cases h
  unfold System.drop
  cases held : s.tasks o with
  | none => exact dropped
  | some task =>
      cases task with
      | created operation => exact dropped
      | jitter wakeAt => exact dropped
      | sending send =>
          dsimp only
          have freed :
              Ledger ({ s with machine := s.machine.free send.work.busy }.setTask o none) := by
            by_cases mine : send.work.busy = .arming
            · have others : ∀ o', ¬ ArmingAt (s.setTask o none) o' := by
                rintro o' ⟨send', held', busy⟩
                simp only [System.setTask_tasks] at held'
                split_ifs at held' with same
                exact same (l.sole o' o ⟨send', held', busy⟩ ⟨send, held, mine⟩)
              rw [mine]
              exact ⟨dropped.timeout, dropped.holds, fun o' h => absurd h (others o'),
                fun o' _ h => absurd h (others o')⟩
            · exact dropped.congr rfl (free_keepAliveInfo _) (free_keepAliveTimeoutMs _)
                (free_arming mine) fun _ => rfl
          cases phase : send.phase with
          | calling n g => exact freed.congr rfl rfl rfl rfl fun _ => release_ended
          | waiting | checked | backingOff => exact freed

theorem current_of_next {m : OwnMembershipMachine} {ob ob' : Outbox} {send : Send}
    (next : Next o m ob (some (.sending send)) ob') :
    (ob'.slot send.work.kind).ended send.generation = none := by
  generalize htask : some (Task.sending send) = task at next
  cases next with
  | ended | jitter => cases htask
  | sends work policy fits joined timed =>
      cases htask
      exact Slot.ended_eq_none.mpr rfl

/-- A send that is still current after a segment of another operation was so before, and
the segment took no send to its slot. -/
theorem current_before {m : OwnMembershipMachine} {ob ob' : Outbox} {task : Option Task}
    {kind : SendKind} {generation : ℕ} (next : Next o m ob task ob')
    (bound : generation ≤ (ob.slot kind).generation)
    (current : (ob'.slot kind).ended generation = none) :
    ob'.slot kind = ob.slot kind := by
  obtain kept | more := next.slots kind
  · exact kept
  · rw [more, Slot.ended_eq_none, Slot.register_generation] at current
    omega

theorem registers_delayedLeave {state : OwnMembershipState} {work : Work}
    (fits : WorkFits o state work) (joined : ofJoined work = true → state = .joined)
    (kind : work.kind = .delayedLeave) :
    state = .joined ∨ (o = .join ∧ state = .joining) ∨
      (o = .leave ∧ (state = .leaving ∨ state = .left)) ∨ (o = .detached ∧ state = .notJoined) := by
  cases work with
  | restart | armIfDue | rearm => exact Or.inl (joined rfl)
  | joinArm => exact Or.inr (Or.inl fits)
  | cancel => exact Or.inr (Or.inr (Or.inl fits))
  | cancelArmed => exact Or.inr (Or.inr (Or.inr fits))
  | republishRearmed | republish | refresh | join | leave => cases kind

/-- Nothing supersedes the cancellation of a leave or of a failed join. -/
theorem closing_kept {m : OwnMembershipMachine} {ob ob' : Outbox} {task : Option Task}
    {o' : Owner} {work : Work} {generation : ℕ} (next : Next o m ob task ob') (ne : o' ≠ o)
    (fits : WorkFits o' m.state work)
    (closing : (∃ id, work = .cancel id) ∨ ∃ id, work = .cancelArmed id)
    (current : (ob.slot .delayedLeave).ended generation = none) :
    (ob'.slot .delayedLeave).ended generation = none := by
  cases next with
  | ended | jitter => exact current
  | sends work' policy fits' joined timed =>
      by_cases same : SendKind.delayedLeave = work'.kind
      · exfalso
        have registers := registers_delayedLeave fits' joined same.symm
        obtain ⟨id, rfl⟩ | ⟨id, rfl⟩ := closing
        · obtain ⟨rfl, leaving | left⟩ := fits
          · simp [leaving, ne.symm] at registers
          · simp [left, ne.symm] at registers
        · obtain ⟨rfl, failed⟩ := fits
          simp [failed, ne.symm] at registers
      · simp only [startSend, Outbox.beginSend, Outbox.slot_update_ne same]
        exact current

theorem Holds.empty {m : OwnMembershipMachine} {ob : Outbox} {send : Send} (holds : Holds m ob send)
    (arms : send.work.request = .sendDelayedStickyEvent) : m.keepAliveInfo = none := by
  obtain ⟨generation, policy, backoff, last, work, phase⟩ := send
  cases work <;> first | exact holds | cases arms

theorem ArmsAt.empty (l : Ledger s) (arms : ArmsAt s o) : s.machine.keepAliveInfo = none := by
  obtain ⟨send, held, -, request, -⟩ := arms
  exact (l.holds o send held).empty request

theorem ArmsAt.sole {o' : Owner} {send : Send} (l : Ledger s) (arms : ArmsAt s o)
    (held : s.tasks o' = some (.sending send)) (fits : WorkFits o' s.machine.state send.work)
    (request : send.work.request = .sendDelayedStickyEvent) : o' = o := by
  obtain ⟨arm, held', registered, request', -⟩ := arms
  have fits' := registered.fits
  by_cases mine : send.work.busy = .arming
  · by_cases theirs : arm.work.busy = .arming
    · exact l.sole o' o ⟨send, held, mine⟩ ⟨arm, held', theirs⟩
    · cases work : send.work <;> cases work' : arm.work <;>
        simp_all [WorkFits, Work.busy, Work.request]
  · cases work : send.work <;> cases work' : arm.work <;>
      simp_all [WorkFits, Work.busy, Work.request]

theorem ArmsAt.not_leaving (arms : ArmsAt s o) :
    ¬ (s.machine.state = .leaving ∨ s.machine.state = .left) := by
  intro leaving
  obtain ⟨arm, -, registered, request, current⟩ := arms
  have fits := registered.fits
  have kind : arm.work.kind = .delayedLeave := by
    cases work : arm.work <;> simp_all [Work.request, Work.kind]
  have closed : ofJoined arm.work = true := by
    cases work : arm.work <;> simp_all [WorkFits, Work.request, ofJoined]
  have cancelled := registered.closed closed leaving
  rw [kind, current] at cancelled
  cases cancelled

theorem Recorded.kept {arms : Prop} {now : ℕ} {m : OwnMembershipMachine}
    {info : Option KeepAliveInfo} (recorded : Recorded arms now m info)
    (none_ : arms → m.keepAliveInfo = none) {i : KeepAliveInfo} (hi : m.keepAliveInfo = some i) :
    ∃ i', info = some i' ∧ i'.delayedEventId = i.delayedEventId ∧ i'.timeoutMs = i.timeoutMs ∧
      (i'.lastRestartMs = i.lastRestartMs ∨ i'.lastRestartMs = now) := by
  cases recorded with
  | same => exact ⟨i, hi, rfl, rfl, Or.inl rfl⟩
  | restarted id =>
      simp only [OwnMembershipMachine.recordRestarted, hi, Option.map_some]
      split_ifs
      · exact ⟨_, rfl, rfl, rfl, Or.inr rfl⟩
      · exact ⟨i, rfl, rfl, rfl, Or.inl rfl⟩
  | stored landed id =>
      rw [none_ landed] at hi
      cases hi

theorem Recorded.of_none {arms : Prop} {now : ℕ} {m : OwnMembershipMachine}
    {info : Option KeepAliveInfo} (recorded : Recorded arms now m info)
    (empty : m.keepAliveInfo = none) : arms ∨ info = none := by
  cases recorded with
  | same => exact Or.inr empty
  | restarted id => exact Or.inr (by simp [OwnMembershipMachine.recordRestarted, empty])
  | stored landed id => exact Or.inl landed

variable {g : Segment} {why : String → Prop}

/-- The sends of the other operations hold to the record after a segment. -/
theorem Ledger.holds_other (l : Ledger s) (w : Wired (s.setTask o none))
    (r : Runs o s.machine s.outbox g)
    (e : Effect (ArmingAt s o) (ArmsAt s o) why s.now s.machine s.outbox g) {o' : Owner}
    {send : Send} (ne : o' ≠ o) (held : s.tasks o' = some (.sending send)) :
    Holds g.machine g.outbox send := by
  have registered : Registered (s.setTask o none) o' send := w.registered (by simp [ne, held])
  obtain ⟨fits, bound, closed, -, -⟩ := registered
  simp only [System.setTask_machine] at fits closed
  have fits' := fits.advance ne r.advance
  have old := l.holds o' send held
  have none_ : ArmsAt s o → s.machine.keepAliveInfo = none := ArmsAt.empty l
  obtain ⟨generation, policy, backoff, last, work, phase⟩ := send
  cases work with
  | restart info next =>
      intro current
      have kept : g.outbox.slot .delayedLeave = s.outbox.slot .delayedLeave :=
        current_before r.next bound current
      rw [kept] at current
      obtain ⟨i, hi, same⟩ := old current
      cases e.info with
      | keeps recorded =>
          obtain ⟨i', hi', same', -⟩ := recorded.kept none_ hi
          exact ⟨i', hi', same'.trans same⟩
      | clears cleared yields accounted =>
          exfalso
          obtain more | unjoined := yields
          · have := congrArg Slot.generation (kept.symm.trans more)
            simp at this
          · have leaving := r.advance.leaving (fits'.resolve_left unjoined)
            have cancelled := closed rfl leaving
            exact absurd (current.symm.trans cancelled) (by simp)
  | armIfDue | rearm | joinArm =>
      cases e.info with
      | keeps recorded =>
          obtain landed | empty := recorded.of_none old
          · exact absurd (ArmsAt.sole l landed held fits rfl) ne
          · exact empty
      | clears cleared yields accounted => exact cleared
  | cancel id =>
      obtain ⟨current, ids⟩ := old
      refine ⟨closing_kept r.next ne fits' (Or.inl ⟨id, rfl⟩) current, fun i' hi' => ?_⟩
      cases e.info with
      | keeps recorded =>
          cases before : s.machine.keepAliveInfo with
          | none =>
              obtain landed | empty := recorded.of_none before
              · exact absurd fits.2 landed.not_leaving
              · rw [empty] at hi'
                cases hi'
          | some i =>
              obtain ⟨i'', hi'', same, -⟩ := recorded.kept none_ before
              rw [hi'] at hi''
              cases hi''
              exact same.trans (ids i before)
      | clears cleared yields accounted =>
          rw [cleared] at hi'
          cases hi'
  | cancelArmed id => exact closing_kept r.next ne fits' (Or.inr ⟨id, rfl⟩) old
  | republishRearmed | republish | refresh | join | leave => trivial

/-- A send that has just been registered holds to the record it found. -/
theorem holds_registered {ob : Outbox} {send : Send} (r : Runs o s.machine ob g)
    (finds : Finds g.machine send.work) (hg : g.task = some (.sending send)) :
    Holds g.machine g.outbox send := by
  have next := r.next
  rw [hg] at next
  have current := current_of_next next
  obtain ⟨generation, policy, backoff, last, work, phase⟩ := send
  cases work with
  | restart info next' => exact fun _ => ⟨info, finds, rfl⟩
  | armIfDue | rearm | joinArm => exact finds
  | cancel id =>
      obtain ⟨i, hi, same⟩ := finds
      refine ⟨current, fun i' hi' => ?_⟩
      cases hi.symm.trans hi'
      exact same
  | cancelArmed id => exact current
  | republishRearmed | republish | refresh | join | leave => trivial

/-- A segment of `o`, described by its effect, keeps the ledger. -/
theorem Ledger.resume (l : Ledger s) (why : String → Prop) (w : Wired (s.setTask o none))
    (r : Runs o s.machine s.outbox g)
    (e : Effect (ArmingAt s o) (ArmsAt s o) why s.now s.machine s.outbox g) :
    Ledger (s.resume o g) := by
  have others : ∀ o', o' ≠ o → ∀ send, s.tasks o' = some (.sending send) →
      send.work.busy = .arming → g.machine.arming = true ∧
        ¬ ∃ send, g.task = some (.sending send) ∧ send.work.busy = .arming := by
    intro o' ne send held busy
    have flag := l.flag o' ⟨send, held, busy⟩
    have free : ¬ ArmingAt s o := fun mine => ne (l.sole o' o ⟨send, held, busy⟩ mine)
    refine ⟨e.flag free flag, fun ⟨send', hg, busy'⟩ => ?_⟩
    obtain mine | idle := (e.taken send' hg busy').2
    · exact free mine
    · rw [flag] at idle
      cases idle
  refine ⟨fun i hi => ?_, fun o' send held => ?_, fun o' ⟨send, held, busy⟩ => ?_,
    fun o₁ o₂ ⟨send₁, held₁, busy₁⟩ ⟨send₂, held₂, busy₂⟩ => ?_⟩
  · rw [System.resume_machine] at hi ⊢
    rw [e.timeout]
    cases e.info with
    | keeps recorded =>
        cases before : s.machine.keepAliveInfo with
        | none =>
            generalize g.machine.keepAliveInfo = after at recorded hi
            cases recorded with
            | same => exact l.timeout i hi
            | restarted id =>
                simp [OwnMembershipMachine.recordRestarted, before] at hi
            | stored landed id =>
                cases hi
                rfl
        | some i' =>
            obtain ⟨i'', hi'', -, timeout, -⟩ := recorded.kept (ArmsAt.empty l) before
            rw [hi] at hi''
            cases hi''
            exact timeout.trans (l.timeout i' before)
    | clears cleared yields accounted =>
        rw [cleared] at hi
        cases hi
  · have outbox : (s.resume o g).outbox = g.outbox := by
      unfold System.resume
      cases g.spawned <;> rfl
    rw [System.resume_machine, outbox]
    obtain ⟨rfl, hg⟩ | ⟨ne, held⟩ := resume_sending held
    · exact holds_registered r (e.finds send hg) hg
    · exact l.holds_other w r e ne held
  · rw [System.resume_machine]
    obtain ⟨rfl, hg⟩ | ⟨ne, held⟩ := resume_sending held
    · exact (e.taken send hg busy).1
    · exact (others o' ne send held busy).1
  · obtain ⟨mine₁, hg₁⟩ | ⟨ne₁, old₁⟩ := resume_sending held₁ <;>
      obtain ⟨mine₂, hg₂⟩ | ⟨ne₂, old₂⟩ := resume_sending held₂
    · exact mine₁.trans mine₂.symm
    · exact absurd ⟨send₁, hg₁, busy₁⟩ (others o₂ ne₂ send₂ old₂ busy₂).2
    · exact absurd ⟨send₂, hg₂, busy₂⟩ (others o₁ ne₁ send₁ old₁ busy₁).2
    · exact l.sole o₁ o₂ ⟨send₁, old₁, busy₁⟩ ⟨send₂, old₂, busy₂⟩

/-- The effect of a settled send on the record it holds to. -/
theorem effect_settled {send : Send} {result : Except SendFailure String} (l : Ledger s)
    (held : s.tasks o = some (.sending send)) (registered : Registered s o send)
    (current : ∀ value, result = .ok value →
      (s.outbox.slot send.work.kind).ended send.generation = none)
    (gone : ∀ info next error, send.work = .restart info next →
      result = .error (.refused error) → isNotFound error = true →
      ∀ i, s.machine.keepAliveInfo = some i → why i.delayedEventId)
    (cancelled : ∀ id, send.work = .cancel id →
      ∀ i, s.machine.keepAliveInfo = some i → why i.delayedEventId) :
    Effect (ArmingAt s o) (ArmsAt s o) why s.now s.machine s.outbox
      (settle s.machine s.outbox s.now send.work result) := by
  refine effect_settle (fun mine => ?_) (fun id h arms => ?_) gone cancelled
  · exact ⟨⟨send, held, mine⟩, l.flag o ⟨send, held, mine⟩⟩
  · have kind : send.work.kind = .delayedLeave := by
      cases work : send.work <;> simp_all [Work.request, Work.kind]
    exact ⟨send, held, registered, arms, kind ▸ current id h⟩

theorem ledger_endAttempt {send : Send} {outcome : AttemptOutcome} (l : Ledger s)
    (held : s.tasks o = some (.sending send)) (registered : Registered s o send)
    (vacated : Wired ((s.release send.work.kind).setTask o none)) :
    Ledger (s.endAttempt o send outcome) := by
  have settled : ∀ result, (∀ value, result = .ok value →
      ((s.release send.work.kind).outbox.slot send.work.kind).ended send.generation = none) →
      Ledger ((s.release send.work.kind).settleSend o send result) := fun result current =>
    l.release.resume (fun _ => True) vacated (runs_settle registered.fits)
      (effect_settled l.release held registered.release current
        (fun _ _ _ _ _ _ _ _ => trivial) fun _ _ _ _ => trivial)
  unfold System.endAttempt
  dsimp only
  split
  · exact settled _ fun value h => by cases h
  · rename_i current
    split
    · exact settled _ fun value h => current
    · refine l.release.setTask fun send' h => ?_
      cases h
      exact ⟨send, held, rfl, rfl⟩

theorem ledger_answer {n : ℕ} {call : HostCall} {result : Except CommandError String}
    (w : Wired s) (l : Ledger s) (listed : s.calls n = some call) :
    Ledger (s.answer n call result) := by
  have recorded : Ledger (s.recordAnswer n call result) := l.congr rfl rfl rfl rfl fun _ => rfl
  have step := s.answerStep n call result
  generalize s.answer n call result = t at step ⊢
  cases step with
  | unheard away => exact recorded
  | heard send giveUpAt held calling =>
      have r := w.registered held
      exact ledger_endAttempt recorded held ⟨r.fits, r.bound, r.closed, r.timed, r.distinct⟩
        (w.vacate_answered listed held calling)

theorem Ledger.take {send : Send} (l : Ledger s) (held : s.tasks o = some (.sending send))
    (idle : (s.outbox.slot send.work.kind).inFlight = false) : Ledger (s.take o send) := by
  rw [System.take, if_neg (by simp [idle])]
  refine Ledger.setTask ?_ fun send' h => ?_
  · exact l.congr rfl rfl rfl rfl fun g => Outbox.ended_update_inFlight ..
  · cases h
    exact ⟨send, held, rfl, rfl⟩

theorem ledger_taskStep {event : TaskEvent} (w : Wired s) (l : Ledger s)
    (step : System.TaskStep s o event t) : Ledger t := by
  cases step with
  | polled operation held =>
      exact l.resume (fun _ => True) w.setTask_none (runs_startOperation (w.placed o _ held))
        (effect_startOperation fun _ _ _ _ _ _ => trivial)
  | waited wakeAt held =>
      exact l.resume (fun _ => True) w.setTask_none runs_recoverNow effect_recoverNow
  | moved event send phase held before after =>
      refine l.setTask fun send' h => ?_
      cases h
      exact ⟨send, held, rfl, rfl⟩
  | failed event send failure held before reason =>
      have r := w.registered held
      exact l.resume (fun _ => True) w.setTask_none (runs_settle r.fits)
        (effect_settled l held r (fun _ h => by cases h)
          (fun _ _ _ _ _ _ _ _ => trivial) fun _ _ _ _ => trivial)
  | started send held checked idle =>
      exact l.take held idle
  | timedOut send n giveUpAt held calling late =>
      exact ledger_endAttempt l held (w.registered held) (w.vacate held calling)

theorem Ledger.stopUpkeep (l : Ledger s) : Ledger s.stopUpkeep := by
  have dropped := l.drop (o := .restart) |>.drop (o := .refresh) |>.drop (o := .recover)
    |>.drop (o := .republish) |>.drop (o := .departure)
  exact dropped.congr rfl rfl rfl rfl fun _ => rfl

theorem Ledger.startIfIdle (l : Ledger s) (operation : Operation) :
    Ledger (s.startIfIdle o operation) := by
  unfold System.startIfIdle
  split_ifs
  · exact l.setTask_created operation
  · exact l

theorem Ledger.beat (l : Ledger s) : Ledger s.beat := by
  unfold System.beat
  dsimp only
  split_ifs
  · exact l.stopUpkeep
  · exact (l.drop.setTask_created (.restart true .nothing)).startIfIdle .refresh
  · exact l.startIfIdle .refresh

/-- A leave begins while nothing is being cancelled, and ends the sends of the join. -/
theorem Ledger.beginLeave (w : Wired s) (l : Ledger s) (joined : s.machine.state = .joined) :
    Ledger s.beginLeave := by
  have begun : s.beginLeave = { s with
      machine := ({ s.machine with state := .leaving } : OwnMembershipMachine).updateLapsed s.now
      outbox := s.outbox.cancelScope } := by
    simp [System.beginLeave, OwnMembership.beginLeave, joined]
  rw [begun]
  refine ⟨l.timeout, fun o send held => ?_, l.flag, l.sole⟩
  obtain ⟨fits, bound, -⟩ := w.registered held
  have old := l.holds o send held
  obtain ⟨generation, policy, backoff, last, work, phase⟩ := send
  cases work with
  | restart info next =>
      intro current
      rw [Outbox.slot_cancelScope] at current
      exact absurd (current.symm.trans (Slot.ended_cancel bound)) (by simp)
  | armIfDue | rearm | joinArm => exact old
  | cancel id => simp [WorkFits, joined] at fits
  | cancelArmed id => simp [WorkFits, joined] at fits
  | republishRearmed | republish | refresh | join | leave => trivial

theorem Ledger.leave (w : Wired s) (l : Ledger s)
    (h : s.machine.state = .joined ∨ s.machine.state = .leaving) (reason : Option LeaveReason) :
    Ledger (s.resume .leave (OwnMembership.leave s.machine s.outbox s.now reason)) := by
  rw [resume_leave]
  have begun : Wired s.beginLeave ∧ Ledger s.beginLeave := by
    obtain joined | leaving := h
    · exact ⟨w.beginLeave joined, l.beginLeave w joined⟩
    · rw [beginLeave_left leaving]
      exact ⟨w, l⟩
  refine begun.2.resume (fun _ => True) begun.1.setTask_none (runs_startSend (.same _)
    ⟨rfl, Or.inl (beginLeave_state h)⟩ (by simp [ofJoined]) (by simp [SendPolicy.single])) ?_
  exact effect_startSend .refl trivial fun h => by cases h

/-- One step keeps the ledger. -/
theorem ledger_step {a : Action} (w : Wired s) (l : Ledger s) (h : s.step a = some t) :
    Ledger t := by
  have plain : ∀ {u : System}, u.tasks = s.tasks → u.outbox = s.outbox →
      u.machine.keepAliveInfo = s.machine.keepAliveInfo →
      u.machine.keepAliveTimeoutMs = s.machine.keepAliveTimeoutMs →
      u.machine.arming = s.machine.arming → Ledger u := fun tasks outbox info timeout arming =>
    l.congr tasks info timeout arming fun g => by rw [outbox]
  cases System.actionStep h with
  | tick | spawnUpkeep | lapseCheck => exact plain rfl rfl rfl rfl rfl
  | online => exact l.congr rfl rfl rfl rfl fun _ => rfl
  | beat => exact l.beat
  | recovered => exact l.startIfIdle _
  | wakeDeparture =>
      have touched : Ledger { s with machine := { s.machine with departed := false } } :=
        plain rfl rfl rfl rfl rfl
      exact touched.startIfIdle _
  | wakeRepublish =>
      have touched : Ledger { s with machine := { s.machine with republishRequested := false } } :=
        plain rfl rfl rfl rfl rfl
      exact touched.startIfIdle _
  | task o event t step => exact ledger_taskStep w l step
  | answer n call result listed => exact ledger_answer w l listed
  | ownDeparture reason =>
      obtain ⟨departed, same⟩ := s.machine.onOwnDeparture_flags reason
      rw [same]
      exact plain rfl rfl rfl rfl rfl
  | catchUp own =>
      obtain ⟨awaiting, requested, same⟩ := s.machine.onCatchUp_flags own
      rw [same]
      exact plain rfl rfl rfl rfl rfl
  | moveTransports =>
      exact l.resume (fun _ => True) w.setTask_none runs_republishTransports
        effect_republishTransports
  | beginLeave joined => exact l.beginLeave w joined
  | leave reason begun => exact l.leave w begun reason
  | dropFuture => exact l.drop
  | abortUpkeep => exact l.stopUpkeep

end

theorem ledger_start (timings : MembershipTimings) (transports : MemberTransports)
    (deadline : ℕ) (now : UInt64) : Ledger (.start timings transports deadline now) := by
  obtain ⟨w, l⟩ : Wired (beforeJoin timings now) ∧ Ledger (beforeJoin timings now) :=
    ⟨wired_beforeJoin timings now, fun _ h => (by cases h), fun _ _ h => (by cases h),
      fun _ ⟨_, h, _⟩ => (by cases h), fun _ _ ⟨_, h, _⟩ => by cases h⟩
  have joins : Effect (ArmingAt (beforeJoin timings now) .join)
      (ArmsAt (beforeJoin timings now) .join)
      (fun _ => True) now.toNat (beforeJoin timings now).machine .new
      (join (.new timings) .new now.toNat transports deadline) :=
    effect_startSend .refl rfl fun h => by cases h
  exact l.resume (fun _ => True) w.setTask_none (runs_join timings transports deadline now) joins

end MatrixRtc.DelayedLeaveRecord

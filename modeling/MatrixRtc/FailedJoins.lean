import MatrixRtc.SendOrigins

/-!
# A join that failed

A join whose membership was not sent hands its delayed leave to a cancellation. A refused
attempt has not landed, but one given up by the join's deadline, or before it by the
attempt timeout, is still at the host and may. The runs are kept with whether an attempt
was given up like that, and whether the cancellation was called although not every
attempt had been answered with a failure.
-/
namespace MatrixRtc.FailedJoins
open HostAnswers MemberEvents Outboxes OwnMembership MembershipUpkeep OperationSegments
open UpkeepInvariants LeaveOrder SendOrigins StepRuns

/-- The host answered the call with a failure. -/
def failed (call : HostCall) : Bool := call.answer.any fun answer => answer.2.toOption.isNone

/-- Every attempt to publish a join's content was answered with a failure. -/
def allFailed (s : System) : Bool :=
  (List.range s.nextCall).all fun n =>
    (s.calls n).all fun call => !publishesJoin call.request || failed call

/-- The call cancels the delayed leave of a join that failed. -/
def cancelsFailed (call : HostCall) : Bool :=
  match call.request with
  | .cancelDelayedEvent _ => call.caller = .detached
  | _ => false

/-- The send of the join's membership, while it is under way. -/
def publishSend (s : System) : Option Send :=
  match s.tasks .join with
  | some (.sending send) => if publishesJoin send.work.request then some send else none
  | _ => none

/-- The step gives up an attempt to publish that the host has not answered. -/
def abandons (s : System) : Action → Bool
  | .task .join .timeOut => (publishSend s).isSome
  | _ => false

structure JoinRun where
  base : System
  /-- an attempt to publish was given up unanswered -/
  abandoned : Bool
  /-- the delayed leave was cancelled while an attempt was not known to have failed -/
  undue : Bool

namespace JoinRun

def start (timings : MembershipTimings) (transports : MemberTransports) (deadline : ℕ)
    (now : UInt64) : JoinRun :=
  ⟨.start timings transports deadline now, false, false⟩

def record (h : JoinRun) (a : Action) (t : System) : JoinRun :=
  { base := t
    abandoned := h.abandoned || abandons h.base a
    undue := h.undue ||
      (startedCall h.base t).any cancelsFailed && !allFailed h.base }

def step (h : JoinRun) (a : Action) : Option JoinRun := (h.base.step a).map (h.record a)

end JoinRun

/-- The join's publish ends in a failure here, with an attempt that was given up: it is out
of time, or refused at a later attempt. -/
def unanswered (h : JoinRun) : Action → Bool
  | .task .join .timeOut => (publishSend h.base).any fun send => send.policy.overdue h.base.now
  | .task .join .giveUp =>
      h.abandoned && (publishSend h.base).any fun send => send.policy.overdue h.base.now
  | .answer n (.error error) =>
      h.abandoned && error.isPermanent && (publishSend h.base).any fun send =>
        match send.phase with
        | .calling k _ => k = n
        | _ => false
  | _ => false

/-- A join with a delayed leave armed does not fail with an attempt that was given up. -/
def Answered (h : JoinRun) (a : Action) : Prop :=
  ¬ (h.base.machine.keepAliveInfo.isSome = true ∧ unanswered h a = true)

instance (h : JoinRun) (a : Action) : Decidable (Answered h a) :=
  inferInstanceAs (Decidable (¬ _))

/-- Every attempt to publish failed, but for the one `send` waits for. -/
def FailedBut (s : System) (send : Send) : Prop :=
  ∀ n call, s.calls n = some call → publishesJoin call.request = true →
    failed call = true ∨ ∃ giveUpAt, send.phase = .calling n giveUpAt

def AllFailed (s : System) : Prop :=
  ∀ n call, s.calls n = some call → publishesJoin call.request = true → failed call = true

/-- A send of the join is current, and knows what came of its attempts. -/
structure Hears (abandoned : Bool) (s : System) (send : Send) : Prop where
  mine : ofJoin send.work = true
  current : (s.outbox.slot send.work.kind).ended send.generation = none
  heard : abandoned = false → FailedBut s send

/-- The join waits on its sends and on nothing else. -/
def Joining (abandoned : Bool) (s : System) : Prop :=
  ∀ task, s.tasks .join = some task → ∃ send, task = .sending send ∧ Hears abandoned s send

/-- A delayed leave is handed over by a join that failed with every attempt answered. -/
def Handed (s : System) : Prop :=
  ∀ task, s.tasks .detached = some task → s.machine.state = .notJoined ∧ AllFailed s

section
variable {s t : System} {o : Owner} {send : Send} {b : Bool}

theorem allFailed_iff (w : Wired s) : allFailed s = true ↔ AllFailed s := by
  simp only [allFailed, List.all_eq_true, List.mem_range, Option.all_eq_true]
  constructor
  · intro all n call listed content
    have made : n < s.nextCall := by
      by_contra unmade
      rw [w.fresh n (not_lt.mp unmade)] at listed
      cases listed
    simpa [content] using all n made call listed
  · intro all n made call listed
    cases content : publishesJoin call.request with
    | false => rfl
    | true => simpa using all n call listed content

theorem fits_ofJoin {state : OwnMembershipState} {work : Work} (fits : WorkFits o state work)
    (mine : ofJoin work = true) : o = .join ∧ state = .joining := by
  cases work <;> first | exact fits | cases mine

theorem owner_of_joining {work : Work} (fits : WorkFits o .joining work) : o = .join := by
  cases work <;> simp only [WorkFits, reduceCtorEq, and_false, or_self, and_true] at fits
  · exact fits
  · exact fits

theorem not_publishes_of_notJoined {work : Work} (fits : WorkFits o .notJoined work) :
    publishesJoin work.request = false := by
  cases work <;> first | rfl | simp [WorkFits] at fits

/-- The join's send fits the machine's state. -/
def JoinFits (s : System) : Prop :=
  ∀ send, s.tasks .join = some (.sending send) → WorkFits .join s.machine.state send.work

theorem joinFits_of_wired (w : Wired s) : JoinFits s := fun _ held => (w.registered held).fits

theorem Joining.weaken {c : Bool} (joining : Joining b s) : Joining (b || c) s := by
  intro task held
  obtain ⟨send, same, mine, current, heard⟩ := joining task held
  exact ⟨send, same, mine, current, fun kept => heard (Bool.or_eq_false_iff.mp kept).1⟩

theorem state_of_hears (fits : JoinFits s) (held : s.tasks .join = some (.sending send))
    (hears : Hears b s send) : s.machine.state = .joining :=
  (fits_ofJoin (fits send held) hears.mine).2

/-- The step is not about the join: its send stands in its slot as it did, or was dropped,
and so does what it handed over. -/
structure Aside (s t : System) : Prop where
  calls : t.calls = s.calls
  join : t.tasks .join = s.tasks .join ∨ t.tasks .join = none
  detached : t.tasks .detached = s.tasks .detached
  ended : ∀ kind generation, (t.outbox.slot kind).ended generation =
    (s.outbox.slot kind).ended generation
  state : s.machine.state = .notJoined → t.machine.state = .notJoined

theorem Aside.refl (s : System) : Aside s s := ⟨rfl, .inl rfl, rfl, fun _ _ => rfl, id⟩

theorem Aside.trans {u : System} (first : Aside s t) (then_ : Aside t u) : Aside s u where
  calls := then_.calls.trans first.calls
  join := by
    obtain same | gone := then_.join
    · exact first.join.imp same.trans same.trans
    · exact .inr gone
  detached := then_.detached.trans first.detached
  ended kind generation := (then_.ended kind generation).trans (first.ended kind generation)
  state := then_.state ∘ first.state

theorem Aside.joining (aside : Aside s t) (joining : Joining b s) : Joining b t := by
  intro task held
  obtain same | gone := aside.join
  · obtain ⟨send, rfl, mine, current, heard⟩ := joining task (same ▸ held)
    refine ⟨send, rfl, mine, (aside.ended _ _).trans current, fun kept n call listed => ?_⟩
    exact heard kept n call (aside.calls ▸ listed)
  · cases gone.symm.trans held

theorem Aside.handed (aside : Aside s t) (handed : Handed s) : Handed t := by
  intro task held
  obtain ⟨notJoined, all⟩ := handed task (aside.detached ▸ held)
  exact ⟨aside.state notJoined, fun n call listed => all n call (aside.calls ▸ listed)⟩

theorem aside_setTask {task : Option Task} (other : o ≠ .join) (attached : o ≠ .detached) :
    Aside s (s.setTask o task) :=
  ⟨rfl, .inl (if_neg other.symm), if_neg attached.symm, fun _ _ => rfl, id⟩

theorem aside_drop (attached : o ≠ .detached) : Aside s (s.drop o) where
  calls := congrArg Prod.fst System.drop_host
  join := by
    rw [System.drop_tasks]
    split_ifs
    · exact .inr rfl
    · exact .inl rfl
  detached := by rw [System.drop_tasks, if_neg attached.symm]
  ended kind generation := by
    unfold System.drop
    split
    · dsimp only
      split
      · exact release_ended
      · rfl
    · rfl
  state notJoined := System.drop_state.trans notJoined

theorem aside_startIfIdle {operation : Operation} (other : o ≠ .join) (attached : o ≠ .detached) :
    Aside s (s.startIfIdle o operation) := by
  unfold System.startIfIdle
  split_ifs
  · exact aside_setTask other attached
  · exact .refl s

theorem aside_stopUpkeep : Aside s s.stopUpkeep := by
  have dropped := (aside_drop (s := s) (o := .restart) (by decide)).trans <|
    (aside_drop (o := .refresh) (by decide)).trans <|
    (aside_drop (o := .recover) (by decide)).trans <|
    (aside_drop (o := .republish) (by decide)).trans (aside_drop (o := .departure) (by decide))
  exact ⟨dropped.calls, dropped.join, dropped.detached, dropped.ended, dropped.state⟩

theorem aside_beat : Aside s s.beat := by
  unfold System.beat
  dsimp only
  split_ifs
  · exact aside_stopUpkeep
  · exact (aside_drop (by decide)).trans <| (aside_setTask (by decide) (by decide)).trans
      (aside_startIfIdle (by decide) (by decide))
  · exact aside_startIfIdle (by decide) (by decide)

theorem aside_release {kind : SendKind} : Aside s (s.release kind) :=
  ⟨rfl, .inl rfl, rfl, fun _ _ => release_ended, id⟩

/-- The others' segments leave the join's send and its slot alone. -/
theorem joining_resume {g : Segment} (fits : JoinFits s) (r : Runs o s.machine s.outbox g)
    (other : o ≠ .join) (joining : Joining b s) : Joining b (s.resume o g) := by
  have tasks : (s.resume o g).tasks .join = s.tasks .join :=
    System.resume_tasks_other other.symm (by decide)
  have calls : (s.resume o g).calls = s.calls := congrArg Prod.fst System.resume_host
  intro task held
  obtain ⟨send, rfl, hears⟩ := joining task (tasks ▸ held)
  have state := state_of_hears fits (tasks ▸ held) hears
  refine ⟨send, rfl, hears.mine, ?_, fun kept n call listed => ?_⟩
  · rw [System.resume_outbox]
    have next := r.next
    have advance := r.advance
    rw [state] at advance
    have after : g.machine.state = .joining := by
      generalize g.machine.state = after at advance
      cases advance with
      | same => rfl
      | joined own | failed own => exact absurd own other
    generalize g.outbox = ob, g.task = task at next
    cases next with
    | ended | jitter => exact hears.current
    | sends work policy theirs => exact absurd (owner_of_joining (after ▸ theirs)) other
  · exact hears.heard kept n call (calls ▸ listed)

theorem handed_resume {g : Segment} (r : Runs o s.machine s.outbox g) (other : o ≠ .join)
    (there : o = .detached → (s.tasks .detached).isSome = true) (handed : Handed s) :
    Handed (s.resume o g) := by
  have unspawned : g.spawned = none := by
    cases spawned : g.spawned with
    | none => rfl
    | some id =>
        obtain ⟨before, after⟩ := r.spawned (by simp [spawned])
        have advance := r.advance
        rw [before, after] at advance
        cases advance with
        | failed own => exact absurd own other
  intro task held
  have calls : (s.resume o g).calls = s.calls := congrArg Prod.fst System.resume_host
  have before : ∃ task, s.tasks .detached = some task := by
    rw [System.resume_tasks unspawned] at held
    split_ifs at held with mine
    · exact Option.isSome_iff_exists.mp (there mine.symm)
    · exact ⟨task, held⟩
  obtain ⟨task, before⟩ := before
  obtain ⟨notJoined, all⟩ := handed task before
  refine ⟨?_, fun n call listed => all n call (calls ▸ listed)⟩
  rw [System.resume_machine]
  exact r.advance.notJoined notJoined

/-- A call that starts is no join's but the join's own. -/
theorem joining_take (w : Wired s) (held : s.tasks o = some (.sending send))
    (checked : send.phase = .checked) (idle : (s.outbox.slot send.work.kind).inFlight = false)
    (joining : Joining b s) : Joining b (s.take o send) := by
  rw [System.take, if_neg (by simp [idle])]
  have ended : ∀ kind generation,
      ((s.outbox.update send.work.kind fun slot => { slot with inFlight := true }).slot
        kind).ended generation = (s.outbox.slot kind).ended generation := fun kind generation =>
    Outbox.ended_update_inFlight ..
  intro task held'
  simp only [System.setTask_tasks] at held'
  split_ifs at held' with mine
  · subst mine
    cases held'
    obtain ⟨_, same, hears⟩ := joining _ held
    cases same
    refine ⟨_, rfl, hears.mine, (ended _ _).trans hears.current,
      fun kept n call listed content => ?_⟩
    simp only [System.setTask] at listed
    split_ifs at listed with new
    · subst new
      exact .inr ⟨_, rfl⟩
    · obtain failed | ⟨giveUpAt, calling⟩ := hears.heard kept n call listed content
      · exact .inl failed
      · cases checked.symm.trans calling
  · obtain ⟨send', rfl, hears⟩ := joining task held'
    refine ⟨send', rfl, hears.mine, (ended _ _).trans hears.current, fun kept n call listed => ?_⟩
    simp only [System.setTask] at listed
    split_ifs at listed with new
    · have fits := (w.registered held).fits
      rw [state_of_hears (joinFits_of_wired w) held' hears] at fits
      exact absurd (owner_of_joining fits).symm mine
    · exact hears.heard kept n call listed

theorem handed_take (w : Wired s) (held : s.tasks o = some (.sending send))
    (idle : (s.outbox.slot send.work.kind).inFlight = false) (handed : Handed s) :
    Handed (s.take o send) := by
  rw [System.take, if_neg (by simp [idle])]
  intro task held'
  have before : ∃ task, s.tasks .detached = some task := by
    simp only [System.setTask_tasks] at held'
    split_ifs at held' with mine
    · exact ⟨_, mine ▸ held⟩
    · exact ⟨task, held'⟩
  obtain ⟨task, before⟩ := before
  obtain ⟨notJoined, all⟩ := handed task before
  refine ⟨notJoined, fun n call listed content => ?_⟩
  simp only [System.setTask] at listed
  split_ifs at listed with new
  · cases listed
    have fits := (w.registered held).fits
    rw [notJoined] at fits
    rw [not_publishes_of_notJoined fits] at content
    cases content
  · exact all n call listed content

/-- An answer the join does not wait for says nothing of its attempts. -/
theorem joining_recordAnswer {n : ℕ} {call : HostCall} {result : Except CommandError String}
    (listed : s.calls n = some call) (unanswered : call.answer = none)
    (away : ∀ send giveUpAt, s.tasks .join = some (.sending send) →
      send.phase ≠ .calling n giveUpAt) (joining : Joining b s) :
    Joining b (s.recordAnswer n call result) := by
  intro task held
  obtain ⟨send, rfl, hears⟩ := joining task held
  refine ⟨send, rfl, hears.mine, hears.current, fun kept k call' listed' content => ?_⟩
  simp only [System.recordAnswer] at listed'
  split_ifs at listed' with same
  · subst same
    cases listed'
    obtain failed_ | ⟨giveUpAt, calling⟩ := hears.heard kept k call listed content
    · simp [failed, unanswered] at failed_
    · exact absurd calling (away send giveUpAt held)
  · exact hears.heard kept k call' listed' content

theorem handed_recordAnswer {n : ℕ} {call : HostCall} {result : Except CommandError String}
    (listed : s.calls n = some call) (unanswered : call.answer = none) (handed : Handed s) :
    Handed (s.recordAnswer n call result) := by
  intro task held
  obtain ⟨notJoined, all⟩ := handed task held
  refine ⟨notJoined, fun k call' listed' content => ?_⟩
  simp only [System.recordAnswer] at listed'
  split_ifs at listed' with same
  · subst same
    cases listed'
    have before := all k call listed content
    simp [failed, unanswered] at before
  · exact all k call' listed' content

/-- Nobody but the join ends the join's attempts. -/
theorem kept_endAttempt {outcome : AttemptOutcome} (placed : JoinFits s) (other : o ≠ .join)
    (fits : WorkFits o s.machine.state send.work) (held : s.tasks o = some (.sending send))
    (joining : Joining b s) (handed : Handed s) :
    Joining b (s.endAttempt o send outcome) ∧ Handed (s.endAttempt o send outcome) := by
  have there : o = .detached → (s.tasks .detached).isSome = true := by
    rintro rfl
    simp [held]
  have released : Joining b (s.release send.work.kind) := aside_release.joining joining
  have settled : ∀ result, Joining b ((s.release send.work.kind).settleSend o send result) ∧
      Handed ((s.release send.work.kind).settleSend o send result) := by
    intro result
    constructor
    · exact joining_resume (s := s.release send.work.kind) placed (runs_settle fits) other released
    · exact handed_resume (s := s.release send.work.kind) (runs_settle fits) other there handed
  unfold System.endAttempt
  dsimp only
  split
  · exact settled _
  · split
    · exact settled _
    · constructor
      · intro task held'
        rw [System.setTask_tasks, if_neg other.symm] at held'
        obtain ⟨send', same, hears⟩ := released task held'
        exact ⟨send', same, hears.mine, hears.current, hears.heard⟩
      · intro task held'
        have before : ∃ task, s.tasks .detached = some task := by
          simp only [System.setTask_tasks] at held'
          split_ifs at held' with mine
          · exact ⟨_, mine ▸ held⟩
          · exact ⟨task, held'⟩
        obtain ⟨task, before⟩ := before
        exact handed task before

/-- The join goes on from a result: to its membership, to its end, or to hand its delayed
leave over. -/
theorem joining_settleSend {result : Except SendFailure String} (mine : ofJoin send.work = true)
    (idle : s.tasks .detached = none)
    (all : b = false → (publishesJoin send.work.request = true →
      ∀ value, result ≠ .ok value) → AllFailed s)
    (answered : publishesJoin send.work.request = true → s.machine.keepAliveInfo.isSome = true →
      ∀ failure, result = .error failure → b = false) :
    Joining b (s.settleSend .join send result) ∧ Handed (s.settleSend .join send result) := by
  have calls : (s.settleSend .join send result).calls = s.calls :=
    congrArg Prod.fst System.resume_host
  cases work : send.work with
  | joinArm content deadline =>
      have failed := fun kept => all kept fun publishes => by
        rw [work] at publishes
        cases publishes
      have none_ : (settle s.machine s.outbox s.now send.work result).spawned = none := by
        rw [work]
        rfl
      constructor
      · intro task held
        rw [System.settleSend, System.resume_tasks none_, if_pos rfl, work] at held
        cases held
        refine ⟨_, rfl, rfl, ?_, fun kept n call listed content => .inl ?_⟩
        · rw [System.settleSend, System.resume_outbox, work]
          exact Slot.ended_eq_none.mpr rfl
        · exact failed kept n call (calls ▸ listed) content
      · intro task held
        rw [System.settleSend, System.resume_tasks none_, if_neg (by decide), idle] at held
        cases held
  | join content =>
      have ends : (s.settleSend .join send result).tasks .join = none := by
        rw [System.settleSend, work]
        cases result <;> simp [System.resume, settle, afterJoin, finished]
        cases s.machine.keepAliveInfo <;> simp
      refine ⟨fun task held => absurd (ends.symm.trans held) (by simp), fun task held => ?_⟩
      cases result with
      | ok eventId =>
          rw [System.settleSend, work, System.resume_tasks rfl, if_neg (by decide), idle] at held
          cases held
      | error failure =>
          cases armed : s.machine.keepAliveInfo with
          | none =>
              rw [System.settleSend, work,
                System.resume_tasks (by simp [settle, afterJoin, armed]), if_neg (by decide),
                idle] at held
              cases held
          | some info =>
              have kept := answered (by rw [work]; rfl) (by simp [armed]) failure rfl
              refine ⟨by simp [System.settleSend, work, settle, afterJoin], ?_⟩
              intro n call listed
              exact all kept (fun _ value => by simp) n call (calls ▸ listed)
  | restart | armIfDue | rearm | republishRearmed | republish | refresh | leave | cancel
  | cancelArmed => simp [work, ofJoin] at mine

theorem joining_endAttempt {outcome : AttemptOutcome} (mine : ofJoin send.work = true)
    (current : (s.outbox.slot send.work.kind).ended send.generation = none)
    (idle : s.tasks .detached = none)
    (all : b = false → (publishesJoin send.work.request = true →
      ∀ value, outcome ≠ .answered (.ok value)) → AllFailed s)
    (answered : publishesJoin send.work.request = true → s.machine.keepAliveInfo.isSome = true →
      ∀ failure, judge send.policy send.backoff s.now send.last outcome = .done (.error failure) →
        b = false) :
    Joining b (s.endAttempt .join send outcome) ∧ Handed (s.endAttempt .join send outcome) := by
  have ended : ((s.release send.work.kind).outbox.slot send.work.kind).ended send.generation =
      none := release_ended.trans current
  have now : (s.release send.work.kind).now = s.now := rfl
  unfold System.endAttempt
  dsimp only
  rw [ended, now]
  cases judged : judge send.policy send.backoff s.now send.last outcome with
  | done result =>
      refine joining_settleSend (s := s.release send.work.kind) mine idle (fun kept failed => ?_)
        fun publishes armed failure failed => ?_
      · refine all kept fun publishes value landed => ?_
        subst landed
        cases judged
        exact failed publishes value rfl
      · subst failed
        exact answered publishes armed failure judged
  | retry delay last =>
      have unlanded : ∀ value, outcome ≠ .answered (.ok value) := by
        rintro value rfl
        cases judged
      constructor
      · intro task held
        rw [System.setTask_tasks, if_pos rfl] at held
        cases held
        exact ⟨_, rfl, mine, ended, fun kept n call listed content =>
          .inl (all kept (fun _ => unlanded) n call listed content)⟩
      · intro task held
        rw [System.setTask_tasks, if_neg (by decide)] at held
        cases idle.symm.trans held

/-- A send moves between phases away from the host. -/
theorem kept_moved {phase : Phase} (held : s.tasks o = some (.sending send))
    (away : ∀ n giveUpAt, send.phase ≠ .calling n giveUpAt) (joining : Joining b s)
    (handed : Handed s) :
    Joining b (s.setTask o (some (.sending { send with phase := phase }))) ∧
      Handed (s.setTask o (some (.sending { send with phase := phase }))) := by
  constructor
  · intro task held'
    rw [System.setTask_tasks] at held'
    split_ifs at held' with mine
    · subst mine
      cases held'
      obtain ⟨_, same, hears⟩ := joining _ held
      cases same
      refine ⟨_, rfl, hears.mine, hears.current, fun kept n call listed content => .inl ?_⟩
      obtain failed | ⟨giveUpAt, calling⟩ := hears.heard kept n call listed content
      · exact failed
      · exact absurd calling (away n giveUpAt)
    · obtain ⟨send', same, hears⟩ := joining task held'
      exact ⟨send', same, hears.mine, hears.current, hears.heard⟩
  · intro task held'
    rw [System.setTask_tasks] at held'
    split_ifs at held' with mine
    · exact handed _ (mine ▸ held)
    · exact handed task held'

end

/-- A join that failed with its delayed leave armed failed with every attempt answered. -/
structure Inv (h : JoinRun) : Prop where
  wired : Wired h.base
  policies : Policies h.base
  joining : Joining h.abandoned h.base
  handed : Handed h.base
  due : h.undue = false

section Run
variable {h : JoinRun} {t : System} {o : Owner}

theorem not_handed (inv : Inv h) {send : Send} (held : h.base.tasks .join = some (.sending send))
    (mine : ofJoin send.work = true) : h.base.tasks .detached = none := by
  have state := (fits_ofJoin (inv.wired.registered held).fits mine).2
  cases detached : h.base.tasks .detached with
  | none => rfl
  | some task =>
      have notJoined := (inv.handed task detached).1
      rw [state] at notJoined
      cases notJoined

theorem publishSend_eq {s : System} {send : Send} (held : s.tasks .join = some (.sending send))
    (publishes : publishesJoin send.work.request = true) : publishSend s = some send := by
  simp [publishSend, held, publishes]

theorem policy_of_publishes (inv : Inv h) {send : Send}
    (held : h.base.tasks .join = some (.sending send)) (mine : ofJoin send.work = true)
    (publishes : publishesJoin send.work.request = true) :
    ∃ deadline, send.policy = SendPolicy.new.until deadline := by
  have fits := inv.policies .join send held
  cases work : send.work <;> simp only [work, ofJoin, publishesJoin, Work.request,
    reduceCtorEq] at mine publishes
  simpa [work, PolicyFits] using fits

/-- A send that is retried until its deadline fails there, or is refused. -/
theorem failure_of_retried {policy : SendPolicy} {backoff now : ℕ} {last : Option CommandError}
    {outcome : AttemptOutcome} {failure : SendFailure}
    (retried : ∃ deadline, policy = SendPolicy.new.until deadline)
    (judged : judge policy backoff now last outcome = .done (.error failure)) :
    (outcome = .elapsed ∧ policy.overdue now = true) ∨
      ∃ error, outcome = .answered (.error error) ∧ error.isPermanent = true := by
  obtain ⟨deadline, same⟩ := retried
  cases outcome with
  | elapsed =>
      by_cases overdue : policy.overdue now = true
      · exact .inl ⟨rfl, overdue⟩
      · have tries : policy.retryTimedOut = true := by rw [same]; rfl
        simp [judge, overdue, tries] at judged
  | answered result =>
      cases result with
      | ok value => simp [judge] at judged
      | error error =>
          by_cases permanent : error.isPermanent = true
          · exact .inr ⟨error, rfl, permanent⟩
          · have more : policy.singleAttempt = false := by rw [same]; rfl
            simp [judge, permanent, more] at judged

theorem kept_taskStep {event : TaskEvent} (inv : Inv h) (ok : Answered h (.task o event))
    (step : System.TaskStep h.base o event t) :
    Joining (h.abandoned || abandons h.base (.task o event)) t ∧ Handed t := by
  have weaken : Joining h.abandoned t ∧ Handed t →
      Joining (h.abandoned || abandons h.base (.task o event)) t ∧ Handed t :=
    And.imp_left Joining.weaken
  have fits := joinFits_of_wired inv.wired
  cases step with
  | polled operation held =>
      have other : o ≠ .join := by
        rintro rfl
        obtain ⟨send, same, -⟩ := inv.joining _ held
        cases same
      have runs := @runs_startOperation _ _ h.base.outbox h.base.now _
        (inv.wired.placed o _ held)
      exact weaken ⟨joining_resume fits runs other inv.joining,
        handed_resume runs other (by rintro rfl; simp [held]) inv.handed⟩
  | waited wakeAt held =>
      have other : o ≠ .join := by
        rintro rfl
        obtain ⟨send, same, -⟩ := inv.joining _ held
        cases same
      exact weaken ⟨joining_resume fits runs_recoverNow other inv.joining,
        handed_resume runs_recoverNow other (by rintro rfl; simp [held]) inv.handed⟩
  | moved event send phase held away after =>
      exact weaken (kept_moved held away inv.joining inv.handed)
  | failed event send failure held away reason =>
      refine weaken ?_
      by_cases other : o = .join
      · subst other
        obtain ⟨_, same, hears⟩ := inv.joining _ held
        cases same
        -- the send is current, so it is out of time
        obtain ended | ⟨rfl, -, overdue⟩ := reason
        · cases hears.current.symm.trans ended
        refine joining_settleSend hears.mine (not_handed inv held hears.mine)
          (fun kept _ n call listed content => ?_) fun publishes armed _ _ => ?_
        · obtain failed | ⟨giveUpAt, calling⟩ := hears.heard kept n call listed content
          · exact failed
          · exact absurd calling (away n giveUpAt)
        · rw [← Bool.not_eq_true]
          intro abandoned
          exact ok ⟨armed, by simp [unanswered, abandoned, publishSend_eq held publishes, overdue]⟩
      · have runs := @runs_settle _ _ h.base.outbox h.base.now _ (.error failure)
          (inv.wired.registered held).fits
        exact ⟨joining_resume fits runs other inv.joining,
          handed_resume runs other (by rintro rfl; simp [held]) inv.handed⟩
  | started send held checked idle =>
      exact weaken ⟨joining_take inv.wired held checked idle inv.joining,
        handed_take inv.wired held idle inv.handed⟩
  | timedOut send n giveUpAt held calling late =>
      by_cases other : o = .join
      · subst other
        obtain ⟨_, same, hears⟩ := inv.joining _ held
        cases same
        have gave : publishesJoin send.work.request = true →
            abandons h.base (.task .join .timeOut) = true := by
          intro publishes
          simp [abandons, publishSend_eq held publishes]
        refine joining_endAttempt hears.mine hears.current (not_handed inv held hears.mine)
          (fun kept _ k call listed content => ?_) fun publishes armed failure judged => ?_
        · rw [Bool.or_eq_false_iff] at kept
          obtain failed | ⟨giveUpAt', calling'⟩ := hears.heard kept.1 k call listed content
          · exact failed
          · -- the attempt is an arm's, since a publish would be given up here
            obtain ⟨-, call', listed', -, -, request, -⟩ :=
              (inv.wired.placed .join _ held).flight k giveUpAt' calling'
            cases listed.symm.trans listed'
            rw [request] at content
            cases kept.2.symm.trans (gave content)
        · obtain ⟨-, overdue⟩ | ⟨error, answered, -⟩ :=
            failure_of_retried (policy_of_publishes inv held hears.mine publishes) judged
          · exact absurd ⟨armed, by simp [unanswered, publishSend_eq held publishes, overdue]⟩ ok
          · cases answered
      · exact weaken (kept_endAttempt fits other (inv.wired.registered held).fits held inv.joining
          inv.handed)

theorem kept_answer {n : ℕ} {call : HostCall} {result : Except CommandError String}
    (inv : Inv h) (ok : Answered h (.answer n result)) (listed : h.base.calls n = some call)
    (unanswered_ : call.answer = none) :
    Joining h.abandoned (h.base.answer n call result) ∧ Handed (h.base.answer n call result) := by
  have step := h.base.answerStep n call result
  generalize h.base.answer n call result = t at step ⊢
  have handed := @handed_recordAnswer _ n call result listed unanswered_ inv.handed
  -- the join waits for this call only if it made it
  have caller : ∀ send giveUpAt, h.base.tasks .join = some (.sending send) →
      send.phase = .calling n giveUpAt → call.caller = .join := by
    intro send giveUpAt held calling
    obtain ⟨-, call', listed', made, -⟩ := (inv.wired.placed .join _ held).flight n giveUpAt calling
    cases listed.symm.trans listed'
    exact made
  cases step with
  | unheard away =>
      refine ⟨joining_recordAnswer listed unanswered_ (fun send giveUpAt held calling => ?_)
        inv.joining, handed⟩
      exact away send giveUpAt ((caller send giveUpAt held calling).symm ▸ held) calling
  | heard send giveUpAt held calling =>
      by_cases other : call.caller = .join
      · rw [other] at held ⊢
        obtain ⟨_, same, hears⟩ := inv.joining _ held
        cases same
        have request : call.request = send.work.request := by
          obtain ⟨-, call', listed', -, -, request, -⟩ :=
            (inv.wired.placed .join _ held).flight n giveUpAt calling
          cases listed.symm.trans listed'
          exact request
        refine joining_endAttempt (s := h.base.recordAnswer n call result) hears.mine hears.current
          (not_handed inv held hears.mine) (fun kept unlanded k call' listed' content => ?_)
          fun publishes armed failure judged => ?_
        · simp only [System.recordAnswer] at listed'
          split_ifs at listed' with same
          · cases listed'
            cases result with
            | ok value => exact absurd rfl (unlanded (request ▸ content) value)
            | error error => rfl
          · obtain failed | ⟨giveUpAt', calling'⟩ := hears.heard kept k call' listed' content
            · exact failed
            · cases calling.symm.trans calling'
              exact absurd rfl same
        · obtain ⟨elapsed, -⟩ | ⟨error, answered, permanent⟩ :=
            failure_of_retried (policy_of_publishes inv held hears.mine publishes) judged
          · cases elapsed
          · cases answered
            rw [← Bool.not_eq_true]
            intro abandoned
            exact ok ⟨armed, by
              simp [unanswered, abandoned, permanent, publishSend_eq held publishes, calling]⟩
      · have recorded := @joining_recordAnswer _ _ n call result listed unanswered_
          (fun send giveUpAt held calling => absurd (caller send giveUpAt held calling) other)
          inv.joining
        exact kept_endAttempt (s := h.base.recordAnswer n call result)
          (fun send held => (inv.wired.registered held).fits) other
          (inv.wired.registered held).fits held recorded handed

theorem vacant (inv : Inv h)
    (landed : h.base.machine.state = .joined ∨ h.base.machine.state = .leaving) :
    h.base.tasks .join = none ∧ h.base.tasks .detached = none := by
  constructor
  · cases held : h.base.tasks .join with
    | none => rfl
    | some task =>
        obtain ⟨send, rfl, hears⟩ := inv.joining task held
        have joining := state_of_hears (joinFits_of_wired inv.wired) held hears
        simp [joining] at landed
  · cases held : h.base.tasks .detached with
    | none => rfl
    | some task =>
        have notJoined := (inv.handed task held).1
        simp [notJoined] at landed

theorem kept_of_vacant {b : Bool} (join : t.tasks .join = none)
    (detached : t.tasks .detached = none) :
    Joining b t ∧ Handed t :=
  ⟨fun _ held => absurd (join.symm.trans held) (by simp),
    fun _ held => absurd (detached.symm.trans held) (by simp)⟩

theorem kept_step {a : Action} (inv : Inv h) (ok : Answered h a)
    (stepped : h.base.step a = some t) :
    Joining (h.abandoned || abandons h.base a) t ∧ Handed t := by
  have aside : Aside h.base t → Joining (h.abandoned || abandons h.base a) t ∧ Handed t :=
    fun aside => ⟨(aside.joining inv.joining).weaken, aside.handed inv.handed⟩
  have touched : ∀ m : OwnMembershipMachine, m.state = h.base.machine.state →
      Aside h.base { h.base with machine := m } := fun m same =>
    ⟨rfl, .inl rfl, rfl, fun _ _ => rfl, same.trans⟩
  cases System.actionStep stepped with
  | tick | spawnUpkeep => exact aside ⟨rfl, .inl rfl, rfl, fun _ _ => rfl, id⟩
  | lapseCheck => exact aside (touched _ rfl)
  | online => exact aside ⟨rfl, .inl rfl, rfl, fun kind _ => by cases kind <;> rfl, id⟩
  | beat => exact aside aside_beat
  | recovered => exact aside (aside_startIfIdle (by decide) (by decide))
  | wakeDeparture =>
      have told := touched { h.base.machine with departed := false } rfl
      exact aside (told.trans (aside_startIfIdle (by decide) (by decide)))
  | wakeRepublish =>
      have told := touched { h.base.machine with republishRequested := false } rfl
      exact aside (told.trans (aside_startIfIdle (by decide) (by decide)))
  | task o event t step => exact kept_taskStep inv ok step
  | answer n call result listed unanswered_ =>
      exact (kept_answer inv ok listed unanswered_).imp_left Joining.weaken
  | ownDeparture reason =>
      obtain ⟨departed, same⟩ := h.base.machine.onOwnDeparture_flags reason
      exact aside (touched _ (by rw [same]))
  | catchUp own =>
      obtain ⟨awaiting, requested, same⟩ := h.base.machine.onCatchUp_flags own
      exact aside (touched _ (by rw [same]))
  | moveTransports n transport idle =>
      exact ⟨(joining_resume (joinFits_of_wired inv.wired) runs_republishTransports (by simp)
        inv.joining).weaken, handed_resume runs_republishTransports (by simp) (by simp) inv.handed⟩
  | beginLeave joined =>
      obtain ⟨join, detached⟩ := vacant inv (.inl joined)
      exact kept_of_vacant join detached
  | leave reason begun idle =>
      obtain ⟨join, detached⟩ := vacant inv begun
      refine kept_of_vacant ?_ ?_
      · exact (System.resume_tasks_other (by decide) (by decide)).trans join
      · rw [System.resume_tasks rfl, if_neg (by decide), detached]
  | dropFuture o own attached => exact aside (aside_drop attached)
  | abortUpkeep => exact aside aside_stopUpkeep

/-- The cancellation a failed join left to do is called only with every attempt answered. -/
theorem due_step {a : Action} (inv : Inv h) (stepped : h.base.step a = some t) :
    (h.record a t).undue = false := by
  simp only [JoinRun.record, inv.due, Bool.false_or, Bool.and_eq_false_imp]
  intro cancels
  cases started : startedCall h.base t with
  | none => simp [started] at cancels
  | some call =>
      obtain ⟨o, send, rfl, held, checked, idle, rfl⟩ := startedCall_take stepped started
      have own : o = .detached := by
        simp only [started, Option.any_some, cancelsFailed] at cancels
        split at cancels
        · exact of_decide_eq_true cancels
        · cases cancels
      subst own
      rw [Bool.not_eq_false', allFailed_iff inv.wired]
      exact (inv.handed _ held).2

theorem inv_step {h' : JoinRun} {a : Action} (inv : Inv h) (ok : Answered h a)
    (hstep : h.step a = some h') : Inv h' := by
  obtain ⟨t, stepped, rfl⟩ := Option.map_eq_some_iff.mp hstep
  obtain ⟨joining, handed⟩ := kept_step inv ok stepped
  exact ⟨wired_step inv.wired stepped, policies_step inv.policies stepped, joining, handed,
    due_step inv stepped⟩

end Run

theorem inv_start (timings : MembershipTimings) (transports : MemberTransports) (deadline : ℕ)
    (now : UInt64) : Inv (.start timings transports deadline now) where
  wired := wired_start timings transports deadline now
  policies := policies_start timings transports deadline now
  joining task held := by
    cases held
    exact ⟨_, rfl, rfl, rfl, fun _ n call listed => by cases listed⟩
  handed task held := by cases held
  due := rfl

/-- A failed join cancels its delayed leave only with every attempt answered with a
failure, in a run where it does not fail with an attempt that was given up. -/
theorem cancelled_only_when_answered (timings : MembershipTimings) (transports : MemberTransports)
    (deadline : ℕ) (now : UInt64) (trace : List Action) (h : JoinRun)
    (reach : run JoinRun.step (.start timings transports deadline now) trace = some h)
    (ok : Admissible JoinRun.step Answered (.start timings transports deadline now) trace) :
    h.undue = false :=
  (run_invariant (fun _ _ _ inv ok hstep => inv_step inv ok hstep)
    (inv_start timings transports deadline now) ok reach).due

section Runs

/-- The delayed leave is armed, and the membership is at the host. -/
def publishAtHost : List Action :=
  attempt .join ++ [.answer 0 (.ok "delay")] ++ attempt .join

/-- The failed join's cancellation is polled and goes to the host. -/
def cancelCalled : List Action := .task .detached .poll :: attempt .detached

def forbidden : CommandError := .backend (.withMatrixError (some "M_FORBIDDEN") (some 403) "")

/-- The membership is refused, and the delayed leave is cancelled. -/
theorem refused_then_cancelled :
    ∃ h ∈ run JoinRun.step (.start timings transports 60000 0)
      (publishAtHost ++ .answer 1 (.error forbidden) :: cancelCalled),
      h.base.nextCall = 3 ∧ h.undue = false := by
  have reached : ∃ h ∈ run JoinRun.step (.start timings transports 60000 0)
      (publishAtHost ++ .answer 1 (.error forbidden) :: cancelCalled),
      h.base.nextCall = 3 := by decide
  obtain ⟨h, reach, called⟩ := reached
  exact ⟨h, reach, called, cancelled_only_when_answered timings transports 60000 0 _ h reach
    (by decide)⟩

/-- The budget runs out with the membership at the host, which may still land it: its
delayed leave is cancelled all the same. -/
theorem cancelled_under_a_landing_publish :
    ∃ h ∈ run JoinRun.step (.start timings transports 20000 0)
      (publishAtHost ++ .tick 20000 :: .task .join .timeOut :: cancelCalled),
      h.undue = true := by decide

end Runs

end MatrixRtc.FailedJoins

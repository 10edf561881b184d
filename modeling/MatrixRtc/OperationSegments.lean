import MatrixRtc.MembershipUpkeep
import Mathlib.Order.Nat

/-!
# What a segment of an operation can do

One description covers the code an operation runs between two suspensions: how it may
move the machine's state, and whether it ends the operation, waits or registers a
send, and which sends it may register. Each operation's segments are shown to follow
it. What they do to the delayed leave's record and to the lapse flag is described
where it is used.
-/
namespace MatrixRtc.OperationSegments
open HostAnswers MemberEvents Outboxes OwnMembership MembershipUpkeep

/-- A send registered only while joined. -/
def ofJoined : Work → Bool
  | .restart .. | .armIfDue | .rearm | .republishRearmed _ | .republish _ | .refresh _ => true
  | .joinArm .. | .join _ | .leave _ | .cancel _ | .cancelArmed _ => false

/-- A send of the join itself, the only kind with a deadline. -/
def ofJoin : Work → Bool
  | .joinArm .. | .join _ => true
  | _ => false

/-- Whose send it can be, and in which state of the machine. -/
def WorkFits (o : Owner) (state : OwnMembershipState) : Work → Prop
  | .joinArm .. | .join _ => o = .join ∧ state = .joining
  | .leave _ | .cancel _ => o = .leave ∧ (state = .leaving ∨ state = .left)
  | .cancelArmed _ => o = .detached ∧ state = .notJoined
  | .restart .. | .armIfDue | .rearm | .republishRearmed _ | .republish _ | .refresh _ =>
      state = .joined ∨ state = .leaving ∨ state = .left

/-- How a segment of `o` may move the machine's state. -/
inductive Advance (o : Owner) : OwnMembershipState → OwnMembershipState → Prop
  | same (state : OwnMembershipState) : Advance o state state
  | joined (own : o = .join) : Advance o .joining .joined
  | failed (own : o = .join) : Advance o .joining .notJoined
  | left : Advance o .leaving .left

/-- How a segment of `o` may end: with the operation, waiting out a jitter, or with a
send registered. -/
inductive Next (o : Owner) (m : OwnMembershipMachine) (ob : Outbox) : Option Task → Outbox → Prop
  | ended : Next o m ob none ob
  | jitter (wakeAt : ℕ) : Next o m ob (some (.jitter wakeAt)) ob
  | sends (work : Work) (policy : SendPolicy) (fits : WorkFits o m.state work)
      (joined : ofJoined work = true → m.state = .joined)
      (timed : policy.deadline.isSome = true → ofJoin work = true) :
      Next o m ob (startSend m ob work policy).task (startSend m ob work policy).outbox

/-- What a segment that `o` runs from a machine and its slots leaves behind. -/
structure Runs (o : Owner) (m : OwnMembershipMachine) (ob : Outbox) (g : Segment) : Prop where
  advance : Advance o m.state g.machine.state
  next : Next o g.machine ob g.task g.outbox
  spawned : g.spawned.isSome → m.state = .joining ∧ g.machine.state = .notJoined

section
variable {o : Owner} {m m' : OwnMembershipMachine} {ob : Outbox} {now : ℕ}

theorem runs_finished (same : m'.state = m.state) : Runs o m ob (finished m' ob) :=
  ⟨by rw [finished, same]; exact .same _, .ended, by simp [finished]⟩

theorem runs_startSend {work : Work} {policy : SendPolicy} (advance : Advance o m.state m'.state)
    (fits : WorkFits o m'.state work) (joined : ofJoined work = true → m'.state = .joined)
    (timed : policy.deadline.isSome = true → ofJoin work = true) :
    Runs o m ob (startSend m' ob work policy) :=
  ⟨advance, .sends work policy fits joined timed, by simp [startSend]⟩

theorem runs_startIfJoined {work : Work} {policy : SendPolicy} (same : m'.state = m.state)
    (mine : ofJoined work = true) (untimed : policy.deadline = none) :
    Runs o m ob (startIfJoined m' ob work policy) := by
  unfold startIfJoined
  split_ifs with joined
  · refine runs_startSend (by rw [same]; exact .same _) ?_ (fun _ => joined) (by simp [untimed])
    cases work <;> first | exact Or.inl joined | cases mine
  · exact runs_finished (by simpa using same)

theorem runs_republish {rearmed : Bool} (same : m'.state = m.state) :
    Runs o m ob (republish m' ob rearmed) := by
  unfold republish
  cases m'.lastSticky with
  | none => exact runs_finished (by cases rearmed <;> simpa using same)
  | some sticky => exact runs_startIfJoined same (by cases rearmed <;> rfl) rfl

theorem runs_armIfDue (same : m'.state = m.state) : Runs o m ob (armIfDue m' ob now) := by
  unfold armIfDue
  split_ifs
  · exact runs_finished same
  · exact runs_startIfJoined same rfl rfl

theorem runs_rearmAndRepublish (same : m'.state = m.state) :
    Runs o m ob (rearmAndRepublish m' ob) := by
  unfold rearmAndRepublish
  split_ifs
  · exact runs_finished same
  · exact runs_startIfJoined same rfl rfl

theorem runs_restart {clockFallback : Bool} {next : After} (same : m'.state = m.state) :
    Runs o m ob (restart m' ob now clockFallback next) := by
  unfold restart
  cases m'.keepAliveInfo with
  | none => exact runs_armIfDue same
  | some info =>
      dsimp only
      split_ifs
      · exact runs_rearmAndRepublish same
      · exact runs_startIfJoined same rfl rfl

theorem runs_refreshIfDue : Runs o m ob (refreshIfDue m ob now) := by
  unfold refreshIfDue
  cases m.lastSticky with
  | none => exact runs_finished rfl
  | some sticky =>
      dsimp only
      split_ifs
      · exact runs_finished rfl
      · exact runs_startIfJoined rfl rfl rfl

theorem runs_recoverNow : Runs o m ob (recoverNow m ob now) := by
  unfold recoverNow
  split_ifs
  · exact runs_finished rfl
  · exact runs_restart rfl
  · exact runs_finished rfl

theorem runs_recoverDeparture : Runs o m ob (recoverDeparture m ob now) := by
  unfold recoverDeparture
  split_ifs
  · exact runs_finished rfl
  · exact runs_restart rfl
  · exact runs_republish rfl

theorem runs_republishTransports {transport : RawRtcTransport} :
    Runs o m ob (republishTransports m ob transport) := by
  unfold republishTransports
  cases m.lastSticky with
  | none => exact runs_finished rfl
  | some sticky =>
      dsimp only
      split_ifs
      · exact runs_finished rfl
      · exact runs_republish rfl

/-- An operation whose send would have to be the failed join's cancellation. -/
def OperationFits (o : Owner) (state : OwnMembershipState) : Operation → Prop
  | .cancelArmed _ => o = .detached ∧ state = .notJoined
  | .restart .. | .refresh | .recover _ | .recoverDeparture | .republish => True

theorem runs_startOperation {operation : Operation} (fits : OperationFits o m.state operation) :
    Runs o m ob (startOperation m ob now operation) := by
  cases operation with
  | restart clockFallback next => exact runs_restart rfl
  | refresh => exact runs_refreshIfDue
  | recover jitter => exact ⟨.same _, .jitter _, by simp [startOperation]⟩
  | recoverDeparture => exact runs_recoverDeparture
  | republish => exact runs_republish rfl
  | cancelArmed id =>
      exact runs_startSend (.same _) fits (by simp [ofJoined]) (by simp [SendPolicy.single])

theorem runs_afterRestart {next : After} (same : m'.state = m.state) :
    Runs o m ob (afterRestart m' ob next) := by
  cases next with
  | nothing => exact runs_finished same
  | catchUp => exact runs_finished same
  | republish => exact runs_republish same

theorem runs_afterRearm {result : Except SendFailure String} :
    Runs o m ob (afterRearm m ob now result) := by
  cases result with
  | ok id => exact runs_republish rfl
  | error failure =>
      cases failure <;> first | exact runs_republish rfl | exact runs_finished rfl

theorem runs_afterJoin {content : MemberTransports} {result : Except SendFailure String}
    (own : o = .join) (joining : m.state = .joining) :
    Runs o m ob (afterJoin m ob now content result) := by
  cases result with
  | ok eventId => exact ⟨by rw [joining]; exact .joined own, .ended, by simp [afterJoin, finished]⟩
  | error failure =>
      exact ⟨by rw [joining]; exact .failed own, .ended, fun _ => ⟨joining, rfl⟩⟩

theorem runs_afterLeave {result : Except SendFailure String} (own : o = .leave)
    (leaving : m.state = .leaving ∨ m.state = .left) : Runs o m ob (afterLeave m ob result) := by
  cases result with
  | error failure => exact runs_finished rfl
  | ok eventId =>
      unfold afterLeave
      dsimp only
      cases m.keepAliveInfo with
      | some info =>
          exact runs_startSend (.same _) ⟨own, leaving⟩ (by simp [ofJoined])
            (by simp [SendPolicy.single])
      | none =>
          refine ⟨?_, .ended, by simp [finished]⟩
          obtain h | h := leaving <;> rw [h]
          · exact .left
          · exact .same _

/-- The result of a send moves its operation on as the description says. -/
theorem runs_settle {work : Work} {result : Except SendFailure String}
    (fits : WorkFits o m.state work) : Runs o m ob (settle m ob now work result) := by
  cases work with
  | restart info next =>
      cases result with
      | ok value => exact runs_afterRestart rfl
      | error failure =>
          cases failure with
          | refused error =>
              simp only [settle]
              split_ifs
              · exact runs_rearmAndRepublish rfl
              · exact runs_finished rfl
          | superseded | cancelled | deadlineElapsed | timedOut | failed => exact runs_finished rfl
  | armIfDue =>
      cases result with
      | ok id => exact runs_finished rfl
      | error failure => cases failure <;> exact runs_finished rfl
  | rearm => exact runs_afterRearm
  | republishRearmed content | republish content | refresh content =>
      cases result <;> exact runs_finished rfl
  | joinArm content deadline =>
      obtain ⟨own, joining⟩ := fits
      cases result with
      | ok id => exact runs_startSend (.same _) ⟨own, joining⟩ (by simp [ofJoined]) fun _ => rfl
      | error failure =>
          exact runs_startSend (.same _) ⟨own, joining⟩ (by simp [ofJoined]) fun _ => rfl
  | join content => exact runs_afterJoin fits.1 fits.2
  | leave reason => exact runs_afterLeave fits.1 fits.2
  | cancel id =>
      refine ⟨?_, .ended, by simp [settle, finished]⟩
      obtain h | h := fits.2 <;> rw [h]
      · exact .left
      · exact .same _
  | cancelArmed id => exact runs_finished rfl

end

section
variable {o : Owner}

theorem Next.slots {m : OwnMembershipMachine} {ob ob' : Outbox} {task : Option Task}
    (next : Next o m ob task ob') (kind : SendKind) :
    ob'.slot kind = ob.slot kind ∨ ob'.slot kind = (ob.slot kind).register := by
  cases next with
  | ended | jitter => exact Or.inl rfl
  | sends work policy fits joined timed =>
      simp only [startSend, Outbox.beginSend]
      by_cases same : kind = work.kind
      · subst same
        exact Or.inr (Outbox.slot_update_self ..)
      · exact Or.inl (Outbox.slot_update_ne same)

theorem WorkFits.advance {o' : Owner} {before after : OwnMembershipState} {work : Work}
    (fits : WorkFits o' before work) (ne : o' ≠ o) (advance : Advance o before after) :
    WorkFits o' after work := by
  cases advance with
  | same => exact fits
  | joined own | failed own =>
      subst own
      cases work <;> simp_all [WorkFits]
  | left => cases work <;> simp_all [WorkFits]

theorem Advance.leaving {before after : OwnMembershipState} (advance : Advance o before after)
    (h : after = .leaving ∨ after = .left) : before = .leaving ∨ before = .left := by
  cases advance <;> simp_all

theorem Advance.notJoined {before after : OwnMembershipState} (advance : Advance o before after)
    (h : before = .notJoined) : after = .notJoined := by
  cases advance <;> simp_all

end

end MatrixRtc.OperationSegments

import MatrixRtc.SendOrigins
import MatrixRtc.CandidateKeys

/-!
# A leave of ours that was meant

The session tells the machine of a leave of our own participation, and the machine leaves
one alone that was meant. Nothing remembers that it was: the refresh falls due as before,
the next catch-up misses our membership, and what was about to be put back still is. The
session and the machine are run together here, with whether such a leave was shown, and
whether a join's content was sent or a republish asked for since.
-/
namespace MatrixRtc.MeantLeaves
open HostAnswers MemberEvents SlotSessions SessionOperations CandidateKeys Outboxes OwnMembership
open MembershipUpkeep OperationSegments UpkeepInvariants LeaveOrder SendOrigins StepRuns

/-- `is_own`. -/
def isOwn (s : SlotSession) (sender stickyKey : String) : Bool :=
  s.ownParticipation.any fun own => sender == own.userId && stickyKey == own.memberId

/-- Where `record_membership_event` finds that our own membership left, the reason. -/
def ownDeparted (s : SlotSession) : RtcMembershipEvent → Option (Option LeaveReason)
  | .joined _ => none
  | .left left =>
      let known := s.candidates.any (SlotSession.under (left.sender, left.stickyKey))
      if known && !s.holds left && isOwn s left.sender left.stickyKey then some left.leaveReason
      else none

/-- `own_departed` of a recorded event. -/
def told (s : SlotSession) (m : OwnMembershipMachine) (event : RtcMembershipEvent) :
    OwnMembershipMachine :=
  match ownDeparted s event with
  | some reason => m.onOwnDeparture reason
  | none => m

/-- One event of a complete set, which is recorded unless its leave is held. -/
def rebuildTold (previous : SlotSession) (now : ℕ) (at_ : SlotSession × OwnMembershipMachine)
    (event : RtcMembershipEvent) : SlotSession × OwnMembershipMachine :=
  (SlotSession.rebuild previous now at_.1 event,
    match SlotSession.heldCandidate previous at_.1 event with
    | some _ => at_.2
    | none => told at_.1 at_.2 event)

/-- The reason of our own leave in a complete set: the last one's. -/
def ownLeaveReason (s : SlotSession) (events : List RtcMembershipEvent) : Option LeaveReason :=
  events.foldl (fun reason event =>
    match event with
    | .left left => if isOwn s left.sender left.stickyKey then left.leaveReason else reason
    | .joined _ => reason) none

/-- Our own membership is among the candidates. -/
def inSet (s : SlotSession) : Bool := s.candidates.any fun c => isOwn s c.sender c.stickyKey

/-- What our sticky key holds in the candidates, while we participate. -/
def ownEntry (s : SlotSession) : Option OwnEntry :=
  s.ownParticipation.map fun own =>
    match s.candidates.find? (SlotSession.under (own.userId, own.memberId)) with
    | none => .absent
    | some c => .present c.membershipEventId

/-- The candidates of a complete set, with the machine as far as its leaves told it. -/
def rebuilt (s : SlotSession) (m : OwnMembershipMachine) (now : ℕ)
    (events : List RtcMembershipEvent) : SlotSession × OwnMembershipMachine :=
  events.foldl (rebuildTold s now) ({ s with candidates := [], held := [] }, m)

/-- The machine before it is told what the set holds of ours. -/
def departedBySet (s : SlotSession) (m : OwnMembershipMachine) (now : ℕ)
    (events : List RtcMembershipEvent) : OwnMembershipMachine :=
  let (session, m) := rebuilt s m now events
  if inSet s && !inSet session then m.onOwnDeparture (ownLeaveReason s events) else m

/-- What the catch-up of a complete set finds. -/
def caughtUp (s : SlotSession) (m : OwnMembershipMachine) (now : ℕ)
    (events : List RtcMembershipEvent) : Option OwnEntry :=
  ownEntry (rebuilt s m now events).1

/-- `set_current_state`, as far as the machine is told. -/
def toldBySet (s : SlotSession) (m : OwnMembershipMachine) (now : ℕ)
    (events : List RtcMembershipEvent) : OwnMembershipMachine :=
  let departed := departedBySet s m now events
  match caughtUp s m now events with
  | some own => departed.onCatchUp own
  | none => departed

/-- The session and the machine of one join, with what came of a leave that was meant. -/
structure Participation where
  own : OwnParticipation
  session : SlotSession
  system : System
  /-- a leave of our own participation that was meant was shown -/
  shown : Bool
  /-- a join's content was sent since -/
  resent : Bool
  /-- a catch-up asked for a republish since -/
  requested : Bool

inductive Action where
  | machine (a : MembershipUpkeep.Action)
  | completeSet (events : List RtcMembershipEvent)
  | update (event : RtcMembershipEvent)

/-- A leave of our own current participation whose reason is not our delayed leave. -/
def meant (s : SlotSession) : RtcMembershipEvent → Bool
  | .joined _ => false
  | .left left =>
      isOwn s left.sender left.stickyKey &&
        left.leaveReason.any fun reason => reason.code != .delayedLeave

/-- The catch-up asks for a republish. -/
def asks (m : OwnMembershipMachine) (own : Option OwnEntry) : Bool :=
  own.any fun entry =>
    ({ m with republishRequested := false }.onCatchUp entry).republishRequested

/-- The session stores the participation with the machine that joined, and gives it up
where a leave begins. -/
def sessionAfter (own : OwnParticipation) (s : SlotSession) : MembershipUpkeep.Action → SlotSession
  | .spawnUpkeep => s.join own true
  | .beginLeave | .leave _ => s.leave
  | _ => s

namespace Participation

def start (own : OwnParticipation) (session : SlotSession) (timings : MembershipTimings)
    (transports : MemberTransports) (deadline : ℕ) (now : UInt64) : Participation :=
  ⟨own, session, .start timings transports deadline now, false, false, false⟩

/-- A step of the machine that is not the session's to tell. -/
def machineStep (p : Participation) (a : MembershipUpkeep.Action) : Option Participation :=
  (p.system.step a).map fun t =>
    { p with
      session := sessionAfter p.own p.session a
      system := t
      resent := p.resent ||
        p.shown && (startedCall p.system t).any fun call => publishesJoin call.request }

def step (p : Participation) : Action → Option Participation
  | .machine (.ownDeparture _) | .machine (.catchUp _) => none
  | .machine a => p.machineStep a
  | .completeSet events =>
      let shown := p.shown || events.any (meant p.session)
      some { p with
        session := p.session.setCurrentState p.system.now events
        system := { p.system with
          machine := toldBySet p.session p.system.machine p.system.now events }
        shown := shown
        requested := p.requested || shown &&
          asks (departedBySet p.session p.system.machine p.system.now events)
            (caughtUp p.session p.system.machine p.system.now events) }
  | .update event =>
      some { p with
        session := SessionOperations.update p.session p.system.now event
        system := { p.system with machine := told p.session p.system.machine event }
        shown := p.shown || meant p.session event }

end Participation

/-- No join's content waits to be sent; what is at the host is not sent again. -/
def Settled (s : System) : Prop :=
  ∀ o send, s.tasks o = some (.sending send) → publishesJoin send.work.request = true →
    ∃ n giveUpAt, send.phase = .calling n giveUpAt

/-- The attempt that is over leads to no further publish: it is not a join's content to
be retried, and its operation does not go on to one. -/
def EndsQuietly (s : System) (o : Owner) (outcome : AttemptOutcome) : Prop :=
  match s.tasks o with
  | some (.sending send) =>
      (s.outbox.slot send.work.kind).ended send.generation = none →
        match judge send.policy send.backoff s.now send.last outcome with
        | .done result => ¬ GoesOn s.machine send.work result
        | .retry _ _ => publishesJoin send.work.request = false
  | _ => True

/-- The step puts no membership back: no operation starts or goes on that would publish. -/
def Quiet (s : System) : MembershipUpkeep.Action → Prop
  | .task o .poll =>
      match s.tasks o with
      | some (.created operation) => ¬ PutsBack s.machine s.now operation
      | _ => True
  | .task o .timeOut => EndsQuietly s o .elapsed
  | .answer n result =>
      match s.calls n with
      | some call => EndsQuietly s call.caller (.answered result)
      | none => True
  | .moveTransports _ _ =>
      ¬ (s.machine.state = .joined ∧
        s.machine.lastSticky.any (!·.content.published.isEmpty) = true)
  | _ => True

/-- The recovery's catch-up misses our membership in the set. -/
def Misses (m : OwnMembershipMachine) : Option OwnEntry → Prop
  | none => False
  | some own =>
      m.state = .joined ∧ m.awaitingCatchUp = true ∧
        match own with
        | .absent => True
        | .present (some eventId) => m.latestEventId ≠ some eventId
        | .present none => False

/-- Nothing is about to be put back when the leave is shown, and nothing comes to be
put back after it. -/
def LeftBe (p : Participation) : Action → Prop
  | .machine a => p.shown = true → Quiet p.system a
  | .completeSet events =>
      p.shown = true ∨ events.any (meant p.session) = true →
        (p.shown = true ∨ Settled p.system) ∧
          ¬ Misses p.system.machine
            (caughtUp p.session p.system.machine p.system.now events)
  | .update event =>
      p.shown = false → meant p.session event = true → Settled p.system

section Steps
variable {s t : System} {a : MembershipUpkeep.Action} {o : Owner} {send : Send}

theorem Quiet.attempt {outcome : AttemptOutcome} (quiet : Quiet s a) (w : Wired s)
    (attempted : Attempted s o a send outcome) : EndsQuietly s o outcome := by
  obtain ⟨n, giveUpAt, calling, made⟩ := attempted.made
  cases made with
  | elapsed => exact quiet
  | answered result =>
      obtain ⟨-, call, listed, caller, -⟩ := (w.placed o _ attempted.held).flight n giveUpAt calling
      simpa only [Quiet, listed, caller] using quiet

/-- An operation does not publish after a send that failed without being judged. -/
theorem not_goesOn_of_fails {failure : SendFailure} (w : Wired s) (policies : Policies s)
    (past : Past s.machine.state) (held : s.tasks o = some (.sending send))
    (fails : Fails s send failure) : ¬ GoesOn s.machine send.work (.error failure) := by
  have fits := (w.registered held).fits
  have policy := policies o send held
  generalize work : send.work = sent at fits policy
  cases sent with
  | restart info next => cases next <;> exact id
  | rearm =>
      rintro ⟨kept, running, -⟩
      cases fails with
      | ended failure ended =>
          obtain rfl | rfl := Slot.ended_eq_some ended
          · exact kept rfl
          · exact running rfl
      | overdue overdue =>
          rw [policy] at overdue
          cases overdue
  | joinArm content deadline =>
      rw [fits.2] at past
      simp [Past] at past
  | armIfDue | republishRearmed | republish | refresh | join | leave | cancel | cancelArmed =>
      exact id

/-- The segments of a quiet step register no join's content. -/
theorem not_publishes_of_quiet {g : Segment} (w : Wired s) (policies : Policies s)
    (past : Past s.machine.state) (quiet : Quiet s a) (ran : RunsIn s o a g)
    (task : g.task = some (.sending send)) : publishesJoin send.work.request = false := by
  rw [← Bool.not_eq_true]
  intro content
  cases ran with
  | polled operation held =>
      have starts : ¬ PutsBack s.machine s.now operation := by simpa only [Quiet, held] using quiet
      exact starts ((sends_startOperation send task).2 content)
  | waited => exact (@sends_recoverNow False _ _ _ send task).2 content
  | failed a before failure ob held fails =>
      exact not_goesOn_of_fails w policies past held fails ((sends_settle send task).2 content)
  | settled a before outcome result ob attempted judged =>
      have ends := quiet.attempt w attempted
      simp only [EndsQuietly, attempted.held, attempted.current, judged, true_imp_iff] at ends
      exact ends ((sends_settle send task).2 content)
  | moved => exact quiet ((sends_republishTransports send task).2 content)
  | left => exact (@sends_leave False _ _ _ _ send task).2 content

/-- A quiet step leaves nothing waiting to be put back where nothing was. -/
theorem settled_step (w : Wired s) (policies : Policies s) (past : Past s.machine.state)
    (settled : Settled s) (quiet : Quiet s a) (h : s.step a = some t) : Settled t := by
  intro o send held content
  cases fate h held with
  | kept before => exact settled o send before content
  | moved before phase there away same =>
      rw [same] at content
      obtain ⟨n, giveUpAt, calling⟩ := settled o before there content
      exact absurd calling (away n giveUpAt)
  | retried before outcome delay last attempted judged work policy =>
      have ends := quiet.attempt w attempted
      simp only [EndsQuietly, attempted.held, attempted.current, judged, true_imp_iff] at ends
      rw [work, ends] at content
      cases content
  | registered g ran task =>
      rw [not_publishes_of_quiet w policies past quiet ran task] at content
      cases content

theorem not_sent_of_settled (settled : Settled s) (h : s.step a = some t) {call : HostCall}
    (started : startedCall s t = some call) : publishesJoin call.request = false := by
  obtain ⟨o, send, rfl, held, checked, -, rfl⟩ := startedCall_take h started
  rw [← Bool.not_eq_true]
  intro content
  obtain ⟨n, giveUpAt, calling⟩ := settled o send held content
  cases checked.symm.trans calling

end Steps

section Telling
variable {s : SlotSession} {m : OwnMembershipMachine} {now : ℕ}

theorem told_flags (event : RtcMembershipEvent) :
    ∃ departed, told s m event = { m with departed := departed } := by
  unfold told
  cases ownDeparted s event with
  | none => exact ⟨m.departed, rfl⟩
  | some reason => exact m.onOwnDeparture_flags reason

theorem rebuilt_flags (events : List RtcMembershipEvent) :
    ∃ departed, (rebuilt s m now events).2 = { m with departed := departed } := by
  have along : ∀ (at_ : SlotSession × OwnMembershipMachine),
      (∃ departed, at_.2 = { m with departed := departed }) →
        ∃ departed, (events.foldl (rebuildTold s now) at_).2 = { m with departed := departed } := by
    induction events with
    | nil => exact fun at_ flags => flags
    | cons event rest ih =>
        rintro at_ ⟨departed, flags⟩
        refine ih _ ?_
        simp only [rebuildTold]
        cases SlotSession.heldCandidate s at_.1 event with
        | some kept => exact ⟨departed, flags⟩
        | none =>
            obtain ⟨later, same⟩ := told_flags (s := at_.1) (m := at_.2) event
            exact ⟨later, by rw [same, flags]⟩
  exact along _ ⟨m.departed, rfl⟩

theorem departedBySet_flags (events : List RtcMembershipEvent) :
    ∃ departed, departedBySet s m now events = { m with departed := departed } := by
  obtain ⟨departed, flags⟩ := @rebuilt_flags s m now events
  unfold departedBySet
  dsimp only
  split_ifs
  · obtain ⟨later, same⟩ := (rebuilt s m now events).2.onOwnDeparture_flags
      (ownLeaveReason s events)
    exact ⟨later, by rw [same, flags]⟩
  · exact ⟨departed, flags⟩

theorem toldBySet_state (events : List RtcMembershipEvent) :
    (toldBySet s m now events).state = m.state := by
  obtain ⟨departed, flags⟩ := @departedBySet_flags s m now events
  unfold toldBySet
  dsimp only
  cases caughtUp s m now events with
  | none => rw [flags]
  | some own =>
      obtain ⟨awaiting, requested, same⟩ := (departedBySet s m now events).onCatchUp_flags own
      have kept : (departedBySet s m now events).state = m.state := by rw [flags]
      exact (congrArg OwnMembershipMachine.state same).trans kept

theorem asks_iff {own : Option OwnEntry} : asks m own = true ↔ Misses m own := by
  cases own with
  | none => simp [asks, Misses]
  | some entry =>
      simp only [asks, Option.any_some, OwnMembershipMachine.onCatchUp, Misses]
      by_cases joined : m.state = .joined <;> by_cases awaiting : m.awaitingCatchUp = true <;>
        simp only [joined, awaiting, ne_eq, not_true_eq_false, not_false_eq_true, Bool.not_true,
          Bool.false_eq_true, or_false, or_true, if_true, if_false, true_and, false_and, and_false,
          Bool.not_false]
      cases entry with
      | absent => simp
      | present eventId =>
          cases eventId with
          | none => simp
          | some id => by_cases latest : m.latestEventId = some id <;> simp [latest]

theorem misses_departed {own : Option OwnEntry} {departed : Bool} :
    Misses { m with departed := departed } own ↔ Misses m own := by
  cases own <;> exact Iff.rfl

theorem setCurrentState_own (events : List RtcMembershipEvent) :
    (s.setCurrentState now events).ownParticipation = s.ownParticipation := by
  have along : ∀ built : SlotSession,
      (events.foldl (SlotSession.rebuild s now) built).ownParticipation =
        built.ownParticipation := by
    induction events with
    | nil => exact fun built => rfl
    | cons event rest ih => exact fun built => (ih _).trans rebuild_own
  exact along _

theorem update_own (event : RtcMembershipEvent) :
    (SessionOperations.update s now event).ownParticipation = s.ownParticipation := by
  unfold SessionOperations.update
  split_ifs <;> exact recordMembershipEvent_own

theorem participates_of_meant {event : RtcMembershipEvent} (h : meant s event = true) :
    s.ownParticipation.isSome = true := by
  cases event with
  | joined => cases h
  | left left =>
      simp only [meant, isOwn, Bool.and_eq_true] at h
      exact Option.isSome_of_any h.1

end Telling

/-- Nothing has been put back, and nothing is about to be once the leave was shown. -/
structure Inv (p : Participation) : Prop where
  wired : Wired p.system
  policies : Policies p.system
  joined : p.session.ownParticipation.isSome = true → Past p.system.machine.state
  settled : p.shown = true → Past p.system.machine.state ∧ Settled p.system
  left : p.resent = false ∧ p.requested = false

section Run
variable {p p' : Participation}

theorem inv_start (own : OwnParticipation) (session : SlotSession)
    (fresh : session.ownParticipation = none) (timings : MembershipTimings)
    (transports : MemberTransports) (deadline : ℕ) (now : UInt64) :
    Inv (.start own session timings transports deadline now) where
  wired := wired_start timings transports deadline now
  policies := policies_start timings transports deadline now
  joined held := by simp [Participation.start, fresh] at held
  settled shown := by cases shown
  left := ⟨rfl, rfl⟩

theorem joined_machineStep {a : MembershipUpkeep.Action} {t : System} (inv : Inv p)
    (h : p.system.step a = some t)
    (held : (sessionAfter p.own p.session a).ownParticipation.isSome = true) :
    Past t.machine.state := by
  cases a with
  | spawnUpkeep =>
      cases System.actionStep h with
      | spawnUpkeep joined => exact .inl joined
  | beginLeave | leave => simp [sessionAfter, SlotSession.leave, SlotSession.refresh] at held
  | _ => exact past_step inv.wired (inv.joined held) h

theorem inv_machineStep {a : MembershipUpkeep.Action} (inv : Inv p)
    (quiet : p.shown = true → Quiet p.system a) (h : p.machineStep a = some p') : Inv p' := by
  obtain ⟨t, stepped, rfl⟩ := Option.map_eq_some_iff.mp h
  refine ⟨wired_step inv.wired stepped, policies_step inv.policies stepped,
    joined_machineStep inv stepped, fun shown => ?_, ?_, inv.left.2⟩
  · obtain ⟨past, settled⟩ := inv.settled shown
    exact ⟨past_step inv.wired past stepped,
      settled_step inv.wired inv.policies past settled (quiet shown) stepped⟩
  · rw [Bool.or_eq_false_iff, Bool.and_eq_false_imp]
    refine ⟨inv.left.1, fun shown => ?_⟩
    cases started : startedCall p.system t with
    | none => rfl
    | some call => exact not_sent_of_settled (inv.settled shown).2 stepped started

theorem inv_completeSet {events : List RtcMembershipEvent} (inv : Inv p)
    (ok : LeftBe p (.completeSet events)) (h : p.step (.completeSet events) = some p') :
    Inv p' := by
  cases h
  have state := @toldBySet_state p.session p.system.machine p.system.now events
  refine ⟨inv.wired.touch state, inv.policies, fun held => ?_, fun shown => ?_, inv.left.1, ?_⟩
  · rw [setCurrentState_own] at held
    exact state ▸ inv.joined held
  · rw [Bool.or_eq_true] at shown
    have past : Past p.system.machine.state := by
      obtain before | any_meant := shown
      · exact (inv.settled before).1
      · obtain ⟨event, -, is_meant⟩ := List.any_eq_true.mp any_meant
        exact inv.joined (participates_of_meant is_meant)
    refine ⟨state ▸ past, ?_⟩
    obtain before | settled := (ok shown).1
    · exact (inv.settled before).2
    · exact settled
  · rw [Bool.or_eq_false_iff, Bool.and_eq_false_imp]
    refine ⟨inv.left.2, fun shown => ?_⟩
    rw [Bool.or_eq_true] at shown
    obtain ⟨departed, flags⟩ := @departedBySet_flags p.session p.system.machine
      p.system.now events
    rw [← Bool.not_eq_true, asks_iff, flags, misses_departed]
    exact (ok shown).2

theorem inv_update {event : RtcMembershipEvent} (inv : Inv p) (ok : LeftBe p (.update event))
    (h : p.step (.update event) = some p') : Inv p' := by
  cases h
  obtain ⟨departed, flags⟩ := told_flags (s := p.session) (m := p.system.machine) event
  have state : (told p.session p.system.machine event).state = p.system.machine.state := by
    rw [flags]
  refine ⟨inv.wired.touch state, inv.policies, fun held => ?_, fun shown => ?_, inv.left⟩
  · rw [update_own] at held
    exact state ▸ inv.joined held
  · by_cases before : p.shown = true
    · exact ⟨state ▸ (inv.settled before).1, (inv.settled before).2⟩
    · rw [Bool.not_eq_true] at before
      have now_ : meant p.session event = true := by simpa [before] using shown
      exact ⟨state ▸ inv.joined (participates_of_meant now_), ok before now_⟩

theorem inv_step {a : Action} (inv : Inv p) (ok : LeftBe p a) (h : p.step a = some p') :
    Inv p' := by
  cases a with
  | completeSet events => exact inv_completeSet inv ok h
  | update event => exact inv_update inv ok h
  | machine a =>
      cases a with
      | ownDeparture | catchUp => cases h
      | _ => exact inv_machineStep inv ok h

end Run

/-- A meant leave is not undone in a run that leaves it be. -/
theorem meant_leave_stands (own : OwnParticipation) (session : SlotSession)
    (fresh : session.ownParticipation = none) (timings : MembershipTimings)
    (transports : MemberTransports) (deadline : ℕ) (now : UInt64) (trace : List Action)
    (p : Participation)
    (reach : run Participation.step (.start own session timings transports deadline now) trace =
      some p)
    (ok : Admissible Participation.step LeftBe
      (.start own session timings transports deadline now) trace) :
    p.resent = false ∧ p.requested = false :=
  (run_invariant (fun _ _ _ inv ok h => inv_step inv ok h)
    (inv_start own session fresh timings transports deadline now) ok reach).left

section Runs

instance (m : OwnMembershipMachine) (work : Work) (result : Except SendFailure String) :
    Decidable (GoesOn m work result) := by
  unfold GoesOn
  split <;> infer_instance

instance (s : System) (o : Owner) (outcome : AttemptOutcome) :
    Decidable (EndsQuietly s o outcome) := by
  unfold EndsQuietly
  split
  · split <;> infer_instance
  · infer_instance

instance (s : System) : (a : MembershipUpkeep.Action) → Decidable (Quiet s a)
  | .task _ .poll => by
      unfold Quiet
      dsimp only
      split <;> infer_instance
  | .answer _ _ => by
      unfold Quiet
      dsimp only
      split <;> infer_instance
  | .task o .timeOut => inferInstanceAs (Decidable (EndsQuietly s o .elapsed))
  | .moveTransports _ _ => inferInstanceAs (Decidable (¬ (_ ∧ _ = true)))
  | .task _ .jitterOver | .task _ .check | .task _ .take | .task _ .wake | .task _ .giveUp
  | .tick _ | .online | .spawnUpkeep | .beat | .lapseCheck | .recovered _ | .wakeDeparture
  | .wakeRepublish | .ownDeparture _ | .catchUp _ | .beginLeave | .leave _ | .dropFuture _
  | .abortUpkeep => isTrue trivial

def ours : OwnParticipation := ⟨"@alice:example.org", "DEVICE", "member"⟩

/-- Our own membership, as the session reads it back. -/
def seen : RtcMembershipEvent :=
  .joined
    { roomId := "!room:example.org"
      slotId := "m.call#"
      sender := ours.userId
      origin := .unknown
      stickyKey := ours.memberId
      memberId := ours.memberId
      membershipEventId := some "$join"
      membershipTs := none
      originServerTs := none
      application := ⟨some "m.call", []⟩
      transports := []
      canSubscribe := [] }

/-- Our membership is taken out of the room on purpose. -/
def removed : RtcMembershipEvent :=
  .left
    { roomId := "!room:example.org"
      slotId := "m.call#"
      sender := ours.userId
      stickyKey := ours.memberId
      memberId := some ours.memberId
      leaveReason := some ⟨.leave, none⟩ }

def joinSeen : List Action := joinLands.map .machine ++ [.completeSet [seen]]

def started : Participation := .start ours .new timings transports 60000 0

/-- The refresh falls due after the leave, and sends the membership again. -/
theorem meant_leave_undone :
    ∃ p ∈ run Participation.step started
      (joinSeen ++ .update removed :: (.machine (.tick 1200000) :: .machine .beat ::
        .machine (.task .refresh .poll) :: (attempt .refresh).map .machine)),
      p.shown = true ∧ p.resent = true := by decide

/-- The join has landed and the session has seen it. -/
def joined : Participation := (run Participation.step started joinSeen).get (by decide)

theorem joined_reached : run Participation.step started joinSeen = some joined :=
  (Option.some_get _).symm

theorem settled_joined : Settled joined.system := by
  intro o send held
  have idle : joined.system.tasks o = none := by cases o <;> rfl
  cases idle.symm.trans held

/-- The next beat restarts the delayed leave, and refreshes nothing yet. -/
def nextBeat : List Action :=
  .machine (.tick 10000) :: .machine .beat :: .machine (.task .refresh .poll) ::
    .machine (.task .restart .poll) :: (attempt .restart).map .machine ++
    [.machine (.answer 2 (.ok ""))]

/-- The leave is not shown before, or nothing is put back after. -/
def Undisturbed (p : Participation) : Action → Prop
  | .machine a => p.shown = true → Quiet p.system a
  | .completeSet events => p.shown = false ∧ events.any (meant p.session) = false
  | .update event => p.shown = true ∨ meant p.session event = false

instance (p : Participation) (a : Action) : Decidable (Undisturbed p a) := by
  cases a <;> unfold Undisturbed <;> infer_instance

theorem Undisturbed.leftBe {p : Participation} {a : Action} (h : Undisturbed p a) :
    LeftBe p a := by
  cases a with
  | machine a => exact h
  | completeSet events => exact fun shown => by simp [h.1, h.2] at shown
  | update event =>
      intro unshown is_meant
      obtain before | unmeant := h
      · exact absurd (before.symm.trans unshown) (by simp)
      · exact absurd (is_meant.symm.trans unmeant) (by simp)

theorem left_be_at_next_beat :
    Admissible Participation.step LeftBe started (joinSeen ++ .update removed :: nextBeat) := by
  have before : Admissible Participation.step Undisturbed started joinSeen := by decide
  have after : ∀ p ∈ joined.step (.update removed),
      Admissible Participation.step Undisturbed p nextBeat := by decide
  refine (before.mono fun _ _ => Undisturbed.leftBe).continued joined_reached
    ⟨fun _ _ => settled_joined, fun p updated => ?_⟩
  exact (after p updated).mono fun _ _ => Undisturbed.leftBe

theorem meant_leave_stands_at_next_beat :
    ∃ p ∈ run Participation.step started (joinSeen ++ .update removed :: nextBeat),
      p.shown = true ∧ p.resent = false ∧ p.requested = false := by
  have reached : ∃ p ∈ run Participation.step started
      (joinSeen ++ .update removed :: nextBeat), p.shown = true := by decide
  obtain ⟨p, reach, shown⟩ := reached
  exact ⟨p, reach, shown, meant_leave_stands ours .new rfl timings transports 60000 0 _ p reach
    left_be_at_next_beat⟩

end Runs

end MatrixRtc.MeantLeaves

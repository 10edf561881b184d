import MatrixRtc.LeaveOrder
import MatrixRtc.PublishedLifetimes

/-!
# The event the homeserver keeps

One participation together with its homeserver, which takes the calls made to it at any
time before it answers them, sends the delayed leaves that are not restarted in time, and
keeps of one sticky key the event that is last to expire. A call states its duration when
it is made: the sticky duration for a delayed leave, the lifetime the join settled on for
a member event. Client and homeserver read one clock.
-/
namespace MatrixRtc.StickyExpiry
open MemberEvents OwnMembership MembershipUpkeep UpkeepInvariants
open LeaveOrder PublishedLifetimes StepRuns

/-- `DEFAULT_KEEP_ALIVE_TIMEOUT_MS`. -/
def defaultKeepAliveTimeoutMs : ℕ := 30000

/-- `DEFAULT_STICKY_DURATION_MS`. -/
def defaultStickyDurationMs : ℕ := 60 * 60 * 1000

/-- `MAX_STICKY_DURATION_MS`. -/
def maxStickyDurationMs : ℕ := 60 * 60 * 1000

/-- `DEFAULT_DEGRADED_LIFETIME_MS`. -/
def defaultDegradedLifetimeMs : ℕ := 5 * 60 * 1000

/-- The durations a join is asked for. -/
structure JoinSessionParams where
  keepAliveTimeoutMs : Option UInt64
  stickyDurationMs : Option UInt64
  degradedLifetimeMs : Option UInt64
deriving DecidableEq, Repr

namespace JoinSessionParams
variable (p : JoinSessionParams)

def effectiveKeepAliveTimeoutMs : ℕ :=
  (p.keepAliveTimeoutMs.map UInt64.toNat).getD defaultKeepAliveTimeoutMs

/-- A longer duration than is honoured is clamped. -/
def effectiveStickyDurationMs : ℕ :=
  let requested := (p.stickyDurationMs.map UInt64.toNat).getD defaultStickyDurationMs
  if requested > maxStickyDurationMs then maxStickyDurationMs else requested

def effectiveDegradedLifetimeMs : ℕ :=
  min ((p.degradedLifetimeMs.map UInt64.toNat).getD defaultDegradedLifetimeMs) maxStickyDurationMs

def timings : MembershipTimings :=
  ⟨p.effectiveKeepAliveTimeoutMs, p.effectiveStickyDurationMs, p.effectiveDegradedLifetimeMs⟩

end JoinSessionParams

inductive EventKind where
  | join
  | leave
  | delayedLeave
deriving DecidableEq, Repr

/-- An event of our sticky key, as the homeserver sent it. -/
structure StickyEvent where
  kind : EventKind
  sentAt : ℕ
  durationMs : ℕ
deriving DecidableEq, Repr

def StickyEvent.expiresAt (e : StickyEvent) : ℕ := e.sentAt + e.durationMs

/-- The homeserver keeps an event that is last to expire. -/
def Kept (events : List StickyEvent) (e : StickyEvent) : Prop :=
  e ∈ events ∧ ∀ other ∈ events, other.expiresAt ≤ e.expiresAt

/-- Two events, the later one second: a membership expires after a delayed leave that
fired before it, and no membership expires after a later event. -/
def InOrder (first second : StickyEvent) : Prop :=
  (first.kind = .delayedLeave → second.kind = .join → first.sentAt < second.sentAt →
    first.expiresAt < second.expiresAt) ∧
  (first.kind = .join → first.expiresAt ≤ second.expiresAt)

instance : DecidableRel InOrder := fun _ _ => inferInstanceAs (Decidable (_ ∧ _))

/-- The events are in order, and a membership sent after delayed leaves, with no leave of
our own among them, is kept. -/
structure LastToExpire (events : List StickyEvent) : Prop where
  inOrder : events.Pairwise InOrder
  kept : ∀ before join, before ++ [join] <+: events → join.kind = .join →
    (∀ e ∈ before, e.kind ≠ .leave ∧ (e.kind = .delayedLeave → e.sentAt < join.sentAt)) →
    Kept (before ++ [join]) join

theorem LastToExpire.of_inOrder {events : List StickyEvent} (inOrder : events.Pairwise InOrder) :
    LastToExpire events := by
  constructor
  · exact inOrder
  · intro before join isPrefix kind past
    have pairs := (List.pairwise_append.mp (inOrder.sublist isPrefix.sublist)).2.2
    constructor
    · exact List.mem_append_right _ (List.mem_singleton.mpr rfl)
    · intro other member
      rcases List.mem_append.mp member with earlier | last
      · obtain ⟨leaves, memberships⟩ := pairs other earlier join (List.mem_singleton.mpr rfl)
        obtain ⟨notLeft, moved⟩ := past other earlier
        cases which : other.kind with
        | join => exact memberships which
        | leave => exact absurd which notLeft
        | delayedLeave => exact (leaves which kind (moved which)).le
      · rw [List.mem_singleton.mp last]

theorem pairwise_concat {events : List StickyEvent} {e : StickyEvent}
    (inOrder : events.Pairwise InOrder) (last : ∀ before ∈ events, InOrder before e) :
    (events ++ [e]).Pairwise InOrder := by
  apply List.pairwise_append.mpr
  refine ⟨inOrder, List.pairwise_singleton _ _, ?_⟩
  intro before member other single
  rw [List.mem_singleton.mp single]
  exact last before member

/-- A delayed leave the homeserver will send unless it is restarted. -/
structure DelayedEvent where
  delayId : String
  durationMs : ℕ
  dueAt : ℕ
deriving DecidableEq, Repr

structure System where
  client : MembershipUpkeep.System
  /-- the duration each call stated -/
  stated : ℕ → ℕ
  /-- the calls the homeserver has taken -/
  taken : List ℕ
  delays : List DelayedEvent
  events : List StickyEvent

inductive Action where
  | client (action : MembershipUpkeep.Action)
  | land (call : ℕ) (delayId : String)
  | fire (i : ℕ)

/-- The duration a request states. -/
def statedDuration (m : OwnMembershipMachine) : Request → ℕ
  | .sendDelayedStickyEvent => m.stickyDurationMs
  | .sendStickyEvent _ => m.publishedLifetimeMs
  | .restartDelayedEvent _ | .cancelDelayedEvent _ => 0

def contentKind : StickyContent → EventKind
  | .join _ => .join
  | .leave _ => .leave

namespace System
variable (s : System)

/-- The participation went on, and a call it started stated its duration. -/
def observe (t : MembershipUpkeep.System) : System :=
  { s with
    client := t
    stated := match startedCall s.client t with
      | some call => Function.update s.stated s.client.nextCall
          (statedDuration s.client.machine call.request)
      | none => s.stated }

/-- The homeserver takes a request. -/
def land (n : ℕ) (request : Request) (delayId : String) : System :=
  let s := { s with taken := s.taken ++ [n] }
  let dueAt := s.client.now + s.client.machine.keepAliveTimeoutMs
  match request with
  | .sendDelayedStickyEvent => { s with delays := s.delays ++ [⟨delayId, s.stated n, dueAt⟩] }
  | .restartDelayedEvent id =>
      { s with delays := s.delays.map fun d =>
          if d.delayId = id then { d with dueAt := dueAt } else d }
  | .cancelDelayedEvent id => { s with delays := s.delays.filter fun d => d.delayId ≠ id }
  | .sendStickyEvent content =>
      { s with events := s.events ++ [⟨contentKind content, s.client.now, s.stated n⟩] }

/-- A delayed leave is sent. -/
def fire (d : DelayedEvent) : System :=
  { s with
    delays := s.delays.erase d
    events := s.events ++ [⟨.delayedLeave, s.client.now, d.durationMs⟩] }

end System

def step (s : System) : Action → Option System
  | .client action => (s.client.step action).map s.observe
  | .land n delayId =>
      match s.client.calls n with
      | some call =>
          if call.answer.isNone ∧ n ∉ s.taken then some (s.land n call.request delayId) else none
      | none => none
  | .fire i =>
      match s.delays[i]? with
      | some d => if d.dueAt ≤ s.client.now then some (s.fire d) else none
      | none => none

def start (params : JoinSessionParams) (transports : MemberTransports) (deadline : ℕ)
    (now : UInt64) : System :=
  ⟨.start params.timings transports deadline now, fun _ => 0, [], [], []⟩

def Fired (s : System) : Prop := ∃ e ∈ s.events, e.kind = .delayedLeave

def Joined (s : System) : Prop := ∃ e ∈ s.events, e.kind = .join

/-- A membership is taken after a delayed leave fired only where the lifetime the join
settled on is not shorter than the sticky duration, and a delayed leave fires after a
membership was taken only where it is not longer. -/
def InTurn (s : System) : Action → Prop
  | .client _ => True
  | .land n _ => ∀ call ∈ s.client.calls n, publishesJoin call.request = true → Fired s →
      s.client.machine.stickyDurationMs ≤ s.client.machine.publishedLifetimeMs
  | .fire _ => Joined s →
      s.client.machine.publishedLifetimeMs ≤ s.client.machine.stickyDurationMs

/-- The duration an event of this kind states. -/
def kindDuration (m : OwnMembershipMachine) : EventKind → ℕ
  | .delayedLeave => m.stickyDurationMs
  | .join | .leave => m.publishedLifetimeMs

structure Inv (s : System) : Prop where
  wired : Wired s.client
  stated : ∀ n call, s.client.calls n = some call →
    s.stated n = statedDuration s.client.machine call.request
  /-- until the join settles on a lifetime only delayed leaves are sent -/
  early : Arming s.client → (∀ n call, s.client.calls n = some call →
    call.request = .sendDelayedStickyEvent) ∧ ∀ e ∈ s.events, e.kind = .delayedLeave
  delays : ∀ d ∈ s.delays, d.durationMs = s.client.machine.stickyDurationMs
  durations : ∀ e ∈ s.events, e.durationMs = kindDuration s.client.machine e.kind
  times : ∀ e ∈ s.events, e.sentAt ≤ s.client.now
  inOrder : s.events.Pairwise InOrder

section Steps
variable {s : System}

/-- A call after a step was there before, or is the one the step started. -/
theorem calls_step {c t : MembershipUpkeep.System} {a : MembershipUpkeep.Action} (w : Wired c)
    (h : c.step a = some t) {n : ℕ} {call : HostCall} (listed : t.calls n = some call) :
    (n ≠ c.nextCall ∧ ∃ was, c.calls n = some was ∧ was.request = call.request) ∨
      n = c.nextCall ∧ startedCall c t = some call ∧
        (Arming c → call.request = .sendDelayedStickyEvent) := by
  have old : ∀ {m was}, c.calls m = some was → m ≠ c.nextCall := by
    rintro m was present rfl
    rw [w.fresh c.nextCall le_rfl] at present
    cases present
  cases hostStep h with
  | quiet a t calls next now =>
      rw [calls] at listed
      exact Or.inl ⟨old listed, call, listed, rfl⟩
  | answers k was result present unanswered =>
      have same : (c.answer k was result).calls = (c.recordAnswer k was result).calls :=
        congrArg Prod.fst System.answer_host
      rw [same] at listed
      simp only [System.recordAnswer] at listed
      split_ifs at listed with here
      · cases listed
        exact Or.inl ⟨here ▸ old present, was, here ▸ present, rfl⟩
      · exact Or.inl ⟨old listed, call, listed, rfl⟩
  | starts o send held checked idle =>
      rw [System.take, if_neg (by simp [idle])] at listed ⊢
      simp only [System.setTask] at listed ⊢
      split_ifs at listed with new
      · cases listed
        refine Or.inr ⟨new, by simp [startedCall], ?_⟩
        intro arming
        have mine := armsJoin_of_arming w arming held
        cases work : send.work <;> simp only [work, armsJoin, reduceCtorEq] at mine
        rfl
      · exact Or.inl ⟨old listed, call, listed, rfl⟩

theorem now_step {c t : MembershipUpkeep.System} {a : MembershipUpkeep.Action}
    (h : c.step a = some t) : c.now ≤ t.now := by
  cases hostStep h with
  | quiet a t calls next now => exact now
  | answers k was result present unanswered =>
      have same : (c.answer k was result).now = (c.recordAnswer k was result).now :=
        congrArg (fun host => host.2.2) System.answer_host
      exact same.ge
  | starts o send held checked idle =>
      rw [System.take, if_neg (by simp [idle])]
      exact le_rfl

theorem statedDuration_step {c t : MembershipUpkeep.System} {request : Request}
    (on : KeepsOn c t) (early : Arming c → request = .sendDelayedStickyEvent) :
    statedDuration t.machine request = statedDuration c.machine request := by
  by_cases arming : Arming c
  · rw [early arming]
    exact on.sticky
  · cases request with
    | sendDelayedStickyEvent => exact on.sticky
    | sendStickyEvent content => exact on.published arming
    | restartDelayedEvent id => rfl
    | cancelDelayedEvent id => rfl

theorem Inv.observe {t : MembershipUpkeep.System} {a : MembershipUpkeep.Action} (inv : Inv s)
    (h : s.client.step a = some t) : Inv (s.observe t) := by
  have on := keepsOn_step inv.wired h
  constructor
  · exact wired_step inv.wired h
  · intro n call listed
    rcases calls_step inv.wired h listed with ⟨old, was, present, same⟩ | ⟨new, started, early⟩
    · have kept : (s.observe t).stated n = s.stated n := by
        simp only [System.observe]
        cases startedCall s.client t with
        | none => rfl
        | some new => exact Function.update_of_ne old _ _
      have early : Arming s.client → call.request = .sendDelayedStickyEvent := by
        intro arming
        rw [← same]
        exact (inv.early arming).1 n was present
      rw [kept, inv.stated n was present, same]
      exact (statedDuration_step on early).symm
    · subst new
      simp only [System.observe, started, Function.update_self]
      exact (statedDuration_step on early).symm
  · intro arming
    obtain ⟨calls, events⟩ := inv.early (on.arming arming)
    refine ⟨?_, events⟩
    intro n call listed
    rcases calls_step inv.wired h listed with ⟨-, was, present, same⟩ | ⟨-, -, early⟩
    · rw [← same]
      exact calls n was present
    · exact early (on.arming arming)
  · intro d member
    rw [inv.delays d member]
    exact on.sticky.symm
  · intro e member
    rw [inv.durations e member]
    change kindDuration s.client.machine e.kind = kindDuration t.machine e.kind
    by_cases arming : Arming s.client
    · rw [(inv.early arming).2 e member]
      exact on.sticky.symm
    · cases e.kind with
      | delayedLeave => exact on.sticky.symm
      | join => exact (on.published arming).symm
      | leave => exact (on.published arming).symm
  · intro e member
    exact (inv.times e member).trans (now_step h)
  · exact inv.inOrder

/-- An event is sent under the duration of its kind, in order. -/
theorem Inv.send {kind : EventKind} {delays : List DelayedEvent} {taken : List ℕ} (inv : Inv s)
    (settled : Arming s.client → kind = .delayedLeave)
    (kept : ∀ d ∈ delays, d.durationMs = s.client.machine.stickyDurationMs)
    (leaves : kind = .join → Fired s →
      s.client.machine.stickyDurationMs ≤ s.client.machine.publishedLifetimeMs)
    (memberships : kind = .delayedLeave → Joined s →
      s.client.machine.publishedLifetimeMs ≤ s.client.machine.stickyDurationMs) :
    Inv { s with
      taken := taken
      delays := delays
      events := s.events ++ [⟨kind, s.client.now, kindDuration s.client.machine kind⟩] } := by
  constructor
  · exact inv.wired
  · exact inv.stated
  · intro arming
    obtain ⟨calls, events⟩ := inv.early arming
    refine ⟨calls, ?_⟩
    intro e member
    rcases List.mem_append.mp member with old | new
    · exact events e old
    · rw [List.mem_singleton.mp new]
      exact settled arming
  · exact kept
  · intro e member
    rcases List.mem_append.mp member with old | new
    · exact inv.durations e old
    · rw [List.mem_singleton.mp new]
  · intro e member
    rcases List.mem_append.mp member with old | new
    · exact inv.times e old
    · rw [List.mem_singleton.mp new]
  · apply pairwise_concat inv.inOrder
    intro e member
    have duration := inv.durations e member
    have time := inv.times e member
    constructor
    · intro fired joins earlier
      have longer := leaves joins ⟨e, member, fired⟩
      have joins' : kind = .join := joins
      simp only [StickyEvent.expiresAt, duration, fired, joins', kindDuration] at earlier ⊢
      omega
    · intro joined
      simp only [StickyEvent.expiresAt, duration, joined]
      cases kind with
      | delayedLeave =>
          have shorter := memberships rfl ⟨e, member, joined⟩
          simp only [kindDuration]
          omega
      | join => exact Nat.add_le_add_right time _
      | leave => exact Nat.add_le_add_right time _

theorem Inv.land {n : ℕ} {delayId : String} {call : HostCall} (inv : Inv s)
    (listed : s.client.calls n = some call)
    (turn : publishesJoin call.request = true → Fired s →
      s.client.machine.stickyDurationMs ≤ s.client.machine.publishedLifetimeMs) :
    Inv (s.land n call.request delayId) := by
  have stated := inv.stated n call listed
  cases request : call.request with
  | sendDelayedStickyEvent =>
      refine ⟨inv.wired, inv.stated, inv.early, ?_, inv.durations, inv.times, inv.inOrder⟩
      intro d member
      rcases List.mem_append.mp member with old | new
      · exact inv.delays d old
      · rw [List.mem_singleton.mp new]
        rw [request] at stated
        exact stated
  | restartDelayedEvent id =>
      refine ⟨inv.wired, inv.stated, inv.early, ?_, inv.durations, inv.times, inv.inOrder⟩
      intro d member
      obtain ⟨was, old, rfl⟩ := List.mem_map.mp member
      split_ifs
      · exact inv.delays was old
      · exact inv.delays was old
  | cancelDelayedEvent id =>
      refine ⟨inv.wired, inv.stated, inv.early, ?_, inv.durations, inv.times, inv.inOrder⟩
      intro d member
      exact inv.delays d (List.mem_filter.mp member).1
  | sendStickyEvent content =>
      rw [request] at stated turn
      have duration : s.stated n = kindDuration s.client.machine (contentKind content) := by
        rw [stated]
        cases content <;> rfl
      simp only [System.land, duration]
      apply inv.send
      · intro arming
        have early := (inv.early arming).1 n call listed
        rw [request] at early
        cases early
      · exact inv.delays
      · intro joins
        cases content with
        | join transports => exact turn rfl
        | leave reason => cases joins
      · intro fires
        cases content <;> cases fires

theorem Inv.step {a : Action} {t : System} (inv : Inv s) (turn : InTurn s a)
    (h : StickyExpiry.step s a = some t) : Inv t := by
  cases a with
  | client action =>
      obtain ⟨c, taken, rfl⟩ := Option.map_eq_some_iff.mp h
      exact inv.observe taken
  | land n delayId =>
      simp only [StickyExpiry.step] at h
      split at h
      · rename_i call listed
        split_ifs at h
        cases h
        exact inv.land listed (turn call listed)
      · cases h
  | fire i =>
      simp only [StickyExpiry.step] at h
      split at h
      · rename_i d present
        split_ifs at h
        cases h
        have member := List.mem_of_getElem? present
        rw [System.fire, inv.delays d member]
        apply inv.send
        · intro _
          rfl
        · intro other old
          exact inv.delays other (List.mem_of_mem_erase old)
        · intro joins
          cases joins
        · intro _
          exact turn
      · cases h

end Steps

theorem start_inv (params : JoinSessionParams) (transports : MemberTransports) (deadline : ℕ)
    (now : UInt64) : Inv (start params transports deadline now) := by
  have calls : (start params transports deadline now).client.calls = fun _ => none :=
    congrArg Prod.fst (System.start_host params.timings transports deadline now)
  constructor
  · exact wired_start params.timings transports deadline now
  · intro n call listed
    rw [calls] at listed
    cases listed
  · intro _
    refine ⟨?_, ?_⟩
    · intro n call listed
      rw [calls] at listed
      cases listed
    · intro e member
      cases member
  · intro d member
    cases member
  · intro e member
    cases member
  · intro e member
    cases member
  · exact List.Pairwise.nil

/-- A republish beats the leave it answers in every run in which the lifetime the join
settled on is not shorter than the sticky duration when a membership is taken after a
delayed leave fired, and not longer when one fires after a membership was taken. -/
theorem republish_beats_leave (params : JoinSessionParams) (transports : MemberTransports)
    (deadline : ℕ) (now : UInt64) (as : List Action) {t : System}
    (turns : Admissible step InTurn (start params transports deadline now) as)
    (h : run step (start params transports deadline now) as = some t) : LastToExpire t.events := by
  have inv : Inv t := by
    apply run_invariant (I := Inv) _ (start_inv params transports deadline now) turns h
    intro s a u inv turn taken
    exact inv.step turn taken
  exact .of_inOrder inv.inOrder

section Runs

instance : DecidablePred Fired := fun s =>
  inferInstanceAs (Decidable (∃ e ∈ s.events, _))

instance : DecidablePred Joined := fun s =>
  inferInstanceAs (Decidable (∃ e ∈ s.events, _))

instance (s : System) : DecidablePred (InTurn s)
  | .client _ => isTrue trivial
  | .land n _ => inferInstanceAs (Decidable (∀ call ∈ s.client.calls n, _ → Fired s → _))
  | .fire _ => inferInstanceAs (Decidable (Joined s → _))

/-- A join with the durations that are the default. -/
def defaults : JoinSessionParams := ⟨none, none, none⟩

/-- An operation sends call `n`, which the homeserver takes and answers. -/
def call (o : Owner) (n : ℕ) (id : String) : List Action :=
  (attempt o).map .client ++ [.land n id, .client (.answer n (.ok id))]

/-- A beat after the client stood still finds the delayed leave gone: it is armed again and
the membership is republished. -/
def rearms (i n : ℕ) : List Action :=
  [.client (.tick 30001), .fire i, .client (.tick 10), .client .beat,
    .client (.task .restart .poll)] ++ call .restart n "delay" ++ call .restart (n + 1) "$rejoin"

/-- The delayed leave of a join fires and is answered. -/
def firesOnce : List Action :=
  call .join 0 "delay" ++ call .join 1 "$join" ++ [.client .spawnUpkeep] ++ rearms 0 2

theorem firesOnce_last_to_expire :
    ∃ t, run step (start defaults transports 30000 0) firesOnce = some t ∧
      Fired t ∧ LastToExpire t.events := by
  have reached : ∃ t ∈ run step (start defaults transports 30000 0) firesOnce, Fired t := by
    decide
  obtain ⟨t, ran, fired⟩ := reached
  refine ⟨t, ran, fired, ?_⟩
  exact republish_beats_leave defaults transports 30000 0 firesOnce (by decide) ran

/-- The arm of the join fails for once, so the membership lives five minutes; the probe
five minutes later arms a delayed leave for an hour. -/
def degradedThenArmed : List Action :=
  (attempt .join).map .client ++
    [.client (.answer 0 (.error (.backend (.new "Service Unavailable"))))] ++
    call .join 1 "$join" ++ [.client .spawnUpkeep, .client (.tick 200000), .client .beat,
      .client (.task .refresh .poll)] ++ call .refresh 2 "$refresh" ++
    [.client (.tick 100000), .client (.task .restart .poll)] ++ call .restart 3 "delay"

/-- The membership republished after that delayed leave fired expires before it. -/
theorem not_always_last_to_expire : ¬ ∀ (params : JoinSessionParams)
    (transports : MemberTransports) (deadline : ℕ) (now : UInt64) (as : List Action) (t : System),
    run step (start params transports deadline now) as = some t → LastToExpire t.events := by
  have broken : ∃ t ∈ run step (start defaults transports 30000 0)
      (degradedThenArmed ++ rearms 0 4), ¬ t.events.Pairwise InOrder := by decide
  obtain ⟨t, ran, outOfOrder⟩ := broken
  intro always
  exact outOfOrder (always defaults transports 30000 0 _ t ran).inOrder

/-- A delayed leave of a minute expires before the degraded membership it is to end. -/
example : ∃ t ∈ run step (start ⟨none, some 60000, none⟩ transports 30000 0)
    (degradedThenArmed ++ [.client (.tick 30001), .fire 0]), ¬ t.events.Pairwise InOrder := by
  decide

end Runs

end MatrixRtc.StickyExpiry

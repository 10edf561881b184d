import MatrixRtc.DirectCalls

/-!
# What the lifecycle of a DM call allows

Each step of a call that was joined with a ring moves it forward as the ring, the pickup,
the declines and the timers say, exactly where no decline of the ring is lost among the few
that are held for its id, and no attempt follows once the call has overtaken it.
-/
namespace MatrixRtc.DirectLifecycles
open StepRuns MemberEvents JsonValues DirectCalls

/-- The call waits for its callee. -/
def Waits (c : DirectCall) : Prop := c.state = .sending ∨ c.isRinging

/-- A membership of the callee is in the roster. -/
def PickedUp (c : DirectCall) (a : Action) : Prop :=
  ∃ members, a = .roster members ∧ ∃ member ∈ members, member.sender = c.callee

/-- A decline from the callee for the ring with this id. -/
def Declines (c : DirectCall) (event : RawTimelineEvent) (ring : String) : Prop :=
  c.isDecline event ∧ relatesTo event ring

instance (c : DirectCall) (event : RawTimelineEvent) (ring : String) :
    Decidable (Declines c event ring) := inferInstanceAs (Decidable (_ ∧ _))

/-- A decline for the ring comes while it rings, or the ring's id comes after it. -/
def DeclineMeets (s : System) (a : Action) : Prop :=
  (∃ events, a = .roomEvents events ∧ s.call.isRinging ∧
      ∃ event ∈ events, ∃ ring ∈ s.rung, Declines s.call event ring.1) ∨
    ∃ ring, a = .answered (some ring) ∧ s.call.state = .sending ∧
      ∃ event ∈ s.delivered, Declines s.call event ring

/-- What a step may do to a call. -/
structure Lawful (s : System) (a : Action) (t : System) : Prop where
  forward : s.call.state.rank ≤ t.call.state.rank
  final : ∀ reason, s.call.state = .ended reason → t.call.state = .ended reason
  pickup : Waits s.call → ((∃ since, t.call.state = .inCall since) ↔ PickedUp s.call a)
  declinedOnly : t.call.state = .ended .declined → s.call.state = .ended .declined ∨
    ∃ event ∈ t.delivered, ∃ ring ∈ t.rung, Declines t.call event ring.1
  declined : DeclineMeets s a → t.call.state = .ended .declined
  unanswered : t.call.state = .ended .unanswered → s.call.state = .ended .unanswered ∨
    ∃ ring ∈ s.rung, ring.2 + s.lifetimeMs ≤ s.now
  attempts : a = .attempt → s.call.state = .sending ∧ s.rung = none

/-- Where a decline for the ring came before its id, one of those held is for it. -/
def Remembered (s : System) : Action → Prop
  | .answered (some ring) => s.call.state = .sending →
      (∃ event ∈ s.delivered, Declines s.call event ring) →
        ∃ event ∈ s.call.heldDeclines, relatesTo event ring
  | .tick _ | .roster _ | .roomEvents _ | .finishLeft | .attempt | .answered none | .waited
  | .deadline | .leftState | .unanswered => True

def attemptDue (s : System) : Bool :=
  match s.job with
  | .due _ => true
  | .sending _ | .waiting _ _ | .ringing _ | .done => false

/-- The backoff's branch is taken once the call has left `Sending`, or the call leaves
`Sending` while an attempt is due. -/
def Overtakes (s : System) : Action → Prop
  | .waited => s.call.state ≠ .sending
  | .roster members => attemptDue s ∧ s.call.state = .sending ∧
      ∃ member ∈ members, member.sender = s.call.callee
  | .finishLeft => attemptDue s ∧ s.call.state = .sending
  | .tick _ | .roomEvents _ | .attempt | .answered _ | .deadline | .leftState
  | .unanswered => False

/-- The declines are remembered, and a step that overtakes an attempt is followed by none. -/
def Attended : System → List Action → Prop
  | _, [] => True
  | s, a :: as => Remembered s a ∧ (Overtakes s a → ∀ b ∈ as, b ≠ .attempt) ∧
      ∀ t ∈ step s a, Attended t as

section Transitions
variable {c : DirectCall} {members : List JoinedMembership} {events : List RawTimelineEvent}
  {now : ℕ}

theorem callee_update {f : DirectCall → DirectCall × Option DirectCallState}
    (same : (f c).1.callee = c.callee) : (c.update f).callee = c.callee := by
  obtain ⟨after, next, is⟩ : ∃ after next, f c = (after, next) := ⟨(f c).1, (f c).2, rfl⟩
  rw [is] at same
  unfold DirectCall.update
  split
  · rfl
  all_goals
    rw [is]
    cases next <;> exact same

theorem callee_onRoomEvents : (c.onRoomEvents events).callee = c.callee := by
  refine callee_update ?_
  split <;> rfl

theorem callee_onRingSent {eventId : String} {sentAt lifetime : ℕ} :
    (c.onRingSent eventId sentAt lifetime).callee = c.callee := by
  refine callee_update ?_
  split <;> rfl

theorem onRoster_state (c : DirectCall) (members : List JoinedMembership) (now : ℕ) :
    (c.onRoster members now).state =
    match c.state with
    | .sending | .ringing _ _ =>
        if members.any (·.sender == c.callee) then .inCall now else c.state
    | .inCall _ =>
        if (c.otherUserSeen || members.any (·.sender != c.ownUserId)) &&
            members.all (·.sender == c.ownUserId) then .ended .othersLeft
        else c.state
    | .ended _ => c.state := by
  obtain ⟨own, callee, seen, ring, held, state⟩ := c
  cases state <;> simp only [DirectCall.onRoster, DirectCall.update]
  all_goals
    split_ifs <;> rfl

/-- A roster update ends a call only because the others left. -/
theorem onRoster_ended {reason : DirectCallEnd}
    (is : (c.onRoster members now).state = .ended reason) (other : reason ≠ .othersLeft) :
    c.state = .ended reason := by
  rw [onRoster_state] at is
  cases before : c.state with
  | sending | ringing =>
      rw [before] at is
      dsimp only at is
      split_ifs at is
  | inCall =>
      rw [before] at is
      dsimp only at is
      split_ifs at is
      cases is
      exact absurd rfl other
  | ended =>
      rw [before] at is
      exact is

theorem onRoomEvents_state (c : DirectCall) (events : List RawTimelineEvent) :
    (c.onRoomEvents events).state =
    match c.state, c.ringEventId with
    | .ringing _ _, some ring =>
        if (events.filter c.isDecline).any (relatesTo · ring) then .ended .declined else c.state
    | _, _ => c.state := by
  obtain ⟨own, callee, seen, ring, held, state⟩ := c
  cases state with
  | sending | inCall | ended => rfl
  | ringing =>
      cases ring with
      | none => rfl
      | some ring =>
          simp only [DirectCall.onRoomEvents, DirectCall.update]
          split_ifs <;> rfl

theorem onRingSent_state (c : DirectCall) (eventId : String) (sentAt lifetime : ℕ) :
    (c.onRingSent eventId sentAt lifetime).state =
      match c.state with
      | .sending =>
          if c.heldDeclines.any (relatesTo · eventId) then .ended .declined
          else .ringing sentAt lifetime
      | .ringing _ _ | .inCall _ | .ended _ => c.state := by
  obtain ⟨own, callee, seen, ring, held, state⟩ := c
  cases state <;> rfl

theorem onRingNotSent_state (c : DirectCall) : c.onRingNotSent.state =
    if c.state = .sending then .ended .ringNotSent else c.state := by
  obtain ⟨own, callee, seen, ring, held, state⟩ := c
  cases state <;> rfl

theorem onUnanswered_state (c : DirectCall) : c.onUnanswered.state =
    match c.state with
    | .ringing _ _ => .ended .unanswered
    | .sending | .inCall _ | .ended _ => c.state := by
  obtain ⟨own, callee, seen, ring, held, state⟩ := c
  cases state <;> rfl

theorem finishLeft_state (c : DirectCall) : c.finishLeft.state =
    match c.state with
    | .ended _ => c.state
    | .sending | .ringing _ _ | .inCall _ => .ended .left := by
  obtain ⟨own, callee, seen, ring, held, state⟩ := c
  cases state <;> rfl

end Transitions

/-- What the job, the ring's id and the held declines have to do with the call. -/
structure Inv (s : System) : Prop where
  unsent : s.unsent → s.rung = none
  rings : s.call.isRinging → ∃ ring, s.call.ringEventId = some ring ∧
    ∃ sent, s.rung = some (ring, sent)
  timed : ∀ wake, s.job = .ringing wake →
    ∃ ring ∈ s.rung, ring.2 + s.lifetimeMs ≤ wake
  held : ∀ event ∈ s.call.heldDeclines, event ∈ s.delivered ∧ s.call.isDecline event

section Steps
variable {s t : System} {a : Action} {c : DirectCall}

theorem isRinging_iff : c.isRinging ↔ ∃ sent lifetime, c.state = .ringing sent lifetime := by
  unfold DirectCall.isRinging
  split
  · next sent lifetime rings => exact ⟨fun _ => ⟨sent, lifetime, rings⟩, fun _ => rfl⟩
  all_goals
    next is => simp [is]

theorem Waits.not_inCall (waits : Waits c) (since : ℕ) : c.state ≠ .inCall since := by
  intro is
  obtain sending | rings := waits
  · cases sending.symm.trans is
  · obtain ⟨sent, lifetime, rings⟩ := isRinging_iff.mp rings
    cases rings.symm.trans is

theorem isDecline_congr {d : DirectCall} (same : d.callee = c.callee) :
    d.isDecline = c.isDecline := by
  funext event
  rw [DirectCall.isDecline, DirectCall.isDecline, same]

/-- A call that ends, or goes on ringing, without a pickup and a decline. -/
theorem lawful_of_quiet (forward : s.call.state.rank ≤ t.call.state.rank)
    (final : ∀ reason, s.call.state = .ended reason → t.call.state = .ended reason)
    (going : ∀ since, t.call.state = .inCall since → s.call.state = .inCall since)
    (declined : t.call.state = .ended .declined → s.call.state = .ended .declined)
    (unanswered : t.call.state = .ended .unanswered → s.call.state = .ended .unanswered ∨
      ∃ ring ∈ s.rung, ring.2 + s.lifetimeMs ≤ s.now)
    (elsewhere : (∀ members, a ≠ .roster members) ∧ (∀ events, a ≠ .roomEvents events) ∧
      ∀ ring, a ≠ .answered (some ring))
    (attempts : a = .attempt → s.call.state = .sending ∧ s.rung = none) : Lawful s a t where
  forward := forward
  final := final
  pickup waits := by
    refine iff_of_false ?_ ?_
    · rintro ⟨since, is⟩
      exact waits.not_inCall since (going since is)
    · rintro ⟨members, rfl, -⟩
      exact elsewhere.1 members rfl
  declinedOnly is := .inl (declined is)
  declined meets := by
    obtain ⟨events, rfl, -⟩ | ⟨ring, rfl, -⟩ := meets
    · exact absurd rfl (elsewhere.2.1 events)
    · exact absurd rfl (elsewhere.2.2 ring)
  unanswered := unanswered
  attempts := attempts

theorem lawful_of_call (same : t.call = s.call)
    (elsewhere : (∀ members, a ≠ .roster members) ∧ (∀ events, a ≠ .roomEvents events) ∧
      ∀ ring, a ≠ .answered (some ring))
    (attempts : a = .attempt → s.call.state = .sending ∧ s.rung = none) : Lawful s a t := by
  refine lawful_of_quiet ?_ ?_ ?_ ?_ ?_ elsewhere attempts
  · exact Nat.le_of_eq (congrArg (fun c : DirectCall => c.state.rank) same).symm
  · exact fun reason is => same ▸ is
  · exact fun since is => same ▸ is
  · exact fun is => same ▸ is
  · exact fun is => .inl (same ▸ is)

theorem lawful_of_still (same : t.call.state = s.call.state)
    (elsewhere : ∀ members, a ≠ .roster members) (apart : ¬ DeclineMeets s a)
    (attempts : a = .attempt → s.call.state = .sending ∧ s.rung = none) : Lawful s a t where
  forward := Nat.le_of_eq (congrArg _ same).symm
  final _ is := same.trans is
  pickup waits := by
    refine iff_of_false ?_ ?_
    · rintro ⟨since, is⟩
      exact waits.not_inCall since (same.symm.trans is)
    · rintro ⟨members, rfl, -⟩
      exact elsewhere members rfl
  declinedOnly is := .inl (same.symm.trans is)
  declined meets := absurd meets apart
  unanswered is := .inl (same.symm.trans is)
  attempts := attempts

theorem lawful_roster (members : List JoinedMembership) :
    Lawful s (.roster members) { s with call := s.call.onRoster members s.now } := by
  have moved := onRoster_state s.call members s.now
  have picked : (members.any (·.sender == s.call.callee)) = true ↔
      PickedUp s.call (.roster members) := by
    simp only [List.any_eq_true, beq_iff_eq]
    constructor
    · exact fun there => ⟨members, rfl, there⟩
    · rintro ⟨_, same, there⟩
      cases same
      exact there
  have quiet : ¬ DeclineMeets s (.roster members) := by
    rintro (⟨events, is, -⟩ | ⟨ring, is, -⟩)
    · cases is
    · cases is
  have waiting (waits : Waits s.call) : (s.call.onRoster members s.now).state =
      if members.any (·.sender == s.call.callee) then .inCall s.now else s.call.state := by
    obtain is | rings := waits
    · rw [moved, is]
    · obtain ⟨sent, lifetime, is⟩ := isRinging_iff.mp rings
      rw [moved, is]
  constructor
  · change _ ≤ (s.call.onRoster members s.now).state.rank
    rw [moved]
    cases s.call.state <;> dsimp only
    all_goals
      try split_ifs
      all_goals simp [DirectCallState.rank]
  · intro reason is
    rw [moved, is]
  · intro waits
    rw [waiting waits, ← picked]
    split_ifs with there
    · exact iff_of_true ⟨s.now, rfl⟩ there
    · exact iff_of_false (fun ⟨since, is⟩ => waits.not_inCall since is) there
  · exact fun is => .inl (onRoster_ended is (by simp))
  · exact fun meets => absurd meets quiet
  · exact fun is => .inl (onRoster_ended is (by simp))
  · exact fun is => nomatch is

theorem lawful_finishLeft : Lawful s .finishLeft { s with call := s.call.finishLeft } := by
  have moved := finishLeft_state s.call
  cases before : s.call.state with
  | sending | ringing | inCall =>
      rw [before] at moved
      refine lawful_of_quiet ?_ (fun reason is => ?_) (fun since is => ?_) (fun is => ?_)
        (fun is => ?_) (by simp) (fun is => nomatch is)
      · simp only [moved, before, DirectCallState.rank]
        decide
      · cases before.symm.trans is
      all_goals cases moved.symm.trans is
  | ended reason =>
      rw [before] at moved
      have same : s.call.finishLeft.state = s.call.state := moved.trans before.symm
      refine lawful_of_quiet (by simp [same]) (fun _ is => same.trans is)
        (fun _ is => same.symm.trans is) (fun is => same.symm.trans is)
        (fun is => .inl (same.symm.trans is)) (by simp) (fun is => nomatch is)

theorem lawful_deadline {job : RingJob} :
    Lawful s .deadline { s with call := s.call.onRingNotSent, job := job } := by
  have moved := onRingNotSent_state s.call
  by_cases sending : s.call.state = .sending
  · rw [if_pos sending] at moved
    refine lawful_of_quiet ?_ (fun reason is => ?_) (fun since is => ?_) (fun is => ?_)
      (fun is => ?_) (by simp) (fun is => nomatch is)
    · simp only [moved, sending, DirectCallState.rank]
      decide
    · cases sending.symm.trans is
    all_goals cases moved.symm.trans is
  · rw [if_neg sending] at moved
    exact lawful_of_quiet (by simp [moved]) (fun _ is => moved.trans is)
      (fun _ is => moved.symm.trans is) (fun is => moved.symm.trans is)
      (fun is => .inl (moved.symm.trans is)) (by simp) (fun is => nomatch is)

theorem lawful_unanswered (inv : Inv s) {wake : ℕ} (at_ : s.job = .ringing wake)
    (due : wake ≤ s.now) {job : RingJob} :
    Lawful s .unanswered { s with call := s.call.onUnanswered, job := job } := by
  obtain ⟨ring, rung, lasts⟩ := inv.timed wake at_
  have moved := onUnanswered_state s.call
  refine lawful_of_quiet ?_ (fun reason is => ?_) (fun since is => ?_) (fun is => ?_)
    (fun _ => .inr ⟨ring, rung, Nat.le_trans lasts due⟩) (by simp) (fun is => nomatch is)
  · dsimp only
    rw [moved]
    cases s.call.state <;> simp [DirectCallState.rank]
  · rw [moved, is]
  · cases before : s.call.state <;> rw [before] at moved <;> cases moved.symm.trans is
    rfl
  · cases before : s.call.state <;> rw [before] at moved <;> cases moved.symm.trans is
    rfl

theorem lawful_roomEvents (inv : Inv s) (events : List RawTimelineEvent) :
    Lawful s (.roomEvents events)
      { s with call := s.call.onRoomEvents events, delivered := s.delivered ++ events } := by
  have moved := onRoomEvents_state s.call events
  have callee : (s.call.onRoomEvents events).callee = s.call.callee := callee_onRoomEvents
  have declined (ring : String) : (events.filter s.call.isDecline).any (relatesTo · ring) = true ↔
      ∃ event ∈ events, Declines s.call event ring := by
    simp only [List.any_eq_true, List.mem_filter, Declines, and_assoc]
  cases before : s.call.state with
  | sending | inCall | ended =>
      rw [before] at moved
      refine lawful_of_still ?_ (by simp) (fun meets => ?_) (fun is => nomatch is)
      · exact moved.trans before.symm
      · obtain ⟨_, -, rings, -⟩ | ⟨_, is, -⟩ := meets
        · simp [DirectCall.isRinging, before] at rings
        · cases is
  | ringing sent lifetime =>
      obtain ⟨ring, known, when_, rung⟩ := inv.rings (by simp [DirectCall.isRinging, before])
      rw [before, known] at moved
      dsimp only at moved
      by_cases there : ∃ event ∈ events, Declines s.call event ring
      · rw [if_pos ((declined ring).mpr there)] at moved
        constructor
        · simp only [moved, before, DirectCallState.rank]
          decide
        · exact fun reason is => nomatch before.symm.trans is
        · refine fun _ => iff_of_false ?_ ?_
          · rintro ⟨since, is⟩
            cases moved.symm.trans is
          · rintro ⟨members, is, -⟩
            cases is
        · obtain ⟨event, member, decline, relates⟩ := there
          refine fun _ => .inr ⟨event, List.mem_append_right _ member, _, rung, ?_, relates⟩
          rw [isDecline_congr callee]
          exact decline
        · exact fun _ => moved
        · exact fun is => nomatch moved.symm.trans is
        · exact fun is => nomatch is
      · rw [if_neg (mt (declined ring).mp there)] at moved
        refine lawful_of_still (moved.trans before.symm) (by simp) (fun meets => ?_)
          (fun is => nomatch is)
        obtain ⟨_, same, -, event, member, other, is, declines⟩ | ⟨_, is, -⟩ := meets
        · cases same
          cases rung.symm.trans is
          exact there ⟨event, member, declines⟩
        · cases is

/-- The ring's id arrives: the call rings, or a held decline is for it. -/
theorem lawful_ringSent (inv : Inv s) {ring : String} {attempt : ℕ}
    (at_ : s.job = .sending attempt) (remembered : Remembered s (.answered (some ring))) :
    Lawful s (.answered (some ring)) (s.ringSent ring) := by
  have moved := onRingSent_state s.call ring s.now s.lifetimeMs
  have callee : (s.ringSent ring).call.callee = s.call.callee := callee_onRingSent
  have none_ := inv.unsent (by simp [System.unsent, at_])
  cases before : s.call.state with
  | ringing =>
      obtain ⟨_, -, _, rung⟩ := inv.rings (by simp [DirectCall.isRinging, before])
      cases none_.symm.trans rung
  | inCall | ended =>
      rw [before] at moved
      refine lawful_of_still (moved.trans before.symm) (by simp) (fun meets => ?_)
        (fun is => nomatch is)
      obtain ⟨_, is, -⟩ | ⟨_, -, is, -⟩ := meets
      · cases is
      · cases before.symm.trans is
  | sending =>
      rw [before] at moved
      dsimp only at moved
      have waits (P : Prop) (no : ¬ P) : (∃ since, (s.ringSent ring).call.state = .inCall since) ↔
          P := by
        refine iff_of_false ?_ no
        rintro ⟨since, is⟩
        have is := moved.symm.trans is
        split_ifs at is
      constructor
      · rw [before]
        exact Nat.zero_le _
      · exact fun reason is => nomatch before.symm.trans is
      · refine fun _ => waits _ ?_
        rintro ⟨members, is, -⟩
        cases is
      · intro is
        have is := moved.symm.trans is
        split_ifs at is with held
        obtain ⟨event, member, relates⟩ := List.any_eq_true.mp held
        obtain ⟨delivered, decline⟩ := inv.held event member
        refine .inr ⟨event, delivered, (ring, s.now), rfl, ?_, relates⟩
        rw [isDecline_congr callee]
        exact decline
      · rintro (⟨_, is, -⟩ | ⟨_, same, -, event, member, declines⟩)
        · cases is
        · cases same
          obtain ⟨held, there, relates⟩ := remembered before ⟨event, member, declines⟩
          exact moved.trans (if_pos (List.any_eq_true.mpr ⟨held, there, relates⟩))
      · intro is
        have is := moved.symm.trans is
        split_ifs at is
        cases is
      · exact fun is => nomatch is

/-- Nothing a ring's id and a decline are matched by changes, and the call does not begin to
ring. -/
structure Quiet (c d : DirectCall) : Prop where
  callee : d.callee = c.callee
  ring : d.ringEventId = c.ringEventId
  held : d.heldDeclines = c.heldDeclines
  ringing : d.isRinging → c.isRinging

theorem quiet_update {f : DirectCall → DirectCall × Option DirectCallState}
    (same : Quiet c (f c).1)
    (unrung : ∀ sent lifetime, (f c).2 ≠ some (.ringing sent lifetime)) :
    Quiet c (c.update f) := by
  obtain ⟨after, next, is⟩ : ∃ after next, f c = (after, next) := ⟨(f c).1, (f c).2, rfl⟩
  rw [is] at same unrung
  unfold DirectCall.update
  split
  · exact ⟨rfl, rfl, rfl, id⟩
  all_goals
    rw [is]
    cases next with
    | none => exact same
    | some state =>
        refine ⟨same.callee, same.ring, same.held, fun rings => ?_⟩
        obtain ⟨sent, lifetime, rings⟩ := isRinging_iff.mp rings
        exact absurd (congrArg some rings) (unrung sent lifetime)

theorem quiet_onRoster {members : List JoinedMembership} {now : ℕ} :
    Quiet c (c.onRoster members now) := by
  refine quiet_update ⟨rfl, rfl, rfl, id⟩ fun sent lifetime is => ?_
  dsimp only at is
  split at is <;> try split_ifs at is
  all_goals cases is

theorem quiet_onRingNotSent : Quiet c c.onRingNotSent := by
  refine quiet_update ⟨rfl, rfl, rfl, id⟩ fun sent lifetime is => ?_
  dsimp only at is
  split_ifs at is
  cases is

theorem quiet_onUnanswered : Quiet c c.onUnanswered := by
  refine quiet_update ⟨rfl, rfl, rfl, id⟩ fun sent lifetime is => ?_
  dsimp only at is
  split at is <;> cases is

theorem quiet_finishLeft : Quiet c c.finishLeft :=
  quiet_update ⟨rfl, rfl, rfl, id⟩ fun _ _ is => nomatch is

theorem mem_foldl_hold {event : RawTimelineEvent} {declines held : List RawTimelineEvent}
    (there : event ∈ declines.foldl DirectCall.hold held) : event ∈ held ∨ event ∈ declines := by
  induction declines generalizing held with
  | nil => exact .inl there
  | cons decline declines ih =>
      obtain kept | later := ih there
      · unfold DirectCall.hold at kept
        split_ifs at kept
        · obtain kept | is := List.mem_append.mp kept
          · exact .inl kept
          · exact .inr (List.mem_singleton.mp is ▸ List.mem_cons_self)
        · exact .inl kept
      · exact .inr (List.mem_cons_of_mem _ later)

theorem onRoomEvents_held {events : List RawTimelineEvent} {event : RawTimelineEvent}
    (there : event ∈ (c.onRoomEvents events).heldDeclines) :
    event ∈ c.heldDeclines ∨ event ∈ events ∧ c.isDecline event := by
  obtain ⟨own, callee, seen, ring, held, state⟩ := c
  cases state with
  | sending => exact (mem_foldl_hold there).imp_right List.mem_filter.mp
  | inCall | ended => exact .inl there
  | ringing =>
      simp only [DirectCall.onRoomEvents, DirectCall.update] at there
      split at there <;> exact .inl there

theorem onRoomEvents_ringEventId {events : List RawTimelineEvent} :
    (c.onRoomEvents events).ringEventId = c.ringEventId := by
  obtain ⟨own, callee, seen, ring, held, state⟩ := c
  cases state with
  | sending | inCall | ended => rfl
  | ringing =>
      simp only [DirectCall.onRoomEvents, DirectCall.update]
      split <;> rfl

theorem onRoomEvents_isRinging {events : List RawTimelineEvent}
    (rings : (c.onRoomEvents events).isRinging) : c.isRinging := by
  obtain ⟨sent, lifetime, is⟩ := isRinging_iff.mp rings
  rw [onRoomEvents_state] at is
  refine isRinging_iff.mpr ?_
  split at is
  · next before _ => exact ⟨_, _, before⟩
  · exact ⟨_, _, is⟩

theorem Inv.of_quiet (inv : Inv s) (quiet : Quiet s.call t.call) (rung : t.rung = s.rung)
    (delivered : t.delivered = s.delivered) (lifetime : t.lifetimeMs = s.lifetimeMs)
    (unsent : t.unsent → s.unsent) (timed : ∀ wake, t.job = .ringing wake → s.job = .ringing wake) :
    Inv t where
  unsent is := rung.trans (inv.unsent (unsent is))
  rings is := by
    rw [quiet.ring, rung]
    exact inv.rings (quiet.ringing is)
  timed wake is := by
    rw [rung, lifetime]
    exact inv.timed wake (timed wake is)
  held event there := by
    rw [delivered, isDecline_congr quiet.callee]
    exact inv.held event (quiet.held ▸ there)

theorem inv_roomEvents (inv : Inv s) (events : List RawTimelineEvent) :
    Inv { s with call := s.call.onRoomEvents events, delivered := s.delivered ++ events } where
  unsent := inv.unsent
  rings is := by
    rw [onRoomEvents_ringEventId]
    exact inv.rings (onRoomEvents_isRinging is)
  timed := inv.timed
  held event there := by
    rw [isDecline_congr callee_onRoomEvents]
    obtain held | ⟨member, decline⟩ := onRoomEvents_held there
    · obtain ⟨delivered, decline⟩ := inv.held event held
      exact ⟨List.mem_append_left _ delivered, decline⟩
    · exact ⟨List.mem_append_right _ member, decline⟩

theorem inv_ringSent (inv : Inv s) {attempt : ℕ} (at_ : s.job = .sending attempt) (ring : String) :
    Inv (s.ringSent ring) := by
  have none_ := inv.unsent (by simp [System.unsent, at_])
  have moved := onRingSent_state s.call ring s.now s.lifetimeMs
  constructor
  · intro is
    simp only [System.unsent, System.ringSent] at is
    split_ifs at is
  · intro rings
    refine ⟨ring, ?_, s.now, rfl⟩
    have before : s.call.state = .sending := by
      by_contra away
      obtain ⟨sent, lifetime, is⟩ := isRinging_iff.mp rings
      obtain ⟨_, -, _, rung⟩ := inv.rings <| isRinging_iff.mpr <| by
        cases before : s.call.state with
        | sending => exact absurd before away
        | ringing => exact ⟨_, _, rfl⟩
        | inCall | ended =>
            rw [before] at moved
            exact ⟨_, _, moved.symm.trans is⟩
      cases none_.symm.trans rung
    simp only [System.ringSent, DirectCall.onRingSent, DirectCall.update, before]
  · intro wake is
    refine ⟨(ring, s.now), rfl, ?_⟩
    simp only [System.ringSent] at is
    split_ifs at is
    cases is
    exact Nat.le_refl _
  · intro event there
    have callee : (s.ringSent ring).call.callee = s.call.callee := callee_onRingSent
    rw [isDecline_congr callee]
    refine inv.held event ?_
    obtain ⟨now, lifetime, ⟨own, callee, seen, ringId, held, state⟩, job⟩ := s
    cases state with
    | sending => cases there
    | ringing | inCall | ended => exact there

theorem inv_start (setup : Setup) : Inv (start setup) where
  unsent _ := rfl
  rings is := by
    obtain ⟨sent, lifetime, is⟩ := isRinging_iff.mp is
    simp only [start, DirectCall.new, initialState, if_true] at is
    split_ifs at is
  timed wake is := by
    simp only [start] at is
    split_ifs at is
  held _ there := nomatch there

theorem inv_step (inv : Inv s) (next : step s a = some t) : Inv t := by
  cases a with
  | tick ms =>
      cases next
      exact inv.of_quiet ⟨rfl, rfl, rfl, id⟩ rfl rfl rfl id fun _ => id
  | roster members =>
      cases next
      exact inv.of_quiet quiet_onRoster rfl rfl rfl id fun _ => id
  | roomEvents events =>
      cases next
      exact inv_roomEvents inv events
  | finishLeft =>
      cases next
      exact inv.of_quiet quiet_finishLeft rfl rfl rfl id fun _ => id
  | attempt =>
      cases at_ : s.job <;> simp only [step, at_] at next <;> cases next
      exact inv.of_quiet ⟨rfl, rfl, rfl, id⟩ rfl rfl rfl (fun _ => by simp [System.unsent, at_])
        fun _ is => nomatch is
  | answered ring =>
      cases at_ : s.job with
      | due | waiting | ringing | done => simp only [step, at_] at next; cases next
      | sending attempt =>
          cases ring with
          | none =>
              simp only [step, at_] at next
              cases next
              exact inv.of_quiet ⟨rfl, rfl, rfl, id⟩ rfl rfl rfl
                (fun _ => by simp [System.unsent, at_]) fun _ is => nomatch is
          | some ring =>
              simp only [step, at_] at next
              cases next
              exact inv_ringSent inv at_ ring
  | waited =>
      cases at_ : s.job <;> simp only [step, at_] at next <;> try cases next
      split_ifs at next
      cases next
      exact inv.of_quiet ⟨rfl, rfl, rfl, id⟩ rfl rfl rfl (fun _ => by simp [System.unsent, at_])
        fun _ is => nomatch is
  | deadline =>
      simp only [step] at next
      split_ifs at next
      cases next
      exact inv.of_quiet quiet_onRingNotSent rfl rfl rfl (fun is => nomatch is)
        fun _ is => nomatch is
  | leftState =>
      cases at_ : s.job <;> simp only [step, at_] at next <;> try cases next
      all_goals
        split_ifs at next
        cases next
        exact inv.of_quiet ⟨rfl, rfl, rfl, id⟩ rfl rfl rfl (fun is => nomatch is)
          fun _ is => nomatch is
  | unanswered =>
      cases at_ : s.job <;> simp only [step, at_] at next <;> try cases next
      split_ifs at next
      cases next
      exact inv.of_quiet quiet_onUnanswered rfl rfl rfl (fun is => nomatch is)
        fun _ is => nomatch is

/-- A step keeps to the lifecycle exactly where the declines are remembered, and an attempt
is for a call in `Sending`. -/
theorem lawful_iff (inv : Inv s) (next : step s a = some t) :
    Lawful s a t ↔ Remembered s a ∧ (a = .attempt → s.call.state = .sending) := by
  have other {b : Action} (away : b ≠ .attempt) :
      (Remembered s b ∧ (b = .attempt → s.call.state = .sending)) ↔ Remembered s b :=
    and_iff_left fun is => absurd is away
  cases a with
  | tick ms =>
      cases next
      exact iff_of_true (lawful_of_call rfl (by simp) (by simp)) ⟨trivial, by simp⟩
  | roster members =>
      cases next
      exact iff_of_true (lawful_roster members) ⟨trivial, by simp⟩
  | roomEvents events =>
      cases next
      exact iff_of_true (lawful_roomEvents inv events) ⟨trivial, by simp⟩
  | finishLeft =>
      cases next
      exact iff_of_true lawful_finishLeft ⟨trivial, by simp⟩
  | attempt =>
      cases at_ : s.job <;> simp only [step, at_] at next <;> cases next
      have unsent := inv.unsent (by simp [System.unsent, at_])
      constructor
      · exact fun lawful => ⟨trivial, fun is => (lawful.attempts is).1⟩
      · exact fun sending => lawful_of_call rfl (by simp) fun is => ⟨sending.2 is, unsent⟩
  | answered ring =>
      rw [other (by simp)]
      cases at_ : s.job with
      | due | waiting | ringing | done => simp only [step, at_] at next; cases next
      | sending attempt =>
          cases ring with
          | none =>
              simp only [step, at_] at next
              cases next
              exact iff_of_true (lawful_of_call rfl (by simp) (by simp)) trivial
          | some ring =>
              simp only [step, at_] at next
              cases next
              refine ⟨fun lawful before declined => ?_, lawful_ringSent inv at_⟩
              have ended := lawful.declined (.inr ⟨ring, rfl, before, declined⟩)
              rw [System.ringSent, onRingSent_state, before] at ended
              dsimp only at ended
              split_ifs at ended with held
              exact List.any_eq_true.mp held
  | waited =>
      cases at_ : s.job <;> simp only [step, at_] at next <;> try cases next
      split_ifs at next
      cases next
      exact iff_of_true (lawful_of_call rfl (by simp) (by simp)) ⟨trivial, by simp⟩
  | deadline =>
      simp only [step] at next
      split_ifs at next
      cases next
      exact iff_of_true lawful_deadline ⟨trivial, by simp⟩
  | leftState =>
      cases at_ : s.job <;> simp only [step, at_] at next <;> try cases next
      all_goals
        split_ifs at next
        cases next
        exact iff_of_true (lawful_of_call rfl (by simp) (by simp)) ⟨trivial, by simp⟩
  | unanswered =>
      cases at_ : s.job <;> simp only [step, at_] at next <;> try cases next
      split_ifs at next with due
      cases next
      exact iff_of_true (lawful_unanswered inv at_ due) ⟨trivial, by simp⟩

/-- An attempt is due to a call that has left `Sending`. -/
def Overdue (s : System) : Prop := attemptDue s ∧ s.call.state ≠ .sending

/-- A job that is done attempts nothing any more. -/
theorem attempt_of_done {as : List Action} (done : s.job = .done) (h : run step s as = some t) :
    ∀ b ∈ as, b ≠ .attempt := by
  induction as generalizing s with
  | nil => exact fun _ there => absurd there List.not_mem_nil
  | cons a as ih =>
      obtain ⟨u, next, later⟩ := run_cons.mp h
      have stays : u.job = .done ∧ a ≠ .attempt := by
        cases a with
        | tick | roster | roomEvents | finishLeft =>
            cases next
            exact ⟨done, by simp⟩
        | attempt | waited | leftState | unanswered => simp [step, done] at next
        | answered => simp [step, done] at next
        | deadline => simp [step, System.unsent, done] at next
      rintro b there rfl
      obtain is | there := List.mem_cons.mp there
      · exact stays.2 is.symm
      · exact ih stays.1 later _ there rfl

/-- What an attempt that is due to no call in `Sending` comes from, and what becomes of it. -/
structure Traced (s : System) (a : Action) (t : System) : Prop where
  brought : Overdue t → Overtakes s a ∨ Overdue s
  brings : Overtakes s a → Overdue t
  stays : Overdue s → a ≠ .attempt → Overdue t ∨ t.job = .done

/-- The job stands where it stood; the call may have left `Sending` by the step. -/
theorem traced_of_call {P : Prop} (job : t.job = s.job)
    (call : t.call.state = .sending ↔ s.call.state = .sending ∧ ¬P)
    (overtakes : Overtakes s a ↔ attemptDue s ∧ s.call.state = .sending ∧ P) :
    Traced s a t := by
  have due : attemptDue t = attemptDue s := by rw [attemptDue, attemptDue, job]
  constructor
  · rintro ⟨is_due, away⟩
    rw [due] at is_due
    by_cases sending : s.call.state = .sending
    · refine .inl (overtakes.mpr ⟨is_due, sending, ?_⟩)
      exact by_contra fun not => away (call.mpr ⟨sending, not⟩)
    · exact .inr ⟨is_due, sending⟩
  · intro overtaken
    obtain ⟨is_due, -, leaves⟩ := overtakes.mp overtaken
    exact ⟨due ▸ is_due, fun is => (call.mp is).2 leaves⟩
  · rintro ⟨is_due, away⟩ -
    exact .inl ⟨due ▸ is_due, fun is => away (call.mp is).1⟩

/-- The job goes on elsewhere than to an attempt that is due. -/
theorem traced_of_job (elsewhere : attemptDue t = false) (other : ¬Overtakes s a)
    (from_ : attemptDue s = false ∨ a = .attempt ∨ t.job = .done) : Traced s a t where
  brought overdue := by simp [Overdue, elsewhere] at overdue
  brings overtakes := absurd overtakes other
  stays overdue away := by
    obtain idle | is | done := from_
    · simp [Overdue, idle] at overdue
    · exact absurd is away
    · exact .inr done

theorem onRoster_sending {members : List JoinedMembership} {now : ℕ} :
    (c.onRoster members now).state = .sending ↔
      c.state = .sending ∧ ¬∃ member ∈ members, member.sender = c.callee := by
  have picked : (members.any (·.sender == c.callee)) = true ↔
      ∃ member ∈ members, member.sender = c.callee := by
    simp only [List.any_eq_true, beq_iff_eq]
  rw [onRoster_state, ← picked]
  cases c.state with
  | ended => simp
  | sending | ringing | inCall =>
      dsimp only
      split_ifs with leaves <;> simp [leaves]

theorem onRoomEvents_sending {events : List RawTimelineEvent} :
    (c.onRoomEvents events).state = .sending ↔ c.state = .sending := by
  rw [onRoomEvents_state]
  split
  · next rings _ => split_ifs <;> simp [rings]
  · rfl

theorem finishLeft_away : c.finishLeft.state ≠ .sending := by
  rw [finishLeft_state]
  cases is : c.state <;> simp

theorem traced_step (next : step s a = some t) : Traced s a t := by
  cases a with
  | tick ms =>
      cases next
      exact traced_of_call (P := False) rfl (by simp) (by simp [Overtakes])
  | roster members =>
      cases next
      exact traced_of_call rfl onRoster_sending Iff.rfl
  | roomEvents events =>
      cases next
      refine traced_of_call (P := False) rfl ?_ (by simp [Overtakes])
      simpa using onRoomEvents_sending
  | finishLeft =>
      cases next
      refine traced_of_call (P := True) rfl ?_ (by simp [Overtakes])
      simpa using finishLeft_away
  | attempt =>
      cases at_ : s.job <;> simp only [step, at_] at next <;> cases next
      exact traced_of_job rfl id (.inr (.inl rfl))
  | answered ring =>
      cases at_ : s.job with
      | due | waiting | ringing | done => simp only [step, at_] at next; cases next
      | sending attempt =>
          have idle : attemptDue s = false := by rw [attemptDue, at_]
          cases ring with
          | none =>
              simp only [step, at_] at next
              cases next
              exact traced_of_job rfl id (.inl idle)
          | some ring =>
              simp only [step, at_] at next
              cases next
              refine traced_of_job ?_ id (.inl idle)
              simp only [attemptDue, System.ringSent]
              split_ifs <;> rfl
  | waited =>
      cases at_ : s.job <;> simp only [step, at_] at next <;> try cases next
      split_ifs at next
      cases next
      have idle : attemptDue s = false := by rw [attemptDue, at_]
      constructor
      · exact fun overdue => .inl overdue.2
      · exact fun away => ⟨rfl, away⟩
      · exact fun overdue => by simp [Overdue, idle] at overdue
  | deadline =>
      simp only [step] at next
      split_ifs at next
      cases next
      exact traced_of_job rfl id (.inr (.inr rfl))
  | leftState =>
      cases at_ : s.job <;> simp only [step, at_] at next <;> try cases next
      all_goals
        split_ifs at next
        cases next
        exact traced_of_job rfl id (.inr (.inr rfl))
  | unanswered =>
      cases at_ : s.job <;> simp only [step, at_] at next <;> try cases next
      split_ifs at next
      cases next
      exact traced_of_job rfl id (.inr (.inr rfl))

end Steps

/-- Every outcome of the step keeps to the lifecycle. -/
def KeepsLifecycle (s : System) (a : Action) : Prop := ∀ t ∈ step s a, Lawful s a t

/-- Along a run that has no attempt for a call that has left `Sending` at its start, each step
keeps to the lifecycle exactly where the run is attended. -/
theorem keepsLifecycle_iff {s t : System} {as : List Action} (inv : Inv s)
    (h : run step s as = some t) :
    Admissible step KeepsLifecycle s as ↔
      Attended s as ∧ (Overdue s → ∀ b ∈ as, b ≠ .attempt) := by
  induction as generalizing s with
  | nil => exact iff_of_true trivial ⟨trivial, fun _ _ there => absurd there List.not_mem_nil⟩
  | cons a as ih =>
      obtain ⟨u, next, later⟩ := run_cons.mp h
      have rest := ih (inv_step inv next) later
      have traced := traced_step next
      have only {P : System → Prop} (holds : P u) (v : System) (other : v ∈ step s a) : P v := by
        obtain rfl : u = v := Option.some.inj (next.symm.trans other)
        exact holds
      have first : KeepsLifecycle s a ↔ Remembered s a ∧ (Overdue s → a ≠ .attempt) := by
        have attempts : (a = .attempt → s.call.state = .sending) ↔ (Overdue s → a ≠ .attempt) := by
          constructor
          · exact fun sending overdue is => overdue.2 (sending is)
          · rintro never rfl
            by_contra away
            refine never ⟨?_, away⟩ rfl
            cases at_ : s.job <;> simp only [step, at_] at next <;> cases next
            rw [attemptDue, at_]
        rw [← attempts, ← lawful_iff inv next]
        exact ⟨fun keeps => keeps u next, only (P := Lawful s a)⟩
      constructor
      · rintro ⟨keeps, adm⟩
        obtain ⟨remembered, now⟩ := first.mp keeps
        obtain ⟨attended, never⟩ := rest.mp (adm u next)
        refine ⟨⟨remembered, fun overtaken => never (traced.brings overtaken), only attended⟩, ?_⟩
        rintro overdue b there
        obtain rfl | there := List.mem_cons.mp there
        · exact now overdue
        · obtain still | done := traced.stays overdue (now overdue)
          · exact never still b there
          · exact attempt_of_done done later b there
      · rintro ⟨⟨remembered, overtaken, attended⟩, never⟩
        refine ⟨first.mpr ⟨remembered, fun overdue => never overdue a List.mem_cons_self⟩,
          only (rest.mpr ⟨attended u next, fun overdue => ?_⟩)⟩
        obtain overtakes | before := traced.brought overdue
        · exact overtaken overtakes
        · exact fun b there => never before b (List.mem_cons_of_mem a there)

theorem start_not_overdue (setup : Setup) : ¬Overdue (start setup) := by
  rintro ⟨due, away⟩
  unfold start attemptDue at due
  refine away ?_
  dsimp only at due
  split_ifs at due with sending
  exact sending

/-- Each step of a call that was started with a ring keeps to the lifecycle exactly where no
decline is forgotten, and no attempt follows a step that overtakes it. -/
theorem direct_calls_lawful (setup : Setup) (as : List Action) (s : System)
    (h : run step (start setup) as = some s) :
    Admissible step KeepsLifecycle (start setup) as ↔ Attended (start setup) as :=
  (keepsLifecycle_iff (inv_start setup) h).trans
    (and_iff_left fun overdue => absurd overdue (start_not_overdue setup))

deriving instance DecidableEq for DirectCalls.Action

instance Remembered.decidable : (s : System) → (a : Action) → Decidable (Remembered s a)
  | s, .answered (some ring) => inferInstanceAs <| Decidable <| s.call.state = .sending →
      (∃ event ∈ s.delivered, Declines s.call event ring) →
        ∃ event ∈ s.call.heldDeclines, relatesTo event ring
  | _, .tick _ | _, .roster _ | _, .roomEvents _ | _, .finishLeft | _, .answered none
  | _, .attempt | _, .waited | _, .deadline | _, .leftState | _, .unanswered => isTrue trivial

instance Overtakes.decidable : (s : System) → (a : Action) → Decidable (Overtakes s a)
  | s, .waited => inferInstanceAs (Decidable (s.call.state ≠ .sending))
  | s, .roster members => inferInstanceAs <| Decidable <| attemptDue s ∧
      s.call.state = .sending ∧ ∃ member ∈ members, member.sender = s.call.callee
  | s, .finishLeft => inferInstanceAs (Decidable (attemptDue s ∧ s.call.state = .sending))
  | _, .tick _ | _, .roomEvents _ | _, .answered _ | _, .attempt | _, .deadline
  | _, .leftState | _, .unanswered => isFalse id

instance Attended.decidable : (s : System) → (as : List Action) → Decidable (Attended s as)
  | _, [] => isTrue trivial
  | s, a :: as =>
      have : DecidablePred fun t => Attended t as := fun t => Attended.decidable t as
      inferInstanceAs <| Decidable <| Remembered s a ∧
        (Overtakes s a → ∀ b ∈ as, b ≠ .attempt) ∧ ∀ t ∈ step s a, Attended t as

/-- A DM call to Bob, started with a ring. -/
def callToBob : Setup :=
  { ownUserId := "@alice:x"
    ownDeviceId := "LAPTOP"
    callee := "@bob:x"
    members := []
    lifetimeMs := 90000
    now := 0 }

/-- Bob declines the ring with this id. -/
def bobDeclines (eventId ring : String) : RawTimelineEvent :=
  { roomId := "!dm:x"
    eventId := eventId
    sender := "@bob:x"
    origin := .encrypted none
    eventType := "m.rtc.decline"
    originServerTs := 0
    content := .obj [("m.relates_to",
      .obj [("rel_type", .str "m.reference"), ("event_id", .str ring)])] }

/-- The decline comes before the id of the ring, after one of another ring. -/
theorem direct_calls_lawful_declined :
    Admissible step KeepsLifecycle (start callToBob)
      [.attempt, .answered none, .tick 1000, .waited, .attempt,
        .roomEvents [bobDeclines "$d1" "$old", bobDeclines "$d2" "$ring"],
        .answered (some "$ring")] :=
  (direct_calls_lawful callToBob _ _ (Option.some_get (by decide +kernel)).symm).mpr
    (by decide +kernel)

/-- Bob declines eight rings of old first, and his decline of this ring is forgotten; and a
second attempt goes out to a call that Bob has picked up. -/
theorem decline_forgotten_and_ring_resent :
    ¬ Admissible step KeepsLifecycle (start callToBob)
        [.attempt,
          .roomEvents (["$1", "$2", "$3", "$4", "$5", "$6", "$7", "$8"].map
            (bobDeclines · "$old") ++ [bobDeclines "$9" "$ring"]),
          .answered (some "$ring")] ∧
      ¬ Admissible step KeepsLifecycle (start callToBob)
        [.attempt, .answered none, .tick 1000, .waited,
          .roster [
            { roomId := "!dm:x"
              slotId := "m.call#ROOM"
              sender := "@bob:x"
              origin := .unknown
              stickyKey := "bob"
              memberId := "bob"
              membershipEventId := none
              membershipTs := none
              originServerTs := none
              application := { type := some "m.call", extra := [] }
              transports := []
              canSubscribe := [] }],
          .attempt] :=
  have forgotten {as : List Action} (runs : (run step (start callToBob) as).isSome)
      (not : ¬Attended (start callToBob) as) :
      ¬Admissible step KeepsLifecycle (start callToBob) as :=
    fun keeps => not ((keepsLifecycle_iff (inv_start _) (Option.some_get runs).symm).mp keeps).1
  ⟨forgotten (by decide +kernel) (by decide +kernel),
    forgotten (by decide +kernel) (by decide +kernel)⟩

end MatrixRtc.DirectLifecycles

import MatrixRtc.RoomFeeder
import MatrixRtc.StickyBatches
import MatrixRtc.RoomStateMembers
import MatrixRtc.SessionInvariants

/-!
# Stated lifetimes

A membership in room state names its own end, and the feeder of a room read that way
looks at the end only when it applies a membership: at a delivery. Between deliveries it
waits for the next one and for the end of a hold, which applies no membership. This
module runs the feeder under a clock that goes on while it waits. The clock is the wall
clock of the expiry; holds run on the instants of the inputs.
-/
namespace MatrixRtc.StatedLifetimes
open StepRuns MemberEvents MemberIngest RoomSlots SlotSessions BaseRooms RoomFeeder
open StickyBatches RoomStateMembers SessionInvariants

/-- How the room is read at a clock reading. -/
def roomState (clock : ℕ) : IngestDialect :=
  MembershipFormat.roomState.dialect (toCoreStateMemberships clock)

/-- A membership read out of a state event, and the end of its stated lifetime. -/
abbrev Stated := JoinedMembership × ℕ

/-- The end of the lifetime that a state event states. -/
def statedDeadline (event : LegacyStateMemberEventIn) : ℕ :=
  ((event.content.asObject).map fun object => deadline object event.originServerTs).getD 0

/-- What the feeder applies of one state event, next to the others and to the sticky
memberships, which win over it. -/
def statedMembership (clock : ℕ) (roomId : String) (sticky : List RawStickyEvent)
    (events : List LegacyStateMemberEventIn) (event : LegacyStateMemberEventIn) : Option Stated :=
  (parse event clock).bind fun member =>
    (toCoreStateMembership roomId
      (translateMembership (events.filterMap (parse · clock)) member)).bind fun raw =>
    if raw.content.stickyKey ∈ sticky.map (·.content.stickyKey) then none
    else
      match raw.membershipEvent with
      | .joined joined => some (joined, statedDeadline event)
      | .left _ => none

/-- What the feeder applies of its membership state. -/
def statedMemberships (clock : ℕ) (r : RoomFeederRun) : List Stated :=
  let events := (r.membershipState.flatMap (·.2)).filterMap toLegacyStateMemberEventIn
  let sticky := ((r.sticky.getD []).map toMemberEventIn).filterMap
    (toCoreMemberEvent r.room.roomId)
  events.filterMap (statedMembership clock r.room.roomId sticky events)

/-- The feeder, the wall clock, and each membership applied from a state event with the
end it stated last. -/
structure LifetimeRun where
  feeder : RoomFeederRun
  clock : ℕ
  applied : List Stated

def LifetimeRun.start (roomId : String) (clock : ℕ) : LifetimeRun := ⟨.start roomId, clock, []⟩

/-- The clock goes to a reading while the feeder waits, or an input is handled at the
clock's reading and at an instant of the timers. -/
inductive Action where
  | wait (clock : ℕ)
  | input (instant : ℕ) (input : RoomInput)

section
variable (ownUserId : String)

/-- The room takes the membership that the feeder would apply now. -/
def taken (r : RoomFeederRun) (clock instant : ℕ) : Bool :=
  (r.room.setCurrentStickyState instant
    ((roomState clock).currentMembership r.room.roomId (r.sticky.getD [])
      (r.membershipState.flatMap (·.2)))).2.isOk

/-- The memberships applied after a delivery; one applied again states its end anew. -/
def LifetimeRun.appliedAfter (s : LifetimeRun) (instant : ℕ) (input : RoomInput) : List Stated :=
  let told := s.feeder.onInput (roomState s.clock) ownUserId input
  if told.membershipDirty && told.gateOpen (roomState s.clock) && taken told s.clock instant then
    let stated := statedMemberships s.clock told
    stated ++ s.applied.filter fun entry => entry.1 ∉ stated.map (·.1)
  else s.applied

def LifetimeRun.step (s : LifetimeRun) : Action → Option LifetimeRun
  | .wait clock => some { s with clock := clock }
  | .input instant input =>
      (s.feeder.step (roomState s.clock) ownUserId (instant, input)).map fun feeder =>
        match input with
        | .encryption _ | .members _ | .sticky _ | .state .. =>
            { s with feeder := feeder, applied := s.appliedAfter ownUserId instant input }
        | .holdsEnded | .joined .. | .left _ | .observed _ => { s with feeder := feeder }

end

/-- Every stated end of the membership is still ahead at the clock reading. -/
def Ahead (applied : List Stated) (clock : ℕ) (m : JoinedMembership) : Prop :=
  ∀ entry ∈ applied, entry.1 = m → clock < entry.2

/-- Every joined member that was read out of a state event has its stated end ahead. -/
def OnTime (s : LifetimeRun) : Prop :=
  ∀ slot session, s.feeder.room.sessions slot = some session →
    ∀ m ∈ session.members, Ahead s.applied s.clock m

/-- While the feeder waits, the clock does not reach the stated end of a membership that a
session still has as a candidate. -/
def NoneEnds (s : LifetimeRun) : Action → Prop
  | .wait clock =>
      ∀ slot session, s.feeder.room.sessions slot = some session →
        ∀ c ∈ session.candidates, Ahead s.applied clock c
  | .input _ _ => True

/-- The joined members are candidates, and every candidate has the property. -/
def Holding (A : JoinedMembership → Prop) (s : SlotSession) : Prop :=
  (∀ m ∈ s.members, m ∈ s.candidates) ∧ ∀ c ∈ s.candidates, A c

section Sessions
variable {A B : JoinedMembership → Prop} {s : SlotSession}

theorem Holding.imp (h : Holding A s) (weaken : ∀ c, A c → B c) : Holding B s :=
  ⟨h.1, fun c hc => weaken c (h.2 c hc)⟩

theorem refresh_holding (h : ∀ c ∈ s.candidates, A c) : Holding A s.refresh :=
  ⟨fun _ hm => List.mem_of_mem_filter hm, h⟩

theorem seeded_holding (r : BaseRtcRoom) (slot : String) : Holding A (r.seeded slot) :=
  ⟨fun _ hm => absurd hm List.not_mem_nil, fun _ hc => absurd hc List.not_mem_nil⟩

theorem setRoomEncryption_holding (h : Holding A s) (encryption : RoomEncryption) :
    Holding A (s.setRoomEncryption encryption) := by
  unfold SlotSession.setRoomEncryption
  split_ifs
  · exact h
  · exact refresh_holding h.2

theorem holding_kept : Kept (Holding A) where
  expireHolds := by
    intro s now h
    unfold SlotSession.expireHolds
    dsimp only
    split_ifs
    · exact h
    · exact refresh_holding fun c hc => h.2 c (List.mem_of_mem_filter hc)
  leave := fun _ h => refresh_holding h.2
  join := by
    intro s own started h
    unfold SlotSession.join
    dsimp only
    split_ifs
    · exact refresh_holding h.2
    · exact h
  setSlotState := by
    intro s state h
    unfold SlotSession.setSlotState
    dsimp only
    split_ifs
    · exact h
    · exact refresh_holding h.2
    · exact refresh_holding h.2
  setRoomMembers := by
    intro s members h
    unfold SlotSession.setRoomMembers
    split_ifs
    · exact h
    · exact refresh_holding h.2

theorem mem_replaceOrPush {joined c : JoinedMembership} {candidates : List JoinedMembership}
    (h : c ∈ SlotSession.replaceOrPush joined candidates) : c = joined ∨ c ∈ candidates := by
  induction candidates with
  | nil => exact Or.inl (List.mem_singleton.mp h)
  | cons first rest ih =>
      simp only [SlotSession.replaceOrPush] at h
      split_ifs at h
      · obtain rfl | later := List.mem_cons.mp h
        · exact Or.inl rfl
        · exact Or.inr (List.mem_cons_of_mem _ later)
      · obtain rfl | later := List.mem_cons.mp h
        · exact Or.inr List.mem_cons_self
        · exact (ih later).imp_right (List.mem_cons_of_mem _)

/-- A candidate after one event of a complete state was one already, was one of the
previous set, or is the event's. -/
theorem mem_rebuild {previous : SlotSession} {now : ℕ} {event : RtcMembershipEvent}
    {c : JoinedMembership} (h : c ∈ (SlotSession.rebuild previous now s event).candidates) :
    c ∈ s.candidates ∨ c ∈ previous.candidates ∨ event = .joined c := by
  unfold SlotSession.rebuild at h
  cases kept : SlotSession.heldCandidate previous s event with
  | some found =>
      obtain ⟨candidate, left⟩ := found
      rw [kept] at h
      obtain before | rfl := by simpa using h
      · exact Or.inl before
      · unfold SlotSession.heldCandidate at kept
        cases event with
        | joined joined => cases kept
        | left l =>
            simp only at kept
            split_ifs at kept
            obtain ⟨candidate, found, same⟩ := Option.map_eq_some_iff.mp kept
            cases same
            exact Or.inr (Or.inl (List.mem_of_find?_eq_some found))
  | none =>
      rw [kept] at h
      cases event with
      | joined joined =>
          obtain rfl | before := mem_replaceOrPush h
          · exact Or.inr (Or.inr rfl)
          · exact Or.inl before
      | left left =>
          simp only [SlotSession.recordMembershipEvent] at h
          split_ifs at h
          · exact Or.inl h
          · exact Or.inl h
          · exact Or.inl (List.mem_of_mem_filter h)

theorem mem_foldl_rebuild {previous : SlotSession} {now : ℕ} {events : List RtcMembershipEvent}
    {c : JoinedMembership}
    (h : c ∈ (events.foldl (SlotSession.rebuild previous now) s).candidates) :
    c ∈ s.candidates ∨ c ∈ previous.candidates ∨ .joined c ∈ events := by
  induction events generalizing s with
  | nil => exact Or.inl h
  | cons event rest ih =>
      obtain now_here | earlier | later := ih h
      · obtain before | earlier | rfl := mem_rebuild now_here
        · exact Or.inl before
        · exact Or.inr (Or.inl earlier)
        · exact Or.inr (Or.inr List.mem_cons_self)
      · exact Or.inr (Or.inl earlier)
      · exact Or.inr (Or.inr (List.mem_cons_of_mem _ later))

theorem setCurrentState_holding (h : Holding A s) (weaken : ∀ c, A c → B c) {now : ℕ}
    {events : List RtcMembershipEvent} (joins : ∀ c, .joined c ∈ events → B c) :
    Holding B (s.setCurrentState now events) := by
  refine refresh_holding fun c hc => ?_
  obtain none_left | earlier | joined := mem_foldl_rebuild hc
  · exact absurd none_left List.not_mem_nil
  · exact weaken c (h.2 c earlier)
  · exact joins c joined

end Sessions

section Applied
variable {clock : ℕ} {r : RoomFeederRun}

/-- What is applied from a state event is alive at the reading it was applied at. -/
theorem statedMembership_spec {roomId : String} {sticky : List RawStickyEvent}
    {events : List LegacyStateMemberEventIn} {event : LegacyStateMemberEventIn} {entry : Stated}
    (h : statedMembership clock roomId sticky events event = some entry) :
    clock < entry.2 ∧ entry.1.originServerTs = none := by
  obtain ⟨member, parsed, h⟩ := Option.bind_eq_some_iff.mp h
  obtain ⟨raw, hraw, h⟩ := Option.bind_eq_some_iff.mp h
  have unstamped : raw.originServerTs = none := by
    obtain ⟨content, -, rfl⟩ := Option.map_eq_some_iff.mp hraw
    rfl
  split_ifs at h
  cases joins : raw.membershipEvent with
  | left left => simp [joins] at h
  | joined joined =>
      simp only [joins, Option.some.injEq] at h
      subst h
      obtain ⟨object, _, _, content, -, -, -, alive, -⟩ := parse_eq_some.mp parsed
      obtain ⟨memberId, rfl⟩ := RawStickyEvent.membershipEvent_joined joins
      refine ⟨?_, unstamped⟩
      simpa [statedDeadline, content, JsonValues.Json.asObject] using alive

theorem statedMemberships_spec {entry : Stated} (h : entry ∈ statedMemberships clock r) :
    clock < entry.2 ∧ entry.1.originServerTs = none := by
  obtain ⟨event, -, h⟩ := List.mem_filterMap.mp h
  exact statedMembership_spec h

/-- A join that the feeder applies is a sticky one, or is one of those stated. -/
theorem currentMembership_join {raw : RawStickyEvent} {joined : JoinedMembership}
    (h : raw ∈ (roomState clock).currentMembership r.room.roomId (r.sticky.getD [])
      (r.membershipState.flatMap (·.2)))
    (joins : raw.membershipEvent = .joined joined) :
    joined.originServerTs ≠ none ∨ joined ∈ (statedMemberships clock r).map (·.1) := by
  have stamped : raw ∈ ((r.sticky.getD []).map toMemberEventIn).filterMap
      (toCoreMemberEvent r.room.roomId) → joined.originServerTs ≠ none := by
    intro hraw
    obtain ⟨_, he, converted⟩ := List.mem_filterMap.mp hraw
    obtain ⟨e, -, rfl⟩ := List.mem_map.mp he
    obtain ⟨memberId, rfl⟩ := RawStickyEvent.membershipEvent_joined joins
    unfold toCoreMemberEvent at converted
    split at converted
    · cases converted
    · obtain ⟨content, -, rfl⟩ := Option.map_eq_some_iff.mp converted
      simp [RawStickyEvent.intoJoined, toMemberEventIn]
  simp only [roomState, MembershipFormat.dialect, mergeCurrentMembership] at h
  split_ifs at h with nothing
  · exact Or.inl (stamped h)
  · obtain sticky | state := List.mem_append.mp h
    · exact Or.inl (stamped sticky)
    · right
      obtain ⟨translated, unseen⟩ := List.mem_filter.mp state
      obtain ⟨membership, hmembership, hraw⟩ := List.mem_filterMap.mp translated
      obtain ⟨member, hmember, rfl⟩ := List.mem_map.mp hmembership
      obtain ⟨event, hevent, parsed⟩ := List.mem_filterMap.mp hmember
      refine List.mem_map.mpr ⟨(joined, statedDeadline event),
        List.mem_filterMap.mpr ⟨event, hevent, ?_⟩, rfl⟩
      have unseen' := of_decide_eq_true unseen
      simp only [statedMembership, parsed, Option.bind_some, hraw, if_neg unseen', joins]

theorem batch_join {room : BaseRtcRoom} {events : List RawStickyEvent} {batches : Batches}
    (hroute : room.route (fun _ => none) events = .ok batches) {slot : String}
    {batch : List RtcMembershipEvent} (hbatch : batches slot = some batch)
    {joined : JoinedMembership} (h : .joined joined ∈ batch) :
    ∃ raw ∈ events, raw.membershipEvent = .joined joined := by
  refine route_forall (P := fun event => ∃ raw ∈ events, raw.membershipEvent = event)
    (fun e he event converted => ⟨e, he, ?_⟩) (fun _ _ none => by cases none) hroute slot batch
    hbatch _ h
  unfold tryConvertMembershipEvent RawStickyEvent.tryIntoMembershipEvent at converted
  cases check : e.checkConvertible with
  | ok _ => simpa [check, Except.toOption] using converted
  | error err => cases err <;> simp [check, Except.toOption] at converted

/-- One input, up to the application of the membership. -/
theorem onInput_holding {A : JoinedMembership → Prop} (dialect : IngestDialect)
    (ownUserId : String) (h : SessionsMeet (Holding A) r.room) (input : RoomInput) :
    SessionsMeet (Holding A) (r.onInput dialect ownUserId input).room := by
  cases input with
  | encryption encrypted =>
      exact onEncryptionReceived_meet holding_kept h encrypted
        (fun _ hs => setRoomEncryption_holding hs _) fun _ _ hs => hs
  | state eventType events =>
      simp only [RoomFeederRun.onInput, RoomFeederRun.onState]
      split_ifs
      · exact onSlotsReceived_meet holding_kept h _
      · exact h
      · exact h
  | members userIds =>
      simp only [RoomFeederRun.onInput, RoomFeederRun.onMembers]
      split_ifs
      · exact onMembersReceived_meet holding_kept h userIds
      · exact h
  | sticky | holdsEnded | joined | left | observed => exact h

/-- Applying what is stated now keeps every candidate's stated end ahead. -/
theorem applyBatches_ahead {applied : List Stated} {instant : ℕ} {batches : Batches}
    (h : SessionsMeet (Holding (Ahead applied clock)) r.room)
    (unstamped : ∀ entry ∈ applied, entry.1.originServerTs = none)
    (hroute : r.room.route (fun _ => none)
      ((roomState clock).currentMembership r.room.roomId (r.sticky.getD [])
        (r.membershipState.flatMap (·.2))) = .ok batches) :
    SessionsMeet
      (Holding (Ahead (statedMemberships clock r ++ applied.filter fun entry =>
        entry.1 ∉ (statedMemberships clock r).map (·.1)) clock))
      (r.room.applyBatches instant (r.room.track batches)) := by
  have weaken : ∀ c, Ahead applied clock c →
      Ahead (statedMemberships clock r ++ applied.filter fun entry =>
        entry.1 ∉ (statedMemberships clock r).map (·.1)) clock c := by
    intro c ahead entry hentry same
    obtain stated | before := List.mem_append.mp hentry
    · exact (statedMemberships_spec stated).1
    · exact ahead entry (List.mem_of_mem_filter before) same
  refine applyBatches_meet (seeded_holding _) h (fun _ hs => hs.imp weaken)
    fun slot batch s hbatch hs => setCurrentState_holding hs weaken fun c hc => ?_
  intro entry hentry same
  obtain stated | before := List.mem_append.mp hentry
  · exact (statedMemberships_spec stated).1
  · obtain ⟨before, fresh⟩ := List.mem_filter.mp before
    have routed : batches slot = some batch := by
      simp only [BaseRtcRoom.track] at hbatch
      split_ifs at hbatch
      · cases named : batches slot with
        | none =>
            simp only [named, Option.getD_none, Option.some.injEq] at hbatch
            subst hbatch
            exact absurd hc List.not_mem_nil
        | some events => simpa [named] using hbatch
      · exact hbatch
    obtain ⟨raw, hraw, joins⟩ := batch_join hroute routed hc
    obtain stamped | again := currentMembership_join hraw joins
    · exact absurd (same ▸ unstamped entry before) stamped
    · exact absurd (same ▸ again) (of_decide_eq_true fresh)

/-- A delivery keeps every candidate's stated end ahead. -/
theorem deliver_ahead (ownUserId : String) {s : LifetimeRun}
    (h : SessionsMeet (Holding (Ahead s.applied s.clock)) s.feeder.room)
    (unstamped : ∀ entry ∈ s.applied, entry.1.originServerTs = none) (instant : ℕ)
    (input : RoomInput) :
    SessionsMeet (Holding (Ahead (s.appliedAfter ownUserId instant input) s.clock))
        (s.feeder.deliver (roomState s.clock) ownUserId instant input).room ∧
      ∀ entry ∈ s.appliedAfter ownUserId instant input, entry.1.originServerTs = none := by
  have told := onInput_holding (roomState s.clock) ownUserId h input
  unfold RoomFeederRun.deliver LifetimeRun.appliedAfter
  generalize s.feeder.onInput (roomState s.clock) ownUserId input = r at *
  dsimp only
  split_ifs with taking applies applies
  · obtain ⟨-, ok⟩ := Bool.and_eq_true_iff.mp taking
    refine ⟨?_, fun entry hentry => ?_⟩
    · simp only [taken, BaseRtcRoom.setCurrentStickyState] at ok
      simp only [RoomFeederRun.applyMembership, BaseRtcRoom.setCurrentStickyState]
      cases hroute : r.room.route (fun _ => none) ((roomState s.clock).currentMembership
          r.room.roomId (r.sticky.getD []) (r.membershipState.flatMap (·.2))) with
      | error err => simp [hroute, Except.isOk, Except.toBool] at ok
      | ok batches => exact applyBatches_ahead told unstamped hroute
    · obtain stated | before := List.mem_append.mp hentry
      · exact (statedMemberships_spec stated).2
      · exact unstamped entry (List.mem_of_mem_filter before)
  · simp_all
  · refine ⟨?_, unstamped⟩
    simp only [RoomFeederRun.applyMembership, BaseRtcRoom.setCurrentStickyState]
    cases hroute : r.room.route (fun _ => none) ((roomState s.clock).currentMembership
        r.room.roomId (r.sticky.getD []) (r.membershipState.flatMap (·.2))) with
    | error err => exact told
    | ok batches =>
        refine absurd ?_ taking
        simp_all [taken, BaseRtcRoom.setCurrentStickyState, Except.isOk, Except.toBool]
  · exact ⟨told, unstamped⟩

end Applied

/-- What admissible runs keep: joined members are candidates, and every candidate's stated
end is ahead. -/
structure Fresh (s : LifetimeRun) : Prop where
  sessions : SessionsMeet (Holding (Ahead s.applied s.clock)) s.feeder.room
  unstamped : ∀ entry ∈ s.applied, entry.1.originServerTs = none

theorem step_fresh {ownUserId : String} {s t : LifetimeRun} {a : Action} (h : Fresh s)
    (ok : NoneEnds s a) (hstep : s.step ownUserId a = some t) : Fresh t := by
  obtain ⟨sessions, unstamped⟩ := h
  cases a with
  | wait clock =>
      cases hstep
      refine ⟨fun slot session hs => ?_, unstamped⟩
      exact ⟨(sessions slot session hs).1, ok slot session hs⟩
  | input instant input =>
      obtain ⟨feeder, hfeeder, rfl⟩ := Option.map_eq_some_iff.mp hstep
      cases input with
      | encryption | members | sticky | state =>
          cases hfeeder
          obtain ⟨kept, stays⟩ := deliver_ahead ownUserId sessions unstamped instant _
          exact ⟨kept, stays⟩
      | holdsEnded =>
          cases hfeeder
          exact ⟨expireHolds_meet holding_kept sessions instant, unstamped⟩
      | joined slotId own started =>
          cases hfeeder
          exact ⟨join_meet holding_kept (seeded_holding _) sessions slotId own started, unstamped⟩
      | left slotId =>
          cases hfeeder
          exact ⟨leave_meet holding_kept sessions slotId, unstamped⟩
      | observed slotId =>
          cases hfeeder
          exact ⟨observeSlot_meet (seeded_holding _) sessions slotId, unstamped⟩

theorem start_fresh (roomId : String) (clock : ℕ) : Fresh (.start roomId clock) :=
  ⟨fun _ _ hs => (by cases hs), fun _ hentry => absurd hentry List.not_mem_nil⟩

/-- A stated lifetime ends on time in the runs in which the feeder never waits past one:
for every room read from its state and every run of deliveries, of what the application
does and of hold timers, under any clock, if no wait takes the clock to the stated end of
a membership that is still a candidate of a session, then in every state of the run each
joined member that was read out of a state event has the smaller of its creation and its
homeserver timestamp, plus its stated lifetime, in the future. -/
theorem stated_lifetime_ends_on_time (roomId ownUserId : String) (clock : ℕ)
    (trace : List Action) (s : LifetimeRun)
    (hrun : run (LifetimeRun.step ownUserId) (.start roomId clock) trace = some s)
    (waits : Admissible (LifetimeRun.step ownUserId) NoneEnds (.start roomId clock) trace) :
    OnTime s := by
  have fresh : Fresh s :=
    run_invariant (fun _ _ _ h ok hstep => step_fresh h ok hstep) (start_fresh roomId clock)
      waits hrun
  intro slot session hs m hm
  obtain ⟨candidates, ahead⟩ := fresh.sessions slot session hs
  exact ahead m (candidates m hm)

section Concrete
open JsonValues

/-- Bob's membership of the room call, created at 1000 for an hour. -/
def bobState : EventIn :=
  { eventId := "$bob"
    sender := "@bob:x"
    eventType := "org.matrix.msc3401.call.member"
    stateKey := some "_@bob:x_B_m.call"
    originServerTs := 1200
    content := .obj
      [("application", .str "m.call"), ("call_id", .str ""), ("device_id", .str "B"),
        ("membershipID", .str "@bob:x:B"), ("created_ts", .num (.posInt 1000)),
        ("expires", .num (.posInt 3600000))]
    encryption := .cleartext }

/-- The room is seeded at 2000 with Bob's membership, and then waits. -/
def seededWithBob (wait : ℕ) : List Action :=
  [.input 0 (.encryption false), .input 0 (.members ["@alice:x", "@bob:x"]), .wait 2000,
    .input 1 (.state "org.matrix.msc3401.call.member" [bobState]), .wait wait]

/-- No wait takes the clock to the end of anything that was applied. -/
def AppliedAhead (s : LifetimeRun) : Action → Prop
  | .wait clock => ∀ entry ∈ s.applied, clock < entry.2
  | .input _ _ => True

instance (s : LifetimeRun) (a : Action) : Decidable (AppliedAhead s a) :=
  match a with
  | .wait clock => inferInstanceAs (Decidable (∀ entry ∈ s.applied, clock < entry.2))
  | .input _ _ => isTrue trivial

theorem noneEnds_of_appliedAhead (s : LifetimeRun) (a : Action) (h : AppliedAhead s a) :
    NoneEnds s a := by
  cases a with
  | wait clock => exact fun _ _ _ _ _ entry hentry _ => h entry hentry
  | input instant input => exact trivial

/-- Bob is joined until his hour has passed. -/
theorem bob_joined_for_an_hour :
    ∃ s ∈ run (LifetimeRun.step "@alice:x") (.start "!r:x" 0) (seededWithBob 3600999),
      (s.feeder.room.sessions "m.call#room").map (fun session => session.members.map (·.sender)) =
        some ["@bob:x"] ∧ OnTime s := by
  have joined : ∃ s ∈ run (LifetimeRun.step "@alice:x") (.start "!r:x" 0)
        (seededWithBob 3600999),
      (s.feeder.room.sessions "m.call#room").map (fun session => session.members.map (·.sender)) =
        some ["@bob:x"] := by
    decide
  obtain ⟨s, hs, senders⟩ := joined
  have waits : Admissible (LifetimeRun.step "@alice:x") AppliedAhead (.start "!r:x" 0)
      (seededWithBob 3600999) := by
    decide
  exact ⟨s, hs, senders, stated_lifetime_ends_on_time "!r:x" "@alice:x" 0 _ s hs
    (waits.mono noneEnds_of_appliedAhead)⟩

/-- Nothing wakes the feeder when Bob's hour has passed: he stays joined, in a session that
holds nothing. -/
theorem not_always_on_time :
    ¬ ∀ (roomId ownUserId : String) (clock : ℕ) (trace : List Action) (s : LifetimeRun),
      run (LifetimeRun.step ownUserId) (.start roomId clock) trace = some s →
        ∀ slot session, s.feeder.room.sessions slot = some session → session.held = [] →
          ∀ m ∈ session.members, Ahead s.applied s.clock m := by
  intro all
  have joined : ∃ s ∈ run (LifetimeRun.step "@alice:x") (.start "!r:x" 0)
        (seededWithBob 3601000),
      ∃ session ∈ s.feeder.room.sessions "m.call#room", session.held = [] ∧
        ∃ m ∈ session.members, ∃ entry ∈ s.applied, entry.1 = m ∧ entry.2 ≤ s.clock := by
    decide
  obtain ⟨s, hs, session, hsession, unheld, m, hm, entry, hentry, same, ended⟩ := joined
  have ahead := all "!r:x" "@alice:x" 0 _ s hs "m.call#room" session hsession unheld m hm
  exact absurd (ahead entry hentry same) (Nat.not_lt.mpr ended)

end Concrete

end MatrixRtc.StatedLifetimes

import MatrixRtc.SlotSessions
import MatrixRtc.StepRuns

/-!
# The operations of one session

Every public operation of a session, one after the other, with the snapshot its
subscribers read. `members` is assigned only where the joined set is recomputed, which
publishes it if it changed; several operations return before that, when they find that
nothing changed.

A join that was refused, or whose membership was not sent, leaves the session as it was.
The encryption manager's own join has no way to fail, so a join that was sent always
recomputes the joined set.
-/
namespace MatrixRtc.SessionOperations
open MemberEvents RoomSlots SlotSessions StepRuns

/-- The sender and sticky key an event is filed under. -/
def keyOf : RtcMembershipEvent → String × String
  | .joined joined => (joined.sender, joined.stickyKey)
  | .left left => (left.sender, left.stickyKey)

/-- The sender and sticky key of a candidate. -/
def candidateKey (c : JoinedMembership) : String × String := (c.sender, c.stickyKey)

/-- What `record_membership_event` reports: whether it changed anything. -/
def recordChanges (s : SlotSession) : RtcMembershipEvent → Bool
  | .joined joined =>
      s.candidates.find? (SlotSession.under (joined.sender, joined.stickyKey)) != some joined
  | .left left =>
      let known := s.candidates.any (SlotSession.under (left.sender, left.stickyKey))
      known && !s.holds left

/-- `update`: one event, and the joined set if it changed anything. -/
def update (s : SlotSession) (now : ℕ) (event : RtcMembershipEvent) : SlotSession :=
  if recordChanges s event then (s.recordMembershipEvent now event).refresh
  else s.recordMembershipEvent now event

inductive Operation where
  | join (own : OwnParticipation) (sent : Bool)
  | leave
  | setCurrentState (now : ℕ) (events : List RtcMembershipEvent)
  | update (now : ℕ) (event : RtcMembershipEvent)
  | expireHolds (now : ℕ)
  | setSlotState (state : SlotState)
  | forgetSlotState
  | setRoomEncryption (encryption : RoomEncryption)
  | setRoomMembers (members : Finset String)

/-- What an operation does to the session. -/
def perform (s : SlotSession) : Operation → SlotSession
  | .join own sent =>
      if sent ∧ s.ownParticipation.map (·.memberId) ≠ some own.memberId then s.join own true else s
  | .leave => if s.ownParticipation.isSome then s.leave else s
  | .setCurrentState now events => s.setCurrentState now events
  | .update now event => update s now event
  | .expireHolds now => s.expireHolds now
  | .setSlotState state => s.setSlotState state
  | .forgetSlotState => s.forgetSlotState
  | .setRoomEncryption encryption => s.setRoomEncryption encryption
  | .setRoomMembers members => s.setRoomMembers members

/-- A session before anything was said about its members, seeded with what the room
knows already. -/
def fresh (slot : SlotKnowledge) (roomMembers : Option (Finset String))
    (encryption : RoomEncryption) : SlotSession :=
  { SlotSession.new with slot := slot, roomMembers := roomMembers, roomEncryption := encryption }

/-- A session and the snapshot it published last. -/
structure PublishedSession where
  session : SlotSession
  snapshot : List JoinedMembership
deriving DecidableEq

/-- A joined set that did not change is not published again. -/
def publish (p : PublishedSession) (s : SlotSession) : PublishedSession :=
  ⟨s, if s.members = p.session.members then p.snapshot else s.members⟩

def step (p : PublishedSession) (op : Operation) : Option PublishedSession :=
  some (publish p (perform p.session op))

section Keys
variable {key : String × String} {c joined : JoinedMembership}

theorem under_iff : SlotSession.under key c = true ↔ candidateKey c = key := by
  simp [SlotSession.under, candidateKey, Prod.ext_iff]

theorem under_eq_false : SlotSession.under key c = false ↔ candidateKey c ≠ key := by
  rw [ne_eq, ← under_iff, Bool.not_eq_true]

theorem any_under {candidates : List JoinedMembership} :
    candidates.any (SlotSession.under key) = true ↔ key ∈ candidates.map candidateKey := by
  simp [under_iff]

theorem mem_keys_replaceOrPush {candidates : List JoinedMembership} :
    key ∈ (SlotSession.replaceOrPush joined candidates).map candidateKey ↔
      key = candidateKey joined ∨ key ∈ candidates.map candidateKey := by
  induction candidates with
  | nil => simp [SlotSession.replaceOrPush]
  | cons first rest ih =>
      simp only [SlotSession.replaceOrPush]
      split_ifs with same
      · have eq : candidateKey first = candidateKey joined := under_iff.mp same
        simp [eq]
      · simp only [List.map_cons, List.mem_cons, ih]
        tauto

theorem replaceOrPush_same {candidates : List JoinedMembership}
    (h : candidates.find? (SlotSession.under (candidateKey joined)) = some joined) :
    SlotSession.replaceOrPush joined candidates = candidates := by
  induction candidates with
  | nil => cases h
  | cons first rest ih =>
      simp only [SlotSession.replaceOrPush]
      by_cases same : SlotSession.under (candidateKey joined) first = true
      · rw [List.find?_cons_of_pos same] at h
        cases h
        exact if_pos same
      · rw [List.find?_cons_of_neg same] at h
        rw [ih h]
        exact if_neg same

theorem filter_unknown {candidates : List JoinedMembership}
    (unknown : key ∉ candidates.map candidateKey) :
    (candidates.filter fun c => !SlotSession.under key c) = candidates := by
  apply List.filter_eq_self.mpr
  intro c member
  rw [under_eq_false.mpr]
  · rfl
  · rintro rfl
    exact unknown (List.mem_map_of_mem member)

theorem mem_keys_filter {candidates : List JoinedMembership} {other : String × String} :
    other ∈ (candidates.filter fun c => !SlotSession.under key c).map candidateKey ↔
      other ∈ candidates.map candidateKey ∧ other ≠ key := by
  constructor
  · intro member
    obtain ⟨c, within, rfl⟩ := List.mem_map.mp member
    obtain ⟨there, kept⟩ := List.mem_filter.mp within
    have ne : SlotSession.under key c = false := by simpa using kept
    exact ⟨List.mem_map_of_mem there, under_eq_false.mp ne⟩
  · rintro ⟨member, ne⟩
    obtain ⟨c, there, rfl⟩ := List.mem_map.mp member
    refine List.mem_map_of_mem (List.mem_filter.mpr ⟨there, ?_⟩)
    rw [under_eq_false.mpr ne]
    rfl

end Keys

/-- The joined set is the candidates that meet the join conditions, in order. -/
def Projected (s : SlotSession) : Prop :=
  s.members = s.candidates.filter fun c => s.joinCondition c == .joined

/-- Every hold is of a candidate. -/
def HeldKnown (s : SlotSession) : Prop :=
  ∀ entry ∈ s.held, entry.1 ∈ s.candidates.map candidateKey

instance : DecidablePred Projected := fun _ => inferInstanceAs (Decidable (_ = _))

instance : DecidablePred HeldKnown := fun s =>
  inferInstanceAs (Decidable (∀ entry ∈ s.held, entry.1 ∈ s.candidates.map candidateKey))

section Recording
variable {s : SlotSession} {now : ℕ} {event : RtcMembershipEvent}

theorem refresh_projected : Projected s.refresh := rfl

theorem recordMembershipEvent_conditions (c : JoinedMembership) :
    (s.recordMembershipEvent now event).joinCondition c = s.joinCondition c := by
  cases event with
  | joined joined => rfl
  | left left =>
      simp only [SlotSession.recordMembershipEvent]
      split_ifs <;> rfl

theorem recordMembershipEvent_members :
    (s.recordMembershipEvent now event).members = s.members := by
  cases event with
  | joined joined => rfl
  | left left =>
      simp only [SlotSession.recordMembershipEvent]
      split_ifs <;> rfl

/-- An event that is reported to change nothing leaves the candidates alone. -/
theorem recordMembershipEvent_unchanged (same : recordChanges s event = false) :
    (s.recordMembershipEvent now event).candidates = s.candidates := by
  cases event with
  | joined joined =>
      simp only [recordChanges, bne_eq_false_iff_eq] at same
      exact replaceOrPush_same same
  | left left =>
      simp only [recordChanges, Bool.and_eq_false_iff, Bool.not_eq_false'] at same
      simp only [SlotSession.recordMembershipEvent]
      split_ifs with held already
      · rfl
      · rfl
      · rw [Bool.and_eq_true, not_and_or, Bool.not_eq_true, Bool.not_eq_true] at held
        apply filter_unknown
        rw [← any_under, Bool.not_eq_true]
        rcases held with unknown | applied
        · exact unknown
        · rcases same with unknown | holds
          · exact unknown
          · cases applied.symm.trans holds

theorem update_projected (projected : Projected s) : Projected (update s now event) := by
  unfold update
  split_ifs with changes
  · exact refresh_projected
  · rw [Bool.not_eq_true] at changes
    have conditions : ∀ c,
        (s.recordMembershipEvent now event).joinCondition c = s.joinCondition c :=
      fun c => recordMembershipEvent_conditions c
    simp only [Projected, recordMembershipEvent_members, conditions,
      recordMembershipEvent_unchanged changes]
    exact projected

theorem mem_unhold {key : String × String} {entry : (String × String) × ℕ} :
    entry ∈ (s.unhold key).held ↔ entry ∈ s.held ∧ entry.1 ≠ key := by
  simp [SlotSession.unhold]

theorem mem_hold {key : String × String} {till : ℕ} {entry : (String × String) × ℕ}
    (h : entry ∈ (s.hold key till).held) : entry.1 = key ∨ entry ∈ s.held := by
  rcases List.mem_cons.mp h with rfl | kept
  · exact Or.inl rfl
  · exact Or.inr (List.mem_of_mem_filter kept)

theorem hold_known {key : String × String} {till : ℕ} (known : HeldKnown s)
    (there : key ∈ s.candidates.map candidateKey) : HeldKnown (s.hold key till) := by
  intro entry member
  rcases mem_hold member with rfl | kept
  · exact there
  · exact known entry kept

theorem recordMembershipEvent_known (known : HeldKnown s) :
    HeldKnown (s.recordMembershipEvent now event) := by
  cases event with
  | joined joined =>
      intro entry member
      exact mem_keys_replaceOrPush.mpr (Or.inr (known entry (mem_unhold.mp member).1))
  | left left =>
      simp only [SlotSession.recordMembershipEvent]
      split_ifs with held already
      · exact known
      · exact hold_known known (any_under.mp (Bool.and_eq_true_iff.mp held).1)
      · intro entry member
        obtain ⟨old, ne⟩ := mem_unhold.mp member
        exact mem_keys_filter.mpr ⟨known entry old, ne⟩

theorem heldCandidate_key {previous : SlotSession} {kept : JoinedMembership × LeftMembership}
    (h : SlotSession.heldCandidate previous s event = some kept) :
    event = .left kept.2 ∧ s.holds kept.2 = true ∧ candidateKey kept.1 = keyOf event ∧
      previous.candidates.find? (SlotSession.under (keyOf event)) = some kept.1 := by
  cases event with
  | joined joined => cases h
  | left left =>
      simp only [SlotSession.heldCandidate] at h
      split_ifs at h with holds
      obtain ⟨c, found, rfl⟩ := Option.map_eq_some_iff.mp h
      exact ⟨rfl, holds, under_iff.mp (List.find?_some found), found⟩

theorem rebuild_known {previous : SlotSession} (known : HeldKnown s) :
    HeldKnown (SlotSession.rebuild previous now s event) := by
  unfold SlotSession.rebuild
  cases kept : SlotSession.heldCandidate previous s event with
  | none => exact recordMembershipEvent_known known
  | some pair =>
      obtain ⟨candidate, left⟩ := pair
      obtain ⟨rfl, -, same, -⟩ := heldCandidate_key kept
      intro entry member
      simp only [List.map_append, List.map_cons, List.map_nil, List.mem_append,
        List.mem_singleton]
      rcases mem_hold member with eq | old
      · exact Or.inr (eq.trans same.symm)
      · exact Or.inl (known entry old)

theorem setCurrentState_known (events : List RtcMembershipEvent) :
    HeldKnown (s.setCurrentState now events) := by
  have folded : ∀ (t : SlotSession), HeldKnown t →
      HeldKnown (events.foldl (SlotSession.rebuild s now) t) := by
    induction events with
    | nil => exact fun t known => known
    | cons event rest ih => exact fun t known => ih _ (rebuild_known known)
  apply folded
  intro entry member
  cases member

end Recording

section Operations
variable {s : SlotSession}

theorem expireHolds_known (known : HeldKnown s) (now : ℕ) : HeldKnown (s.expireHolds now) := by
  unfold SlotSession.expireHolds
  dsimp only
  split_ifs with none
  · exact known
  · intro entry member
    obtain ⟨old, kept⟩ := List.mem_filter.mp member
    obtain ⟨c, there, same⟩ := List.mem_map.mp (known entry old)
    refine List.mem_map.mpr ⟨c, List.mem_filter.mpr ⟨there, ?_⟩, same⟩
    simp only [Bool.not_eq_true', List.any_eq_false] at kept ⊢
    intro gone expired under
    apply kept gone expired
    rw [← same, under_iff.mp under]
    simp

theorem expireHolds_projected (projected : Projected s) (now : ℕ) :
    Projected (s.expireHolds now) := by
  unfold SlotSession.expireHolds
  dsimp only
  split_ifs
  · exact projected
  · exact refresh_projected

theorem perform_projected (projected : Projected s) (op : Operation) :
    Projected (perform s op) := by
  cases op with
  | join own sent =>
      simp only [perform]
      split_ifs
      · exact refresh_projected
      · exact projected
  | leave =>
      simp only [perform]
      split_ifs
      · exact refresh_projected
      · exact projected
  | setCurrentState now events => exact refresh_projected
  | update now event => exact update_projected projected
  | expireHolds now => exact expireHolds_projected projected now
  | setSlotState state =>
      simp only [perform, SlotSession.setSlotState]
      split_ifs
      · exact projected
      · exact refresh_projected
      · exact refresh_projected
  | forgetSlotState =>
      simp only [perform, SlotSession.forgetSlotState]
      split_ifs
      · exact projected
      · exact refresh_projected
  | setRoomEncryption encryption =>
      simp only [perform, SlotSession.setRoomEncryption]
      split_ifs
      · exact projected
      · exact refresh_projected
  | setRoomMembers members =>
      simp only [perform, SlotSession.setRoomMembers]
      split_ifs
      · exact projected
      · exact refresh_projected

theorem perform_known (known : HeldKnown s) (op : Operation) : HeldKnown (perform s op) := by
  cases op with
  | join own sent =>
      simp only [perform]
      split_ifs <;> exact known
  | leave =>
      simp only [perform]
      split_ifs <;> exact known
  | setCurrentState now events => exact setCurrentState_known events
  | update now event =>
      simp only [perform, update]
      split_ifs <;> exact recordMembershipEvent_known known
  | expireHolds now => exact expireHolds_known known now
  | setSlotState state =>
      simp only [perform, SlotSession.setSlotState]
      split_ifs <;> exact known
  | forgetSlotState =>
      simp only [perform, SlotSession.forgetSlotState]
      split_ifs <;> exact known
  | setRoomEncryption encryption =>
      simp only [perform, SlotSession.setRoomEncryption]
      split_ifs <;> exact known
  | setRoomMembers members =>
      simp only [perform, SlotSession.setRoomMembers]
      split_ifs <;> exact known

end Operations

/-- After every operation the joined set is that of the candidates under what the session
now knows, the snapshot is the joined set, and every hold is of a candidate. -/
structure Consistent (p : PublishedSession) : Prop where
  projected : Projected p.session
  published : p.snapshot = p.session.members
  known : HeldKnown p.session

theorem step_consistent {p t : PublishedSession} {op : Operation} (inv : Consistent p)
    (h : step p op = some t) : Consistent t := by
  cases h
  refine ⟨perform_projected inv.projected op, ?_, perform_known inv.known op⟩
  simp only [publish]
  split_ifs with same
  · exact inv.published.trans same.symm
  · rfl

theorem fresh_consistent (slot : SlotKnowledge) (roomMembers : Option (Finset String))
    (encryption : RoomEncryption) : Consistent ⟨fresh slot roomMembers encryption, []⟩ := by
  refine ⟨rfl, rfl, ?_⟩
  intro entry member
  cases member

/-- Whatever operations a session performs, its joined set is after each of them the
projection of what it holds. -/
theorem session_projection (slot : SlotKnowledge) (roomMembers : Option (Finset String))
    (encryption : RoomEncryption) (ops : List Operation) :
    Always step
      (fun p =>
        p.session.members =
            (p.session.candidates.filter fun c => p.session.joinCondition c == .joined) ∧
          p.snapshot = p.session.members ∧
          ∀ entry ∈ p.session.held, ∃ c ∈ p.session.candidates, candidateKey c = entry.1)
      ⟨fresh slot roomMembers encryption, []⟩ ops := by
  apply always_of_step (fun _ _ _ => step_consistent) _ (fresh_consistent ..)
  rintro p ⟨projected, published, known⟩
  refine ⟨projected, published, ?_⟩
  intro entry member
  exact List.mem_map.mp (known entry member)

/-- Bob's membership in the concrete runs. -/
def bob : JoinedMembership :=
  { roomId := "!r:x", slotId := "m.call#room", sender := "@bob:x", origin := .encrypted (some "B")
    stickyKey := "bob", memberId := "bob", membershipEventId := none, membershipTs := none
    originServerTs := none, application := ⟨some "m.call", []⟩, transports := []
    canSubscribe := [] }

/-- Bob's leave, with the reason it states. -/
def bobLeaves (code : LeaveCode) : LeftMembership :=
  { roomId := "!r:x", slotId := "m.call#room", sender := "@bob:x", stickyKey := "bob"
    memberId := some "bob", leaveReason := some ⟨code, none⟩ }

/-- Bob has left the room, and his member event is still sticky. -/
example : (run step ⟨fresh .unsupplied none .unknown, []⟩
    [.update 0 (.joined bob), .setRoomMembers {"@alice:x"}]).map (·.snapshot) = some [] := by
  decide

end MatrixRtc.SessionOperations

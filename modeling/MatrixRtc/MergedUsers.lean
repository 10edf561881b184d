import MatrixRtc.RoomStateMembers

/-!
# The users of a room's merged membership

A room's sticky memberships and those translated from its state are merged by their sticky
keys alone, and every key and member id is stated by its sender. What one user's sticky
events do to the memberships of the others, and when no two users have one member id, is
decided by whether the users state keys and ids of each other.
-/
namespace MatrixRtc.MergedUsers
open HostAnswers JsonValues MemberEvents MemberContents MemberIngest RoomStateMembers

/-- The sticky memberships of a room. -/
def sticky (roomId : String) (members : List RawMemberEventIn) : List RawStickyEvent :=
  members.filterMap (toCoreMemberEvent roomId)

/-- `merge_current_membership`, at a clock reading. -/
def merged (now : ℕ) (roomId : String) (members : List RawMemberEventIn)
    (state : List LegacyStateMemberEventIn) : List RawStickyEvent :=
  mergeCurrentMembership (toCoreStateMemberships now) roomId members state

/-- The memberships of a user. -/
def membershipsOf (user : String) (events : List RawStickyEvent) : List RawStickyEvent :=
  events.filter fun event => event.sender == user

/-- The sticky events but those of a user. -/
def without (user : String) (members : List RawMemberEventIn) : List RawMemberEventIn :=
  members.filter fun event => event.sender != user

/-- Two memberships carry one member id. -/
def SameId (a b : RawStickyEvent) : Prop :=
  ∃ id, a.content.member.id = some id ∧ b.content.member.id = some id

/-- No user's sticky events change what another is a member with, and no two users have one
member id. -/
structure Separate (now : ℕ) (roomId : String) (members : List RawMemberEventIn)
    (state : List LegacyStateMemberEventIn) : Prop where
  others : ∀ user other, user ≠ other →
    membershipsOf user (merged now roomId (without other members) state) =
      membershipsOf user (merged now roomId members state)
  ids : ∀ a ∈ merged now roomId members state, ∀ b ∈ merged now roomId members state,
    a.sender ≠ b.sender → ¬ SameId a b

/-- A sticky membership of the user has the key. -/
def States (roomId : String) (members : List RawMemberEventIn) (user key : String) : Prop :=
  ∃ event ∈ sticky roomId members, event.sender = user ∧ event.content.stickyKey = key

/-- The key of a membership in room state is stated by no user else, or by more than one,
and a member id is stated by one user, unless in room state under a key that is stated. -/
structure Unshared (now : ℕ) (roomId : String) (members : List RawMemberEventIn)
    (state : List LegacyStateMemberEventIn) : Prop where
  keys : ∀ event ∈ toCoreStateMemberships now roomId state, ∀ other, other ≠ event.sender →
    States roomId members other event.content.stickyKey →
      ∃ user, user ≠ other ∧ States roomId members user event.content.stickyKey
  stickyIds : ∀ a ∈ sticky roomId members, ∀ b ∈ sticky roomId members,
    a.sender ≠ b.sender → ¬ SameId a b
  stateIds : ∀ event ∈ toCoreStateMemberships now roomId state,
    (∀ user, ¬ States roomId members user event.content.stickyKey) →
      ∀ other ∈ sticky roomId members ++ toCoreStateMemberships now roomId state,
        other.sender ≠ event.sender → ¬ SameId other event

section
variable {now : ℕ} {roomId : String} {members : List RawMemberEventIn}
  {state : List LegacyStateMemberEventIn}

theorem sender_toCoreMemberEvent {event : RawMemberEventIn} {raw : RawStickyEvent}
    (h : toCoreMemberEvent roomId event = some raw) : raw.sender = event.sender := by
  unfold toCoreMemberEvent at h
  split at h
  · cases h
  · obtain ⟨content, -, rfl⟩ := Option.map_eq_some_iff.mp h
    rfl

theorem sticky_without (other : String) :
    sticky roomId (without other members) =
      (sticky roomId members).filter fun event => event.sender != other := by
  rw [sticky, without, sticky, List.filterMap_filter, List.filter_filterMap]
  refine List.filterMap_congr fun event _ => ?_
  cases converted : toCoreMemberEvent roomId event with
  | none => simp
  | some raw => simp [Option.filter, sender_toCoreMemberEvent converted]

theorem states_without {user other key : String} :
    States roomId (without other members) user key ↔
      user ≠ other ∧ States roomId members user key := by
  rw [States, sticky_without]
  constructor
  · rintro ⟨event, there, rfl, same⟩
    obtain ⟨there, differs⟩ := List.mem_filter.mp there
    exact ⟨by simpa using differs, event, there, rfl, same⟩
  · rintro ⟨differs, event, there, rfl, same⟩
    exact ⟨event, List.mem_filter.mpr ⟨there, by simpa using differs⟩, rfl, same⟩

/-- A content rewritten from room state has its member id for its key. -/
theorem parse_rewritten {parsed : List Parsed} {member : Parsed} {content : RawStickyEventContent}
    (h : parseRawStickyEventContent (rewrittenContent parsed member) = some content) :
    content.stickyKey = member.memberId ∧ content.member.id = some member.memberId := by
  have single : singleStickyKey (rewrittenContent parsed member) =
      some (rewrittenContent parsed member) := by
    unfold rewrittenContent
    cases resolveFocus member parsed <;> rfl
  unfold parseRawStickyEventContent at h
  obtain ⟨_, same, h⟩ := Option.bind_eq_some_iff.mp h
  obtain rfl := Option.some.inj (single.symm.trans same)
  obtain ⟨field, fields, h⟩ := Option.bind_eq_some_iff.mp h
  obtain rfl := Option.some.inj fields
  obtain ⟨slotId, -, h⟩ := Option.bind_eq_some_iff.mp h
  obtain ⟨key, is_key, h⟩ := Option.bind_eq_some_iff.mp h
  obtain ⟨info, is_info, h⟩ := Option.bind_eq_some_iff.mp h
  have fieldsOf : content.stickyKey = key ∧ content.member = info := by
    obtain ⟨_, -, h⟩ := Option.bind_eq_some_iff.mp h
    obtain ⟨_, -, h⟩ := Option.bind_eq_some_iff.mp h
    obtain ⟨_, -, h⟩ := Option.bind_eq_some_iff.mp h
    obtain ⟨_, -, h⟩ := Option.bind_eq_some_iff.mp h
    cases h
    exact ⟨rfl, rfl⟩
  have is_info : parseMemberInfo
      (.obj [("id", .str member.memberId), ("membership", .str "join")]) = some info := is_info
  rw [fieldsOf.1, fieldsOf.2]
  refine ⟨(Option.some.inj is_key).symm, ?_⟩
  cases is_info
  rfl

theorem translated_id {event : RawStickyEvent}
    (h : event ∈ toCoreStateMemberships now roomId state) :
    event.content.member.id = some event.content.stickyKey := by
  obtain ⟨membership, there, converted⟩ := List.mem_filterMap.mp h
  obtain ⟨member, -, rfl⟩ := List.mem_map.mp there
  obtain ⟨content, parsed, rfl⟩ := Option.map_eq_some_iff.mp converted
  obtain ⟨key, id⟩ := parse_rewritten parsed
  exact id.trans (congrArg some key.symm)

theorem merged_eq (now : ℕ) (roomId : String) (members : List RawMemberEventIn)
    (state : List LegacyStateMemberEventIn) :
    merged now roomId members state = sticky roomId members ++
      (toCoreStateMemberships now roomId state).filter fun event =>
        event.content.stickyKey ∉ (sticky roomId members).map (·.content.stickyKey) := by
  unfold merged mergeCurrentMembership
  cases state with
  | nil => exact (List.append_nil _).symm
  | cons event rest => rfl

theorem stated_iff {key : String} :
    key ∈ (sticky roomId members).map (·.content.stickyKey) ↔
      ∃ user, States roomId members user key := by
  rw [List.mem_map]
  constructor
  · rintro ⟨event, there, same⟩
    exact ⟨event.sender, event, there, rfl, same⟩
  · rintro ⟨user, event, there, -, same⟩
    exact ⟨event, there, same⟩

theorem mem_merged {event : RawStickyEvent} :
    event ∈ merged now roomId members state ↔
      event ∈ sticky roomId members ∨
        event ∈ toCoreStateMemberships now roomId state ∧
          ∀ user, ¬ States roomId members user event.content.stickyKey := by
  rw [merged_eq, List.mem_append, List.mem_filter, decide_eq_true_eq, stated_iff, not_exists]

theorem membershipsOf_append (user : String) (a b : List RawStickyEvent) :
    membershipsOf user (a ++ b) = membershipsOf user a ++ membershipsOf user b :=
  List.filter_append a b

theorem membershipsOf_sticky_without {user other : String} (differ : user ≠ other) :
    membershipsOf user (sticky roomId (without other members)) =
      membershipsOf user (sticky roomId members) := by
  rw [sticky_without, membershipsOf, membershipsOf, List.filter_filter]
  refine List.filter_congr fun event _ => ?_
  by_cases same : event.sender = user
  · simp [same, differ]
  · simp [same]

theorem mem_membershipsOf {user : String} {event : RawStickyEvent} {events : List RawStickyEvent} :
    event ∈ membershipsOf user events ↔ event ∈ events ∧ event.sender = user := by
  rw [membershipsOf, List.mem_filter, beq_iff_eq]

theorem separate_of_unshared (h : Unshared now roomId members state) :
    Separate now roomId members state := by
  refine ⟨fun user other differ => ?_, fun a ha b hb differ same => ?_⟩
  · rw [merged_eq, merged_eq, membershipsOf_append, membershipsOf_append,
      membershipsOf_sticky_without differ]
    congr 1
    rw [membershipsOf, membershipsOf, List.filter_filter, List.filter_filter]
    refine List.filter_congr fun event there => ?_
    by_cases own : event.sender = user
    · -- the key is stated with and without the other's events
      have kept : (∃ w, States roomId (without other members) w event.content.stickyKey) ↔
          ∃ w, States roomId members w event.content.stickyKey := by
        constructor
        · rintro ⟨w, stated⟩
          exact ⟨w, (states_without.mp stated).2⟩
        · rintro ⟨w, stated⟩
          by_cases is_other : w = other
          · subst is_other
            obtain ⟨third, differs, stated⟩ :=
              h.keys event there w (fun eq => differ (own.symm.trans eq.symm)) stated
            exact ⟨third, states_without.mpr ⟨differs, stated⟩⟩
          · exact ⟨w, states_without.mpr ⟨is_other, stated⟩⟩
      rw [← stated_iff, ← stated_iff] at kept
      simp only [kept]
    · rw [beq_false_of_ne own, Bool.false_and, Bool.false_and]
  · obtain stickyA | ⟨stateA, unstatedA⟩ := mem_merged.mp ha
    · obtain stickyB | ⟨stateB, unstatedB⟩ := mem_merged.mp hb
      · exact h.stickyIds a stickyA b stickyB differ same
      · exact h.stateIds b stateB unstatedB a (List.mem_append_left _ stickyA) differ same
    · obtain ⟨id, is_a, is_b⟩ := same
      refine h.stateIds a stateA unstatedA b ?_ differ.symm ⟨id, is_b, is_a⟩
      obtain stickyB | ⟨stateB, -⟩ := mem_merged.mp hb
      · exact List.mem_append_left _ stickyB
      · exact List.mem_append_right _ stateB

theorem unshared_of_separate (h : Separate now roomId members state) :
    Unshared now roomId members state := by
  refine ⟨fun event there other differ stated => ?_, fun a ha b hb differ => ?_,
    fun event there unstated other otherThere differ same => ?_⟩
  · -- without the other's events the membership is there: so it is with them
    by_contra alone
    push Not at alone
    have dropped : ∀ user, ¬ States roomId (without other members) user
        event.content.stickyKey := by
      intro user again
      obtain ⟨differs, stated⟩ := states_without.mp again
      exact alone user differs stated
    have before : event ∈ membershipsOf event.sender
        (merged now roomId (without other members) state) :=
      mem_membershipsOf.mpr ⟨mem_merged.mpr (.inr ⟨there, dropped⟩), rfl⟩
    rw [h.others event.sender other differ.symm] at before
    obtain is_sticky | ⟨-, unstated⟩ := mem_merged.mp (mem_membershipsOf.mp before).1
    · exact alone event.sender differ.symm ⟨event, is_sticky, rfl, rfl⟩
    · exact unstated other stated
  · exact h.ids a (mem_merged.mpr (.inl ha)) b (mem_merged.mpr (.inl hb)) differ
  · have here : event ∈ merged now roomId members state := mem_merged.mpr (.inr ⟨there, unstated⟩)
    refine h.ids other ?_ event here differ same
    obtain is_sticky | translated := List.mem_append.mp otherThere
    · exact mem_merged.mpr (.inl is_sticky)
    · -- one member id is one key in room state
      obtain ⟨id, is_other, is_event⟩ := same
      rw [translated_id translated] at is_other
      rw [translated_id there] at is_event
      have key : other.content.stickyKey = event.content.stickyKey :=
        (Option.some.inj is_other).trans (Option.some.inj is_event).symm
      exact mem_merged.mpr (.inr ⟨translated, key ▸ unstated⟩)

end

/-- The users of a room do not interfere, and have member ids of their own, exactly where
their events state no key and no id of another's. -/
theorem separate_iff_unshared (now : ℕ) (roomId : String) (members : List RawMemberEventIn)
    (state : List LegacyStateMemberEventIn) :
    Separate now roomId members state ↔ Unshared now roomId members state :=
  ⟨unshared_of_separate, separate_of_unshared⟩

/-- Alice's membership in room state, of a device. -/
def aliceInState : LegacyStateMemberEventIn :=
  { eventId := none, sender := "@alice:x", stateKey := "_@alice:x_D", originServerTs := 0
    content := .obj [("application", .str "m.call"), ("call_id", .str ""),
      ("device_id", .str "D")] }

/-- A sticky membership of Mallory's under the key that Alice's has. -/
def malloryUnder (key : String) : RawMemberEventIn :=
  { eventId := none, sender := "@mallory:x", senderDeviceId := some "M", wasEncrypted := some true
    originServerTs := none, eventType := "m.rtc.member"
    content := .obj [("slot_id", .str "m.call#room"), ("msc4354_sticky_key", .str key),
      ("member", .obj [("id", .str "mallory"), ("membership", .str "join")]),
      ("application", .obj [("type", .str "m.call")])] }

/-- Mallory's sticky event takes Alice out of the call. -/
theorem another_takes_key :
    ¬ ∀ (now : ℕ) (roomId : String) (members : List RawMemberEventIn)
        (state : List LegacyStateMemberEventIn), Separate now roomId members state := by
  intro separate
  have others := (separate 0 "!room:x" [malloryUnder "@alice:x:D"] [aliceInState]).others
    "@alice:x" "@mallory:x" (by decide)
  revert others
  decide +kernel

end MatrixRtc.MergedUsers

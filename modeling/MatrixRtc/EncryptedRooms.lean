import MatrixRtc.RoomFeeder
import MatrixRtc.SessionInvariants

/-!
# Cleartext member events in an encrypted room

In an encrypted room a member event that arrived in the clear is not joined. The
rule reads the origin of the event, and the origin of a cleartext event whose content
names a device says nothing about encryption. This module follows the rule through
every delivery to a room of the current format, for the events that name no device.
Peers whose encryption the host did not report are outside the rule by design.
-/
namespace MatrixRtc.EncryptedRooms
open StepRuns JsonValues MemberEvents MemberContents MemberIngest RoomSlots SlotSessions BaseRooms
open RoomFeeder SessionInvariants

/-- With an encrypted room no joined member's event is known to have been in the clear. -/
def Guarded (s : SlotSession) : Prop :=
  s.roomEncryption = .encrypted → ∀ m ∈ s.members, m.origin.wasEncrypted ≠ some false

section
variable {s : SlotSession}

theorem joinCondition_ne_joined {c : JoinedMembership} (encrypted : s.roomEncryption = .encrypted)
    (clear : c.origin.wasEncrypted = some false) : s.joinCondition c ≠ .joined := by
  have rule : s.roomEncryption = .encrypted ∧ c.origin.wasEncrypted = some false :=
    ⟨encrypted, clear⟩
  simp only [SlotSession.joinCondition, if_pos rule]
  split <;> simp

theorem refresh_guarded : Guarded s.refresh := by
  intro encrypted m hm clear
  obtain ⟨-, joined⟩ := List.mem_filter.mp hm
  exact joinCondition_ne_joined (s := s) encrypted clear (by simpa using joined)

theorem recordMembershipEvent_roomEncryption {now : ℕ} {event : RtcMembershipEvent} :
    (s.recordMembershipEvent now event).roomEncryption = s.roomEncryption := by
  cases event with
  | joined joined => rfl
  | left left =>
      simp only [SlotSession.recordMembershipEvent]
      split_ifs <;> rfl

theorem rebuild_roomEncryption {previous : SlotSession} {now : ℕ} {event : RtcMembershipEvent} :
    (SlotSession.rebuild previous now s event).roomEncryption = s.roomEncryption := by
  unfold SlotSession.rebuild
  cases SlotSession.heldCandidate previous s event with
  | some kept => rfl
  | none => exact recordMembershipEvent_roomEncryption

theorem foldl_rebuild_roomEncryption {previous : SlotSession} {now : ℕ}
    {events : List RtcMembershipEvent} :
    (events.foldl (SlotSession.rebuild previous now) s).roomEncryption = s.roomEncryption := by
  induction events generalizing s with
  | nil => rfl
  | cons event rest ih => exact ih.trans rebuild_roomEncryption

@[simp] theorem setCurrentState_roomEncryption {now : ℕ} {events : List RtcMembershipEvent} :
    (s.setCurrentState now events).roomEncryption = s.roomEncryption :=
  foldl_rebuild_roomEncryption

/-- What every operation on a session keeps, given the room's encryption. -/
def Follows (encryption : RoomEncryption) (s : SlotSession) : Prop :=
  s.roomEncryption = encryption ∧ Guarded s

variable {encryption : RoomEncryption}

theorem refresh_follows (told : s.roomEncryption = encryption) : Follows encryption s.refresh :=
  ⟨told, refresh_guarded⟩

theorem setCurrentState_follows (told : s.roomEncryption = encryption) (now : ℕ)
    (events : List RtcMembershipEvent) : Follows encryption (s.setCurrentState now events) :=
  ⟨setCurrentState_roomEncryption.trans told, refresh_guarded⟩

theorem expireHolds_follows (h : Follows encryption s) (now : ℕ) :
    Follows encryption (s.expireHolds now) := by
  unfold SlotSession.expireHolds
  dsimp only
  split_ifs
  · exact h
  · exact refresh_follows h.1

theorem leave_follows (h : Follows encryption s) : Follows encryption s.leave :=
  refresh_follows h.1

theorem join_follows (h : Follows encryption s) (own : OwnParticipation) (started : Bool) :
    Follows encryption (s.join own started) := by
  unfold SlotSession.join
  dsimp only
  split_ifs
  · exact refresh_follows h.1
  · exact h

theorem setSlotState_follows (h : Follows encryption s) (state : SlotState) :
    Follows encryption (s.setSlotState state) := by
  unfold SlotSession.setSlotState
  dsimp only
  split_ifs
  · exact h
  · exact refresh_follows h.1
  · exact refresh_follows h.1

theorem setRoomMembers_follows (h : Follows encryption s) (members : Finset String) :
    Follows encryption (s.setRoomMembers members) := by
  unfold SlotSession.setRoomMembers
  split_ifs
  · exact h
  · exact refresh_follows h.1

theorem setRoomEncryption_follows {before : RoomEncryption} (h : Follows before s) :
    Follows encryption (s.setRoomEncryption encryption) := by
  unfold SlotSession.setRoomEncryption
  split_ifs with same
  · exact ⟨same, h.2⟩
  · exact refresh_follows rfl

end

/-- Every session of the room follows the encryption `e`. -/
def SessionsFollow (e : RoomEncryption) (r : BaseRtcRoom) : Prop :=
  ∀ slot s, r.sessions slot = some s → Follows e s

/-- Every session follows the room's own encryption. -/
def RoomFollows (r : BaseRtcRoom) : Prop := SessionsFollow r.encryption r

theorem follows_kept (e : RoomEncryption) : Kept (Follows e) where
  expireHolds := fun _ now h => expireHolds_follows h now
  leave := fun _ h => leave_follows h
  join := fun _ own started h => join_follows h own started
  setSlotState := fun _ state h => setSlotState_follows h state
  setRoomMembers := fun _ members h => setRoomMembers_follows h members

section
variable {r : BaseRtcRoom}

theorem seeded_follows (slot : String) : Follows r.encryption (r.seeded slot) :=
  ⟨rfl, fun _ _ hm => absurd hm List.not_mem_nil⟩

theorem setCurrentStickyState_follows (h : RoomFollows r) (now : ℕ) (events : List RawStickyEvent) :
    RoomFollows (r.setCurrentStickyState now events).1 := by
  unfold BaseRtcRoom.setCurrentStickyState
  cases r.route (fun _ => none) events with
  | error err => exact h
  | ok batches =>
      exact applyBatches_meet seeded_follows h (fun _ hs => hs)
        fun _ batch _ _ hs => setCurrentState_follows hs.1 now batch

theorem onEncryptionReceived_follows (h : RoomFollows r) (encrypted : Bool) :
    RoomFollows (r.onEncryptionReceived encrypted) := by
  have told : (r.onEncryptionReceived encrypted).encryption =
      if encrypted then .encrypted else .unencrypted := by
    unfold BaseRtcRoom.onEncryptionReceived
    dsimp only
    generalize (if encrypted = true then RoomEncryption.encrypted else .unencrypted) = e
    split_ifs with known
    · simp [BaseRtcRoom.encryption, known]
    · rfl
  unfold RoomFollows
  rw [told]
  refine onEncryptionReceived_meet (follows_kept _) h encrypted
    (fun _ hs => setRoomEncryption_follows hs) fun known s hs => ?_
  rwa [BaseRtcRoom.encryption, known] at hs

theorem join_room_follows (h : RoomFollows r) (slotId : String) (own : OwnParticipation)
    (started : Bool) : RoomFollows (r.join slotId own started) := by
  have same : (r.join slotId own started).encryption = r.encryption := by
    unfold BaseRtcRoom.join
    split_ifs <;> rfl
  unfold RoomFollows
  rw [same]
  exact join_meet (follows_kept _) seeded_follows h slotId own started

end

section
variable {dialect : IngestDialect} {ownUserId : String}

theorem onInput_follows {r : RoomFeederRun} (h : RoomFollows r.room) (input : RoomInput) :
    RoomFollows (r.onInput dialect ownUserId input).room := by
  cases input with
  | sticky events => exact h
  | encryption encrypted => exact onEncryptionReceived_follows h encrypted
  | state eventType events =>
      simp only [RoomFeederRun.onInput, RoomFeederRun.onState]
      split_ifs
      · exact onSlotsReceived_meet (follows_kept _) h _
      · exact h
      · exact h
  | members userIds =>
      simp only [RoomFeederRun.onInput, RoomFeederRun.onMembers]
      split_ifs
      · exact onMembersReceived_meet (follows_kept _) h userIds
      · exact h
  | holdsEnded | joined | left | observed => exact h

theorem deliver_follows {r : RoomFeederRun} (h : RoomFollows r.room) (now : ℕ)
    (input : RoomInput) : RoomFollows (r.deliver dialect ownUserId now input).room := by
  have applied : RoomFollows (r.onInput dialect ownUserId input).room := onInput_follows h input
  unfold RoomFeederRun.deliver
  dsimp only
  split_ifs
  · exact setCurrentStickyState_follows applied now _
  · exact applied

/-- One step of the room keeps the rule. -/
theorem step_follows {r t : RoomFeederRun} {a : ℕ × RoomInput} (h : RoomFollows r.room)
    (hstep : r.step dialect ownUserId a = some t) : RoomFollows t.room := by
  obtain ⟨now, input⟩ := a
  cases input with
  | holdsEnded =>
      cases hstep
      exact expireHolds_meet (follows_kept _) h now
  | joined slotId own started =>
      cases hstep
      exact join_room_follows h slotId own started
  | left slotId =>
      cases hstep
      exact leave_meet (follows_kept _) h slotId
  | observed slotId =>
      cases hstep
      exact observeSlot_meet seeded_follows h slotId
  | sticky | state | members | encryption =>
      cases hstep
      exact deliver_follows h now _

theorem run_follows {roomId : String} {trace : List (ℕ × RoomInput)} {r : RoomFeederRun}
    (hrun : run (RoomFeederRun.step dialect ownUserId) (.start roomId) trace = some r) :
    RoomFollows r.room := by
  refine run_invariant_of_step (I := fun r => RoomFollows r.room)
    (fun _ _ _ h hstep => step_follows h hstep) ?_ hrun
  intro slot s hs
  cases hs

end

/-- The member events of the sticky sets delivered in a run. -/
def deliveredSticky (trace : List (ℕ × RoomInput)) : List EventIn :=
  trace.flatMap fun a =>
    match a.2 with
    | .sticky events => events
    | _ => []

/-- The membership the core reads out of a delivered event. -/
def membershipRead (roomId : String) (e : EventIn) : Option RtcMembershipEvent :=
  (toCoreMemberEvent roomId (toMemberEventIn e)).bind fun raw => raw.tryIntoMembershipEvent.toOption

/-- `m` is a membership whose event is `e`. -/
def ReadFrom (roomId : String) (e : EventIn) (m : JoinedMembership) : Prop :=
  membershipRead roomId e = some (.joined m)

/-- A join delivered in the clear whose content names a sending device. -/
def NamesDeviceInClear (roomId : String) (e : EventIn) : Prop :=
  e.encryption = .cleartext ∧
    (claimedDeviceId (normalizeMemberContent e.content).1).isSome ∧
    ∃ m, ReadFrom roomId e m

theorem readFrom_cleartext {roomId : String} {e : EventIn} {m : JoinedMembership}
    (read : ReadFrom roomId e m) (clear : e.encryption = .cleartext)
    (unnamed : ¬ NamesDeviceInClear roomId e) : m.origin.wasEncrypted = some false := by
  obtain ⟨raw, hraw, converted⟩ := Option.bind_eq_some_iff.mp read
  have joined : raw.membershipEvent = .joined m := by
    unfold RawStickyEvent.tryIntoMembershipEvent at converted
    cases check : raw.checkConvertible with
    | error err => simp [check, Except.toOption] at converted
    | ok _ => simpa [check, Except.toOption] using converted
  rw [RawStickyEvent.membershipEvent_joined_origin joined]
  obtain origin | ⟨device, named, -⟩ := toCoreMemberEvent_cleartext hraw clear
  · rw [origin]
    rfl
  · exact absurd ⟨clear, by simp [named], m, read⟩ unnamed

/-- In an encrypted room no membership delivered in the clear is joined, in runs
whose cleartext joins name no device: for every room opened in the current format
and every run of deliveries, of joins, leaves and observations by the application
and of hold timers, if no join delivered in the clear names a sending device, then
while the room is reported encrypted no session's joined set has a membership whose
event was delivered in the clear, whatever else its content states. -/
theorem cleartext_never_joined
    (translate : String → List LegacyStateMemberEventIn → List RawStickyEvent)
    (roomId ownUserId : String) (trace : List (ℕ × RoomInput)) (r : RoomFeederRun)
    (hrun : run (RoomFeederRun.step (MembershipFormat.msc.dialect translate) ownUserId)
      (.start roomId) trace = some r)
    (unnamed : ∀ e ∈ deliveredSticky trace, ¬ NamesDeviceInClear roomId e)
    (encrypted : r.room.roomEncryption = some .encrypted) (slotId : String) (s : SlotSession)
    (tracked : r.room.sessions slotId = some s) :
    ∀ m ∈ s.members, ∀ e ∈ deliveredSticky trace, e.encryption = .cleartext →
      ¬ ReadFrom roomId e m := by
  intro m hm e he clear read
  obtain ⟨told, guarded⟩ := run_follows hrun slotId s tracked
  have reported : s.roomEncryption = .encrypted := by
    rw [told, BaseRtcRoom.encryption, encrypted]
    rfl
  exact guarded reported m hm (readFrom_cleartext read clear (unnamed e he))

section Concrete

instance (roomId : String) (e : EventIn) (m : JoinedMembership) : Decidable (ReadFrom roomId e m) :=
  inferInstanceAs (Decidable (membershipRead roomId e = some (.joined m)))

/-- A sticky join of the call slot, its member object given. -/
def stickyJoin (sender memberId : String) (member : List (String × Json))
    (encryption : EventEncryption) : EventIn :=
  { eventId := "$e"
    sender := sender
    eventType := "m.rtc.member"
    stateKey := none
    originServerTs := 0
    content := .obj
      [("slot_id", .str "m.call#room"), ("sticky_key", .str memberId),
        ("application", .obj [("type", .str "m.call")]),
        ("member", .obj (("id", .str memberId) :: ("membership", .str "join") :: member))]
    encryption := encryption }

/-- The state event of an open and encrypted call slot. -/
def openSlot : EventIn :=
  { eventId := "$slot"
    sender := "@alice:x"
    eventType := "m.rtc.slot"
    stateKey := some "m.call#room"
    originServerTs := 0
    content := .obj
      [("status", .str "open"), ("application", .obj [("type", .str "m.call")]),
        ("encryption", .obj [("type", .str "m.per_member")])]
    encryption := .cleartext }

/-- An encrypted room with its slot open, its users joined and one sticky set. -/
def encryptedRoomRun (events : List EventIn) : List (ℕ × RoomInput) :=
  [(0, .encryption true), (0, .state "m.rtc.slot" [openSlot]),
    (0, .members ["@alice:x", "@bob:x", "@eve:x"]), (1, .sticky events)]

def bobEncrypted : EventIn := stickyJoin "@bob:x" "bob" [] (.encrypted (some "B") none)

def eveInClear : EventIn := stickyJoin "@eve:x" "eve" [] .cleartext

/-- Bob's encrypted join is in the joined set, and Eve's cleartext one is not. -/
theorem eve_in_clear_not_joined :
    ∃ r ∈ run (RoomFeederRun.step (MembershipFormat.msc.dialect fun _ _ => []) "@alice:x")
        (.start "!r:x") (encryptedRoomRun [bobEncrypted, eveInClear]),
      ∃ s ∈ r.room.sessions "m.call#room", s.members.map (·.sender) = ["@bob:x"] ∧
        ∀ m ∈ s.members, ∀ e ∈ deliveredSticky (encryptedRoomRun [bobEncrypted, eveInClear]),
          e.encryption = .cleartext → ¬ ReadFrom "!r:x" e m := by
  have facts : ∃ r ∈ run (RoomFeederRun.step (MembershipFormat.msc.dialect fun _ _ => [])
        "@alice:x") (.start "!r:x") (encryptedRoomRun [bobEncrypted, eveInClear]),
      r.room.roomEncryption = some .encrypted ∧
      ∃ s ∈ r.room.sessions "m.call#room", s.members.map (·.sender) = ["@bob:x"] := by
    decide
  obtain ⟨r, hr, encrypted, s, hs, senders⟩ := facts
  refine ⟨r, hr, s, hs, senders, cleartext_never_joined (fun _ _ => []) "!r:x" "@alice:x" _ r hr
    ?_ encrypted "m.call#room" s hs⟩
  have unclaimed : ∀ e ∈ deliveredSticky (encryptedRoomRun [bobEncrypted, eveInClear]),
      claimedDeviceId (normalizeMemberContent e.content).1 = none := by
    decide
  rintro e he ⟨-, named, -⟩
  simp [unclaimed e he] at named

/-- The same event with a sending device named in its content. -/
def eveNamingDevice : EventIn := stickyJoin "@eve:x" "eve" [("device_id", .str "E")] .cleartext

/-- Eve's cleartext join names a device and stands in the encrypted room's joined set. -/
theorem eve_naming_a_device_joined :
    ∃ r ∈ run (RoomFeederRun.step (MembershipFormat.msc.dialect fun _ _ => []) "@alice:x")
        (.start "!r:x") (encryptedRoomRun [bobEncrypted, eveNamingDevice]),
      r.room.roomEncryption = some .encrypted ∧
      ∃ s ∈ r.room.sessions "m.call#room", ∃ m ∈ s.members,
        ∃ e ∈ deliveredSticky (encryptedRoomRun [bobEncrypted, eveNamingDevice]),
          e.encryption = .cleartext ∧ ReadFrom "!r:x" e m := by
  decide

end Concrete

end MatrixRtc.EncryptedRooms

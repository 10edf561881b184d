import MatrixRtc.StickyBatches
import MatrixRtc.StepRuns

/-!
# What a room was told last

A room nobody joined is told its slots, encryption and users and its sticky state, in
any order, and its sessions are created in between. This module writes down the
session that a room's last facts amount to, and shows every session of the room to be
that one. A sticky state that is refused with a conversion error tells the room nothing.
Delayed leaves are left out: their holds remember when they were first seen.
-/
namespace MatrixRtc.RoomFacts
open MemberEvents RoomSlots SlotSessions BaseRooms StickyBatches StepRuns

/-- One call that tells the room something. -/
inductive RoomUpdate where
  | slotsReceived (slots : List RawSlotEvent)
  | forgetSlots
  | encryptionReceived (encrypted : Bool)
  | membersReceived (joined : List String)
  | observeSlot (slotId : String)
  | currentStickyState (now : ℕ) (events : List RawStickyEvent)

def step (r : BaseRtcRoom) : RoomUpdate → Option BaseRtcRoom
  | .slotsReceived slots => some (r.onSlotsReceived slots)
  | .forgetSlots => some r.forgetSlots
  | .encryptionReceived encrypted => some (r.onEncryptionReceived encrypted)
  | .membersReceived joined => some (r.onMembersReceived joined)
  | .observeSlot slotId => some (r.observeSlot slotId)
  | .currentStickyState now events => some (r.setCurrentStickyState now events).1

/-- The last value supplied of each fact, and the last complete sticky state. -/
structure Facts where
  slots : Option (List RawSlotEvent)
  encryption : Option Bool
  members : Option (List String)
  sticky : Option (List RawStickyEvent)
deriving DecidableEq

/-- The room takes the sticky state: no event of it fails to convert. -/
def Accepted (roomId : String) (events : List RawStickyEvent) : Prop :=
  ((BaseRtcRoom.new roomId).route (fun _ => none) events).toOption.isSome

instance (roomId : String) (events : List RawStickyEvent) : Decidable (Accepted roomId events) :=
  inferInstanceAs (Decidable (_ = true))

def Facts.supply (roomId : String) (f : Facts) : RoomUpdate → Facts
  | .slotsReceived slots => { f with slots := some slots }
  | .forgetSlots => { f with slots := none }
  | .encryptionReceived encrypted => { f with encryption := some encrypted }
  | .membersReceived joined => { f with members := some joined }
  | .observeSlot _ => f
  | .currentStickyState _ events =>
      if Accepted roomId events then { f with sticky := some events } else f

/-- The facts a sequence of calls ends with. -/
def lastFacts (roomId : String) (updates : List RoomUpdate) : Facts :=
  updates.foldl (Facts.supply roomId) ⟨none, none, none, none⟩

/-- A leave that the homeserver sent on the member's behalf. -/
def IsDelayedLeave : RtcMembershipEvent → Prop
  | .joined _ => False
  | .left left => left.leaveReason.any (fun reason => reason.code == .delayedLeave)

instance : DecidablePred IsDelayedLeave := fun event =>
  match event with
  | .joined _ => isFalse id
  | .left _ => inferInstanceAs (Decidable (_ = true))

/-- No event of the sticky state is a delayed leave. -/
def NoDelayedLeave : RoomUpdate → Prop
  | .currentStickyState _ events =>
      ∀ e ∈ events, ∀ event ∈ (tryConvertMembershipEvent e).toOption.join, ¬ IsDelayedLeave event
  | _ => True

instance : DecidablePred NoDelayedLeave := fun update =>
  match update with
  | .currentStickyState _ events => inferInstanceAs (Decidable (∀ e ∈ events, _))
  | .slotsReceived _ | .forgetSlots | .encryptionReceived _ | .membersReceived _
  | .observeSlot _ => isTrue trivial

/-- What one event that is no delayed leave does to the candidates. -/
def applyEvent (candidates : List JoinedMembership) : RtcMembershipEvent → List JoinedMembership
  | .joined joined => SlotSession.replaceOrPush joined candidates
  | .left left => candidates.filter fun c => !SlotSession.under (left.sender, left.stickyKey) c

/-- The events of the last sticky state that are routed to a slot. -/
def Facts.batch (roomId : String) (f : Facts) (slotId : String) :
    Option (List RtcMembershipEvent) :=
  f.sticky.bind fun events =>
    (((BaseRtcRoom.new roomId).route (fun _ => none) events).toOption.getD fun _ => none) slotId

/-- The room that knows exactly these facts and has no session. -/
def Facts.room (roomId : String) (f : Facts) : BaseRtcRoom :=
  { BaseRtcRoom.new roomId with
    slots := (f.slots.map (BaseRtcRoom.new roomId).indexSlots).getD fun _ => none
    slotStateKnown := f.slots.isSome
    roomEncryption := f.encryption.map fun encrypted =>
      if encrypted then .encrypted else .unencrypted
    roomMembers := f.members.map List.toFinset }

/-- The session these facts make of a slot. -/
def Facts.session (roomId : String) (f : Facts) (slotId : String) : SlotSession :=
  { (f.room roomId).seeded slotId with
    candidates := ((f.batch roomId slotId).getD []).foldl applyEvent [] }.refresh

/-- A session that nobody joined and whose joined set is up to date. -/
def Settled (s : SlotSession) : Prop := s.ownParticipation = none ∧ s.refresh = s

section Sessions
variable {s : SlotSession}

theorem refresh_settled (unjoined : s.ownParticipation = none) : Settled s.refresh :=
  ⟨unjoined, rfl⟩

theorem setSlotState_settled (h : Settled s) (state : SlotState) :
    s.setSlotState state = { s with slot := .known state }.refresh := by
  obtain ⟨unjoined, current⟩ := h
  unfold SlotSession.setSlotState
  dsimp only
  split_ifs with same closing
  · rw [← same]
    exact current.symm
  · simp [unjoined] at closing
  · rfl

theorem forgetSlotState_settled (h : Settled s) :
    s.forgetSlotState = { s with slot := .unsupplied }.refresh := by
  unfold SlotSession.forgetSlotState
  split_ifs with same
  · rw [← same]
    exact h.2.symm
  · rfl

theorem setRoomEncryption_settled (h : Settled s) (encryption : RoomEncryption) :
    s.setRoomEncryption encryption = { s with roomEncryption := encryption }.refresh := by
  unfold SlotSession.setRoomEncryption
  split_ifs with same
  · rw [← same]
    exact h.2.symm
  · rfl

theorem setRoomMembers_settled (h : Settled s) (members : Finset String) :
    s.setRoomMembers members = { s with roomMembers := some members }.refresh := by
  unfold SlotSession.setRoomMembers
  split_ifs with same
  · rw [← same]
    exact h.2.symm
  · rfl

theorem rebuild_plain {previous : SlotSession} {now : ℕ} {event : RtcMembershipEvent}
    (unheld : s.held = []) (plain : ¬ IsDelayedLeave event) :
    SlotSession.rebuild previous now s event =
      { s with candidates := applyEvent s.candidates event } := by
  cases event with
  | joined joined =>
      simp [SlotSession.rebuild, SlotSession.heldCandidate, SlotSession.recordMembershipEvent,
        SlotSession.unhold, applyEvent, unheld]
  | left left =>
      have applied : s.holds left = false := by
        simp only [SlotSession.holds, Bool.and_eq_false_iff]
        exact Or.inl (Bool.not_eq_true _ ▸ plain)
      simp [SlotSession.rebuild, SlotSession.heldCandidate, SlotSession.recordMembershipEvent,
        SlotSession.unhold, applyEvent, unheld, applied]

theorem foldl_rebuild_plain {previous : SlotSession} {now : ℕ}
    {events : List RtcMembershipEvent} (unheld : s.held = [])
    (plain : ∀ event ∈ events, ¬ IsDelayedLeave event) :
    events.foldl (SlotSession.rebuild previous now) s =
      { s with candidates := events.foldl applyEvent s.candidates } := by
  induction events generalizing s with
  | nil => rfl
  | cons event rest ih =>
      rw [List.foldl_cons, rebuild_plain unheld (plain event List.mem_cons_self)]
      exact ih unheld fun later hlater => plain later (List.mem_cons_of_mem _ hlater)

end Sessions

section Rooms
variable {r r' : BaseRtcRoom} {events : List RawStickyEvent} {batches : Batches}

theorem route_congr (same : r.roomId = r'.roomId) :
    r.route batches events = r'.route batches events := by
  induction events generalizing batches with
  | nil => rfl
  | cons e rest ih =>
      simp only [BaseRtcRoom.route, same]
      split_ifs
      · exact ih
      · cases tryConvertMembershipEvent e with
        | error err => rfl
        | ok event => cases event <;> exact ih

end Rooms

/-- What a session knows of its slot is what the room knows. -/
def slotKnowledge (r : BaseRtcRoom) (slotId : String) : SlotKnowledge :=
  ((r.slotState slotId).map SlotKnowledge.known).getD .unsupplied

/-- The room knows the facts, every session is the one they make, and every slot the last
sticky state names has a session. -/
structure Knows (roomId : String) (f : Facts) (r : BaseRtcRoom) : Prop where
  facts : { r with sessions := fun _ => none } = f.room roomId
  sessions : ∀ slot s, r.sessions slot = some s → s = f.session roomId slot
  tracked : ∀ slot, (f.batch roomId slot).isSome → (r.sessions slot).isSome

section Sessions
variable {roomId slotId : String} {f f' : Facts}

theorem session_settled : Settled (f.session roomId slotId) := refresh_settled rfl

theorem session_eq : f.session roomId slotId =
    SlotSession.refresh
      { SlotSession.new with
        slot := slotKnowledge (f.room roomId) slotId
        roomMembers := (f.room roomId).roomMembers
        roomEncryption := (f.room roomId).encryption
        candidates := ((f.batch roomId slotId).getD []).foldl applyEvent [] } := rfl

theorem session_congr (room : f'.room roomId = f.room roomId) (sticky : f'.sticky = f.sticky) :
    f'.session roomId slotId = f.session roomId slotId := by
  simp only [session_eq, room, Facts.batch, sticky]

/-- A slot pushed to a settled session of a room is the one the room knows. -/
theorem push_session {r : BaseRtcRoom} {s : SlotSession} (settled : Settled s)
    (unknown : r.slotStateKnown = false → s.slot = .unsupplied) :
    (match r.slotState slotId with
      | some state => s.setSlotState state
      | none => s) = { s with slot := slotKnowledge r slotId }.refresh := by
  cases hstate : r.slotState slotId with
  | some state =>
      simp only [slotKnowledge, hstate, Option.map_some, Option.getD_some]
      exact setSlotState_settled settled state
  | none =>
      have unsupplied : s.slot = .unsupplied := by
        refine unknown ?_
        unfold BaseRtcRoom.slotState at hstate
        split_ifs at hstate with known
        exact Bool.eq_false_iff.mpr known
      simp only [slotKnowledge, hstate, Option.map_none, Option.getD_none, ← unsupplied]
      exact settled.2.symm

end Sessions

section Steps
variable {roomId : String} {f f' : Facts} {r : BaseRtcRoom}

theorem Knows.roomId_eq (h : Knows roomId f r) : r.roomId = roomId :=
  congrArg BaseRtcRoom.roomId h.facts

/-- A change of the facts that reaches every session. -/
theorem Knows.mapSessions (h : Knows roomId f r) (f' : Facts) (sticky : f'.sticky = f.sticky)
    {told : BaseRtcRoom} {change : String → SlotSession → SlotSession}
    (facts : { told with sessions := fun _ => none } = f'.room roomId)
    (reached : ∀ slot, change slot (f.session roomId slot) = f'.session roomId slot)
    (sessions : told.sessions = r.sessions) : Knows roomId f' (told.mapSessions change) where
  facts := facts
  sessions := by
    intro slot s hs
    simp only [BaseRtcRoom.mapSessions, sessions] at hs
    obtain ⟨s', hs', rfl⟩ := Option.map_eq_some_iff.mp hs
    rw [h.sessions slot s' hs', reached]
  tracked := by
    intro slot named
    simp only [BaseRtcRoom.mapSessions, sessions, Option.isSome_map]
    refine h.tracked slot ?_
    rwa [Facts.batch, ← sticky]

theorem slotsReceived_knows (h : Knows roomId f r) (slots : List RawSlotEvent) :
    Knows roomId { f with slots := some slots } (r.onSlotsReceived slots) := by
  have index : r.indexSlots slots = (BaseRtcRoom.new roomId).indexSlots slots := by
    simp only [BaseRtcRoom.indexSlots, h.roomId_eq]
    rfl
  let told := { r with slotStateKnown := true, slots := r.indexSlots slots }
  have facts : { told with sessions := fun _ => none } =
      Facts.room roomId { f with slots := some slots } := by
    show { { r with sessions := fun _ => none } with
      slotStateKnown := true, slots := r.indexSlots slots } = _
    rw [h.facts, index]
    rfl
  refine h.mapSessions { f with slots := some slots } rfl facts (fun slot => ?_) rfl
  refine (push_session (r := told) session_settled fun unknown => ?_).trans ?_
  · simp [told] at unknown
  have knowledge : slotKnowledge told slot =
      slotKnowledge (Facts.room roomId { f with slots := some slots }) slot := by
    rw [← facts]
    rfl
  rw [knowledge]
  rfl

theorem forgetSlots_knows (h : Knows roomId f r) :
    Knows roomId { f with slots := none } r.forgetSlots := by
  have facts : ({ { r with slotStateKnown := false, slots := fun _ => none } with
      sessions := fun _ => none } : BaseRtcRoom) = Facts.room roomId { f with slots := none } := by
    show { { r with sessions := fun _ => none } with
      slotStateKnown := false, slots := fun _ => none } = _
    rw [h.facts]
    rfl
  unfold BaseRtcRoom.forgetSlots
  dsimp only
  split_ifs with known
  · refine h.mapSessions { f with slots := none } rfl facts (fun slot => ?_) rfl
    rw [forgetSlotState_settled session_settled]
    rfl
  · have unsupplied : f.slots = none := by
      have room_unknown : f.slots.isSome = r.slotStateKnown :=
        (congrArg BaseRtcRoom.slotStateKnown h.facts).symm
      simpa [known] using room_unknown
    have same : ({ f with slots := none } : Facts) = f := by rw [← unsupplied]
    exact ⟨facts, same.symm ▸ h.sessions, h.tracked⟩

theorem encryptionReceived_knows (h : Knows roomId f r) (encrypted : Bool) :
    Knows roomId { f with encryption := some encrypted } (r.onEncryptionReceived encrypted) := by
  let encryption := if encrypted then RoomEncryption.encrypted else .unencrypted
  let told := { r with roomEncryption := some encryption }
  have facts : { told with sessions := fun _ => none } =
      Facts.room roomId { f with encryption := some encrypted } := by
    show { { r with sessions := fun _ => none } with roomEncryption := some encryption } = _
    rw [h.facts]
    rfl
  show Knows roomId _ (if r.roomEncryption = some encryption then r else
    told.pushSlotState.mapSessions fun _ s => s.setRoomEncryption encryption)
  by_cases same : r.roomEncryption = some encryption
  · rw [if_pos same]
    have room : Facts.room roomId { f with encryption := some encrypted } = f.room roomId := by
      rw [← facts, ← h.facts]
      simp only [told, ← same]
    refine ⟨room ▸ h.facts, fun slot s hs => ?_, h.tracked⟩
    rw [h.sessions slot s hs, session_congr room rfl]
  · rw [if_neg same]
    have pushed : ∀ slot,
        ((match told.slotState slot with
          | some state => (f.session roomId slot).setSlotState state
          | none => f.session roomId slot).setRoomEncryption encryption) =
        Facts.session roomId { f with encryption := some encrypted } slot := by
      intro slot
      have unsupplied : told.slotStateKnown = false →
          (f.session roomId slot).slot = .unsupplied := by
        intro unknown
        have room_unknown : (f.room roomId).slotStateKnown = false := by
          rw [← h.facts]
          exact unknown
        show slotKnowledge (f.room roomId) slot = _
        simp [slotKnowledge, BaseRtcRoom.slotState, room_unknown]
      have knowledge : slotKnowledge told slot =
          slotKnowledge (Facts.room roomId { f with encryption := some encrypted }) slot := by
        rw [← facts]
        rfl
      rw [push_session session_settled unsupplied, setRoomEncryption_settled (refresh_settled rfl),
        knowledge]
      rfl
    have both : told.pushSlotState.mapSessions (fun _ s => s.setRoomEncryption encryption) =
        told.mapSessions fun slot s =>
          (match told.slotState slot with
            | some state => s.setSlotState state
            | none => s).setRoomEncryption encryption := by
      simp only [BaseRtcRoom.pushSlotState, BaseRtcRoom.mapSessions, Option.map_map]
      rfl
    rw [both]
    exact h.mapSessions { f with encryption := some encrypted } rfl facts pushed rfl

theorem membersReceived_knows (h : Knows roomId f r) (joined : List String) :
    Knows roomId { f with members := some joined } (r.onMembersReceived joined) := by
  have facts : ({ { r with roomMembers := some joined.toFinset } with
      sessions := fun _ => none } : BaseRtcRoom) =
      Facts.room roomId { f with members := some joined } := by
    show { { r with sessions := fun _ => none } with roomMembers := some joined.toFinset } = _
    rw [h.facts]
    rfl
  refine h.mapSessions { f with members := some joined } rfl facts (fun slot => ?_) rfl
  rw [setRoomMembers_settled session_settled]
  rfl

/-- The session a slot has, or is given now, is the one its facts make. -/
theorem sessionForSlot_eq (h : Knows roomId f r) (slotId : String) :
    r.sessionForSlot slotId = f.session roomId slotId := by
  unfold BaseRtcRoom.sessionForSlot
  cases hs : r.sessions slotId with
  | some s => exact h.sessions slotId s hs
  | none =>
      have unnamed : f.batch roomId slotId = none := by
        by_contra named
        have := h.tracked slotId (Option.isSome_iff_ne_none.mpr named)
        simp [hs] at this
      have seeded : r.seeded slotId = (f.room roomId).seeded slotId := by
        rw [← h.facts]
        rfl
      rw [Option.getD_none, seeded, session_eq, unnamed]
      rfl

theorem observeSlot_knows (h : Knows roomId f r) (slotId : String) :
    Knows roomId f (r.observeSlot slotId) where
  facts := h.facts
  sessions := by
    intro slot s hs
    simp only [BaseRtcRoom.observeSlot] at hs
    split_ifs at hs with here
    · cases hs
      rw [here, sessionForSlot_eq h]
    · exact h.sessions slot s hs
  tracked := by
    intro slot named
    simp only [BaseRtcRoom.observeSlot]
    split_ifs
    · rfl
    · exact h.tracked slot named

theorem setCurrentState_session {slotId : String} (now : ℕ)
    (room : f'.room roomId = f.room roomId)
    (plain : ∀ event ∈ (f'.batch roomId slotId).getD [], ¬ IsDelayedLeave event) :
    (f.session roomId slotId).setCurrentState now ((f'.batch roomId slotId).getD []) =
      f'.session roomId slotId := by
  unfold SlotSession.setCurrentState
  rw [foldl_rebuild_plain rfl plain, session_eq, session_eq, room]
  rfl

/-- The batches of a sticky state make every session the one of the facts with it. -/
theorem applyBatches_knows (h : Knows roomId f r) {now : ℕ}
    (room : f'.room roomId = f.room roomId)
    (plain : ∀ slot, ∀ event ∈ (f'.batch roomId slot).getD [], ¬ IsDelayedLeave event) :
    Knows roomId f' (r.applyBatches now (r.track (f'.batch roomId))) where
  facts := h.facts.trans room.symm
  sessions := by
    intro slot s hs
    simp only [BaseRtcRoom.applyBatches, BaseRtcRoom.track, sessionForSlot_eq h] at hs
    cases known : r.sessions slot with
    | some before =>
        simp only [known, Option.isSome_some, if_true, Option.some.injEq] at hs
        rw [← hs, setCurrentState_session now room (plain slot)]
    | none =>
        cases named : f'.batch roomId slot with
        | none => simp [known, named] at hs
        | some batch =>
            simp only [known, named, Option.isSome_none, Bool.false_eq_true, if_false,
              Option.some.injEq] at hs
            have rebuilt := setCurrentState_session now room (plain slot)
            rw [named] at rebuilt
            rw [← hs, ← rebuilt]
            rfl
  tracked := by
    intro slot named
    obtain ⟨batch, hbatch⟩ := Option.isSome_iff_exists.mp named
    simp only [BaseRtcRoom.applyBatches, BaseRtcRoom.track, hbatch]
    split_ifs <;> rfl

theorem currentStickyState_knows (h : Knows roomId f r) {now : ℕ} {events : List RawStickyEvent}
    (plain : NoDelayedLeave (.currentStickyState now events)) :
    Knows roomId (f.supply roomId (.currentStickyState now events))
      (r.setCurrentStickyState now events).1 := by
  have hroute : r.route (fun _ => none) events =
      (BaseRtcRoom.new roomId).route (fun _ => none) events := route_congr h.roomId_eq
  simp only [BaseRtcRoom.setCurrentStickyState, Facts.supply, hroute]
  cases routed : (BaseRtcRoom.new roomId).route (fun _ => none) events with
  | error err =>
      have refused : ¬ Accepted roomId events := by simp [Accepted, routed, Except.toOption]
      rw [if_neg refused]
      exact h
  | ok batches =>
      have accepted : Accepted roomId events := by simp [Accepted, routed, Except.toOption]
      rw [if_pos accepted]
      have hbatch : Facts.batch roomId { f with sticky := some events } = batches := by
        funext slot
        simp [Facts.batch, routed, Except.toOption]
      have plain_batches : ∀ slot, ∀ batch ∈ batches slot, ∀ event ∈ batch,
          ¬ IsDelayedLeave event :=
        route_forall plain (fun _ _ none => by simp at none) routed
      rw [← hbatch]
      refine applyBatches_knows h rfl fun slot event hevent => ?_
      rw [hbatch] at hevent
      cases named : batches slot with
      | none => simp [named] at hevent
      | some batch => exact plain_batches slot batch named event (by simpa [named] using hevent)

/-- Every call keeps the room at its facts. -/
theorem step_knows (h : Knows roomId f r) {update : RoomUpdate} (plain : NoDelayedLeave update)
    {r' : BaseRtcRoom} (hstep : step r update = some r') :
    Knows roomId (f.supply roomId update) r' := by
  cases update with
  | slotsReceived slots =>
      cases hstep
      exact slotsReceived_knows h slots
  | forgetSlots =>
      cases hstep
      exact forgetSlots_knows h
  | encryptionReceived encrypted =>
      cases hstep
      exact encryptionReceived_knows h encrypted
  | membersReceived joined =>
      cases hstep
      exact membersReceived_knows h joined
  | observeSlot slotId =>
      cases hstep
      exact observeSlot_knows h slotId
  | currentStickyState now events =>
      cases hstep
      exact currentStickyState_knows h plain

end Steps

theorem new_knows (roomId : String) :
    Knows roomId ⟨none, none, none, none⟩ (BaseRtcRoom.new roomId) where
  facts := rfl
  sessions := fun _ _ none => by cases none
  tracked := fun _ named => by cases named

theorem run_knows {roomId : String} {updates : List RoomUpdate} {f : Facts} {r t : BaseRtcRoom}
    (h : Knows roomId f r) (plain : ∀ update ∈ updates, NoDelayedLeave update)
    (hrun : run step r updates = some t) :
    Knows roomId (updates.foldl (Facts.supply roomId) f) t := by
  induction updates generalizing f r with
  | nil =>
      cases hrun
      exact h
  | cons update rest ih =>
      obtain ⟨u, hu, ht⟩ := run_cons.mp hrun
      exact ih (step_knows h (plain update List.mem_cons_self) hu)
        (fun later hlater => plain later (List.mem_cons_of_mem _ hlater)) ht

/-- The order in which a room nobody joined is told its facts does not matter: after any
two sequences of calls that supplied the same last slots, encryption and users and the
same last complete sticky state, and whose sticky states have no delayed leave, the
sessions of a slot have the same joined set in both rooms, even in the same order,
whenever each was created. -/
theorem joined_set_of_last_facts (roomId : String) (updates updates' : List RoomUpdate)
    (plain : ∀ update ∈ updates, NoDelayedLeave update)
    (plain' : ∀ update ∈ updates', NoDelayedLeave update)
    (same : lastFacts roomId updates = lastFacts roomId updates') (r r' : BaseRtcRoom)
    (hrun : run step (.new roomId) updates = some r)
    (hrun' : run step (.new roomId) updates' = some r') (slotId : String) (s s' : SlotSession)
    (tracked : r.sessions slotId = some s) (tracked' : r'.sessions slotId = some s') :
    s.members = s'.members := by
  have known := (run_knows (new_knows roomId) plain hrun).sessions slotId s tracked
  have known' := (run_knows (new_knows roomId) plain' hrun').sessions slotId s' tracked'
  rw [known, known', ← lastFacts, same]
  rfl

section Concrete

/-- The open call slot of the room. -/
def callSlot : RawSlotEvent :=
  { roomId := "!r:x"
    slotId := "m.call#room"
    content := ⟨some .open, ⟨some "m.call", []⟩, some ⟨"m.per_member", []⟩⟩ }

/-- Everything is known before the first membership. -/
def factsFirst : List RoomUpdate :=
  [.slotsReceived [callSlot], .encryptionReceived true,
    .membersReceived ["@alice:x", "@bob:x"],
    .currentStickyState 5 [memberEvent "@bob:x" "bob" .join, memberEvent "@eve:x" "eve" .join]]

/-- The membership comes first, and the facts change several times. -/
def factsLast : List RoomUpdate :=
  [.currentStickyState 1 [memberEvent "@eve:x" "eve" .join], .membersReceived ["@eve:x"],
    .slotsReceived [], .encryptionReceived false,
    .currentStickyState 2 [memberEvent "@bob:x" "bob" .join, memberEvent "@eve:x" "eve" .join],
    .observeSlot "m.call#other", .forgetSlots, .slotsReceived [callSlot],
    .membersReceived ["@alice:x", "@bob:x"], .encryptionReceived true,
    .currentStickyState 3 [memberEvent "@bob:x" "" .join]]

/-- Both orders leave Bob joined, and Eve out of the room. -/
theorem same_joined_set_in_both_orders :
    ∃ r ∈ run step (.new "!r:x") factsFirst, ∃ r' ∈ run step (.new "!r:x") factsLast,
      ∃ s ∈ r.sessions "m.call#room", ∃ s' ∈ r'.sessions "m.call#room",
        s.members.map (·.sender) = ["@bob:x"] ∧ s.members = s'.members := by
  have facts : ∃ r ∈ run step (.new "!r:x") factsFirst, ∃ r' ∈ run step (.new "!r:x") factsLast,
      ∃ s ∈ r.sessions "m.call#room", ∃ s' ∈ r'.sessions "m.call#room",
        s.members.map (·.sender) = ["@bob:x"] := by
    decide
  obtain ⟨r, hr, r', hr', s, hs, s', hs', joined⟩ := facts
  refine ⟨r, hr, r', hr', s, hs, s', hs', joined, ?_⟩
  exact joined_set_of_last_facts "!r:x" factsFirst factsLast (by decide) (by decide) (by decide)
    r r' hr hr' "m.call#room" s s' hs hs'

end Concrete

end MatrixRtc.RoomFacts

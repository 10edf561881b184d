import MatrixRtc.BaseRooms
import Mathlib.Data.Fintype.EquivFin

/-!
# A malformed event in the sticky state

The routing loop of `set_current_sticky_state` logs that it drops a member event it
cannot convert, and returns the error, so that none of the state is applied. This
module compares the state with the one that leaves such events out. What the
session does with the events it is given is not looked into here.
-/
namespace MatrixRtc.StickyBatches
open MemberEvents RoomSlots SlotSessions BaseRooms

/-- A member event that lacks its slot id or its sticky key. -/
def Unconvertible (e : RawStickyEvent) : Prop :=
  (e.eventType = "m.rtc.member" ∨ e.eventType = "org.matrix.msc4143.rtc.member") ∧
    (e.content.slotId.isEmpty ∨ e.content.stickyKey.isEmpty)

instance (e : RawStickyEvent) : Decidable (Unconvertible e) := by
  unfold Unconvertible
  infer_instance

/-- The events without those that cannot be converted. -/
def convertible (events : List RawStickyEvent) : List RawStickyEvent :=
  events.filter fun e => ¬ Unconvertible e

/-- Every slot has the same session candidates and the same joined set. -/
def SameRosters (r r' : BaseRtcRoom) : Prop :=
  ∀ slot, (r.sessions slot).map (fun s => (s.candidates, s.members)) =
    (r'.sessions slot).map fun s => (s.candidates, s.members)

theorem checkConvertible_ok {e : RawStickyEvent} (h : ¬ Unconvertible e) :
    e.checkConvertible = .ok () ∨
      ∃ found, e.checkConvertible = .error (.unsupportedEventType found) := by
  unfold RawStickyEvent.checkConvertible
  split_ifs with type slot key
  · exact Or.inr ⟨_, rfl⟩
  · exact absurd ⟨by tauto, Or.inl slot⟩ h
  · exact absurd ⟨by tauto, Or.inr key⟩ h
  · exact Or.inl rfl

theorem checkConvertible_missing {e : RawStickyEvent} (h : Unconvertible e) :
    ∃ field, e.checkConvertible = .error (.missingField field) := by
  obtain ⟨type, missing⟩ := h
  unfold RawStickyEvent.checkConvertible
  split_ifs with other slot key
  · tauto
  · exact ⟨_, rfl⟩
  · exact ⟨_, rfl⟩
  · tauto

theorem tryConvert_error_iff {e : RawStickyEvent} :
    (∃ err, tryConvertMembershipEvent e = .error err) ↔ Unconvertible e := by
  unfold tryConvertMembershipEvent RawStickyEvent.tryIntoMembershipEvent
  by_cases h : Unconvertible e
  · obtain ⟨field, check⟩ := checkConvertible_missing h
    simp [check, h]
  · obtain check | ⟨found, check⟩ := checkConvertible_ok h <;> simp [check, h]

theorem membershipEvent_slotOf (e : RawStickyEvent) :
    slotOf e.membershipEvent = e.content.slotId := by
  unfold RawStickyEvent.membershipEvent
  split_ifs
  · cases e.content.member.id <;> rfl
  · rfl

theorem tryConvert_slotOf {e : RawStickyEvent} {event : RtcMembershipEvent}
    (h : tryConvertMembershipEvent e = .ok (some event)) : slotOf event = e.content.slotId := by
  unfold tryConvertMembershipEvent RawStickyEvent.tryIntoMembershipEvent at h
  cases check : e.checkConvertible with
  | ok _ =>
      simp only [check, Except.ok.injEq, Option.some.injEq] at h
      rw [← h, membershipEvent_slotOf]
  | error err => cases err <;> simp [check] at h

section
variable {r : BaseRtcRoom} {events : List RawStickyEvent} {batches : Batches}

theorem route_convertible (sound : ∀ e ∈ events, e.roomId = r.roomId → ¬ Unconvertible e) :
    r.route batches (convertible events) = r.route batches events := by
  induction events generalizing batches with
  | nil => rfl
  | cons e rest ih =>
      have rest_sound := fun e he => sound e (List.mem_cons_of_mem _ he)
      by_cases here : e.roomId = r.roomId
      · have kept := sound e List.mem_cons_self here
        simp only [convertible, kept, not_false_eq_true, decide_true, List.filter_cons_of_pos,
          BaseRtcRoom.route, here, ne_eq, not_true_eq_false, if_false]
        cases tryConvertMembershipEvent e with
        | error err => rfl
        | ok converted => cases converted <;> exact ih rest_sound
      · simp only [BaseRtcRoom.route, here, ne_eq, not_false_eq_true, if_true]
        rw [← ih rest_sound]
        by_cases kept : Unconvertible e
        · simp [convertible, kept]
        · simp [convertible, kept, BaseRtcRoom.route, here]

theorem route_error (bad : ∃ e ∈ events, e.roomId = r.roomId ∧ Unconvertible e) :
    ∃ err, r.route batches events = .error err := by
  induction events generalizing batches with
  | nil => simp at bad
  | cons e rest ih =>
      simp only [BaseRtcRoom.route]
      split_ifs with other
      · refine ih ?_
        obtain ⟨e', he', here, unconv⟩ := bad
        obtain rfl | he' := List.mem_cons.mp he'
        · exact absurd here other
        · exact ⟨e', he', here, unconv⟩
      · by_cases unconv : Unconvertible e
        · obtain ⟨err, failed⟩ := tryConvert_error_iff.mpr unconv
          exact ⟨err, by rw [failed]⟩
        · have later : ∃ e ∈ rest, e.roomId = r.roomId ∧ Unconvertible e := by
            obtain ⟨e', he', here, bad'⟩ := bad
            obtain rfl | he' := List.mem_cons.mp he'
            · exact absurd bad' unconv
            · exact ⟨e', he', here, bad'⟩
          cases h : tryConvertMembershipEvent e with
          | error err => exact ⟨err, rfl⟩
          | ok converted => cases converted <;> exact ih later

/-- Convertible events are all routed, and a slot none of them names gets nothing. -/
theorem route_ok (sound : ∀ e ∈ events, ¬ Unconvertible e) {slot : String}
    (unnamed : ∀ e ∈ events, e.content.slotId ≠ slot) :
    ∃ routed, r.route batches events = .ok routed ∧ routed slot = batches slot := by
  induction events generalizing batches with
  | nil => exact ⟨batches, rfl, rfl⟩
  | cons e rest ih =>
      have tail : ∀ batches : Batches, ∃ routed, r.route batches rest = .ok routed ∧
          routed slot = batches slot := fun batches =>
        ih (fun e he => sound e (List.mem_cons_of_mem _ he))
          fun e he => unnamed e (List.mem_cons_of_mem _ he)
      simp only [BaseRtcRoom.route]
      split_ifs with other
      · exact tail batches
      · cases converted : tryConvertMembershipEvent e with
        | error err =>
            exact absurd (tryConvert_error_iff.mp ⟨err, converted⟩) (sound e List.mem_cons_self)
        | ok result =>
            cases result with
            | none => exact tail batches
            | some event =>
                obtain ⟨routed, hr, same⟩ := tail (batches.push (slotOf event) event)
                refine ⟨routed, hr, same.trans ?_⟩
                have other_slot : slot ≠ slotOf event := by
                  rw [tryConvert_slotOf converted]
                  exact (unnamed e List.mem_cons_self).symm
                simp [Batches.push, other_slot]

/-- What every converted event has, every routed event has. -/
theorem route_forall {P : RtcMembershipEvent → Prop} {routed : Batches}
    (converted : ∀ e ∈ events, ∀ event ∈ (tryConvertMembershipEvent e).toOption.join, P event)
    (had : ∀ slot, ∀ batch ∈ batches slot, ∀ event ∈ batch, P event)
    (hroute : r.route batches events = .ok routed) :
    ∀ slot, ∀ batch ∈ routed slot, ∀ event ∈ batch, P event := by
  induction events generalizing batches with
  | nil =>
      cases hroute
      exact had
  | cons e rest ih =>
      have rest_converted := fun e' he' => converted e' (List.mem_cons_of_mem _ he')
      simp only [BaseRtcRoom.route] at hroute
      split_ifs at hroute
      · exact ih rest_converted had hroute
      · cases hconv : tryConvertMembershipEvent e with
        | error err => simp [hconv] at hroute
        | ok result =>
            cases result with
            | none => exact ih rest_converted had (by simpa [hconv] using hroute)
            | some event =>
                have here : P event :=
                  converted e List.mem_cons_self event (by rw [hconv]; rfl)
                have later : r.route (batches.push (slotOf event) event) rest = .ok routed := by
                  simpa [hconv] using hroute
                refine ih rest_converted ?_ later
                intro slot batch hbatch other hother
                simp only [Batches.push] at hbatch
                split_ifs at hbatch with named
                · cases hbatch
                  obtain earlier | rfl := by simpa using hother
                  · cases hb : batches slot with
                    | none => simp [hb] at earlier
                    | some before => exact had slot before hb other (by simpa [hb] using earlier)
                  · exact here
                · exact had slot batch hbatch other hother

end

section Concrete

/-- A member event of one call slot, joining under `memberId` or leaving. -/
def memberEvent (sender memberId : String) (membership : Membership) : RawStickyEvent :=
  { roomId := "!r:x"
    eventId := some "$e"
    sender := sender
    origin := .encrypted (some "D")
    eventType := "m.rtc.member"
    originServerTs := some 0
    content :=
      { slotId := "m.call#room"
        stickyKey := memberId
        member := ⟨some memberId, some membership⟩
        application := ⟨some "m.call", []⟩
        transports := none
        leaveReason := none
        createdTs := none } }

/-- A room that tracks one slot, with one member joined to it. -/
def roomWith (roomId slot : String) : BaseRtcRoom :=
  let bob := (memberEvent "@bob:x" "bob" .join).intoJoined "bob"
  { BaseRtcRoom.new roomId with
    sessions := fun s =>
      if s = slot then some { SlotSession.new with candidates := [bob], members := [bob] }
      else none }

/-- Bob leaves and Carol's event lacks its sticky key: Bob stays joined, where
without Carol's event he would be gone. -/
theorem leave_hidden_by_malformed_event :
    ∃ (r : BaseRtcRoom) (now : ℕ) (events : List RawStickyEvent),
      r = ((BaseRtcRoom.new "!r:x").setCurrentStickyState 0
        [memberEvent "@bob:x" "bob" .join]).1 ∧
      events = [memberEvent "@bob:x" "bob" .leave, memberEvent "@carol:x" "" .join] ∧
      ¬ SameRosters (r.setCurrentStickyState now events).1
        (r.setCurrentStickyState now (convertible events)).1 := by
  refine ⟨_, 0, _, rfl, rfl, fun same => ?_⟩
  exact absurd (same "m.call#room") (by decide)

end Concrete

theorem roomWith_cleared (roomId : String) {slot : String} (now : ℕ) {events : List RawStickyEvent}
    (sound : ∀ e ∈ events, ¬ Unconvertible e)
    (unnamed : ∀ e ∈ events, e.content.slotId ≠ slot) :
    (((roomWith roomId slot).setCurrentStickyState now events).1.sessions slot).map
      (fun s => s.candidates) = some [] := by
  obtain ⟨routed, hr, same⟩ : ∃ routed,
      (roomWith roomId slot).route (fun _ => none) events = .ok routed ∧ routed slot = none :=
    route_ok sound unnamed
  have tracked : (roomWith roomId slot).track routed slot = some [] := by
    simp [BaseRtcRoom.track, roomWith, same]
  simp only [BaseRtcRoom.setCurrentStickyState, hr, BaseRtcRoom.applyBatches, tracked]
  rfl

/-- A malformed member event hides nothing of the others in any room state, exactly
when the list has no malformed member event of this room: for every list, the call
leaves every session of every state of the room with the candidates and the joined
set it would have without the events that cannot be converted, if and only if no
event of the room in the list lacks its slot id or its sticky key. -/
theorem malformed_hides_nothing_iff (roomId : String) (events : List RawStickyEvent) :
    (∀ (r : BaseRtcRoom) (now : ℕ), r.roomId = roomId →
        SameRosters (r.setCurrentStickyState now events).1
          (r.setCurrentStickyState now (convertible events)).1) ↔
      ∀ e ∈ events, e.roomId = roomId → ¬ Unconvertible e := by
  constructor
  · intro same e he here unconv
    obtain ⟨slot, fresh⟩ :=
      Infinite.exists_notMem_finset (events.map fun e => e.content.slotId).toFinset
    have unnamed : ∀ e ∈ convertible events, e.content.slotId ≠ slot := by
      intro e he hslot
      refine fresh (List.mem_toFinset.mpr (List.mem_map.mpr ⟨e, ?_, hslot⟩))
      exact List.mem_of_mem_filter he
    have sound : ∀ e ∈ convertible events, ¬ Unconvertible e := by
      intro e he
      simpa using List.of_mem_filter he
    have cleared := roomWith_cleared roomId 0 sound unnamed
    obtain ⟨err, failed⟩ :
        ∃ err, (roomWith roomId slot).route (fun _ => none) events = .error err :=
      route_error ⟨e, he, here, unconv⟩
    have kept := same (roomWith roomId slot) 0 rfl slot
    have aborted : ((roomWith roomId slot).setCurrentStickyState 0 events).1 =
        roomWith roomId slot := by
      simp [BaseRtcRoom.setCurrentStickyState, failed]
    rw [aborted] at kept
    have empty := congrArg (Option.map Prod.fst) kept
    simp only [Option.map_map, Function.comp_def, cleared] at empty
    simp [roomWith] at empty
  · intro sound r now here slot
    subst here
    have routed : r.route (fun _ => none) (convertible events) = r.route (fun _ => none) events :=
      route_convertible sound
    simp only [BaseRtcRoom.setCurrentStickyState, routed]

end MatrixRtc.StickyBatches

import MatrixRtc.BaseRooms

/-!
# What every session of a room keeps

A property of single sessions that the operations on a session keep is kept by the
operations on a room in every session of the room. What a session created now is like,
and what a complete sticky state and a change of the encryption do to a session, is asked
of the property where they happen, since the property may name what they change.
-/
namespace MatrixRtc.SessionInvariants
open MemberEvents RoomSlots SlotSessions BaseRooms

/-- The operations on a session that say nothing of its events and encryption keep the
property. -/
structure Kept (Q : SlotSession → Prop) : Prop where
  expireHolds : ∀ s now, Q s → Q (s.expireHolds now)
  leave : ∀ s, Q s → Q s.leave
  join : ∀ s own started, Q s → Q (s.join own started)
  setSlotState : ∀ s state, Q s → Q (s.setSlotState state)
  setRoomMembers : ∀ s members, Q s → Q (s.setRoomMembers members)

/-- Every session of the room has the property. -/
def SessionsMeet (Q : SlotSession → Prop) (r : BaseRtcRoom) : Prop :=
  ∀ slot s, r.sessions slot = some s → Q s

section Rooms
variable {Q Q' : SlotSession → Prop} {r : BaseRtcRoom}

theorem mapSessions_meet {f : String → SlotSession → SlotSession} (h : SessionsMeet Q r)
    (keep : ∀ slot s, Q s → Q' (f slot s)) : SessionsMeet Q' (r.mapSessions f) := by
  intro slot s hs
  obtain ⟨s', hs', rfl⟩ := Option.map_eq_some_iff.mp hs
  exact keep slot s' (h slot s' hs')

theorem sessionForSlot_meet (fresh : ∀ slot, Q (r.seeded slot)) (h : SessionsMeet Q r)
    (slotId : String) : Q (r.sessionForSlot slotId) := by
  unfold BaseRtcRoom.sessionForSlot
  cases hs : r.sessions slotId with
  | some s => exact h slotId s hs
  | none => exact fresh slotId

theorem pushSlotState_meet (kept : Kept Q) (h : SessionsMeet Q r) :
    SessionsMeet Q r.pushSlotState := by
  refine mapSessions_meet h fun slot s hs => ?_
  cases r.slotState slot with
  | none => exact hs
  | some state => exact kept.setSlotState s state hs

theorem onSlotsReceived_meet (kept : Kept Q) (h : SessionsMeet Q r) (slots : List RawSlotEvent) :
    SessionsMeet Q (r.onSlotsReceived slots) :=
  pushSlotState_meet (r := { r with slotStateKnown := true, slots := r.indexSlots slots }) kept h

theorem onEncryptionReceived_meet (kept : Kept Q) (h : SessionsMeet Q r) (encrypted : Bool)
    (tell : ∀ s, Q s →
      Q' (s.setRoomEncryption (if encrypted then .encrypted else .unencrypted)))
    (same : r.roomEncryption = some (if encrypted then .encrypted else .unencrypted) →
      ∀ s, Q s → Q' s) :
    SessionsMeet Q' (r.onEncryptionReceived encrypted) := by
  unfold BaseRtcRoom.onEncryptionReceived
  dsimp only
  generalize (if encrypted = true then RoomEncryption.encrypted else .unencrypted) = encryption
    at *
  split_ifs with known
  · exact fun slot s hs => same known s (h slot s hs)
  · exact mapSessions_meet
      (pushSlotState_meet (r := { r with roomEncryption := some encryption }) kept h)
      fun _ s hs => tell s hs

theorem onMembersReceived_meet (kept : Kept Q) (h : SessionsMeet Q r) (joined : List String) :
    SessionsMeet Q (r.onMembersReceived joined) :=
  mapSessions_meet (r := { r with roomMembers := some joined.toFinset }) h
    fun _ s hs => kept.setRoomMembers s _ hs

theorem expireHolds_meet (kept : Kept Q) (h : SessionsMeet Q r) (now : ℕ) :
    SessionsMeet Q (r.expireHolds now) :=
  mapSessions_meet h fun _ s hs => kept.expireHolds s now hs

theorem leave_meet (kept : Kept Q) (h : SessionsMeet Q r) (slotId : String) :
    SessionsMeet Q (r.leave slotId) := by
  refine mapSessions_meet h fun slot s hs => ?_
  split_ifs
  · exact kept.leave s hs
  · exact hs

theorem join_meet (kept : Kept Q) (fresh : ∀ slot, Q (r.seeded slot)) (h : SessionsMeet Q r)
    (slotId : String) (own : OwnParticipation) (started : Bool) :
    SessionsMeet Q (r.join slotId own started) := by
  unfold BaseRtcRoom.join
  split_ifs
  · exact h
  · exact h
  · intro slot s hs
    dsimp only at hs
    split_ifs at hs
    · cases hs
      exact kept.join _ own started (sessionForSlot_meet fresh h slotId)
    · exact h slot s hs

theorem observeSlot_meet (fresh : ∀ slot, Q (r.seeded slot)) (h : SessionsMeet Q r)
    (slotId : String) : SessionsMeet Q (r.observeSlot slotId) := by
  intro slot s hs
  simp only [BaseRtcRoom.observeSlot] at hs
  split_ifs at hs
  · cases hs
    exact sessionForSlot_meet fresh h slotId
  · exact h slot s hs

/-- A complete sticky state, when its batches keep the property in the sessions. -/
theorem applyBatches_meet (fresh : ∀ slot, Q (r.seeded slot)) (h : SessionsMeet Q r) {now : ℕ}
    {batches : Batches} (others : ∀ s, Q s → Q' s)
    (batch : ∀ slot events s, batches slot = some events → Q s →
      Q' (s.setCurrentState now events)) :
    SessionsMeet Q' (r.applyBatches now batches) := by
  intro slot s hs
  simp only [BaseRtcRoom.applyBatches] at hs
  cases named : batches slot with
  | none =>
      rw [named] at hs
      exact others s (h slot s hs)
  | some events =>
      rw [named] at hs
      cases hs
      exact batch slot events _ named (sessionForSlot_meet fresh h slot)

end Rooms

end MatrixRtc.SessionInvariants

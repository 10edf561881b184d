import MatrixRtc.RoomFacts
import MatrixRtc.RoomFeeder

/-!
# The slots a feeder holds

A feeder is told of the slot events of its room as whole sets of one spelling of the slot
type, keeps the other spelling, and hands the room for each slot the stable event where there
is one. This module says what the feeder holds of a slot after any report, and that the room
and every session in it know the slots the feeder holds.
-/
namespace MatrixRtc.FedSlots
open JsonValues MemberEvents MemberContents MemberIngest RoomSlots SlotSessions
open BaseRooms RoomFacts RoomFeeder

def unstableSlotEventType : String := "org.matrix.msc4143.rtc.slot"

/-- The type of a spelling: the stable one, or the one devices write. -/
def typeOf (stable : Bool) : String := if stable then slotEventType else unstableSlotEventType

/-- Which spelling of the slot type this is. -/
def spelling (eventType : String) : Option Bool :=
  if eventType = slotEventType then some true
  else if eventType = unstableSlotEventType then some false
  else none

/-- The event a slot has under one spelling. -/
def spelled (s : SlotEvents) (stable : Bool) : Option EventIn :=
  if stable then s.stable else s.unstable

/-- What the feeder holds under a slot in one spelling. -/
def held (slots : List (String × SlotEvents)) (stable : Bool) (slotId : String) : Option EventIn :=
  (slots.lookup slotId).bind fun s => spelled s stable

/-- The last event of a set under a slot. -/
def lastFor (slotId : String) (events : List EventIn) : Option EventIn :=
  (events.filter fun event => event.stateKey == some slotId).getLast?

/-- One entry a slot, and every event under the slot it is filed under. -/
structure Keyed (slots : List (String × SlotEvents)) : Prop where
  nodup : (slots.map Prod.fst).Nodup
  keys : ∀ entry ∈ slots, ∀ stable event, spelled entry.2 stable = some event →
    event.stateKey = some entry.1

theorem getLast?_filter_concat {α : Type*} (p : α → Bool) (xs : List α) (x : α) :
    ((xs ++ [x]).filter p).getLast? = if p x then some x else (xs.filter p).getLast? := by
  rw [List.filter_append]
  split_ifs with holds
  · rw [List.filter_cons_of_pos holds, List.filter_nil, List.getLast?_append]
    rfl
  · rw [List.filter_cons_of_neg holds, List.filter_nil, List.append_nil]

section Feeder
variable {slots : List (String × SlotEvents)} {slotId : String} {event : EventIn}
  {events : List EventIn}

theorem lastFor_concat :
    lastFor slotId (events ++ [event]) =
      if event.stateKey = some slotId then some event else lastFor slotId events := by
  unfold lastFor
  rw [getLast?_filter_concat]
  simp only [beq_iff_eq]

theorem spelled_ofType (s : SlotEvents) (stable b : Bool) (event : Option EventIn) :
    spelled (s.ofType stable event) b = if b = stable then event else spelled s b := by
  cases stable with
  | false => cases b <;> rfl
  | true => cases b <;> rfl

theorem current_eq_none {s : SlotEvents} (h : s.current = none) (stable : Bool) :
    spelled s stable = none := by
  obtain ⟨no_stable, no_unstable⟩ := Option.or_eq_none_iff.mp h
  cases stable with
  | false => exact no_unstable
  | true => exact no_stable

theorem held_cons {key : String} {s : SlotEvents} {stable : Bool} :
    held ((key, s) :: slots) stable slotId =
      if slotId = key then spelled s stable else held slots stable slotId := by
  unfold held
  rw [List.lookup_cons]
  split_ifs with same
  · rw [same, beq_self_eq_true]
    rfl
  · rw [beq_eq_false_iff_ne.mpr same]

theorem held_insert {stable b : Bool} {key : String} :
    held (insertSlotEvent stable key event slots) b slotId =
      if slotId = key ∧ b = stable then some event else held slots b slotId := by
  induction slots with
  | nil =>
      rw [insertSlotEvent, held_cons, spelled_ofType]
      by_cases same : slotId = key
      · by_cases spells : b = stable
        · simp [same, spells]
        · cases b <;> simp [same, spells, held, spelled]
      · simp [same]
  | cons entry rest ih =>
      obtain ⟨first, s⟩ := entry
      rw [insertSlotEvent]
      by_cases found : first = key
      · rw [if_pos found, held_cons, held_cons, spelled_ofType]
        subst found
        by_cases same : slotId = first
        · simp [same]
        · simp [same]
      · rw [if_neg found, held_cons, held_cons, ih]
        by_cases same : slotId = first
        · have other : slotId ≠ key := fun is => found (same.symm.trans is)
          simp [same, found]
        · simp [same]

theorem keys_insert {stable : Bool} {key other : String}
    (h : other ∈ (insertSlotEvent stable key event slots).map Prod.fst) :
    other = key ∨ other ∈ slots.map Prod.fst := by
  induction slots with
  | nil => exact .inl (by simpa [insertSlotEvent] using h)
  | cons entry rest ih =>
      obtain ⟨first, s⟩ := entry
      rw [insertSlotEvent] at h
      split_ifs at h with found
      · exact .inr h
      · rcases List.mem_cons.mp h with is_first | later
        · exact .inr (List.mem_cons.mpr (.inl is_first))
        · rcases ih later with is_key | kept
          · exact .inl is_key
          · exact .inr (List.mem_cons_of_mem _ kept)

theorem mem_insert {stable : Bool} {key : String} {entry : String × SlotEvents}
    (h : entry ∈ insertSlotEvent stable key event slots) :
    entry ∈ slots ∨ entry.1 = key ∧ ∃ s, entry.2 = SlotEvents.ofType s stable (some event) ∧
      (s = ⟨none, none⟩ ∨ (key, s) ∈ slots) := by
  induction slots with
  | nil =>
      cases List.mem_singleton.mp h
      exact .inr ⟨rfl, _, rfl, .inl rfl⟩
  | cons first rest ih =>
      obtain ⟨name, s⟩ := first
      rw [insertSlotEvent] at h
      split_ifs at h with found
      · subst found
        rcases List.mem_cons.mp h with rfl | later
        · exact .inr ⟨rfl, s, rfl, .inr List.mem_cons_self⟩
        · exact .inl (List.mem_cons_of_mem _ later)
      · rcases List.mem_cons.mp h with rfl | later
        · exact .inl List.mem_cons_self
        · rcases ih later with there | ⟨is_key, s', made, from_⟩
          · exact .inl (List.mem_cons_of_mem _ there)
          · exact .inr ⟨is_key, s', made, from_.imp_right (List.mem_cons_of_mem _)⟩

theorem Keyed.insert (h : Keyed slots) {stable : Bool} {key : String}
    (is_key : event.stateKey = some key) : Keyed (insertSlotEvent stable key event slots) where
  nodup := by
    have once := h.nodup
    clear h
    induction slots with
    | nil => exact List.nodup_singleton _
    | cons entry rest ih =>
        obtain ⟨first, s⟩ := entry
        obtain ⟨fresh, tail⟩ := List.nodup_cons.mp once
        rw [insertSlotEvent]
        split_ifs with found
        · exact once
        · refine List.nodup_cons.mpr ⟨fun again => ?_, ih tail⟩
          rcases keys_insert again with is | old
          · exact found is
          · exact fresh old
  keys := by
    intro entry there b e is
    rcases mem_insert there with old | ⟨filed, s, made, before⟩
    · exact h.keys entry old b e is
    · rw [made, spelled_ofType] at is
      split_ifs at is with spells
      · cases is
        rw [filed, is_key]
      · rw [filed]
        rcases before with rfl | old
        · cases b <;> cases is
        · exact h.keys (key, s) old b e is

theorem Keyed.filter (h : Keyed slots) (p : String × SlotEvents → Bool) :
    Keyed (slots.filter p) where
  nodup := h.nodup.sublist (List.filter_sublist.map Prod.fst)
  keys := fun entry there => h.keys entry (List.mem_filter.mp there).1

/-- The spelling whose set is replaced, emptied in every slot. -/
def cleared (slots : List (String × SlotEvents)) (stable : Bool) : List (String × SlotEvents) :=
  slots.map fun slot => (slot.1, slot.2.ofType stable none)

theorem held_cleared {stable b : Bool} :
    held (cleared slots stable) b slotId = if b = stable then none else held slots b slotId := by
  induction slots with
  | nil => simp [cleared, held]
  | cons entry rest ih =>
      obtain ⟨first, s⟩ := entry
      change held ((first, s.ofType stable none) :: cleared rest stable) b slotId = _
      rw [held_cons, held_cons, ih, spelled_ofType]
      split_ifs <;> rfl

theorem Keyed.cleared (h : Keyed slots) (stable : Bool) :
    Keyed (FedSlots.cleared slots stable) where
  nodup := by
    rw [FedSlots.cleared, List.map_map]
    exact h.nodup
  keys := by
    intro entry there b event is
    obtain ⟨slot, old, rfl⟩ := List.mem_map.mp there
    rw [spelled_ofType] at is
    split_ifs at is
    exact h.keys slot old b event is

/-- The fold of `replace_slot_events` over the events of a set. -/
def filled (slots : List (String × SlotEvents)) (stable : Bool) (events : List EventIn) :
    List (String × SlotEvents) :=
  events.foldl
    (fun slots event =>
      match event.stateKey with
      | some slotId => insertSlotEvent stable slotId event slots
      | none => slots)
    slots

theorem filled_concat {stable : Bool} :
    filled slots stable (events ++ [event]) =
      match event.stateKey with
      | some slotId => insertSlotEvent stable slotId event (filled slots stable events)
      | none => filled slots stable events :=
  List.foldl_concat ..

/-- Of the spelling filled the last event of a slot counts. -/
theorem filled_spec (h : Keyed slots) (stable : Bool) (events : List EventIn) :
    Keyed (filled slots stable events) ∧
      ∀ b slotId, held (filled slots stable events) b slotId =
        if b = stable then (lastFor slotId events).or (held slots b slotId)
        else held slots b slotId := by
  induction events using List.reverseRecOn with
  | nil => exact ⟨h, fun b slotId => by simp [filled, lastFor]⟩
  | append_singleton events event ih =>
      obtain ⟨keyed, holds⟩ := ih
      rw [filled_concat]
      cases is_key : event.stateKey with
      | none =>
          refine ⟨keyed, fun b slotId => ?_⟩
          simp [holds, lastFor_concat, is_key]
      | some key =>
          refine ⟨keyed.insert is_key, fun b slotId => ?_⟩
          rw [held_insert, lastFor_concat, is_key, holds]
          by_cases spells : b = stable
          · by_cases same : slotId = key
            · simp [spells, same]
            · have other : ¬ some key = some slotId := fun is => same (Option.some.inj is).symm
              simp [spells, same, other]
          · simp [spells]

/-- Dropping the slots without an event changes nothing of what is held. -/
theorem held_filter (h : Keyed slots) {stable : Bool} :
    held (slots.filter fun slot => slot.2.current.isSome) stable slotId =
      held slots stable slotId := by
  have once := h.nodup
  clear h
  induction slots with
  | nil => rfl
  | cons entry rest ih =>
      obtain ⟨key, s⟩ := entry
      obtain ⟨fresh, tail⟩ := List.nodup_cons.mp once
      rw [List.filter_cons]
      split_ifs with stands
      · rw [held_cons, held_cons, ih tail]
      · rw [ih tail, held_cons]
        split_ifs with same
        · have gone : rest.lookup slotId = none := by
            rw [ListPlaces.lookup_eq_none]
            intro entry there is
            exact fresh (List.mem_map.mpr ⟨entry, there, is.trans same⟩)
          rw [held, gone, current_eq_none (by simpa using stands)]
          rfl
        · rfl

theorem replaceSlotEvents_spec (h : Keyed slots) (stable : Bool) (events : List EventIn) :
    Keyed (replaceSlotEvents slots stable events) ∧
      ∀ b slotId, held (replaceSlotEvents slots stable events) b slotId =
        if b = stable then lastFor slotId events else held slots b slotId := by
  obtain ⟨keyed, holds⟩ := filled_spec (h.cleared stable) stable events
  refine ⟨keyed.filter _, fun b slotId => ?_⟩
  change held ((filled (cleared slots stable) stable events).filter _) b slotId = _
  rw [held_filter keyed, holds, held_cleared]
  split_ifs
  · rw [Option.or_none]
  · rfl

/-- The slot event of a room as the feeder hands it over. -/
def slotEvent (roomId slotId : String) (event : EventIn) : RawSlotEvent :=
  ⟨roomId, slotId, (parseRawSlotEventContent event.content).getD ⟨none, ⟨none, []⟩, none⟩⟩

/-- The events a feeder hands over. -/
def handed (roomId : String) (slots : List (String × SlotEvents)) : List RawSlotEvent :=
  (slots.filterMap fun slot => slot.2.current).filterMap (toSlotEvent roomId)

theorem handed_cons {key : String} {s : SlotEvents} {roomId : String}
    (keys : ∀ stable event, spelled s stable = some event → event.stateKey = some key) :
    handed roomId ((key, s) :: slots) =
      (s.current.map (slotEvent roomId key)).toList ++ handed roomId slots := by
  unfold handed
  rw [List.filterMap_cons]
  cases is_current : s.current with
  | none => rfl
  | some event =>
      have is_key : event.stateKey = some key := by
        rcases Option.or_eq_some_iff.mp is_current with is_stable | ⟨-, is_unstable⟩
        · exact keys true event is_stable
        · exact keys false event is_unstable
      rw [List.filterMap_cons, toSlotEvent, is_key]
      rfl

/-- A room indexes under each slot the stable event the feeder holds, else the unstable one. -/
theorem indexSlots_handed (h : Keyed slots) (r : BaseRtcRoom) :
    r.indexSlots (handed r.roomId slots) slotId =
      ((held slots true slotId).or (held slots false slotId)).map (slotEvent r.roomId slotId) := by
  have general : ∀ index : String → Option RawSlotEvent,
      (handed r.roomId slots).foldl
        (fun index slot =>
          if slot.roomId ≠ r.roomId then index
          else fun slotId => if slotId = slot.slotId then some slot else index slotId)
        index slotId =
      (((held slots true slotId).or (held slots false slotId)).map
        (slotEvent r.roomId slotId)).or (index slotId) := by
    obtain ⟨once, keys⟩ := h
    induction slots with
    | nil => exact fun index => rfl
    | cons entry rest ih =>
        intro index
        obtain ⟨key, s⟩ := entry
        obtain ⟨fresh, tail⟩ := List.nodup_cons.mp once
        rw [handed_cons (keys _ List.mem_cons_self), List.foldl_append,
          ih tail fun entry there => keys entry (List.mem_cons_of_mem _ there),
          held_cons, held_cons]
        have current : (spelled s true).or (spelled s false) = s.current := rfl
        by_cases same : slotId = key
        · subst same
          have gone : ∀ stable, held rest stable slotId = none := by
            intro stable
            have absent : rest.lookup slotId = none := by
              rw [ListPlaces.lookup_eq_none]
              intro entry there is
              exact fresh (List.mem_map.mpr ⟨entry, there, is⟩)
            rw [held, absent, Option.bind_none]
          rw [if_pos rfl, if_pos rfl, gone, gone, current]
          cases s.current with
          | none => rfl
          | some event => simp [slotEvent]
        · rw [if_neg same, if_neg same]
          cases s.current with
          | none => rfl
          | some event => simp [slotEvent, same]
  exact (general fun _ => none).trans (Option.or_none ..)

end Feeder

section Sessions
variable {s : SlotSession} {knowledge : SlotKnowledge}

/-- The session knows this of its slot, and a closed slot has no members. -/
def Told (knowledge : SlotKnowledge) (s : SlotSession) : Prop :=
  s.slot = knowledge ∧ (knowledge.isClosed = true → s.members = [])

theorem refresh_told (knows : s.slot = knowledge) : Told knowledge s.refresh := by
  refine ⟨knows, fun closed => List.filter_eq_nil_iff.mpr fun c _ => ?_⟩
  have rule : s.slot.isClosed = true := by rwa [knows]
  rw [SlotSession.joinCondition, if_pos rule]
  decide

theorem recordMembershipEvent_slot {now : ℕ} {event : RtcMembershipEvent} :
    (s.recordMembershipEvent now event).slot = s.slot := by
  cases event with
  | joined joined => rfl
  | left left =>
      simp only [SlotSession.recordMembershipEvent]
      split_ifs <;> rfl

theorem rebuild_slot {previous : SlotSession} {now : ℕ} {event : RtcMembershipEvent} :
    (SlotSession.rebuild previous now s event).slot = s.slot := by
  unfold SlotSession.rebuild
  cases SlotSession.heldCandidate previous s event with
  | some kept => rfl
  | none => exact recordMembershipEvent_slot

theorem foldl_rebuild_slot {previous : SlotSession} {now : ℕ}
    {events : List RtcMembershipEvent} :
    (events.foldl (SlotSession.rebuild previous now) s).slot = s.slot := by
  induction events generalizing s with
  | nil => rfl
  | cons event rest ih => exact ih.trans rebuild_slot

theorem setCurrentState_told (h : Told knowledge s) (now : ℕ) (events : List RtcMembershipEvent) :
    Told knowledge (s.setCurrentState now events) :=
  refresh_told (foldl_rebuild_slot.trans h.1)

theorem expireHolds_told (h : Told knowledge s) (now : ℕ) : Told knowledge (s.expireHolds now) := by
  unfold SlotSession.expireHolds
  dsimp only
  split_ifs
  · exact h
  · exact refresh_told h.1

theorem leave_told (h : Told knowledge s) : Told knowledge s.leave := refresh_told h.1

theorem join_told (h : Told knowledge s) (own : OwnParticipation) (started : Bool) :
    Told knowledge (s.join own started) := by
  unfold SlotSession.join
  dsimp only
  split_ifs
  · exact refresh_told h.1
  · exact h

theorem setRoomEncryption_told (h : Told knowledge s) (encryption : RoomEncryption) :
    Told knowledge (s.setRoomEncryption encryption) := by
  unfold SlotSession.setRoomEncryption
  split_ifs
  · exact h
  · exact refresh_told h.1

theorem setRoomMembers_told (h : Told knowledge s) (members : Finset String) :
    Told knowledge (s.setRoomMembers members) := by
  unfold SlotSession.setRoomMembers
  split_ifs
  · exact h
  · exact refresh_told h.1

theorem setSlotState_told {before : SlotKnowledge} (h : Told before s) (state : SlotState) :
    Told (.known state) (s.setSlotState state) := by
  unfold SlotSession.setSlotState
  dsimp only
  split_ifs with same
  · rw [← same, h.1]
    exact h
  · exact refresh_told rfl
  · exact refresh_told rfl

end Sessions

section Rooms
variable {r : BaseRtcRoom}

/-- Every session of the room knows of its slot what the room knows. -/
def RoomTold (r : BaseRtcRoom) : Prop :=
  ∀ slot s, r.sessions slot = some s → Told (slotKnowledge r slot) s

theorem slotKnowledge_unknown (h : r.slotStateKnown = false) (slot : String) :
    slotKnowledge r slot = .unsupplied := by
  rw [slotKnowledge, BaseRtcRoom.slotState, if_neg (by rw [h]; decide)]
  rfl

theorem mapSessions_told {f : String → SlotSession → SlotSession} (h : RoomTold r)
    (keep : ∀ slot s, Told (slotKnowledge r slot) s → Told (slotKnowledge r slot) (f slot s)) :
    RoomTold (r.mapSessions f) := by
  intro slot s there
  obtain ⟨before, old, rfl⟩ := Option.map_eq_some_iff.mp there
  exact keep slot before (h slot before old)

theorem sessionForSlot_told (h : RoomTold r) (slotId : String) :
    Told (slotKnowledge r slotId) (r.sessionForSlot slotId) := by
  unfold BaseRtcRoom.sessionForSlot
  cases there : r.sessions slotId with
  | some s => exact h slotId s there
  | none => exact ⟨rfl, fun _ => rfl⟩

/-- A room that pushes its slots tells every session, and one that knows of none tells nobody. -/
theorem pushSlotState_told {before : String → SlotKnowledge}
    (h : ∀ slot s, r.sessions slot = some s → Told (before slot) s)
    (unknown : r.slotStateKnown = false → ∀ slot, before slot = .unsupplied) :
    RoomTold r.pushSlotState := by
  intro slot s there
  obtain ⟨old, was, rfl⟩ := Option.map_eq_some_iff.mp there
  have told := h slot old was
  change Told (slotKnowledge r slot) _
  dsimp only
  cases is_state : r.slotState slot with
  | some state =>
      rw [slotKnowledge, is_state]
      exact setSlotState_told told state
  | none =>
      have nothing : r.slotStateKnown = false := by
        unfold BaseRtcRoom.slotState at is_state
        split_ifs at is_state with known
        exact Bool.eq_false_iff.mpr known
      rw [slotKnowledge_unknown nothing, ← unknown nothing slot]
      exact told

theorem onSlotsReceived_told (h : RoomTold r) (slots : List RawSlotEvent) :
    RoomTold (r.onSlotsReceived slots) :=
  pushSlotState_told (r := { r with slotStateKnown := true, slots := r.indexSlots slots }) h
    fun unknown => by cases unknown

theorem onEncryptionReceived_told (h : RoomTold r) (encrypted : Bool) :
    RoomTold (r.onEncryptionReceived encrypted) := by
  unfold BaseRtcRoom.onEncryptionReceived
  dsimp only
  generalize (if encrypted = true then RoomEncryption.encrypted else .unencrypted) = encryption
  split_ifs
  · exact h
  · refine mapSessions_told ?_ fun _ _ told => setRoomEncryption_told told _
    exact pushSlotState_told (r := { r with roomEncryption := some encryption }) h
      fun unknown slot => slotKnowledge_unknown (r := r) unknown slot

theorem onMembersReceived_told (h : RoomTold r) (joined : List String) :
    RoomTold (r.onMembersReceived joined) :=
  mapSessions_told (r := { r with roomMembers := some joined.toFinset }) h
    fun _ _ told => setRoomMembers_told told _

theorem expireHolds_room_told (h : RoomTold r) (now : ℕ) : RoomTold (r.expireHolds now) :=
  mapSessions_told h fun _ _ told => expireHolds_told told now

theorem leave_room_told (h : RoomTold r) (slotId : String) : RoomTold (r.leave slotId) := by
  refine mapSessions_told h fun slot s told => ?_
  split_ifs
  · exact leave_told told
  · exact told

theorem observeSlot_told (h : RoomTold r) (slotId : String) : RoomTold (r.observeSlot slotId) := by
  intro slot s there
  simp only [BaseRtcRoom.observeSlot] at there
  split_ifs at there with same
  · cases there
    subst same
    exact sessionForSlot_told h slot
  · exact h slot s there

theorem join_room_told (h : RoomTold r) (slotId : String) (own : OwnParticipation)
    (started : Bool) : RoomTold (r.join slotId own started) := by
  unfold BaseRtcRoom.join
  split_ifs
  · exact h
  · exact h
  · intro slot s there
    dsimp only at there
    split_ifs at there with same
    · cases there
      subst same
      exact join_told (sessionForSlot_told h slot) own started
    · exact h slot s there

theorem setCurrentStickyState_told (h : RoomTold r) (now : ℕ) (events : List RawStickyEvent) :
    RoomTold (r.setCurrentStickyState now events).1 := by
  unfold BaseRtcRoom.setCurrentStickyState
  cases r.route (fun _ => none) events with
  | error err => exact h
  | ok batches =>
      intro slot s there
      simp only [BaseRtcRoom.applyBatches] at there
      cases named : r.track batches slot with
      | none =>
          rw [named] at there
          exact h slot s there
      | some batch =>
          rw [named] at there
          cases there
          exact setCurrentState_told (sessionForSlot_told h slot) now batch

end Rooms

section Reader
variable {dialect : IngestDialect} {ownUserId roomId : String}

/-- The room knows the slots the feeder holds, and its sessions know them too. -/
structure Fed (roomId : String) (r : RoomFeederRun) : Prop where
  room : r.room.roomId = roomId
  keyed : Keyed r.slots
  known : r.room.slotStateKnown = r.seenSlots
  index : r.seenSlots = true → ∀ slotId, r.room.slots slotId =
    ((held r.slots true slotId).or (held r.slots false slotId)).map (slotEvent roomId slotId)
  told : RoomTold r.room

/-- Nothing of what is known of the slots differs. -/
structure SameSlots (r t : RoomFeederRun) : Prop where
  room : t.room.roomId = r.room.roomId
  slots : t.slots = r.slots
  seen : t.seenSlots = r.seenSlots
  known : t.room.slotStateKnown = r.room.slotStateKnown
  index : t.room.slots = r.room.slots

theorem Fed.same {r t : RoomFeederRun} (h : Fed roomId r) (same : SameSlots r t)
    (told : RoomTold t.room) : Fed roomId t where
  room := same.room.trans h.room
  keyed := by
    rw [same.slots]
    exact h.keyed
  known := by rw [same.known, same.seen, h.known]
  index := by
    rw [same.seen, same.slots, same.index]
    exact h.index
  told := told

/-- What the feeder holds of a slot in one spelling after a report. -/
def heardOf (stable : Bool) (slotId : String) (before : Option EventIn) :
    RoomInput → Option EventIn
  | .state eventType events =>
      if eventType = typeOf stable then lastFor slotId events else before
  | .sticky _ | .members _ | .encryption _ | .holdsEnded | .joined .. | .left _ | .observed _ =>
      before

/-- The report is a set of slot events. -/
def reportsSlots : RoomInput → Bool
  | .state eventType _ => (spelling eventType).isSome
  | .sticky _ | .members _ | .encryption _ | .holdsEnded | .joined .. | .left _ | .observed _ =>
      false

theorem spelling_eq_some {eventType : String} {stable : Bool} :
    spelling eventType = some stable ↔ eventType = typeOf stable := by
  unfold spelling
  split_ifs with is_stable is_unstable
  · subst is_stable
    cases stable <;> decide
  · subst is_unstable
    cases stable <;> decide
  · cases stable with
    | false => exact ⟨fun h => (by cases h), fun is => absurd is is_unstable⟩
    | true => exact ⟨fun h => (by cases h), fun is => absurd is is_stable⟩

theorem mem_slotEventTypes {eventType : String} :
    eventType ∈ slotEventTypes ↔ ∃ stable, spelling eventType = some stable := by
  simp only [spelling_eq_some, slotEventTypes, List.mem_cons, List.not_mem_nil, or_false]
  constructor
  · rintro (is_stable | is_unstable)
    · exact ⟨true, is_stable⟩
    · exact ⟨false, is_unstable⟩
  · rintro ⟨stable, is⟩
    cases stable with
    | false => exact .inr is
    | true => exact .inl is

theorem is_stable_of_spelling {eventType : String} {stable : Bool}
    (h : spelling eventType = some stable) : (eventType == slotEventType) = stable := by
  rw [spelling_eq_some.mp h]
  cases stable <;> decide

/-- What one report does to the feeder's slots. -/
structure Heard (roomId : String) (input : RoomInput) (r t : RoomFeederRun) : Prop where
  fed : Fed roomId t
  holds : ∀ stable slotId,
    held t.slots stable slotId = heardOf stable slotId (held r.slots stable slotId) input
  seen : t.seenSlots = (r.seenSlots || reportsSlots input)

/-- A report of anything else leaves the slots alone. -/
theorem Heard.of_same {input : RoomInput} {r t : RoomFeederRun} (h : Fed roomId r)
    (same : SameSlots r t) (told : RoomTold t.room) (other : reportsSlots input = false) :
    Heard roomId input r t where
  fed := h.same same told
  holds := by
    intro stable slotId
    rw [same.slots]
    cases input with
    | state eventType events =>
        have differs : eventType ≠ typeOf stable := by
          intro is
          rw [reportsSlots, spelling_eq_some.mpr is] at other
          cases other
        exact (if_neg differs).symm
    | sticky | members | encryption | holdsEnded | joined | left | observed => rfl
  seen := by rw [same.seen, other, Bool.or_false]

theorem onState_heard {r : RoomFeederRun} (h : Fed roomId r) (eventType : String)
    (events : List EventIn) :
    Heard roomId (.state eventType events) r (r.onState dialect eventType events) := by
  unfold RoomFeederRun.onState
  split_ifs with of_slot
  · obtain ⟨stable, is_spelling⟩ := mem_slotEventTypes.mp of_slot
    obtain ⟨keyed, holds⟩ := replaceSlotEvents_spec h.keyed stable events
    dsimp only
    rw [is_stable_of_spelling is_spelling]
    refine ⟨⟨h.room, keyed, rfl, fun _ slotId => ?_, onSlotsReceived_told h.told _⟩, ?_, ?_⟩
    · have room := h.room
      subst room
      exact indexSlots_handed keyed r.room
    · intro b slotId
      rw [holds, heardOf, spelling_eq_some.mp is_spelling]
      congr 1
      cases b <;> cases stable <;> decide
    · rw [reportsSlots, is_spelling, Option.isSome_some, Bool.or_true]
  · refine .of_same h ⟨rfl, rfl, rfl, rfl, rfl⟩ h.told ?_
    rw [reportsSlots, Option.isSome_eq_false_iff, Option.isNone_iff_eq_none,
      Option.eq_none_iff_forall_ne_some]
    exact fun stable is => of_slot (mem_slotEventTypes.mpr ⟨stable, is⟩)
  · refine .of_same h ⟨rfl, rfl, rfl, rfl, rfl⟩ h.told ?_
    rw [reportsSlots, Option.isSome_eq_false_iff, Option.isNone_iff_eq_none,
      Option.eq_none_iff_forall_ne_some]
    exact fun stable is => of_slot (mem_slotEventTypes.mpr ⟨stable, is⟩)

theorem onInput_heard {r : RoomFeederRun} (h : Fed roomId r) (input : RoomInput) :
    Heard roomId input r (r.onInput dialect ownUserId input) := by
  cases input with
  | state eventType events => exact onState_heard h eventType events
  | sticky events => exact .of_same h ⟨rfl, rfl, rfl, rfl, rfl⟩ h.told rfl
  | members userIds =>
      simp only [RoomFeederRun.onInput, RoomFeederRun.onMembers]
      split_ifs
      · exact .of_same h ⟨rfl, rfl, rfl, rfl, rfl⟩ (onMembersReceived_told h.told userIds) rfl
      · exact .of_same h ⟨rfl, rfl, rfl, rfl, rfl⟩ h.told rfl
  | encryption encrypted =>
      refine .of_same h ?_ (onEncryptionReceived_told h.told encrypted) rfl
      simp only [RoomFeederRun.onInput, BaseRtcRoom.onEncryptionReceived]
      generalize (if encrypted = true then RoomEncryption.encrypted else .unencrypted) = e
      split_ifs <;> exact ⟨rfl, rfl, rfl, rfl, rfl⟩
  | holdsEnded | joined | left | observed =>
      exact .of_same h ⟨rfl, rfl, rfl, rfl, rfl⟩ h.told rfl

theorem sameSlots_applyMembership (reads : IngestDialect) (r : RoomFeederRun) (now : ℕ) :
    SameSlots r (r.applyMembership reads now) := by
  simp only [RoomFeederRun.applyMembership, BaseRtcRoom.setCurrentStickyState]
  generalize reads.currentMembership _ _ _ = current
  cases r.room.route (fun _ => none) current with
  | error err => exact ⟨rfl, rfl, rfl, rfl, rfl⟩
  | ok batches => exact ⟨rfl, rfl, rfl, rfl, rfl⟩

theorem deliver_heard {r : RoomFeederRun} (h : Fed roomId r) (now : ℕ) (input : RoomInput) :
    Heard roomId input r (r.deliver dialect ownUserId now input) := by
  have heard : Heard roomId input r (r.onInput dialect ownUserId input) := onInput_heard h input
  unfold RoomFeederRun.deliver
  dsimp only
  split_ifs
  · have same := sameSlots_applyMembership dialect (r.onInput dialect ownUserId input) now
    refine ⟨heard.fed.same same ?_, ?_, same.seen.trans heard.seen⟩
    · exact setCurrentStickyState_told heard.fed.told now _
    · intro stable slotId
      rw [same.slots]
      exact heard.holds stable slotId
  · exact heard

/-- One step of the reader's room. -/
theorem reader_step {r t : RoomFeederRun} {now : ℕ} {input : RoomInput} (h : Fed roomId r)
    (hstep : r.step dialect ownUserId (now, input) = some t) : Heard roomId input r t := by
  cases input with
  | holdsEnded =>
      cases hstep
      exact .of_same h ⟨rfl, rfl, rfl, rfl, rfl⟩ (expireHolds_room_told h.told now) rfl
  | joined slotId own started =>
      cases hstep
      refine .of_same h ?_ (join_room_told h.told slotId own started) rfl
      simp only [BaseRtcRoom.join]
      split_ifs <;> exact ⟨rfl, rfl, rfl, rfl, rfl⟩
  | left slotId =>
      cases hstep
      exact .of_same h ⟨rfl, rfl, rfl, rfl, rfl⟩ (leave_room_told h.told slotId) rfl
  | observed slotId =>
      cases hstep
      exact .of_same h ⟨rfl, rfl, rfl, rfl, rfl⟩ (observeSlot_told h.told slotId) rfl
  | sticky | state | members | encryption =>
      cases hstep
      exact deliver_heard h now _

theorem start_fed : Fed roomId (.start roomId) where
  room := rfl
  keyed := ⟨List.nodup_nil, fun _ there => absurd there List.not_mem_nil⟩
  known := rfl
  index := fun seen => by cases seen
  told := fun _ _ there => by cases there

theorem Fed.slotState {r : RoomFeederRun} (h : Fed roomId r) (seen : r.seenSlots = true)
    (slotId : String) :
    r.room.slotState slotId =
      some (((((held r.slots true slotId).or (held r.slots false slotId)).map
        (slotEvent roomId slotId)).map fun slot => slot.resolve r.room.encryption).getD
          .closed) := by
  rw [BaseRtcRoom.slotState, if_pos (h.known.trans seen), h.index seen]

theorem Fed.session {r : RoomFeederRun} (h : Fed roomId r) {slotId : String} {state : SlotState}
    (is_state : r.room.slotState slotId = some state) {session : SlotSession}
    (there : r.room.sessions slotId = some session) :
    session.slot = .known state ∧ (state.isOpen = false → session.members = []) := by
  obtain ⟨knows, shut⟩ := h.told slotId session there
  rw [slotKnowledge, is_state] at knows shut
  exact ⟨knows, fun closed => shut (congrArg not closed)⟩

end Reader

end MatrixRtc.FedSlots

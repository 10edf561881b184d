import MatrixRtc.RoomStateDialects
import MatrixRtc.StepRuns

/-!
# Which slot a send speaks for

A dialect is built for one slot and stored for its room. A join is one slot's, and every
member event it sends is rendered by whatever dialect its room has at the time, which is
the one of the slot that was joined last. The sends of a client are kept with the other
slots that were joined in the room when they went out.
-/
namespace MatrixRtc.SlotRouting
open JsonValues MemberEvents MemberIngest RoomStateDialects StepRuns

/-- A member event that was handed to the host, for a join in `slot`. -/
structure Sent where
  slot : String
  others : List String
  route : MemberEventRoute
deriving DecidableEq

structure Client where
  userId : String
  deviceId : String
  /-- the dialect of each room -/
  dialects : String → OutboundDialect
  /-- the rooms and slots that are joined -/
  joined : List (String × String)
  sent : List Sent
  now : ℕ

/-- A member event of a join, and when it says it ends. -/
inductive Publication where
  | join (application : ApplicationInfo) (transports : MemberTransports) (lifetimeMs : ℕ)
  | delayedLeave
  | leave (reason : LeaveReason)
deriving DecidableEq

inductive Action where
  | tick (ms : ℕ)
  | prepareJoin (roomId slotId : String)
  | publish (roomId slotId memberId : String) (publication : Publication)
deriving DecidableEq

namespace Publication

/-- The content the join builds. -/
def content (slotId memberId : String) : Publication → Json
  | join application transports _ => joinContent slotId memberId application transports
  | delayedLeave =>
      leaveContent slotId memberId
        ⟨.delayedLeave, some "Dead man's switch: client failed to heartbeat"⟩
  | leave reason => leaveContent slotId memberId reason

/-- The lifetime the content states, which a leave does not. -/
def lifetimeMs : Publication → Option ℕ
  | join _ _ lifetimeMs => some lifetimeMs
  | delayedLeave | leave _ => none

def isJoin : Publication → Bool
  | join .. => true
  | delayedLeave | leave _ => false

def isLeave : Publication → Bool
  | leave _ => true
  | join .. | delayedLeave => false

end Publication

namespace Client

def new (userId deviceId : String) (now : ℕ) : Client :=
  ⟨userId, deviceId, fun _ => .none, [], [], now⟩

/-- `set_dialect`. -/
def setDialect (c : Client) (roomId : String) (dialect : OutboundDialect) : Client :=
  { c with dialects := fun room => if room = roomId then dialect else c.dialects room }

/-- `prepare_join`, in a room of the room-state format. -/
def prepareJoin (c : Client) (roomId slotId : String) : Client :=
  { c.setDialect roomId (outboundDialect .roomState c.userId c.deviceId roomId slotId) with
    joined := (roomId, slotId) :: c.joined }

/-- The other slots joined in the room. -/
def others (c : Client) (roomId slotId : String) : List String :=
  (c.joined.filter fun join => join.1 = roomId ∧ join.2 ≠ slotId).map Prod.snd

/-- `send_sticky_event` and `send_delayed_sticky_event`, up to the host. -/
def publish (c : Client) (roomId slotId memberId : String) (p : Publication) : Client :=
  let (dialect, route) := (c.dialects roomId).routeMemberEvent "m.rtc.member"
    (p.content slotId memberId) p.lifetimeMs c.now
  { c.setDialect roomId dialect with
    joined := if p.isLeave then c.joined.filter (· ≠ (roomId, slotId)) else c.joined
    sent := c.sent ++ [⟨slotId, c.others roomId slotId, route⟩] }

/-- Slots are told apart by their room and their id. -/
local instance lawfulSlots : LawfulBEq (String × String) := inferInstance

def step (c : Client) : Action → Option Client
  | .tick ms => some { c with now := c.now + ms }
  | .prepareJoin roomId slotId => some (c.prepareJoin roomId slotId)
  | .publish roomId slotId memberId p =>
      if (roomId, slotId) ∈ c.joined then some (c.publish roomId slotId memberId p) else none

end Client

/-- The state key of our device in a slot. -/
def slotKey (userId deviceId slotId : String) : String :=
  (RoomStateDialect.new userId deviceId "" slotId).stateKey

/-- A content clears the event, or names the session of the slot. -/
def ofSlot (slotId : String) (content : Json) : Prop :=
  content = .obj [] ∨
    content.get "application" = some (.str (legacySession slotId).1) ∧
      content.get "call_id" = some (.str (legacySession slotId).2)

/-- A send of a join speaks for its own slot, under a key of no other slot in the room. -/
def OwnSlot (userId deviceId : String) (x : Sent) : Prop :=
  match x.route with
  | .state _ stateKey content =>
      stateKey = slotKey userId deviceId x.slot ∧ ofSlot x.slot content ∧
        ∀ other ∈ x.others, slotKey userId deviceId other ≠ stateKey
  | _ => False

/-- The room's dialect renders what is sent as the slot's own would, and no other slot
joined in the room has the slot's key. -/
def Speaks (c : Client) : Action → Prop
  | .publish roomId slotId _ p =>
      (match c.dialects roomId with
        | .state d =>
            slotKey c.userId c.deviceId d.slotId = slotKey c.userId c.deviceId slotId ∧
              (p.isJoin = true → legacySession d.slotId = legacySession slotId)
        | .none => False) ∧
        ∀ other ∈ c.others roomId slotId,
          slotKey c.userId c.deviceId other ≠ slotKey c.userId c.deviceId slotId
  | _ => True

instance (slotId : String) (content : Json) : Decidable (ofSlot slotId content) :=
  inferInstanceAs (Decidable (_ ∨ _))

instance (userId deviceId : String) (x : Sent) : Decidable (OwnSlot userId deviceId x) := by
  unfold OwnSlot
  split <;> infer_instance

instance (c : Client) (a : Action) : Decidable (Speaks c a) := by
  cases a <;> unfold Speaks
  · infer_instance
  · infer_instance
  · refine @instDecidableAnd _ _ ?_ _
    split <;> infer_instance

section
variable {c : Client} {roomId slotId memberId : String}

/-- Every dialect of the client is our own device's. -/
def Ours (c : Client) : Prop :=
  ∀ roomId d, c.dialects roomId = .state d → d.ownUserId = c.userId ∧ d.ownDeviceId = c.deviceId

theorem stateKey_ours {d : RoomStateDialect} {userId deviceId : String}
    (ours : d.ownUserId = userId ∧ d.ownDeviceId = deviceId) :
    d.stateKey = slotKey userId deviceId d.slotId := by
  simp [slotKey, RoomStateDialect.stateKey, RoomStateDialect.new, ours.1, ours.2]

theorem statedContent_ofSlot {d : RoomStateDialect} {spec : Json} {createdTs now : ℕ}
    {lifetimeMs : Option ℕ} :
    ofSlot slotId (d.statedContent spec createdTs now lifetimeMs) ↔
      legacySession d.slotId = legacySession slotId := by
  simp [ofSlot, RoomStateDialect.statedContent, Json.get, Json.asObject, List.lookup_cons,
    Prod.ext_iff]

/-- A member event of a join is its own slot's exactly if the room's dialect speaks for it. -/
theorem ownSlot_publish (ours : Ours c) (p : Publication) :
    OwnSlot c.userId c.deviceId ⟨slotId, c.others roomId slotId,
      ((c.dialects roomId).routeMemberEvent "m.rtc.member" (p.content slotId memberId)
        p.lifetimeMs c.now).2⟩ ↔ Speaks c (.publish roomId slotId memberId p) := by
  cases dialect : c.dialects roomId with
  | none => simp [OwnSlot, Speaks, dialect, OutboundDialect.routeMemberEvent]
  | state d =>
      have key := stateKey_ours (ours roomId d dialect)
      have content : ofSlot slotId
          (d.memberContent (p.content slotId memberId) p.lifetimeMs c.now).2 ↔
            (p.isJoin = true → legacySession d.slotId = legacySession slotId) := by
        cases p with
        | join application transports lifetimeMs =>
            simp [Publication.content, Publication.isJoin, statedContent_ofSlot]
        | delayedLeave => simp [Publication.content, Publication.isJoin, ofSlot]
        | leave reason => simp [Publication.content, Publication.isJoin, ofSlot]
      have member : isMemberEvent "m.rtc.member" = true := rfl
      simp only [OwnSlot, Speaks, dialect, OutboundDialect.routeMemberEvent, member, if_true,
        content, key, and_assoc]
      refine and_congr_right fun same => ?_
      rw [same]

theorem ours_setDialect {dialect : OutboundDialect} (ours : Ours c)
    (mine : ∀ d, dialect = .state d → d.ownUserId = c.userId ∧ d.ownDeviceId = c.deviceId) :
    Ours (c.setDialect roomId dialect) := by
  intro room d same
  simp only [Client.setDialect] at same
  split_ifs at same with here
  · exact mine d same
  · exact ours room d same

theorem ours_routed {eventType : String} {spec : Json} {lifetimeMs : Option ℕ} (ours : Ours c)
    {d : RoomStateDialect}
    (same : ((c.dialects roomId).routeMemberEvent eventType spec lifetimeMs c.now).1 = .state d) :
    d.ownUserId = c.userId ∧ d.ownDeviceId = c.deviceId := by
  cases dialect : c.dialects roomId with
  | none =>
      rw [dialect] at same
      cases same
  | state before =>
      have mine := ours roomId before dialect
      simp only [dialect, OutboundDialect.routeMemberEvent, RoomStateDialect.memberContent] at same
      split_ifs at same <;> cases same <;> exact mine

theorem ours_step {c' : Client} {a : Action} (ours : Ours c) (h : c.step a = some c') :
    Ours c' := by
  cases a with
  | tick ms =>
      cases h
      exact ours
  | prepareJoin roomId slotId =>
      cases h
      exact ours_setDialect ours fun d same => by
        cases same
        exact ⟨rfl, rfl⟩
  | publish roomId slotId memberId p =>
      simp only [Client.step] at h
      split_ifs at h
      cases h
      exact ours_setDialect ours fun d same => ours_routed ours same

theorem device_step {c' : Client} {a : Action} (h : c.step a = some c') :
    c'.userId = c.userId ∧ c'.deviceId = c.deviceId := by
  cases a with
  | tick | prepareJoin =>
      cases h
      exact ⟨rfl, rfl⟩
  | publish roomId slotId memberId p =>
      simp only [Client.step] at h
      split_ifs at h
      cases h
      exact ⟨rfl, rfl⟩

end

/-- Every member event speaks for the slot whose join sent it, exactly if the room's
dialect was its own, or one that renders it alike, whenever one was sent. -/
theorem own_slot_iff (userId deviceId : String) (now : ℕ) (trace : List Action) (c : Client)
    (reach : run Client.step (.new userId deviceId now) trace = some c) :
    (∀ x ∈ c.sent, OwnSlot userId deviceId x) ↔
      Admissible Client.step Speaks (.new userId deviceId now) trace := by
  have keep : ∀ (c : Client) (a : Action) (c' : Client),
      (Ours c ∧ c.userId = userId ∧ c.deviceId = deviceId) → c.step a = some c' →
        Ours c' ∧ c'.userId = userId ∧ c'.deviceId = deviceId := by
    rintro c a c' ⟨ours, user, device⟩ h
    obtain ⟨user', device'⟩ := device_step h
    exact ⟨ours_step ours h, user'.trans user, device'.trans device⟩
  have each : ∀ (c : Client) (a : Action) (c' : Client),
      (Ours c ∧ c.userId = userId ∧ c.deviceId = deviceId) → c.step a = some c' →
        ((∀ x ∈ c'.sent, OwnSlot userId deviceId x) ↔
          (∀ x ∈ c.sent, OwnSlot userId deviceId x) ∧ Speaks c a) := by
    rintro c a c' ⟨ours, rfl, rfl⟩ h
    cases a with
    | tick | prepareJoin =>
        cases h
        exact (and_iff_left trivial).symm
    | publish roomId slotId memberId p =>
        simp only [Client.step] at h
        split_ifs at h
        cases h
        simp only [Client.publish, List.mem_append, List.mem_singleton, or_imp, forall_and,
          forall_eq, ownSlot_publish ours p]
  have whole := run_iff_admissible keep each
    ⟨fun _ _ same => (by cases same), rfl, rfl⟩ reach
  exact whole.trans (and_iff_right fun x member => absurd member List.not_mem_nil)

section Runs

def call : ApplicationInfo := ⟨some "m.call", []⟩

/-- A join in the room's slot, with what it sends to keep it up. -/
def joinsRoom : List Action :=
  [.prepareJoin "!room:h" "m.call#room", .publish "!room:h" "m.call#room" "m" .delayedLeave,
    .publish "!room:h" "m.call#room" "m" (.join call ⟨[], []⟩ 600000)]

/-- Two joins one after the other in the room, and one in another room meanwhile. -/
def oneSlotEach : List Action :=
  joinsRoom ++ [.prepareJoin "!other:h" "m.call#standup", .tick 200000,
    .publish "!room:h" "m.call#room" "m" (.join call ⟨[], []⟩ 600000),
    .publish "!other:h" "m.call#standup" "m" (.join call ⟨[], []⟩ 600000),
    .publish "!room:h" "m.call#room" "m" (.leave ⟨.leave, none⟩)]

theorem own_slots_of_one_each :
    ∃ c ∈ run Client.step (.new "@u:h" "D" 0) oneSlotEach,
      c.sent.length = 5 ∧ ∀ x ∈ c.sent, OwnSlot "@u:h" "D" x := by
  have reached : ∃ c ∈ run Client.step (.new "@u:h" "D" 0) oneSlotEach, c.sent.length = 5 := by
    decide +kernel
  obtain ⟨c, reach, sent⟩ := reached
  exact ⟨c, reach, sent, (own_slot_iff "@u:h" "D" 0 _ c reach).mpr (by decide +kernel)⟩

/-- Leaving the first slot clears the second one's state event. -/
theorem second_join_takes_the_room :
    ∃ c ∈ run Client.step (.new "@u:h" "D" 0)
      (joinsRoom ++ [.prepareJoin "!room:h" "m.call#standup",
        .publish "!room:h" "m.call#standup" "m" (.join call ⟨[], []⟩ 600000),
        .publish "!room:h" "m.call#room" "m" (.leave ⟨.leave, none⟩)]),
      ∃ x ∈ c.sent, ¬ OwnSlot "@u:h" "D" x := by decide +kernel

end Runs

end MatrixRtc.SlotRouting

import MatrixRtc.DirectCalls
import MatrixRtc.JoinedContents
import MatrixRtc.RoomStateDialects
import MatrixRtc.StepRuns

/-!
# The intent of a call

Whether a call is a voice or a video call is stated by each membership and settled by each
join: a join follows what the others in its roster agree on, and decides for itself where
they agree on nothing. The memberships travel as sticky events or as room state, are
published again and are taken back, other clients send their own, and a device reads its
roster from whichever of the events it has been given. Whatever intent anyone reads goes
back to one that decided on it.
-/
namespace MatrixRtc.CallIntents
open DirectCalls HostAnswers JoinedContents JsonValues MemberContents MemberEvents MemberIngest
open RoomStateDialects RoomStateMembers StepRuns

/-- `CALL_INTENT_KEY`. -/
def callIntentKey : String := "m.call.intent"

inductive CallIntent where
  | audio
  | video
deriving DecidableEq, Repr

namespace CallIntent

instance : Inhabited CallIntent := ⟨video⟩

def asStr : CallIntent → String
  | audio => "audio"
  | video => "video"

def parse (value : String) : Option CallIntent :=
  if value = "audio" then some audio else if value = "video" then some video else none

/-- The intent a value under the key states. -/
def ofValue (value : Option Json) : Option CallIntent := (value.bind Json.asStr).bind parse

/-- The intent a membership states, if it states a known one. -/
def of (member : JoinedMembership) : Option CallIntent :=
  ofValue (member.application.extra.lookup callIntentKey)

@[simp] theorem parse_asStr (i : CallIntent) : parse i.asStr = some i := by
  cases i <;> rfl

@[simp] theorem ofValue_asStr (i : CallIntent) : ofValue (some (.str i.asStr)) = some i :=
  parse_asStr i

end CallIntent

/-- What the memberships of a call say about its intent. `partly` is the source's `Partial`. -/
inductive CallIntentConsensus where
  | full (intent : CallIntent)
  | partly (intent : CallIntent) (agreeing total : ℕ)
  | none
deriving DecidableEq, Repr

namespace CallIntentConsensus

/-- The loop of `of`: how many members were seen, and what those that stated an intent
agreed on. It ends at the first that disagrees. -/
def count (total : ℕ) (agreed : Option (CallIntent × ℕ)) :
    List JoinedMembership → CallIntentConsensus
  | [] =>
      match agreed with
      | .none => .none
      | some (intent, agreeing) =>
          if agreeing = total then .full intent else .partly intent agreeing total
  | member :: members =>
      match CallIntent.of member with
      | .none => count (total + 1) agreed members
      | some intent =>
          match agreed with
          | .none => count (total + 1) (some (intent, 1)) members
          | some (candidate, agreeing) =>
              if candidate = intent then count (total + 1) (some (candidate, agreeing + 1)) members
              else .none

/-- `CallIntentConsensus::of`. -/
def of (members : List JoinedMembership) : CallIntentConsensus := count 0 .none members

/-- The consensus over the members other than this device. -/
def ofOthers (members : List JoinedMembership) (userId deviceId : String) : CallIntentConsensus :=
  of (members.filter fun member => !isOwnParticipation member userId deviceId)

/-- The intent the call agrees on, fully or partly. -/
def intent : CallIntentConsensus → Option CallIntent
  | full intent | partly intent _ _ => some intent
  | none => .none

/-- The intent a join uses. -/
def resolve (c : CallIntentConsensus) (requested : Option CallIntent) : CallIntent :=
  (c.intent.or requested).getD default

/-- Everyone who states an intent states this one. -/
def Agree (members : List JoinedMembership) (i : CallIntent) : Prop :=
  ∀ member ∈ members, ∀ j ∈ CallIntent.of member, j = i

/-- How many of the members state an intent. -/
def stating (members : List JoinedMembership) : ℕ :=
  members.countP fun member => (CallIntent.of member).isSome

/-- What the loop ends with, once it has a candidate. -/
theorem count_some (members : List JoinedMembership) (total agreeing : ℕ) (i : CallIntent) :
    (Agree members i → count total (some (i, agreeing)) members =
      if agreeing + stating members = total + members.length then .full i
      else .partly i (agreeing + stating members) (total + members.length)) ∧
    (¬Agree members i → count total (some (i, agreeing)) members = .none) := by
  induction members generalizing total agreeing with
  | nil =>
      refine ⟨fun _ => rfl, fun disagree => ?_⟩
      exact absurd (fun _ member => absurd member List.not_mem_nil) disagree
  | cons member members ih =>
      have agree_cons : Agree (member :: members) i ↔
          (∀ j ∈ CallIntent.of member, j = i) ∧ Agree members i := by
        simp [Agree]
      cases states : CallIntent.of member with
      | none =>
          have counted : stating (member :: members) = stating members := by
            simp [stating, states]
          have sum : total + (members.length + 1) = total + 1 + members.length := by omega
          rw [agree_cons, states, count, states, counted, List.length_cons, sum]
          simpa using ih (total + 1) agreeing
      | some j =>
          have counted : stating (member :: members) = stating members + 1 := by
            simp [stating, states]
          have sum : total + (members.length + 1) = total + 1 + members.length := by omega
          have more : agreeing + (stating members + 1) = agreeing + 1 + stating members := by
            omega
          rw [agree_cons, states, count, states, counted, List.length_cons, sum, more]
          by_cases same : i = j
          · subst same
            simpa using ih (total + 1) (agreeing + 1)
          · have other : ¬j = i := fun h => same h.symm
            simp [same, other]

/-- What the loop ends with before anyone has stated an intent. -/
theorem count_none (members : List JoinedMembership) (total : ℕ) :
    (∀ i, Agree members i → stating members ≠ 0 → count total .none members =
      if stating members = total + members.length then .full i
      else .partly i (stating members) (total + members.length)) ∧
    (stating members = 0 ∨ (∀ i, ¬Agree members i) → count total .none members = .none) := by
  induction members generalizing total with
  | nil => exact ⟨fun _ _ some_state => absurd rfl some_state, fun _ => rfl⟩
  | cons member members ih =>
      have sum : total + (members.length + 1) = total + 1 + members.length := by omega
      cases states : CallIntent.of member with
      | none =>
          have agree_cons (i : CallIntent) : Agree (member :: members) i ↔ Agree members i := by
            simp [Agree, states]
          have counted : stating (member :: members) = stating members := by
            simp [stating, states]
          simp only [agree_cons, counted, count, states, List.length_cons, sum]
          exact ih (total + 1)
      | some j =>
          have agree_cons (i : CallIntent) : Agree (member :: members) i ↔
              j = i ∧ Agree members i := by
            simp [Agree, states]
          have counted : stating (member :: members) = 1 + stating members := by
            simp [stating, states, Nat.add_comm]
          obtain ⟨agreed, split⟩ := count_some members (total + 1) 1 j
          simp only [agree_cons, counted, count, states, List.length_cons, sum]
          constructor
          · rintro i ⟨rfl, agree⟩ -
            exact agreed agree
          · rintro (nobody | disagree)
            · omega
            · exact split fun agree => disagree j ⟨rfl, agree⟩

/-- There is an intent to follow exactly when someone states it and nobody another. -/
theorem intent_of {members : List JoinedMembership} {i : CallIntent} :
    (of members).intent = some i ↔
      (∃ member ∈ members, CallIntent.of member = some i) ∧ Agree members i := by
  obtain ⟨agreed, split⟩ := count_none members 0
  have someone {i : CallIntent} (agree : Agree members i) (some_state : stating members ≠ 0) :
      ∃ member ∈ members, CallIntent.of member = some i := by
    obtain ⟨member, there, states⟩ := List.countP_pos_iff.mp (Nat.pos_of_ne_zero some_state)
    obtain ⟨j, is_j⟩ := Option.isSome_iff_exists.mp states
    exact ⟨member, there, by rw [is_j, agree member there j is_j]⟩
  by_cases undecided : stating members = 0 ∨ ∀ i, ¬Agree members i
  · rw [of, split undecided]
    refine iff_of_false (fun h => by cases h) fun ⟨⟨member, there, states⟩, agree⟩ => ?_
    rcases undecided with nobody | disagree
    · rw [stating, List.countP_eq_zero] at nobody
      exact nobody member there (Option.isSome_of_eq_some states)
    · exact disagree i agree
  · push Not at undecided
    obtain ⟨some_state, j, agree⟩ := undecided
    have same : (of members).intent = some j := by
      rw [of, agreed j agree some_state]
      split_ifs <;> rfl
    rw [same]
    constructor
    · rintro ⟨⟩
      exact ⟨someone agree some_state, agree⟩
    · rintro ⟨⟨member, there, states⟩, -⟩
      exact congrArg some (agree member there i states).symm

end CallIntentConsensus

structure Mentions where
  userIds : List String
  room : Bool
deriving DecidableEq, Repr

/-- A group call's notification. -/
structure GroupNotify where
  intent : Option String
  lifetimeMs : Option ℕ
  mentions : Mentions
deriving DecidableEq, Repr

/-- The ring of a DM call. -/
structure RingConfig where
  lifetimeMs : Option ℕ
  intent : Option String
deriving DecidableEq, Repr

inductive CallKind where
  | group (notify : Option GroupNotify)
  | direct (ring : Option RingConfig)
deriving DecidableEq, Repr

/-- `requested_by`: the intent the host stated on the notification or ring. -/
def requestedBy (kind : CallKind) : Option CallIntent :=
  let stated := match kind with
    | .group notify => notify.bind (·.intent)
    | .direct ring => ring.bind (·.intent)
  stated.bind CallIntent.parse

/-- `fill_intent`: states `intent` on the notification or ring when the host stated none. -/
def fillIntent (kind : CallKind) (intent : CallIntent) : CallKind :=
  let filled := fun stated : Option String => stated.or (some intent.asStr)
  match kind with
  | .group notify => .group (notify.map fun n => { n with intent := filled n.intent })
  | .direct ring => .direct (ring.map fun r => { r with intent := filled r.intent })

/-- `ApplicationInfo::with_extra`. -/
def withExtra (a : ApplicationInfo) (key : String) (value : Json) : ApplicationInfo :=
  { a with extra := setField a.extra key value }

/-- The intent an application states. -/
def intentOf (a : ApplicationInfo) : Option CallIntent :=
  CallIntent.ofValue (a.extra.lookup callIntentKey)

@[simp] theorem intentOf_withExtra (a : ApplicationInfo) (i : CallIntent) :
    intentOf (withExtra a callIntentKey (.str i.asStr)) = some i := by
  rw [intentOf, withExtra, lookup_setField_self, CallIntent.ofValue_asStr]

/-- What `join_within` is given of a call. -/
structure CallJoinParams where
  slotId : String
  memberId : String
  application : ApplicationInfo
  kind : CallKind
  intent : Option CallIntent
deriving DecidableEq, Repr

/-- What the host asked for, on the join or only on its notification. -/
def CallJoinParams.requested (p : CallJoinParams) : Option CallIntent :=
  p.intent.or (requestedBy p.kind)

/-- The beginning of `join_within`, up to the core's join: the intent is settled against the
roster, and both the membership and the notification state it. -/
def CallJoinParams.settle (p : CallJoinParams) (members : List JoinedMembership)
    (userId deviceId : String) : CallIntent × CallJoinParams :=
  let intent := (CallIntentConsensus.ofOthers members userId deviceId).resolve p.requested
  (intent, { p with
    application := withExtra p.application callIntentKey (.str intent.asStr)
    kind := fillIntent p.kind intent })

/-- The intent that a sticky content states. -/
def stickyIntent (content : Json) : Option CallIntent :=
  CallIntent.ofValue ((contentField content "application").bind (·.get callIntentKey))

/-- The intent that a room-state content states. -/
def stateIntent (content : Json) : Option CallIntent :=
  CallIntent.ofValue (content.get callIntentKey)

theorem lookup_others {fields : List (String × Json)} {key name : String} (other : name ≠ key) :
    (others key fields).lookup name = fields.lookup name :=
  ListPlaces.lookup_filter_ne other

theorem parsed_application {o : Option Json} {application : ApplicationInfo} {key : String}
    (other : key ≠ "type") (h : defaulted parseApplicationInfo ⟨none, []⟩ o = some application) :
    application.extra.lookup key = o.bind (·.get key) := by
  cases o with
  | none =>
      cases h
      rfl
  | some v =>
      have h : parseApplicationInfo v = some application := h
      unfold parseApplicationInfo at h
      simp only [Option.bind_eq_bind, Option.bind_eq_some_iff] at h
      obtain ⟨fields, is_object, type, -, made⟩ := h
      cases made
      rw [lookup_others other, Option.bind_some, Json.get, is_object, Option.bind_some]

theorem parsed_extra {v : Json} {c : RawStickyEventContent} {key : String}
    (other : key ≠ "type") (h : parseRawStickyEventContent v = some c) :
    c.application.extra.lookup key = (contentField v "application").bind (·.get key) := by
  unfold parseRawStickyEventContent at h
  simp only [Option.bind_eq_bind, Option.bind_eq_some_iff] at h
  obtain ⟨w, single, field, is_field, _, -, _, -, _, -, application, is_application, _, -, _, -,
    _, -, made⟩ := h
  cases made
  obtain ⟨-, -, same⟩ := singleStickyKey_spec single
  have named : field "application" = contentField w "application" := by
    rw [contentField, contentOrder, is_field, Option.bind_some]
  rw [named, same _ (by decide) (by decide)] at is_application
  exact parsed_application other is_application

theorem callIntentKey_ne : callIntentKey ≠ "type" := by decide

theorem read_sticky {roomId : String} {event : RawMemberEventIn} {raw : RawStickyEvent}
    (h : toCoreMemberEvent roomId event = some raw) :
    intentOf raw.content.application = stickyIntent event.content := by
  unfold toCoreMemberEvent at h
  split at h
  · cases h
  · rename_i value normalized
    obtain ⟨c, is_content, rfl⟩ := Option.map_eq_some_iff.mp h
    have kept := (kept_normalized event.content).application
    rw [normalized] at kept
    rw [intentOf, parsed_extra callIntentKey_ne is_content, kept, stickyIntent]

/-- A rewritten membership states what its state event did, whoever else is in the room. -/
theorem read_state {roomId : String} {event : LegacyStateMemberEventIn} {now : ℕ}
    {members : List Parsed} {member : Parsed} {raw : RawStickyEvent}
    (parsed : RoomStateMembers.parse event now = some member)
    (h : toCoreStateMembership roomId (translateMembership members member) = some raw) :
    intentOf raw.content.application = stateIntent event.content := by
  obtain ⟨c, is_content, rfl⟩ := Option.map_eq_some_iff.mp h
  rw [intentOf, parsed_extra callIntentKey_ne is_content]
  have stated : (contentField (rewrittenContent members member) "application").bind
      (·.get callIntentKey) = member.intent := by
    rw [rewrittenContent, contentField_obj]
    cases intent : member.intent <;>
      simp [List.lookup_cons, Json.get, Json.asObject, callIntentKey]
  have kept : member.intent = event.content.get callIntentKey := by
    obtain ⟨object, _, _, content, -, -, -, -, rfl⟩ := RoomStateMembers.parse_eq_some.mp parsed
    rw [content]
    rfl
  change CallIntent.ofValue ((contentField (rewrittenContent members member)
    "application").bind (·.get callIntentKey)) = _
  rw [stated, kept, stateIntent]

/-- What a device reads its roster from: the events it was given, at a clock reading and in
its own format. -/
structure Delivery where
  format : MembershipFormat
  now : ℕ
  sticky : List EventIn
  state : List EventIn
deriving DecidableEq

def joinedOf (e : RawStickyEvent) : Option JoinedMembership :=
  match e.membershipEvent with
  | .joined m => some m
  | .left _ => none

/-- Everyone that the events say has joined. A session's roster holds some of them. -/
def Delivery.memberships (d : Delivery) (roomId : String) : List JoinedMembership :=
  ((d.format.dialect (toCoreStateMemberships d.now)).currentMembership roomId d.sticky
    d.state).filterMap joinedOf

theorem of_joinedOf {e : RawStickyEvent} {m : JoinedMembership} (h : joinedOf e = some m) :
    CallIntent.of m = intentOf e.content.application := by
  unfold joinedOf at h
  split at h
  · rename_i joined
    cases h
    obtain ⟨memberId, rfl⟩ := RawStickyEvent.membershipEvent_joined joined
    rfl
  · cases h

/-- A membership that is read states the intent of an event that was given. -/
theorem Delivery.read {d : Delivery} {roomId : String} {m : JoinedMembership} {i : CallIntent}
    (there : m ∈ d.memberships roomId) (states : CallIntent.of m = some i) :
    (∃ e ∈ d.sticky, stickyIntent e.content = some i) ∨
      ∃ e ∈ d.state, stateIntent e.content = some i := by
  obtain ⟨raw, is_raw, joined⟩ := List.mem_filterMap.mp there
  rw [of_joinedOf joined] at states
  have parts : raw ∈ (d.sticky.map toMemberEventIn).filterMap (toCoreMemberEvent roomId) ∨
      raw ∈ toCoreStateMemberships d.now roomId
        (d.state.filterMap toLegacyStateMemberEventIn) := by
    have is_raw : raw ∈ mergeCurrentMembership (toCoreStateMemberships d.now) roomId
      (d.sticky.map toMemberEventIn) (d.state.filterMap toLegacyStateMemberEventIn) := is_raw
    unfold mergeCurrentMembership at is_raw
    split_ifs at is_raw
    · exact .inl is_raw
    · rw [List.mem_append] at is_raw
      exact is_raw.imp_right List.mem_of_mem_filter
  rcases parts with sticky | state
  · obtain ⟨event, is_event, core⟩ := List.mem_filterMap.mp sticky
    obtain ⟨e, given, rfl⟩ := List.mem_map.mp is_event
    exact .inl ⟨e, given, (read_sticky core).symm.trans states⟩
  · obtain ⟨membership, translated, core⟩ := List.mem_filterMap.mp state
    obtain ⟨member, is_member, rfl⟩ := List.mem_map.mp translated
    obtain ⟨event, is_event, parsed⟩ := List.mem_filterMap.mp is_member
    obtain ⟨e, given, made⟩ := List.mem_filterMap.mp is_event
    obtain ⟨stateKey, -, rfl⟩ := Option.map_eq_some_iff.mp made
    exact .inr ⟨e, given, (read_state parsed core).symm.trans states⟩

/-- A device that has joined: what its memberships state, and how they are rendered. -/
structure Seat where
  userId : String
  slotId : String
  memberId : String
  application : ApplicationInfo
  dialect : OutboundDialect
  intent : CallIntent
  stated : intentOf application = some intent

/-- The seat of a join that settled its intent against a roster. -/
def Seat.taken (roomId userId deviceId : String) (params : CallJoinParams) (given : Delivery)
    (members : List JoinedMembership) : Seat :=
  let settled := params.settle members userId deviceId
  { userId := userId
    slotId := settled.2.slotId
    memberId := settled.2.memberId
    application := settled.2.application
    dialect := outboundDialect given.format userId deviceId roomId settled.2.slotId
    intent := settled.1
    stated := intentOf_withExtra _ _ }

/-- The member events that were ever sent to a room, and the devices of this program in it. -/
structure Room where
  sticky : List EventIn
  state : List EventIn
  seats : List Seat

def Room.empty : Room := ⟨[], [], []⟩

/-- What the homeserver and the transport add to a content. -/
structure Envelope where
  eventId : String
  originServerTs : ℕ
  encryption : EventEncryption

def Envelope.event (e : Envelope) (sender eventType : String) (stateKey : Option String)
    (content : Json) : EventIn :=
  { eventId := e.eventId
    sender := sender
    eventType := eventType
    stateKey := stateKey
    originServerTs := e.originServerTs
    content := content
    encryption := e.encryption }

/-- A device sends a member content, routed as its dialect says. -/
def Room.send (r : Room) (n : ℕ) (seat : Seat) (content : Json) (lifetimeMs : Option ℕ)
    (now : ℕ) (envelope : Envelope) : Room :=
  let (dialect, route) := seat.dialect.routeMemberEvent "m.rtc.member" content lifetimeMs now
  let seats := r.seats.set n { seat with dialect := dialect }
  match route with
  | .sticky eventType content =>
      { r with sticky := envelope.event seat.userId eventType none content :: r.sticky, seats }
  | .state eventType stateKey content =>
      { r with
        state := envelope.event seat.userId eventType (some stateKey) content :: r.state, seats }
  | .room _ _ => { r with seats }

/-- What happens next: a device of ours joins on what it was given, publishes its membership
once more or takes it back; another client sends an event of its own. -/
inductive Action where
  | join (userId deviceId : String) (params : CallJoinParams) (given : Delivery)
      (members : List JoinedMembership)
  | publish (seat : ℕ) (transports : MemberTransports) (lifetimeMs : Option ℕ) (now : ℕ)
      (envelope : Envelope)
  | leave (seat : ℕ) (reason : LeaveReason) (now : ℕ) (envelope : Envelope)
  | foreignSticky (event : EventIn)
  | foreignState (event : EventIn)

variable (roomId : String)

/-- One step. A device is given only events that were sent, any of them and in any order, and
its roster holds some of those they say have joined. -/
def step (r : Room) : Action → Option Room
  | .join userId deviceId params given members => do
      guard (given.sticky ⊆ r.sticky ∧ given.state ⊆ r.state ∧ members ⊆ given.memberships roomId)
      return { r with seats := r.seats ++ [.taken roomId userId deviceId params given members] }
  | .publish n transports lifetimeMs now envelope =>
      r.seats[n]?.map fun seat =>
        r.send n seat (joinContent seat.slotId seat.memberId seat.application transports) lifetimeMs
          now envelope
  | .leave n reason now envelope =>
      r.seats[n]?.map fun seat =>
        r.send n seat (leaveContent seat.slotId seat.memberId reason) none now envelope
  | .foreignSticky event => some { r with sticky := event :: r.sticky }
  | .foreignState event => some { r with state := event :: r.state }

/-- The step decides on an intent that was not there to follow: a join whose roster agrees on
none, or another client's event. -/
def Decides (i : CallIntent) : Action → Prop
  | .join userId deviceId params _ members =>
      (CallIntentConsensus.ofOthers members userId deviceId).intent = none ∧
        params.requested.getD default = i
  | .foreignSticky event => stickyIntent event.content = some i
  | .foreignState event => stateIntent event.content = some i
  | .publish .. | .leave .. => False

/-- Something that was sent, or a device in the room, states the intent. -/
def Room.States (r : Room) (i : CallIntent) : Prop :=
  (∃ e ∈ r.sticky, stickyIntent e.content = some i) ∨
    (∃ e ∈ r.state, stateIntent e.content = some i) ∨ ∃ seat ∈ r.seats, seat.intent = i

section
variable (slotId memberId : String)

theorem joinContent_intent (a : ApplicationInfo) (transports : MemberTransports) :
    ((joinContent slotId memberId a transports).get "application").bind (·.get callIntentKey) =
      a.extra.lookup callIntentKey := by
  have unlisted : (transportsJson transports).lookup "application" = none := by
    unfold transportsJson
    dsimp only
    split_ifs <;> rfl
  unfold joinContent applicationJson
  split_ifs with bare
  · rw [Bool.and_eq_true, List.isEmpty_iff] at bare
    simp [Json.get, Json.asObject, List.lookup_cons, unlisted, bare.2]
  · simp [Json.get, Json.asObject, List.lookup_cons, List.lookup_append, callIntentKey]

theorem sticky_joinContent (a : ApplicationInfo) (transports : MemberTransports) :
    stickyIntent (joinContent slotId memberId a transports) = intentOf a := by
  have field : contentField (joinContent slotId memberId a transports) "application" =
      (joinContent slotId memberId a transports).get "application" := rfl
  rw [stickyIntent, field, joinContent_intent, intentOf]

theorem sticky_leaveContent (reason : LeaveReason) :
    stickyIntent (leaveContent slotId memberId reason) = none := by
  have field : contentField (leaveContent slotId memberId reason) "application" = none := rfl
  rw [stickyIntent, field]
  rfl

/-- The dialect copies the intent of the join, to where its readers look. -/
theorem state_joinContent (d : RoomStateDialect) {a : ApplicationInfo} {i : CallIntent}
    (states : intentOf a = some i) (transports : MemberTransports) (lifetimeMs : Option ℕ)
    (now : ℕ) :
    stateIntent (d.memberContent (joinContent slotId memberId a transports) lifetimeMs now).2 =
      some i := by
  have copied : (d.statedContent (joinContent slotId memberId a transports) (d.createdTs.getD now)
      now lifetimeMs).get callIntentKey =
        some ((((joinContent slotId memberId a transports).get "application").bind
          (·.get "m.call.intent")).getD (.str RoomStateDialect.defaultCallIntent)) := rfl
  have stated : ((joinContent slotId memberId a transports).get "application").bind
      (·.get "m.call.intent") = a.extra.lookup callIntentKey := joinContent_intent _ _ _ _
  rw [memberContent_join, stateIntent, copied, stated]
  cases extra : a.extra.lookup callIntentKey with
  | none =>
      rw [intentOf, extra] at states
      cases states
  | some value =>
      rw [intentOf, extra] at states
      exact states

end

section
variable {roomId} {r t : Room} {i : CallIntent}

theorem guard_some {α : Type} {P : Prop} [Decidable P] {x : Option α} {y : α}
    (h : (guard P >>= fun _ => x) = some y) : P ∧ x = some y := by
  by_cases holds : P
  · rw [guard, if_pos holds] at h
    exact ⟨holds, h⟩
  · rw [guard, if_neg holds] at h
    cases h

theorem seat_states {seat : Seat} (there : seat ∈ r.seats) : r.States seat.intent :=
  .inr (.inr ⟨seat, there, rfl⟩)

/-- A device sends what it stated when it joined. -/
theorem send_states {n : ℕ} {seat : Seat} {content : Json} {lifetimeMs : Option ℕ} {now : ℕ}
    {envelope : Envelope} (there : r.seats[n]? = some seat)
    (sticky : stickyIntent content = some i → seat.intent = i)
    (state : ∀ d : RoomStateDialect,
      stateIntent (d.memberContent content lifetimeMs now).2 = some i → seat.intent = i)
    (h : (r.send n seat content lifetimeMs now envelope).States i) : r.States i := by
  have seated : r.States seat.intent := seat_states (List.mem_of_getElem? there)
  have kept (dialect : OutboundDialect)
      (h : ∃ s ∈ r.seats.set n { seat with dialect := dialect }, s.intent = i) : r.States i := by
    obtain ⟨s, is_seat, intent⟩ := h
    rcases ListPlaces.of_mem_set is_seat with rfl | ⟨k, -, old⟩
    · exact intent ▸ seated
    · exact intent ▸ seat_states (List.mem_of_getElem? old)
  cases dialect : seat.dialect with
  | none =>
      rw [Room.send, dialect] at h
      rcases h with ⟨e, given, states⟩ | older | seats
      · rcases List.mem_cons.mp given with rfl | given
        · exact sticky states ▸ seated
        · exact .inl ⟨e, given, states⟩
      · exact .inr (.inl older)
      · exact kept _ seats
  | state d =>
      have route : OutboundDialect.routeMemberEvent "m.rtc.member" content lifetimeMs now
          (.state d) = (.state (d.memberContent content lifetimeMs now).1,
            .state stateMemberEventType d.stateKey (d.memberContent content lifetimeMs now).2) := by
        rw [OutboundDialect.routeMemberEvent, if_pos (by decide)]
      rw [Room.send, dialect, route] at h
      rcases h with older | ⟨e, given, states⟩ | seats
      · exact .inl older
      · rcases List.mem_cons.mp given with rfl | given
        · exact state d states ▸ seated
        · exact .inr (.inl ⟨e, given, states⟩)
      · exact kept _ seats

theorem settle_follows {members : List JoinedMembership} {params : CallJoinParams}
    {userId deviceId : String} (settled : (params.settle members userId deviceId).1 = i) :
    (∃ m ∈ members, CallIntent.of m = some i) ∨
      ((CallIntentConsensus.ofOthers members userId deviceId).intent = none ∧
        params.requested.getD default = i) := by
  cases agreed : (CallIntentConsensus.ofOthers members userId deviceId).intent with
  | none =>
      refine .inr ⟨rfl, ?_⟩
      rwa [CallJoinParams.settle, CallIntentConsensus.resolve, agreed, Option.none_or] at settled
  | some j =>
      rw [CallJoinParams.settle, CallIntentConsensus.resolve, agreed] at settled
      obtain rfl : j = i := settled
      obtain ⟨⟨m, other, states⟩, -⟩ := CallIntentConsensus.intent_of.mp agreed
      exact .inl ⟨m, List.mem_of_mem_filter other, states⟩

/-- What is stated after a step was stated before it, or the step decided on it. -/
theorem step_states {a : Action} (h : step roomId r a = some t) (states : t.States i) :
    r.States i ∨ Decides i a := by
  cases a with
  | join userId deviceId params given members =>
      obtain ⟨⟨sticky, state, roster⟩, taken⟩ := guard_some h
      cases taken
      rcases states with older | older | ⟨seat, there, intent⟩
      · exact .inl (.inl older)
      · exact .inl (.inr (.inl older))
      · rcases List.mem_append.mp there with old | new
        · exact .inl (intent ▸ seat_states old)
        · rw [List.mem_singleton] at new
          subst new
          rcases settle_follows intent with ⟨m, seen, follows⟩ | decides
          · rcases Delivery.read (roster seen) follows with ⟨e, given, tells⟩ | ⟨e, given, tells⟩
            · exact .inl (.inl ⟨e, sticky given, tells⟩)
            · exact .inl (.inr (.inl ⟨e, state given, tells⟩))
          · exact .inr decides
  | publish n transports lifetimeMs now envelope =>
      obtain ⟨seat, there, sent⟩ := Option.map_eq_some_iff.mp h
      subst sent
      refine .inl (send_states there (fun tells => ?_) (fun d tells => ?_) states)
      · rw [sticky_joinContent, seat.stated] at tells
        exact Option.some.inj tells
      · rw [state_joinContent _ _ d seat.stated] at tells
        exact Option.some.inj tells
  | leave n reason now envelope =>
      obtain ⟨seat, there, sent⟩ := Option.map_eq_some_iff.mp h
      subst sent
      refine .inl (send_states there (fun tells => ?_) (fun d tells => ?_) states)
      · rw [sticky_leaveContent] at tells
        cases tells
      · rw [memberContent_leave] at tells
        cases tells
  | foreignSticky event =>
      cases h
      rcases states with ⟨e, given, tells⟩ | older
      · rcases List.mem_cons.mp given with rfl | given
        · exact .inr tells
        · exact .inl (.inl ⟨e, given, tells⟩)
      · exact .inl (.inr older)
  | foreignState event =>
      cases h
      rcases states with older | ⟨e, given, tells⟩ | older
      · exact .inl (.inl older)
      · rcases List.mem_cons.mp given with rfl | given
        · exact .inr tells
        · exact .inl (.inr (.inl ⟨e, given, tells⟩))
      · exact .inl (.inr (.inr older))

end

section
variable {roomId} {t : Room} {as : List Action} {i : CallIntent}

theorem states_decided (h : run (step roomId) .empty as = some t) (states : t.States i) :
    ∃ a ∈ as, Decides i a := by
  have fresh : ¬Room.empty.States i := by
    rintro (⟨e, given, -⟩ | ⟨e, given, -⟩ | ⟨seat, there, -⟩)
    · cases given
    · cases given
    · cases there
  obtain ⟨before, a, after, -, split, -, decides⟩ :=
    run_traced (fun _ _ _ taken now => step_states taken now) fresh h states
  exact ⟨a, by simp [split], decides⟩

theorem read_decided {given : Delivery} {m : JoinedMembership}
    (h : run (step roomId) .empty as = some t) (sticky : given.sticky ⊆ t.sticky)
    (state : given.state ⊆ t.state) (there : m ∈ given.memberships roomId)
    (states : CallIntent.of m = some i) : ∃ a ∈ as, Decides i a := by
  refine states_decided h ?_
  rcases Delivery.read there states with ⟨e, seen, tells⟩ | ⟨e, seen, tells⟩
  · exact .inl ⟨e, sticky seen, tells⟩
  · exact .inr (.inl ⟨e, state seen, tells⟩)

end

/-- In every run, whatever intent a device reads of anybody was decided on by a join that had
none to follow or by another client's event; and where those all decided alike, every join
that reads an intent of someone else follows it. -/
theorem call_never_splits {as : List Action} {t : Room} {given : Delivery}
    (h : run (step roomId) .empty as = some t) (sticky : given.sticky ⊆ t.sticky)
    (state : given.state ⊆ t.state) :
    (∀ m ∈ given.memberships roomId, ∀ i ∈ CallIntent.of m, ∃ a ∈ as, Decides i a) ∧
      ∀ i, (∀ a ∈ as, ∀ j, Decides j a → j = i) →
        ∀ members ⊆ given.memberships roomId, ∀ userId deviceId,
          (∃ m ∈ members, !isOwnParticipation m userId deviceId ∧ (CallIntent.of m).isSome) →
            ∀ params : CallJoinParams, (params.settle members userId deviceId).1 = i := by
  have decided (m : JoinedMembership) (there : m ∈ given.memberships roomId) (i : CallIntent)
      (states : CallIntent.of m = some i) : ∃ a ∈ as, Decides i a :=
    read_decided h sticky state there states
  refine ⟨fun m there i states => decided m there i states, ?_⟩
  intro i alike members roster userId deviceId someone params
  have agree : CallIntentConsensus.Agree members i := by
    intro m seen j states
    obtain ⟨a, there, decides⟩ := decided m (roster seen) j states
    exact alike a there j decides
  obtain ⟨m, seen, other, states⟩ := someone
  obtain ⟨j, is_j⟩ := Option.isSome_iff_exists.mp states
  have follows : CallIntent.of m = some i := by rw [is_j, agree m seen j is_j]
  have consensus : (CallIntentConsensus.ofOthers members userId deviceId).intent = some i := by
    refine CallIntentConsensus.intent_of.mpr ⟨⟨m, ?_, follows⟩, fun k there => ?_⟩
    · exact List.mem_filter.mpr ⟨seen, other⟩
    · exact agree k (List.mem_of_mem_filter there)
  rw [CallJoinParams.settle, CallIntentConsensus.resolve, consensus]
  rfl

/-! Alice starts a voice call over sticky events, and Bob, who asked for video, answers it
over room state. -/

def answerParams (intent : Option CallIntent) : CallJoinParams :=
  { slotId := "m.call#room"
    memberId := "a"
    application := ⟨some "m.call", []⟩
    kind := .group none
    intent := intent }

def answerEnvelope : Envelope := ⟨"$e", 5, .encrypted (some "A") none⟩

def aliceEvent : EventIn :=
  answerEnvelope.event "@a" "m.rtc.member" none (joinContent "m.call#room" "a"
    (withExtra ⟨some "m.call", []⟩ callIntentKey (.str "audio")) ⟨[], []⟩)

/-- What Bob is given before he joins. -/
def bobGiven : Delivery := ⟨.roomState, 6, [aliceEvent], []⟩

def answered : List Action :=
  [.join "@a" "A" (answerParams (some .audio)) ⟨.msc, 4, [], []⟩ [],
    .publish 0 ⟨[], []⟩ (some 100) 5 answerEnvelope,
    .join "@b" "B" (answerParams (some .video)) bobGiven (bobGiven.memberships "!r"),
    .publish 1 ⟨[], []⟩ (some 100) 6 answerEnvelope]

theorem answered_runs : (run (step "!r") .empty answered).isSome := by decide +kernel

/-- The room once Bob has answered. -/
def answeredRoom : Room := (run (step "!r") .empty answered).get answered_runs

/-- A third device that is given all of it reads what Alice decided of both. -/
theorem call_never_splits_answered :
    (∀ m ∈ (Delivery.mk .roomState 7 answeredRoom.sticky answeredRoom.state).memberships "!r",
      ∀ i ∈ CallIntent.of m, ∃ a ∈ answered, Decides i a) ∧
    (Delivery.mk .roomState 7 answeredRoom.sticky answeredRoom.state).memberships "!r" ≠ [] :=
  ⟨(call_never_splits "!r" (Option.some_get answered_runs).symm (fun _ h => h) fun _ h => h).1,
    by decide +kernel⟩

end MatrixRtc.CallIntents

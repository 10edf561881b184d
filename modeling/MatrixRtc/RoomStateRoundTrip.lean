import MatrixRtc.RoomStateDialects
import Mathlib.Data.List.TakeWhile
import Mathlib.Data.Option.Basic

/-!
# Our room-state membership, read back

A membership is published once and refreshed any number of times, and each refresh states
a longer lifetime from the same creation. What a peer reads from the last of them is the
slot, the member and the device we joined with, on our first LiveKit transport, until the
last lifetime ends.
-/
namespace MatrixRtc.RoomStateRoundTrip
open HostAnswers JsonValues MemberEvents MemberIngest RoomStateMembers RoomStateDialects

theorem splitOnce_append {before after : String} {at_ : Char} (free : at_ ∉ before.toList) :
    splitOnce (before ++ String.singleton at_ ++ after) at_ = some (before, after) := by
  have kept : ∀ c ∈ before.toList, (c != at_) = true := by
    intro c member
    simp only [bne_iff_ne, ne_eq]
    rintro rfl
    exact free member
  have text : (before ++ String.singleton at_ ++ after).toList =
      before.toList ++ at_ :: after.toList := by simp
  have dropped : (before.toList ++ at_ :: after.toList).dropWhile (· != at_) =
      at_ :: after.toList := by
    rw [List.dropWhile_append_of_pos kept]
    simp
  have taken : (before.toList ++ at_ :: after.toList).takeWhile (· != at_) = before.toList := by
    rw [List.takeWhile_append_of_pos kept]
    simp
  simp only [splitOnce, text, dropped, taken, String.ofList_toList]

/-- The call id of a slot, with the room's own as none. -/
def callIdOf (applicationSlotId : String) : String :=
  if applicationSlotId = roomApplicationSlotId then "" else applicationSlotId

theorem legacySession_slot {application applicationSlotId : String}
    (free : '#' ∉ application.toList) :
    legacySession (application ++ "#" ++ applicationSlotId) =
      (application, callIdOf applicationSlotId) := by
  have hash : "#" = String.singleton '#' := rfl
  have split : splitOnce (application ++ "#" ++ applicationSlotId) '#' =
      some (application, applicationSlotId) := by
    rw [hash]
    exact splitOnce_append free
  unfold legacySession callIdOf
  rw [split]
  dsimp only
  split_ifs <;> rfl

theorem slot_of_callId {applicationSlotId : String} (named : applicationSlotId.isEmpty = false) :
    (if (callIdOf applicationSlotId).isEmpty then roomCallId else callIdOf applicationSlotId) =
      applicationSlotId := by
  unfold callIdOf
  split_ifs with room empty
  · exact room.symm
  · simp at empty
  · simp_all
  · rfl

/-- One rendering of our join's content: the first, a refresh or a republish. -/
structure Publish where
  now : ℕ
  memberId : String
  application : ApplicationInfo
  transports : MemberTransports
  lifetimeMs : Option ℕ

def Publish.spec (slotId : String) (p : Publish) : Json :=
  joinContent slotId p.memberId p.application p.transports

/-- The dialect after publishes of the join. -/
def published (d : RoomStateDialect) (slotId : String) : List Publish → RoomStateDialect
  | [] => d
  | p :: later =>
      published (d.memberContent (p.spec slotId) p.lifetimeMs p.now).1 slotId later

/-- The clock never went back between two publishes. -/
def InOrder (publishes : List Publish) : Prop := (publishes.map Publish.now).IsChain (· ≤ ·)

theorem published_eq (d : RoomStateDialect) (slotId : String) (publishes : List Publish) :
    published d slotId publishes =
      { d with createdTs := d.createdTs.or (publishes.head?.map Publish.now) } := by
  induction publishes generalizing d with
  | nil => simp [published]
  | cons p later ih =>
      rw [published, ih]
      cases created : d.createdTs <;> simp [Publish.spec, created]

/-- When the join was first published, of its publishes the last of which is `last`. -/
def firstAt (earlier : List Publish) (last : Publish) : ℕ :=
  (earlier.head?.map Publish.now).getD last.now

theorem firstAt_le {earlier : List Publish} {last : Publish}
    (ordered : InOrder (earlier ++ [last])) :
    firstAt earlier last ≤ last.now := by
  cases earlier with
  | nil => exact le_rfl
  | cons first rest =>
      unfold InOrder at ordered
      rw [List.isChain_iff_pairwise] at ordered
      simp only [List.cons_append, List.map_cons, List.pairwise_cons] at ordered
      exact ordered.1 last.now (by simp)

/-- The content of the last publish. -/
def rendered (d : RoomStateDialect) (slotId : String) (earlier : List Publish) (last : Publish) :
    Json :=
  ((published d slotId earlier).memberContent (last.spec slotId) last.lifetimeMs last.now).2

theorem rendered_eq (userId deviceId roomId slotId : String) (earlier : List Publish)
    (last : Publish) :
    rendered (.new userId deviceId roomId slotId) slotId earlier last =
      (RoomStateDialect.new userId deviceId roomId slotId).statedContent (last.spec slotId)
        (firstAt earlier last) last.now last.lifetimeMs := by
  have created : ((published (.new userId deviceId roomId slotId) slotId earlier).createdTs.getD
      last.now) = firstAt earlier last := by
    simp [published_eq, RoomStateDialect.new, firstAt]
  have same : ∀ createdTs, (published (.new userId deviceId roomId slotId) slotId
      earlier).statedContent (last.spec slotId) createdTs last.now last.lifetimeMs =
        (RoomStateDialect.new userId deviceId roomId slotId).statedContent (last.spec slotId)
          createdTs last.now last.lifetimeMs := by
    intro createdTs
    rw [published_eq]
    rfl
  unfold rendered
  rw [Publish.spec, memberContent_join, created, ← Publish.spec, same]

/-- The object serializes as a LiveKit transport. -/
def isLivekit (focus : Json) : Bool := (focus.get "type").bind Json.asStr == some "livekit"

/-- The first LiveKit transport of a join, as it was serialized. -/
def firstLivekit (t : MemberTransports) : Option Json :=
  (t.published.map transportJson).find? isLivekit

theorem applicationJson_transports (a : ApplicationInfo) :
    (applicationJson a).lookup "transports" = none := by
  unfold applicationJson
  split_ifs <;> rfl

theorem joinContent_published (slotId memberId : String) (a : ApplicationInfo)
    (t : MemberTransports) :
    (((joinContent slotId memberId a t).get "transports").bind (·.get "published")).bind
        Json.asArray =
      if t.published.isEmpty then none else some (t.published.map transportJson) := by
  have stated : (joinContent slotId memberId a t).get "transports" =
      (transportsJson t).lookup "transports" := by
    simp [joinContent, Json.get, Json.asObject, List.lookup_cons, List.lookup_append,
      applicationJson_transports]
  rw [stated]
  unfold transportsJson
  cases t.published <;> cases t.canSubscribe <;>
    simp [List.lookup_cons, Json.get, Json.asObject, Json.asArray]

theorem fociPreferred_head (d : RoomStateDialect) (slotId : String) (p : Publish) :
    (d.fociPreferred (p.spec slotId)).head? = (firstLivekit p.transports).map d.aliased := by
  have listed : ((((p.spec slotId).get "transports").bind (·.get "published")).bind
      Json.asArray).getD [] = p.transports.published.map transportJson := by
    rw [Publish.spec, joinContent_published]
    cases p.transports.published <;> rfl
  unfold RoomStateDialect.fociPreferred firstLivekit
  rw [listed, List.head?_map, List.head?_filter]
  rfl

theorem aliased_get (d : RoomStateDialect) {focus value : Json} {key : String}
    (h : focus.get key = some value) : (d.aliased focus).get key = some value := by
  cases focus with
  | obj fields =>
      unfold RoomStateDialect.aliased
      dsimp only
      split_ifs with own
      · exact h
      · have other : key ≠ "livekit_alias" := by
          rintro rfl
          simp only [Json.get, Json.asObject, Option.bind_some] at h
          simp [h] at own
        exact (lookup_setField_ne other).trans h
  | null | bool | num | str | arr => cases h

/-- What a peer reads of our membership in a slot. -/
structure ReadsBack (m : StateMembership) (slotId userId deviceId : String) (createdTs : ℕ)
    (stated : Option Json) : Prop where
  slot : m.content.get "slot_id" = some (.str slotId)
  stickyKey : m.content.get "msc4354_sticky_key" = some (.str (participantIdentity userId deviceId))
  member : (m.content.get "member").bind (·.get "id") =
    some (.str (participantIdentity userId deviceId))
  device : m.claimedDeviceId = deviceId
  created : m.content.get "created_ts" = some (.num (.posInt createdTs))
  transport : ∀ focus, stated = some focus →
    ∃ read, (m.content.get "transports").bind (·.get "published") = some (.arr [read]) ∧
      ∀ key value, focus.get key = some value → read.get key = some value
  unstated : stated = none → m.content.get "transports" = none

/-- When the lifetime that a publish states is over. -/
def Publish.endsAt (p : Publish) : ℕ := p.now + p.lifetimeMs.getD defaultExpiresMs

theorem rebased_lifetime {p : Publish} {createdTs : ℕ} (first : createdTs ≤ p.now)
    (clock : p.endsAt ≤ u64Max) :
    createdTs + (p.now - createdTs + p.lifetimeMs.getD defaultExpiresMs) % (u64Max + 1) =
      p.endsAt := by
  unfold Publish.endsAt at clock ⊢
  rw [Nat.mod_eq_of_lt (by omega)]
  omega

/-- One membership of the event, as a peer parses it. -/
def parsedMembership (d : RoomStateDialect) (event : LegacyStateMemberEventIn)
    (application slotId : String) (createdTs : ℕ) (p : Publish) : Parsed :=
  { eventId := event.eventId
    sender := event.sender
    stateKey := event.stateKey
    deviceId := d.ownDeviceId
    memberId := d.membershipId
    slotId := slotId
    applicationType := application
    joinedAt := createdTs
    intent := some ((((p.spec slotId).get "application").bind (·.get "m.call.intent")).getD
      (.str RoomStateDialect.defaultCallIntent))
    ownFocus := (firstLivekit p.transports).map d.aliased
    prefersOwnFocus := true }

theorem kept {s : String} (h : s.isEmpty = false) :
    (some s).filter (fun s => !s.isEmpty) = some s := by simp only [Option.filter, h]; rfl

theorem parse_stated {application applicationSlotId : String} {d : RoomStateDialect}
    {event : LegacyStateMemberEventIn} {createdTs : ℕ} {p : Publish} {t : ℕ}
    (typed : application.isEmpty = false) (free : '#' ∉ application.toList)
    (named : applicationSlotId.isEmpty = false) (device : d.ownDeviceId.isEmpty = false)
    (slot : d.slotId = application ++ "#" ++ applicationSlotId)
    (content : event.content = d.statedContent (p.spec d.slotId) createdTs p.now p.lifetimeMs)
    (stamped : createdTs ≤ event.originServerTs) (first : createdTs ≤ p.now)
    (clock : p.endsAt ≤ u64Max) :
    parse event t =
      if t < p.endsAt then some (parsedMembership d event application d.slotId createdTs p)
      else none := by
  have session : legacySession d.slotId = (application, callIdOf applicationSlotId) := by
    rw [slot, legacySession_slot free]
  have identity : d.membershipId.isEmpty = false := by
    simp [RoomStateDialect.membershipId, participantIdentity]
  simp only [RoomStateDialect.statedContent, session] at content
  -- The reader finds each field as the dialect wrote it.
  obtain ⟨object, hobject⟩ : ∃ object, event.content = .obj object := ⟨_, content⟩
  have fields := content
  rw [hobject, Json.obj.injEq] at fields
  have foundApplication : nonEmptyField object "application" = some application := by
    rw [fields]
    exact kept typed
  have foundDevice : nonEmptyField object "device_id" = some d.ownDeviceId := by
    rw [fields]
    exact kept device
  have foundMember : nonEmptyField object "membershipID" = some d.membershipId := by
    rw [fields]
    exact kept identity
  have foundCreation : joinedAt object event.originServerTs = createdTs := by
    rw [fields]
    exact min_eq_left stamped
  have foundCall : (object.lookup "call_id").bind Json.asStr =
      some (callIdOf applicationSlotId) := by
    rw [fields]
    rfl
  have foundFocus : ((object.lookup "foci_preferred").bind Json.asArray).bind List.head? =
      (firstLivekit p.transports).map d.aliased := by
    rw [fields, ← fociPreferred_head d d.slotId p]
    rfl
  have ends : deadline object event.originServerTs = p.endsAt := by
    rw [deadline, foundCreation, fields]
    exact (min_eq_left ((rebased_lifetime first clock).le.trans clock)).trans
      (rebased_lifetime first clock)
  have state : parsedFields event object application d.ownDeviceId =
      parsedMembership d event application d.slotId createdTs p := by
    unfold parsedFields parsedMembership
    rw [foundMember, foundCreation, foundCall, foundFocus, slot]
    simp only [Option.getD_some, slot_of_callId named]
    rw [fields]
    rfl
  have some_fields : object.isEmpty = false := by rw [fields]; rfl
  have no_list : (object.lookup "memberships").isNone = true := by rw [fields]; rfl
  unfold parse
  rw [hobject]
  simp only [Json.asObject, Option.bind_eq_bind, Option.bind_some, some_fields, no_list,
    foundApplication, foundDevice, ends, state]
  split_ifs with live <;> simp [guard, live]

@[simp] theorem translate_nothing {event : LegacyStateMemberEventIn} {t : ℕ}
    (h : parse event t = none) : translateStateMemberships [event] t = [] := by
  simp [translateStateMemberships, h]

@[simp] theorem translate_one {event : LegacyStateMemberEventIn} {t : ℕ} {m : Parsed}
    (h : parse event t = some m) :
    translateStateMemberships [event] t = [translateMembership [m] m] := by
  simp [translateStateMemberships, h]

theorem resolveFocus_alone (m : Parsed) : resolveFocus m [m] = m.ownFocus := by
  unfold resolveFocus
  split_ifs
  · rfl
  · simp [oldest]

theorem rewritten_readsBack {d : RoomStateDialect} {event : LegacyStateMemberEventIn}
    {application slotId : String} {createdTs : ℕ} {p : Publish} :
    let m := parsedMembership d event application slotId createdTs p
    ReadsBack (translateMembership [m] m) slotId d.ownUserId d.ownDeviceId createdTs
      (firstLivekit p.transports) := by
  intro m
  have focus : resolveFocus m [m] = (firstLivekit p.transports).map d.aliased :=
    resolveFocus_alone m
  refine ⟨rfl, rfl, rfl, rfl, rfl, ?transport, ?unstated⟩
  case transport =>
    intro focus' stated
    rw [stated] at focus
    refine ⟨d.aliased focus', ?_, fun key value found => aliased_get d found⟩
    simp only [translateMembership, rewrittenContent, focus]
    rfl
  case unstated =>
    intro stated
    rw [stated] at focus
    simp only [translateMembership, rewrittenContent, focus]
    rfl

theorem leave_nothing {event : LegacyStateMemberEventIn} (h : event.content = .obj [])
    (t : ℕ) : translateStateMemberships [event] t = [] := by
  apply translate_nothing
  simp [parse, h, Json.asObject, guard, failure]

/-- What a peer reads of the last publish of our join, until the lifetime it states is over;
and of our leave. -/
theorem membership_read_back {application applicationSlotId userId deviceId roomId slotId : String}
    {earlier : List Publish} {last : Publish} {event : LegacyStateMemberEventIn}
    (slot : slotId = application ++ "#" ++ applicationSlotId)
    (typed : application.isEmpty = false) (free : '#' ∉ application.toList)
    (named : applicationSlotId.isEmpty = false) (device : deviceId.isEmpty = false)
    (ordered : InOrder (earlier ++ [last])) (clock : last.endsAt ≤ u64Max)
    (content : event.content =
      rendered (.new userId deviceId roomId slotId) slotId earlier last)
    (stamped : firstAt earlier last ≤ event.originServerTs) :
    (∀ t, t < last.endsAt → ∃ m, translateStateMemberships [event] t = [m] ∧
      ReadsBack m slotId userId deviceId (firstAt earlier last) (firstLivekit last.transports)) ∧
    (∀ t, last.endsAt ≤ t → translateStateMemberships [event] t = []) ∧
    ∀ (d : RoomStateDialect) (memberId : String) (reason : LeaveReason) (lifetimeMs : Option ℕ)
      (now : ℕ) (left : LegacyStateMemberEventIn) (t : ℕ),
      left.content = (d.memberContent (leaveContent slotId memberId reason) lifetimeMs now).2 →
      translateStateMemberships [left] t = [] := by
  have first := firstAt_le ordered
  rw [rendered_eq] at content
  have parsed := fun t => parse_stated (t := t)
    (d := RoomStateDialect.new userId deviceId roomId slotId) typed free named device slot
    content stamped first clock
  refine ⟨?alive, ?ended, ?left⟩
  case alive =>
    intro t live
    have one := translate_one ((parsed t).trans (if_pos live))
    exact ⟨_, one, rewritten_readsBack⟩
  case ended =>
    intro t ended
    exact translate_nothing ((parsed t).trans (if_neg (not_lt.mpr ended)))
  case left =>
    intro d memberId reason lifetimeMs now left t content
    rw [memberContent_leave] at content
    exact leave_nothing content t

def livekitJoin (now : ℕ) (lifetimeMs : Option ℕ) : Publish :=
  { now := now, memberId := "member", application := ⟨some "m.call", []⟩
    transports :=
      { published :=
          [⟨"websocket", []⟩, ⟨"livekit", [("livekit_service_url", .str "https://sfu")]⟩]
        canSubscribe := ["livekit"] }
    lifetimeMs := lifetimeMs }

def refreshed (userId deviceId slotId : String) (originServerTs : ℕ) (earlier : List Publish)
    (last : Publish) : LegacyStateMemberEventIn :=
  { eventId := none, sender := userId, stateKey := "", originServerTs := originServerTs
    content := rendered (.new userId deviceId "!room" slotId) slotId earlier last }

theorem membership_read_back_refreshed :
    let earlier := [livekitJoin 1000 none]
    let last := livekitJoin 5000 (some 60000)
    let event := refreshed "@alice:x" "PHONE" "m.call#room" 1100 earlier last
    (∃ m, translateStateMemberships [event] 64999 = [m] ∧
      ReadsBack m "m.call#room" "@alice:x" "PHONE" 1000 (firstLivekit last.transports)) ∧
    translateStateMemberships [event] 65000 = [] := by
  intro earlier last event
  have both := @membership_read_back "m.call" "room" "@alice:x" "PHONE" "!room" "m.call#room"
    earlier last event rfl rfl (by decide) rfl rfl
    (by simp [InOrder, earlier, last, livekitJoin]) (by decide) rfl (by decide)
  exact ⟨both.1 64999 (by decide), both.2.1 65000 (by decide)⟩

/-- A membership of a device without a name is read by nobody, and a lifetime too long for
the clock ends at once. -/
theorem membership_not_read_back :
    (let last := livekitJoin 1000 (some 60000)
     1000 < last.endsAt ∧
      translateStateMemberships [refreshed "@alice:x" "" "m.call#room" 1000 [] last] 1000 = []) ∧
    let last := livekitJoin 1001 (some u64Max)
    1001 < last.endsAt ∧
      translateStateMemberships
        [refreshed "@alice:x" "PHONE" "m.call#room" 1000 [livekitJoin 1000 none] last] 1001 =
          [] := by
  decide +kernel

end MatrixRtc.RoomStateRoundTrip

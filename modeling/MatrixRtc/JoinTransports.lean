import MatrixRtc.JoinedContents
import MatrixRtc.LiveKitTargets
import MatrixRtc.Outboxes
import MatrixRtc.RaisedHands
import MatrixRtc.RoomStateRoundTrip

/-!
# The transport of a join

A join publishes on the transport its host names, or on the first LiveKit one of those the
homeserver lists, or on none. What it publishes goes out in the format of the room, as a sticky
content or as the focus of a room-state one, and is read back by every peer as the transport it
was, whoever else is in the room.
-/
namespace MatrixRtc.JoinTransports
open HostAnswers JoinedContents JsonValues LiveKitTargets MemberContents MemberEvents MemberIngest
open RoomStateDialects RoomStateMembers RoomStateRoundTrip

/-- `LIVEKIT_TRANSPORT_TYPE`. -/
def livekitTransportType : String := "livekit"

/-- What a join does with transports. -/
inductive JoinTransport where
  | advertised
  | publish (transport : LiveKitTransport)
  | receiveOnly
deriving DecidableEq

inductive TransportIntent where
  | publish (transport : RtcTransport)
  | receiveOnly (canSubscribe : List String)
deriving DecidableEq

inductive JoinError where
  | commandError (error : CommandError)
  | alreadyJoined (membershipId : String)
  | missingParameter (name : String)
  | invalidTransport
  | slotClosed (slotId : String)
  | timedOut
  | refused (errcode : Option String) (message : String)
deriving DecidableEq

/-- `JoinError::from_send_failure`. -/
def JoinError.fromSendFailure (failure : Outboxes.SendFailure) : JoinError :=
  match failure with
  | .refused error =>
      .refused (error.backendError.bind (·.errcode)) (RaisedHands.errorText error)
  | .deadlineElapsed _ | .timedOut => .timedOut
  | other => .commandError other.intoCommandError

/-- The LiveKit transport an advertised entry parses to. -/
def liveKitEntry (entry : Json) : Option LiveKitTransport :=
  match readTransport entry with
  | some (.liveKit livekit) => some livekit
  | some (.unsupported _) | none => none

/-- The homeserver's configuration, not a failure to reach it. -/
def noneAdvertised : CommandError :=
  .backend { BackendError.new "the homeserver advertises no livekit transport" with
    permanent := true }

/-- `choose`. -/
def choose (rtcTransports : Json) (chosen : JoinTransport) : Except CommandError TransportIntent :=
  match chosen with
  | .publish transport => .ok (.publish (.liveKit transport))
  | .receiveOnly => .ok (.receiveOnly [livekitTransportType])
  | .advertised =>
      match (rtcTransports.asArray.getD []).findSome? liveKitEntry with
      | some livekit => .ok (.publish (.liveKit livekit))
      | none => .error noneAdvertised

/-- `resolve`: the homeserver is asked only where the join publishes on what it advertises.
`asked` is what the request came to. -/
def resolve (asked : Except Outboxes.SendFailure Json) (chosen : JoinTransport) :
    Except JoinError TransportIntent :=
  let answer := match chosen with
    | .advertised => asked.mapError JoinError.fromSendFailure
    | .publish _ | .receiveOnly => .ok .null
  match answer with
  | .error failure => .error failure
  | .ok rtcTransports =>
      (choose rtcTransports chosen).mapError fun error =>
        .refused none (RaisedHands.errorText error)

/-- `RawRtcTransport` of a transport as it serializes. -/
def rawTransport (transport : RtcTransport) : Option RawRtcTransport :=
  parseRawRtcTransport (transportToJson transport)

/-- What the session publishes of an intent. A transport always serializes to an object with a
type, which is what the source expects of it. -/
def publishedTransports : TransportIntent → MemberTransports
  | .publish transport =>
      match rawTransport transport with
      | some raw => ⟨[raw], [raw.transportType]⟩
      | none => ⟨[], []⟩
  | .receiveOnly canSubscribe => ⟨[], canSubscribe⟩

/-- A join on the advertised transports takes the first LiveKit one, and fails for good where
there is none. -/
theorem choose_advertised {rtcTransports : Json} {livekit : LiveKitTransport} :
    choose rtcTransports .advertised = .ok (.publish (.liveKit livekit)) ↔
      ∃ before entry after, rtcTransports.asArray.getD [] = before ++ entry :: after ∧
        liveKitEntry entry = some livekit ∧ ∀ other ∈ before, liveKitEntry other = none := by
  rw [choose, ← List.findSome?_eq_some_iff]
  cases found : (rtcTransports.asArray.getD []).findSome? liveKitEntry with
  | none => simp
  | some first => simp

/-- A join resolves to what `choose` makes of the homeserver's answer, which only a join on the
advertised transports waits for. -/
theorem resolve_eq_ok {asked : Except Outboxes.SendFailure Json} {chosen : JoinTransport}
    {intent : TransportIntent} :
    resolve asked chosen = .ok intent ↔
      ∃ rtcTransports, (chosen = .advertised → asked = .ok rtcTransports) ∧
        choose rtcTransports chosen = .ok intent := by
  have some_answer : Nonempty Json := ⟨.null⟩
  cases chosen with
  | publish transport => simp [resolve, choose, Except.mapError]
  | receiveOnly => simp [resolve, choose, Except.mapError]
  | advertised =>
      cases asked with
      | error failure => simp [resolve, Except.mapError]
      | ok rtcTransports =>
          cases chosen : choose rtcTransports .advertised <;>
            simp [resolve, Except.mapError, chosen]

/-- The fields of a LiveKit transport beside its type. -/
def liveKitExtra (livekit : LiveKitTransport) : List (String × Json) :=
  others "type" (setField (liveKitFields livekit) "type" (.str livekitTransportType))

theorem rawTransport_liveKit (livekit : LiveKitTransport) :
    rawTransport (.liveKit livekit) = some ⟨livekitTransportType, liveKitExtra livekit⟩ := by
  simp only [rawTransport, parseRawRtcTransport, transportToJson, Json.asObject]
  rfl

theorem publishedTransports_liveKit (livekit : LiveKitTransport) :
    publishedTransports (.publish (.liveKit livekit)) =
      ⟨[⟨livekitTransportType, liveKitExtra livekit⟩], [livekitTransportType]⟩ := by
  rw [publishedTransports, rawTransport_liveKit]

theorem lookup_liveKitExtra (livekit : LiveKitTransport) {name : String} (other : name ≠ "type") :
    (liveKitExtra livekit).lookup name = (liveKitFields livekit).lookup name :=
  (lookup_others other _).trans (lookup_setField_ne other)

theorem intoTyped_liveKit {livekit : LiveKitTransport} {extra : List (String × Json)}
    (same : ∀ name ∈ ["url", "livekit_service_url", "server_name"],
      extra.lookup name = (liveKitFields livekit).lookup name) :
    (RawRtcTransport.mk livekitTransportType extra).intoTyped = .liveKit livekit := by
  obtain ⟨url, service, name⟩ := lookup_liveKitFields livekit
  rw [RawRtcTransport.intoTyped, if_pos (.inl rfl)]
  simp only [same "url" (by simp), same "livekit_service_url" (by simp),
    same "server_name" (by simp), url, service, name, LiveKitTransport.new_fields livekit]

/-- The published transport as it stands in a content. -/
def liveKitJson (livekit : LiveKitTransport) : Json :=
  transportJson ⟨livekitTransportType, liveKitExtra livekit⟩

/-- An object that states the fields of the published transport. -/
def Shows (livekit : LiveKitTransport) (focus : Json) : Prop :=
  ∃ fields, focus = .obj fields ∧ fields.lookup "type" = some (.str livekitTransportType) ∧
    ∀ name ∈ ["url", "livekit_service_url", "server_name"],
      fields.lookup name = (liveKitFields livekit).lookup name

theorem shows_liveKitJson (livekit : LiveKitTransport) : Shows livekit (liveKitJson livekit) := by
  have untyped : (liveKitExtra livekit).lookup "type" = none := by
    rw [ListPlaces.lookup_eq_none]
    intro field there
    have kept := (List.mem_filter.mp there).2
    simpa using kept
  refine ⟨_, rfl, ?_, fun name is => ?_⟩
  · rw [List.lookup_append, untyped, Option.none_or]
    rfl
  · have other : name ≠ "type" := by
      rintro rfl
      revert is
      decide
    rw [List.lookup_append, lookup_liveKitExtra livekit other]
    have past : List.lookup name [("type", Json.str livekitTransportType)] = none := by
      rw [List.lookup_cons, beq_eq_false_iff_ne.mpr other]
      rfl
    rw [past, Option.or_none]

theorem shows_aliased (d : RoomStateDialect) {livekit : LiveKitTransport} {focus : Json}
    (h : Shows livekit focus) : Shows livekit (d.aliased focus) := by
  obtain ⟨fields, rfl, type, same⟩ := h
  rw [RoomStateDialect.aliased]
  split_ifs
  · exact ⟨fields, rfl, type, same⟩
  · refine ⟨_, rfl, (lookup_setField_ne (by decide)).trans type, fun name is => ?_⟩
    have other : name ≠ "livekit_alias" := by
      rintro rfl
      revert is
      decide
    exact (lookup_setField_ne other).trans (same name is)

theorem readTransport_shows {livekit : LiveKitTransport} {focus : Json} (h : Shows livekit focus) :
    readTransport focus = some (.liveKit livekit) := by
  obtain ⟨fields, rfl, type, same⟩ := h
  have parsed : parseRawRtcTransport (.obj fields) =
      some ⟨livekitTransportType, others "type" fields⟩ := by
    rw [parseRawRtcTransport]
    simp only [Json.asObject, Option.bind_eq_bind, Option.bind_some, type, Json.asStr,
      Option.pure_def]
  rw [readTransport, parsed, Option.map_some]
  refine congrArg some (intoTyped_liveKit fun name is => ?_)
  have other : name ≠ "type" := by
    rintro rfl
    revert is
    decide
  exact (lookup_others other fields).trans (same name is)

/-- The transports of a content that a peer reads. -/
def typedTransports (c : RawStickyEventContent) : List RtcTransport :=
  (c.transports.getD ⟨[], []⟩).published.map RawRtcTransport.intoTyped

def subscribes (c : RawStickyEventContent) : List String :=
  (c.transports.getD ⟨[], []⟩).canSubscribe

/-- A content with one focus and one type to subscribe to. -/
def listed (focus : Json) (types : List Json) : Json :=
  .obj [("published", .arr [focus]), ("can_subscribe", .arr types)]

theorem parse_listed {livekit : LiveKitTransport} {focus : Json} (h : Shows livekit focus)
    {c : RawStickyEventContent} {content : Json}
    (states : contentField content "transports" =
      some (listed focus [.str livekitTransportType]))
    (parsed : parseRawStickyEventContent content = some c) :
    typedTransports c = [.liveKit livekit] ∧ subscribes c = [livekitTransportType] := by
  unfold parseRawStickyEventContent at parsed
  simp only [Option.bind_eq_bind, Option.bind_eq_some_iff] at parsed
  obtain ⟨w, single, field, is_field, _, -, _, -, _, -, _, -, transports, is_transports, _, -, _,
    -, made⟩ := parsed
  cases made
  obtain ⟨-, -, same⟩ := singleStickyKey_spec single
  have named : field "transports" = contentField w "transports" := by
    rw [contentField, contentOrder, is_field, Option.bind_some]
  rw [named, same _ (by decide) (by decide), states] at is_transports
  obtain ⟨raw, is_raw, typed⟩ := Option.map_eq_some_iff.mp (readTransport_shows h)
  have read : parseMemberTransports (listed focus [.str livekitTransportType]) =
      some ⟨[raw], [livekitTransportType]⟩ := by
    have one : sequence parseRawRtcTransport (.arr [focus]) = some [raw] := by
      simp [MemberContents.sequence, Json.asArray, is_raw]
    have subscribed : sequence Json.asStr (.arr [.str livekitTransportType]) =
        some [livekitTransportType] := rfl
    rw [parseMemberTransports, listed]
    simp only [structFields, Option.bind_eq_bind, Option.bind_some, defaulted]
    simp [List.lookup_cons, one, subscribed]
  have whole : optional parseMemberTransports (some (listed focus [.str livekitTransportType])) =
      some (some ⟨[raw], [livekitTransportType]⟩) := by
    change (parseMemberTransports (listed focus [.str livekitTransportType])).map some = _
    rw [read, Option.map_some]
  obtain rfl : some ⟨[raw], [livekitTransportType]⟩ = transports :=
    Option.some.inj (whole.symm.trans is_transports)
  exact ⟨by simp [typedTransports, typed], rfl⟩

section
variable {livekit : LiveKitTransport} {slotId memberId : String} {a : ApplicationInfo}

/-- The content of a join that publishes on a LiveKit transport. -/
def liveKitContent (livekit : LiveKitTransport) (slotId memberId : String) (a : ApplicationInfo) :
    Json :=
  joinContent slotId memberId a (publishedTransports (.publish (.liveKit livekit)))

theorem liveKitContent_transports :
    (liveKitContent livekit slotId memberId a).get "transports" =
      some (listed (liveKitJson livekit) [.str livekitTransportType]) := by
  have stated : transportsJson (publishedTransports (.publish (.liveKit livekit))) =
      [("transports", listed (liveKitJson livekit) [.str livekitTransportType])] := by
    rw [publishedTransports_liveKit]
    rfl
  simp [liveKitContent, joinContent, Json.get, Json.asObject, List.lookup_cons,
    List.lookup_append, applicationJson_transports, stated]

/-- Every peer that reads our sticky event reads the transport we joined on. -/
theorem read_sticky_transport {roomId : String} {event : RawMemberEventIn} {raw : RawStickyEvent}
    (content : event.content = liveKitContent livekit slotId memberId a)
    (h : toCoreMemberEvent roomId event = some raw) :
    typedTransports raw.content = [.liveKit livekit] ∧
      subscribes raw.content = [livekitTransportType] := by
  obtain ⟨object, is_object⟩ : ∃ object,
      liveKitContent livekit slotId memberId a = .obj object := ⟨_, rfl⟩
  have stated := @liveKitContent_transports livekit slotId memberId a
  have slot : (object.lookup "slot_id").isSome := by
    have named : (liveKitContent livekit slotId memberId a).get "slot_id" = some (.str slotId) :=
      rfl
    rw [is_object, Json.get, Json.asObject, Option.bind_some] at named
    rw [named]
    rfl
  rw [is_object, Json.get, Json.asObject, Option.bind_some] at stated
  unfold toCoreMemberEvent at h
  rw [content, is_object, normalized_obj slot] at h
  obtain ⟨c, parsed, rfl⟩ := Option.map_eq_some_iff.mp h
  refine parse_listed (shows_liveKitJson livekit) ?_ parsed
  have roomed : (liftRoomSlotId object).lookup "transports" = object.lookup "transports" :=
    lookup_liftRoomSlotId (by decide)
  have lifted : TransportsLifted (liftRoomSlotId object) :=
    .inl (Option.isSome_of_eq_some (roomed.trans stated))
  rw [contentField_obj, lookup_inferMembership (by decide), liftRtcTransports_self lifted, roomed,
    stated]

theorem firstLivekit_published :
    firstLivekit (publishedTransports (.publish (.liveKit livekit))) =
      some (liveKitJson livekit) := by
  obtain ⟨fields, is_object, type, -⟩ := shows_liveKitJson livekit
  have livekits : isLivekit (liveKitJson livekit) = true := by
    rw [isLivekit, is_object, Json.get, Json.asObject, Option.bind_some, type]
    rfl
  rw [firstLivekit, publishedTransports_liveKit, List.map_cons, List.map_nil]
  exact List.find?_cons_of_pos livekits

/-- A room-state membership of ours prefers its own focus, whatever has been published before. -/
theorem parsed_focus {d : RoomStateDialect} {event : LegacyStateMemberEventIn}
    {lifetimeMs : Option ℕ} {now readAt : ℕ} {member : Parsed}
    (content : event.content =
      (d.memberContent (liveKitContent livekit slotId memberId a) lifetimeMs now).2)
    (parsed : parse event readAt = some member) :
    member.ownFocus = some (d.aliased (liveKitJson livekit)) ∧ member.prefersOwnFocus = true := by
  have head := fociPreferred_head d slotId
    ⟨now, memberId, a, publishedTransports (.publish (.liveKit livekit)), lifetimeMs⟩
  rw [firstLivekit_published, Option.map_some] at head
  rw [liveKitContent, memberContent_join] at content
  obtain ⟨object, _, _, is_object, -, -, -, -, rfl⟩ := parse_eq_some.mp parsed
  rw [content, RoomStateDialect.statedContent] at is_object
  cases is_object
  exact ⟨head, rfl⟩

/-- Every peer that reads our room-state event reads the transport we joined on, whoever else it
reads beside us. -/
theorem read_state_transport {d : RoomStateDialect} {event : LegacyStateMemberEventIn}
    {lifetimeMs : Option ℕ} {now readAt : ℕ} {member : Parsed} {members : List Parsed}
    {roomId : String} {raw : RawStickyEvent}
    (content : event.content =
      (d.memberContent (liveKitContent livekit slotId memberId a) lifetimeMs now).2)
    (parsed : parse event readAt = some member)
    (h : toCoreStateMembership roomId (translateMembership members member) = some raw) :
    typedTransports raw.content = [.liveKit livekit] ∧
      subscribes raw.content = [livekitTransportType] := by
  obtain ⟨own, prefers⟩ := parsed_focus content parsed
  obtain ⟨c, is_content, rfl⟩ := Option.map_eq_some_iff.mp h
  have focused : resolveFocus member members = some (d.aliased (liveKitJson livekit)) := by
    rw [resolveFocus, if_pos ⟨prefers, Option.isSome_of_eq_some own⟩, own]
  have shown := shows_aliased d (shows_liveKitJson livekit)
  refine parse_listed shown ?_ is_content
  obtain ⟨fields, is_object, type, -⟩ := shown
  have typed : (d.aliased (liveKitJson livekit)).get "type" = some (.str livekitTransportType) := by
    rw [is_object, Json.get, Json.asObject, Option.bind_some, type]
  change contentField (rewrittenContent members member) "transports" = _
  rw [rewrittenContent, contentField_obj, focused]
  simp [List.lookup_cons, typed, Json.asStr, listed]

end

theorem transports_of_joined {raw : RawStickyEvent} {m : JoinedMembership}
    (joined : raw.membershipEvent = .joined m) :
    m.transports = typedTransports raw.content ∧ m.canSubscribe = subscribes raw.content := by
  obtain ⟨memberId, rfl⟩ := RawStickyEvent.membershipEvent_joined joined
  exact ⟨rfl, rfl⟩

/-- Whatever the homeserver lists, a join on what it advertises publishes on the first LiveKit
transport of the list, and in either format everyone who reads that membership, at any time,
beside anybody else and after any number of refreshes, reads exactly that transport, and that
we subscribe to LiveKit. -/
theorem advertised_read_back {rtcTransports : Json} {intent : TransportIntent}
    (chosen : choose rtcTransports .advertised = .ok intent) :
    ∃ before entry after livekit, rtcTransports.asArray.getD [] = before ++ entry :: after ∧
      liveKitEntry entry = some livekit ∧ (∀ other ∈ before, liveKitEntry other = none) ∧
      ∀ (slotId memberId roomId : String) (a : ApplicationInfo) (raw : RawStickyEvent)
        (m : JoinedMembership), raw.membershipEvent = .joined m →
        ((∃ event, event.content = joinContent slotId memberId a (publishedTransports intent) ∧
            toCoreMemberEvent roomId event = some raw) ∨
          ∃ (d : RoomStateDialect) (event : LegacyStateMemberEventIn) (lifetimeMs : Option ℕ)
            (now readAt : ℕ) (member : Parsed) (members : List Parsed),
            event.content = (d.memberContent (joinContent slotId memberId a
              (publishedTransports intent)) lifetimeMs now).2 ∧
            parse event readAt = some member ∧
            toCoreStateMembership roomId (translateMembership members member) = some raw) →
        m.transports = [.liveKit livekit] ∧ m.canSubscribe = [livekitTransportType] := by
  obtain ⟨livekit, rfl⟩ : ∃ livekit, intent = .publish (.liveKit livekit) := by
    rw [choose] at chosen
    split at chosen
    · exact ⟨_, (Except.ok.inj chosen).symm⟩
    · cases chosen
  obtain ⟨before, entry, after, listed, typed, first⟩ := choose_advertised.mp chosen
  refine ⟨before, entry, after, livekit, listed, typed, first, ?_⟩
  intro slotId memberId roomId a raw m joined read
  obtain ⟨transports, canSubscribe⟩ := transports_of_joined joined
  rw [transports, canSubscribe]
  rcases read with ⟨event, content, core⟩ |
    ⟨d, event, lifetimeMs, now, readAt, member, members, content, parsed, core⟩
  · exact read_sticky_transport content core
  · exact read_state_transport content parsed core

/-- Of a peer-to-peer and two LiveKit transports, the first LiveKit one. -/
def mixedTransports : Json :=
  .arr [.obj [("type", .str "p2p")],
    .obj [("type", .str "m.livekit"), ("url", .str "wss://sfu"), ("region", .str "eu")],
    .obj [("type", .str "livekit"), ("livekit_service_url", .str "https://jwt")]]

theorem advertised_read_back_mixed :
    ∃ before entry after livekit, mixedTransports.asArray.getD [] = before ++ entry :: after ∧
      liveKitEntry entry = some livekit ∧ ∀ other ∈ before, liveKitEntry other = none := by
  obtain ⟨before, entry, after, livekit, listed, typed, first, -⟩ :=
    advertised_read_back (show choose mixedTransports .advertised = .ok (.publish (.liveKit
      ⟨some "wss://sfu", none, none, .inl rfl, fun h => by cases h⟩)) by decide +kernel)
  exact ⟨before, entry, after, livekit, listed, typed, first⟩

end MatrixRtc.JoinTransports
